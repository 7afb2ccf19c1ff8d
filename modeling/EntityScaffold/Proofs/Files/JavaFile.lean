import Mathlib.Data.List.Lex
import Mathlib.Data.List.Nodup
import Mathlib.Data.String.Basic
import EntityScaffold.Proofs.Files.Write
import EntityScaffold.Proofs.Text.Cut
import EntityScaffold.Proofs.Text.CaseName

/-!
# The scan for Java files, and all files

The scan for Java files does not enter excluded directories. It finds what is left of all files when
those below such a directory are dropped, and those without the suffix of Java files
(`Directory.javaFiles_eq_filter`); whether a suffix is that of Java files is told letter by letter,
in capitals or not (`Directory.isJavaName_iff`). Names in a directory are distinct, so each file
comes once, in the order of names (`FileTree.javaFiles_exact`).
-/

namespace EntityScaffold

open Text

/-! ### Suffixes in capitals or not -/

namespace Text

/-- The text is another one, in capitals or not. -/
def IsCaseOf (s word : List Char) : Prop :=
  List.Forall₂ (fun c d => c = d ∨ c = d.toUpper) s word

/-- The characters of the suffix of Java files. -/
def javaLetters : List Char := ['.', 'j', 'a', 'v']

namespace Case

/-- Lower case makes such a character of itself and of its capital only. -/
theorem map_lower_cases (c : Char) :
    (∃ d ∈ map lowerRuns lowerFull c, d ∉ javaLetters) ∨
      ∃ d, map lowerRuns lowerFull c = [d] ∧ (c = d ∨ c = d.toUpper) := by
  refine forall_map (P := fun c cs => (∃ d ∈ cs, d ∉ javaLetters) ∨
    ∃ d, cs = [d] ∧ (c = d ∨ c = d.toUpper)) ?_ ?_ ?_ c
  · have hruns : ∀ r ∈ lowerRuns, ∀ n ∈ r.codes, Char.ofNat (r.image n) ∉ javaLetters ∨
        Char.ofNat n = (Char.ofNat (r.image n)).toUpper := by decide +kernel
    intro r hr n hn
    rcases hruns r hr n hn with hother | hcapital
    · exact Or.inl ⟨_, List.mem_singleton_self _, hother⟩
    · exact Or.inr ⟨_, rfl, Or.inr hcapital⟩
  · have hfull : ∀ e ∈ lowerFull, (e.2.map Char.ofNat).any (· ∉ javaLetters) = true := by
      decide +kernel
    intro e he
    obtain ⟨d, hd, hother⟩ := List.any_eq_true.1 (hfull e he)
    exact Or.inl ⟨d, hd, of_decide_eq_true hother⟩
  · exact fun c => Or.inr ⟨c, rfl, Or.inl rfl⟩

/-- Such a character and its capital have the character itself as their lower case. -/
theorem map_lower_of_mem {c d : Char} (hd : d ∈ javaLetters) (hc : c = d ∨ c = d.toUpper) :
    c ≠ 'Σ' ∧ map lowerRuns lowerFull c = [d] := by
  have hself : ∀ d ∈ javaLetters, d ≠ 'Σ' ∧ map lowerRuns lowerFull d = [d] :=
    forall_mem_of_all (by decide +kernel)
  have hcapital : ∀ d ∈ javaLetters, d.toUpper ≠ 'Σ' ∧
      map lowerRuns lowerFull d.toUpper = [d] := forall_mem_of_all (by decide +kernel)
  rcases hc with rfl | rfl
  · exact hself _ hd
  · exact hcapital d hd

/-- What lower case makes of the first character of a text, a capital sigma included. -/
theorem exists_lowerAfter_cons (before : List Char) (c : Char) (s : List Char) :
    ∃ made, lowerAfter before (c :: s) = made ++ lowerAfter (c :: before) s ∧
      ((∃ d ∈ made, d ∉ javaLetters) ∨ ∃ d, made = [d] ∧ (c = d ∨ c = d.toUpper)) := by
  refine ⟨_, rfl, ?_⟩
  split
  · have hsigma : 'ς' ∉ javaLetters ∧ 'σ' ∉ javaLetters := by decide
    refine Or.inl ⟨_, List.mem_singleton_self _, ?_⟩
    split
    · exact hsigma.1
    · exact hsigma.2
  · exact map_lower_cases c

end Case

/-- **A text of such characters is the lower case of itself in capitals or not**, and of nothing
else. -/
theorem lower_eq_iff {s word : List Char} (hword : ∀ d ∈ word, d ∈ javaLetters) :
    lower s = word ↔ IsCaseOf s word := by
  have hafter (before : List Char) : Case.lowerAfter before s = word ↔ IsCaseOf s word := by
    induction s generalizing before word with
    | nil => cases word <;> simp [Case.lowerAfter, IsCaseOf]
    | cons c s ih =>
      constructor
      · intro h
        obtain ⟨made, hmade, hcases⟩ := Case.exists_lowerAfter_cons before c s
        obtain rfl := hmade.symm.trans h
        rcases hcases with ⟨d, hd, hother⟩ | ⟨d, rfl, hcase⟩
        · exact absurd (hword d (List.mem_append_left _ hd)) hother
        · exact .cons hcase ((ih (fun d hd => hword d (List.mem_cons_of_mem _ hd)) _).1 rfl)
      · intro h
        cases h with
        | @cons _ d _ rest hcase hrest =>
          obtain ⟨hsigma, hmap⟩ := Case.map_lower_of_mem (hword d List.mem_cons_self) hcase
          rw [Case.lowerAfter, if_neg hsigma, hmap, List.singleton_append, List.cons_inj_right]
          exact (ih (fun d hd => hword d (List.mem_cons_of_mem _ hd)) _).2 hrest
  exact hafter []

end Text

namespace Directory

/-- The name has the suffix of Java files, in capitals or not: all that stands from its last dot on,
where that dot is not first. -/
def HasJavaSuffix (name : String) : Prop :=
  ∃ stem ext : List Char, name.toList = stem ++ '.' :: ext ∧ stem ≠ [] ∧ IsCaseOf ext "java".toList

theorem dot_notMem_of_isCaseOf {ext word : List Char} (h : IsCaseOf ext word)
    (hword : ∀ d ∈ word, '.' ≠ d ∧ '.' ≠ d.toUpper) : '.' ∉ ext := by
  induction h with
  | nil => exact List.not_mem_nil
  | cons hcase _ ih =>
    obtain ⟨hd, hrest⟩ := List.forall_mem_cons.1 hword
    rw [List.mem_cons, not_or]
    refine ⟨?_, ih hrest⟩
    rcases hcase with rfl | rfl
    · exact hd.1
    · exact hd.2

/-- **What counts as the name of a Java file.** -/
theorem isJavaName_iff {name : String} : isJavaName name = true ↔ HasJavaSuffix name := by
  have hletters : ∀ d ∈ ".java".toList, d ∈ javaLetters := forall_mem_of_all (by decide)
  have hlower : toLower (Path.suffixOf name) = ".java" ↔
      IsCaseOf (Path.suffixOf name).toList ".java".toList := by
    rw [← lower_eq_iff hletters, toLower, ← String.toList_inj, String.toList_ofList]
  -- the file that is excluded by its name is no Java file anyway
  have hexcluded : name ∈ Path.excludedFiles → toLower (Path.suffixOf name) ≠ ".java" := by
    intro hmem
    obtain rfl := List.mem_singleton.1 hmem
    decide +kernel
  have hjava : isJavaName name = true ↔ IsCaseOf (Path.suffixOf name).toList ".java".toList := by
    rw [isJavaName, ← hlower, Bool.and_eq_true, decide_eq_true_eq, decide_eq_true_eq,
      and_iff_right_iff_imp]
    exact fun heq hmem => hexcluded hmem heq
  rw [hjava]
  constructor
  · intro h
    unfold Path.suffixOf at h
    split at h
    · rename_i stem ext hcut
      split_ifs at h with hempty
      · cases h
      · rw [Bool.or_eq_true, List.isEmpty_iff, List.isEmpty_iff, not_or] at hempty
        rw [String.toList_ofList] at h
        cases h with
        | cons _ hext => exact ⟨stem, ext, (eq_of_cutLast hcut).1, hempty.1, hext⟩
    · cases h
  · rintro ⟨stem, ext, hname, hstem, hext⟩
    have hdot : '.' ∉ ext := dot_notMem_of_isCaseOf hext (forall_mem_of_all (by decide))
    have hne : ext ≠ [] := by
      rintro rfl
      cases hext
    have hsuffix : Path.suffixOf name = .ofList ('.' :: ext) := by
      rw [Path.suffixOf, hname, cutLast_append_cons hdot]
      simp [hstem, hne]
    rw [hsuffix, String.toList_ofList]
    exact .cons (Or.inl rfl) hext

/-! ### All files -/

/-- The names lead to a Java file, and none of the directories on the way is excluded. -/
def IsJavaPath (names : List String) : Prop :=
  ∃ dirs name, names = dirs ++ [name] ∧ HasJavaSuffix name ∧
    ∀ d ∈ dirs, d ∉ Path.excludedDirectories

theorem isJavaPath_singleton {name : String} : IsJavaPath [name] ↔ isJavaName name = true := by
  rw [isJavaName_iff]
  constructor
  · rintro ⟨dirs, last, heq, hlast, -⟩
    cases dirs with
    | nil =>
      cases heq
      exact hlast
    | cons d dirs => simp at heq
  · exact fun h => ⟨[], name, rfl, h, List.forall_mem_nil _⟩

theorem isJavaPath_cons {name : String} {names : List String} (hne : names ≠ []) :
    IsJavaPath (name :: names) ↔ Path.isExcluded name = false ∧ IsJavaPath names := by
  have hexcluded : Path.isExcluded name = false ↔ name ∉ Path.excludedDirectories := by
    rw [Path.isExcluded, decide_eq_false_iff_not]
  rw [hexcluded]
  constructor
  · rintro ⟨dirs, last, heq, hlast, hdirs⟩
    cases dirs with
    | nil => exact absurd (List.cons.inj heq).2 hne
    | cons d dirs =>
      obtain ⟨rfl, rfl⟩ := List.cons.inj heq
      obtain ⟨hd, hdirs⟩ := List.forall_mem_cons.1 hdirs
      exact ⟨hd, dirs, last, rfl, hlast, hdirs⟩
  · rintro ⟨hname, dirs, last, rfl, hlast, hdirs⟩
    exact ⟨name :: dirs, last, rfl, hlast, List.forall_mem_cons.2 ⟨hname, hdirs⟩⟩

instance decidableIsJavaPath : DecidablePred IsJavaPath
  | [] => isFalse fun ⟨dirs, name, heq, _⟩ => by simp at heq
  | [_] => decidable_of_iff _ isJavaPath_singleton.symm
  | name :: second :: rest =>
    have := decidableIsJavaPath (second :: rest)
    decidable_of_iff (Path.isExcluded name = false ∧ IsJavaPath (second :: rest))
      (isJavaPath_cons (List.cons_ne_nil _ _)).symm

end Directory

/-- The names of a file start with that of what it is in. -/
theorem FileNode.exists_cons_of_mem_files {name : String} {n : FileNode}
    {f : List String × Bytes} (h : f ∈ n.files name) : ∃ rest, f.1 = name :: rest := by
  cases n with
  | file content =>
    rw [FileNode.files, List.mem_singleton] at h
    exact ⟨[], by rw [h]⟩
  | directory entries =>
    rw [FileNode.files, List.mem_map] at h
    obtain ⟨g, -, rfl⟩ := h
    exact ⟨g.1, rfl⟩

theorem Directory.exists_cons_of_mem_files {entries : Directory} {f : List String × Bytes}
    (h : f ∈ Directory.files entries) : ∃ name ∈ entries.map (·.1), ∃ rest, f.1 = name :: rest := by
  induction entries with
  | nil => cases h
  | cons e entries ih =>
    rw [Directory.files, List.mem_append] at h
    rcases h with h | h
    · exact ⟨e.1, List.mem_cons_self, FileNode.exists_cons_of_mem_files h⟩
    · obtain ⟨name, hname, hrest⟩ := ih h
      exact ⟨name, List.mem_cons_of_mem _ hname, hrest⟩

mutual

theorem FileNode.javaFiles_eq_filter (name : String) : ∀ n : FileNode,
    n.javaFiles name = ((n.files name).map (·.1)).filter (Directory.IsJavaPath ·)
  | .file content => by
    have hpath : Directory.IsJavaPath [name] ↔ Directory.isJavaName name = true :=
      Directory.isJavaPath_singleton
    by_cases hname : Directory.isJavaName name = true
    · simp [FileNode.javaFiles, FileNode.files, hpath, hname]
    · simp [FileNode.javaFiles, FileNode.files, hpath, hname]
  | .directory entries => by
    have hpath : ∀ names ∈ (Directory.files entries).map (·.1),
        decide (Directory.IsJavaPath (name :: names)) =
          (!Path.isExcluded name && decide (Directory.IsJavaPath names)) := by
      intro names hnames
      obtain ⟨f, hf, rfl⟩ := List.mem_map.1 hnames
      obtain ⟨_, -, _, hcons⟩ := Directory.exists_cons_of_mem_files hf
      have hne : f.1 ≠ [] := by simp [hcons]
      rw [Bool.eq_iff_iff]
      simp [Directory.isJavaPath_cons hne]
    -- an excluded directory is not entered, and none of its files would pass the filter
    have hfilter : ((Directory.files entries).map (·.1)).filter
        (fun names => decide (Directory.IsJavaPath (name :: names))) =
          if Path.isExcluded name then [] else Directory.javaFiles entries := by
      rw [List.filter_congr hpath, Directory.javaFiles_eq_filter entries]
      cases Path.isExcluded name <;> simp
    have hnames : (FileNode.files name (.directory entries)).map (·.1) =
        ((Directory.files entries).map (·.1)).map (name :: ·) := by
      rw [FileNode.files, List.map_map, List.map_map]
      rfl
    rw [FileNode.javaFiles, hnames, List.filter_map]
    change _ = (((Directory.files entries).map (·.1)).filter
      fun names => decide (Directory.IsJavaPath (name :: names))).map (name :: ·)
    rw [hfilter]
    split <;> rfl

/-- **The scan finds what is left of all files**, although it does not enter all directories. -/
theorem Directory.javaFiles_eq_filter : ∀ entries : Directory,
    Directory.javaFiles entries =
      ((Directory.files entries).map (·.1)).filter (Directory.IsJavaPath ·)
  | [] => rfl
  | (name, n) :: rest => by
    rw [Directory.javaFiles, Directory.files, FileNode.javaFiles_eq_filter name n,
      Directory.javaFiles_eq_filter rest, List.map_append, List.filter_append]

end

/-! ### Distinct names -/

/-- One more entry keeps names distinct if its name is new, and names are distinct below it. -/
theorem FileNode.isDistinct_cons_iff {name : String} {n : FileNode} {es : Directory} :
    (directory ((name, n) :: es)).IsDistinct ↔
      name ∉ es.map (·.1) ∧ n.IsDistinct ∧ (directory es).IsDistinct := by
  have hfind (key : String) (rest : List String) :
      (directory ((name, n) :: es)).find? (key :: rest) =
        if key = name then n.find? rest else (directory es).find? (key :: rest) := by
    rw [find?_cons, lookup_pair_cons, find?_cons]
    split_ifs <;> rfl
  constructor
  · intro h
    have hnodup := h [] _ (find?_nil _)
    rw [List.map_cons, List.nodup_cons] at hnodup
    refine ⟨hnodup.1, fun names entries hn => h (name :: names) entries ?_,
      fun names entries hes => ?_⟩
    · rwa [hfind, if_pos rfl]
    · cases names with
      | nil =>
        cases hes
        exact hnodup.2
      | cons key rest =>
        have hkey : key ≠ name := by
          rintro rfl
          rw [find?_cons, lookup_eq_none_iff_notMem.2 hnodup.1] at hes
          cases hes
        exact h (key :: rest) entries (by rwa [hfind, if_neg hkey])
  · rintro ⟨hname, hn, hes⟩ names entries h
    cases names with
    | nil =>
      cases h
      exact List.nodup_cons.2 ⟨hname, hes [] es (find?_nil _)⟩
    | cons key rest =>
      rw [hfind] at h
      split_ifs at h
      · exact hn rest entries h
      · exact hes (key :: rest) entries h

/-- Names lead to a file through the first entry, or through the others. -/
theorem FileNode.file?_directory_cons (name key : String) (n : FileNode) (es : Directory)
    (names : List String) :
    (directory ((name, n) :: es)).file? (key :: names) =
      if key = name then n.file? names else (directory es).file? (key :: names) := by
  by_cases hkey : key = name
  · rw [file?, find?_cons, lookup_pair_cons, if_pos hkey, if_pos hkey]
    rfl
  · rw [file?, find?_cons, lookup_pair_cons, if_neg hkey, if_neg hkey, file?, find?_cons]

mutual

theorem FileNode.mem_files {name : String} {names : List String} {content : Bytes} :
    ∀ {n : FileNode}, n.IsDistinct → ((names, content) ∈ n.files name ↔
      ∃ rest, names = name :: rest ∧ n.file? rest = some content)
  | .file old, _ => by
    rw [FileNode.files, List.mem_singleton, Prod.mk.injEq]
    constructor
    · rintro ⟨rfl, rfl⟩
      exact ⟨[], rfl, rfl⟩
    · rintro ⟨rest, rfl, hrest⟩
      cases rest with
      | nil =>
        cases hrest
        exact ⟨rfl, rfl⟩
      | cons key rest => cases hrest
  | .directory entries, h => by
    rw [FileNode.files, List.mem_map]
    constructor
    · rintro ⟨f, hf, heq⟩
      cases heq
      exact ⟨f.1, rfl, (Directory.mem_files h).1 hf⟩
    · rintro ⟨rest, rfl, hrest⟩
      exact ⟨(rest, content), (Directory.mem_files h).2 hrest, rfl⟩

/-- **All files are those that names lead to**, where names are distinct. -/
theorem Directory.mem_files {names : List String} {content : Bytes} :
    ∀ {entries : Directory}, (FileNode.directory entries).IsDistinct →
      ((names, content) ∈ Directory.files entries ↔
        (FileNode.directory entries).file? names = some content)
  | [], _ => by
    cases names with
    | nil => simp [Directory.files]
    | cons key rest => simp [Directory.files, FileNode.file?, FileNode.find?_cons]
  | (name, n) :: es, h => by
    obtain ⟨hname, hn, hes⟩ := FileNode.isDistinct_cons_iff.1 h
    rw [Directory.files, List.mem_append, FileNode.mem_files hn, Directory.mem_files hes]
    cases names with
    | nil => simp
    | cons key rest =>
      rw [FileNode.file?_directory_cons]
      by_cases hkey : key = name
      · subst hkey
        have hnone : (FileNode.directory es).file? (key :: rest) = none := by
          rw [FileNode.file?, FileNode.find?_cons, lookup_eq_none_iff_notMem.2 hname]
          rfl
        simp [hnone]
      · simp [hkey]

end

mutual

theorem FileNode.nodup_files (name : String) : ∀ {n : FileNode}, n.IsDistinct →
    ((n.files name).map (·.1)).Nodup
  | .file content, _ => by simp [FileNode.files]
  | .directory entries, h => by
    have hnodup := (Directory.nodup_files h).map (List.cons_injective (a := name))
    rw [FileNode.files, List.map_map]
    rwa [List.map_map] at hnodup

/-- Where names are distinct, no file comes twice. -/
theorem Directory.nodup_files : ∀ {entries : Directory},
    (FileNode.directory entries).IsDistinct → ((Directory.files entries).map (·.1)).Nodup
  | [], _ => List.nodup_nil
  | (name, n) :: es, h => by
    obtain ⟨hname, hn, hes⟩ := FileNode.isDistinct_cons_iff.1 h
    rw [Directory.files, List.map_append, List.nodup_append]
    refine ⟨FileNode.nodup_files name hn, Directory.nodup_files hes, ?_⟩
    intro names hnames names' hnames' heq
    obtain ⟨f, hf, rfl⟩ := List.mem_map.1 hnames
    obtain ⟨g, hg, rfl⟩ := List.mem_map.1 hnames'
    obtain ⟨_, hfirst⟩ := FileNode.exists_cons_of_mem_files hf
    obtain ⟨key, hkey, _, hsecond⟩ := Directory.exists_cons_of_mem_files hg
    rw [heq, hsecond] at hfirst
    exact hname ((List.cons.inj hfirst).1 ▸ hkey)

end

/-- **A scan finds the Java files that names lead to** past no excluded directory. -/
theorem Directory.mem_javaFiles_iff {entries : Directory} {names : List String}
    (h : (FileNode.directory entries).IsDistinct) : names ∈ Directory.javaFiles entries ↔
      IsJavaPath names ∧ ∃ content, (FileNode.directory entries).file? names = some content := by
  rw [Directory.javaFiles_eq_filter, List.mem_filter, and_comm, decide_eq_true_eq, List.mem_map]
  refine and_congr_right fun _ => ⟨?_, fun ⟨content, hfile⟩ => ?_⟩
  · rintro ⟨f, hf, rfl⟩
    exact ⟨f.2, (Directory.mem_files h).1 hf⟩
  · exact ⟨(names, content), (Directory.mem_files h).2 hfile, rfl⟩

/-! ### The order of paths -/

namespace Path

/-- Names are in order unless they come the other way around. -/
theorem namesLe_iff {as bs : List String} : namesLe as bs = true ↔ ¬ bs < as := by
  induction as generalizing bs with
  | nil => simp [namesLe]
  | cons a as ih =>
    cases bs with
    | nil => simp [namesLe]
    | cons b bs =>
      rw [namesLe, List.cons_lt_cons_iff]
      by_cases hab : a = b
      · subst hab
        simp [ih]
      · have hba : b ≠ a := Ne.symm hab
        simp only [hab, hba, if_false, false_and, or_false, decide_eq_true_eq, not_lt]

theorem le_iff {p q : Path} : p.le q = true ↔ p.names ≤ q.names := by
  rw [le, namesLe_iff, not_lt]

end Path

namespace FileTree

variable {t : FileTree} {p : Path}

/-- The scan gives paths in the order of their names. -/
theorem pairwise_javaFiles (t : FileTree) (p : Path) :
    (t.javaFiles p).Pairwise fun a b => a.names ≤ b.names := by
  have htrans : ∀ a b c : Path, a.le b = true → b.le c = true → a.le c = true := by
    intro a b c hab hbc
    rw [Path.le_iff] at hab hbc ⊢
    exact hab.trans hbc
  have htotal : ∀ a b : Path, (a.le b || b.le a) = true := by
    intro a b
    rw [Bool.or_eq_true, Path.le_iff, Path.le_iff]
    exact le_total a.names b.names
  exact (List.pairwise_mergeSort htrans htotal _).imp Path.le_iff.1

theorem descend_injective (p : Path) : Function.Injective p.descend := by
  intro xs ys h
  exact List.append_cancel_left (Path.mk.inj h).2

/-- **The scan for Java files is exact.** In a file system, where no directory has two entries of
one name, it gives the files below a directory that have the suffix of Java files, in capitals or
not, and that no excluded directory is on the way to: each of them once, in the order of names, and
nothing else. Leaving excluded directories out on the way is the same as taking all files and
dropping those of other names and those below such directories. -/
theorem javaFiles_exact (t : FileTree) (h : t.root.IsDistinct) (p : Path) :
    (t.javaFiles p).Pairwise (fun a b => a.names < b.names) ∧
    (∀ q, q ∈ t.javaFiles p ↔ ∃ dirs name content, q = p.descend (dirs ++ [name]) ∧
      (FileNode.directory (t.directory p)).find? (dirs ++ [name]) = some (.file content) ∧
      Directory.HasJavaSuffix name ∧ ∀ d ∈ dirs, d ∉ Path.excludedDirectories) ∧
    t.javaFiles p = ((((Directory.files (t.directory p)).map (·.1)).filter
      (Directory.IsJavaPath ·)).map p.descend).mergeSort Path.le ∧
    ∀ names content, (names, content) ∈ Directory.files (t.directory p) ↔
      (FileNode.directory (t.directory p)).find? names = some (.file content) := by
  have hdistinct := isDistinct_directory h p
  have hfiles : ∀ names content, (names, content) ∈ Directory.files (t.directory p) ↔
      (FileNode.directory (t.directory p)).find? names = some (.file content) := fun _ _ =>
    (Directory.mem_files hdistinct).trans FileNode.file?_eq_some_iff
  have hfilter := Directory.javaFiles_eq_filter (t.directory p)
  refine ⟨?_, fun q => ?_, by rw [javaFiles, hfilter], hfiles⟩
  · -- sorted, and nothing comes twice
    have hnodup : (t.javaFiles p).Nodup := by
      rw [javaFiles, (List.mergeSort_perm _ _).nodup_iff, hfilter]
      exact ((Directory.nodup_files hdistinct).filter _).map (descend_injective p)
    refine ((pairwise_javaFiles t p).and hnodup).imp_of_mem fun {a b} ha hb hab => ?_
    obtain ⟨xs, -, rfl⟩ := mem_javaFiles.1 ha
    obtain ⟨ys, -, rfl⟩ := mem_javaFiles.1 hb
    refine lt_of_le_of_ne hab.1 fun heq => hab.2 ?_
    exact congrArg (Path.mk p.root) heq
  · rw [mem_javaFiles]
    constructor
    · rintro ⟨names, hnames, rfl⟩
      obtain ⟨⟨dirs, name, rfl, hname, hdirs⟩, content, hfile⟩ :=
        (Directory.mem_javaFiles_iff hdistinct).1 hnames
      exact ⟨dirs, name, content, rfl, FileNode.file?_eq_some_iff.1 hfile, hname, hdirs⟩
    · rintro ⟨dirs, name, content, rfl, hfile, hname, hdirs⟩
      exact ⟨_, (Directory.mem_javaFiles_iff hdistinct).2 ⟨⟨dirs, name, rfl, hname, hdirs⟩, content,
        FileNode.file?_eq_some_iff.2 hfile⟩, rfl⟩

/-- A tree with sources at several depths: a directory whose name ends as that of a Java file does,
results of a build, and a file whose name starts with its only dot. -/
def sourcesTree : FileTree where
  root := .directory
    [("src", .directory
      [("b.java", .directory [("Y.Java", .file [])]),
       ("a-b", .directory [("X.java", .file [])]),
       ("build", .directory [("Made.java", .file [])]),
       ("a", .directory [("Z.JAVA", .file []), ("notes.md", .file [])]),
       (".java", .file [])])]

/-- A file in capitals is found, in its place. -/
theorem javaFiles_exact_sourcesTree :
    sourcesTree.root.IsDistinct ∧
      ⟨"/", ["src", "a", "Z.JAVA"]⟩ ∈ sourcesTree.javaFiles ⟨"/", ["src"]⟩ ∧
      (sourcesTree.javaFiles ⟨"/", ["src"]⟩).Pairwise fun a b => a.names < b.names := by
  have hdistinct : sourcesTree.root.IsDistinct := by
    simp [sourcesTree, FileNode.isDistinct_cons_iff, FileNode.isDistinct_file,
      FileNode.isDistinct_empty]
  obtain ⟨hsorted, hmem, -⟩ := javaFiles_exact sourcesTree hdistinct ⟨"/", ["src"]⟩
  refine ⟨hdistinct, (hmem _).2 ⟨["a"], "Z.JAVA", [], rfl, rfl, ?_, ?_⟩, hsorted⟩
  · exact Directory.isJavaName_iff.1 (by decide +kernel)
  · decide

example : Directory.javaFiles (sourcesTree.directory ⟨"/", ["src"]⟩) =
    [["b.java", "Y.Java"], ["a-b", "X.java"], ["a", "Z.JAVA"]] := by
  decide +kernel

end FileTree

end EntityScaffold

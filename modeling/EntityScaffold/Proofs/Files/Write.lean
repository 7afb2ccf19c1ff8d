import Mathlib.Tactic.Common
import EntityScaffold.Proofs.Files.Scan
import EntityScaffold.Proofs.Lookup

/-!
# What a write changes

A write makes the directories that are missing on its way, which changes no file, and then puts one
file in its place (`FileTree.file?_of_write`). A tree only grows by it (`FileTree.Grows`): all
directories stay, so whatever a path led to it still leads to, and the names in a directory stay
distinct. Seen from a source root, the written file is the only one that is new or different
(`FileTree.fileBelow?_of_write`).
-/

namespace EntityScaffold

/-- Setting a name adds it, if it is new, and no other. -/
theorem Directory.map_fst_set (name : String) (n : FileNode) (d : Directory) :
    (Directory.set name n d).map (·.1) =
      if name ∈ d.map (·.1) then d.map (·.1) else d.map (·.1) ++ [name] := by
  induction d with
  | nil => simp [Directory.set]
  | cons entry d ih =>
    obtain ⟨key, old⟩ := entry
    by_cases hk : key = name
    · simp [Directory.set, hk]
    · have hk' : name ≠ key := Ne.symm hk
      simp only [Directory.set, hk, if_false, List.map_cons, ih, List.mem_cons, hk', false_or]
      split <;> rfl

namespace FileNode

variable {n new : FileNode} {names : List String} {content : Text.Bytes}

/-! ### Files -/

/-- The content of the file that names lead to. -/
def file? (n : FileNode) (names : List String) : Option Text.Bytes :=
  match n.find? names with
  | some (file content) => some content
  | _ => none

theorem file?_eq_some_iff : n.file? names = some content ↔ n.find? names = some (file content) := by
  unfold file?
  split
  · rename_i h
    rw [h]
    simp
  · rename_i h
    exact ⟨fun hc => (by cases hc), fun hc => absurd hc (h content)⟩

theorem file?_eq_none_iff :
    n.file? names = none ↔ ∀ content, n.find? names ≠ some (file content) := by
  rw [Option.eq_none_iff_forall_ne_some]
  exact forall_congr' fun content => not_congr file?_eq_some_iff

@[simp] theorem file?_directory_nil (entries : Directory) : (directory entries).file? [] = none :=
  rfl

/-- Names that lead on lead through a directory. -/
theorem exists_directory_of_find? {n' : FileNode} {name : String} {rest : List String}
    (h : n.find? (names ++ name :: rest) = some n') :
    ∃ entries, n.find? names = some (directory entries) := by
  rw [find?_append] at h
  cases hn : n.find? names with
  | none => rw [hn] at h; cases h
  | some m =>
    rw [hn, Option.bind_some] at h
    cases m with
    | file old => cases h
    | directory entries => exact ⟨entries, rfl⟩

theorem file?_cons (entries : Directory) (name : String) (rest : List String) :
    (directory entries).file? (name :: rest) = (entries.lookup name).bind (·.file? rest) := by
  unfold file?
  rw [find?_cons]
  cases entries.lookup name <;> rfl

/-- A file below another name is the same as before. -/
theorem file?_put_cons (name other : String) (place rest : List String) (entries : Directory) :
    (put new (name :: place) (directory entries)).file? (other :: rest) =
      if other = name then
        (put new place ((entries.lookup name).getD (directory []))).file? rest
      else (directory entries).file? (other :: rest) := by
  unfold file?
  rw [find?_put_cons]
  split_ifs <;> rfl

/-- What is put into a directory is found below its own name, and nothing else changes. -/
theorem file?_put {dirs : List String} {entries : Directory}
    (h : n.find? dirs = some (directory entries)) (name : String) (names : List String) :
    (put new (dirs ++ [name]) n).file? names =
      if dirs ++ [name] <+: names then new.file? (names.drop (dirs.length + 1))
      else n.file? names := by
  -- down the path to the directory, whose nodes are all there
  induction dirs generalizing n names with
  | nil =>
    rw [find?_nil] at h
    cases h
    cases names with
    | nil => simp [put_cons]
    | cons other rest =>
      rw [List.nil_append, file?_put_cons]
      by_cases hname : other = name
      · simp [hname, put]
      · have hprefix : ¬ [name] <+: other :: rest := fun hp =>
          hname (List.cons_prefix_cons.1 hp).1.symm
        rw [if_neg hname, if_neg hprefix]
  | cons d dirs ih =>
    cases n with
    | file content => cases h
    | directory es =>
      rw [find?_cons] at h
      obtain ⟨n, hd, hn⟩ := Option.bind_eq_some_iff.1 h
      cases names with
      | nil => simp [put_cons]
      | cons other rest =>
        rw [List.cons_append, file?_put_cons, hd, Option.getD_some]
        by_cases hother : other = d
        · subst hother
          rw [if_pos rfl, ih hn, file?_cons, hd, Option.bind_some]
          simp [List.cons_prefix_cons]
        · have hprefix : ¬ d :: (dirs ++ [name]) <+: other :: rest := fun hp =>
            hother (List.cons_prefix_cons.1 hp).1.symm
          rw [if_neg hother, if_neg hprefix]

/-- A file that is put where no directory is changes what is in its own place, and no other file. -/
theorem file?_putFile {dirs : List String} {entries : Directory} {name : String}
    (h : n.find? dirs = some (directory entries))
    (hfree : ∀ es, n.find? (dirs ++ [name]) ≠ some (directory es)) (names : List String) :
    (put (file content) (dirs ++ [name]) n).file? names =
      if names = dirs ++ [name] then some content else n.file? names := by
  rw [file?_put h]
  by_cases hprefix : dirs ++ [name] <+: names
  · obtain ⟨rest, rfl⟩ := hprefix
    rw [if_pos (List.prefix_append _ _)]
    have hdrop : (dirs ++ [name] ++ rest).drop (dirs.length + 1) = rest :=
      List.drop_left' (by simp)
    rw [hdrop]
    cases rest with
    | nil => simp [file?]
    | cons other rest =>
      -- nothing is below a file, neither the new one nor one that was there
      have hold : n.file? (dirs ++ [name] ++ other :: rest) = none := by
        refine file?_eq_none_iff.2 fun c hc => ?_
        obtain ⟨es, hes⟩ := exists_directory_of_find? hc
        exact hfree es hes
      rw [hold, if_neg (by simp)]
      rfl
  · have hne : names ≠ dirs ++ [name] := fun he => hprefix (he.symm ▸ List.prefix_refl _)
    rw [if_neg hprefix, if_neg hne]

/-- An empty directory that is put where nothing is changes no file. -/
theorem file?_putDirectory {dirs : List String} {entries : Directory} {name : String}
    (h : n.find? dirs = some (directory entries)) (hfree : n.find? (dirs ++ [name]) = none) :
    (put (directory []) (dirs ++ [name]) n).file? = n.file? := by
  funext names
  rw [file?_put h]
  split
  · rename_i hprefix
    obtain ⟨rest, rfl⟩ := hprefix
    have hold : n.file? (dirs ++ [name] ++ rest) = none := by
      refine file?_eq_none_iff.2 fun c hc => ?_
      rw [find?_append, hfree] at hc
      cases hc
    rw [hold, file?_eq_none_iff]
    intro c hc
    cases hrest : (dirs ++ [name] ++ rest).drop (dirs.length + 1) with
    | nil => rw [hrest] at hc; cases hc
    | cons other rest => rw [hrest] at hc; cases hc
  · rfl

/-! ### Distinct names -/

/-- No directory has two entries of one name. -/
def IsDistinct (n : FileNode) : Prop :=
  ∀ names entries, n.find? names = some (directory entries) → (entries.map (·.1)).Nodup

theorem isDistinct_file (content : Text.Bytes) : (file content).IsDistinct := by
  intro names entries h
  cases names <;> cases h

theorem isDistinct_empty : (directory []).IsDistinct := by
  intro names entries h
  cases names with
  | nil =>
    cases h
    exact List.nodup_nil
  | cons name rest => cases h

theorem IsDistinct.find? {m : FileNode} (h : n.IsDistinct) (hm : n.find? names = some m) :
    m.IsDistinct := by
  intro rest entries hrest
  refine h (names ++ rest) entries ?_
  rw [find?_append, hm]
  exact hrest

/-- Putting something keeps names distinct. -/
theorem IsDistinct.put (h : n.IsDistinct) (hnew : new.IsDistinct) (place : List String) :
    (put new place n).IsDistinct := by
  induction place generalizing n with
  | nil =>
    rw [FileNode.put]
    exact hnew
  | cons p place ih =>
    cases n with
    | file content => exact h
    | directory es =>
      have hnodup : (es.map (·.1)).Nodup := h [] es (find?_nil _)
      intro names entries hfind
      cases names with
      | nil =>
        rw [put_cons, find?_nil] at hfind
        cases hfind
        rw [Directory.map_fst_set]
        split
        · exact hnodup
        · rename_i hp
          exact List.nodup_append.2 ⟨hnodup, by simp, fun x hx y hy he =>
            hp (List.mem_singleton.1 hy ▸ he ▸ hx)⟩
      | cons d names =>
        rw [find?_put_cons] at hfind
        split at hfind
        · refine ih ?_ names entries hfind
          cases hl : es.lookup p with
          | none => exact isDistinct_empty
          | some m =>
            have hm : (directory es).find? [p] = some m := by
              rw [find?_cons, hl, Option.bind_some, find?_nil]
            exact h.find? hm
        · exact h _ entries hfind

end FileNode

namespace FileTree

variable {t t' t'' : FileTree} {p : Path} {names base : List String} {text : String}

/-! ### Trees that grow -/

/-- Directories stay, and names in directories stay distinct. -/
structure Grows (t t' : FileTree) : Prop where
  current : t'.current = t.current
  keeps : t.root.Keeps t'.root
  distinct : t.root.IsDistinct → t'.root.IsDistinct

namespace Grows

theorem refl (t : FileTree) : t.Grows t := ⟨rfl, fun _ entries h => ⟨entries, h⟩, id⟩

theorem trans (h : t.Grows t') (h' : t'.Grows t'') : t.Grows t'' where
  current := h'.current.trans h.current
  keeps names entries hn := by
    obtain ⟨es, hes⟩ := h.keeps names entries hn
    exact h'.keeps names es hes
  distinct hd := h'.distinct (h.distinct hd)

/-- Something is put where no directory is. -/
theorem put {new : FileNode} {place : List String} (hnew : new.IsDistinct)
    (hfree : ∀ entries, t.node? place ≠ some (.directory entries)) : t.Grows (t.put place new) :=
  ⟨rfl, FileNode.keeps_put new hfree, fun hd => hd.put hnew place⟩

/-- A path leads where it led before. -/
theorem place (h : t.Grows t') (hp : t.place p = .ok base) : t'.place p = .ok base := by
  unfold FileTree.place at hp ⊢
  rw [h.current]
  exact walk_of_keeps h.keeps hp

end Grows

/-- A path leads to a directory, or to a name in one. -/
theorem exists_parent_of_free {place : List String} (hnames : p.names ≠ [])
    (h : t.place p = .ok place) (hfree : ∀ es, t.node? place ≠ some (.directory es)) :
    ∃ parent entries name, t.node? parent = some (.directory entries) ∧
      place = parent ++ [name] := by
  obtain ⟨parent, entries, hparent, rfl⟩ :=
    exists_parent_of_place (List.dropLast_concat_getLast hnames).symm h
  by_cases hdots : p.names.getLast hnames = ".."
  · -- two dots lead to what is above a directory
    rw [if_pos hdots] at hfree
    rcases eq_or_ne parent [] with rfl | hne
    · exact absurd hparent (hfree entries)
    · rw [node?, ← List.dropLast_concat_getLast hne] at hparent
      obtain ⟨es, hes⟩ := FileNode.exists_directory_of_find? hparent
      exact absurd hes (hfree es)
  · exact ⟨parent, entries, _, hparent, by rw [if_neg hdots]⟩

/-- Directories that are made change no file. -/
theorem grows_of_makeDirectory (hnames : p.names ≠ []) (h : t.makeDirectory p = .ok t') :
    t.Grows t' ∧ t'.root.file? = t.root.file? := by
  unfold makeDirectory at h
  cases hplace : t.place p with
  | error e => rw [hplace] at h; cases h
  | ok place =>
    simp only [hplace, bind, Except.bind] at h
    split at h
    · cases h
      exact ⟨.refl t, rfl⟩
    · cases h
    · rename_i hnone
      cases h
      have hfree : ∀ es, t.node? place ≠ some (.directory es) := fun es => by simp [hnone]
      obtain ⟨parent, entries, name, hparent, rfl⟩ := exists_parent_of_free hnames hplace hfree
      exact ⟨.put FileNode.isDistinct_empty hfree, FileNode.file?_putDirectory hparent hnone⟩

theorem grows_of_makeDirectories {root : String} {above : List String}
    {o : Except FileFault Unit} (h : t.makeDirectories root above = (o, t')) :
    t.Grows t' ∧ t'.root.file? = t.root.file? := by
  induction above generalizing o t' with
  | nil =>
    cases h
    exact ⟨.refl t, rfl⟩
  | cons name above ih =>
    have hnames : (Path.mk root (name :: above).reverse).names ≠ [] := by simp
    simp only [makeDirectories] at h
    split at h
    · rename_i t₁ hmake
      cases h
      exact grows_of_makeDirectory hnames hmake
    · split at h
      · rename_i t₁ habove
        cases h
        exact ih habove
      · rename_i t₁ habove
        obtain ⟨hgrows, hsame⟩ := ih habove
        split at h
        · rename_i t₂ hmake
          cases h
          obtain ⟨hgrows', hsame'⟩ := grows_of_makeDirectory hnames hmake
          exact ⟨hgrows.trans hgrows', hsame'.trans hsame⟩
        · cases h
          exact ⟨hgrows, hsame⟩
    · cases h
      exact ⟨.refl t, rfl⟩

/-- A write that fails changes no file. -/
theorem grows_of_write_error {e : FileFault} (h : t.write p text = (.error e, t')) :
    t.Grows t' ∧ t'.root.file? = t.root.file? := by
  unfold write at h
  split at h
  · rename_i e' t₁ hmake
    cases h
    exact grows_of_makeDirectories hmake
  · rename_i t₁ hmake
    split at h
    · cases h
    · cases h
      exact grows_of_makeDirectories hmake

/-- **A write changes the one file that its path leads to.** -/
theorem file?_of_write (hnames : p.names ≠ []) (h : t.write p text = (.ok (), t')) :
    t.Grows t' ∧ ∃ place, t'.place p = .ok place ∧ ∀ names,
      t'.root.file? names =
        if names = place then some (Text.encode text) else t.root.file? names := by
  unfold write at h
  split at h
  · cases h
  · rename_i t₁ hmake
    obtain ⟨hgrows, hsame⟩ := grows_of_makeDirectories hmake
    split at h
    · rename_i t₂ hput
      cases h
      unfold putFile at hput
      cases hplace : t₁.place p with
      | error e => rw [hplace] at hput; cases hput
      | ok place =>
        simp only [hplace, bind, Except.bind] at hput
        split at hput
        · cases hput
        · rename_i hfree
          cases hput
          obtain ⟨parent, entries, name, hparent, rfl⟩ :=
            exists_parent_of_free hnames hplace hfree
          have hgrows' : t₁.Grows (t₁.put (parent ++ [name]) (.file (Text.encode text))) :=
            .put (FileNode.isDistinct_file _) hfree
          refine ⟨hgrows.trans hgrows', _, hgrows'.place hplace, fun names => ?_⟩
          rw [← hsame]
          exact FileNode.file?_putFile hparent hfree names
    · cases h

/-- **No write takes a file away.** -/
theorem isSome_file?_of_write {o : Except FileFault Unit} {names : List String}
    (hnames : p.names ≠ []) (h : t.write p text = (o, t'))
    (hfile : (t.root.file? names).isSome = true) : (t'.root.file? names).isSome = true := by
  cases o with
  | error e => rwa [(grows_of_write_error h).2]
  | ok u =>
    obtain ⟨-, place, -, hfiles⟩ := file?_of_write hnames h
    rw [hfiles]
    split
    · rfl
    · exact hfile

theorem grows_of_write {o : Except FileFault Unit} (hnames : p.names ≠ [])
    (h : t.write p text = (o, t')) : t.Grows t' := by
  cases o with
  | error e => exact (grows_of_write_error h).1
  | ok u => exact (file?_of_write hnames h).1

/-! ### Below a source root -/

/-- The content of the file that names lead to from the directory of a path. -/
def fileBelow? (t : FileTree) (p : Path) (names : List String) : Option Text.Bytes :=
  (FileNode.directory (t.directory p)).file? names

theorem directory_eq {entries : Directory} (hplace : t.place p = .ok base)
    (hnode : t.node? base = some (.directory entries)) : t.directory p = entries := by
  simp only [directory, locate, hplace, bind, Except.bind, hnode]

/-- Files below a directory are the files of the tree from there on. -/
theorem fileBelow?_eq {entries : Directory} (hplace : t.place p = .ok base)
    (hnode : t.node? base = some (.directory entries)) (names : List String) :
    t.fileBelow? p names = t.root.file? (base ++ names) := by
  rw [fileBelow?, directory_eq hplace hnode]
  unfold FileNode.file?
  unfold node? at hnode
  rw [FileNode.find?_append, hnode]
  rfl

/-- A directory that a path leads to. -/
theorem exists_place_of_isDirectory (h : t.isDirectory p = true) :
    ∃ base entries, t.place p = .ok base ∧ t.node? base = some (.directory entries) := by
  unfold isDirectory at h
  split at h
  · rename_i n hn
    unfold locate at hn
    cases hplace : t.place p with
    | error e => rw [hplace] at hn; cases hn
    | ok base =>
      simp only [hplace, bind, Except.bind] at hn
      split at hn
      · rename_i n' hnode
        cases hn
        cases n with
        | file content => cases h
        | directory entries => exact ⟨base, entries, rfl, hnode⟩
      · cases hn
  · cases h

theorem isDirectory_of_place {entries : Directory} (hplace : t.place p = .ok base)
    (hnode : t.node? base = some (.directory entries)) : t.isDirectory p = true := by
  simp only [isDirectory, locate, hplace, bind, Except.bind, hnode, FileNode.isDirectory]

theorem fileBelow?_of_not_isDirectory (h : t.isDirectory p = false) (names : List String) :
    t.fileBelow? p names = none := by
  have hempty : t.directory p = [] := by
    unfold directory
    split
    · rename_i entries hlocate
      simp [isDirectory, hlocate, FileNode.isDirectory] at h
    · rfl
  rw [fileBelow?, hempty]
  cases names <;> rfl

/-- Files below a path have distinct names, if all files of the tree have. -/
theorem isDistinct_directory (h : t.root.IsDistinct) (p : Path) :
    (FileNode.directory (t.directory p)).IsDistinct := by
  cases hdir : t.isDirectory p with
  | true =>
    obtain ⟨base, entries, hplace, hnode⟩ := exists_place_of_isDirectory hdir
    rw [directory_eq hplace hnode]
    exact h.find? hnode
  | false =>
    have hempty : t.directory p = [] := by
      unfold directory
      split
      · rename_i entries hlocate
        simp [isDirectory, hlocate, FileNode.isDirectory] at hdir
      · rfl
    rw [hempty]
    exact FileNode.isDistinct_empty

/-- Names that lead to a directory somewhere are walked to it, if none of them is too long. -/
theorem walk_of_directory {place : List String} {entries : Directory} (hdots : ".." ∉ names)
    (hshort : t'.walk place names = .ok (place ++ names))
    (h : t.node? (place ++ names) = some (.directory entries)) :
    t.walk place names = .ok (place ++ names) := by
  induction names generalizing place with
  | nil => rw [walk, List.append_nil]
  | cons name rest ih =>
    have hlong : ¬ name.utf8ByteSize > maxNameBytes := fun hlong => by
      rw [walk] at hshort
      split at hshort <;> simp [hlong] at hshort
    have hname : name ≠ ".." := fun he => hdots (he ▸ List.mem_cons_self)
    obtain ⟨-, hrest⟩ := walk_cons_eq_ok hshort
    obtain ⟨es, hes⟩ := FileNode.exists_directory_of_find? (n := t.root) h
    rw [if_neg hname] at hrest
    rw [List.append_cons] at h ⊢
    rw [List.append_cons place name rest] at hrest
    rw [walk, node?, hes]
    simp only [hlong, if_false, if_neg hname]
    exact ih (fun hm => hdots (List.mem_cons_of_mem _ hm)) hrest h

/-- A path through a directory leads on from the place of that directory. -/
theorem exists_base_of_place {place : List String} (hne : names ≠ []) (hdots : ".." ∉ names)
    (h : t.place (p.descend names) = .ok place) :
    ∃ base entries, t.place p = .ok base ∧ t.node? base = some (.directory entries) ∧
      place = base ++ names := by
  have hdescend : t.place (p.descend names) = t.place p >>= fun base => t.walk base names :=
    walk_append _ p.names names
  rw [hdescend] at h
  cases hbase : t.place p with
  | error e => rw [hbase] at h; cases h
  | ok base =>
    rw [hbase] at h
    obtain ⟨name, rest, rfl⟩ := List.exists_cons_of_ne_nil hne
    obtain ⟨⟨entries, hnode⟩, -⟩ := walk_cons_eq_ok h
    exact ⟨base, entries, rfl, hnode, eq_append_of_walk hdots h⟩

/-- What a write below a path changes in the whole tree. -/
theorem exists_base_of_write (hnames : names ≠ []) (hdots : ".." ∉ names)
    (h : t.write (p.descend names) text = (.ok (), t')) :
    t.Grows t' ∧ ∃ base entries, t'.place p = .ok base ∧
      t'.node? base = some (.directory entries) ∧ ∀ other, t'.root.file? other =
        if other = base ++ names then some (Text.encode text) else t.root.file? other := by
  have hdescend : (p.descend names).names ≠ [] := by simp [Path.descend, hnames]
  obtain ⟨hgrows, place, hplace, hfiles⟩ := file?_of_write hdescend h
  obtain ⟨base, entries, hbase, hnode, rfl⟩ := exists_base_of_place hnames hdots hplace
  exact ⟨hgrows, base, entries, hbase, hnode, hfiles⟩

/-- The source root is a directory, or it has no two dots. A path with two dots may lead through a
missing directory, and to files that are there once the directory is made. -/
def IsRoot (t : FileTree) (p : Path) : Prop := ".." ∉ p.names ∨ t.isDirectory p = true

/-- **Below a source root, a write changes the one file that it is for.** -/
theorem fileBelow?_of_write (hroot : t.IsRoot p) (hnames : names ≠ []) (hdots : ".." ∉ names)
    (h : t.write (p.descend names) text = (.ok (), t')) (other : List String) :
    t'.fileBelow? p other =
      if other = names then some (Text.encode text) else t.fileBelow? p other := by
  obtain ⟨hgrows, base, entries, hplace, hnode, hfiles⟩ := exists_base_of_write hnames hdots h
  rw [fileBelow?_eq hplace hnode, hfiles]
  simp only [List.append_right_inj]
  congr 1
  cases hdir : t.isDirectory p with
  | true =>
    obtain ⟨base', entries', hplace', hnode'⟩ := exists_place_of_isDirectory hdir
    obtain rfl : base' = base := Except.ok.inj ((hgrows.place hplace').symm.trans hplace)
    exact (fileBelow?_eq hplace' hnode' other).symm
  | false =>
    -- nothing is below a root that is no directory yet
    rw [fileBelow?_of_not_isDirectory hdir, FileNode.file?_eq_none_iff]
    intro c hc
    cases other with
    | nil =>
      have hfile := hfiles base
      rw [if_neg (by simpa using hnames.symm)] at hfile
      rw [List.append_nil] at hc
      rw [FileNode.file?_eq_some_iff.2 hc, FileNode.file?_eq_some_iff] at hfile
      rw [node?, hfile] at hnode
      cases hnode
    | cons d rest =>
      obtain ⟨es, hes⟩ := FileNode.exists_directory_of_find? hc
      have hdotsRoot : ".." ∉ p.names := hroot.resolve_right (by simp [hdir])
      unfold FileTree.place at hplace
      obtain rfl := eq_append_of_walk hdotsRoot hplace
      have hwalk := walk_of_directory hdotsRoot hplace hes
      rw [hgrows.current] at hwalk hes
      rw [isDirectory_of_place hwalk hes] at hdir
      cases hdir

/-- A source root stays one. -/
theorem IsRoot.grows (hroot : t.IsRoot p) (h : t.Grows t') : t'.IsRoot p := by
  refine hroot.imp_right fun hdir => ?_
  obtain ⟨base, entries, hplace, hnode⟩ := exists_place_of_isDirectory hdir
  obtain ⟨es, hes⟩ := h.keeps _ _ hnode
  exact isDirectory_of_place (h.place hplace) hes

end FileTree

end EntityScaffold

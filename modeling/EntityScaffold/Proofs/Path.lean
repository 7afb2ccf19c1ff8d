import EntityScaffold.Files.Scan
import EntityScaffold.Proofs.Text.Cut
import EntityScaffold.Proofs.Text.Identifier

/-!
# Paths of packages and classes

Where identifiers are the parts of a package and the name of a class, they are also the names on
the path of the package, and the stem of the class's file.
-/

namespace EntityScaffold

open Text

namespace Path

/-! ### Paths below paths -/

theorem relativeTo_descend (root : Path) (names : List String) :
    (root.descend names).relativeTo root = ⟨"", names⟩ := by
  simp [relativeTo, below?, descend]

@[simp] theorem parent_concat (root : String) (dirs : List String) (name : String) :
    (Path.mk root (dirs ++ [name])).parent = ⟨root, dirs⟩ := by
  simp [parent]

/-! ### Names of one part -/

/-- A text that does not start with a slash is a relative path. -/
theorem rootOf_of_head {s : List Char} (h : s.head? ≠ some '/') : rootOf s = "" := by
  cases s with
  | nil => rfl
  | cons c rest =>
    have hc : (c == '/') = false := by simpa using h
    simp [rootOf, leadingSlashes, hc]

/-- Names that are put together with slashes are the names of the path, if each is a name of its
own. -/
theorem ofString_join {names : List String} (hslash : ∀ n ∈ names, '/' ∉ n.toList)
    (hname : ∀ n ∈ names, n ≠ "" ∧ n ≠ ".") : ofString (Text.join "/" names) = ⟨"", names⟩ := by
  cases names with
  | nil => decide +kernel
  | cons name names =>
    have hroot : rootOf (Text.join "/" (name :: names)).toList = "" := by
      refine rootOf_of_head ?_
      obtain ⟨c, rest, hc⟩ := List.exists_cons_of_ne_nil
        (show name.toList ≠ [] by simpa using (hname name List.mem_cons_self).1)
      have hslashName := hslash name List.mem_cons_self
      rw [hc] at hslashName
      have hne : c ≠ '/' := fun he => hslashName (he ▸ List.mem_cons_self)
      cases names <;> simp [Text.join, hc, hne]
    have hsplit := splitOn_join "/" (by decide) (List.cons_ne_nil _ _) hslash
    have hfilter : (name :: names).filter (fun n => n != "" && n != ".") = name :: names :=
      List.filter_eq_self.2 fun n hn => by simp [hname n hn]
    have hstrings : ((name :: names).map String.toList).map String.ofList = name :: names := by
      simp [Function.comp_def]
    rw [ofString, hroot, hsplit, hstrings, hfilter]

/-- A name of a path that is a single name. -/
theorem ofString_name {name : String} (hslash : '/' ∉ name.toList) (hne : name ≠ "")
    (hdot : name ≠ ".") : ofString name = ⟨"", [name]⟩ := by
  have h : ofString (Text.join "/" [name]) = ⟨"", [name]⟩ :=
    ofString_join (by simpa using hslash) (by simp [hne, hdot])
  exact h

/-- A path that has more than slashes and dots in it has a name. -/
theorem names_ofString_ne_nil {s : String} {c : Char} (h : c ∈ s.toList) (hslash : c ≠ '/')
    (hdot : c ≠ '.') : (ofString s).names ≠ [] := by
  have hjoin : (Text.join "/" ((s.toList.splitOn '/').map String.ofList)).toList = s.toList := by
    have hparts : ((s.toList.splitOn '/').map String.ofList).map String.toList =
        s.toList.splitOn '/' := by
      simp [Function.comp_def]
    rw [Text.toList_join, hparts]
    exact List.intercalate_splitOn '/'
  rw [← hjoin] at h
  rcases Text.mem_join h with hsep | ⟨part, hpart, hc⟩
  · exact absurd (List.mem_singleton.1 hsep) hslash
  · refine List.ne_nil_of_mem (List.mem_filter.2 ⟨hpart, ?_⟩)
    have hempty : part ≠ "" := by
      rintro rfl
      cases hc
    have hsingle : part ≠ "." := by
      rintro rfl
      exact hdot (List.mem_singleton.1 hc)
    simp [hempty, hsingle]

/-! ### Packages and classes -/

variable {parts : List String} {name : String}

/-- An identifier is neither empty nor a dot, and holds neither dots nor slashes. -/
theorem isName_of_isIdentifier (h : isIdentifier name.toList = true) :
    name ≠ "" ∧ name ≠ "." ∧ '.' ∉ name.toList ∧ '/' ∉ name.toList := by
  refine ⟨?_, ?_, notMem_of_isIdentifier h (by decide), notMem_of_isIdentifier h (by decide)⟩
  · rintro rfl
    cases h
  · rintro rfl
    revert h
    decide

/-- **The parts of a package are the names of its directory below the source root.** -/
theorem ofPackage_join (root : Path) (h : ∀ n ∈ parts, isIdentifier n.toList = true) :
    ofPackage root (Text.join "." parts) = root.descend parts := by
  have hnames := fun n hn => isName_of_isIdentifier (h n hn)
  unfold ofPackage
  split_ifs with hempty
  · rw [join_eq_empty_iff fun n hn => (hnames n hn).1] at hempty
    subst hempty
    simp [descend]
  · rw [map_join "." "/" (by decide) (by decide) fun n hn => (hnames n hn).2.2.1,
      String.ofList_toList, ofString_join (fun n hn => (hnames n hn).2.2.2) fun n hn =>
        ⟨(hnames n hn).1, (hnames n hn).2.1⟩]
    simp [join, descend]

/-! ### Files of classes -/

theorem toList_java (name : String) :
    (name ++ ".java").toList = name.toList ++ '.' :: "java".toList := by
  simp

/-- The file of a class has none of the short names. -/
theorem java_ne {s : String} (h : s.toList.length < 5) (name : String) : name ++ ".java" ≠ s := by
  rintro rfl
  simp only [toList_java, List.length_append, List.length_cons] at h
  have hext : "java".toList.length = 4 := by decide
  omega

/-- The suffix of a class's file. -/
theorem suffixOf_java (h : name ≠ "") : suffixOf (name ++ ".java") = ".java" := by
  have hcut : Text.cutLast '.' (name ++ ".java").toList = some (name.toList, "java".toList) := by
    rw [toList_java, cutLast_append_cons (by decide)]
  have hne : name.toList ≠ [] := by simpa using h
  rw [suffixOf, hcut]
  simp [hne]

/-- The stem of a class's file is the name of the class. -/
theorem stem_java (h : name ≠ "") (root : String) (dirs : List String) :
    (Path.mk root (dirs ++ [name ++ ".java"])).stem = name := by
  have hfile : (Path.mk root (dirs ++ [name ++ ".java"])).fileName = name ++ ".java" := by
    simp [fileName]
  rw [stem, hfile, suffixOf_java h, toList_java]
  simp

/-- A class's file has the name of a Java file. -/
theorem isJavaName_java (h : isIdentifier name.toList = true) :
    Directory.isJavaName (name ++ ".java") = true := by
  have hsuffix := suffixOf_java (isName_of_isIdentifier h).1
  have hfile : name ++ ".java" ∉ excludedFiles := fun hm => by
    rw [List.mem_singleton.1 hm] at hsuffix
    revert hsuffix
    decide +kernel
  have hlower : toLower ".java" = ".java" := by decide +kernel
  rw [Directory.isJavaName, hsuffix, hlower]
  simp [hfile]

end Path

end EntityScaffold

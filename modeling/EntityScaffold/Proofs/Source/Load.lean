import Mathlib.Tactic.Common
import EntityScaffold.Source.Load

/-!
# Loading files that are no sources

Files are read one after the other. A file whose text is no compilation unit is noted and left out:
the catalog is that of the other files. But a text that ends too early ends the scan, whatever the
other files are (`loadUnits_of_readable`).
-/

namespace EntityScaffold

namespace FileTree

/-- The classes of a file alone, or why it has none, if the file can be read. -/
def sources? (t : FileTree) (p : Path) : Option (Except Java.SyntaxFault (List SourceClass)) :=
  (t.read p).toOption.map (SourceClass.readAll (some p.toString))

/-- The file alone is refused. -/
def rejects (t : FileTree) (p : Path) : Bool :=
  match t.sources? p with
  | some (.error _) => true
  | _ => false

/-- Where the text of a file ends too early, if it does. -/
def truncation? (t : FileTree) (p : Path) : Option Java.Truncation :=
  match t.sources? p with
  | some (.error (.truncated place)) => some place
  | _ => none

/-- The unit that the text of a file is. -/
def unit? (t : FileTree) (p : Path) : Option SourceUnit :=
  (t.read p).toOption.bind fun text => (SourceUnit.read (some p.toString) text).toOption

end FileTree

namespace SourceCatalog

variable {t : FileTree} {p : Path} {rest : List Path}

/-! ### One file -/

theorem loadUnits_cons_of_ok {text : String} {u : SourceUnit} (htext : t.read p = .ok text)
    (hread : SourceUnit.read (some p.toString) text = .ok u) (rest : List Path) :
    loadUnits t (p :: rest) = (loadUnits t rest).map fun r => (u :: r.1, r.2) := by
  rw [loadUnits, htext]
  simp only [Except.mapError, bind, Except.bind, hread]
  cases loadUnits t rest <;> rfl

theorem loadUnits_cons_of_truncated {text : String} {place : Java.Truncation}
    (htext : t.read p = .ok text)
    (hread : SourceUnit.read (some p.toString) text = .error (.truncated place))
    (rest : List Path) : loadUnits t (p :: rest) = .error (.truncated place) := by
  rw [loadUnits, htext]
  simp only [Except.mapError, bind, Except.bind, hread]

theorem loadUnits_cons_of_error {text : String} {fault : Java.SyntaxFault}
    (htext : t.read p = .ok text)
    (hread : SourceUnit.read (some p.toString) text = .error fault)
    (hwhole : ∀ place, fault ≠ .truncated place) (rest : List Path) :
    loadUnits t (p :: rest) = (loadUnits t rest).map fun r => (r.1, p.toString :: r.2) := by
  rw [loadUnits, htext]
  simp only [Except.mapError, bind, Except.bind, hread]
  cases fault with
  | truncated place => exact absurd rfl (hwhole place)
  | lexical | grammatical => cases loadUnits t rest <;> rfl

/-- The three ways in which the first file is read. -/
inductive Starts (t : FileTree) (p : Path) (rest : List Path) : Prop
  | unit {u : SourceUnit} :
      t.unit? p = some u → t.rejects p = false → t.truncation? p = none →
      loadUnits t (p :: rest) = (loadUnits t rest).map (fun r => (u :: r.1, r.2)) →
      Starts t p rest
  | rejected :
      t.unit? p = none → t.rejects p = true → t.truncation? p = none →
      loadUnits t (p :: rest) = (loadUnits t rest).map (fun r => (r.1, p.toString :: r.2)) →
      Starts t p rest
  | truncated {place : Java.Truncation} :
      t.rejects p = true → t.truncation? p = some place →
      loadUnits t (p :: rest) = .error (.truncated place) → Starts t p rest

theorem starts_of_readable {text : String} (htext : t.read p = .ok text) (rest : List Path) :
    Starts t p rest := by
  have hsources : t.sources? p =
      some ((SourceUnit.read (some p.toString) text).map fun u => (Scan.mk [u]).classes) := by
    simp [FileTree.sources?, htext, Except.toOption, SourceClass.readAll]
  have hunit : t.unit? p = (SourceUnit.read (some p.toString) text).toOption := by
    simp [FileTree.unit?, htext, Except.toOption]
  cases hread : SourceUnit.read (some p.toString) text with
  | ok u =>
    rw [hread] at hsources hunit
    refine .unit hunit ?_ ?_ (loadUnits_cons_of_ok htext hread rest)
    · rw [FileTree.rejects, hsources]
      rfl
    · rw [FileTree.truncation?, hsources]
      rfl
  | error fault =>
    rw [hread] at hsources hunit
    have hrejects : t.rejects p = true := by
      rw [FileTree.rejects, hsources]
      rfl
    -- only a text that ends too early stops the scan; any other fault loses one file
    cases fault with
    | truncated place =>
      refine .truncated hrejects ?_ (loadUnits_cons_of_truncated htext hread rest)
      rw [FileTree.truncation?, hsources]
      rfl
    | lexical | grammatical =>
      refine .rejected hunit hrejects ?_ (loadUnits_cons_of_error htext hread (by simp) rest)
      rw [FileTree.truncation?, hsources]
      rfl

/-! ### All files -/

/-- **What a scan keeps of files**: the units of those that are sources, and the others by their
paths, unless the text of one ends too early. -/
theorem loadUnits_of_readable {files : List Path}
    (h : ∀ p ∈ files, ∃ text, t.read p = .ok text) :
    loadUnits t files =
      match files.findSome? t.truncation? with
      | some place => .error (.truncated place)
      | none => .ok (files.filterMap t.unit?, (files.filter t.rejects).map Path.toString) := by
  induction files with
  | nil => rfl
  | cons p rest ih =>
    obtain ⟨text, htext⟩ := h p List.mem_cons_self
    have hrest := ih fun q hq => h q (List.mem_cons_of_mem _ hq)
    cases starts_of_readable htext rest with
    | unit hunit hrejects htruncation hload =>
      rw [hload, hrest, List.findSome?_cons, htruncation, List.filterMap_cons, hunit,
        List.filter_cons, hrejects]
      cases rest.findSome? t.truncation? <;> rfl
    | rejected hunit hrejects htruncation hload =>
      rw [hload, hrest, List.findSome?_cons, htruncation, List.filterMap_cons, hunit,
        List.filter_cons, hrejects]
      cases rest.findSome? t.truncation? <;> rfl
    | truncated hrejects htruncation hload =>
      rw [hload, List.findSome?_cons, htruncation]

/-- A file that is refused alone is no unit. -/
theorem unit?_of_rejects (h : t.rejects p = true) : t.unit? p = none := by
  unfold FileTree.rejects FileTree.sources? at h
  unfold FileTree.unit?
  cases htext : (t.read p).toOption with
  | none => rfl
  | some text =>
    rw [htext, Option.map_some, SourceClass.readAll] at h
    rw [Option.bind_some]
    cases hread : SourceUnit.read (some p.toString) text with
    | ok u => simp [hread, Except.map] at h
    | error fault => rfl

/-- The files that are not refused alone are the same units, and nothing is wrong with them. -/
theorem loadUnits_filter {files : List Path} (h : ∀ p ∈ files, ∃ text, t.read p = .ok text)
    (hwhole : files.findSome? t.truncation? = none) :
    loadUnits t (files.filter fun p => !t.rejects p) = .ok (files.filterMap t.unit?, []) := by
  have hreadable : ∀ p ∈ files.filter (fun p => !t.rejects p), ∃ text, t.read p = .ok text :=
    fun p hp => h p ((List.mem_filter.1 hp).1)
  have hwhole' : (files.filter fun p => !t.rejects p).findSome? t.truncation? = none := by
    rw [List.findSome?_eq_none_iff] at hwhole ⊢
    exact fun p hp => hwhole p ((List.mem_filter.1 hp).1)
  have hunits :
      (files.filter fun p => !t.rejects p).filterMap t.unit? = files.filterMap t.unit? := by
    rw [List.filterMap_filter]
    congr 1
    funext p
    cases hp : t.rejects p with
    | false => rfl
    | true => exact (unit?_of_rejects hp).symm
  have hrejected : (files.filter fun p => !t.rejects p).filter t.rejects = [] := by
    simp [List.filter_filter]
  rw [loadUnits_of_readable hreadable, hwhole', hunits, hrejected]
  rfl

/-- **When bad files do not matter.** Files can be read, whatever is in them. If the text of one
ends too early, the first such file ends the scan. If none does, there is a catalog: its failures
are the files that are refused alone, in order, and its classes are those of the remaining files. -/
theorem catalog_of_readable {files : List Path}
    (h : ∀ p ∈ files, ∃ text, t.read p = .ok text) :
    (∀ place, files.findSome? t.truncation? = some place →
      ofFiles t files = .error (.truncated place)) ∧
    (files.findSome? t.truncation? = none → ∃ classes,
      ofFiles t files = .ok ⟨classes, (files.filter t.rejects).map Path.toString⟩ ∧
        ofFiles t (files.filter fun p => !t.rejects p) = .ok ⟨classes, []⟩) := by
  refine ⟨fun place hplace => ?_, fun hwhole => ?_⟩
  · rw [ofFiles, loadUnits_of_readable h, hplace]
    rfl
  · refine ⟨(Scan.mk (files.filterMap t.unit?)).classes, ?_, ?_⟩
    · rw [ofFiles, loadUnits_of_readable h, hwhole]
      rfl
    · rw [ofFiles, loadUnits_filter h hwhole]
      rfl

/-- A directory with the texts of some files. -/
def sourceTree (texts : List (String × String)) : FileTree where
  root := .directory (texts.map fun f => (f.1, .file (Text.encode f.2)))

/-- A class without a name, next to a class. -/
def brokenTree : FileTree :=
  sourceTree [("A.java", "class \x7b \x7d"), ("B.java", "class B \x7b \x7d")]

/-- A file that is no source is left out. -/
theorem catalog_of_readable_broken :
    ∃ classes,
      ofFiles brokenTree [⟨"/", ["A.java"]⟩, ⟨"/", ["B.java"]⟩] = .ok ⟨classes, ["/A.java"]⟩ ∧
      ofFiles brokenTree [⟨"/", ["B.java"]⟩] = .ok ⟨classes, []⟩ := by
  have hread : ∀ p ∈ ([⟨"/", ["A.java"]⟩, ⟨"/", ["B.java"]⟩] : List Path),
      ∃ text, brokenTree.read p = .ok text := by
    intro p hp
    obtain rfl | rfl : _ ∨ _ := by simpa using hp
    · exact ⟨"class \x7b \x7d", rfl⟩
    · exact ⟨"class B \x7b \x7d", rfl⟩
  have hwhole : ([⟨"/", ["A.java"]⟩, ⟨"/", ["B.java"]⟩] : List Path).findSome?
      brokenTree.truncation? = none := by decide +kernel
  have hgood : ([⟨"/", ["A.java"]⟩, ⟨"/", ["B.java"]⟩] : List Path).filter
      (fun p => !brokenTree.rejects p) = [⟨"/", ["B.java"]⟩] := by decide +kernel
  have hbad : ([⟨"/", ["A.java"]⟩, ⟨"/", ["B.java"]⟩] : List Path).filter
      brokenTree.rejects = [⟨"/", ["A.java"]⟩] := by decide +kernel
  obtain ⟨classes, hall, hsome⟩ := (catalog_of_readable hread).2 hwhole
  rw [hbad] at hall
  rw [hgood] at hsome
  exact ⟨classes, hall, hsome⟩

/-- A package clause without an end, next to a class. -/
def endingTree : FileTree :=
  sourceTree [("A.java", "package shop"), ("B.java", "class B \x7b \x7d")]

/-- **A bad file can end a scan.** -/
theorem exists_files_without_catalog :
    ¬ ∀ (t : FileTree) (files : List Path), (∀ p ∈ files, ∃ text, t.read p = .ok text) →
      ∃ catalog, ofFiles t files = .ok catalog := by
  intro h
  have hread : ∀ p ∈ ([⟨"/", ["A.java"]⟩, ⟨"/", ["B.java"]⟩] : List Path),
      ∃ text, endingTree.read p = .ok text := by
    intro p hp
    obtain rfl | rfl : _ ∨ _ := by simpa using hp
    · exact ⟨"package shop", rfl⟩
    · exact ⟨"class B \x7b \x7d", rfl⟩
  obtain ⟨catalog, hcatalog⟩ := h endingTree _ hread
  have hends : (ofFiles endingTree [⟨"/", ["A.java"]⟩, ⟨"/", ["B.java"]⟩]).toOption.isSome =
      false := by
    decide +kernel
  rw [hcatalog] at hends
  cases hends

end SourceCatalog

end EntityScaffold

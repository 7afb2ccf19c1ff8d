import EntityScaffold.Proofs.Files.JavaFile
import EntityScaffold.Proofs.Store.Directory

/-!
# What a store in a directory keeps

Identities of identifiers and the names of their files are two spellings of one thing
(`Identity.IsNamed.identityOf_fileNames`). So a write for such an identity changes, below the source
root, the file of that identity and no other one (`DirectoryStore.files_of_write`); in the whole
tree no other file changes either (`DirectoryStore.HasWritten`).

Whatever is written, and whether or not the write succeeds, what was seen before is seen afterwards
(`DirectoryStore.Grows.existing_subset`).
-/

namespace EntityScaffold

open Text

/-! ### Names of files -/

namespace Identity

/-- The names on the way to the directory of the package. -/
def directories (id : Identity) : List String := (Path.ofPackage ⟨"", []⟩ id.package).names

/-- The names on the way to the file, from the source root. -/
def fileNames (id : Identity) : List String := id.directories ++ [id.className ++ ".java"]

/-- The package is empty or consists of identifiers with dots between them, and the class name is an
identifier. -/
structure IsNamed (id : Identity) : Prop where
  package : ∃ parts, id.package = join "." parts ∧ ∀ n ∈ parts, isIdentifier n.toList = true
  className : isIdentifier id.className.toList = true

/-- Besides, no part of the package is the name of an excluded directory. -/
structure IsPlain (id : Identity) : Prop extends id.IsNamed where
  seen : ∀ d ∈ id.directories, Path.isExcluded d = false

theorem fileNames_ne_nil (id : Identity) : id.fileNames ≠ [] := by simp [fileNames]

namespace IsNamed

variable {id other : Identity}

/-- The parts of the package are the names of its directories. -/
theorem package_eq (h : id.IsNamed) :
    id.package = join "." id.directories ∧
      ∀ n ∈ id.directories, isIdentifier n.toList = true := by
  obtain ⟨parts, hpackage, hparts⟩ := h.package
  have hdirs : id.directories = parts := by
    rw [directories, hpackage, Path.ofPackage_join _ hparts]
    rfl
  rw [hdirs]
  exact ⟨hpackage, hparts⟩

theorem path_eq (h : id.IsNamed) (k : DirectoryStore) :
    k.path id = k.root.descend id.fileNames := by
  obtain ⟨hpackage, hparts⟩ := h.package_eq
  have hpath := DirectoryStore.path_join hparts h.className k
  rwa [← hpackage] at hpath

theorem dots_notMem_fileNames (h : id.IsNamed) : ".." ∉ id.fileNames := by
  rw [fileNames, List.mem_append, List.mem_singleton]
  rintro (hm | he)
  · exact absurd (h.package_eq.2 _ hm) (by decide)
  · exact Path.java_ne (by decide) id.className he.symm

/-- **The file of an identity stands for it.** -/
theorem identityOf_fileNames (h : id.IsNamed) (root : Path) :
    DirectoryStore.identityOf root (root.descend id.fileNames) = id := by
  have hne := (Path.isName_of_isIdentifier h.className).1
  rw [fileNames, DirectoryStore.identityOf_descend root hne, ← h.package_eq.1]

/-- Two identities have two files. -/
theorem eq_of_fileNames_eq (h : id.IsNamed) (hother : other.IsNamed)
    (heq : id.fileNames = other.fileNames) : id = other := by
  rw [← h.identityOf_fileNames ⟨"", []⟩, heq, hother.identityOf_fileNames]

/-- The path of the file as seen from the source root. -/
theorem relativeTo_path (h : id.IsNamed) (k : DirectoryStore) :
    (k.path id).relativeTo k.root = ⟨"", id.fileNames⟩ := by
  rw [h.path_eq, Path.relativeTo_descend]

/-- The names of the file, with slashes between them, spell its path. -/
theorem ofString_fileNames (h : id.IsNamed) :
    Path.ofString (join "/" id.fileNames) = ⟨"", id.fileNames⟩ := by
  have hdir := fun n hn => Path.isName_of_isIdentifier (h.package_eq.2 n hn)
  have hslash : '/' ∉ (id.className ++ ".java").toList := by
    rw [Path.toList_java, List.mem_append]
    rintro (hm | hm)
    · exact (Path.isName_of_isIdentifier h.className).2.2.2 hm
    · revert hm
      decide
  refine Path.ofString_join (fun n hn => ?_) fun n hn => ?_ <;>
    rcases List.mem_append.1 hn with hn | hn
  · exact (hdir n hn).2.2.2
  · rwa [List.mem_singleton.1 hn]
  · exact ⟨(hdir n hn).1, (hdir n hn).2.1⟩
  · rw [List.mem_singleton.1 hn]
    exact ⟨Path.java_ne (by decide) _, Path.java_ne (by decide) _⟩

end IsNamed

end Identity

namespace DirectoryStore

variable {k k' : DirectoryStore} {id : Identity} {names : List String} {text : String}

/-! ### What is seen -/

/-- Names that a scan does not leave out: those of a Java file in directories that are not
excluded. -/
def IsSeen (names : List String) : Prop :=
  ∃ dirs name, names = dirs ++ [name] ∧ (∀ d ∈ dirs, Path.isExcluded d = false) ∧
    Directory.isJavaName name = true

theorem isSeen_iff : IsSeen names ↔ Directory.IsJavaPath names := by
  have hexcluded : ∀ d, Path.isExcluded d = false ↔ d ∉ Path.excludedDirectories := fun d => by
    rw [Path.isExcluded, decide_eq_false_iff_not]
  simp only [IsSeen, Directory.IsJavaPath, hexcluded, Directory.isJavaName_iff]
  exact exists_congr fun dirs => exists_congr fun name => and_congr_right fun _ => and_comm

theorem isSeen_fileNames (h : id.IsPlain) : IsSeen id.fileNames :=
  ⟨id.directories, _, rfl, h.seen, Path.isJavaName_java h.className⟩

/-- **The identities that are there are those of the files that a scan does not leave out.** -/
theorem mem_existing_iff_exists_file (hdistinct : k.tree.root.IsDistinct) :
    id ∈ Store.existing k ↔ ∃ names, IsSeen names ∧
      (∃ content, k.tree.fileBelow? k.root names = some content) ∧
      identityOf k.root (k.root.descend names) = id := by
  have hscan : ∀ names, names ∈ Directory.javaFiles (k.tree.directory k.root) ↔
      IsSeen names ∧ ∃ content, k.tree.fileBelow? k.root names = some content := by
    intro names
    rw [isSeen_iff]
    exact Directory.mem_javaFiles_iff (FileTree.isDistinct_directory hdistinct k.root)
  constructor
  · intro h
    obtain ⟨q, hq, rfl⟩ := List.mem_map.1 h
    obtain ⟨names, hnames, rfl⟩ := FileTree.mem_javaFiles.1 hq
    obtain ⟨hseen, hfile⟩ := (hscan names).1 hnames
    exact ⟨names, hseen, hfile, rfl⟩
  · rintro ⟨names, hseen, hfile, rfl⟩
    exact List.mem_map.2 ⟨_, FileTree.mem_javaFiles.2 ⟨names, (hscan names).2 ⟨hseen, hfile⟩, rfl⟩,
      rfl⟩

/-! ### Writes -/

/-- The path of a file has a name, whatever the class is called. -/
theorem names_path_ne_nil (k : DirectoryStore) (id : Identity) : (k.path id).names ≠ [] := by
  have hfile : (Path.ofString (id.className ++ ".java")).names ≠ [] :=
    Path.names_ofString_ne_nil (c := 'j') (by simp) (by decide) (by decide)
  unfold path Path.join
  split
  · simp [hfile]
  · exact hfile

theorem write_of_dryRun (h : k.dryRun = true) (id : Identity) (text : String) :
    Store.write k id text = (.ok (), k.note (k.path id)) := by
  simp [Store.write, h]

/-- What a write does that is no dry run. -/
theorem write_cases (h : k.dryRun = false) (id : Identity) (text : String) :
    (∃ tree, k.tree.write (k.path id) (content text) = (.ok (), tree) ∧
        Store.write k id text = (.ok (), { k with tree }.note (k.path id))) ∨
      ∃ e tree, k.tree.write (k.path id) (content text) = (.error e, tree) ∧
        Store.write k id text = (.error ⟨id, e.message⟩, { k with tree }) := by
  rcases hw : k.tree.write (k.path id) (content text) with ⟨e | u, tree⟩
  · exact Or.inr ⟨e, tree, rfl, by simp [Store.write, h, hw]⟩
  · exact Or.inl ⟨tree, rfl, by simp [Store.write, h, hw]⟩

/-- A store in a directory has become another one by writes: the root and the names in directories
are kept, and every file that was there still is. -/
structure Grows (k k' : DirectoryStore) : Prop where
  root : k'.root = k.root
  dryRun : k'.dryRun = k.dryRun
  tree : k.tree.Grows k'.tree
  files : ∀ names, (k.tree.root.file? names).isSome = true →
    (k'.tree.root.file? names).isSome = true

namespace Grows

variable {k'' : DirectoryStore}

theorem refl (k : DirectoryStore) : k.Grows k := ⟨rfl, rfl, .refl k.tree, fun _ hfile => hfile⟩

theorem trans (h : k.Grows k') (h' : k'.Grows k'') : k.Grows k'' where
  root := h'.root.trans h.root
  dryRun := h'.dryRun.trans h.dryRun
  tree := h.tree.trans h'.tree
  files names hfile := h'.files names (h.files names hfile)

/-- **What is seen stays.** -/
theorem existing_subset (h : k.Grows k') (hdistinct : k.tree.root.IsDistinct) :
    Store.existing k ⊆ Store.existing k' := by
  intro id hid
  obtain ⟨names, hseen, ⟨content, hfile⟩, rfl⟩ := (mem_existing_iff_exists_file hdistinct).1 hid
  refine (mem_existing_iff_exists_file (h.tree.distinct hdistinct)).2
    ⟨names, hseen, ?_, by rw [h.root]⟩
  have hdir : k.tree.isDirectory k.root = true := by
    by_contra hn
    rw [FileTree.fileBelow?_of_not_isDirectory (by simpa using hn)] at hfile
    cases hfile
  obtain ⟨base, entries, hplace, hnode⟩ := FileTree.exists_place_of_isDirectory hdir
  obtain ⟨entries', hnode'⟩ := h.tree.keeps _ _ hnode
  rw [FileTree.fileBelow?_eq hplace hnode] at hfile
  rw [h.root, FileTree.fileBelow?_eq (h.tree.place hplace) hnode']
  exact Option.isSome_iff_exists.1 (h.files _ (by rw [hfile]; rfl))

end Grows

/-- **A store grows with every write**, one that fails and one of a dry run too. -/
theorem grows_of_write (k : DirectoryStore) (id : Identity) (text : String) :
    k.Grows (Store.write k id text).2 := by
  have hnames := k.names_path_ne_nil id
  cases hdry : k.dryRun with
  | true =>
    rw [write_of_dryRun hdry]
    exact ⟨rfl, rfl, .refl k.tree, fun _ hfile => hfile⟩
  | false =>
    rcases write_cases hdry id text with ⟨tree, hw, heq⟩ | ⟨e, tree, hw, heq⟩ <;> rw [heq]
    · exact ⟨rfl, rfl, FileTree.grows_of_write hnames hw,
        fun _ => FileTree.isSome_file?_of_write hnames hw⟩
    · exact ⟨rfl, rfl, FileTree.grows_of_write hnames hw,
        fun _ => FileTree.isSome_file?_of_write hnames hw⟩

/-- The source root of the store can be written below. -/
def IsRooted (k : DirectoryStore) : Prop := k.tree.IsRoot k.root

theorem IsRooted.grows (h : k.IsRooted) (hk : k.Grows k') : k'.IsRooted := by
  unfold IsRooted
  rw [hk.root]
  exact FileTree.IsRoot.grows h hk.tree

/-- The file of an identity, as a write leaves it, is the only one that is new or different. -/
theorem files_of_write (hdry : k.dryRun = false) (hroot : k.IsRooted) (hid : id.IsNamed)
    (h : Store.write k id text = (.ok (), k')) (names : List String) :
    k'.tree.fileBelow? k'.root names =
      if names = id.fileNames then some (encode (content text))
      else k.tree.fileBelow? k.root names := by
  rcases write_cases hdry id text with ⟨tree, hw, heq⟩ | ⟨e, tree, hw, heq⟩ <;> rw [heq] at h <;>
    cases h
  rw [hid.path_eq] at hw
  exact FileTree.fileBelow?_of_write hroot id.fileNames_ne_nil hid.dots_notMem_fileNames hw names

/-! ### Files that are written -/

/-- Files, each with its path below the root and its text, are written in the store: they are noted
in order, each of them is there, and no other file has changed. -/
structure HasWritten (k k' : DirectoryStore) (files : List (String × String)) : Prop where
  grows : k.Grows k'
  noted : k'.written = k.written ++ files.map (·.1)
  contents : ∃ base, (files ≠ [] → k'.tree.place k.root = .ok base) ∧ ∀ place bytes,
    k'.tree.root.file? place = some bytes ↔
      (∃ f ∈ files, place = base ++ (Path.ofString f.1).names ∧ bytes = encode f.2) ∨
        (∀ f ∈ files, place ≠ base ++ (Path.ofString f.1).names) ∧
          k.tree.root.file? place = some bytes

theorem hasWritten_nil (k : DirectoryStore) : k.HasWritten k [] where
  grows := .refl k
  noted := by simp
  contents := ⟨[], by simp⟩

/-- A write of a text that is kept as it is. -/
theorem hasWritten_of_write (hdry : k.dryRun = false) (hid : id.IsNamed)
    (hcontent : content text = text) (h : Store.write k id text = (.ok (), k')) :
    k.HasWritten k' [(join "/" id.fileNames, text)] := by
  have hgrows : k.Grows k' := by simpa [h] using grows_of_write k id text
  rcases write_cases hdry id text with ⟨tree, hw, heq⟩ | ⟨e, tree, hw, heq⟩ <;> rw [heq] at h <;>
    cases h
  rw [hid.path_eq, hcontent] at hw
  obtain ⟨-, base, entries, hbase, -, hfiles⟩ :=
    FileTree.exists_base_of_write id.fileNames_ne_nil hid.dots_notMem_fileNames hw
  refine ⟨hgrows, ?_, base, fun _ => hbase, fun place bytes => ?_⟩
  · have hpath : (Path.mk "" id.fileNames).toString = join "/" id.fileNames := by
      simp [Path.toString, id.fileNames_ne_nil]
    simp [note, hid.relativeTo_path, hpath]
  · have hfile := hfiles place
    simp only [List.mem_singleton, exists_eq_left, forall_eq, hid.ofString_fileNames]
    by_cases hplace : place = base ++ id.fileNames
    · rw [if_pos hplace] at hfile
      subst hplace
      simp [note, hfile, eq_comm]
    · rw [if_neg hplace] at hfile
      simp [note, hfile, hplace]

/-- A file is written, and after it others with other paths. -/
theorem HasWritten.cons {k'' : DirectoryStore} {f : String × String}
    {files : List (String × String)} (h : k.HasWritten k' [f]) (hrest : k'.HasWritten k'' files)
    (hnew : ∀ g ∈ files, (Path.ofString g.1).names ≠ (Path.ofString f.1).names) :
    k.HasWritten k'' (f :: files) where
  grows := h.grows.trans hrest.grows
  noted := by simp [hrest.noted, h.noted]
  contents := by
    obtain ⟨base, hbase, hfirst⟩ := h.contents
    obtain ⟨base', hbase', hothers⟩ := hrest.contents
    have hplace := hrest.grows.tree.place (hbase (List.cons_ne_nil f []))
    -- the root leads where it led for the first file
    have hsame : ∀ g ∈ files, base' = base := by
      intro g hg
      have hroot := hbase' (List.ne_nil_of_mem hg)
      rw [h.grows.root, hplace] at hroot
      exact (Except.ok.inj hroot).symm
    refine ⟨base, fun _ => hplace, fun place bytes => ?_⟩
    have hpaths : (∀ g ∈ files, place ≠ base' ++ (Path.ofString g.1).names) ↔
        ∀ g ∈ files, place ≠ base ++ (Path.ofString g.1).names :=
      forall₂_congr fun g hg => by rw [hsame g hg]
    have hthere : (∃ g ∈ files, place = base' ++ (Path.ofString g.1).names ∧ bytes = encode g.2) ↔
        ∃ g ∈ files, place = base ++ (Path.ofString g.1).names ∧ bytes = encode g.2 :=
      exists_congr fun g => and_congr_right fun hg => by rw [hsame g hg]
    rw [hothers, hfirst, hthere, hpaths]
    simp only [List.mem_cons, List.not_mem_nil, or_false, exists_eq_left, forall_eq,
      exists_eq_or_imp, forall_eq_or_imp]
    by_cases hplacef : place = base ++ (Path.ofString f.1).names
    · have hnone : ∀ g ∈ files, place ≠ base ++ (Path.ofString g.1).names := by
        intro g hg heq
        rw [hplacef, List.append_right_inj] at heq
        exact hnew g hg heq.symm
      have hfree : ¬ ∃ g ∈ files, place = base ++ (Path.ofString g.1).names ∧ bytes = encode g.2 :=
        fun ⟨g, hg, heq, _⟩ => hnone g hg heq
      simp only [eq_true hplacef, eq_true hnone, eq_false hfree, ne_eq, not_true_eq_false, true_and,
        false_and, or_false, false_or]
    · simp only [eq_false hplacef, ne_eq, not_false_eq_true, true_and, false_and, false_or]

end DirectoryStore

end EntityScaffold

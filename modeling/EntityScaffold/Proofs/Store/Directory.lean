import EntityScaffold.Proofs.Files.Scan
import EntityScaffold.Proofs.Path
import EntityScaffold.Store.Directory

/-!
# Files in directories

The path of a class and the scan of the source root are two ways between identities and files. For
packages and classes of identifiers they agree, except that scans enter no excluded directory: the
file of a class whose package has an excluded part, such as `build`, `out` or `target`, is never
seen by itself (`mem_existing_iff`).
-/

namespace EntityScaffold.DirectoryStore

open Text

variable {parts : List String} {name : String}

/-! ### What is seen -/

/-- The file on the path of a class stands for that class. -/
theorem identityOf_descend (root : Path) (h : name ≠ "") (dirs : List String) :
    identityOf root (root.descend (dirs ++ [name ++ ".java"])) = ⟨join "." dirs, name⟩ := by
  rw [identityOf, Path.relativeTo_descend, Path.parent_concat]
  have hstem := Path.stem_java h root.root (root.names ++ dirs)
  rw [List.append_assoc] at hstem
  exact congrArg _ hstem

/-- Another file stands for an identity too: it is below a directory with a dot in its name. -/
def HasAlias (k : DirectoryStore) (id : Identity) : Prop :=
  ∃ q ∈ k.tree.javaFiles k.root, identityOf k.root q = id ∧
    ∃ d ∈ (q.relativeTo k.root).parent.names, '.' ∈ d.toList

/-- A file that a scan finds for a class is below no excluded directory, or an alias. -/
theorem not_isExcluded_or_hasAlias {k : DirectoryStore} {id : Identity} (h : id ∈ Store.existing k)
    (hparts : ∀ n ∈ parts, isIdentifier n.toList = true) (hid : id.package = join "." parts) :
    (∀ d ∈ parts, Path.isExcluded d = false) ∨ k.HasAlias id := by
  obtain ⟨q, hq, rfl⟩ := List.mem_map.1 h
  obtain ⟨names, hnames, rfl⟩ := FileTree.mem_javaFiles.1 hq
  by_cases hdot : ∃ d ∈ names.dropLast, '.' ∈ d.toList
  · right
    refine ⟨_, hq, rfl, ?_⟩
    rwa [Path.relativeTo_descend]
  · left
    rw [identityOf, Path.relativeTo_descend] at hid
    have hdots : ∀ d ∈ names.dropLast, '.' ∉ d.toList := fun d hd hm => hdot ⟨d, hd, hm⟩
    have hnamesParts := fun n hn => Path.isName_of_isIdentifier (hparts n hn)
    intro d hd
    have hne : parts ≠ [] := List.ne_nil_of_mem hd
    have hne' : names.dropLast ≠ [] := fun he => by
      have hempty : join "." parts = "" := by rw [← hid]; simp [Path.parent, he, join]
      exact hne ((join_eq_empty_iff fun n hn => (hnamesParts n hn).1).1 hempty)
    have heq : parts = names.dropLast :=
      eq_of_join_eq (by decide) hne hne' (fun n hn => (hnamesParts n hn).2.2.1) hdots hid.symm
    exact Directory.not_isExcluded_of_mem_javaFiles hnames (heq ▸ hd)

/-! ### The file of a class -/

section

variable (hparts : ∀ n ∈ parts, isIdentifier n.toList = true)
  (hname : isIdentifier name.toList = true)
include hparts hname

/-- The path of a class goes through the parts of its package. -/
theorem path_join (k : DirectoryStore) :
    k.path ⟨join "." parts, name⟩ = k.root.descend (parts ++ [name ++ ".java"]) := by
  obtain ⟨hne, -, -, hslash⟩ := Path.isName_of_isIdentifier hname
  have hfile : Path.ofString (name ++ ".java") = ⟨"", [name ++ ".java"]⟩ := by
    refine Path.ofString_name ?_ ?_ ?_
    · rw [Path.toList_java, List.mem_append]
      rintro (hm | hm)
      · exact hslash hm
      · revert hm
        decide
    · exact Path.java_ne (by decide) name
    · exact Path.java_ne (by decide) name
  rw [path, Path.ofPackage_join k.root hparts, hfile]
  simp [Path.join, Path.descend]

/-- A class's file that is there is seen if no part of its package is excluded. -/
theorem mem_existing_of_locate {k : DirectoryStore} {content : Bytes}
    (h : k.tree.locate (k.path ⟨join "." parts, name⟩) = .ok (.file content))
    (hseen : ∀ d ∈ parts, Path.isExcluded d = false) :
    ⟨join "." parts, name⟩ ∈ Store.existing k := by
  have hdots : ".." ∉ parts ++ [name ++ ".java"] := by
    rw [List.mem_append, List.mem_singleton]
    rintro (hm | he)
    · exact absurd (hparts _ hm) (by decide)
    · exact Path.java_ne (by decide) name he.symm
  rw [path_join hparts hname k] at h
  have hq := FileTree.mem_javaFiles_of_locate hdots h hseen (Path.isJavaName_java hname)
  refine List.mem_map.2 ⟨_, hq, ?_⟩
  exact identityOf_descend k.root (Path.isName_of_isIdentifier hname).1 parts

/-- A class is seen if its file is there and no part of its package is excluded; with an excluded
part it is seen only through an alias. -/
theorem mem_existing_iff_of_locate {k : DirectoryStore} {content : Bytes}
    (h : k.tree.locate (k.path ⟨join "." parts, name⟩) = .ok (.file content)) :
    ⟨join "." parts, name⟩ ∈ Store.existing k ↔
      (∀ d ∈ parts, Path.isExcluded d = false) ∨ k.HasAlias ⟨join "." parts, name⟩ := by
  constructor
  · exact fun hm => not_isExcluded_or_hasAlias hm hparts rfl
  · rintro (hseen | ⟨q, hq, hid, -⟩)
    · exact mem_existing_of_locate hparts hname h hseen
    · exact List.mem_map.2 ⟨q, hq, hid⟩

/-- What a write that is no dry run leaves on the path of its class. -/
theorem locate_of_write {k k' : DirectoryStore} {text : String} (hdry : k.dryRun = false)
    (h : Store.write k ⟨join "." parts, name⟩ text = (.ok (), k')) :
    k'.tree.locate (k'.path ⟨join "." parts, name⟩) = .ok (.file (encode (content text))) := by
  have hnames : (k.path ⟨join "." parts, name⟩).names =
      (k.root.names ++ parts) ++ [name ++ ".java"] := by
    rw [path_join hparts hname k, Path.descend, List.append_assoc]
  simp only [Store.write, hdry, Bool.false_eq_true, if_false] at h
  split at h
  · rename_i tree hw
    cases h
    exact FileTree.locate_of_write hnames (Path.java_ne (by decide) name) hw
  · cases h

end

/-- **Which files are seen.** The package consists of identifiers, and so does the name. A class
whose file is there, or has just been written, is seen exactly if no part of its package is the name
of an excluded directory, or if a file elsewhere is taken for it. -/
theorem mem_existing_iff (k : DirectoryStore)
    (hparts : ∀ n ∈ parts, isIdentifier n.toList = true) (hname : isIdentifier name.toList = true) :
    (∀ content, k.tree.locate (k.path ⟨join "." parts, name⟩) = .ok (.file content) →
      (⟨join "." parts, name⟩ ∈ Store.existing k ↔
        (∀ d ∈ parts, Path.isExcluded d = false) ∨ k.HasAlias ⟨join "." parts, name⟩)) ∧
    ∀ text k', k.dryRun = false → Store.write k ⟨join "." parts, name⟩ text = (.ok (), k') →
      k'.tree.locate (k'.path ⟨join "." parts, name⟩) = .ok (.file (encode (content text))) ∧
        (⟨join "." parts, name⟩ ∈ Store.existing k' ↔
          (∀ d ∈ parts, Path.isExcluded d = false) ∨ k'.HasAlias ⟨join "." parts, name⟩) := by
  refine ⟨fun content h => mem_existing_iff_of_locate hparts hname h, fun text k' hdry h => ?_⟩
  have hfound := locate_of_write hparts hname hdry h
  exact ⟨hfound, mem_existing_iff_of_locate hparts hname hfound⟩

/-- What is written for a class of `com.shop` is seen. -/
theorem mem_existing_after_write :
    let k : DirectoryStore := { tree := {}, root := ⟨"/", ["src"]⟩ }
    (Store.write k ⟨"com.shop", "User"⟩ "").1 = .ok () ∧
      ⟨"com.shop", "User"⟩ ∈ Store.existing (Store.write k ⟨"com.shop", "User"⟩ "").2 := by
  intro k
  have hok : (Store.write k ⟨"com.shop", "User"⟩ "").1 = .ok () := by decide +kernel
  have hparts : ∀ n ∈ ["com", "shop"], isIdentifier n.toList = true := by decide +kernel
  have hname : isIdentifier "User".toList = true := by decide +kernel
  refine ⟨hok, ?_⟩
  have h := (mem_existing_iff k hparts hname).2 "" _ rfl (Prod.ext hok rfl)
  exact h.2.2 (Or.inl (by decide +kernel))

/-- A tree with a class of `com.build`. -/
def buildStore : DirectoryStore where
  tree := ⟨.directory [("com", .directory [("build", .directory [("User.java", .file [])])])], []⟩
  root := ⟨"/", []⟩

/-- **Not every file that a write would replace is seen.** -/
theorem exists_file_notMem_existing :
    ¬ ∀ (k : DirectoryStore) (parts : List String) (name : String),
      (∀ n ∈ parts, isIdentifier n.toList = true) → isIdentifier name.toList = true →
      ∀ content, k.tree.locate (k.path ⟨join "." parts, name⟩) = .ok (.file content) →
        ⟨join "." parts, name⟩ ∈ Store.existing k := by
  intro h
  have hpath : buildStore.path ⟨join "." ["com", "build"], "User"⟩ =
      ⟨"/", ["com", "build", "User.java"]⟩ := by decide +kernel
  have hmem := h buildStore ["com", "build"] "User" (by decide +kernel) (by decide +kernel) []
    (by rw [hpath]; rfl)
  revert hmem
  decide +kernel

end EntityScaffold.DirectoryStore

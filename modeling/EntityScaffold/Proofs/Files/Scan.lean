import Mathlib.Tactic.Common
import EntityScaffold.Files.Scan
import EntityScaffold.Proofs.Files.Tree

/-!
# What scans find

A scan for Java files finds a file exactly if none of the directories on the way to it is excluded
(`mem_javaFiles_of_find?`, `not_isExcluded_of_mem_javaFiles`).
-/

namespace EntityScaffold

/-- A scan of a directory finds what the scans of its entries find. -/
theorem Directory.mem_javaFiles {entries : Directory} {names : List String} :
    names ∈ Directory.javaFiles entries ↔ ∃ e ∈ entries, names ∈ e.2.javaFiles e.1 := by
  induction entries with
  | nil => simp [Directory.javaFiles]
  | cons e entries ih => simp [Directory.javaFiles, ih]

/-- A scan finds what it finds from the entry that a name leads to. -/
theorem Directory.mem_javaFiles_of_lookup {entries : Directory} {name : String} {n : FileNode}
    {names : List String} (h : entries.lookup name = some n) (hn : names ∈ n.javaFiles name) :
    names ∈ Directory.javaFiles entries := by
  obtain ⟨before, after, rfl, -⟩ := List.lookup_eq_some_iff.1 h
  exact Directory.mem_javaFiles.2 ⟨(name, n), by simp, hn⟩

/-- **A Java file is found below directories that are not excluded.** -/
theorem Directory.mem_javaFiles_of_find? {entries : Directory} {dirs : List String} {name : String}
    {content : Text.Bytes}
    (h : (FileNode.directory entries).find? (dirs ++ [name]) = some (.file content))
    (hdirs : ∀ d ∈ dirs, Path.isExcluded d = false) (hname : Directory.isJavaName name = true) :
    dirs ++ [name] ∈ Directory.javaFiles entries := by
  induction dirs generalizing entries with
  | nil =>
    rw [List.nil_append, FileNode.find?_cons] at h
    cases hl : entries.lookup name with
    | none => rw [hl] at h; cases h
    | some n =>
      rw [hl, Option.bind_some, FileNode.find?_nil] at h
      cases h
      refine Directory.mem_javaFiles_of_lookup hl ?_
      simp [FileNode.javaFiles, hname]
  | cons d dirs ih =>
    rw [List.cons_append, FileNode.find?_cons] at h
    cases hl : entries.lookup d with
    | none => rw [hl] at h; cases h
    | some n =>
      rw [hl, Option.bind_some] at h
      cases n with
      | file old => cases dirs <;> cases h
      | directory es =>
        have hrest := ih h fun d' hd' => hdirs d' (List.mem_cons_of_mem _ hd')
        refine Directory.mem_javaFiles_of_lookup hl ?_
        simp [FileNode.javaFiles, hdirs d List.mem_cons_self, hrest]

/-- **No excluded directory is on the way to a file that is found.** -/
theorem Directory.not_isExcluded_of_mem_javaFiles {entries : Directory} {names : List String}
    (h : names ∈ Directory.javaFiles entries) {d : String} (hd : d ∈ names.dropLast) :
    Path.isExcluded d = false := by
  induction names generalizing entries with
  | nil => cases hd
  | cons name rest ih =>
    obtain ⟨⟨key, n⟩, -, hn⟩ := Directory.mem_javaFiles.1 h
    cases n with
    | file content =>
      -- the file itself is the last name
      simp only [FileNode.javaFiles] at hn
      split at hn
      · rw [List.mem_singleton.1 hn] at hd
        cases hd
      · cases hn
    | directory es =>
      simp only [FileNode.javaFiles] at hn
      split at hn
      · cases hn
      · rename_i hkey
        obtain ⟨rest', hrest, he⟩ := List.mem_map.1 hn
        cases he
        cases rest with
        | nil => cases hd
        | cons name' rest =>
          rw [List.dropLast_cons_cons] at hd
          rcases List.mem_cons.1 hd with rfl | hd
          · simpa using hkey
          · exact ih hrest hd

namespace FileTree

variable {t : FileTree} {p q : Path}

/-- A scan of a tree finds the paths that the scan of the directory finds names for. -/
theorem mem_javaFiles : q ∈ t.javaFiles p ↔ ∃ names ∈ Directory.javaFiles (t.directory p),
    q = p.descend names := by
  unfold javaFiles
  rw [List.mem_mergeSort, List.mem_map]
  exact exists_congr fun names => and_congr_right fun _ => eq_comm

/-- A file that is located below a path by names is found by a scan of that path, if none of its
directories is excluded. -/
theorem mem_javaFiles_of_locate {dirs : List String} {name : String} {content : Text.Bytes}
    (hdots : ".." ∉ dirs ++ [name])
    (h : t.locate (p.descend (dirs ++ [name])) = .ok (.file content))
    (hdirs : ∀ d ∈ dirs, Path.isExcluded d = false) (hname : Directory.isJavaName name = true) :
    p.descend (dirs ++ [name]) ∈ t.javaFiles p := by
  have hfind := find?_directory_of_locate (by simp) hdots h
  exact mem_javaFiles.2 ⟨_, Directory.mem_javaFiles_of_find? hfind hdirs hname, rfl⟩

end FileTree

end EntityScaffold

import Mathlib.Tactic.Common
import EntityScaffold.Files.Tree

/-!
# Walks and writes

Where names without two dots lead, and what is left in place when a file is put somewhere. A tree
that keeps all directories of another one is walked in the same way (`walk_of_keeps`); a file that
is put in a place that is no directory keeps them all. So a file that is written is found
(`locate_of_write`).
-/

namespace EntityScaffold

/-! ### Names in directories -/

/-- Setting a name changes what is under that name, and nothing else. -/
theorem Directory.lookup_set (name other : String) (n : FileNode) (d : Directory) :
    (Directory.set name n d).lookup other = if other = name then some n else d.lookup other := by
  induction d with
  | nil => by_cases h : other = name <;> simp [Directory.set, h]
  | cons entry d ih =>
    obtain ⟨key, old⟩ := entry
    by_cases ho : other = key
    · subst ho
      by_cases hk : other = name <;> simp [Directory.set, hk]
    · have hb : (other == key) = false := by simpa using ho
      by_cases hk : key = name
      · subst hk
        simp only [Directory.set, if_true, List.lookup_cons, hb, if_neg ho]
      · simp only [Directory.set, hk, if_false, List.lookup_cons, hb, ih]

namespace FileNode

@[simp] theorem find?_nil (n : FileNode) : n.find? [] = some n := by cases n <;> rfl

theorem find?_cons (entries : Directory) (name : String) (rest : List String) :
    (directory entries).find? (name :: rest) = (entries.lookup name).bind (·.find? rest) := by
  rw [find?]
  cases entries.lookup name <;> rfl

/-- Names lead on from where the first ones of them lead. -/
theorem find?_append (n : FileNode) (xs ys : List String) :
    n.find? (xs ++ ys) = (n.find? xs).bind (·.find? ys) := by
  induction xs generalizing n with
  | nil => rw [find?_nil]; rfl
  | cons x xs ih =>
    cases n with
    | file content => rfl
    | directory entries =>
      rw [List.cons_append, find?_cons, find?_cons]
      cases entries.lookup x with
      | none => rfl
      | some n => exact ih n

/-! ### Putting -/

theorem put_cons (new : FileNode) (name : String) (rest : List String) (entries : Directory) :
    put new (name :: rest) (directory entries) =
      directory (Directory.set name
        (put new rest ((entries.lookup name).getD (directory []))) entries) := by
  rw [put]

/-- Names lead to what is put there first. -/
theorem find?_put_cons (new : FileNode) (name other : String) (rest names : List String)
    (entries : Directory) :
    (put new (name :: rest) (directory entries)).find? (other :: names) =
      if other = name then
        (put new rest ((entries.lookup name).getD (directory []))).find? names
      else (directory entries).find? (other :: names) := by
  rw [put_cons, find?_cons, find?_cons, Directory.lookup_set]
  split_ifs <;> rfl

/-- What is put into a directory is found there. -/
theorem find?_put_self {n new : FileNode} {dirs : List String} {entries : Directory}
    (h : n.find? dirs = some (directory entries)) (name : String) :
    (put new (dirs ++ [name]) n).find? (dirs ++ [name]) = some new := by
  induction dirs generalizing n with
  | nil =>
    rw [find?_nil] at h
    cases h
    rw [List.nil_append, find?_put_cons, if_pos rfl, put, find?_nil]
  | cons d dirs ih =>
    cases n with
    | file content => cases h
    | directory es =>
      rw [find?_cons] at h
      rw [List.cons_append, find?_put_cons, if_pos rfl]
      cases hd : es.lookup d with
      | none => rw [hd] at h; cases h
      | some n =>
        rw [hd] at h
        exact ih h

/-- All directories of the first node are directories of the second one. -/
def Keeps (n n' : FileNode) : Prop :=
  ∀ names entries, n.find? names = some (directory entries) →
    ∃ entries', n'.find? names = some (directory entries')

/-- What is put where no directory is keeps all directories. -/
theorem keeps_put {n : FileNode} {place : List String} (new : FileNode)
    (h : ∀ entries, n.find? place ≠ some (directory entries)) : n.Keeps (put new place n) := by
  intro names entries hfind
  induction place generalizing n names with
  | nil =>
    -- the node itself is a file, which holds nothing
    cases n with
    | file old => cases names <;> cases hfind
    | directory es => exact absurd (find?_nil _) (h es)
  | cons p place ih =>
    cases n with
    | file old => cases names <;> cases hfind
    | directory es =>
      cases names with
      | nil => exact ⟨_, by rw [put_cons, find?_nil]⟩
      | cons d names =>
        rw [find?_put_cons]
        split_ifs with hd
        · subst hd
          rw [find?_cons] at hfind
          cases hl : es.lookup d with
          | none => rw [hl] at hfind; cases hfind
          | some n =>
            rw [hl] at hfind
            refine ih (fun es' he => h es' ?_) names hfind
            rw [find?_cons, hl]
            exact he
        · exact ⟨entries, hfind⟩

end FileNode

namespace FileTree

variable {t t' : FileTree}

/-! ### Walks -/

/-- A walk goes on from where its first names lead. -/
theorem walk_append (place xs ys : List String) :
    t.walk place (xs ++ ys) = t.walk place xs >>= fun place => t.walk place ys := by
  induction xs generalizing place with
  | nil => rfl
  | cons x xs ih =>
    rw [List.cons_append, walk, walk]
    split
    · rfl
    · rfl
    · split
      · rfl
      · exact ih _

/-- One step of a walk is taken from a directory. -/
theorem walk_cons_eq_ok {place rest result : List String} {name : String}
    (h : t.walk place (name :: rest) = .ok result) :
    (∃ entries, t.node? place = some (.directory entries)) ∧
      t.walk (if name = ".." then place.dropLast else place ++ [name]) rest = .ok result := by
  rw [walk] at h
  split at h
  · cases h
  · cases h
  · rename_i entries hnode
    split at h
    · cases h
    · exact ⟨⟨entries, hnode⟩, h⟩

/-- Names without two dots lead straight down. -/
theorem eq_append_of_walk {place names result : List String} (hdots : ".." ∉ names)
    (h : t.walk place names = .ok result) : result = place ++ names := by
  induction names generalizing place with
  | nil =>
    cases h
    rw [List.append_nil]
  | cons name rest ih =>
    have hname : name ≠ ".." := fun he => hdots (he ▸ List.mem_cons_self)
    obtain ⟨-, hrest⟩ := walk_cons_eq_ok h
    rw [if_neg hname] at hrest
    rw [ih (fun hm => hdots (List.mem_cons_of_mem _ hm)) hrest]
    simp

/-- **A tree that keeps all directories is walked in the same way.** -/
theorem walk_of_keeps (hkeeps : t.root.Keeps t'.root) {place names result : List String}
    (h : t.walk place names = .ok result) : t'.walk place names = .ok result := by
  induction names generalizing place with
  | nil => exact h
  | cons name rest ih =>
    have hlong : ¬ name.utf8ByteSize > maxNameBytes := fun hlong => by
      rw [walk] at h
      split at h <;> simp [hlong] at h
    obtain ⟨⟨entries, hnode⟩, hrest⟩ := walk_cons_eq_ok h
    obtain ⟨entries', hnode'⟩ := hkeeps _ _ hnode
    rw [walk, node?, hnode']
    simp only [hlong, if_false]
    exact ih hrest

/-! ### Writes -/

/-- The last name of a path is taken in a directory. -/
theorem exists_parent_of_place {p : Path} {dirs place : List String} {name : String}
    (hnames : p.names = dirs ++ [name]) (h : t.place p = .ok place) :
    ∃ parent entries, t.node? parent = some (.directory entries) ∧
      place = if name = ".." then parent.dropLast else parent ++ [name] := by
  unfold FileTree.place at h
  rw [hnames, walk_append] at h
  cases hw : t.walk (if p.root = "" then t.current else []) dirs with
  | error e => rw [hw] at h; cases h
  | ok parent =>
    rw [hw] at h
    obtain ⟨⟨entries, hnode⟩, hrest⟩ := walk_cons_eq_ok h
    exact ⟨parent, entries, hnode, (Except.ok.inj hrest).symm⟩

/-- A path to something below a directory leads there from the directory. -/
theorem place_of_concat {p : Path} {dirs place : List String} {name : String}
    (hnames : p.names = dirs ++ [name]) (hdots : name ≠ "..") (h : t.place p = .ok place) :
    ∃ parent entries, t.node? parent = some (.directory entries) ∧ place = parent ++ [name] := by
  obtain ⟨parent, entries, hnode, hplace⟩ := exists_parent_of_place hnames h
  rw [if_neg hdots] at hplace
  exact ⟨parent, entries, hnode, hplace⟩

/-- A file that is put where a path leads is found there. -/
theorem locate_of_putFile {p : Path} {dirs : List String} {name : String} {content : Text.Bytes}
    (hnames : p.names = dirs ++ [name]) (hdots : name ≠ "..")
    (h : t.putFile p content = .ok t') : t'.locate p = .ok (.file content) := by
  unfold putFile at h
  cases hplace : t.place p with
  | error e => rw [hplace] at h; cases h
  | ok place =>
    have hfree : ∀ entries, t.node? place ≠ some (.directory entries) := fun entries he => by
      rw [hplace] at h
      simp [bind, Except.bind, he] at h
    obtain rfl : t.put place (.file content) = t' := by
      rw [hplace] at h
      simp only [bind, Except.bind] at h
      exact Except.ok.inj h
    obtain ⟨parent, entries, hparent, rfl⟩ := place_of_concat hnames hdots hplace
    have hkeeps : t.root.Keeps (t.put (parent ++ [name]) (.file content)).root :=
      FileNode.keeps_put (.file content) hfree
    have hplace' : (t.put (parent ++ [name]) (.file content)).place p = .ok (parent ++ [name]) :=
      walk_of_keeps hkeeps hplace
    have hnode : (t.put (parent ++ [name]) (.file content)).node? (parent ++ [name]) =
        some (.file content) := FileNode.find?_put_self hparent name
    simp only [locate, hplace', bind, Except.bind, hnode]

/-- **What is written is found.** -/
theorem locate_of_write {p : Path} {dirs : List String} {name text : String}
    (hnames : p.names = dirs ++ [name]) (hdots : name ≠ "..")
    (h : t.write p text = (.ok (), t')) : t'.locate p = .ok (.file (Text.encode text)) := by
  unfold write at h
  split at h
  · cases h
  · split at h
    · rename_i t₂ hput
      cases h
      exact locate_of_putFile hnames hdots hput
    · cases h

/-- What is located below a path is held by the directory of that path. -/
theorem find?_directory_of_locate {p : Path} {names : List String} {n : FileNode} (hne : names ≠ [])
    (hdots : ".." ∉ names) (h : t.locate (p.descend names) = .ok n) :
    (FileNode.directory (t.directory p)).find? names = some n := by
  have hplaceDescend : t.place (p.descend names) = t.place p >>= fun base => t.walk base names :=
    walk_append _ p.names names
  unfold locate at h
  rw [hplaceDescend] at h
  cases hbase : t.place p with
  | error e => rw [hbase] at h; cases h
  | ok base =>
    cases hwalk : t.walk base names with
    | error e => simp [hbase, hwalk, bind, Except.bind] at h
    | ok place =>
      obtain ⟨name, rest, rfl⟩ := List.exists_cons_of_ne_nil hne
      obtain ⟨⟨entries, hnode⟩, -⟩ := walk_cons_eq_ok hwalk
      have hdirectory : t.directory p = entries := by
        simp only [directory, locate, hbase, bind, Except.bind, hnode]
      obtain rfl := eq_append_of_walk hdots hwalk
      have hfind : t.node? (base ++ name :: rest) = some n := by
        simp only [hbase, hwalk, bind, Except.bind] at h
        split at h
        · rename_i n' hn'
          cases h
          exact hn'
        · cases h
      unfold node? at hfind hnode
      rwa [FileNode.find?_append, hnode, ← hdirectory] at hfind

end FileTree

end EntityScaffold

import EntityScaffold.Types.ResolvedType
import EntityScaffold.Types.Written

/-!
# Resolving written types

A type text is resolved through a table of known types. Collections are recognised beside the
table, and any other name is a reference type, in the language's own namespace if it names none.
A wildcard stands for its bound, and one without a bound for any object. Every text resolves: the
parts that are resolved in turn are shorter than the text.
-/

namespace EntityScaffold

open Text

/-- Known types by their simple and their qualified names. -/
structure TypeTable where
  entries : List (String × ResolvedType)

namespace TypeTable

/-- The type that a name stands for. -/
def find? (table : TypeTable) (name : String) : Option ResolvedType := table.entries.lookup name

/-- Types of one kind in a namespace, each under both its names. -/
def group (kind : ResolvedType.Kind) (ns : String) (names : List String) :
    List (String × ResolvedType) :=
  names.flatMap fun n =>
    let t := ResolvedType.plain kind n ns
    if ns = "" then [(n, t)] else [(n, t), (ns ++ "." ++ n, t)]

/-- The types that are known without being declared. -/
def standard : TypeTable where
  entries :=
    group .primitive "" (ResolvedType.wrappers.map (·.1)) ++
    group .boxed ResolvedType.languageNamespace (ResolvedType.wrappers.map (·.2)) ++
    group .string ResolvedType.languageNamespace ["String"] ++
    group .bigNumber "java.math" ["BigDecimal", "BigInteger"] ++
    group .temporal "java.time"
      ["LocalDate", "LocalTime", "LocalDateTime", "ZonedDateTime", "OffsetDateTime", "Instant"] ++
    group .temporal "java.util" ["Date"] ++
    group .uuid "java.util" ["UUID"]

end TypeTable

/-- Simple names of the collections. -/
def collectionNames : List String :=
  ["List", "ArrayList", "LinkedList",
   "Set", "HashSet", "LinkedHashSet", "TreeSet", "SortedSet",
   "Collection",
   "Map", "HashMap", "LinkedHashMap", "TreeMap", "SortedMap"]

/-- The simple name of the collection that a head names, with or without its namespace. -/
def collectionHead? (head : List Char) : Option String :=
  let simple := (dropStart? "java.util.".toList head).getD head
  if String.ofList head ∈ collectionNames then some (.ofList head)
  else if String.ofList simple ∈ collectionNames then some (.ofList simple)
  else none

namespace TypeTable

/-- The type that a head alone stands for. -/
def resolveHead (table : TypeTable) (head : List Char) : ResolvedType :=
  match table.find? (.ofList head) with
  | some t => t
  | none =>
    -- a collection, or a reference type in the namespace that it names
    match collectionHead? head with
    | some simple => .plain .collection simple ResolvedType.collectionNamespace
    | none =>
      match cutLast '.' head with
      | some (ns, simple) => .plain .reference (.ofList simple) (.ofList ns)
      | none => .plain .reference (.ofList head) ResolvedType.languageNamespace

/-- The type with the parts that are written; parts that are not written stay as they are. -/
def assemble (base : ResolvedType) (args : List ResolvedType) (rank : Nat) : ResolvedType :=
  let t := if args.isEmpty then base else { base with arguments := args }
  if rank = 0 then t else { t with rank := rank }

end TypeTable

/-- The bound of a wildcard, after its question mark. -/
def wildcardBound? (rest : List Char) : Option (List Char) :=
  let bound := trim isBlank rest
  (dropStart? "extends ".toList bound).or (dropStart? "super ".toList bound)

theorem length_lt_of_dropStart? {start s r : List Char} (hs : start ≠ [])
    (h : dropStart? start s = some r) : r.length < s.length := by
  unfold dropStart? at h
  split at h
  · rename_i hp
    have hle := (List.isPrefixOf_iff_prefix.1 hp).length_le
    have : 0 < start.length := List.length_pos_iff.2 hs
    simp only [Option.some.injEq] at h
    subst h
    simp; omega
  · simp at h

theorem length_lt_of_wildcardBound? {rest bound : List Char}
    (h : wildcardBound? rest = some bound) : bound.length < rest.length := by
  have ht := length_trim_le isBlank rest
  unfold wildcardBound? at h
  rcases Option.or_eq_some_iff.1 h with h | ⟨_, h⟩ <;>
    have := length_lt_of_dropStart? (by decide) h <;> omega

/-- The type that a text stands for. -/
def TypeTable.resolveChars (table : TypeTable) (s : List Char) : ResolvedType :=
  match _h : trim isBlank s with
  | '?' :: rest =>
    match _hb : wildcardBound? rest with
    | some bound => table.resolveChars bound
    | none => .object
  | t =>
    let written := WrittenType.ofText t
    TypeTable.assemble (table.resolveHead written.head)
      (written.arguments.attach.map fun a => table.resolveChars a.1) written.rank
termination_by s.length
decreasing_by
  · have h₁ := length_trim_le isBlank s
    have h₂ := length_lt_of_wildcardBound? _hb
    rw [_h] at h₁
    simp at h₁; omega
  · have h₁ := length_trim_le isBlank s
    have h₂ := WrittenType.length_lt_of_mem_arguments a.2
    have h₃ := length_trim_le isBlank t
    rw [_h] at h₁
    omega

namespace TypeTable

/-- The type that a text stands for. -/
def resolve (table : TypeTable) (s : String) : ResolvedType := table.resolveChars s.toList

end TypeTable

/-- The collection that a type text names, if it is no array. -/
def collectionName? (s : String) : Option String :=
  let written := WrittenType.ofText s.toList
  if written.rank = 0 then collectionHead? written.head else none

/-- The type of a collection's elements, or of its values if it has keys: its last argument. -/
def TypeTable.elementType? (table : TypeTable) (s : String) : Option ResolvedType :=
  match collectionName? s with
  | none => none
  | some _ => (WrittenType.ofText s.toList).arguments.getLast?.map table.resolveChars

end EntityScaffold

import Mathlib.Tactic.Common
import EntityScaffold.Proofs.Source.Names
import EntityScaffold.Proofs.Types.Resolver
import EntityScaffold.Source.Scan

/-!
# Types as text and back

A field keeps the type of its declaration as a text. Whatever reads that text finds the syntax tree
again: the cut into parts (`ofText_typeText`), the resolver (`resolveChars_typeText`), which makes
of the text what a recursion over the tree makes of its names, and the test for enums
(`enumHead_typeText`).

All three need the names of the tree to be identifiers, as the lexer reads them. Brackets, commas
and blanks then come from the type itself, and an induction over the tree shows that every type
argument can be told from its surroundings (`isArgument_argumentText`).
-/

namespace EntityScaffold

open Java Text

/-! ### Trees of identifiers -/

namespace Java

mutual

/-- All names in a type are identifiers. -/
inductive TypeRef.IsWellNamed : TypeRef → Prop
  | basic {name : String} {rank : Nat} :
      Text.isIdentifier name.toList = true → TypeRef.IsWellNamed (.basic name rank)
  | named {first : String} {more : List String} {arguments : List TypeArgument} {rank : Nat} :
      IsPath (first :: more) → (∀ a ∈ arguments, TypeArgument.IsWellNamed a) →
      TypeRef.IsWellNamed (.named first more arguments rank)

/-- All names in a type argument are identifiers. -/
inductive TypeArgument.IsWellNamed : TypeArgument → Prop
  | any : TypeArgument.IsWellNamed .any
  | exact {t : TypeRef} : TypeRef.IsWellNamed t → TypeArgument.IsWellNamed (.exact t)
  | upTo {t : TypeRef} : TypeRef.IsWellNamed t → TypeArgument.IsWellNamed (.upTo t)
  | downTo {t : TypeRef} : TypeRef.IsWellNamed t → TypeArgument.IsWellNamed (.downTo t)

end

/-- The type arguments that count. -/
def TypeRef.arguments : TypeRef → List TypeArgument
  | .basic _ _ => []
  | .named _ _ arguments _ => arguments

def TypeRef.rank : TypeRef → Nat
  | .basic _ rank => rank
  | .named _ _ _ rank => rank

end Java

namespace Scope

/-! ### The parts of a type -/

/-- The name of a type as its text has it. What is no class has no other meaning. -/
def headText (s : Scope) : TypeRef → String
  | .basic name _ => name
  | .named first more _ _ => s.qualifyPath false (first :: more)

/-- The parts of a type as its text has them. -/
def written (s : Scope) (t : TypeRef) : WrittenType where
  head := (s.headText t).toList
  arguments := t.arguments.map fun a => (s.argumentText a).toList
  rank := t.rank

variable {s : Scope}

theorem toList_replicate_brackets (rank : Nat) :
    (Text.replicate rank "[]").toList = WrittenType.dimensions rank := by
  simp [Text.replicate, WrittenType.dimensions]

theorem toList_argumentTexts (as : List TypeArgument) :
    (s.argumentTexts as).toList =
      WrittenType.separated (as.map fun a => (s.argumentText a).toList) := by
  rw [argumentTexts_eq_join, toList_join, WrittenType.separated, List.map_map]
  rfl

/-- The text of a type is put together from its parts. -/
theorem toList_typeText (t : TypeRef) : (s.typeText t).toList = (s.written t).text := by
  cases t with
  | basic name rank =>
    simp [typeText, written, headText, TypeRef.arguments, TypeRef.rank, WrittenType.text,
      WrittenType.unranked, toList_replicate_brackets]
  | named first more arguments rank =>
    rw [typeText, String.toList_append, String.toList_append, toList_replicate_brackets]
    cases arguments <;>
      simp [written, headText, TypeRef.arguments, TypeRef.rank, WrittenType.text,
        WrittenType.unranked, toList_argumentTexts]

theorem toList_argumentText_any : (s.argumentText .any).toList = ['?'] := by
  rw [argumentText]
  rfl

theorem toList_argumentText_upTo (t : TypeRef) :
    (s.argumentText (.upTo t)).toList =
      WrittenType.wildcard "extends".toList (s.typeText t).toList := by
  rw [argumentText, String.toList_append]
  rfl

theorem toList_argumentText_downTo (t : TypeRef) :
    (s.argumentText (.downTo t)).toList =
      WrittenType.wildcard "super".toList (s.typeText t).toList := by
  rw [argumentText, String.toList_append]
  rfl

theorem isDottedName_headText (hs : s.unit.IsWellNamed) {t : TypeRef} (ht : t.IsWellNamed) :
    IsDottedName (s.headText t).toList := by
  cases ht with
  | basic hname => exact isDottedName_of_isIdentifier hname
  | named hpath _ => exact isDottedName_qualifyPath hs false hpath

mutual

/-- A type is put together from proper parts. -/
theorem isProper_written (hs : s.unit.IsWellNamed) :
    ∀ {t : TypeRef}, t.IsWellNamed → (s.written t).IsProper
  | _, .basic hname => ⟨isDottedName_headText hs (.basic hname), fun _ h => nomatch h⟩
  | _, .named hpath hargs => by
    refine ⟨isDottedName_headText hs (.named hpath hargs), fun text htext => ?_⟩
    obtain ⟨a, ha, rfl⟩ := List.mem_map.1 htext
    exact isArgument_argumentText hs (hargs a ha)

/-- The text of a type argument can be told from what stands around it. -/
theorem isArgument_argumentText (hs : s.unit.IsWellNamed) :
    ∀ {a : TypeArgument}, a.IsWellNamed → WrittenType.IsArgument (s.argumentText a).toList
  | _, .any => by
    rw [toList_argumentText_any]
    exact ⟨.of_notMem (by decide) (by decide) (by decide), .of_all (by decide) (by decide)⟩
  | _, .exact ht => by
    rw [argumentText, toList_typeText]
    exact (isProper_written hs ht).isArgument_text
  | _, .upTo ht => by
    rw [toList_argumentText_upTo, toList_typeText]
    exact WrittenType.isArgument_wildcard (isDottedName_of_isIdentifier (by decide))
      (isProper_written hs ht).isArgument_text
  | _, .downTo ht => by
    rw [toList_argumentText_downTo, toList_typeText]
    exact WrittenType.isArgument_wildcard (isDottedName_of_isIdentifier (by decide))
      (isProper_written hs ht).isArgument_text

end

theorem isArgument_typeText (hs : s.unit.IsWellNamed) {t : TypeRef} (ht : t.IsWellNamed) :
    WrittenType.IsArgument (s.typeText t).toList := by
  rw [toList_typeText]
  exact (isProper_written hs ht).isArgument_text

/-- **The parts of a type are got back from its text.** -/
theorem ofText_typeText (hs : s.unit.IsWellNamed) {t : TypeRef} (ht : t.IsWellNamed) :
    WrittenType.ofText (s.typeText t).toList = s.written t := by
  rw [toList_typeText, (isProper_written hs ht).ofText_text]

/-- The test for enums looks at the name of the type. -/
theorem enumHead_typeText (hs : s.unit.IsWellNamed) {t : TypeRef} (ht : t.IsWellNamed) :
    Scan.enumHead (s.typeText t) = s.headText t := by
  obtain ⟨rank, htake⟩ := (isProper_written hs ht).exists_takeWhile_text
  have hlast : ∀ c ∈ (s.written t).head.getLast?, (c == '[' || c == ']') = false := by
    intro c hc
    have hmem := List.mem_of_getLast? hc
    have hhead := isDottedName_headText hs ht
    have hopen : c ≠ '[' := fun he => hhead.notMem (by decide) (by decide) (he ▸ hmem)
    have hclose : c ≠ ']' := fun he => hhead.notMem (by decide) (by decide) (he ▸ hmem)
    simp [hopen, hclose]
  rw [Scan.enumHead, toList_typeText, htake, stripEndOf, onChars, String.toList_ofList,
    WrittenType.trimEnd_append_dimensions hlast]
  exact String.ofList_toList

/-! ### Types by recursion -/

mutual

/-- The type that a tree is: its name resolved alone, with its arguments and dimensions. -/
def typeOf (s : Scope) (table : TypeTable) : TypeRef → ResolvedType
  | .basic name rank => { table.resolve name with rank := rank }
  | .named first more arguments rank =>
    { table.resolve (s.qualifyPath false (first :: more)) with
      arguments := s.argumentTypes table arguments
      rank := rank }

/-- The type that a type argument stands for: a bounded wildcard stands for its bound. -/
def argumentType (s : Scope) (table : TypeTable) : TypeArgument → ResolvedType
  | .any => .object
  | .exact t | .upTo t | .downTo t => s.typeOf table t

/-- The types that type arguments stand for. -/
def argumentTypes (s : Scope) (table : TypeTable) : List TypeArgument → List ResolvedType
  | [] => []
  | a :: as => s.argumentType table a :: s.argumentTypes table as

end

theorem argumentTypes_eq_map (table : TypeTable) (as : List TypeArgument) :
    s.argumentTypes table as = as.map (s.argumentType table) := by
  induction as with
  | nil => rfl
  | cons a as ih => rw [argumentTypes, ih, List.map_cons]

variable {table : TypeTable}

mutual

/-- **The text of a type resolves to what a recursion over the type gives.** -/
theorem resolveChars_typeText (hplain : table.IsPlain) (hs : s.unit.IsWellNamed) :
    ∀ {t : TypeRef}, t.IsWellNamed → table.resolveChars (s.typeText t).toList = s.typeOf table t
  | .basic name rank, .basic hname => by
    have hnone : (table.resolveChars name.toList).arguments = [] := by
      rw [TypeTable.resolveChars_name (isDottedName_of_isIdentifier hname)]
      exact (hplain.resolveHead _).1
    rw [toList_typeText, hplain.resolveChars_text (isProper_written hs (.basic hname)), typeOf]
    change ({ table.resolveChars name.toList with arguments := [], rank := rank } : ResolvedType) =
      { table.resolveChars name.toList with rank := rank }
    rw [← hnone]
  | .named first more arguments rank, .named hpath hargs => by
    have htypes : (arguments.map fun a => (s.argumentText a).toList).map table.resolveChars =
        s.argumentTypes table arguments := by
      rw [argumentTypes_eq_map, List.map_map]
      exact List.map_congr_left fun a ha => resolveChars_argumentText hplain hs (hargs a ha)
    rw [toList_typeText, hplain.resolveChars_text (isProper_written hs (.named hpath hargs)),
      typeOf, ← htypes]
    rfl

theorem resolveChars_argumentText (hplain : table.IsPlain) (hs : s.unit.IsWellNamed) :
    ∀ {a : TypeArgument}, a.IsWellNamed →
      table.resolveChars (s.argumentText a).toList = s.argumentType table a
  | _, .any => by
    rw [toList_argumentText_any, TypeTable.resolveChars_any, argumentType]
  | _, .exact ht => resolveChars_typeText hplain hs ht
  | _, .upTo ht => by
    have htight := (isArgument_typeText hs ht).isTight
    rw [toList_argumentText_upTo, TypeTable.resolveChars_wildcard (Or.inl rfl) htight]
    exact resolveChars_typeText hplain hs ht
  | _, .downTo ht => by
    have htight := (isArgument_typeText hs ht).isTight
    rw [toList_argumentText_downTo, TypeTable.resolveChars_wildcard (Or.inr rfl) htight]
    exact resolveChars_typeText hplain hs ht

end

/-- **A type read back from its text is the type.** The cut gives its qualified name, the texts of
its arguments in order and its rank; the resolver gives the type that a recursion over the tree
gives; and the test for enums asks for its qualified name. -/
theorem readings_of_typeText {t : TypeRef} (hs : s.unit.IsWellNamed) (ht : t.IsWellNamed) :
    WrittenType.ofText (s.typeText t).toList = s.written t ∧
      TypeTable.standard.resolve (s.typeText t) = s.typeOf .standard t ∧
      Scan.enumHead (s.typeText t) = s.headText t :=
  ⟨ofText_typeText hs ht, resolveChars_typeText TypeTable.standard_isPlain hs ht,
    enumHead_typeText hs ht⟩

/-- A scope that imports two collections and declares an enum beside them. -/
def stock : Scope where
  unit := SourceUnit.ofSyntax none
    ⟨some ["shop"], [.single ["java", "util", "Map"], .single ["java", "util", "List"]], []⟩
  declared := ["shop.Size"]

/-- The type `Map<? extends Item.Id[], List<Size>>[][]`. -/
def ledger : TypeRef :=
  .named "Map" []
    [.upTo (.named "Item" ["Id"] [] 1),
      .exact (.named "List" [] [.exact (.named "Size" [] [] 0)] 0)] 2

theorem isWellNamed_stock : stock.unit.IsWellNamed := by
  refine SourceUnit.isWellNamed_ofSyntax ⟨?_, ?_, List.forall_mem_nil _⟩ none
  · rintro path ⟨⟩
    exact ⟨by decide, by decide⟩
  · intro i hi
    rcases List.mem_pair.1 hi with rfl | rfl <;> exact ⟨by decide, by decide⟩

theorem isWellNamed_ledger : ledger.IsWellNamed := by
  have hsize : TypeRef.IsWellNamed (.named "Size" [] [] 0) :=
    .named ⟨by decide, by decide⟩ fun _ h => nomatch h
  refine .named ⟨by decide, by decide⟩ fun a ha => ?_
  rcases List.mem_pair.1 ha with rfl | rfl
  · exact .upTo (.named ⟨by decide, by decide⟩ fun _ h => nomatch h)
  · refine .exact (.named ⟨by decide, by decide⟩ fun b hb => ?_)
    rw [List.mem_singleton.1 hb]
    exact .exact hsize

theorem readings_of_typeText_ledger :
    stock.typeText ledger = "java.util.Map<? extends Item.Id[], java.util.List<shop.Size>>[][]" ∧
      WrittenType.ofText (stock.typeText ledger).toList =
        ⟨"java.util.Map".toList,
          ["? extends Item.Id[]".toList, "java.util.List<shop.Size>".toList], 2⟩ ∧
      TypeTable.standard.resolve (stock.typeText ledger) =
        ⟨.collection, "Map", "java.util",
          [⟨.reference, "Id", "Item", [], 1⟩,
            ⟨.collection, "List", "java.util", [⟨.reference, "Size", "shop", [], 0⟩], 0⟩], 2⟩ ∧
      Scan.enumHead (stock.typeText ledger) = "java.util.Map" := by
  obtain ⟨hcut, hresolve, hhead⟩ := readings_of_typeText isWellNamed_stock isWellNamed_ledger
  have hname (path : List String) (h : IsPath path) :
      TypeTable.standard.resolve (stock.qualifyPath false path) =
        TypeTable.standard.resolveHead (stock.qualifyPath false path).toList :=
    TypeTable.resolveChars_name (isDottedName_qualifyPath isWellNamed_stock false h)
  refine ⟨by decide, hcut.trans ?_, hresolve.trans ?_, hhead.trans ?_⟩
  · rfl
  · simp only [ledger, typeOf, argumentTypes, argumentType]
    rw [hname ["Map"] ⟨by decide, by decide⟩, hname ["Item", "Id"] ⟨by decide, by decide⟩,
      hname ["List"] ⟨by decide, by decide⟩, hname ["Size"] ⟨by decide, by decide⟩]
    rfl
  · decide

end Scope

end EntityScaffold

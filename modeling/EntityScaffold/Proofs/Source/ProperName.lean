import EntityScaffold.Proofs.Source.Eligible
import EntityScaffold.Proofs.Source.MemberType

/-!
# Names that generated code can use

No name in a text is a reserved word, so neither is one that a class of a scan has: its own name,
the parts of its package, the names of its fields and of all types inside their types
(`Scan.isProper_of_ofClass?`). Type arguments are no primitives. All of it can be written into
another text and be read there.
-/

namespace EntityScaffold

open Java Text

namespace Java

/-! ### Qualified names -/

/-- A name with names before it, and dots between them. -/
inductive IsQualified : String → Prop
  | name {n : String} : IsName n → IsQualified n
  | dot {q n : String} : IsQualified q → IsName n → IsQualified (q ++ "." ++ n)

variable {q n : String}

theorem closedUnderDot_isQualified : ClosedUnderDot IsQualified := by
  intro a b ha hb
  induction hb with
  | name hn => exact .dot ha hn
  | @dot q n _ hn ih =>
    have hassoc : a ++ "." ++ (q ++ "." ++ n) = a ++ "." ++ q ++ "." ++ n := by
      simp only [String.append_assoc]
    rw [hassoc]
    exact .dot ih hn

theorem IsNamePath.isQualified {path : List String} (h : IsNamePath path) :
    IsQualified (".".intercalate path) :=
  closedUnderDot_isQualified.intercalate h.ne_nil fun n hn => .name (h.isName n hn)

theorem IsQualified.isDottedName (h : IsQualified q) : IsDottedName q.toList := by
  induction h with
  | name hn => exact isDottedName_of_isIdentifier hn.isIdentifier
  | dot _ hn ih =>
    exact closedUnderDot_isDottedName ih (isDottedName_of_isIdentifier hn.isIdentifier)

/-- The parts of a qualified name. -/
theorem IsQualified.exists_path (h : IsQualified q) :
    ∃ path, IsNamePath path ∧ q = ".".intercalate path := by
  induction h with
  | @name n hn => exact ⟨[n], ⟨List.cons_ne_nil _ _, List.forall_mem_singleton.2 hn⟩, by simp⟩
  | @dot q n _ hn ih =>
    obtain ⟨path, hpath, rfl⟩ := ih
    refine ⟨path ++ [n], ⟨by simp, fun m hm => ?_⟩, ?_⟩
    · rcases List.mem_append.1 hm with hm | hm
      · exact hpath.isName m hm
      · exact List.mem_singleton.1 hm ▸ hn
    · rw [String.intercalate_append_of_ne_nil hpath.ne_nil (List.cons_ne_nil _ _)]
      simp

theorem IsName.dot_notMem (h : IsName n) : '.' ∉ n.toList :=
  notMem_of_isIdentifier h.isIdentifier (by decide)

/-- No basic type is a qualified name: they are reserved. -/
theorem IsQualified.notMem_basicTypes (h : IsQualified q) : q ∉ Token.basicTypes := by
  have hreserved : ∀ s ∈ Token.basicTypes, s ∈ Token.keywords ∧ '.' ∉ s.toList := by decide
  intro hq
  cases h with
  | name hn => exact hn.notMem_keywords (hreserved _ hq).1
  | dot => exact (hreserved _ hq).2 (by simp)

/-- A namespace of the standard library. -/
theorem isQualified_java (h : IsName n) : IsQualified ("java" ++ "." ++ n) :=
  .dot (.name (by decide)) h

end Java

/-! ### Types -/

namespace ResolvedType

/-- The type is a class or an array. -/
def IsElement (t : ResolvedType) : Prop := t.rank ≠ 0 ∨ IsName t.name

/-- Names in the type are not reserved, and type arguments are classes and arrays. -/
inductive IsProper : ResolvedType → Prop
  | basic {name : String} {rank : Nat} : name ∈ Token.basicTypes →
      IsProper ⟨.primitive, name, "", [], rank⟩
  | named {kind : Kind} {name ns : String} {arguments : List ResolvedType} {rank : Nat} :
      IsName name → (ns = "" ∨ IsQualified ns) → (∀ a ∈ arguments, IsProper a) →
      (∀ a ∈ arguments, a.IsElement) → IsProper ⟨kind, name, ns, arguments, rank⟩

variable {t : ResolvedType}

theorem isProper_plain {kind : Kind} {name ns : String} (hname : IsName name)
    (hns : ns = "" ∨ IsQualified ns) : (plain kind name ns).IsProper :=
  .named hname hns (List.forall_mem_nil _) (List.forall_mem_nil _)

theorem isQualified_language : IsQualified languageNamespace :=
  isQualified_java (n := "lang") (by decide)

theorem isProper_boxedLong : boxedLong.IsProper :=
  isProper_plain (by decide) (.inr isQualified_language)

/-- The class that stands for a type is one. -/
theorem IsProper.boxed (h : t.IsProper) : t.boxed.IsProper ∧ t.boxed.IsElement := by
  have hwrappers : ∀ name ∈ Token.basicTypes,
      ∃ wrapper ∈ wrappers.lookup name, IsName wrapper := by decide
  cases h with
  | @basic name rank hname =>
    cases rank with
    | zero =>
      obtain ⟨wrapper, hlookup, hwrapper⟩ := hwrappers name hname
      have hboxed : ResolvedType.boxed ⟨.primitive, name, "", [], 0⟩ =
          plain .boxed wrapper languageNamespace := by
        simp [ResolvedType.boxed, boxed?, isPrimitive, Option.mem_def.1 hlookup]
      rw [hboxed]
      exact ⟨isProper_plain hwrapper (.inr isQualified_language), .inr hwrapper⟩
    | succ rank => exact ⟨.basic hname, .inl (Nat.succ_ne_zero rank)⟩
  | @named kind name ns arguments rank hname hns hargs helement =>
    have hnone : wrappers.lookup name = none := by
      refine lookup_eq_none_iff_notMem.2 fun hmem => ?_
      have hbasic : ∀ name ∈ wrappers.map (·.1), name ∈ Token.basicTypes := by decide
      exact (IsQualified.name hname).notMem_basicTypes (hbasic name hmem)
    have hboxed : ResolvedType.boxed ⟨kind, name, ns, arguments, rank⟩ =
        ⟨kind, name, ns, arguments, rank⟩ := by
      simp only [ResolvedType.boxed, boxed?, hnone]
      split <;> rfl
    rw [hboxed]
    exact ⟨.named hname hns hargs helement, .inr hname⟩

/-- What a proper type imports are qualified names. -/
theorem isQualified_of_mem_imports (h : t.IsProper) {name : String} (hmem : name ∈ t.imports) :
    IsQualified name := by
  induction h with
  | basic => simp [imports, needsImport, importsAll] at hmem
  | @named kind simple ns arguments rank hname hns _ _ ih =>
    rw [imports, List.mem_append] at hmem
    rcases hmem with hmem | hmem
    · split at hmem
      · rename_i hneeds
        have hne : ns ≠ "" := by
          rintro rfl
          simp [needsImport] at hneeds
        obtain rfl := List.mem_singleton.1 hmem
        rw [qualify, if_neg hne]
        exact .dot (hns.resolve_left hne) hname
      · cases hmem
    · have hall : ∀ as : List ResolvedType, name ∈ importsAll as → ∃ a ∈ as, name ∈ a.imports := by
        intro as
        induction as with
        | nil => rintro ⟨⟩
        | cons a as ihas =>
          rw [importsAll, List.mem_append]
          rintro (ha | has)
          · exact ⟨a, List.mem_cons_self, ha⟩
          · obtain ⟨b, hb, hname⟩ := ihas has
            exact ⟨b, List.mem_cons_of_mem _ hb, hname⟩
      obtain ⟨a, ha, hname⟩ := hall arguments hmem
      exact ih a ha hname

end ResolvedType

namespace TypeTable

/-- The name and the namespace of a class. -/
structure IsClassName (t : ResolvedType) : Prop where
  name : IsName t.name
  ns : t.ns = "" ∨ IsQualified t.ns

theorem resolveHead_of_mem_basicTypes {name : String} (h : name ∈ Token.basicTypes) :
    standard.resolveHead name.toList = .plain .primitive name "" := by
  simp only [Token.basicTypes, List.mem_cons, List.not_mem_nil, or_false] at h
  rcases h with rfl | rfl | rfl | rfl | rfl | rfl | rfl | rfl <;> rfl

/-- Known types under qualified names are classes. -/
theorem isClassName_of_find? {q : String} {t : ResolvedType} (hq : IsQualified q)
    (h : standard.find? q = some t) : IsClassName t := by
  have hall : ∀ entry ∈ standard.entries, entry.1 ∈ Token.basicTypes ∨
      IsName entry.2.name ∧ entry.2.ns ∈ ["java.lang", "java.math", "java.time", "java.util"] := by
    decide +kernel
  have hns : ∀ ns ∈ ["java.lang", "java.math", "java.time", "java.util"], IsQualified ns := by
    simp only [List.mem_cons, List.not_mem_nil, or_false, forall_eq_or_imp, forall_eq]
    exact ⟨isQualified_java (n := "lang") (by decide), isQualified_java (n := "math") (by decide),
      isQualified_java (n := "time") (by decide), isQualified_java (n := "util") (by decide)⟩
  rcases hall _ (mem_of_lookup_eq_some h) with hbasic | ⟨hname, hmem⟩
  · exact absurd hbasic hq.notMem_basicTypes
  · exact ⟨hname, .inr (hns _ hmem)⟩

/-- What a qualified name stands for is a class. -/
theorem isClassName_resolveHead {q : String} (hq : IsQualified q) :
    IsClassName (standard.resolveHead q.toList) := by
  have hcollections : ∀ name ∈ collectionNames, IsName name := by decide +kernel
  unfold resolveHead
  rw [String.ofList_toList]
  split
  · exact isClassName_of_find? hq ‹_›
  · split
    · rename_i simple hsimple
      have hmem : simple ∈ collectionNames := by
        unfold collectionHead? at hsimple
        dsimp only at hsimple
        split at hsimple
        · exact Option.some.inj hsimple ▸ ‹_›
        · split at hsimple
          · exact Option.some.inj hsimple ▸ ‹_›
          · cases hsimple
      exact ⟨hcollections simple hmem, .inr (isQualified_java (n := "util") (by decide))⟩
    · cases hq with
      | name hn =>
        rw [cutLast_eq_none_iff.2 hn.dot_notMem]
        exact ⟨by simpa [ResolvedType.plain] using hn, .inr ResolvedType.isQualified_language⟩
      | @dot ns n hns hn =>
        have hcut : cutLast '.' (ns ++ "." ++ n).toList = some (ns.toList, n.toList) := by
          rw [String.toList_append, String.toList_append, List.append_assoc]
          exact cutLast_append_cons hn.dot_notMem _
        rw [hcut]
        exact ⟨by simpa [ResolvedType.plain] using hn, .inr (by simpa [ResolvedType.plain] using hns)⟩

end TypeTable

namespace Scope

variable {s : Scope}

theorem resolve_of_isQualified {q : String} (hq : IsQualified q) :
    TypeTable.standard.resolve q = TypeTable.standard.resolveHead q.toList :=
  TypeTable.resolveChars_name hq.isDottedName

mutual

/-- **A type of names is resolved to a type of names.** -/
theorem isProper_typeOf (hs : s.unit.MadeOf IsQualified) :
    ∀ {t : TypeRef}, t.IsNamed → (s.typeOf .standard t).IsProper
  | .basic name rank, .basic hname => by
    have hresolve : TypeTable.standard.resolve name = .plain .primitive name "" :=
      (TypeTable.resolveChars_name
        (isDottedName_of_isIdentifier (isIdentifier_of_mem_basicTypes hname))).trans
        (TypeTable.resolveHead_of_mem_basicTypes hname)
    rw [typeOf, hresolve]
    exact .basic hname
  | .named first more arguments rank, .named hpath hargs => by
    have hq := qualifyPath_of_madeOf hs closedUnderDot_isQualified false hpath.ne_nil
      fun n hn => .name (hpath.isName n hn)
    have hclass := TypeTable.isClassName_resolveHead hq
    rw [typeOf, resolve_of_isQualified hq, argumentTypes_eq_map]
    refine .named hclass.name hclass.ns (fun t ht => ?_) fun t ht => ?_
    · obtain ⟨a, ha, rfl⟩ := List.mem_map.1 ht
      exact (isProper_argumentType hs (hargs a ha)).1
    · obtain ⟨a, ha, rfl⟩ := List.mem_map.1 ht
      exact (isProper_argumentType hs (hargs a ha)).2

theorem isProper_argumentType (hs : s.unit.MadeOf IsQualified) :
    ∀ {a : TypeArgument}, a.IsNamed →
      (s.argumentType .standard a).IsProper ∧ (s.argumentType .standard a).IsElement
  | _, .any =>
    have hname : IsName ResolvedType.object.name := by decide
    ⟨ResolvedType.isProper_plain hname (.inr ResolvedType.isQualified_language), .inr hname⟩
  | _, .exact ht helement => ⟨isProper_typeOf hs ht, isElement_typeOf hs ht helement⟩
  | _, .upTo ht helement => ⟨isProper_typeOf hs ht, isElement_typeOf hs ht helement⟩
  | _, .downTo ht helement => ⟨isProper_typeOf hs ht, isElement_typeOf hs ht helement⟩

theorem isElement_typeOf (hs : s.unit.MadeOf IsQualified) :
    ∀ {t : TypeRef}, t.IsNamed → t.IsElement → (s.typeOf .standard t).IsElement
  | .basic _ _, _, hrank => .inl hrank
  | .named first more arguments rank, .named hpath hargs, _ => by
    have hq := qualifyPath_of_madeOf hs closedUnderDot_isQualified false hpath.ne_nil
      fun n hn => .name (hpath.isName n hn)
    rw [typeOf, resolve_of_isQualified hq]
    exact .inr (TypeTable.isClassName_resolveHead hq).name

end

end Scope

/-! ### Classes -/

/-- **The names in the unit of a text are not reserved.** -/
theorem SourceUnit.isNamed_of_read {file : Option String} {text : String} {u : SourceUnit}
    (h : read file text = .ok u) : u.MadeOf IsQualified ∧ ∀ d ∈ u.types, d.IsNamed := by
  unfold read at h
  cases htree : CompilationUnit.read text with
  | error fault =>
    rw [htree] at h
    cases h
  | ok tree =>
    rw [htree] at h
    cases h
    have hnamed := CompilationUnit.isNamed_of_read htree
    refine ⟨⟨?_, fun p hp => ?_, fun package hp => ?_, fun d hd => .name (hnamed.types d hd).name,
      fun d hd m hm => ?_⟩, hnamed.types⟩
    · -- the package
      cases hpackage : tree.package with
      | none => exact .inl (by simp [ofSyntax, hpackage])
      | some path =>
        have hpath := (hnamed.package path hpackage).isQualified
        exact .inr (by simpa [ofSyntax, hpackage] using hpath)
    · -- imports of one type
      obtain ⟨i, hi, hsome⟩ := List.mem_filterMap.1 (List.mem_reverse.1 hp)
      cases i with
      | single path =>
        cases hsome
        exact (hnamed.imports _ hi).isQualified
      | onDemand path => cases hsome
    · -- imports of packages
      obtain ⟨i, hi, hsome⟩ := List.mem_filterMap.1 hp
      cases i with
      | single path => cases hsome
      | onDemand path =>
        cases hsome
        exact (hnamed.imports _ hi).isQualified
    · -- types inside others
      obtain ⟨member, hmember, hsome⟩ := List.mem_filterMap.1 hm
      cases member with
      | type kind name =>
        cases hsome
        exact .name ((hnamed.types d hd).members _ hmember)
      | fields | constructor | other => cases hsome

/-- A field has a name that is not reserved, and a type of such names. -/
structure Attribute.IsProper (f : Attribute) : Prop where
  name : IsName f.name
  type : f.type.IsProper

/-- The class, its package and its fields have names that are not reserved. -/
structure Entity.IsProper (m : Entity) : Prop where
  className : IsName m.className
  package : m.package = "" ∨ IsQualified m.package
  fields : ∀ f ∈ m.fields, f.IsProper

namespace Scan

variable {s : Scan} {c : SourceClass}

/-- The class and its own fields have names that are not reserved. -/
structure HasNames (c : SourceClass) : Prop where
  name : IsName c.name
  package : c.package = "" ∨ IsQualified c.package
  fields : ∀ f ∈ c.fields, (Attribute.ofSource .standard f).IsProper

theorem hasNames_describe (hs : s.IsRead) {name : String} {u : SourceUnit} {d : TypeDecl}
    (h : (name, u, d) ∈ s.topLevels) (p : Option SourceClass) : HasNames (s.describe u d p) := by
  obtain ⟨hu, hd, -⟩ := mem_topLevels.1 h
  obtain ⟨file, text, hread⟩ := hs u hu
  obtain ⟨hmade, hnamed⟩ := SourceUnit.isNamed_of_read hread
  have hwell := (SourceUnit.isLexical_of_read hread).1
  refine ⟨(hnamed d hd).name, hmade.package, fun f hf => ?_⟩
  obtain ⟨t, -, g, hg, -, hf⟩ := mem_fields_describe_iff.1 hf
  have hgroup : g.IsNamed := (hnamed d hd).members _ hg
  obtain ⟨⟨n, rank⟩, hn, rfl⟩ := List.mem_map.1 hf
  have htype := hgroup.type.addRank rank
  refine ⟨hgroup.names _ hn, ?_⟩
  show (TypeTable.standard.resolve ((Scope.mk u s.declared).typeText _)).IsProper
  rw [TypeTable.resolve, Scope.resolveChars_typeText TypeTable.standard_isPlain hwell
    htype.isWellNamed]
  exact Scope.isProper_typeOf hmade htype

theorem hasNames_of_lookup (hs : s.IsRead) {name : String}
    (h : s.described.lookup name = some c) : HasNames c := by
  cases s.memo_described.describes h with
  | alone hmem => exact hasNames_describe hs hmem none
  | above hmem => exact hasNames_describe hs hmem _

/-- **The entity of a class that is read has names that are not reserved**, in the fields that it
inherits too. -/
theorem isProper_of_ofClass? (hs : s.IsRead) (hc : c ∈ s.classes) {m : Entity}
    (hm : Entity.ofClass? .standard c = some m) : m.IsProper := by
  obtain ⟨-, rfl⟩ : c.isEntity = true ∧ Entity.describe .standard c = m := by
    simpa [Entity.ofClass?] using hm
  have hlookup := lookup_of_mem_classes hc
  have hnames := hasNames_of_lookup hs hlookup
  refine ⟨hnames.name, hnames.package, fun f hf => ?_⟩
  obtain ⟨field, hfield, rfl⟩ := List.mem_map.1 hf
  obtain ⟨x, hx, hmem⟩ := List.mem_flatMap.1 (List.mem_filter.1 hfield).1
  rcases List.mem_cons.1 hx with rfl | hx
  · exact hnames.fields field hmem
  · rw [SourceClass.ancestors_eq_chain (s.memo_described.nodup_chain hlookup)] at hx
    have habove := s.memo_described.lookup_of_mem_chain hlookup hx
    exact (hasNames_of_lookup hs habove).fields field hmem

end Scan

end EntityScaffold

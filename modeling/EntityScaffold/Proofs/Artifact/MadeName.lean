import EntityScaffold.Proofs.Artifact.ImportBlock
import EntityScaffold.Proofs.Artifact.SiblingImport
import EntityScaffold.Proofs.Source.ProperName
import EntityScaffold.Proofs.Text.CaseName

/-!
# Names made from names

The names of an entity and of settings are no reserved words, but generated code makes new names
from them. Those of accessors, queries and references have a fixed part that no reserved word has
(`isName_prefixed`, `isName_suffixed`). The class name of a layer has not, and neither has its
variable, the class name in lower case: they are identifiers (`Layer.isIdentifier_className`) that
may well be reserved. `Layer.names` are all such names in the text of a layer; imports and packages
are made of qualified names as long as no sibling is called by a reserved word
(`Layer.isQualified_of_mem_importedNames`).
-/

namespace EntityScaffold

open Java Text

namespace Java

/-- A word that is no name: a keyword or a value. -/
def IsReserved (s : String) : Prop := s ∈ Token.keywords ++ Token.wordLiterals

instance (s : String) : Decidable (IsReserved s) :=
  inferInstanceAs (Decidable (s ∈ Token.keywords ++ Token.wordLiterals))

variable {n s w : String}

theorem isName_of_not_isReserved (h : Text.isIdentifier n.toList = true) (hn : ¬ IsReserved n) :
    IsName n := by
  rw [IsReserved, List.mem_append, not_or] at hn
  exact ⟨⟨h, hn.1⟩, hn.2⟩

/-- What accessors and queries start with. -/
def accessorPrefixes : List String := ["get", "set", "findBy"]

/-- **No reserved word starts like an accessor.** -/
theorem isName_prefixed (hw : w ∈ accessorPrefixes)
    (hs : ∀ c ∈ s.toList, isIdentifierPart c = true) : IsName (w ++ s) := by
  have hword : ∀ w ∈ accessorPrefixes, Text.isIdentifier w.toList = true := by decide
  have hreserved : ∀ r ∈ Token.keywords ++ Token.wordLiterals, ∀ w ∈ accessorPrefixes,
      ¬ w.toList <+: r.toList := by decide
  refine isName_of_not_isReserved ?_ fun hr => hreserved _ hr w hw ?_
  · rw [String.toList_append]
    exact isIdentifier_append (hword w hw) hs
  · rw [String.toList_append]
    exact List.prefix_append _ _

/-- **No reserved word ends like a reference.** -/
theorem isName_suffixed (hn : IsName n) : IsName (n ++ "Id") := by
  have hpart : ∀ c ∈ "Id".toList, isIdentifierPart c = true := forall_mem_of_all (by decide)
  have hreserved : ∀ r ∈ Token.keywords ++ Token.wordLiterals, ¬ "Id".toList <:+ r.toList := by
    decide
  refine isName_of_not_isReserved ?_ fun hr => hreserved _ hr ?_
  · rw [String.toList_append]
    exact isIdentifier_append hn.isIdentifier hpart
  · rw [String.toList_append]
    exact List.suffix_append _ _

theorem IsName.mem_capitalize (hn : IsName n) {c : Char} (hc : c ∈ (Naming.capitalize n).toList) :
    isIdentifierPart c = true :=
  Naming.isIdentifierPart_of_mem_capitalize hn.isIdentifier hc

/-- A name can be quoted. -/
theorem IsName.notMem_of_mem_quoting (hn : IsName n) {c : Char} (hc : c ∈ quoting) :
    c ∉ n.toList := by
  have hpart : ∀ c ∈ quoting, isIdentifierPart c = false := forall_mem_of_all (by decide)
  exact notMem_of_isIdentifier hn.isIdentifier (hpart c hc)

/-! ### Packages -/

variable {q : String} {parts : List String}

theorem isQualified_join (hne : parts ≠ []) (h : ∀ s ∈ parts, IsQualified s) :
    IsQualified (join "." parts) := by
  induction parts with
  | nil => exact absurd rfl hne
  | cons first rest ih =>
    obtain ⟨hfirst, hrest⟩ := List.forall_mem_cons.1 h
    cases rest with
    | nil => exact hfirst
    | cons second rest => exact closedUnderDot_isQualified hfirst (ih (List.cons_ne_nil _ _) hrest)

/-- A qualified name starts and ends with parts of identifiers. -/
theorem IsQualified.ends (h : IsQualified q) :
    (∃ c ∈ q.toList.head?, isIdentifierPart c = true) ∧
      ∃ c ∈ q.toList.getLast?, isIdentifierPart c = true := by
  have hname {n : String} (hn : IsName n) :
      (∃ c ∈ n.toList.head?, isIdentifierPart c = true) ∧
        ∃ c ∈ n.toList.getLast?, isIdentifierPart c = true := by
    have hne := ne_nil_of_isIdentifier hn.isIdentifier
    exact ⟨⟨_, List.head?_eq_some_head hne,
        isIdentifierPart_of_mem hn.isIdentifier (List.head_mem hne)⟩,
      ⟨_, List.getLast?_eq_some_getLast hne,
        isIdentifierPart_of_mem hn.isIdentifier (List.getLast_mem hne)⟩⟩
  induction h with
  | name hn => exact hname hn
  | dot _ hn ih =>
    obtain ⟨⟨c, hc, hcpart⟩, -⟩ := ih
    obtain ⟨-, d, hd, hdpart⟩ := hname hn
    refine ⟨⟨c, ?_, hcpart⟩, ⟨d, ?_, hdpart⟩⟩
    · simp [List.head?_append, Option.mem_def.1 hc]
    · simp [List.getLast?_cons, Option.mem_def.1 hd]

/-- A qualified name has no dots around it. -/
theorem IsQualified.trimDots_eq (h : IsQualified q) : Package.trimDots q = q := by
  have hdot {o : Option Char} (ho : ∃ c ∈ o, isIdentifierPart c = true) :
      ∀ c ∈ o, (c == '.') = false := by
    obtain ⟨c, hc, hpart⟩ := ho
    intro d hd
    obtain rfl := Option.mem_unique hc hd
    refine beq_eq_false_iff_ne.2 fun heq => absurd hpart ?_
    rw [heq]
    decide
  obtain ⟨hhead, hlast⟩ := h.ends
  exact IsTrimmed.stripOf_eq_self ⟨hdot hhead, hdot hlast⟩

/-- Packages are put together from packages. -/
theorem isQualified_joinParts (h : ∀ s ∈ parts, s = "" ∨ IsQualified s) :
    Package.joinParts parts = "" ∨ IsQualified (Package.joinParts parts) := by
  rw [Package.joinParts]
  have hall : ∀ s ∈ (parts.map Package.trimDots).filter (· != ""), IsQualified s := by
    intro s hs
    obtain ⟨hmem, hne⟩ := List.mem_filter.1 hs
    obtain ⟨part, hpart, rfl⟩ := List.mem_map.1 hmem
    rcases h part hpart with rfl | hq
    · cases hne
    · rwa [hq.trimDots_eq]
  by_cases hnil : (parts.map Package.trimDots).filter (· != "") = []
  · rw [hnil]
    exact .inl rfl
  · exact .inr (isQualified_join hnil hall)

theorem isQualified_qualify {ns : String} (hns : ns = "" ∨ IsQualified ns) (hn : IsName n) :
    IsQualified (ResolvedType.qualify ns n) := by
  rw [ResolvedType.qualify]
  split
  · exact .name hn
  · rename_i hne
    exact .dot (hns.resolve_left hne) hn

/-- A qualified name has neither blanks nor semicolons. -/
theorem IsQualified.isSolid {q : String} (h : IsQualified q) : IsSolid q ∧ q ≠ "" := by
  have hdotted := h.isDottedName
  refine ⟨fun c hc => ⟨?_, ?_⟩, ?_⟩
  · cases hblank : isBlank c with
    | false => rfl
    | true =>
      refine absurd hc (hdotted.notMem (isIdentifierPart_of_isBlank hblank) ?_)
      rintro rfl
      cases hblank
  · rintro rfl
    exact hdotted.notMem (by decide) (by decide) hc
  · rintro rfl
    exact hdotted.ne_nil rfl

theorem isQualified_of_mem_libraryTypes : ∀ q ∈ Layer.libraryTypes, IsQualified q := by
  have hparts : ∀ q ∈ Layer.libraryTypes,
      Package.parts q ≠ [] ∧ ∀ s ∈ Package.parts q, IsName s := by
    decide +kernel
  intro q hq
  obtain ⟨hne, hnames⟩ := hparts q hq
  rw [← Package.join_parts q]
  exact isQualified_join hne fun s hs => .name (hnames s hs)

end Java

/-! ### Names of an entity -/

namespace Entity

variable {m : Entity}

/-- A member of the flat view has a name that is not reserved, and so does the field it comes
from. -/
theorem IsProper.projection (h : m.IsProper) {f : FlatAttribute} (hf : f ∈ m.projection) :
    IsName f.name ∧ f.type.IsProper ∧ IsName f.origin.name := by
  obtain ⟨g, hg, hproj⟩ := mem_fields_of_mem_projection hf
  obtain ⟨hname, htype⟩ := h.fields g hg
  unfold Attribute.projection? at hproj
  split_ifs at hproj
  · cases hproj
    exact ⟨isName_suffixed hname, ResolvedType.isProper_boxedLong, hname⟩
  · cases hproj
    exact ⟨hname, htype, hname⟩

/-- The type of the identifier is a class. -/
theorem IsProper.identifierType (h : m.IsProper) :
    m.identifierType.IsProper ∧ m.identifierType.IsElement := by
  rcases m.identifierType_cases with hlong | ⟨f, hf, htype⟩
  · rw [hlong]
    exact ⟨ResolvedType.isProper_boxedLong, .inr (by decide)⟩
  · rw [htype]
    exact (h.fields f hf).type.boxed

theorem IsProper.qualifiedName (h : m.IsProper) : IsQualified m.qualifiedName :=
  isQualified_qualify h.package h.className

end Entity

/-! ### Names of layers -/

/-- Suffixes are made of parts of identifiers, packages of names that are not reserved, and the
prefix of routes can be quoted. -/
structure Settings.IsProper (p : Settings) : Prop where
  suffix : ∀ k, ∀ c ∈ (p.layer k).suffix.toList, isIdentifierPart c = true
  basePackage : p.basePackage = "" ∨ IsQualified p.basePackage
  subPackage : ∀ k, (p.layer k).subPackage = "" ∨ IsQualified (p.layer k).subPackage
  apiPrefix : ∀ c ∈ quoting, c ∉ p.apiPrefix.toList

namespace Layer

variable {m : Entity} {p : Settings}

/-- **The class name of a layer is an identifier**, which may be reserved. -/
theorem isIdentifier_className (hm : m.IsProper) (hp : p.IsProper) (k : Layer) :
    Text.isIdentifier (k.className m p).toList = true := by
  rw [className, String.toList_append]
  exact isIdentifier_append hm.className.isIdentifier (hp.suffix k)

/-- The variable that holds an object of a layer. -/
def variableName (k : Layer) (m : Entity) (p : Settings) : String :=
  Naming.decapitalize (k.className m p)

/-- The variable of a layer is an identifier, which may be reserved. -/
theorem isIdentifier_variableName (hm : m.IsProper) (hp : p.IsProper) (k : Layer) :
    Text.isIdentifier (k.variableName m p).toList = true :=
  Naming.isIdentifier_decapitalize (k.isIdentifier_className hm hp)

/-- **Names that the text of a layer makes by itself**: the class names of the layer and of those
that it refers to, and the variables of what it works with, which is all of these but transfer
objects. -/
def names (m : Entity) (p : Settings) (k : Layer) : List String :=
  k.className m p :: ((k.siblings p).map (·.className m p) ++
    ((k.siblings p).filter (· ≠ dto)).map (·.variableName m p))

/-- None of the names of a layer is reserved. -/
def NamesFree (m : Entity) (p : Settings) (k : Layer) : Prop := ∀ n ∈ k.names m p, ¬ IsReserved n

variable {j k : Layer}

theorem NamesFree.className (h : k.NamesFree m p) (hm : m.IsProper) (hp : p.IsProper) :
    IsName (k.className m p) :=
  isName_of_not_isReserved (k.isIdentifier_className hm hp) (h _ List.mem_cons_self)

theorem NamesFree.sibling (h : k.NamesFree m p) (hm : m.IsProper) (hp : p.IsProper)
    (hj : j ∈ k.siblings p) : IsName (j.className m p) :=
  isName_of_not_isReserved (j.isIdentifier_className hm hp) <| h _ <|
    List.mem_cons_of_mem _ (List.mem_append_left _ (List.mem_map_of_mem hj))

theorem NamesFree.variableName (h : k.NamesFree m p) (hm : m.IsProper) (hp : p.IsProper)
    (hj : j ∈ k.siblings p) (hdto : j ≠ dto) : IsName (j.variableName m p) :=
  isName_of_not_isReserved (j.isIdentifier_variableName hm hp) <| h _ <|
    List.mem_cons_of_mem _ <| List.mem_append_right _ <| List.mem_map_of_mem <|
      List.mem_filter.2 ⟨hj, decide_eq_true hdto⟩

/-- **The package of a layer is a qualified name or none.** -/
theorem isQualified_package (hm : m.IsProper) (hp : p.IsProper) (k : Layer) :
    k.package m p = "" ∨ IsQualified (k.package m p) := by
  have hstrip : strip p.basePackage = p.basePackage := by
    rcases hp.basePackage with hempty | hq
    · rw [hempty]
      rfl
    · exact hq.isSolid.1.strip_eq_self
  refine isQualified_joinParts fun s hs => ?_
  rcases List.mem_pair.1 hs with rfl | rfl
  · rw [hstrip]
    split
    · exact hm.package
    · exact hp.basePackage
  · exact hp.subPackage k

/-- **What a layer imports are qualified names**, if the classes that it refers to have names that
are not reserved. -/
theorem isQualified_of_mem_importedNames (hm : m.IsProper) (hp : p.IsProper)
    (hsiblings : ∀ j ∈ k.siblings p, IsName (j.className m p)) {q : String}
    (hq : q ∈ k.importedNames m p) : IsQualified q := by
  rcases List.mem_append.1 hq with hq | hq
  · have hreference := (mem_foreign.1 hq).1
    simp only [references, List.mem_append, List.mem_map, List.mem_flatMap] at hreference
    rcases hreference with (hself | ⟨j, hj, rfl⟩) | ⟨t, ht, himport⟩
    · split at hself
      · cases hself
      · rw [List.mem_singleton.1 hself]
        exact hm.qualifiedName
    · rw [qualifiedName_eq]
      exact isQualified_qualify (j.isQualified_package hm hp) (hsiblings j hj)
    · -- the types that are written out are those of members, of queries and of the identifier
      refine ResolvedType.isQualified_of_mem_imports ?_ himport
      cases k with
      | dto =>
        obtain ⟨f, hf, rfl⟩ := List.mem_map.1 ht
        exact (hm.projection hf).2.1
      | mapper => cases ht
      | repository =>
        rcases List.mem_cons.1 ht with rfl | ht
        · exact hm.identifierType.1
        · obtain ⟨f, hf, rfl⟩ := List.mem_map.1 ht
          unfold Artifact.queryAttributes at hf
          split at hf
          · exact (hm.fields f (Entity.mem_fields_of_mem_queried hf)).type
          · cases hf
      | service | controller =>
        rw [List.mem_singleton.1 ht]
        exact hm.identifierType.1
  · exact isQualified_of_mem_libraryTypes q (k.libraryNames_subset m p hq)

end Layer

end EntityScaffold

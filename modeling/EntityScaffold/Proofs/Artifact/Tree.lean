import EntityScaffold.Proofs.Artifact.Spelling

/-!
# Types of the layers

The types that the texts of transfer objects, mappers, repositories and services declare. Each
listing is such a type as it is laid out, line by line, and the type is proper as long as the names
of its layer are free.
-/

namespace EntityScaffold

open Java Text Java.Token

/-! ### Lines of code -/

-- what is written for given tokens, and which tokens given code has, is computed
attribute [simp] Token.writeAfter Token.gap Token.tight Token.isSymbolIn Token.closers
  Token.isWord Parser.separated pathTokens modifierTokens Term.inParens Term.tokens
  Term.tokensOfAll Statement.tokens Marking.tokens Marking.pairTokens Parameter.tokens
  Parameter.parameterTokens MemberTree.resultTokens

@[simp] theorem Java.Token.write_cons (t : Token) (ts : List Token) :
    write (t :: ts) = t.text.toList ++ writeAfter t ts := rfl

namespace ResolvedType

/-- A class by its name and its type arguments. -/
def ofName (name : String) (arguments : List ResolvedType) : ResolvedType :=
  mk .reference name "" arguments 0

variable {t : ResolvedType} {name : String} {arguments : List ResolvedType}

theorem isProper_ofName (hname : IsName name)
    (harguments : ∀ a ∈ arguments, a.IsProper ∧ a.IsElement) :
    (ofName name arguments).IsProper ∧ (ofName name arguments).IsElement :=
  ⟨.named hname (.inl rfl) (fun a ha => (harguments a ha).1) (fun a ha => (harguments a ha).2),
    .inr hname⟩

/-- A class without type arguments. -/
theorem isProper_simple (hname : IsName name) :
    (ofName name []).IsProper ∧ (ofName name []).IsElement :=
  isProper_ofName hname (List.forall_mem_nil _)

/-- A class with one type argument. -/
theorem isProper_unary (hname : IsName name) (ht : t.IsProper ∧ t.IsElement) :
    (ofName name [t]).IsProper ∧ (ofName name [t]).IsElement :=
  isProper_ofName hname (List.forall_mem_singleton.2 ht)

@[simp] theorem render_ofName_nil (name : String) : (ofName name []).render = name := by
  simp [ofName, render, replicate]

@[simp] theorem render_ofName_singleton (name : String) (a : ResolvedType) :
    (ofName name [a]).render = name ++ "<" ++ a.render ++ ">" := by
  simp [ofName, render, renderAll, replicate]

@[simp] theorem render_ofName_pair (name : String) (a b : ResolvedType) :
    (ofName name [a, b]).render = name ++ "<" ++ a.render ++ ", " ++ b.render ++ ">" := by
  simp [ofName, render, renderAll, replicate, String.append_assoc]

/-- A proper type is written as a word is. -/
theorem IsProper.writeAfter_append (h : t.IsProper) (u v : Token) (vs : List Token)
    (hv : v ≠ openParen) :
    writeAfter u (t.tokens ++ v :: vs) =
      gap u (.identifier "") ++ t.render.toList ++ writeAfter (.identifier "") (v :: vs) := by
  obtain ⟨hword, hwrite⟩ := h.writes
  rw [hword u (v :: vs) (by simpa using hv), hwrite]

theorem IsProper.write_append (h : t.IsProper) (v : Token) (vs : List Token)
    (hv : v ≠ openParen) :
    write (t.tokens ++ v :: vs) = t.render.toList ++ writeAfter (.identifier "") (v :: vs) := by
  obtain ⟨u, us, hus, -⟩ := h.exists_cons
  have hafter := h.writeAfter_append openParen v vs hv
  rw [hus, List.cons_append] at hafter ⊢
  simpa using hafter

end ResolvedType

namespace Listing

variable {marks body : List String} {line opening : String} {markings : List Marking}
  {words : List String} {result : Option ResolvedType} {name : String} {ps : List Parameter}

/-- A method with a body, behind its annotations. -/
theorem spells_method {stmts : List Statement}
    (hmarks : Spells marks (markings.flatMap Marking.tokens))
    (hopening : (opening ++ " \x7b").toList =
      write (words.map .keyword ++ (MemberTree.resultTokens result ++
        .identifier name :: (Parameter.parameterTokens ps ++ [openBrace]))))
    (hbody : Spells body (stmts.flatMap Statement.tokens)) :
    Spells (marks ++ braced opening body)
      (MemberTree.method markings words result name ps (some stmts)).tokens := by
  have hline : IsLine (opening ++ " \x7b") ((words.map .keyword ++
      (MemberTree.resultTokens result ++ .identifier name :: Parameter.parameterTokens ps)) ++
        [openBrace]) := isLine_of_eq (by simpa using hopening)
  have hall := hmarks.append (spells_braced hline hbody)
  simpa [MemberTree.tokens, MemberTree.bodyTokens, blockTokens] using hall

/-- A method with a body and without annotations. -/
theorem spells_plainMethod {stmts : List Statement}
    (hopening : (opening ++ " \x7b").toList =
      write (words.map .keyword ++ (MemberTree.resultTokens result ++
        .identifier name :: (Parameter.parameterTokens ps ++ [openBrace]))))
    (hbody : Spells body (stmts.flatMap Statement.tokens)) :
    Spells (braced opening body)
      (MemberTree.method [] words result name ps (some stmts)).tokens := by
  have hmarks : Spells [] (([] : List Marking).flatMap Marking.tokens) := .nil
  exact spells_method hmarks hopening hbody

/-- A method without a body, behind its annotations. -/
theorem spells_signature (hmarks : Spells marks (markings.flatMap Marking.tokens))
    (hline : line.toList =
      write (words.map .keyword ++ (MemberTree.resultTokens result ++
        .identifier name :: (Parameter.parameterTokens ps ++ [semicolon])))) :
    Spells (marks ++ [line]) (MemberTree.method markings words result name ps none).tokens := by
  have hall := hmarks.append (Spells.single (isLine_of_eq hline))
  simpa [MemberTree.tokens, MemberTree.bodyTokens] using hall

/-- A constructor. -/
theorem spells_constructor {stmts : List Statement}
    (hopening : (opening ++ " \x7b").toList =
      write (.keyword "public" :: .identifier name ::
        (Parameter.parameterTokens ps ++ [openBrace])))
    (hbody : Spells body (stmts.flatMap Statement.tokens)) :
    Spells (braced opening body) (MemberTree.constructor name ps stmts).tokens := by
  have hline : IsLine (opening ++ " \x7b")
      ((.keyword "public" :: .identifier name :: Parameter.parameterTokens ps) ++ [openBrace]) :=
    isLine_of_eq (by simpa using hopening)
  have hall := spells_braced hline hbody
  simpa [MemberTree.tokens, blockTokens] using hall

/-- A block that is one member. -/
theorem spells_member {block : List String} {t : MemberTree} (h : Spells block t.tokens) :
    Spells block ([t].flatMap MemberTree.tokens) := by
  simpa using h

/-- Blocks that are made from items one after the other. -/
theorem forall₂_flatMap {α β ι : Type} {R : α → β → Prop} {xs : List ι} {f : ι → List α}
    {g : ι → List β} (h : ∀ x ∈ xs, List.Forall₂ R (f x) (g x)) :
    List.Forall₂ R (xs.flatMap f) (xs.flatMap g) := by
  induction xs with
  | nil => exact .nil
  | cons x xs ih =>
    obtain ⟨hx, hxs⟩ := List.forall_mem_cons.1 h
    exact List.rel_append hx (ih hxs)

end Listing

namespace Artifact

open Listing ResolvedType

variable {m : Entity} {p : Settings}

/-! ### Transfer objects -/

/-- The field of a member. -/
def fieldTree (f : FlatAttribute) : MemberTree := .field ["private"] f.type f.name

/-- The method that reads a member. -/
def getterTree (f : FlatAttribute) : MemberTree :=
  .method [] ["public"] (some f.type) ("get" ++ Naming.capitalize f.name) []
    (some [.result (.dotted [f.name])])

/-- The method that writes a member. -/
def setterTree (f : FlatAttribute) : MemberTree :=
  .method [] ["public"] none ("set" ++ Naming.capitalize f.name) [⟨none, f.type, f.name⟩]
    (some [.assign f.name (.dotted [f.name])])

/-- The members of a transfer object, by the blocks in which they stand. -/
def dtoMembers (m : Entity) (p : Settings) : List (List MemberTree) :=
  (if m.projection.isEmpty then [] else [m.projection.map fieldTree]) ++
    (if p.accessorStyle then [] else m.projection.flatMap fun f => [[getterTree f], [setterTree f]])

/-- The type of a transfer object. -/
def dtoType (m : Entity) (p : Settings) : TypeTree where
  markings :=
    if p.accessorStyle then
      ["Data", "NoArgsConstructor", "AllArgsConstructor", "Builder"].map .plain
    else []
  heading := .ofClass
  name := Layer.dto.className m p
  members := (dtoMembers m p).flatten

theorem isLine_memberDeclaration {f : FlatAttribute} (hf : f.type.IsProper) :
    IsLine (memberDeclaration f) (fieldTree f).tokens :=
  isLine_of_eq (by simp [memberDeclaration, fieldTree, MemberTree.tokens, hf.writeAfter_append])

theorem spells_getter {f : FlatAttribute} (hf : f.type.IsProper) :
    Spells (getter f) (getterTree f).tokens := by
  refine spells_plainMethod ?_ (.single (isLine_of_eq ?_))
  · simp [hf.writeAfter_append]
  · simp

theorem spells_setter {f : FlatAttribute} (hf : f.type.IsProper) :
    Spells (setter f) (setterTree f).tokens := by
  refine spells_plainMethod ?_ (.single (isLine_of_eq ?_))
  · simp [hf.writeAfter_append]
  · simp

/-- **The listing of a transfer object is its type as it is laid out.** -/
theorem laysOut_dto (hm : m.IsProper) : (dto m p).LaysOut (dtoType m p) where
  markings := by
    simp only [dto, dtoType]
    split
    · refine .cons (isLine_of_eq ?_) (.cons (isLine_of_eq ?_) (.cons (isLine_of_eq ?_)
        (.single (isLine_of_eq ?_)))) <;> simp
    · exact .nil
  declaration := isLine_of_eq (by
    simp [dto, dtoType, TypeTree.declarationTokens, Heading.word, Heading.parentTokens,
      Heading.parent?])
  members := by
    have htype : ∀ f ∈ m.projection, f.type.IsProper := fun f hf => (hm.projection hf).2.1
    refine ⟨dtoMembers m p, rfl, List.rel_append ?_ ?_⟩
    · split
      · exact .nil
      · refine .cons ?_ .nil
        rw [List.flatMap_map]
        exact Spells.of_map fun f hf => isLine_memberDeclaration (htype f hf)
    · split
      · exact .nil
      · exact forall₂_flatMap fun f hf =>
          .cons (spells_member (spells_getter (htype f hf)))
            (.cons (spells_member (spells_setter (htype f hf))) .nil)

/-- A name is a value. -/
theorem isProper_dotted {name : String} (h : IsName name) : (Term.dotted [name]).IsProper :=
  .dotted ⟨List.cons_ne_nil _ _, List.forall_mem_singleton.2 h⟩

/-- A parameter without annotation. -/
theorem isProper_parameter {type : ResolvedType} {name : String} (htype : type.IsProper)
    (hname : IsName name) : (Parameter.mk none type name).IsProper :=
  ⟨nofun, htype, hname⟩

theorem isProper_getterTree {f : FlatAttribute} (hname : IsName f.name) (htype : f.type.IsProper) :
    (getterTree f).IsProper := by
  refine .method (List.forall_mem_nil _) (by decide) (fun t ht => Option.mem_some.1 ht ▸ htype)
    (isName_prefixed (by decide) fun c => hname.mem_capitalize) (List.forall_mem_nil _)
    fun b hb => ?_
  cases hb
  exact List.forall_mem_singleton.2 (.result (isProper_dotted hname))

theorem isProper_setterTree {f : FlatAttribute} (hname : IsName f.name) (htype : f.type.IsProper) :
    (setterTree f).IsProper := by
  refine .method (List.forall_mem_nil _) (by decide) nofun
    (isName_prefixed (by decide) fun c => hname.mem_capitalize)
    (List.forall_mem_singleton.2 (isProper_parameter htype hname)) fun b hb => ?_
  cases hb
  exact List.forall_mem_singleton.2 (.assign hname (isProper_dotted hname))

/-- The type of a transfer object is proper. -/
theorem isProper_dtoType (hm : m.IsProper) (hname : IsName (Layer.dto.className m p)) :
    (dtoType m p).IsProper where
  markings := by
    simp only [dtoType]
    split
    · have hall : ∀ s ∈ ["Data", "NoArgsConstructor", "AllArgsConstructor", "Builder"], IsName s := by
        decide
      exact List.forall_mem_map.2 fun s hs => .plain (hall s hs)
    · exact List.forall_mem_nil _
  parent := nofun
  name := hname
  members := by
    intro t ht
    obtain ⟨group, hgroup, ht⟩ := List.mem_flatten.1 ht
    rcases List.mem_append.1 hgroup with hgroup | hgroup
    · split at hgroup
      · cases hgroup
      · rw [List.mem_singleton.1 hgroup] at ht
        obtain ⟨f, hf, rfl⟩ := List.mem_map.1 ht
        obtain ⟨hfield, htype, -⟩ := hm.projection hf
        exact .field (by decide) htype hfield
    · split at hgroup
      · cases hgroup
      · obtain ⟨f, hf, hgroup⟩ := List.mem_flatMap.1 hgroup
        obtain ⟨hfield, htype, -⟩ := hm.projection hf
        rcases List.mem_pair.1 hgroup with rfl | rfl
        · exact List.mem_singleton.1 ht ▸ isProper_getterTree hfield htype
        · exact List.mem_singleton.1 ht ▸ isProper_setterTree hfield htype
  isAbstract := nofun

/-- The fields of the type of a transfer object are the members of the flat view. -/
theorem fieldNames_dtoType (m : Entity) (p : Settings) :
    (dtoType m p).members.filterMap MemberTree.fieldName? = m.projection.map (·.name) := by
  have hfields : (if m.projection.isEmpty then [] else
      [m.projection.map fieldTree]).flatten.filterMap MemberTree.fieldName? =
        m.projection.map (·.name) := by
    split
    · rename_i hempty
      rw [List.isEmpty_iff.1 hempty]
      rfl
    · simp [List.filterMap_map, Function.comp_def, fieldTree, MemberTree.fieldName?]
  have hmethods : (if p.accessorStyle then [] else m.projection.flatMap fun f =>
      [[getterTree f], [setterTree f]]).flatten.filterMap MemberTree.fieldName? = [] := by
    refine List.filterMap_eq_nil_iff.2 fun t ht => ?_
    obtain ⟨group, hgroup, ht⟩ := List.mem_flatten.1 ht
    split at hgroup
    · cases hgroup
    · obtain ⟨f, -, hgroup⟩ := List.mem_flatMap.1 hgroup
      rcases List.mem_pair.1 hgroup with rfl | rfl <;> exact List.mem_singleton.1 ht ▸ rfl
  rw [dtoType, dtoMembers, List.flatten_append, List.filterMap_append, hfields, hmethods,
    List.append_nil]

/-! ### Mappers -/

/-- A text in quotes. -/
def quote (s : String) : String := "\"" ++ s ++ "\""

/-- The annotation of a member that is read from the identifier of a reference. -/
def sourceMarking (f : FlatAttribute) : Marking :=
  .pairs "Mapping" [("target", quote f.name),
    ("source", quote (f.origin.name ++ ".id"))]

/-- The annotation of a reference that stays empty. -/
def ignoredMarking (f : FlatAttribute) : Marking :=
  .pairs "Mapping" [("target", quote f.origin.name), ("ignore", "true")]

/-- A method without a body, with one parameter. -/
def signature (markings : List Marking) (result : ResolvedType) (name : String)
    (parameter : ResolvedType) (argument : String) : MemberTree :=
  .method markings [] (some result) name [⟨none, parameter, argument⟩] none

/-- The type of a mapper. -/
def mapperType (m : Entity) (p : Settings) : TypeTree where
  markings := [.pairs "Mapper" [("componentModel", quote "spring")]]
  heading := .ofInterface none
  name := Layer.mapper.className m p
  members :=
    let entity := ofName m.className []
    let dto := ofName (Layer.dto.className m p) []
    [signature ((references m).map sourceMarking) dto "toDto" entity "entity",
     signature ((references m).map ignoredMarking) entity "toEntity" dto "dto",
     signature [] (ofName "List" [dto]) "toDtoList" (ofName "List" [entity]) "entities",
     signature [] (ofName "List" [entity]) "toEntityList" (ofName "List" [dto]) "dtos"]

/-- A method without a body is written in one line, behind its annotations. -/
theorem spells_signature_unary {marks : List String} {markings : List Marking}
    {result parameter : ResolvedType} {name argument line : String}
    (hmarks : Spells marks (markings.flatMap Marking.tokens)) (hresult : result.IsProper)
    (hparameter : parameter.IsProper)
    (hline : line.toList =
      (result.render ++ " " ++ name ++ "(" ++ parameter.render ++ " " ++ argument ++ ");").toList) :
    Spells (marks ++ [line])
      ([signature markings result name parameter argument].flatMap MemberTree.tokens) := by
  refine spells_member (spells_signature hmarks ?_)
  simp [hline, hresult.write_append, hparameter.writeAfter_append]

/-- A method without a body and without annotations is one line. -/
theorem spells_plainSignature {result parameter : ResolvedType} {name argument line : String}
    (hresult : result.IsProper) (hparameter : parameter.IsProper)
    (hline : line.toList =
      (result.render ++ " " ++ name ++ "(" ++ parameter.render ++ " " ++ argument ++ ");").toList) :
    Spells [line] ([signature [] result name parameter argument].flatMap MemberTree.tokens) := by
  have hmarks : Spells [] (([] : List Marking).flatMap Marking.tokens) := .nil
  exact spells_signature_unary hmarks hresult hparameter hline

/-- **The listing of a mapper is its type as it is laid out.** -/
theorem laysOut_mapper (hm : m.IsProper) (hdto : IsName (Layer.dto.className m p)) :
    (mapper m p).LaysOut (mapperType m p) where
  markings := by
    refine .single (isLine_of_eq ?_)
    simp [mapperType, quote]
  declaration := isLine_of_eq (by
    simp [mapper, mapperType, TypeTree.declarationTokens, Heading.word, Heading.parentTokens,
      Heading.parent?])
  members := by
    have hentity := isProper_simple hm.className
    have hdto := isProper_simple hdto
    have hlist (t : ResolvedType) (ht : t.IsProper ∧ t.IsElement) : (ofName "List" [t]).IsProper :=
      (isProper_unary (by decide) ht).1
    have hsource : Spells ((references m).map sourceLine)
        (((references m).map sourceMarking).flatMap Marking.tokens) := by
      have hline : ∀ f ∈ references m, IsLine (sourceLine f) (sourceMarking f).tokens :=
        fun f _ => isLine_of_eq (by unfold sourceLine; simp [sourceMarking, quote])
      rw [List.flatMap_map]
      exact Spells.of_map hline
    have hignored : Spells ((references m).map ignoredLine)
        (((references m).map ignoredMarking).flatMap Marking.tokens) := by
      have hline : ∀ f ∈ references m, IsLine (ignoredLine f) (ignoredMarking f).tokens :=
        fun f _ => isLine_of_eq (by unfold ignoredLine; simp [ignoredMarking, quote])
      rw [List.flatMap_map]
      exact Spells.of_map hline
    refine ⟨(mapperType m p).members.map ([·]), by simp [← List.flatMap_def], ?_⟩
    -- one entity each way, and then lists of them
    refine .cons ?_ (.cons ?_ (.cons ?_ (.cons ?_ .nil)))
    · exact spells_signature_unary hsource hdto.1 hentity.1 (by simp)
    · exact spells_signature_unary hignored hentity.1 hdto.1 (by simp)
    · exact spells_plainSignature (hlist _ hdto) (hlist _ hentity) (by simp)
    · exact spells_plainSignature (hlist _ hentity) (hlist _ hdto) (by simp)

theorem isProper_signature {markings : List Marking} {result parameter : ResolvedType}
    {name argument : String} (hmarkings : ∀ a ∈ markings, a.IsProper) (hresult : result.IsProper)
    (hname : IsName name) (hparameter : parameter.IsProper) (hargument : IsName argument) :
    (signature markings result name parameter argument).IsProper :=
  .method hmarkings (List.forall_mem_nil _) (fun _ ht => Option.mem_some.1 ht ▸ hresult) hname
    (List.forall_mem_singleton.2 (isProper_parameter hparameter hargument)) nofun

/-- A quoted text can be written. -/
theorem isWritable_quote {s : String} (h : ∀ c ∈ quoting, c ∉ s.toList) :
    (Token.literal (quote s)).IsWritable :=
  .quoted h

/-- The annotations of references are proper. -/
theorem isProper_mappingMarking (hm : m.IsProper) {f : FlatAttribute} (hf : f ∈ references m) :
    (sourceMarking f).IsProper ∧ (ignoredMarking f).IsProper := by
  obtain ⟨hname, -, horigin⟩ := hm.projection (List.mem_filter.1 hf).1
  have hsource : ∀ c ∈ quoting, c ∉ (f.origin.name ++ ".id").toList := fun c hc hmem => by
    have hplain : ∀ c ∈ quoting, c ∉ ".id".toList := forall_mem_of_all (by decide)
    rw [String.toList_append, List.mem_append] at hmem
    exact hmem.elim (horigin.notMem_of_mem_quoting hc) (hplain c hc)
  constructor
  · refine .pairs (by decide) (List.cons_ne_nil _ _) ?_
    simp only [List.forall_mem_cons]
    exact ⟨⟨by decide, isWritable_quote fun c => hname.notMem_of_mem_quoting⟩,
      ⟨by decide, isWritable_quote hsource⟩, List.forall_mem_nil _⟩
  · refine .pairs (by decide) (List.cons_ne_nil _ _) ?_
    simp only [List.forall_mem_cons]
    exact ⟨⟨by decide, isWritable_quote fun c => horigin.notMem_of_mem_quoting⟩,
      ⟨by decide, .value (by decide)⟩, List.forall_mem_nil _⟩

/-- The type of a mapper is proper. -/
theorem isProper_mapperType (hm : m.IsProper) (hname : IsName (Layer.mapper.className m p))
    (hdto : IsName (Layer.dto.className m p)) : (mapperType m p).IsProper where
  markings := List.forall_mem_singleton.2 <| .pairs (by decide) (List.cons_ne_nil _ _) <|
    List.forall_mem_singleton.2 ⟨by decide, isWritable_quote (forall_mem_of_all (by decide))⟩
  parent := nofun
  name := hname
  members := by
    have hentity := isProper_simple hm.className
    have hdto := isProper_simple hdto
    have hlist (t : ResolvedType) (ht : t.IsProper ∧ t.IsElement) : (ofName "List" [t]).IsProper :=
      (isProper_unary (by decide) ht).1
    simp only [mapperType, List.forall_mem_cons]
    refine ⟨?_, ?_, ?_, ?_, List.forall_mem_nil _⟩
    · exact isProper_signature (List.forall_mem_map.2 fun f hf => (isProper_mappingMarking hm hf).1)
        hdto.1 (by decide) hentity.1 (by decide)
    · exact isProper_signature (List.forall_mem_map.2 fun f hf => (isProper_mappingMarking hm hf).2)
        hentity.1 (by decide) hdto.1 (by decide)
    · exact isProper_signature (List.forall_mem_nil _) (hlist _ hdto) (by decide)
        (hlist _ hentity) (by decide)
    · exact isProper_signature (List.forall_mem_nil _) (hlist _ hentity) (by decide)
        (hlist _ hdto) (by decide)
  isAbstract _ := by
    simp only [mapperType, List.forall_mem_cons]
    exact ⟨trivial, trivial, trivial, trivial, List.forall_mem_nil _⟩

/-! ### Repositories -/

/-- The query for a value of a field. -/
def findByTree (entity : String) (f : Attribute) : MemberTree :=
  signature [] (ofName "List" [ofName entity []]) ("findBy" ++ Naming.capitalize f.name) f.type f.name

/-- The query for a part of a string. -/
def findContainingTree (entity : String) (f : Attribute) : MemberTree :=
  signature [] (ofName "List" [ofName entity []])
    ("findBy" ++ (Naming.capitalize f.name ++ "ContainingIgnoreCase")) (ofName "String" []) f.name

/-- The queries for a field. -/
def queryTrees (entity : String) (f : Attribute) : List (List MemberTree) :=
  [findByTree entity f] :: if f.type.isString then [[findContainingTree entity f]] else []

/-- The type of a repository. -/
def repositoryType (m : Entity) (p : Settings) : TypeTree where
  markings := [.plain "Repository"]
  heading := .ofInterface (some (ofName "JpaRepository" [ofName m.className [], m.identifierType]))
  name := Layer.repository.className m p
  members := ((queryAttributes m p).flatMap (queryTrees m.className)).flatten

/-- A field that is queried has a name and a type that are proper. -/
theorem isProper_of_mem_queryAttributes (hm : m.IsProper) {f : Attribute}
    (hf : f ∈ queryAttributes m p) : f.IsProper := by
  unfold queryAttributes at hf
  split at hf
  · exact hm.fields f (Entity.mem_fields_of_mem_queried hf)
  · cases hf

/-- The extended type of a repository. -/
theorem isProper_jpaRepository (hm : m.IsProper) :
    (ofName "JpaRepository" [ofName m.className [], m.identifierType]).IsProper ∧
      (ofName "JpaRepository" [ofName m.className [], m.identifierType]).IsElement := by
  refine isProper_ofName (by decide) ?_
  simp only [List.forall_mem_cons]
  exact ⟨isProper_simple hm.className, hm.identifierType, List.forall_mem_nil _⟩

/-- **The listing of a repository is its type as it is laid out.** -/
theorem laysOut_repository (hm : m.IsProper) :
    (repository m p).LaysOut (repositoryType m p) where
  markings := by
    refine .single (isLine_of_eq ?_)
    simp [repositoryType]
  declaration := by
    refine isLine_of_eq ?_
    simp [repository, repositoryType, TypeTree.declarationTokens, Heading.word,
      Heading.parentTokens, Heading.parent?, (isProper_jpaRepository hm).1.writeAfter_append]
  members := by
    refine ⟨_, rfl, forall₂_flatMap fun f hf => ?_⟩
    have hfield := isProper_of_mem_queryAttributes hm hf
    have hlist : (ofName "List" [ofName m.className []]).IsProper :=
      (isProper_unary (by decide) (isProper_simple hm.className)).1
    refine .cons (spells_plainSignature hlist hfield.type (by simp)) ?_
    split
    · exact .cons (spells_plainSignature hlist
        (isProper_simple (by decide)).1 (by simp)) .nil
    · exact .nil

/-- The type of a repository is proper. -/
theorem isProper_repositoryType (hm : m.IsProper)
    (hname : IsName (Layer.repository.className m p)) : (repositoryType m p).IsProper := by
  have hmembers : ∀ t ∈ (repositoryType m p).members, t.IsProper ∧ t.IsAbstract := by
    intro t ht
    obtain ⟨group, hgroup, ht⟩ := List.mem_flatten.1 ht
    obtain ⟨f, hf, hgroup⟩ := List.mem_flatMap.1 hgroup
    obtain ⟨hfield, htype⟩ := isProper_of_mem_queryAttributes hm hf
    have hlist : (ofName "List" [ofName m.className []]).IsProper :=
      (isProper_unary (by decide) (isProper_simple hm.className)).1
    rcases List.mem_cons.1 hgroup with rfl | hgroup
    · refine List.mem_singleton.1 ht ▸ ⟨isProper_signature (List.forall_mem_nil _) hlist ?_ htype
        hfield, trivial⟩
      exact isName_prefixed (by decide) fun c => hfield.mem_capitalize
    · -- only strings are queried for their parts as well
      split at hgroup
      · rw [List.mem_singleton.1 hgroup] at ht
        refine List.mem_singleton.1 ht ▸ ⟨isProper_signature (List.forall_mem_nil _) hlist ?_
          (isProper_simple (by decide)).1 hfield, trivial⟩
        have hrest : ∀ c ∈ "ContainingIgnoreCase".toList, isIdentifierPart c = true :=
          forall_mem_of_all (by decide)
        refine isName_prefixed (by decide) ?_
        rw [String.toList_append]
        exact List.forall_mem_append.2 ⟨fun c => hfield.mem_capitalize, hrest⟩
      · cases hgroup
  exact ⟨List.forall_mem_singleton.2 (.plain (by decide)),
    fun _ ht => Option.mem_some.1 ht ▸ isProper_jpaRepository hm, hname,
    fun t ht => (hmembers t ht).1, fun _ t ht => (hmembers t ht).2⟩

/-! ### Services -/

/-- The field of something that a class works with. -/
def heldField (d : String × String) : MemberTree :=
  .field ["private", "final"] (ofName d.1 []) d.2

/-- The constructor that is given what a class works with. -/
def injection (name : String) (held : List (String × String)) : MemberTree :=
  .constructor name (held.map fun d => ⟨none, ofName d.1 [], d.2⟩)
    (held.map fun d => .assign d.2 (.dotted [d.2]))

/-- A public method. -/
def operation (result : Option ResolvedType) (name : String) (parameters : List Parameter)
    (body : List Statement) : MemberTree :=
  .method [] ["public"] result name parameters (some body)

/-- The type of a service. -/
def serviceType (m : Entity) (p : Settings) : TypeTree where
  markings := [.plain "Service"]
  heading := .ofClass
  name := Layer.service.className m p
  members :=
    let entity := ofName m.className []
    let held := (Layer.repository.className m p, Layer.repository.variableName m p)
    let id : Parameter := ⟨none, m.identifierType, "id"⟩
    [heldField held, injection (Layer.service.className m p) [held],
     operation (some (ofName "List" [entity])) "findAll" [] [.result (.call [held.2, "findAll"] [])],
     operation (some (ofName "Optional" [entity])) "findById" [id]
       [.result (.call [held.2, "findById"] [.dotted ["id"]])],
     operation (some entity) "save" [⟨none, entity, "entity"⟩]
       [.result (.call [held.2, "save"] [.dotted ["entity"]])],
     operation none "deleteById" [id] [.perform [held.2, "deleteById"] [.dotted ["id"]]]]

theorem isLine_heldField {d : String × String} (hd : IsName d.1) :
    IsLine ("private final " ++ d.1 ++ " " ++ d.2 ++ ";") (heldField d).tokens := by
  refine isLine_of_eq ?_
  simp [heldField, MemberTree.tokens, (isProper_simple hd).1.writeAfter_append]

theorem isLine_assignment (s : String) :
    IsLine ("this." ++ s ++ " = " ++ s ++ ";") (Statement.assign s (.dotted [s])).tokens :=
  isLine_of_eq (by simp)

/-- **The listing of a service is its type as it is laid out.** -/
theorem laysOut_service (hm : m.IsProper) (hrepository : IsName (Layer.repository.className m p)) :
    (service m p).LaysOut (serviceType m p) where
  markings := by
    refine .single (isLine_of_eq ?_)
    simp [serviceType]
  declaration := by
    refine isLine_of_eq ?_
    simp [service, serviceType, TypeTree.declarationTokens, Heading.word, Heading.parentTokens,
      Heading.parent?]
  members := by
    have hentity := isProper_simple hm.className
    have hid := hm.identifierType.1
    have hheld := isProper_simple hrepository
    have hlist : (ofName "List" [ofName m.className []]).IsProper :=
      (isProper_unary (by decide) hentity).1
    have hoptional : (ofName "Optional" [ofName m.className []]).IsProper :=
      (isProper_unary (by decide) hentity).1
    have hfield := isLine_heldField
      (d := (Layer.repository.className m p, Layer.repository.variableName m p)) hrepository
    refine ⟨(serviceType m p).members.map ([·]), by simp [← List.flatMap_def], ?_⟩
    -- the field is there already; then come the constructor and the four operations
    refine .cons (spells_member (.single hfield)) (.cons ?_ (.cons ?_ (.cons ?_ (.cons ?_
      (.cons ?_ .nil)))))
    · refine spells_member (spells_constructor ?_ (.single (isLine_assignment _)))
      simp [hheld.1.writeAfter_append, Layer.variableName]
    · refine spells_member (spells_plainMethod ?_ (.single (isLine_of_eq ?_)))
      · simp [hlist.writeAfter_append]
      · simp [Layer.variableName]
    · refine spells_member (spells_plainMethod ?_ (.single (isLine_of_eq ?_)))
      · simp [hoptional.writeAfter_append, hid.writeAfter_append]
      · simp [Layer.variableName]
    · refine spells_member (spells_plainMethod ?_ (.single (isLine_of_eq ?_)))
      · simp [hentity.1.writeAfter_append]
      · simp [Layer.variableName]
    · refine spells_member (spells_plainMethod ?_ (.single (isLine_of_eq ?_)))
      · simp [hid.writeAfter_append]
      · simp [Layer.variableName]

/-- A call of a method of something that a class works with. -/
theorem isProper_call {held name : String} {args : List Term} (hheld : IsName held)
    (hname : IsName name) (hargs : ∀ a ∈ args, a.IsProper) :
    (Term.call [held, name] args).IsProper := by
  refine .call ⟨List.cons_ne_nil _ _, ?_⟩ hargs
  simp only [List.forall_mem_cons]
  exact ⟨hheld, hname, List.forall_mem_nil _⟩

theorem isProper_operation {result : Option ResolvedType} {name : String} {ps : List Parameter}
    {body : List Statement} (hresult : ∀ t ∈ result, t.IsProper) (hname : IsName name)
    (hps : ∀ p ∈ ps, p.IsProper) (hbody : ∀ s ∈ body, s.IsProper) :
    (operation result name ps body).IsProper :=
  .method (List.forall_mem_nil _) (by decide) hresult hname hps
    fun _ hb => Option.mem_some.1 hb ▸ hbody

theorem isProper_heldField {d : String × String} (htype : IsName d.1) (hname : IsName d.2) :
    (heldField d).IsProper :=
  .field (by decide) (isProper_simple htype).1 hname

theorem isProper_injection {name : String} {held : List (String × String)} (hname : IsName name)
    (hheld : ∀ d ∈ held, IsName d.1 ∧ IsName d.2) : (injection name held).IsProper :=
  .constructor hname
    (List.forall_mem_map.2 fun d hd =>
      isProper_parameter (isProper_simple (hheld d hd).1).1 (hheld d hd).2)
    (List.forall_mem_map.2 fun d hd => .assign (hheld d hd).2 (isProper_dotted (hheld d hd).2))

/-- The type of a service is proper. -/
theorem isProper_serviceType (hm : m.IsProper) (hname : IsName (Layer.service.className m p))
    (hrepository : IsName (Layer.repository.className m p))
    (hvariable : IsName (Layer.repository.variableName m p)) : (serviceType m p).IsProper where
  markings := List.forall_mem_singleton.2 (.plain (by decide))
  parent := nofun
  name := hname
  members := by
    have hentity := isProper_simple hm.className
    have hid : (Parameter.mk none m.identifierType "id").IsProper :=
      isProper_parameter hm.identifierType.1 (by decide)
    have hargument {n : String} (hn : IsName n) : ∀ a ∈ [Term.dotted [n]], a.IsProper :=
      List.forall_mem_singleton.2 (isProper_dotted hn)
    have hresult {n : String} {args : List Term} (hn : IsName n) (hargs : ∀ a ∈ args, a.IsProper) :
        ∀ s ∈ [Statement.result (.call [Layer.repository.variableName m p, n] args)], s.IsProper :=
      List.forall_mem_singleton.2 (.result (isProper_call hvariable hn hargs))
    have hgives {t : ResolvedType} (ht : t.IsProper) : ∀ u ∈ some t, u.IsProper :=
      fun _ hu => Option.mem_some.1 hu ▸ ht
    simp only [serviceType, List.forall_mem_cons]
    refine ⟨isProper_heldField hrepository hvariable,
      isProper_injection hname (List.forall_mem_singleton.2 ⟨hrepository, hvariable⟩),
      ?_, ?_, ?_, ?_, List.forall_mem_nil _⟩
    · exact isProper_operation (hgives (isProper_unary (by decide) hentity).1) (by decide)
        (List.forall_mem_nil _) (hresult (by decide) (List.forall_mem_nil _))
    · exact isProper_operation (hgives (isProper_unary (by decide) hentity).1) (by decide)
        (List.forall_mem_singleton.2 hid) (hresult (by decide) (hargument (by decide)))
    · exact isProper_operation (hgives hentity.1) (by decide)
        (List.forall_mem_singleton.2 (isProper_parameter hentity.1 (by decide)))
        (hresult (by decide) (hargument (by decide)))
    · exact isProper_operation nofun (by decide) (List.forall_mem_singleton.2 hid)
        (List.forall_mem_singleton.2
          (.perform (isProper_call hvariable (by decide) (hargument (by decide)))))
  isAbstract := nofun

end Artifact

end EntityScaffold

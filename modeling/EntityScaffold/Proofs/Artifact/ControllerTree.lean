import EntityScaffold.Proofs.Artifact.Tree

/-!
# Types of controllers

The type that the text of a controller declares: what it works with, the methods that answer
requests, and its own conversions if it has any. A conversion is written as one word is, however it
is made (`Conversion.writes_term`), so each line of a method is written out once for all three ways
to convert.
-/

namespace EntityScaffold

open Java Text Java.Token

namespace Java.Term

variable {t : Term} {s : String}

/-- The term is written among other tokens as one word is. -/
structure Writes (t : Term) (s : String) : Prop where
  asWord : WritesAsWord t.tokens
  write_eq : write t.tokens = s.toList

theorem Writes.writeAfter_append (h : t.Writes s) (u v : Token) (vs : List Token)
    (hv : v ≠ openParen) :
    writeAfter u (t.tokens ++ v :: vs) =
      gap u (.identifier "") ++ s.toList ++ writeAfter (.identifier "") (v :: vs) := by
  rw [h.asWord u (v :: vs) (by simpa using hv), h.write_eq]

theorem writes_dotted (s : String) : (dotted [s]).Writes s :=
  ⟨writesAsWord_of_ends ⟨.identifier s, rfl, rfl⟩ ⟨.identifier s, rfl, .inl rfl⟩, by simp⟩

/-- A call ends with its parenthesis. -/
theorem writes_call {path : List String} {args : List Term} (hpath : path ≠ [])
    (h : write (call path args).tokens = s.toList) : (call path args).Writes s := by
  obtain ⟨first, more, rfl⟩ := List.exists_cons_of_ne_nil hpath
  refine ⟨writesAsWord_of_ends ⟨.identifier first, by simp, rfl⟩
    ⟨closeParen, ?_, .inr (by decide)⟩, h⟩
  simp [List.getLast?_append, List.getLast?_cons]

end Java.Term

namespace Artifact

open Listing ResolvedType

variable {m : Entity} {p : Settings}

namespace Conversion

variable {c : Conversion} {t : Term} {s : String}

/-- The call of a conversion. -/
def term (c : Conversion) (function : String) (argument : Term) : Term :=
  match c with
  | identity => argument
  | own => .call [function] [argument]
  | mapper var => .call [var, function] [argument]

/-- **A conversion is written as one word**, if its argument is. -/
theorem writes_term (c : Conversion) (function : String) (h : t.Writes s) :
    (c.term function t).Writes (c.call function s) := by
  cases c with
  | identity => exact h
  | own => exact Term.writes_call (List.cons_ne_nil _ _) (by simp [call, h.writeAfter_append])
  | mapper var =>
    exact Term.writes_call (List.cons_ne_nil _ _) (by simp [call, h.writeAfter_append])

end Conversion

/-! ### Requests -/

/-- The annotation for requests to the path of one entity. -/
def itemMarking (verb : String) : Marking := .value (verb ++ "Mapping") (quote "/\x7bid\x7d")

/-- The answer to a request for an entity that is not there. -/
def notFoundStatement (service : String) : Statement :=
  .guard (.select (.call [service, "findById"] [.dotted ["id"]]) "isEmpty" [])
    (.result (.select (.call ["ResponseEntity", "notFound"] []) "build" []))

/-- The answer with one entity, or with none. -/
def lookupStatement (service : String) (found : Term) : Statement :=
  .result (.select
    (.select (.call [service, "findById"] [.dotted ["id"]]) "map"
      [.function "entity" (.call ["ResponseEntity", "ok"] [found])])
    "orElse" [.select (.call ["ResponseEntity", "notFound"] []) "build" []])

/-- A method that answers requests. -/
def request (marking : Marking) (answer : ResolvedType) (name : String) (ps : List Parameter)
    (body : List Statement) : MemberTree :=
  .method [marking] ["public"] (some (ofName "ResponseEntity" [answer])) name ps (some body)

/-- The methods that answer requests. -/
def requestTrees (c : Conversion) (entity payload : String) (id : ResolvedType)
    (idSetter service : String) : List MemberTree :=
  let path : Parameter := ⟨some "PathVariable", id, "id"⟩
  let body : Parameter := ⟨some "RequestBody", ofName payload [], "body"⟩
  let found (t : Term) : Statement := .result (.call ["ResponseEntity", "ok"] [t])
  [ request (.plain "GetMapping") (ofName "List" [ofName payload []]) "getAll" []
      [found (c.term "toDtoList" (.call [service, "findAll"] []))],
    request (itemMarking "Get") (ofName payload []) "getById" [path]
      [lookupStatement service (c.term "toDto" (.dotted ["entity"]))],
    request (.plain "PostMapping") (ofName payload []) "create" [body]
      [.declare entity "saved" (.call [service, "save"] [c.term "toEntity" (.dotted ["body"])]),
       .result (.select (.call ["ResponseEntity", "status"] [.dotted ["HttpStatus", "CREATED"]])
        "body" [c.term "toDto" (.dotted ["saved"])])],
    request (itemMarking "Put") (ofName payload []) "update" [path, body]
      [notFoundStatement service,
       .declare entity "entity" (c.term "toEntity" (.dotted ["body"])),
       .perform ["entity", idSetter] [.dotted ["id"]],
       found (c.term "toDto" (.call [service, "save"] [.dotted ["entity"]]))],
    request (itemMarking "Delete") (ofName "Void" []) "delete" [path]
      [notFoundStatement service,
       .perform [service, "deleteById"] [.dotted ["id"]],
       .result (.select (.call ["ResponseEntity", "noContent"] []) "build" [])] ]

theorem spells_notFound (service : String) :
    Spells (notFound service) (notFoundStatement service).tokens := by
  have hopening : IsLine ("if (" ++ service ++ ".findById(id).isEmpty())" ++ " \x7b")
      ((.keyword "if" :: openParen :: ((Term.select (.call [service, "findById"] [.dotted ["id"]])
        "isEmpty" []).tokens ++ [closeParen])) ++ [openBrace]) := isLine_of_eq (by simp)
  have hbody : Spells ["return ResponseEntity.notFound().build();"]
      (Statement.result (.select (.call ["ResponseEntity", "notFound"] []) "build" [])).tokens :=
    .single (isLine_of_eq (by simp))
  have hall := spells_braced hopening hbody
  simpa [notFound, notFoundStatement] using hall

theorem isLine_itemMapping {verb : String} :
    IsLine (itemMapping verb) (itemMarking verb).tokens := by
  refine isLine_of_eq ?_
  simp [itemMapping, itemMarking, quote]

/-- A method that answers requests is written behind its annotation. -/
theorem spells_request {marking : Marking} {mark opening : String} {answer : ResolvedType}
    {name : String} {ps : List Parameter} {body : List String} {stmts : List Statement}
    (hmark : IsLine mark marking.tokens)
    (hopening : (opening ++ " \x7b").toList =
      write (.keyword "public" :: ((ofName "ResponseEntity" [answer]).tokens ++
        .identifier name :: (Parameter.parameterTokens ps ++ [openBrace]))))
    (hbody : Spells body (stmts.flatMap Statement.tokens)) :
    Spells (mark :: braced opening body)
      ([request marking answer name ps stmts].flatMap MemberTree.tokens) := by
  have hmarks : Spells [mark] ([marking].flatMap Marking.tokens) := by
    simpa using Spells.single hmark
  exact spells_member (spells_method hmarks hopening hbody)

/-- The answer is written in three lines. -/
theorem spells_lookup (service : String) {found : Term} {text : String} (h : found.Writes text) :
    Spells
      ["return " ++ service ++ ".findById(id)",
       indentation ++ indentation ++ ".map(entity -> ResponseEntity.ok(" ++ text ++ "))",
       indentation ++ indentation ++ ".orElse(ResponseEntity.notFound().build());"]
      ([lookupStatement service found].flatMap Statement.tokens) := by
  have hindentation : ∀ c ∈ (indentation ++ indentation).toList, isBlank c = true :=
    forall_mem_of_all (by decide)
  have hfirst : IsLine ("return " ++ service ++ ".findById(id)")
      (.keyword "return" :: (Term.call [service, "findById"] [.dotted ["id"]]).tokens) :=
    isLine_of_eq (by simp)
  have hsecond : IsLine
      (indentation ++ indentation ++ ".map(entity -> ResponseEntity.ok(" ++ text ++ "))")
      (dot :: .identifier "map" :: Term.inParens
        [(Term.function "entity" (.call ["ResponseEntity", "ok"] [found])).tokens]) :=
    ⟨_, hindentation, by simp [h.writeAfter_append]⟩
  have hthird : IsLine
      (indentation ++ indentation ++ ".orElse(ResponseEntity.notFound().build());")
      ((dot :: .identifier "orElse" :: Term.inParens
        [(Term.select (.call ["ResponseEntity", "notFound"] []) "build" []).tokens]) ++
          [semicolon]) :=
    ⟨_, hindentation, by simp⟩
  have hall := Spells.cons hfirst (.cons hsecond (.single hthird))
  simpa [lookupStatement] using hall

/-- **The methods that answer requests are written as their lines.** -/
theorem forall₂_requestMethods (c : Conversion) {entity payload : String} {id : ResolvedType}
    (idSetter service : String) (hpayload : IsName payload) (hid : id.IsProper) :
    List.Forall₂ (fun block (ms : List MemberTree) => Spells block (ms.flatMap MemberTree.tokens))
      (requestMethods c entity payload id.render idSetter service)
      ((requestTrees c entity payload id idSetter service).map ([·])) := by
  have hpayload := isProper_simple hpayload
  have hanswer (t : ResolvedType) (ht : t.IsProper ∧ t.IsElement) :
      (ofName "ResponseEntity" [t]).IsProper := (isProper_unary (by decide) ht).1
  have hbody := c.writes_term "toEntity" (Term.writes_dotted "body")
  have hsaved := c.writes_term "toDto" (Term.writes_dotted "saved")
  have hentity := c.writes_term "toDto" (Term.writes_dotted "entity")
  have hall : (c.term "toDtoList" (.call [service, "findAll"] [])).Writes
      (c.call "toDtoList" (service ++ ".findAll()")) :=
    c.writes_term "toDtoList" (Term.writes_call (List.cons_ne_nil _ _) (by simp))
  have hupdated : (c.term "toDto" (.call [service, "save"] [.dotted ["entity"]])).Writes
      (c.call "toDto" (service ++ ".save(entity)")) :=
    c.writes_term "toDto" (Term.writes_call (List.cons_ne_nil _ _) (by simp))
  have hlist : (ofName "List" [ofName payload []]).IsProper ∧
      (ofName "List" [ofName payload []]).IsElement := isProper_unary (by decide) hpayload
  have hvoid : (ofName "ResponseEntity" [ofName "Void" []]).IsProper :=
    hanswer _ (isProper_simple (by decide))
  refine .cons ?_ (.cons ?_ (.cons ?_ (.cons ?_ (.cons ?_ .nil))))
  · -- all entities
    refine spells_request (isLine_of_eq (by simp)) ?_ (.single (isLine_of_eq ?_))
    · simp [(hanswer _ hlist).writeAfter_append]
    · simp [Conversion.toDtoList, hall.writeAfter_append]
  · -- one entity
    refine spells_request isLine_itemMapping ?_ ?_
    · simp [(hanswer _ hpayload).writeAfter_append, hid.writeAfter_append]
    · exact spells_lookup service hentity
  · -- a new entity
    refine spells_request (isLine_of_eq (by simp)) ?_
      (.cons (isLine_of_eq ?_) (.single (isLine_of_eq ?_)))
    · simp [(hanswer _ hpayload).writeAfter_append, hpayload.1.writeAfter_append]
    · simp [Conversion.toEntity, hbody.writeAfter_append]
    · simp [Conversion.toDto, hsaved.writeAfter_append]
  · -- a change: the lines for an entity that is not there come first
    refine spells_request isLine_itemMapping ?_ ((spells_notFound service).append
      (.cons (isLine_of_eq ?_) (.cons (isLine_of_eq ?_) (.single (isLine_of_eq ?_)))))
    · simp [(hanswer _ hpayload).writeAfter_append, hid.writeAfter_append,
        hpayload.1.writeAfter_append]
    · simp [Conversion.toEntity, hbody.writeAfter_append]
    · simp
    · simp [Conversion.toDto, hupdated.writeAfter_append]
  · -- a removal
    refine spells_request isLine_itemMapping ?_ ((spells_notFound service).append
      (.cons (isLine_of_eq ?_) (.single (isLine_of_eq ?_))))
    · simp [hvoid.writeAfter_append, hid.writeAfter_append]
    · simp
    · simp

/-! ### Conversions -/

/-- A conversion that is yet to be written. -/
def unwrittenTree (result function type argument : String) : MemberTree :=
  .method [] ["private"] (some (ofName result [])) function [⟨none, ofName type [], argument⟩]
    (some [.raise (.create "UnsupportedOperationException"
      [.quoted ("Conversion to " ++ result ++ " is not implemented")])])

/-- The conversion of lists by that of their items. -/
def listConversion (entity payload : String) : MemberTree :=
  .method [] ["private"] (some (ofName "List" [ofName payload []])) "toDtoList"
    [⟨none, ofName "List" [ofName entity []], "entities"⟩]
    (some [.result (.select
      (.select (.call ["entities", "stream"] []) "map" [.method "toDto"])
      "collect" [.call ["Collectors", "toList"] []])])

/-- The conversions of a controller without a mapper. -/
def conversionTrees (entity payload : String) : List MemberTree :=
  [unwrittenTree payload "toDto" entity "entity", unwrittenTree entity "toEntity" payload "dto",
   listConversion entity payload]

theorem spells_unwritten {result type parameter argument : String} (function : String)
    (hresult : IsName result) (htype : IsName type)
    (hparameter : parameter.toList = (type ++ " " ++ argument).toList) :
    Spells (unwritten result function parameter result)
      (unwrittenTree result function type argument).tokens := by
  refine spells_plainMethod ?_ (.single (isLine_of_eq ?_))
  · simp [hparameter, (isProper_simple hresult).1.writeAfter_append,
      (isProper_simple htype).1.writeAfter_append]
  · simp [Token.quoted]

/-- **The conversions of a controller are written as their lines.** -/
theorem forall₂_ownConversions {entity payload : String} (hentity : IsName entity)
    (hpayload : IsName payload) :
    List.Forall₂ (fun block (ms : List MemberTree) => Spells block (ms.flatMap MemberTree.tokens))
      (ownConversions entity payload) ((conversionTrees entity payload).map ([·])) := by
  have hlist {name : String} (hname : IsName name) : (ofName "List" [ofName name []]).IsProper :=
    (isProper_unary (by decide) (isProper_simple hname)).1
  refine .cons (spells_member (spells_unwritten "toDto" hpayload hentity (by simp)))
    (.cons (spells_member (spells_unwritten "toEntity" hentity hpayload (by simp)))
      (.cons ?_ .nil))
  refine spells_member (spells_plainMethod ?_ (.single (isLine_of_eq ?_)))
  · simp [(hlist hpayload).writeAfter_append, (hlist hentity).writeAfter_append]
  · simp

/-! ### The type of a controller -/

/-- The class of what a controller takes and gives. -/
def payload (m : Entity) (p : Settings) : String :=
  if p.enabled .dto then Layer.dto.className m p else m.className

/-- The members of a controller, by the blocks in which they stand. -/
def controllerMembers (c : Conversion) (m : Entity) (p : Settings) : List (List MemberTree) :=
  [(collaborators m p).map heldField,
      [injection (Layer.controller.className m p) (collaborators m p)]] ++
    (requestTrees c m.className (payload m p) m.identifierType (idSetter m)
      (Layer.service.variableName m p)).map ([·]) ++
    (if c = .own then (conversionTrees m.className (payload m p)).map ([·]) else [])

/-- The type of a controller. -/
def controllerType (c : Conversion) (m : Entity) (p : Settings) : TypeTree where
  markings := [.plain "RestController", .value "RequestMapping" (quote (route m p))]
  heading := .ofClass
  name := Layer.controller.className m p
  members := (controllerMembers c m p).flatten

/-- Parameters of simple types are written with commas between them. -/
theorem writeAfter_parameters {d : String × String} {held : List (String × String)}
    (hheld : ∀ e ∈ d :: held, IsName e.1) (t : Token) (vs : List Token) :
    writeAfter t (Parser.separated comma
        ((d :: held).map fun e => (ofName e.1 []).tokens ++ [.identifier e.2]) ++
          closeParen :: vs) =
      gap t (.identifier "") ++
        (Text.join ", " ((d :: held).map fun e => e.1 ++ " " ++ e.2)).toList ++
          ')' :: writeAfter closeParen vs := by
  -- on the ones after the first: each is written like a word, with a comma in front
  induction held generalizing d t with
  | nil =>
    have htype := isProper_simple (hheld d List.mem_cons_self)
    simp [htype.1.writeAfter_append, Text.join]
  | cons e held ih =>
    obtain ⟨hd, hheld⟩ := List.forall_mem_cons.1 hheld
    have hrest := ih hheld comma
    have hsplit (xs : List (String × String)) : Parser.separated comma
        ((d :: e :: xs).map fun e => (ofName e.1 []).tokens ++ [.identifier e.2]) ++
          closeParen :: vs = (ofName d.1 []).tokens ++ .identifier d.2 :: comma ::
            (Parser.separated comma
              ((e :: xs).map fun e => (ofName e.1 []).tokens ++ [.identifier e.2]) ++
                closeParen :: vs) := by simp
    rw [hsplit, (isProper_simple hd).1.writeAfter_append _ _ _ (by simp), writeAfter, writeAfter,
      hrest]
    simp [Text.join]

/-- What a controller works with is given to its constructor. -/
theorem spells_injection {name : String} {held : List (String × String)} (hne : held ≠ [])
    (hheld : ∀ d ∈ held, IsName d.1) :
    Spells (braced ("public " ++ name ++ "(" ++
        Text.join ", " (held.map fun d => d.1 ++ " " ++ d.2) ++ ")")
      (held.map fun d => "this." ++ d.2 ++ " = " ++ d.2 ++ ";"))
      (injection name held).tokens := by
  refine spells_constructor ?_ ?_
  · obtain ⟨d, held, rfl⟩ := List.exists_cons_of_ne_nil hne
    have hwrite := writeAfter_parameters hheld openParen [openBrace]
    simpa [Function.comp_def] using hwrite.symm
  · rw [List.flatMap_map]
    exact Spells.of_map fun d _ => isLine_assignment d.2

/-- **The listing of a controller is its type as it is laid out.** -/
theorem laysOut_controller (c : Conversion) (hm : m.IsProper) (hpayload : IsName (payload m p))
    (hheld : ∀ d ∈ collaborators m p, IsName d.1) :
    (controllerWith c m p).LaysOut (controllerType c m p) where
  markings := by
    have hroute : IsLine ("@RequestMapping(\"" ++ route m p ++ "\")")
        (Marking.value "RequestMapping" (quote (route m p))).tokens :=
      isLine_of_eq (by simp [quote])
    have hmarkings := Spells.cons (isLine_of_eq (by simp) :
      IsLine "@RestController" (Marking.plain "RestController").tokens) (.single hroute)
    simpa [controllerWith, controllerType] using hmarkings
  declaration := by
    refine isLine_of_eq ?_
    simp [controllerWith, controllerType, TypeTree.declarationTokens, Heading.word,
      Heading.parentTokens, Heading.parent?]
  members := by
    refine ⟨controllerMembers c m p, rfl,
      List.rel_append (List.rel_append (.cons ?_ (.cons ?_ .nil)) ?_) ?_⟩
    · rw [List.flatMap_map]
      exact Spells.of_map fun d hd => isLine_heldField (hheld d hd)
    · exact spells_member (spells_injection (by simp [collaborators]; split <;> simp) hheld)
    · exact forall₂_requestMethods c _ _ hpayload hm.identifierType.1
    · split
      · exact forall₂_ownConversions hm.className hpayload
      · exact .nil

/-! ### Proper controllers -/

/-- The variable of a mapper is not reserved. -/
def Conversion.IsProper : Conversion → Prop
  | mapper var => IsName var
  | _ => True

theorem Conversion.IsProper.term {c : Conversion} (h : c.IsProper) {t : Term} (ht : t.IsProper)
    {function : String} (hfunction : IsName function) : (c.term function t).IsProper := by
  cases c with
  | identity => exact ht
  | own =>
    exact .call ⟨List.cons_ne_nil _ _, List.forall_mem_singleton.2 hfunction⟩
      (List.forall_mem_singleton.2 ht)
  | mapper var => exact isProper_call h hfunction (List.forall_mem_singleton.2 ht)

theorem isProper_notFoundStatement {service : String} (h : IsName service) :
    (notFoundStatement service).IsProper := by
  refine .guard (.select (isProper_call h (by decide) ?_) trivial (by decide)
    (List.forall_mem_nil _)) (.result (.select (isProper_call (by decide) (by decide)
      (List.forall_mem_nil _)) trivial (by decide) (List.forall_mem_nil _)))
  exact List.forall_mem_singleton.2 (isProper_dotted (by decide))

theorem isProper_lookupStatement {service : String} (h : IsName service) {found : Term}
    (hfound : found.IsProper) : (lookupStatement service found).IsProper := by
  have hid : ∀ a ∈ [Term.dotted ["id"]], a.IsProper :=
    List.forall_mem_singleton.2 (isProper_dotted (by decide))
  have hnone : (Term.select (.call ["ResponseEntity", "notFound"] []) "build" []).IsProper :=
    .select (isProper_call (by decide) (by decide) (List.forall_mem_nil _)) trivial (by decide)
      (List.forall_mem_nil _)
  have hsome : (Term.function "entity" (.call ["ResponseEntity", "ok"] [found])).IsProper :=
    .function (by decide)
      (isProper_call (by decide) (by decide) (List.forall_mem_singleton.2 hfound))
  exact .result (.select (.select (isProper_call h (by decide) hid) trivial (by decide)
    (List.forall_mem_singleton.2 hsome)) trivial (by decide) (List.forall_mem_singleton.2 hnone))

theorem isProper_request {marking : Marking} {answer : ResolvedType} {name : String}
    {ps : List Parameter} {body : List Statement} (hmarking : marking.IsProper)
    (hanswer : answer.IsProper ∧ answer.IsElement) (hname : IsName name)
    (hps : ∀ p ∈ ps, p.IsProper) (hbody : ∀ s ∈ body, s.IsProper) :
    (request marking answer name ps body).IsProper :=
  .method (List.forall_mem_singleton.2 hmarking) (by decide)
    (fun _ ht => Option.mem_some.1 ht ▸ (isProper_unary (by decide) hanswer).1) hname hps
    fun _ hb => Option.mem_some.1 hb ▸ hbody

/-- **The methods that answer requests are proper.** -/
theorem isProper_requestTrees {c : Conversion} (hc : c.IsProper)
    {entity payload idSetter service : String} {id : ResolvedType} (hentity : IsName entity)
    (hpayload : IsName payload) (hid : id.IsProper) (hsetter : IsName idSetter)
    (hservice : IsName service) :
    ∀ t ∈ requestTrees c entity payload id idSetter service, t.IsProper := by
  have hpayload := isProper_simple hpayload
  have hargument {n : String} (hn : IsName n) : ∀ a ∈ [Term.dotted [n]], a.IsProper :=
    List.forall_mem_singleton.2 (isProper_dotted hn)
  have hitem {verb : String} (hverb : IsName (verb ++ "Mapping")) : (itemMarking verb).IsProper :=
    .value hverb (isWritable_quote (forall_mem_of_all (by decide)))
  have hpath : (Parameter.mk (some "PathVariable") id "id").IsProper := by
    have hname : IsName "PathVariable" ∧ IsName "id" := by decide
    exact ⟨fun _ ha => Option.mem_some.1 ha ▸ hname.1, hid, hname.2⟩
  have hbody : (Parameter.mk (some "RequestBody") (ofName payload []) "body").IsProper := by
    have hname : IsName "RequestBody" ∧ IsName "body" := by decide
    exact ⟨fun _ ha => Option.mem_some.1 ha ▸ hname.1, hpayload.1, hname.2⟩
  have hok {t : Term} (ht : t.IsProper) :
      (Statement.result (.call ["ResponseEntity", "ok"] [t])).IsProper :=
    .result (isProper_call (by decide) (by decide) (List.forall_mem_singleton.2 ht))
  have hsave {t : Term} (ht : t.IsProper) : (Term.call [service, "save"] [t]).IsProper :=
    isProper_call hservice (by decide) (List.forall_mem_singleton.2 ht)
  have hmissing := isProper_notFoundStatement hservice
  simp only [requestTrees, List.forall_mem_cons]
  refine ⟨?_, ?_, ?_, ?_, ?_, List.forall_mem_nil _⟩
  · -- all entities
    refine isProper_request (.plain (by decide)) (isProper_unary (by decide) hpayload) (by decide)
      (List.forall_mem_nil _) (List.forall_mem_singleton.2 (hok (hc.term ?_ (by decide))))
    exact isProper_call hservice (by decide) (List.forall_mem_nil _)
  · -- one entity
    exact isProper_request (hitem (by decide)) hpayload (by decide)
      (List.forall_mem_singleton.2 hpath) (List.forall_mem_singleton.2
        (isProper_lookupStatement hservice (hc.term (isProper_dotted (by decide)) (by decide))))
  · -- a new entity
    refine isProper_request (.plain (by decide)) hpayload (by decide)
      (List.forall_mem_singleton.2 hbody) ?_
    have hcreated : (Term.call ["ResponseEntity", "status"]
        [.dotted ["HttpStatus", "CREATED"]]).IsProper := by
      refine isProper_call (by decide) (by decide) (List.forall_mem_singleton.2 (.dotted ?_))
      exact ⟨List.cons_ne_nil _ _, by decide⟩
    simp only [List.forall_mem_cons]
    exact ⟨.declare hentity (by decide) (hsave (hc.term (isProper_dotted (by decide)) (by decide))),
      .result (.select hcreated trivial (by decide) (List.forall_mem_singleton.2
        (hc.term (isProper_dotted (by decide)) (by decide)))), List.forall_mem_nil _⟩
  · -- a change
    refine isProper_request (hitem (by decide)) hpayload (by decide) ?_ ?_
    · simp only [List.forall_mem_cons]
      exact ⟨hpath, hbody, List.forall_mem_nil _⟩
    · simp only [List.forall_mem_cons]
      exact ⟨hmissing,
        .declare hentity (by decide) (hc.term (isProper_dotted (by decide)) (by decide)),
        .perform (isProper_call (by decide) hsetter (hargument (by decide))),
        hok (hc.term (hsave (isProper_dotted (by decide))) (by decide)), List.forall_mem_nil _⟩
  · -- a removal
    refine isProper_request (hitem (by decide)) (isProper_simple (by decide)) (by decide)
      (List.forall_mem_singleton.2 hpath) ?_
    have hgone : (Term.call ["ResponseEntity", "noContent"] []).IsProper :=
      isProper_call (by decide) (by decide) (List.forall_mem_nil _)
    simp only [List.forall_mem_cons]
    exact ⟨hmissing, .perform (isProper_call hservice (by decide) (hargument (by decide))),
      .result (.select hgone trivial (by decide) (List.forall_mem_nil _)), List.forall_mem_nil _⟩

theorem isProper_unwrittenTree {result function type argument : String} (hresult : IsName result)
    (hfunction : IsName function) (htype : IsName type) (hargument : IsName argument) :
    (unwrittenTree result function type argument).IsProper := by
  have hmessage : ∀ c ∈ quoting,
      c ∉ ("Conversion to " ++ result ++ " is not implemented").toList := fun c hc hmem => by
    have hplain : ∀ c ∈ quoting,
        c ∉ "Conversion to ".toList ∧ c ∉ " is not implemented".toList :=
      forall_mem_of_all (by decide)
    rw [String.toList_append, List.mem_append, String.toList_append, List.mem_append] at hmem
    rcases hmem with (hmem | hmem) | hmem
    · exact (hplain c hc).1 hmem
    · exact hresult.notMem_of_mem_quoting hc hmem
    · exact (hplain c hc).2 hmem
  exact .method (List.forall_mem_nil _) (by decide)
    (fun _ ht => Option.mem_some.1 ht ▸ (isProper_simple hresult).1) hfunction
    (List.forall_mem_singleton.2 (isProper_parameter (isProper_simple htype).1 hargument))
    fun _ hb => Option.mem_some.1 hb ▸ List.forall_mem_singleton.2
      (.raise (.create (by decide) (List.forall_mem_singleton.2 (.quoted hmessage))))

/-- The conversions of a controller are proper. -/
theorem isProper_conversionTrees {entity payload : String} (hentity : IsName entity)
    (hpayload : IsName payload) : ∀ t ∈ conversionTrees entity payload, t.IsProper := by
  have hlist {name : String} (hname : IsName name) : (ofName "List" [ofName name []]).IsProper :=
    (isProper_unary (by decide) (isProper_simple hname)).1
  have hstream : (Term.select (.select (.call ["entities", "stream"] []) "map"
      [.method "toDto"]) "collect" [.call ["Collectors", "toList"] []]).IsProper := by
    refine .select (.select ?_ trivial (by decide) ?_) trivial (by decide) ?_
    · exact isProper_call (by decide) (by decide) (List.forall_mem_nil _)
    · exact List.forall_mem_singleton.2 (.method (by decide))
    · exact List.forall_mem_singleton.2
        (isProper_call (by decide) (by decide) (List.forall_mem_nil _))
  simp only [conversionTrees, List.forall_mem_cons]
  refine ⟨isProper_unwrittenTree hpayload (by decide) hentity (by decide),
    isProper_unwrittenTree hentity (by decide) hpayload (by decide), ?_, List.forall_mem_nil _⟩
  exact .method (List.forall_mem_nil _) (by decide)
    (fun _ ht => Option.mem_some.1 ht ▸ hlist hpayload) (by decide)
    (List.forall_mem_singleton.2 (isProper_parameter (hlist hentity) (by decide)))
    fun _ hb => Option.mem_some.1 hb ▸ List.forall_mem_singleton.2 (.result hstream)

/-- The path of a controller can be quoted. -/
theorem notMem_route (hm : m.IsProper) (hp : p.IsProper) :
    ∀ c ∈ quoting, c ∉ (route m p).toList := by
  intro c hc
  have hgiven : c ∉ (stripEndOf (· == '/') (strip p.apiPrefix)).toList := fun hmem => by
    rw [stripEndOf, toList_onChars] at hmem
    have htrim := (List.dropWhile_sublist _).mem (List.mem_reverse.1 hmem)
    rw [strip, stripOf, List.mem_reverse, toList_onChars] at htrim
    exact hp.apiPrefix c hc (mem_of_mem_trim htrim)
  have hslash : c ∉ "/".toList := by
    have hquote : ∀ c ∈ quoting, c ∉ "/".toList := forall_mem_of_all (by decide)
    exact hquote c hc
  have hname : c ∉ (Naming.route m.className).toList := fun hmem =>
    hm.className.notMem_of_mem_quoting hc (Naming.mem_of_mem_route hc hmem)
  simp only [route, String.toList_append, List.mem_append, not_or]
  refine ⟨⟨?_, hslash⟩, hname⟩
  split
  · rw [String.toList_append, List.mem_append, not_or]
    exact ⟨hslash, hgiven⟩
  · exact hgiven

/-- The method that sets the identifier has a name. -/
theorem isName_idSetter (hm : m.IsProper) : IsName (idSetter m) := by
  have hname : IsName ((m.identifier?.map (·.name)).getD "id") := by
    cases hid : m.identifier? with
    | none =>
      have hdefault : IsName "id" := by decide
      exact hdefault
    | some f => exact (hm.fields f (List.mem_of_find?_eq_some hid)).name
  exact isName_prefixed (by decide) fun c => hname.mem_capitalize

/-- The type of a controller is proper. -/
theorem isProper_controllerType {c : Conversion} (hm : m.IsProper) (hp : p.IsProper)
    (hc : c.IsProper) (hname : IsName (Layer.controller.className m p))
    (hpayload : IsName (payload m p)) (hservice : IsName (Layer.service.variableName m p))
    (hheld : ∀ d ∈ collaborators m p, IsName d.1 ∧ IsName d.2) :
    (controllerType c m p).IsProper where
  markings := by
    simp only [controllerType, List.forall_mem_cons]
    exact ⟨.plain (by decide), .value (by decide) (isWritable_quote (notMem_route hm hp)),
      List.forall_mem_nil _⟩
  parent := nofun
  name := hname
  members := by
    intro t ht
    obtain ⟨group, hgroup, ht⟩ := List.mem_flatten.1 ht
    simp only [controllerMembers, List.mem_append] at hgroup
    rcases hgroup with (hgroup | hgroup) | hgroup
    · rcases List.mem_pair.1 hgroup with rfl | rfl
      · obtain ⟨d, hd, rfl⟩ := List.mem_map.1 ht
        exact isProper_heldField (hheld d hd).1 (hheld d hd).2
      · exact List.mem_singleton.1 ht ▸ isProper_injection hname hheld
    · obtain ⟨u, hu, rfl⟩ := List.mem_map.1 hgroup
      exact List.mem_singleton.1 ht ▸ isProper_requestTrees hc hm.className hpayload
        hm.identifierType.1 (isName_idSetter hm) hservice u hu
    · split at hgroup
      · obtain ⟨u, hu, rfl⟩ := List.mem_map.1 hgroup
        exact List.mem_singleton.1 ht ▸ isProper_conversionTrees hm.className hpayload u hu
      · cases hgroup
  isAbstract := nofun

end Artifact

end EntityScaffold

import EntityScaffold.Proofs.Artifact.ControllerTree
import EntityScaffold.Proofs.Artifact.ImportBlock
import EntityScaffold.Proofs.Source.Eligible

/-!
# Generated texts are read back

The text of an artifact is read as one class or interface, with the package and the name of the
artifact, as long as the names that its layer makes are free (`Artifact.readBack`). Nothing keeps
them free: they are put together from a class name and a suffix, and two names may make a reserved
word (`Artifact.exists_unreadable`).
-/

namespace EntityScaffold

open Java Text

/-! ### Texts without braces -/

namespace Text.Braces

theorem literalSteps_eq_self {s : List Char} (h : ∀ c ∈ s, c ∉ ['\x7b', '\x7d']) :
    literalSteps s.length .none s = .ok s := by
  induction s with
  | nil => rfl
  | cons c s ih =>
    obtain ⟨hc, hs⟩ := List.forall_mem_cons.1 h
    simp only [List.mem_cons, List.not_mem_nil, or_false, not_or] at hc
    rw [List.length_cons, literalSteps.eq_def]
    simp [hc.1, hc.2, ih hs, Except.map]

/-- A text without braces stands for itself. -/
theorem literal_eq_self {s : String} (h : ∀ c ∈ s.toList, c ∉ ['\x7b', '\x7d']) :
    literal s = .ok s := by
  rw [literal, literalSteps_eq_self h]
  exact congrArg Except.ok (String.ofList_toList)

end Text.Braces

namespace Layer

variable {k : Layer} {m : Entity} {p : Settings} {l : Listing}

/-- The kind of the type that a layer declares. -/
def kind : Layer → TypeKind
  | mapper | repository => .interfaceType
  | dto | service | controller => .classType

/-! ### Conversions of a controller -/

/-- What a controller holds is named freely. -/
theorem NamesFree.collaborators (h : controller.NamesFree m p) (hm : m.IsProper) (hp : p.IsProper) :
    ∀ d ∈ Artifact.collaborators m p, IsName d.1 ∧ IsName d.2 := by
  intro d hd
  obtain ⟨j, hj, rfl⟩ := List.mem_map.1 hd
  have hsibling : j ∈ controller.siblings p ∧ j ≠ dto := by
    simp only [siblings, Artifact.controllerSiblings]
    split at hj
    · rename_i hmapper
      rcases List.mem_pair.1 hj with rfl | rfl <;> simp [hmapper]
    · rw [List.mem_singleton.1 hj]
      simp
  exact ⟨h.sibling hm hp hsibling.1, h.variableName hm hp hsibling.1 hsibling.2⟩

/-- What a controller takes and gives is named freely. -/
theorem NamesFree.payload (h : controller.NamesFree m p) (hm : m.IsProper) (hp : p.IsProper) :
    IsName (Artifact.payload m p) := by
  unfold Artifact.payload
  split
  · rename_i hdto
    exact h.sibling hm hp (by simp [siblings, Artifact.controllerSiblings, hdto])
  · exact hm.className

/-- Variables have no braces. -/
theorem literal_variableName (hm : m.IsProper) (hp : p.IsProper) (k : Layer) :
    Braces.literal (k.variableName m p) = .ok (k.variableName m p) := by
  refine Braces.literal_eq_self fun c hc hmem => ?_
  have hpart : ∀ c ∈ ['\x7b', '\x7d'], isIdentifierPart c = false :=
    forall_mem_of_all (by decide)
  exact notMem_of_isIdentifier (k.isIdentifier_variableName hm hp) (hpart c hmem) hc

/-- The way to convert is found. -/
theorem exists_conversion (hm : m.IsProper) (hp : p.IsProper) :
    ∃ c, Artifact.Conversion.ofSettings m p = .ok c := by
  have hliteral : Braces.literal (Naming.decapitalize (mapper.className m p)) =
      .ok (mapper.variableName m p) := literal_variableName hm hp mapper
  unfold Artifact.Conversion.ofSettings
  split
  · exact ⟨_, rfl⟩
  · split
    · exact ⟨_, by rw [hliteral]; rfl⟩
    · exact ⟨_, rfl⟩

/-- The way to convert has a free name, if it has one. -/
theorem NamesFree.conversion (h : controller.NamesFree m p) (hm : m.IsProper) (hp : p.IsProper)
    {c : Artifact.Conversion} (hc : Artifact.Conversion.ofSettings m p = .ok c) : c.IsProper := by
  obtain rfl | rfl | ⟨hmapper, rfl⟩ : c = .identity ∨ c = .own ∨
      mapper.isEnabled p = true ∧ c = .mapper (mapper.variableName m p) := by
    unfold Artifact.Conversion.ofSettings at hc
    split at hc
    · cases hc
      exact .inl rfl
    · split at hc
      · rename_i hmapper
        have hliteral : Braces.literal (Naming.decapitalize (mapper.className m p)) =
            .ok (mapper.variableName m p) := literal_variableName hm hp mapper
        rw [hliteral] at hc
        cases hc
        exact .inr (.inr ⟨hmapper, rfl⟩)
      · cases hc
        exact .inr (.inl rfl)
  · trivial
  · trivial
  · exact h.variableName hm hp (by simp [siblings, Artifact.controllerSiblings, hmapper]) (by decide)

/-! ### The type of each layer -/

/-- **The type that the text of a layer declares**, as it is laid out. -/
structure IsTypeOf (k : Layer) (m : Entity) (p : Settings) (l : Listing) (t : TypeTree) : Prop where
  laysOut : l.LaysOut t
  isProper : t.IsProper
  name : t.name = k.className m p
  kind : t.heading.kind = k.kind
  /-- A type without annotations may do without libraries. -/
  libraries : t.markings ≠ [] → k.libraryNames m p ≠ []
  fields : k = .dto → t.members.filterMap MemberTree.fieldName? = m.projection.map (·.name)

/-- **Each listing of a layer whose names are free lays out a proper type.** -/
theorem Lists.exists_isTypeOf (h : Lists m p k l) (hm : m.IsProper) (hp : p.IsProper)
    (hfree : k.NamesFree m p) : ∃ t, k.IsTypeOf m p l t := by
  have hname := hfree.className hm hp
  cases h with
  | dto =>
    refine ⟨_, Artifact.laysOut_dto hm, Artifact.isProper_dtoType hm hname, rfl, rfl, ?_,
      fun _ => Artifact.fieldNames_dtoType m p⟩
    have hnames : Artifact.accessorImports ≠ [] := List.cons_ne_nil _ _
    cases hstyle : p.accessorStyle <;> simp [Artifact.dtoType, libraryNames, hstyle, hnames]
  | mapper =>
    have hdto : IsName (Layer.dto.className m p) := hfree.sibling hm hp List.mem_cons_self
    exact ⟨_, Artifact.laysOut_mapper hm hdto, Artifact.isProper_mapperType hm hname hdto, rfl, rfl,
      fun _ => List.cons_ne_nil _ _, by rintro ⟨⟩⟩
  | repository =>
    exact ⟨_, Artifact.laysOut_repository hm, Artifact.isProper_repositoryType hm hname, rfl, rfl,
      fun _ => List.cons_ne_nil _ _, by rintro ⟨⟩⟩
  | service =>
    have hrepository : IsName (Layer.repository.className m p) :=
      hfree.sibling hm hp List.mem_cons_self
    have hvariable : IsName (Layer.repository.variableName m p) :=
      hfree.variableName hm hp List.mem_cons_self (by decide)
    exact ⟨_, Artifact.laysOut_service hm hrepository,
      Artifact.isProper_serviceType hm hname hrepository hvariable, rfl, rfl,
      fun _ => List.cons_ne_nil _ _, by rintro ⟨⟩⟩
  | controller hc =>
    have hheld := hfree.collaborators hm hp
    have hpayload := hfree.payload hm hp
    have hservice : IsName (Layer.service.variableName m p) :=
      hfree.variableName hm hp List.mem_cons_self (by decide)
    exact ⟨_, Artifact.laysOut_controller _ hm hpayload fun d hd => (hheld d hd).1,
      Artifact.isProper_controllerType hm hp (hfree.conversion hm hp hc) hname hpayload hservice
        hheld, rfl, rfl, fun _ => List.cons_ne_nil _ _, by rintro ⟨⟩⟩

end Layer

namespace Artifact

variable {a : Artifact} {m : Entity} {p : Settings}

/-- **The description is what the text of an artifact is read as**, and it describes the artifact:
its package, its class name, the kind of its layer, and of a transfer object the members. -/
structure ReadsAs (a : Artifact) (m : Entity) (d : SourceClass) : Prop where
  readAll : SourceClass.readAll none a.text = .ok [d]
  package : d.package = a.package
  name : d.name = a.className
  kind : d.kind = a.layer.kind
  fields : a.layer = .dto → d.fields.map (·.name) = m.projection.map (·.name)

/-- An artifact whose names are free is read back. -/
theorem IsOf.exists_readsAs (h : a.IsOf m p) (hm : m.IsProper) (hp : p.IsProper)
    (hfree : a.layer.NamesFree m p) : ∃ d, a.ReadsAs m d := by
  obtain ⟨l, hlists, htext⟩ := h.exists_lists
  obtain ⟨t, ht⟩ := hlists.exists_isTypeOf hm hp hfree
  have himports : ∀ q ∈ l.imports, IsQualified q := fun q hq =>
    Layer.isQualified_of_mem_importedNames hm hp (fun j hj => hfree.sibling hm hp hj)
      (hlists.mem_imports_iff.1 hq)
  have hmarked : t.markings ≠ [] → l.imports ≠ [] := fun hmarkings => by
    obtain ⟨q, hq⟩ := List.exists_mem_of_ne_nil _ (ht.libraries hmarkings)
    exact List.ne_nil_of_mem (hlists.mem_imports_iff.2 (List.mem_append_right _ hq))
  have hpackage : l.package = a.package := hlists.package_eq.trans h.package_eq.symm
  have hqualified : l.package = "" ∨ IsQualified l.package := by
    rw [hlists.package_eq]
    exact a.layer.isQualified_package hm hp
  obtain ⟨d, hread, hd⟩ := ht.laysOut.exists_readAll ht.isProper hqualified himports hmarked
  refine ⟨d, htext ▸ hread, hd.package.trans hpackage,
    hd.name.trans (ht.name.trans h.className_eq.symm), hd.kind.trans ht.kind, fun hdto => ?_⟩
  have hclass : t.heading.kind = .classType := by rw [ht.kind, hdto, Layer.kind]
  rw [hd.fields hclass, ht.fields hdto]

/-- Steps that all come to a value do so in order. -/
theorem exists_mapM {α β ε : Type} {f : α → Except ε β} {as : List α}
    (h : ∀ a ∈ as, ∃ b, f a = .ok b) : ∃ bs, as.mapM f = .ok bs := by
  induction as with
  | nil => exact ⟨[], rfl⟩
  | cons a as ih =>
    obtain ⟨⟨b, hb⟩, has⟩ := List.forall_mem_cons.1 h
    obtain ⟨bs, hbs⟩ := ih has
    exact ⟨b :: bs, by rw [List.mapM_cons, hb, hbs]; rfl⟩

/-- **Generation does not fail**, reserved words or not. -/
theorem exists_all (hm : m.IsProper) (hp : p.IsProper) : ∃ as, Artifact.all m p = .ok as := by
  have hlisting (k : Layer) : ∃ l?, k.listing? m p = .ok l? := by
    cases k with
    | controller =>
      obtain ⟨c, hc⟩ := Layer.exists_conversion hm hp
      exact ⟨_, by rw [Layer.listing?, controller, hc]; rfl⟩
    | dto | mapper | repository | service => exact ⟨_, rfl⟩
  have hbuild (k : Layer) : ∃ o, k.build? m p = .ok o := by
    obtain ⟨l?, hl⟩ := hlisting k
    unfold Layer.build? Layer.text?
    split
    · exact ⟨_, by rw [hl]; rfl⟩
    · exact ⟨_, rfl⟩
  obtain ⟨os, hos⟩ := exists_mapM fun k (_ : k ∈ Layer.generated) => hbuild k
  exact ⟨os.filterMap id, by rw [Artifact.all, hos]; rfl⟩

/-- **Generated texts are read back**: whatever class is read and whatever the settings are, as long
as their packages are names that are not reserved, their suffixes parts of identifiers and the
prefix of routes free of quotes and backslashes, there is an artifact for each layer that is
enabled, and each one whose names are free is read as what it was generated for. -/
theorem readBack {s : Scan} (hs : s.IsRead) {c : SourceClass} (hc : c ∈ s.classes) {m : Entity}
    (hm : Entity.ofClass? .standard c = some m) {p : Settings} (hp : p.IsProper) :
    ∃ as, Artifact.all m p = .ok as ∧ as.map (·.layer) = Layer.generated.filter (·.isEnabled p) ∧
      ∀ a ∈ as, a.layer.NamesFree m p → ∃ d, a.ReadsAs m d := by
  have hproper := Scan.isProper_of_ofClass? hs hc hm
  obtain ⟨as, has⟩ := exists_all hproper hp
  exact ⟨as, has, map_layer_of_all has, fun a ha hfree =>
    (isOf_of_mem_all has ha).exists_readsAs hproper hp hfree⟩

end Artifact

/-! ### One class, read and written -/

namespace SourceClass

/-- The only class of a text. -/
def only? (text : String) : Option SourceClass :=
  (SourceUnit.read none text).toOption.bind fun u =>
    match u.types with
    | [d] => some ((Scan.mk [u]).describe u d none)
    | _ => none

theorem mem_classes_of_only? {text : String} {c : SourceClass} (h : only? text = some c) :
    c ∈ (Scan.ofText text).classes := by
  obtain ⟨u, hread, hc⟩ := Option.bind_eq_some_iff.1 h
  split at hc
  · rename_i d htypes
    cases hc
    have hscan : Scan.ofText text = Scan.mk [u] := by
      rw [Scan.ofText, hread, Option.toList_some]
    rw [hscan, Scan.classes_of_types_eq htypes]
    exact List.mem_singleton_self _
  · cases hc

end SourceClass

instance (k : Layer) (m : Entity) (p : Settings) : Decidable (k.NamesFree m p) :=
  inferInstanceAs (Decidable (∀ n ∈ k.names m p, ¬ IsReserved n))

namespace Artifact

theorem isProper_standard : Settings.standard.IsProper where
  suffix k := by cases k <;> exact forall_mem_of_all (by decide)
  basePackage := .inl rfl
  subPackage k := by
    have hnames : IsName "dto" ∧ IsName "mapper" ∧ IsName "repository" ∧ IsName "service" ∧
        IsName "controller" := by decide
    obtain ⟨hdto, hmapper, hrepository, hservice, hcontroller⟩ := hnames
    cases k with
    | dto => exact .inr (.name hdto)
    | mapper => exact .inr (.name hmapper)
    | repository => exact .inr (.name hrepository)
    | service => exact .inr (.name hservice)
    | controller => exact .inr (.name hcontroller)
  apiPrefix := forall_mem_of_all (by decide)

/-- An entity with a reference. -/
def orderText : String :=
  "package shop; @jakarta.persistence.Entity public class Order \x7b @jakarta.persistence.Id " ++
    "private Long id; private String title; @jakarta.persistence.ManyToOne " ++
    "private Customer customer; \x7d"

/-- The files of an order are read back. -/
theorem readBack_order :
    ∃ c ∈ (Scan.ofText orderText).classes, ∃ m, Entity.ofClass? .standard c = some m ∧
      ∃ as, Artifact.all m .standard = .ok as ∧ as.length = 5 ∧ ∀ a ∈ as, ∃ d, a.ReadsAs m d := by
  have hfree : (SourceClass.only? orderText).any (fun c => (Entity.ofClass? .standard c).any
      fun m => decide (∀ k ∈ Layer.generated, k.NamesFree m .standard)) = true := by
    decide +kernel
  obtain ⟨c, hc, hfree⟩ := (Option.any_eq_true _ _).1 hfree
  obtain ⟨m, hm, hfree⟩ := (Option.any_eq_true _ _).1 hfree
  have hmem := SourceClass.mem_classes_of_only? hc
  obtain ⟨as, has, hlayers, hread⟩ :=
    readBack (Scan.isRead_ofText orderText) hmem hm isProper_standard
  have hlength : as.length = 5 := by
    rw [← List.length_map (·.layer), hlayers]
    decide
  refine ⟨c, hmem, m, hm, as, has, hlength, fun a ha => hread a ha ?_⟩
  have hlayer : a.layer ∈ as.map (·.layer) := List.mem_map_of_mem ha
  rw [hlayers] at hlayer
  exact of_decide_eq_true hfree a.layer (List.mem_filter.1 hlayer).1

/-- An entity whose name a suffix makes a reserved word. -/
def packText : String :=
  "package shop; @jakarta.persistence.Entity public class pack \x7b @jakarta.persistence.Id " ++
    "private Long id; \x7d"

/-- Transfer objects with a suffix, and nothing else. -/
def ageOnly : Settings :=
  { Settings.standard with
    layer := fun k => if k = .dto then ⟨true, "age", "dto"⟩ else ⟨false, "", ""⟩
    accessorStyle := false }

theorem isProper_ageOnly : ageOnly.IsProper where
  suffix k := by cases k <;> exact forall_mem_of_all (by decide)
  basePackage := .inl rfl
  subPackage k := by
    have hname : IsName "dto" := by decide
    cases k with
    | dto => exact .inr (.name hname)
    | _ => exact .inl rfl
  apiPrefix := forall_mem_of_all (by decide)

/-- **Generated texts need not be read back**: with the suffix `age` the transfer object of `pack`
is a class `package`, which is no compilation unit. -/
theorem exists_unreadable :
    ∃ c ∈ (Scan.ofText packText).classes, ∃ m, Entity.ofClass? .standard c = some m ∧
      ageOnly.IsProper ∧ ∃ as, Artifact.all m ageOnly = .ok as ∧ ∃ a ∈ as, ∀ d, ¬ a.ReadsAs m d := by
  have hcheck : (SourceClass.only? packText).any (fun c => (Entity.ofClass? .standard c).any
      fun m => (Artifact.all m ageOnly).toOption.any (·.any (·.layer = .dto)) &&
        decide ((dto m ageOnly).imports = []) &&
        (SourceClass.readAll none (join "\n" ((dto m ageOnly).packageLines ++
          (dto m ageOnly).typeLines) ++ "\n")).toOption.isNone) = true := by
    decide +kernel
  obtain ⟨c, hc, hcheck⟩ := (Option.any_eq_true _ _).1 hcheck
  obtain ⟨m, hm, hcheck⟩ := (Option.any_eq_true _ _).1 hcheck
  simp only [Bool.and_eq_true, decide_eq_true_eq] at hcheck
  obtain ⟨⟨hall, himports⟩, hrefused⟩ := hcheck
  obtain ⟨as, has, a, ha, hlayer, hof⟩ := exists_of_layer hall
  refine ⟨c, SourceClass.mem_classes_of_only? hc, m, hm, isProper_ageOnly, as, has, a, ha,
    fun d hd => ?_⟩
  have htext : a.text = join "\n" ((dto m ageOnly).packageLines ++
      (dto m ageOnly).typeLines) ++ "\n" := by
    have hlisting : a.layer.listing? m ageOnly = .ok (some (dto m ageOnly)) := by
      rw [hlayer, Layer.listing?]
    have hlines : ImportBlock.lines [] = [] := sortedSet_eq .nil (by rintro _ ⟨⟩) (by rintro _ ⟨⟩)
    have hblock : (dto m ageOnly).importLines = [] := by
      rw [Listing.importLines, himports, hlines]
    rw [hof.text_eq hlisting, Listing.render, Listing.allLines, hblock, List.append_nil]
  rw [← htext, hd.readAll] at hrefused
  cases hrefused

end Artifact

end EntityScaffold

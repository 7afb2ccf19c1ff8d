import EntityScaffold.Artifact.All
import EntityScaffold.Proofs.Types.Node

/-!
# What a layer refers to

A generated text names types: those that it writes out, with all types inside them, the entity, the
artifacts of other layers, and library types. `Layer.references` and `Layer.libraryNames` say which
these are, layer by layer, and the imports of a listing are the library types and the references to
other packages (`Layer.Lists.mem_imports_iff`).
-/

namespace EntityScaffold

open Text

/-! ### Listings of layers -/

namespace Layer

/-- The listing that a layer gives, where it gives one. -/
inductive Lists (m : Entity) (p : Settings) : Layer → Listing → Prop
  | dto : Lists m p .dto (Artifact.dto m p)
  | mapper : p.enabled .dto = true → Lists m p .mapper (Artifact.mapper m p)
  | repository : Lists m p .repository (Artifact.repository m p)
  | service : Lists m p .service (Artifact.service m p)
  | controller {c : Artifact.Conversion} :
      Artifact.Conversion.ofSettings m p = .ok c →
      Lists m p .controller (Artifact.controllerWith c m p)

variable {k : Layer} {m : Entity} {p : Settings} {l : Listing}

theorem lists_of_listing? (h : k.listing? m p = .ok (some l)) : Lists m p k l := by
  cases k with
  | dto =>
    simp only [listing?, Except.ok.injEq, Option.some.injEq] at h
    exact h ▸ .dto
  | mapper =>
    simp only [listing?, Except.ok.injEq] at h
    split at h
    · simp only [Option.some.injEq] at h
      exact h ▸ .mapper ‹_›
    · cases h
  | repository =>
    simp only [listing?, Except.ok.injEq, Option.some.injEq] at h
    exact h ▸ .repository
  | service =>
    simp only [listing?, Except.ok.injEq, Option.some.injEq] at h
    exact h ▸ .service
  | controller =>
    simp only [listing?, Artifact.controller] at h
    cases hc : Artifact.Conversion.ofSettings m p with
    | error fault => simp only [hc, Except.map, reduceCtorEq] at h
    | ok c =>
      simp only [hc, Except.map, Except.ok.injEq, Option.some.injEq] at h
      exact h ▸ .controller hc

theorem Lists.package_eq (h : Lists m p k l) : l.package = k.package m p := by
  cases h with
  | dto => rw [Artifact.dto]
  | mapper => rw [Artifact.mapper]
  | repository => rw [Artifact.repository]
  | service => rw [Artifact.service]
  | controller => rw [Artifact.controllerWith]

/-! ### References -/

/-- The types that the text of a layer writes out. -/
def writtenTypes (m : Entity) (p : Settings) : Layer → List ResolvedType
  | dto => m.projection.map (·.type)
  | mapper => []
  | repository => m.identifierType :: (Artifact.queryAttributes m p).map (·.type)
  | service | controller => [m.identifierType]

/-- The layers whose artifacts the text of a layer refers to. -/
def siblings (p : Settings) : Layer → List Layer
  | dto | repository => []
  | mapper => [dto]
  | service => [repository]
  | controller => Artifact.controllerSiblings p

/-- Qualified names of what the text of a layer refers to, libraries aside: the entity, other
artifacts, and the types that it writes out, as far as they may have to be imported. A transfer
object does not know its entity. -/
def references (m : Entity) (p : Settings) (k : Layer) : List String :=
  (if k = dto then [] else [m.qualifiedName]) ++
    (k.siblings p).map (fun j => j.qualifiedName m p) ++
    (k.writtenTypes m p).flatMap (·.imports)

/-- Qualified names of the library types that the text of a layer is built on. -/
def libraryNames (m : Entity) (p : Settings) : Layer → List String
  | dto => if p.accessorStyle then Artifact.accessorImports else []
  | mapper =>
    ["java.util.List", "org.mapstruct.Mapper"] ++
      (if (Artifact.references m).isEmpty then [] else ["org.mapstruct.Mapping"])
  | repository =>
    ["org.springframework.data.jpa.repository.JpaRepository",
     "org.springframework.stereotype.Repository"] ++
      (if (Artifact.queryAttributes m p).isEmpty then [] else ["java.util.List"])
  | service => ["java.util.List", "java.util.Optional", "org.springframework.stereotype.Service"]
  | controller =>
    Artifact.controllerImports ++
      (if p.enabled .dto && !Layer.mapper.isEnabled p then ["java.util.stream.Collectors"] else [])

/-- Qualified names of everything that the text of a layer imports. -/
def importedNames (m : Entity) (p : Settings) (k : Layer) : List String :=
  Listing.foreign (k.package m p) (k.references m p) ++ k.libraryNames m p

/-- A controller converts by itself if there are transfer objects and no mapper. -/
theorem eq_own_iff {c : Artifact.Conversion} (h : Artifact.Conversion.ofSettings m p = .ok c) :
    c = .own ↔ (p.enabled .dto && !Layer.mapper.isEnabled p) = true := by
  unfold Artifact.Conversion.ofSettings at h
  cases hdto : p.enabled .dto with
  | false =>
    rw [hdto] at h
    cases h
    simp
  | true =>
    cases hmapper : Layer.mapper.isEnabled p with
    | false =>
      rw [hdto, hmapper] at h
      cases h
      simp
    | true =>
      rw [hdto, hmapper] at h
      cases hv : Text.Braces.literal (Naming.decapitalize (Layer.mapper.className m p)) with
      | error fault =>
        rw [hv] at h
        cases h
      | ok v =>
        rw [hv] at h
        cases h
        simp

theorem mem_foreign {package : String} {names : List String} {q : String} :
    q ∈ Listing.foreign package names ↔
      q ∈ names ∧ (Listing.packageOf? q).any (· != package) = true :=
  List.mem_filter

/-- **A listing imports the library types that it is built on and its references to other
packages.** -/
theorem Lists.mem_imports_iff (h : Lists m p k l) {q : String} :
    q ∈ l.imports ↔ q ∈ k.importedNames m p := by
  cases h with
  | dto =>
    simp [importedNames, libraryNames, references, writtenTypes, siblings, Artifact.dto,
      List.flatMap_map]
  | mapper =>
    simp [importedNames, libraryNames, references, writtenTypes, siblings, Artifact.mapper]
  | repository =>
    simp [importedNames, libraryNames, references, writtenTypes, siblings, Artifact.repository,
      List.flatMap_map]
  | service =>
    simp [importedNames, libraryNames, references, writtenTypes, siblings, Artifact.service]
  | controller hc =>
    have hown := eq_own_iff hc
    have hnames : q ∈ m.qualifiedName :: m.identifierType.imports ++
          (Artifact.controllerSiblings p).map (fun j => j.qualifiedName m p) ↔
        q ∈ Layer.controller.references m p := by
      simp [references, writtenTypes, siblings, or_comm]
    simp only [importedNames, libraryNames, Artifact.controllerWith, hown, mem_foreign,
      List.mem_append, ← hnames]
    exact or_comm

end Layer

end EntityScaffold

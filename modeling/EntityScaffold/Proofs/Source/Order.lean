import EntityScaffold.Proofs.Source.Superclass

/-!
# The order of units

Names of a scan are looked up in sets: what is declared, and which of that are enums. So what a
declaration is described as depends on the units but not on their order, and only the links could
tell the order. Without an inheritance cycle no link is left out: the superclass of a class is what
the memo has for its extends clause (`Memo.eq_describe`). By induction along the links two orders
give every name the same description.
-/

namespace EntityScaffold

open Java Relation

namespace Scope

/-! ### Names mean the same among the same declared types -/

section Declared

variable {u : SourceUnit} {declared declared' : List String}

theorem qualifyPath_congr (h : ∀ name, name ∈ declared ↔ name ∈ declared') :
    (Scope.mk u declared).qualifyPath = (Scope.mk u declared').qualifyPath := by
  have hsimple : (Scope.mk u declared).qualifySimple = (Scope.mk u declared').qualifySimple := by
    funext asMarker name
    unfold qualifySimple onDemand?
    simp only [h]
  funext asMarker path
  match path with
  | [] => rfl
  | [name] => exact congrFun (congrFun hsimple asMarker) name
  | first :: second :: rest => rfl

end Declared

section Meaning

variable {s s' : Scope}

mutual

theorem typeText_congr (h : s.qualifyPath = s'.qualifyPath) : ∀ t, s.typeText t = s'.typeText t
  | .basic name rank => rfl
  | .named first more arguments rank => by
    rw [typeText, typeText, h, argumentTexts_eq_join, argumentTexts_eq_join,
      map_argumentText_congr h arguments]

theorem argumentText_congr (h : s.qualifyPath = s'.qualifyPath) :
    ∀ a, s.argumentText a = s'.argumentText a
  | .any => rfl
  | .exact t => typeText_congr h t
  | .upTo t => congrArg ("? extends " ++ ·) (typeText_congr h t)
  | .downTo t => congrArg ("? super " ++ ·) (typeText_congr h t)

theorem map_argumentText_congr (h : s.qualifyPath = s'.qualifyPath) :
    ∀ as : List TypeArgument, as.map s.argumentText = as.map s'.argumentText
  | [] => rfl
  | a :: as => by
    rw [List.map_cons, List.map_cons, argumentText_congr h a, map_argumentText_congr h as]

end

theorem qualifiedHead_congr (h : s.qualifyPath = s'.qualifyPath) (t : TypeRef) :
    s.qualifiedHead t = s'.qualifiedHead t := by
  cases t with
  | basic name rank => rw [qualifiedHead, qualifiedHead, h]
  | named first more arguments rank => rw [qualifiedHead, qualifiedHead, h]

theorem annotationUse_congr (h : s.qualifyPath = s'.qualifyPath) (a : Annotation) :
    s.annotationUse a = s'.annotationUse a := by
  unfold annotationUse
  rw [h]

end Meaning

end Scope

namespace Scan

variable {s s' : Scan}

/-! ### Units in another order -/

theorem topLevels_perm (h : s'.units.Perm s.units) : s'.topLevels.Perm s.topLevels :=
  h.flatMap_right _

theorem declared_perm (h : s'.units.Perm s.units) : s'.declared.Perm s.declared :=
  ((topLevels_perm h).map _).append (h.flatMap_right _)

theorem enums_perm (h : s'.units.Perm s.units) : s'.enums.Perm s.enums :=
  ((topLevels_perm h).filterMap _).append (h.flatMap_right _)

theorem qualifyPath_of_perm (h : s'.units.Perm s.units) (u : SourceUnit) :
    (Scope.mk u s'.declared).qualifyPath = (Scope.mk u s.declared).qualifyPath :=
  Scope.qualifyPath_congr fun _ => (declared_perm h).mem_iff

theorem superName?_of_perm (h : s'.units.Perm s.units) (u : SourceUnit) (d : TypeDecl) :
    s'.superName? u d = s.superName? u d := by
  unfold superName?
  rw [funext (Scope.qualifiedHead_congr (qualifyPath_of_perm h u))]

/-- **A declaration is described the same in every order**, with the same class above it. -/
theorem describe_of_perm (h : s'.units.Perm s.units) (u : SourceUnit) (d : TypeDecl)
    (p : Option SourceClass) : s'.describe u d p = s.describe u d p := by
  have hpath := qualifyPath_of_perm h u
  unfold describe describeFields
  simp only [funext (Scope.typeText_congr hpath), funext (Scope.annotationUse_congr hpath),
    funext (Scope.qualifiedHead_congr hpath), (enums_perm h).mem_iff]

theorem extends_of_perm (h : s'.units.Perm s.units) : s'.Extends = s.Extends := by
  funext a b
  unfold Extends
  simp only [superName?_of_perm h, (topLevels_perm h).mem_iff, ((topLevels_perm h).map _).mem_iff]

theorem isDistinct_of_perm (h : s'.units.Perm s.units) (hs : s.IsDistinct) : s'.IsDistinct :=
  ((topLevels_perm h).map _).nodup_iff.2 hs

/-! ### Without cycles -/

/-- No type is above itself. -/
def IsAcyclic (s : Scan) : Prop := ∀ a, ¬ TransGen s.Extends a a

theorem isAcyclic_of_perm (h : s'.units.Perm s.units) (hs : s.IsAcyclic) : s'.IsAcyclic := by
  unfold IsAcyclic
  rwa [extends_of_perm h]

/-- Types that extend only types of a lower rank lie on no cycle. -/
theorem isAcyclic_of_rank (rank : String → Nat)
    (h : ∀ x ∈ s.topLevels, ∀ b ∈ s.superName? x.2.1 x.2.2, rank b < rank x.1) : s.IsAcyclic := by
  have hlt {a b : String} (hab : TransGen s.Extends a b) : rank b < rank a := by
    induction hab with
    | single hstep =>
      obtain ⟨u, d, hmem, hname, -⟩ := hstep
      exact h _ hmem _ hname
    | tail _ hstep ih =>
      obtain ⟨u, d, hmem, hname, -⟩ := hstep
      exact (h _ hmem _ hname).trans ih
  exact fun a ha => Nat.lt_irrefl _ (hlt ha)

theorem Memo.mem_topLevels {made : Described} (hm : s.Memo made) {name : String} {c : SourceClass}
    (h : made.lookup name = some c) : name ∈ s.topLevels.map (·.1) := by
  cases hm.describes h with
  | alone hmem => exact List.mem_map_of_mem hmem
  | above hmem => exact List.mem_map_of_mem hmem

/-- The superclass of a description is what is kept for its extends clause. -/
theorem Memo.eq_describe {made : Described} (hm : s.Memo made) (hs : s.IsDistinct)
    (hacyclic : s.IsAcyclic) {name : String} {u : SourceUnit} {d : TypeDecl} {c : SourceClass}
    (hmem : (name, u, d) ∈ s.topLevels) (h : made.lookup name = some c) :
    c = s.describe u d ((s.superName? u d).bind fun a => made.lookup a) := by
  cases hm.describes h with
  | alone hmem' hback =>
    obtain ⟨rfl, rfl⟩ := Prod.mk.inj (hs.eq_of_mem hmem' hmem)
    congr 1
    cases hname : s.superName? _ _ with
    | none => rfl
    | some target =>
      -- a scanned superclass would be above itself
      show none = made.lookup target
      cases hlookup : made.lookup target with
      | none => rfl
      | some p =>
        have htop := hm.mem_topLevels hlookup
        exact absurd (TransGen.head' ⟨_, _, hmem, hname, htop⟩ (hback target hname htop))
          (hacyclic name)
  | above hmem' hname htarget hp =>
    obtain ⟨rfl, rfl⟩ := Prod.mk.inj (hs.eq_of_mem hmem' hmem)
    rw [hname, Option.bind_some, hp]

theorem lookup_described_eq_none_iff {name : String} :
    s.described.lookup name = none ↔ name ∉ s.topLevels.map (·.1) := by
  constructor
  · intro h hname
    obtain ⟨c, -, -, hlookup⟩ := exists_mem_classes hname
    rw [h] at hlookup
    cases hlookup
  · intro h
    cases hlookup : s.described.lookup name with
    | none => rfl
    | some c => exact absurd (s.memo_described.mem_topLevels hlookup) h

/-- A description is kept by another order of units if the class above it is. -/
theorem lookup_described_of_superclass (h : s'.units.Perm s.units) (hs : s.IsDistinct)
    (hacyclic : s.IsAcyclic) {name : String} {c : SourceClass}
    (hsuper : ∀ target p, c.superclass = some p → s.described.lookup target = some p →
      s'.described.lookup target = some p)
    (hc : s.described.lookup name = some c) : s'.described.lookup name = some c := by
  obtain ⟨⟨_, u, d⟩, hmem, rfl⟩ := List.mem_map.1 (s.memo_described.mem_topLevels hc)
  have hmem' := (topLevels_perm h).mem_iff.2 hmem
  obtain ⟨c', -, -, hc'⟩ := exists_mem_classes (List.mem_map_of_mem hmem')
  have heq := s.memo_described.eq_describe hs hacyclic hmem hc
  have heq' := s'.memo_described.eq_describe (isDistinct_of_perm h hs)
    (isAcyclic_of_perm h hacyclic) hmem' hc'
  rw [superName?_of_perm h, describe_of_perm h] at heq'
  have habove : (s.superName? u d).bind (fun a => s'.described.lookup a) = c.superclass := by
    rw [heq, superclass_describe]
    cases hname : s.superName? u d with
    | none => rfl
    | some target =>
      show s'.described.lookup target = s.described.lookup target
      cases hp : s.described.lookup target with
      | none =>
        rw [lookup_described_eq_none_iff] at hp ⊢
        rwa [((topLevels_perm h).map _).mem_iff]
      | some p =>
        refine hsuper target p ?_ hp
        rw [heq, superclass_describe, hname]
        exact hp
  rw [hc', heq', habove, heq]
  rfl

/-- A description that one order of units keeps is kept by every other order. -/
theorem lookup_described_of_lookup (h : s'.units.Perm s.units) (hs : s.IsDistinct)
    (hacyclic : s.IsAcyclic) {name : String} {c : SourceClass}
    (hc : s.described.lookup name = some c) : s'.described.lookup name = some c := by
  induction c using SourceClass.superclass_induction generalizing name with
  | alone c hp =>
    refine lookup_described_of_superclass h hs hacyclic (fun _ p hp' _ => ?_) hc
    simp [hp] at hp'
  | above c p hp ih =>
    refine lookup_described_of_superclass h hs hacyclic (fun target p' hp' hlookup => ?_) hc
    obtain rfl := Option.some.inj (hp.symm.trans hp')
    exact ih hlookup

/-- **Two orders of units keep the same descriptions.** -/
theorem lookup_described_of_perm (h : s'.units.Perm s.units) (hs : s.IsDistinct)
    (hacyclic : s.IsAcyclic) (name : String) :
    s'.described.lookup name = s.described.lookup name := by
  cases hc : s.described.lookup name with
  | some c => exact lookup_described_of_lookup h hs hacyclic hc
  | none =>
    rw [lookup_described_eq_none_iff] at hc ⊢
    rwa [((topLevels_perm h).map _).mem_iff]

/-- **File order does not matter.** Units without an inheritance cycle, whose types all have names
of their own, give every declaration the same description in every order. -/
theorem classes_of_perm (s : Scan) (hs : s.IsDistinct) (hacyclic : s.IsAcyclic) :
    ∃ description : SourceUnit → TypeDecl → SourceClass,
      ∀ s' : Scan, s'.units.Perm s.units →
        s'.classes = s'.units.flatMap fun u => u.types.map (description u) := by
  refine ⟨fun u d => (s.described.lookup (u.qualify d.name)).getD default, fun s' h => ?_⟩
  have hmap : s'.classes.map some = s'.topLevels.map fun x => s.described.lookup x.1 := by
    rw [map_some_classes]
    exact List.map_congr_left fun x _ => lookup_described_of_perm h hs hacyclic x.1
  have hdefault (cs : List SourceClass) : (cs.map some).map (·.getD default) = cs := by
    rw [List.map_map]
    exact List.map_id cs
  rw [← hdefault s'.classes, hmap, topLevels, List.map_flatMap, List.map_flatMap]
  simp only [List.map_map]
  rfl

/-- Units in which every class extends one of a later unit, with an enum at the end. -/
def ladder : Scan where
  units :=
    [{ file := none, package := "shop", imported := [("Base", "core.Base")], onDemand := ["core"]
       types :=
        [{ bareClass "Order" (some "Base") with
           members := [.fields ⟨⟨[], []⟩, .named "State" [] [] 0, [("state", 0)]⟩] }] },
     { file := none, package := "core", imported := [], onDemand := []
       types := [bareClass "Base" (some "Root")] },
     { file := none, package := "core", imported := [], onDemand := []
       types := [bareClass "Root" none, { bareClass "State" none with kind := .enumType }] }]

/-- Units that are scanned bottom up are described as they are top down. -/
theorem classes_of_perm_ladder :
    (Scan.mk ladder.units.reverse).classes =
      ladder.classes.drop 2 ++ (ladder.classes.drop 1).take 1 ++ ladder.classes.take 1 := by
  obtain ⟨description, h⟩ := classes_of_perm ladder (by unfold IsDistinct; decide +kernel)
    (isAcyclic_of_rank (fun name => ["core.Root", "core.Base", "shop.Order"].idxOf name)
      (by decide +kernel))
  rw [h ladder (.refl _), h (Scan.mk ladder.units.reverse) (List.reverse_perm _)]
  rfl

example :
    (Scan.mk ladder.units.reverse).classes.map (fun c => (c.name, c.fields.map (·.typeText),
      c.fields.map (·.isEnum), c.chain.map (·.name))) =
    [("Root", [], [], []), ("State", [], [], []), ("Base", [], [], ["Root"]),
     ("Order", ["core.State"], [true], ["Base", "Root"])] := by
  cbv

end Scan

end EntityScaffold

import Mathlib.Tactic.Common
import EntityScaffold.Artifact.All

/-!
# What artifacts are made from

Of an entity its artifacts show the name, the package, the identifier and the flat views
(`Entity.Agrees`). Of the settings they show what concerns enabled layers, and the names of layers
that those refer to (`Settings.Agrees`). Entities and settings that agree in this have the same
artifacts (`Artifact.all_eq`), so that settings of disabled layers count for nothing
(`Artifact.all_eq_of_disabled`).
-/

namespace EntityScaffold

/-- Two entities agree in all that artifacts show of an entity. -/
structure Entity.Agrees (m n : Entity) : Prop where
  className : m.className = n.className
  package : m.package = n.package
  identifier? : m.identifier? = n.identifier?
  projection : m.projection = n.projection
  queried : m.queried = n.queried

namespace Entity.Agrees

variable {m n : Entity} (h : m.Agrees n)

theorem refl (m : Entity) : m.Agrees m := ⟨rfl, rfl, rfl, rfl, rfl⟩

include h

theorem qualifiedName : m.qualifiedName = n.qualifiedName := by
  rw [Entity.qualifiedName, Entity.qualifiedName, h.className, h.package]

theorem identifierType : m.identifierType = n.identifierType := by
  rw [Entity.identifierType, Entity.identifierType, h.identifier?]

end Entity.Agrees

/-- Enabled artifacts show the names of a layer: their own, or those of the layer they call. -/
def Layer.isShown (k : Layer) (p : Settings) : Bool :=
  k.isEnabled p ||
    match k with
    | repository => p.enabled .service
    | service => p.enabled .controller
    | dto | mapper | controller => false

theorem Layer.isShown_of_isEnabled {k : Layer} {p : Settings} (h : k.isEnabled p = true) :
    k.isShown p = true := by
  simp [isShown, h]

theorem Layer.isEnabled_of_isShown_eq_false {k : Layer} {p : Settings}
    (h : k.isShown p = false) : k.isEnabled p = false :=
  Bool.eq_false_iff.2 fun hk => Bool.eq_false_iff.1 h (isShown_of_isEnabled hk)

theorem Layer.isEnabled_of_ne_mapper {k : Layer} (p : Settings) (h : k ≠ .mapper) :
    k.isEnabled p = p.enabled k := by
  simp [isEnabled, h]

/-- Two settings agree in all that artifacts show of settings. -/
structure Settings.Agrees (p q : Settings) : Prop where
  basePackage : p.basePackage = q.basePackage
  isEnabled : ∀ k : Layer, k.isEnabled p = k.isEnabled q
  suffix : ∀ k : Layer, k.isShown p = true → (p.layer k).suffix = (q.layer k).suffix
  subPackage : ∀ k : Layer, k.isShown p = true → (p.layer k).subPackage = (q.layer k).subPackage
  accessorStyle : p.enabled .dto = true → p.accessorStyle = q.accessorStyle
  queryMethods : p.enabled .repository = true → p.queryMethods = q.queryMethods
  apiPrefix : p.enabled .controller = true → p.apiPrefix = q.apiPrefix

namespace Settings.Agrees

variable {p q : Settings}

theorem refl (p : Settings) : p.Agrees p where
  basePackage := rfl
  isEnabled _ := rfl
  suffix _ _ := rfl
  subPackage _ _ := rfl
  accessorStyle _ := rfl
  queryMethods _ := rfl
  apiPrefix _ := rfl

theorem enabled (h : p.Agrees q) (k : Layer) (hk : k ≠ .mapper) : p.enabled k = q.enabled k := by
  rw [← k.isEnabled_of_ne_mapper p hk, ← k.isEnabled_of_ne_mapper q hk, h.isEnabled]

theorem isShown (h : p.Agrees q) (k : Layer) : k.isShown p = k.isShown q := by
  unfold Layer.isShown
  rw [h.isEnabled k, h.enabled .service (by decide), h.enabled .controller (by decide)]

theorem trans {r : Settings} (h : p.Agrees q) (h' : q.Agrees r) : p.Agrees r where
  basePackage := h.basePackage.trans h'.basePackage
  isEnabled k := (h.isEnabled k).trans (h'.isEnabled k)
  suffix k hk := (h.suffix k hk).trans (h'.suffix k (h.isShown k ▸ hk))
  subPackage k hk := (h.subPackage k hk).trans (h'.subPackage k (h.isShown k ▸ hk))
  accessorStyle hk :=
    (h.accessorStyle hk).trans (h'.accessorStyle (h.enabled .dto (by decide) ▸ hk))
  queryMethods hk :=
    (h.queryMethods hk).trans (h'.queryMethods (h.enabled .repository (by decide) ▸ hk))
  apiPrefix hk :=
    (h.apiPrefix hk).trans (h'.apiPrefix (h.enabled .controller (by decide) ▸ hk))

end Settings.Agrees

namespace Artifact

/-- The layers that a controller refers to are shown. -/
theorem isShown_of_mem_controllerSiblings {k : Layer} {p : Settings}
    (hk : p.enabled .controller = true) (h : k ∈ controllerSiblings p) : k.isShown p = true := by
  unfold controllerSiblings at h
  rcases List.mem_cons.1 h with rfl | h
  · simp [Layer.isShown, hk]
  · rcases List.mem_append.1 h with h | h <;> split_ifs at h with henabled
    · rw [List.mem_singleton.1 h]
      simp [Layer.isShown, Layer.isEnabled, henabled]
    · cases h
    · rw [List.mem_singleton.1 h]
      exact Layer.isShown_of_isEnabled henabled
    · cases h

variable {m n : Entity} {p q : Settings} {k : Layer} (hm : m.Agrees n) (hp : p.Agrees q)

include hm hp

/-! ### Names -/

theorem className_eq (hk : k.isShown p = true) : k.className m p = k.className n q := by
  rw [Layer.className, Layer.className, hm.className, hp.suffix k hk]

theorem package_eq (hk : k.isShown p = true) : k.package m p = k.package n q := by
  rw [Layer.package, Layer.package, Settings.package, Settings.package, hm.package,
    hp.basePackage, hp.subPackage k hk]

theorem identity_eq (hk : k.isShown p = true) : k.identity m p = k.identity n q := by
  rw [Layer.identity, Layer.identity, package_eq hm hp hk, className_eq hm hp hk]

theorem qualifiedName_eq (hk : k.isShown p = true) :
    k.qualifiedName m p = k.qualifiedName n q := by
  rw [Layer.qualifiedName, Layer.qualifiedName, identity_eq hm hp hk]

/-! ### Listings -/

theorem dto_eq (hk : p.enabled .dto = true) : dto m p = dto n q := by
  have hshown : Layer.dto.isShown p = true := by simp [Layer.isShown, Layer.isEnabled, hk]
  rw [dto, dto, package_eq hm hp hshown, className_eq hm hp hshown, hm.projection,
    hp.accessorStyle hk]

theorem mapper_eq (hk : Layer.mapper.isEnabled p = true) : mapper m p = mapper n q := by
  have hboth : p.enabled .mapper = true ∧ p.enabled .dto = true := by
    simpa [Layer.isEnabled] using hk
  have hshown := Layer.isShown_of_isEnabled hk
  have hdto : Layer.dto.isShown p = true := by simp [Layer.isShown, Layer.isEnabled, hboth.2]
  have hreferences : references m = references n := by
    rw [references, references, hm.projection]
  rw [mapper, mapper, package_eq hm hp hshown, className_eq hm hp hshown,
    className_eq hm hp hdto, qualifiedName_eq hm hp hdto, hm.className, hm.qualifiedName,
    hreferences]

theorem repository_eq (hk : p.enabled .repository = true) : repository m p = repository n q := by
  have hshown : Layer.repository.isShown p = true := by simp [Layer.isShown, Layer.isEnabled, hk]
  have hqueries : queryAttributes m p = queryAttributes n q := by
    rw [queryAttributes, queryAttributes, hm.queried, hp.queryMethods hk]
  rw [repository, repository, package_eq hm hp hshown, className_eq hm hp hshown, hm.className,
    hm.qualifiedName, hm.identifierType, hqueries]

theorem service_eq (hk : p.enabled .service = true) : service m p = service n q := by
  have hshown : Layer.service.isShown p = true := by simp [Layer.isShown, Layer.isEnabled, hk]
  have hrepository : Layer.repository.isShown p = true := by simp [Layer.isShown, hk]
  rw [service, service, package_eq hm hp hshown, className_eq hm hp hshown,
    className_eq hm hp hrepository, qualifiedName_eq hm hp hrepository, hm.className,
    hm.qualifiedName, hm.identifierType]

/-- The mapper's name counts only where there is a mapper, also for the braces in it. -/
theorem ofSettings_eq : Conversion.ofSettings m p = Conversion.ofSettings n q := by
  unfold Conversion.ofSettings
  rw [hp.enabled .dto (by decide), hp.isEnabled .mapper]
  split_ifs with hdto hmapper
  · rfl
  · rw [className_eq hm hp (Layer.isShown_of_isEnabled ((hp.isEnabled .mapper).trans hmapper))]
  · rfl

theorem collaborators_eq (hk : p.enabled .controller = true) :
    collaborators m p = collaborators n q := by
  have hservice : Layer.service.isShown p = true := by simp [Layer.isShown, hk]
  unfold collaborators
  dsimp only
  rw [← hp.isEnabled .mapper]
  split_ifs with hmapper
  · have hshown := Layer.isShown_of_isEnabled hmapper
    simp only [List.map_cons, List.map_nil, className_eq hm hp hservice, className_eq hm hp hshown]
  · simp only [List.map_cons, List.map_nil, className_eq hm hp hservice]

theorem map_controllerSiblings_eq (hk : p.enabled .controller = true) :
    (controllerSiblings p).map (fun k => k.qualifiedName m p) =
      (controllerSiblings q).map fun k => k.qualifiedName n q := by
  have hsame : controllerSiblings p = controllerSiblings q := by
    rw [controllerSiblings, controllerSiblings, hp.enabled .dto (by decide),
      hp.isEnabled .mapper]
  rw [← hsame]
  exact List.map_congr_left fun k hmem =>
    qualifiedName_eq hm hp (isShown_of_mem_controllerSiblings hk hmem)

theorem controllerWith_eq (c : Conversion) (hk : p.enabled .controller = true) :
    controllerWith c m p = controllerWith c n q := by
  have hservice : Layer.service.isShown p = true := by simp [Layer.isShown, hk]
  have hshown : Layer.controller.isShown p = true := by simp [Layer.isShown, Layer.isEnabled, hk]
  have hpayload : (if p.enabled .dto then Layer.dto.className m p else m.className) =
      if q.enabled .dto then Layer.dto.className n q else n.className := by
    rw [← hp.enabled .dto (by decide), hm.className]
    split_ifs with hdto
    · exact className_eq hm hp (by simp [Layer.isShown, Layer.isEnabled, hdto])
    · rfl
  have hroute : route m p = route n q := by rw [route, route, hp.apiPrefix hk, hm.className]
  have hsetter : idSetter m = idSetter n := by rw [idSetter, idSetter, hm.identifier?]
  rw [controllerWith, controllerWith, hpayload, hroute, hsetter, package_eq hm hp hshown,
    className_eq hm hp hshown, className_eq hm hp hservice, collaborators_eq hm hp hk,
    map_controllerSiblings_eq hm hp hk, hm.className, hm.qualifiedName, hm.identifierType]

theorem controller_eq (hk : p.enabled .controller = true) : controller m p = controller n q := by
  have hwith : (fun c => controllerWith c m p) = fun c => controllerWith c n q :=
    funext fun c => controllerWith_eq hm hp c hk
  rw [controller, controller, ofSettings_eq hm hp, hwith]

/-! ### Artifacts -/

theorem listing?_eq (hk : k.isEnabled p = true) : k.listing? m p = k.listing? n q := by
  cases k with
  | dto => rw [Layer.listing?, Layer.listing?, dto_eq hm hp (by simpa [Layer.isEnabled] using hk)]
  | mapper =>
    rw [Layer.listing?, Layer.listing?, mapper_eq hm hp hk, hp.enabled .dto (by decide)]
  | repository =>
    rw [Layer.listing?, Layer.listing?, repository_eq hm hp (by simpa [Layer.isEnabled] using hk)]
  | service =>
    rw [Layer.listing?, Layer.listing?, service_eq hm hp (by simpa [Layer.isEnabled] using hk)]
  | controller =>
    rw [Layer.listing?, Layer.listing?, controller_eq hm hp (by simpa [Layer.isEnabled] using hk)]

theorem build?_eq (k : Layer) : k.build? m p = k.build? n q := by
  unfold Layer.build? Layer.text?
  rw [← hp.isEnabled k]
  split_ifs with hk
  · rw [listing?_eq hm hp hk, identity_eq hm hp (Layer.isShown_of_isEnabled hk)]
  · rfl

/-- **Artifacts are the same if all is the same that they are made from.** -/
theorem all_eq : Artifact.all m p = Artifact.all n q := by
  have hbuild : (fun k : Layer => k.build? m p) = fun k => k.build? n q :=
    funext (build?_eq hm hp)
  rw [Artifact.all, Artifact.all, hbuild]

end Artifact

/-! ### Disabled layers -/

namespace Settings

variable {p : Settings} {k : Layer} {a : LayerSettings}

/-- The settings of a layer that is shown neither before nor after do not count. -/
theorem agrees_withLayer (hp : k.isShown p = false) (hq : k.isShown (p.withLayer k a) = false) :
    (p.withLayer k a).Agrees p where
  basePackage := rfl
  isEnabled j := by
    have hk := Layer.isEnabled_of_isShown_eq_false hp
    have hk' := Layer.isEnabled_of_isShown_eq_false hq
    by_cases hj : j = k
    · rw [hj, hk, hk']
    · have hsame : ∀ i, i ≠ k → (p.withLayer k a).enabled i = p.enabled i := fun i hi => by
        rw [enabled, enabled, layer_withLayer, if_neg hi]
      rcases eq_or_ne k .dto with rfl | hdto
      · -- both times there are no transfer objects, and so no mapper
        rw [Layer.isEnabled_of_ne_mapper _ (by decide)] at hk hk'
        rw [Layer.isEnabled, Layer.isEnabled, hsame j hj, hk, hk']
      · rw [Layer.isEnabled, Layer.isEnabled, hsame j hj, hsame .dto hdto.symm]
  suffix j hj := by
    rw [layer_withLayer, if_neg (by rintro rfl; exact Bool.eq_false_iff.1 hq hj)]
  subPackage j hj := by
    rw [layer_withLayer, if_neg (by rintro rfl; exact Bool.eq_false_iff.1 hq hj)]
  accessorStyle _ := rfl
  queryMethods _ := rfl
  apiPrefix _ := rfl

theorem agrees_accessorStyle (hp : p.enabled .dto = false) (style : Bool) :
    ({ p with accessorStyle := style } : Settings).Agrees p :=
  { Agrees.refl p with accessorStyle := fun h => absurd (hp.symm.trans h) (by decide) }

theorem agrees_queryMethods (hp : p.enabled .repository = false) (queries : Bool) :
    ({ p with queryMethods := queries } : Settings).Agrees p :=
  { Agrees.refl p with queryMethods := fun h => absurd (hp.symm.trans h) (by decide) }

theorem agrees_apiPrefix (hp : p.enabled .controller = false) (path : String) :
    ({ p with apiPrefix := path } : Settings).Agrees p :=
  { Agrees.refl p with apiPrefix := fun h => absurd (hp.symm.trans h) (by decide) }

end Settings

/-- **Settings of disabled layers do not count.** Four kinds of settings may change without any
change of the artifacts, or of the fault in their place:
* without transfer objects, those of transfer objects and of mappers, the enabling of mappers and
  the style of accessors included;
* without a mapper, its own;
* without a repository, whether repositories have queries;
* without a controller, its own and the prefix of paths. -/
theorem Artifact.all_eq_of_disabled (m : Entity) (p : Settings) :
    (p.enabled .dto = false → ∀ (a b : LayerSettings) (style : Bool), a.enabled = false →
      Artifact.all m
          { (p.withLayer .dto a).withLayer .mapper b with accessorStyle := style } =
        Artifact.all m p) ∧
    (p.enabled .mapper = false → ∀ a : LayerSettings, a.enabled = false →
      Artifact.all m (p.withLayer .mapper a) = Artifact.all m p) ∧
    (p.enabled .repository = false → ∀ queries : Bool,
      Artifact.all m { p with queryMethods := queries } = Artifact.all m p) ∧
    (p.enabled .controller = false → ∀ (a : LayerSettings) (path : String), a.enabled = false →
      Artifact.all m { p.withLayer .controller a with apiPrefix := path } = Artifact.all m p) := by
  have hm := Entity.Agrees.refl m
  refine ⟨fun hp a b style ha => ?_, fun hp a ha => ?_, fun hp queries => ?_,
    fun hp a path ha => ?_⟩
  · have hdto : (p.withLayer .dto a).enabled .dto = false := ha
    have hboth : ((p.withLayer .dto a).withLayer .mapper b).enabled .dto = false := ha
    refine Artifact.all_eq hm ((Settings.agrees_accessorStyle hboth style).trans
      ((Settings.agrees_withLayer ?_ ?_).trans (Settings.agrees_withLayer ?_ ?_)))
    all_goals simp [Layer.isShown, Layer.isEnabled, hp, hdto, hboth]
  · have hmapper : (p.withLayer .mapper a).enabled .mapper = false := ha
    refine Artifact.all_eq hm (Settings.agrees_withLayer ?_ ?_)
    all_goals simp [Layer.isShown, Layer.isEnabled, hp, hmapper]
  · exact Artifact.all_eq hm (Settings.agrees_queryMethods hp queries)
  · have hcontroller : (p.withLayer .controller a).enabled .controller = false := ha
    refine Artifact.all_eq hm ((Settings.agrees_apiPrefix hcontroller path).trans
      (Settings.agrees_withLayer ?_ ?_))
    all_goals simp [Layer.isShown, Layer.isEnabled, hp, hcontroller]

/-- The standard settings without one layer. -/
def Settings.without (k : Layer) : Settings :=
  Settings.standard.withLayer k { Settings.standard.layer k with enabled := false }

/-- An entity without any fields. -/
def Entity.blank : Entity := ⟨"User", "shop", "user", []⟩

/-- A name for mappers that no controller can call them by. -/
def LayerSettings.uncallable : LayerSettings := ⟨true, "\x7b\x7d", "api"⟩

/-- Without transfer objects or without mappers, such a name does no harm. -/
theorem Artifact.all_of_uncallable :
    Artifact.all Entity.blank (Settings.standard.withLayer .mapper .uncallable) =
        .error .noArgument ∧
      (Settings.without .dto).enabled .dto = false ∧
      Artifact.all Entity.blank
          { ((Settings.without .dto).withLayer .dto ⟨false, "View", "api"⟩).withLayer .mapper
              .uncallable with accessorStyle := false } =
        Artifact.all Entity.blank (Settings.without .dto) ∧
      (Settings.without .mapper).enabled .mapper = false ∧
      Artifact.all Entity.blank ((Settings.without .mapper).withLayer .mapper
          { LayerSettings.uncallable with enabled := false }) =
        Artifact.all Entity.blank (Settings.without .mapper) :=
  ⟨by decide +kernel, rfl,
    (Artifact.all_eq_of_disabled Entity.blank (Settings.without .dto)).1 rfl _ _ _ rfl, rfl,
    (Artifact.all_eq_of_disabled Entity.blank (Settings.without .mapper)).2.1 rfl _ rfl⟩

end EntityScaffold

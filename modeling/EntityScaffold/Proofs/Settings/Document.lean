import EntityScaffold.Proofs.Json.Member
import EntityScaffold.Settings.Document

/-!
# What settings documents say

A document is accepted exactly if it names nothing but known settings and gives each of them a value
of its type (`Settings.IsDocument`). Then every setting is the one that the document gives, or else
the one that was there (`Settings.Overrides`), and the order of members does not matter. What
settings are written as is read back over whatever was there (`Settings.document_overrides`).
-/

namespace EntityScaffold

/-- The value has the type of a setting. -/
def SettingType.Fits : SettingType → Json → Prop
  | flag, v => ∃ b, v = .bool b
  | text, v => ∃ s, v = .string s

namespace Settings

/-! ### Documents -/

/-- The settings that are not about one layer, with their types. -/
def scalarTypes : List (String × SettingType) :=
  [("base_package", .text), ("use_accessor_annotation_style", .flag),
   ("repository_query_methods", .flag), ("api_prefix", .text), ("overwrite_existing", .flag)]

/-- The settings of one layer, with their types. -/
def layerTypes : List (String × SettingType) :=
  [("enabled", .flag), ("class_name_suffix", .text), ("sub_package", .text)]

/-- The member is one of the settings, and has its type. -/
def IsSetting (types : List (String × SettingType)) (m : String × Json) : Prop :=
  ∃ t, (m.1, t) ∈ types ∧ t.Fits m.2

/-- A document for the settings of one layer. -/
inductive IsLayerDocument : Json → Prop
  | object {members : List (String × Json)} :
      (∀ m ∈ members, IsSetting layerTypes m) → IsLayerDocument (.object members)

/-- A document for the settings of layers. -/
inductive IsLayersDocument : Json → Prop
  | object {members : List (String × Json)} :
      (∀ m ∈ members, (∃ k : Layer, m.1 = k.key) ∧ IsLayerDocument m.2) →
      IsLayersDocument (.object members)

/-- A document for settings. -/
inductive IsDocument : Json → Prop
  | object {members : List (String × Json)} :
      (∀ m ∈ members, IsSetting scalarTypes m ∨ m.1 = "artifacts" ∧ IsLayersDocument m.2) →
      IsDocument (.object members)

/-- What a document gives for a setting of a layer. -/
def layerSetting? (d : Json) (k : Layer) (key : String) : Option Json :=
  ((d.get? "artifacts").bind (·.get? k.key)).bind (·.get? key)

/-- Each setting of a layer is the one that is given, or else that of the base. -/
structure LayerOverrides (base : LayerSettings) (given : String → Option Json)
    (a : LayerSettings) : Prop where
  enabled : .bool a.enabled = (given "enabled").getD (.bool base.enabled)
  suffix : .string a.suffix = (given "class_name_suffix").getD (.string base.suffix)
  subPackage : .string a.subPackage = (given "sub_package").getD (.string base.subPackage)

/-- Each of the twenty settings is the one that a document gives, or else that of the base. -/
structure Overrides (base : Settings) (d : Json) (p : Settings) : Prop where
  basePackage : .string p.basePackage = (d.get? "base_package").getD (.string base.basePackage)
  accessorStyle : .bool p.accessorStyle =
    (d.get? "use_accessor_annotation_style").getD (.bool base.accessorStyle)
  queryMethods : .bool p.queryMethods =
    (d.get? "repository_query_methods").getD (.bool base.queryMethods)
  apiPrefix : .string p.apiPrefix = (d.get? "api_prefix").getD (.string base.apiPrefix)
  overwrite : .bool p.overwrite = (d.get? "overwrite_existing").getD (.bool base.overwrite)
  layer (k : Layer) : LayerOverrides (base.layer k) (layerSetting? d k) (p.layer k)

variable {base p q : Settings} {d v : Json} {members : List (String × Json)} {key name : String}

/-! ### Values -/

theorem text_eq_ok_iff {s : String} : text key v = .ok s ↔ .string s = v := by
  cases v <;> simp [text, eq_comm]

theorem flag_eq_ok_iff {b : Bool} : flag key v = .ok b ↔ .bool b = v := by
  cases v <;> simp [flag, eq_comm]

theorem member_text_eq_ok_iff {s otherwise : String} :
    member text d key otherwise = .ok s ↔ .string s = (d.get? key).getD (.string otherwise) := by
  unfold member
  cases d.get? key with
  | none => simp [eq_comm]
  | some v => exact text_eq_ok_iff

theorem member_flag_eq_ok_iff {b otherwise : Bool} :
    member flag d key otherwise = .ok b ↔ .bool b = (d.get? key).getD (.bool otherwise) := by
  unfold member
  cases d.get? key with
  | none => simp [eq_comm]
  | some v => exact flag_eq_ok_iff

/-- A setting has a value exactly if what a document gives for it has its type. -/
theorem exists_string_eq_getD_iff {given : Option Json} {otherwise : String} :
    (∃ s, Json.string s = given.getD (.string otherwise)) ↔
      ∀ v ∈ given, SettingType.text.Fits v := by
  cases given with
  | none => simp
  | some v => simp [SettingType.Fits, eq_comm]

theorem exists_bool_eq_getD_iff {given : Option Json} {otherwise : Bool} :
    (∃ b, Json.bool b = given.getD (.bool otherwise)) ↔
      ∀ v ∈ given, SettingType.flag.Fits v := by
  cases given with
  | none => simp
  | some v => simp [SettingType.Fits, eq_comm]

theorem unknown_eq_nil_iff {known : List String} :
    unknown known members = [] ↔ ∀ m ∈ members, m.1 ∈ known := by
  have hsorted : ∀ xs : List String, Text.sorted xs = [] ↔ xs = [] := fun xs => by
    rw [← List.length_eq_zero_iff, Text.sorted, List.length_mergeSort, List.length_eq_zero_iff]
  simp [unknown, hsorted]

/-! ### One layer -/

theorem layerOverrides_none_iff {a a' : LayerSettings} :
    LayerOverrides a (fun _ => none) a' ↔ a' = a := by
  constructor
  · rintro ⟨henabled, hsuffix, hsubPackage⟩
    cases a
    cases a'
    cases henabled
    cases hsuffix
    cases hsubPackage
    rfl
  · rintro rfl
    exact ⟨rfl, rfl, rfl⟩

/-- What is found in more members is found there, or else in the first one. -/
theorem getD_lookup_cons (hnew : key ∉ members.map (·.1)) (value : Json) (name : String) :
    (((key, v) :: members).lookup name).getD value =
      (members.lookup name).getD (([(key, v)].lookup name).getD value) := by
  by_cases h : name = key
  · rw [h, lookup_eq_none_iff_notMem.2 hnew, lookup_pair_cons, lookup_pair_cons, if_pos rfl,
      if_pos rfl]
    rfl
  · rw [lookup_pair_cons, lookup_pair_cons, if_neg h, if_neg h]
    rfl

/-- Changes of one member and then of others, in which it does not come up. -/
theorem LayerOverrides.cons {a a₁ a' : LayerSettings} (hnew : key ∉ members.map (·.1))
    (h : LayerOverrides a ([(key, v)].lookup ·) a₁)
    (hrest : LayerOverrides a₁ (members.lookup ·) a') :
    LayerOverrides a (((key, v) :: members).lookup ·) a' where
  enabled := by rw [hrest.enabled, h.enabled, getD_lookup_cons hnew]
  suffix := by rw [hrest.suffix, h.suffix, getD_lookup_cons hnew]
  subPackage := by rw [hrest.subPackage, h.subPackage, getD_lookup_cons hnew]

/-- One member changes the setting that it names. -/
theorem readArtifactSetting_eq_ok {a a' : LayerSettings} (hkey : key ∈ artifactKeys)
    (h : readArtifactSetting name a key v = .ok a') :
    IsSetting layerTypes (key, v) ∧ LayerOverrides a ([(key, v)].lookup ·) a' := by
  simp only [artifactKeys, List.mem_cons, List.not_mem_nil, or_false] at hkey
  rcases hkey with rfl | rfl | rfl <;> unfold readArtifactSetting at h <;>
    obtain ⟨x, hx, h⟩ := bind_eq_ok_iff.1 h <;> cases h
  · obtain rfl := flag_eq_ok_iff.1 hx
    exact ⟨⟨.flag, by simp [layerTypes], x, rfl⟩, rfl, rfl, rfl⟩
  · obtain rfl := text_eq_ok_iff.1 hx
    exact ⟨⟨.text, by simp [layerTypes], x, rfl⟩, rfl, rfl, rfl⟩
  · obtain rfl := text_eq_ok_iff.1 hx
    exact ⟨⟨.text, by simp [layerTypes], x, rfl⟩, rfl, rfl, rfl⟩

theorem exists_readArtifactSetting (name : String) (a : LayerSettings)
    (h : IsSetting layerTypes (key, v)) : ∃ a', readArtifactSetting name a key v = .ok a' := by
  obtain ⟨t, hmem, hfits⟩ := h
  simp only [layerTypes, List.mem_cons, Prod.mk.injEq, List.not_mem_nil, or_false] at hmem
  rcases hmem with ⟨rfl, rfl⟩ | ⟨rfl, rfl⟩ | ⟨rfl, rfl⟩ <;> obtain ⟨x, rfl⟩ := hfits <;>
    exact ⟨_, rfl⟩

/-- **Members change the settings that they name**, and none that they do not. -/
theorem readArtifactSettings_eq_ok {a a' : LayerSettings} (hnodup : (members.map (·.1)).Nodup)
    (hknown : ∀ m ∈ members, m.1 ∈ artifactKeys)
    (h : readArtifactSettings name a members = .ok a') :
    (∀ m ∈ members, IsSetting layerTypes m) ∧ LayerOverrides a (members.lookup ·) a' := by
  induction members generalizing a with
  | nil =>
    cases h
    exact ⟨List.forall_mem_nil _, layerOverrides_none_iff.2 rfl⟩
  | cons m members ih =>
    obtain ⟨hnew, hnodup⟩ := List.nodup_cons.1 hnodup
    obtain ⟨hkey, hknown⟩ := List.forall_mem_cons.1 hknown
    rw [readArtifactSettings, List.foldlM_cons] at h
    obtain ⟨a₁, hfirst, hrest⟩ := bind_eq_ok_iff.1 h
    obtain ⟨hsetting, hchange⟩ := readArtifactSetting_eq_ok hkey hfirst
    obtain ⟨hsettings, hchanges⟩ := ih hnodup hknown hrest
    exact ⟨List.forall_mem_cons.2 ⟨hsetting, hsettings⟩, hchange.cons hnew hchanges⟩

theorem exists_readArtifactSettings (name : String) (a : LayerSettings)
    (h : ∀ m ∈ members, IsSetting layerTypes m) :
    ∃ a', readArtifactSettings name a members = .ok a' := by
  induction members generalizing a with
  | nil => exact ⟨a, rfl⟩
  | cons m members ih =>
    obtain ⟨hfirst, hrest⟩ := List.forall_mem_cons.1 h
    obtain ⟨a₁, ha₁⟩ := exists_readArtifactSetting name a hfirst
    obtain ⟨a', ha'⟩ := ih a₁ hrest
    exact ⟨a', bind_eq_ok_iff.2 ⟨a₁, ha₁, ha'⟩⟩

theorem map_fst_layerTypes : layerTypes.map (·.1) = artifactKeys := rfl

theorem mem_artifactKeys_of_isSetting {m : String × Json} (h : IsSetting layerTypes m) :
    m.1 ∈ artifactKeys := by
  obtain ⟨t, hmem, -⟩ := h
  exact map_fst_layerTypes ▸ List.mem_map_of_mem hmem

/-! ### All layers -/

theorem ofKey?_eq_some_iff {k : Layer} : Layer.ofKey? name = some k ↔ name = k.key := by
  constructor
  · intro h
    have hkey := List.find?_some h
    exact (eq_of_beq hkey).symm
  · rintro rfl
    cases k <;> decide

theorem key_injective {k j : Layer} (h : k.key = j.key) : k = j :=
  Option.some.inj ((ofKey?_eq_some_iff.2 rfl).symm.trans (ofKey?_eq_some_iff.2 h))

/-- The document of one layer changes the settings of that layer. -/
theorem readArtifact_eq_ok (hproper : v.IsProper) (h : readArtifact p name v = .ok q) :
    ∃ k members a, name = Layer.key k ∧ v = .object members ∧
      (∀ m ∈ members, IsSetting layerTypes m) ∧
      LayerOverrides (p.layer k) (members.lookup ·) a ∧ q = p.withLayer k a := by
  unfold readArtifact at h
  split at h
  · cases h
  · rename_i k hk
    split at h
    · rename_i members
      split at h
      · rename_i hunknown
        obtain ⟨a, ha, rfl⟩ := map_eq_ok_iff.1 h
        obtain ⟨hsettings, hchanges⟩ :=
          readArtifactSettings_eq_ok hproper.nodup (unknown_eq_nil_iff.1 hunknown) ha
        exact ⟨k, members, a, ofKey?_eq_some_iff.1 hk, rfl, hsettings, hchanges, rfl⟩
      · cases h
    · cases h

theorem exists_readArtifact (p : Settings) (k : Layer) (h : IsLayerDocument v) :
    ∃ q, readArtifact p k.key v = .ok q := by
  obtain ⟨hsettings⟩ := h
  rename_i members
  obtain ⟨a, ha⟩ := exists_readArtifactSettings k.key (p.layer k) hsettings
  have hunknown : unknown artifactKeys members = [] :=
    unknown_eq_nil_iff.2 fun m hm => mem_artifactKeys_of_isSetting (hsettings m hm)
  refine ⟨p.withLayer k a, ?_⟩
  simp only [readArtifact, ofKey?_eq_some_iff.2 rfl, hunknown, ha]
  rfl

/-- The settings of layers with the changes of some members, and the other settings as they were. -/
structure LayersOverride (p : Settings) (members : List (String × Json)) (q : Settings) : Prop where
  scalars : q = { p with layer := q.layer }
  layer (k : Layer) :
    LayerOverrides (p.layer k) (fun key => (members.lookup k.key).bind (·.get? key)) (q.layer k)

/-- Changes of one layer and then of others. -/
theorem LayersOverride.cons {k : Layer} {a : LayerSettings} {settings : List (String × Json)}
    (hnew : k.key ∉ members.map (·.1)) (h : LayerOverrides (p.layer k) (settings.lookup ·) a)
    (hrest : LayersOverride (p.withLayer k a) members q) :
    LayersOverride p ((k.key, .object settings) :: members) q where
  scalars := hrest.scalars
  layer j := by
    have hj := hrest.layer j
    rw [layer_withLayer] at hj
    simp only [lookup_pair_cons]
    by_cases hjk : j = k
    · subst hjk
      rw [if_pos rfl, lookup_eq_none_iff_notMem.2 hnew] at hj
      rw [if_pos rfl, layerOverrides_none_iff.1 hj]
      exact h
    · rw [if_neg hjk] at hj
      rw [if_neg fun hkey => hjk (key_injective hkey)]
      exact hj

/-- **Members change the settings of the layers that they name**, and no others. -/
theorem readLayers_eq_ok (hnodup : (members.map (·.1)).Nodup)
    (hproper : ∀ m ∈ members, m.2.IsProper)
    (h : members.foldlM (fun p m => readArtifact p m.1 m.2) p = .ok q) :
    IsLayersDocument (.object members) ∧ LayersOverride p members q := by
  induction members generalizing p with
  | nil =>
    cases h
    exact ⟨.object (List.forall_mem_nil _), rfl, fun k => layerOverrides_none_iff.2 rfl⟩
  | cons m members ih =>
    obtain ⟨hnew, hnodup⟩ := List.nodup_cons.1 hnodup
    obtain ⟨hfirst, hproper⟩ := List.forall_mem_cons.1 hproper
    obtain ⟨p₁, hp₁, hrest⟩ := bind_eq_ok_iff.1 h
    obtain ⟨k, settings, a, hk, hv, hsettings, hchange, rfl⟩ := readArtifact_eq_ok hfirst hp₁
    obtain ⟨⟨hlayers⟩, hchanges⟩ := ih hnodup hproper hrest
    obtain ⟨name, v⟩ := m
    obtain ⟨rfl, rfl⟩ : name = k.key ∧ v = .object settings := ⟨hk, hv⟩
    exact ⟨.object (List.forall_mem_cons.2 ⟨⟨⟨k, rfl⟩, .object hsettings⟩, hlayers⟩),
      .cons hnew hchange hchanges⟩

theorem exists_readLayers (p : Settings) (h : IsLayersDocument (.object members)) :
    ∃ q, members.foldlM (fun p m => readArtifact p m.1 m.2) p = .ok q := by
  obtain ⟨hlayers⟩ := h
  induction members generalizing p with
  | nil => exact ⟨p, rfl⟩
  | cons m members ih =>
    obtain ⟨⟨⟨k, hk⟩, hdocument⟩, hrest⟩ := List.forall_mem_cons.1 hlayers
    obtain ⟨p₁, hp₁⟩ := exists_readArtifact p k hdocument
    obtain ⟨q, hq⟩ := ih p₁ hrest
    rw [← hk] at hp₁
    exact ⟨q, bind_eq_ok_iff.2 ⟨p₁, hp₁, hq⟩⟩

/-! ### Documents -/

theorem readScalars_eq_ok_iff :
    readScalars base d = .ok p ↔
      .string p.basePackage = (d.get? "base_package").getD (.string base.basePackage) ∧
      .bool p.accessorStyle =
        (d.get? "use_accessor_annotation_style").getD (.bool base.accessorStyle) ∧
      .bool p.queryMethods =
        (d.get? "repository_query_methods").getD (.bool base.queryMethods) ∧
      .string p.apiPrefix = (d.get? "api_prefix").getD (.string base.apiPrefix) ∧
      .bool p.overwrite = (d.get? "overwrite_existing").getD (.bool base.overwrite) ∧
      p.layer = base.layer := by
  simp only [readScalars, bind_eq_ok_iff, member_text_eq_ok_iff, member_flag_eq_ok_iff]
  constructor
  · rintro ⟨_, hbasePackage, _, hstyle, _, hqueries, _, hprefix, _, hoverwrite, ⟨⟩⟩
    exact ⟨hbasePackage, hstyle, hqueries, hprefix, hoverwrite, rfl⟩
  · rintro ⟨hbasePackage, hstyle, hqueries, hprefix, hoverwrite, hlayer⟩
    refine ⟨_, hbasePackage, _, hstyle, _, hqueries, _, hprefix, _, hoverwrite, ?_⟩
    rw [← hlayer]
    rfl

/-- What a document gives for a setting has its type, if the settings are read. -/
theorem isSetting_of_readScalars (h : readScalars base d = .ok p) (hkey : key ∈ scalarKeys)
    (hv : d.get? key = some v) : IsSetting scalarTypes (key, v) := by
  obtain ⟨hbasePackage, hstyle, hqueries, hprefix, hoverwrite, -⟩ := readScalars_eq_ok_iff.1 h
  simp only [scalarKeys, List.mem_cons, List.not_mem_nil, or_false] at hkey
  rcases hkey with rfl | rfl | rfl | rfl | rfl
  · rw [hv] at hbasePackage
    exact ⟨.text, by simp [scalarTypes], _, hbasePackage.symm⟩
  · rw [hv] at hstyle
    exact ⟨.flag, by simp [scalarTypes], _, hstyle.symm⟩
  · rw [hv] at hqueries
    exact ⟨.flag, by simp [scalarTypes], _, hqueries.symm⟩
  · rw [hv] at hprefix
    exact ⟨.text, by simp [scalarTypes], _, hprefix.symm⟩
  · rw [hv] at hoverwrite
    exact ⟨.flag, by simp [scalarTypes], _, hoverwrite.symm⟩

theorem exists_readScalars (base : Settings) (h : ∀ key v t, (key, t) ∈ scalarTypes →
    d.get? key = some v → t.Fits v) : ∃ p, readScalars base d = .ok p := by
  obtain ⟨basePackage, hbasePackage⟩ := exists_string_eq_getD_iff.2
    fun v hv => h "base_package" v .text (by simp [scalarTypes]) hv
  obtain ⟨accessorStyle, hstyle⟩ := exists_bool_eq_getD_iff.2
    fun v hv => h "use_accessor_annotation_style" v .flag (by simp [scalarTypes]) hv
  obtain ⟨queryMethods, hqueries⟩ := exists_bool_eq_getD_iff.2
    fun v hv => h "repository_query_methods" v .flag (by simp [scalarTypes]) hv
  obtain ⟨apiPrefix, hprefix⟩ := exists_string_eq_getD_iff.2
    fun v hv => h "api_prefix" v .text (by simp [scalarTypes]) hv
  obtain ⟨overwrite, hoverwrite⟩ := exists_bool_eq_getD_iff.2
    fun v hv => h "overwrite_existing" v .flag (by simp [scalarTypes]) hv
  exact ⟨{ base with basePackage, accessorStyle, queryMethods, apiPrefix, overwrite },
    readScalars_eq_ok_iff.2 ⟨hbasePackage, hstyle, hqueries, hprefix, hoverwrite, rfl⟩⟩

theorem eq_of_mem_scalarTypes {t t' : SettingType} (h : (key, t) ∈ scalarTypes)
    (h' : (key, t') ∈ scalarTypes) : t = t' := by
  have hnodup : (scalarTypes.map (·.1)).Nodup := by decide
  exact Option.some.inj ((lookup_of_mem hnodup h).symm.trans (lookup_of_mem hnodup h'))

/-- What a document says about layers changes their settings, and no others. -/
theorem readArtifacts_eq_ok (hproper : d.IsProper) (h : readArtifacts p d = .ok q) :
    (∀ v, d.get? "artifacts" = some v → IsLayersDocument v) ∧ q = { p with layer := q.layer } ∧
      ∀ k, LayerOverrides (p.layer k) (layerSetting? d k) (q.layer k) := by
  unfold readArtifacts at h
  unfold layerSetting?
  split at h
  · rename_i hnone
    cases h
    rw [hnone]
    exact ⟨nofun, rfl, fun k => layerOverrides_none_iff.2 rfl⟩
  · rename_i layers hlayers
    have hfound := hproper.get? hlayers
    obtain ⟨hdocument, hscalars, hchanges⟩ :=
      readLayers_eq_ok hfound.nodup (fun m hm => hfound.mem hm) h
    rw [hlayers]
    exact ⟨fun v hv => Option.some.inj hv ▸ hdocument, hscalars, hchanges⟩
  · cases h

/-- **What is accepted.** Accepted are documents, and each setting is that of the document, or else
that of the base. -/
theorem ofDocument_eq_ok (hproper : d.IsProper) (h : ofDocument base d = .ok q) :
    IsDocument d ∧ Overrides base d q := by
  unfold ofDocument at h
  split at h
  · rename_i members
    split at h
    · rename_i hunknown
      obtain ⟨p, hp, hq⟩ := bind_eq_ok_iff.1 h
      obtain ⟨hbasePackage, hstyle, hqueries, hprefix, hoverwrite, hlayer⟩ :=
        readScalars_eq_ok_iff.1 hp
      obtain ⟨hlayers, hscalars, hchanges⟩ := readArtifacts_eq_ok hproper hq
      rw [hlayer] at hchanges
      constructor
      · -- no name comes up twice, so each member is what the readers find under its name
        refine .object fun m hm => ?_
        have hfound : (Json.object members).get? m.1 = some m.2 := lookup_of_mem hproper.nodup hm
        rcases List.mem_cons.1 (unknown_eq_nil_iff.1 hunknown m hm) with hkey | hkey
        · exact .inr ⟨hkey, hlayers _ (hkey ▸ hfound)⟩
        · exact .inl (isSetting_of_readScalars hp hkey hfound)
      · rw [hscalars]
        exact ⟨hbasePackage, hstyle, hqueries, hprefix, hoverwrite, hchanges⟩
    · cases h
  · cases h

theorem exists_ofDocument (base : Settings) (h : IsDocument d) :
    ∃ q, ofDocument base d = .ok q := by
  obtain ⟨hmembers⟩ := h
  rename_i members
  have hunknown : unknown ("artifacts" :: scalarKeys) members = [] := by
    refine unknown_eq_nil_iff.2 fun m hm => List.mem_cons.2 ?_
    rcases hmembers m hm with ⟨t, hmem, -⟩ | ⟨hkey, -⟩
    · exact .inr (List.mem_map_of_mem hmem : m.1 ∈ scalarTypes.map (·.1))
    · exact .inl hkey
  have hartifacts : "artifacts" ∉ scalarTypes.map (·.1) := by decide
  obtain ⟨p, hp⟩ := exists_readScalars (d := .object members) base fun key v t hmem hv => by
    rcases hmembers _ (mem_of_lookup_eq_some hv) with ⟨t', hmem', hfits⟩ | ⟨hkey, -⟩
    · exact eq_of_mem_scalarTypes hmem hmem' ▸ hfits
    · exact absurd (hkey ▸ List.mem_map_of_mem hmem) hartifacts
  have hrest : ∃ q, readArtifacts p (.object members) = .ok q := by
    unfold readArtifacts
    split
    · exact ⟨p, rfl⟩
    · rename_i layers hlayers
      rcases hmembers _ (mem_of_lookup_eq_some hlayers) with ⟨t, hmem, -⟩ | ⟨-, hdocument⟩
      · exact absurd (List.mem_map_of_mem hmem) hartifacts
      · exact exists_readLayers p hdocument
    · rename_i v hv hlayers
      rcases hmembers _ (mem_of_lookup_eq_some hlayers) with ⟨t, hmem, -⟩ | ⟨-, hdocument⟩
      · exact absurd (List.mem_map_of_mem hmem) hartifacts
      · cases hdocument
        exact absurd rfl (hv _)
  obtain ⟨q, hq⟩ := hrest
  refine ⟨q, ?_⟩
  simp only [ofDocument, hunknown]
  exact bind_eq_ok_iff.2 ⟨p, hp, hq⟩

/-! ### The order of members -/

theorem LayerOverrides.unique {base a a' : LayerSettings} {given : String → Option Json}
    (h : LayerOverrides base given a) (h' : LayerOverrides base given a') : a = a' := by
  have henabled := h.enabled.trans h'.enabled.symm
  have hsuffix := h.suffix.trans h'.suffix.symm
  have hsubPackage := h.subPackage.trans h'.subPackage.symm
  cases a
  cases a'
  cases henabled
  cases hsuffix
  cases hsubPackage
  rfl

/-- The settings are told by the base and the document. -/
theorem Overrides.unique (h : Overrides base d p) (h' : Overrides base d q) : p = q := by
  have hbasePackage := h.basePackage.trans h'.basePackage.symm
  have hstyle := h.accessorStyle.trans h'.accessorStyle.symm
  have hqueries := h.queryMethods.trans h'.queryMethods.symm
  have hprefix := h.apiPrefix.trans h'.apiPrefix.symm
  have hoverwrite := h.overwrite.trans h'.overwrite.symm
  have hlayer : p.layer = q.layer := funext fun k => (h.layer k).unique (h'.layer k)
  cases p
  cases q
  cases hbasePackage
  cases hstyle
  cases hqueries
  cases hprefix
  cases hoverwrite
  cases hlayer
  rfl

theorem IsSetting.reordered {types : List (String × SettingType)} {v' : Json}
    (h : Json.Reordered v v') (hv : IsSetting types (key, v)) : IsSetting types (key, v') := by
  obtain ⟨t, hmem, hfits⟩ := hv
  refine ⟨t, hmem, ?_⟩
  cases t with
  | flag =>
    obtain ⟨b, rfl⟩ := hfits
    exact ⟨b, h.eq_of_bool⟩
  | text =>
    obtain ⟨s, rfl⟩ := hfits
    exact ⟨s, h.eq_of_string⟩

theorem IsLayerDocument.reordered {v' : Json} (h : Json.Reordered v v')
    (hv : IsLayerDocument v) : IsLayerDocument v' := by
  obtain ⟨hmembers⟩ := hv
  obtain ⟨members', rfl, hmembers'⟩ := h.exists_members IsSetting.reordered hmembers
  exact .object hmembers'

theorem IsLayersDocument.reordered {v' : Json} (h : Json.Reordered v v')
    (hv : IsLayersDocument v) : IsLayersDocument v' := by
  obtain ⟨hmembers⟩ := hv
  obtain ⟨members', rfl, hmembers'⟩ := h.exists_members
    (P := fun m => (∃ k : Layer, m.1 = k.key) ∧ IsLayerDocument m.2)
    (fun hsame hm => ⟨hm.1, hm.2.reordered hsame⟩) hmembers
  exact .object hmembers'

theorem IsDocument.reordered {d' : Json} (h : Json.Reordered d d') (hd : IsDocument d) :
    IsDocument d' := by
  obtain ⟨hmembers⟩ := hd
  obtain ⟨members', rfl, hmembers'⟩ := h.exists_members
    (P := fun m => IsSetting scalarTypes m ∨ m.1 = "artifacts" ∧ IsLayersDocument m.2)
    (fun hsame hm => hm.imp (.reordered hsame) fun hm => ⟨hm.1, hm.2.reordered hsame⟩) hmembers
  exact .object hmembers'

/-- What is given for a setting is the same in any order. -/
theorem eq_getD_of_rel {given given' : Option Json} {value x : Json}
    (h : Option.Rel Json.Reordered given given')
    (hx : (∃ b, x = .bool b) ∨ ∃ s, x = .string s) (heq : x = given.getD value) :
    x = given'.getD value := by
  cases h with
  | none => exact heq
  | some hsame =>
    obtain rfl : x = _ := heq
    rcases hx with ⟨b, rfl⟩ | ⟨s, rfl⟩
    · exact hsame.eq_of_bool.symm
    · exact hsame.eq_of_string.symm

theorem rel_bind_get? {given given' : Option Json} (h : Option.Rel Json.Reordered given given')
    (hproper : ∀ v ∈ given', v.IsProper) (name : String) :
    Option.Rel Json.Reordered (given.bind (·.get? name)) (given'.bind (·.get? name)) := by
  cases h with
  | none => exact .none
  | some hsame => exact hsame.rel_get? (hproper _ rfl) name

theorem rel_layerSetting? {d' : Json} (h : Json.Reordered d d') (hproper : d'.IsProper)
    (k : Layer) (key : String) :
    Option.Rel Json.Reordered (layerSetting? d k key) (layerSetting? d' k key) := by
  have hlayers : ∀ v ∈ d'.get? "artifacts", v.IsProper := fun v hv => hproper.get? hv
  refine rel_bind_get? (rel_bind_get? (h.rel_get? hproper _) hlayers _) (fun v hv => ?_) _
  obtain ⟨w, hw, hv⟩ := Option.bind_eq_some_iff.1 hv
  exact (hlayers w hw).get? hv

theorem Overrides.reordered {d' : Json} (h : Json.Reordered d d') (hproper : d'.IsProper)
    (hp : Overrides base d p) : Overrides base d' p where
  basePackage := eq_getD_of_rel (h.rel_get? hproper _) (.inr ⟨_, rfl⟩) hp.basePackage
  accessorStyle := eq_getD_of_rel (h.rel_get? hproper _) (.inl ⟨_, rfl⟩) hp.accessorStyle
  queryMethods := eq_getD_of_rel (h.rel_get? hproper _) (.inl ⟨_, rfl⟩) hp.queryMethods
  apiPrefix := eq_getD_of_rel (h.rel_get? hproper _) (.inr ⟨_, rfl⟩) hp.apiPrefix
  overwrite := eq_getD_of_rel (h.rel_get? hproper _) (.inl ⟨_, rfl⟩) hp.overwrite
  layer k :=
    { enabled :=
        eq_getD_of_rel (rel_layerSetting? h hproper k _) (.inl ⟨_, rfl⟩) (hp.layer k).enabled
      suffix := eq_getD_of_rel (rel_layerSetting? h hproper k _) (.inr ⟨_, rfl⟩) (hp.layer k).suffix
      subPackage :=
        eq_getD_of_rel (rel_layerSetting? h hproper k _) (.inr ⟨_, rfl⟩) (hp.layer k).subPackage }

/-! ### Written settings -/

theorem isProper_toDocument (p : Settings) : p.toDocument.IsProper := by
  have hlayer : ∀ a, (artifactDocument a).IsProper := fun a => by
    refine .object (by simp) fun m hm => ?_
    simp only [List.mem_cons, List.not_mem_nil, or_false] at hm
    rcases hm with rfl | rfl | rfl <;> constructor
  refine .object (by simp) fun m hm => ?_
  simp only [List.mem_cons, List.not_mem_nil, or_false] at hm
  rcases hm with rfl | rfl | rfl | rfl | rfl | rfl
  any_goals constructor
  · rw [List.map_map]
    exact (by decide : (Layer.all.map Layer.key).Nodup)
  · intro m hm
    obtain ⟨k, -, rfl⟩ := List.mem_map.1 hm
    exact hlayer _

theorem isDocument_toDocument (p : Settings) : IsDocument p.toDocument := by
  have hlayer : ∀ a, IsLayerDocument (artifactDocument a) := fun a => by
    refine .object fun m hm => ?_
    simp only [List.mem_cons, List.not_mem_nil, or_false] at hm
    rcases hm with rfl | rfl | rfl
    · exact ⟨.flag, by simp [layerTypes], _, rfl⟩
    · exact ⟨.text, by simp [layerTypes], _, rfl⟩
    · exact ⟨.text, by simp [layerTypes], _, rfl⟩
  refine .object fun m hm => ?_
  simp only [List.mem_cons, List.not_mem_nil, or_false] at hm
  rcases hm with rfl | rfl | rfl | rfl | rfl | rfl
  · exact .inl ⟨.text, by simp [scalarTypes], _, rfl⟩
  · exact .inl ⟨.flag, by simp [scalarTypes], _, rfl⟩
  · exact .inl ⟨.flag, by simp [scalarTypes], _, rfl⟩
  · exact .inl ⟨.text, by simp [scalarTypes], _, rfl⟩
  · exact .inl ⟨.flag, by simp [scalarTypes], _, rfl⟩
  · refine .inr ⟨rfl, .object fun m hm => ?_⟩
    obtain ⟨k, -, rfl⟩ := List.mem_map.1 hm
    exact ⟨⟨k, rfl⟩, hlayer _⟩

/-- Written settings give every setting. -/
theorem overrides_toDocument (base p : Settings) : Overrides base p.toDocument p := by
  refine ⟨rfl, rfl, rfl, rfl, rfl, fun k => ?_⟩
  cases k <;> exact ⟨rfl, rfl, rfl⟩

/-- **What a document says.** For every base and every document: it is accepted exactly if it is an
object of known settings with values of their types, and is told to be at fault otherwise. If it is
accepted, each of the twenty settings is the one that it gives, or else that of the base; and a
document with the same members in any order, on all levels, comes to the same settings. What
settings are written as is read back over any base. -/
theorem document_overrides (base : Settings) :
    (∀ d : Json, d.IsProper →
      (¬ IsDocument d ∧ ∃ fault, ofDocument base d = .error fault) ∨
      IsDocument d ∧ ∃ q, ofDocument base d = .ok q ∧ Overrides base d q ∧
        ∀ d' : Json, d'.IsProper → Json.Reordered d d' → ofDocument base d' = .ok q) ∧
    ∀ p : Settings, ofDocument base p.toDocument = .ok p := by
  have haccept {d : Json} {p : Settings} (hproper : d.IsProper) (hd : IsDocument d)
      (hp : Overrides base d p) : ofDocument base d = .ok p := by
    obtain ⟨q, hq⟩ := exists_ofDocument base hd
    rw [hq, (ofDocument_eq_ok hproper hq).2.unique hp]
  refine ⟨fun d hproper => ?_, fun p =>
    haccept (isProper_toDocument p) (isDocument_toDocument p) (overrides_toDocument base p)⟩
  cases h : ofDocument base d with
  | error fault =>
    refine .inl ⟨fun hd => ?_, fault, rfl⟩
    obtain ⟨q, hq⟩ := exists_ofDocument base hd
    cases h.symm.trans hq
  | ok q =>
    obtain ⟨hd, hq⟩ := ofDocument_eq_ok hproper h
    exact .inr ⟨hd, q, rfl, hq, fun d' hproper' hsame =>
      haccept hproper' (hd.reordered hsame) (hq.reordered hsame hproper')⟩

/-- A document with a base package and another suffix for transfer objects, in two orders. -/
def viewDocument (packageFirst : Bool) : Json :=
  let package := ("base_package", Json.string "shop")
  let artifacts :=
    ("artifacts", Json.object [("dto", .object [("class_name_suffix", .string "View")])])
  .object (if packageFirst then [package, artifacts] else [artifacts, package])

/-- Settings that the document does not name stay, in whichever order it names the others. -/
theorem document_overrides_view :
    (viewDocument true).IsProper ∧ (viewDocument false).IsProper ∧
      Json.Reordered (viewDocument true) (viewDocument false) ∧
      ∃ q, ofDocument .standard (viewDocument true) = .ok q ∧
        ofDocument .standard (viewDocument false) = .ok q ∧ q.basePackage = "shop" ∧
        q.layer .dto = ⟨true, "View", "dto"⟩ ∧ q.layer .mapper = ⟨true, "Mapper", "mapper"⟩ := by
  have hartifacts :
      (Json.object [("dto", .object [("class_name_suffix", .string "View")])]).IsProper :=
    .object (by simp) (List.forall_mem_singleton.2
      (.object (by simp) (List.forall_mem_singleton.2 (.string _))))
  have hproper (packageFirst : Bool) : (viewDocument packageFirst).IsProper := by
    cases packageFirst <;> refine .object (by simp) fun m hm => ?_ <;>
      simp only [Bool.false_eq_true, if_true, if_false, List.mem_cons, List.not_mem_nil,
        or_false] at hm <;> rcases hm with rfl | rfl
    exacts [hartifacts, .string _, .string _, hartifacts]
  have hsame : Json.Reordered (viewDocument true) (viewDocument false) :=
    .object (·.2) (fun m _ => .refl m.2) (.swap _ _ [])
  have hdocument : IsDocument (viewDocument true) := by
    refine .object fun m hm => ?_
    simp only [if_true, List.mem_cons, List.not_mem_nil, or_false] at hm
    rcases hm with rfl | rfl
    · exact .inl ⟨.text, by simp [scalarTypes], "shop", rfl⟩
    · exact .inr ⟨rfl, .object (List.forall_mem_singleton.2 ⟨⟨.dto, rfl⟩,
        .object (List.forall_mem_singleton.2 ⟨.text, by simp [layerTypes], "View", rfl⟩)⟩)⟩
  obtain ⟨hall, -⟩ := document_overrides .standard
  obtain ⟨hnone, -⟩ | ⟨-, q, hq, hoverrides, horder⟩ := hall (viewDocument true) (hproper true)
  · exact absurd hdocument hnone
  · exact ⟨hproper true, hproper false, hsame, q, hq, horder _ (hproper false) hsame,
      Json.string.inj hoverrides.basePackage,
      (hoverrides.layer .dto).unique ⟨rfl, rfl, rfl⟩,
      (hoverrides.layer .mapper).unique ⟨rfl, rfl, rfl⟩⟩

end Settings

end EntityScaffold

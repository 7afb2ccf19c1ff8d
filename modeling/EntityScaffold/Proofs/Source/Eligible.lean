import EntityScaffold.Proofs.Entity.Check
import EntityScaffold.Proofs.Java.Declaration
import EntityScaffold.Proofs.Source.Link

/-!
# What a scan may send into a run

The check of a class does not look at its kind, but an entity must be a class. What closes the gap
is how declarations are read: only a class has fields, and only a class names a superclass
(`SourceUnit.isProper_of_read`), so any other type ends up without a marked identifier and is
stopped as invalid (`SourceClass.isEntity_of_isValid`). No class of a scan is refused later on
(`Scan.run_cases_of_mem_classes`).
-/

namespace EntityScaffold

/-! ### Superclasses that are read -/

namespace Java

open Java.Parser Java.Token

/-- Only a class names a superclass. What an interface extends are interfaces. -/
def TypeDecl.IsProper (d : TypeDecl) : Prop := d.kind ≠ .classType → d.superclass = none

namespace Grammar

-- A phrase has many parts, and so has the instance that is looked for.
set_option synthInstance.maxSize 4096

variable {g : Grammar} [hg : g.IsLexical] (found : Modifiers)

instance reads_superclass? : Reads (superclass? g) := yields_superclass?.reads

theorem isProper_classDecl : Yields TypeDecl.IsProper (classDecl g found) := by
  refine yields_then fun _ => yields_then fun _ => yields_then fun _ => yields_then fun _ => ?_
  exact yields_then fun _ => yields_then fun _ => yields_pure fun h => absurd rfl h

theorem isProper_enumDecl : Yields TypeDecl.IsProper (enumDecl g found) := by
  refine yields_then fun _ => yields_then fun _ => yields_then fun _ => yields_then fun _ => ?_
  exact yields_pure fun _ => rfl

theorem isProper_interfaceDecl : Yields TypeDecl.IsProper (interfaceDecl g found) := by
  have := hg.interfaceMember.reads
  refine yields_then fun _ => yields_then fun _ => yields_then fun _ => yields_then fun _ => ?_
  exact yields_then fun _ => yields_then fun _ => yields_then fun _ => yields_pure fun _ => rfl

theorem isProper_annotationDecl : Yields TypeDecl.IsProper (annotationDecl g found) := by
  have := hg.annotationMember.reads
  refine yields_then fun _ => yields_then fun _ => yields_then fun _ => yields_then fun _ => ?_
  exact yields_then fun _ => yields_pure fun _ => rfl

/-- **Of declared types, only a class names a superclass.** -/
theorem isProper_typeDecl? :
    Yields (fun d => ∀ d' ∈ d, TypeDecl.IsProper d') (typeDecl? g found) := by
  have hsome {p : Parser TypeDecl} (hp : Yields TypeDecl.IsProper p) :
      Yields (fun d => ∀ d' ∈ d, TypeDecl.IsProper d') (do return some (← p)) :=
    hp.bind fun d hd => yields_pure fun d' hd' => Option.mem_some.1 hd' ▸ hd
  refine yields_then fun ts => ?_
  split
  · exact hsome (isProper_classDecl found)
  · exact hsome (isProper_enumDecl found)
  · exact hsome (isProper_interfaceDecl found)
  · refine yields_then fun _ => yields_ite (hsome (isProper_annotationDecl found)) ?_
    exact yields_pure fun _ h => nomatch h

theorem isProper_typeDecl : Yields TypeDecl.IsProper (typeDecl g) := by
  refine yields_then fun found => (isProper_typeDecl? found).bind fun d hd => ?_
  split
  · exact yields_pure (hd _ rfl)
  · exact yields_unexpected

theorem isProper_topLevels : Yields (fun ds => ∀ d ∈ ds, TypeDecl.IsProper d) (topLevels g) := by
  have htop : Yields (fun d => ∀ d' ∈ d, TypeDecl.IsProper d') (topLevel g) := by
    refine yields_then fun _ => yields_ite (yields_pure (by simp)) ?_
    exact isProper_typeDecl.bind fun d hd => yields_pure fun d' hd' => Option.mem_some.1 hd' ▸ hd
  refine htop.many.bind fun found hfound => yields_pure fun d hd => ?_
  obtain ⟨d', hd', hsome⟩ := List.mem_filterMap.1 hd
  exact hfound d' hd' d hsome

end Grammar

theorem CompilationUnit.isProper_of_read {text : String} {tree : CompilationUnit}
    (h : read text = .ok tree) : ∀ d ∈ tree.types, d.IsProper := by
  unfold read at h
  split at h
  · cases h
  · rename_i ts hts
    simp only [ofTokens] at h
    split at h
    · cases h
    · cases h
    · cases h
    · rename_i package imports rest hheader
      split at h
      · cases h
      · cases h
      · rename_i types rest' htypes
        cases h
        obtain ⟨-, hrest⟩ := Grammar.yields_header (Lexer.allLexical_tokens hts) hheader
        exact (Grammar.isProper_topLevels hrest htypes).1

end Java

/-- **In the unit of a text, only a class names a superclass.** -/
theorem SourceUnit.isProper_of_read {file : Option String} {text : String} {u : SourceUnit}
    (h : read file text = .ok u) : ∀ d ∈ u.types, d.IsProper := by
  unfold read at h
  cases htree : Java.CompilationUnit.read text with
  | error fault =>
    rw [htree] at h
    cases h
  | ok tree =>
    rw [htree] at h
    cases h
    exact Java.CompilationUnit.isProper_of_read htree

/-! ### Classes without state -/

/-- Only a class has fields or a superclass. -/
structure SourceClass.IsProper (c : SourceClass) : Prop where
  fields : c.kind ≠ .classType → c.fields = []
  superclass : c.kind ≠ .classType → c.superclass = none

namespace SourceClass

variable {c : SourceClass}

/-- Where only classes have state, whatever else is declared has no field to hold an identifier. -/
theorem IsProper.stateFields_eq_nil (hc : c.IsProper) (hkind : c.kind ≠ .classType) :
    c.stateFields = [] := by
  have hchain : c.chain = [] := by
    obtain ⟨name, package, kind, modifiers, annotations, fields, interfaces, arities, superclass,
      file⟩ := c
    obtain rfl : superclass = none := hc.superclass hkind
    rfl
  simp [stateFields, allFields, hierarchy, ancestors, hchain, untilRepeated, hc.fields hkind]

/-- **The check lets pass only what can be an entity**, although it does not look at the kind. -/
theorem isEntity_of_isValid (hc : c.IsProper) (h : c.check.isValid = true) :
    c.isEntity = true := by
  have hdefects : ∀ d, d ∉ c.check.defects := fun d hd => by
    rw [Findings.isValid, List.isEmpty_iff] at h
    rw [h] at hd
    cases hd
  simp only [check, List.mem_append, mem_defectIf, not_or, not_and, Bool.not_eq_true'] at hdefects
  have hmarked : Marker.entity.isIn c.annotations = true := by
    by_contra hn
    exact (hdefects (.notMarked c.name)).1.1.1.1 (by simpa using hn) rfl
  have hconcrete : c.isAbstract = false := by
    by_contra hn
    exact (hdefects (.abstractClass c.name)).1.1.1.2 (by simpa using hn) rfl
  have hkind : c.kind = .classType := by
    by_contra hn
    refine (hdefects (.noMarkedId c.name)).1.2 ?_ rfl
    rw [hc.stateFields_eq_nil hn]
    rfl
  simp [isEntity, hmarked, hconcrete, hkind]

end SourceClass

namespace Scan

variable {s : Scan}

/-- All units of the scan are read from texts. -/
def IsRead (s : Scan) : Prop := ∀ u ∈ s.units, ∃ file text, SourceUnit.read file text = .ok u

/-- The class of a declaration has a superclass only if the declaration names one. -/
theorem isProper_of_mem_classes (hs : s.IsRead) {c : SourceClass} (hc : c ∈ s.classes) :
    c.IsProper := by
  have hproper {name : String} {u : SourceUnit} {d : Java.TypeDecl}
      (h : (name, u, d) ∈ s.topLevels) : d.IsProper := by
    obtain ⟨hu, hd, -⟩ := mem_topLevels.1 h
    obtain ⟨file, text, hread⟩ := hs u hu
    exact SourceUnit.isProper_of_read hread d hd
  have hfields (u : SourceUnit) (d : Java.TypeDecl) (p : Option SourceClass)
      (hkind : d.kind ≠ .classType) : (s.describe u d p).fields = [] := by
    simp [describe, hkind]
  cases s.memo_described.describes (lookup_of_mem_classes hc) with
  | alone hmem => exact ⟨hfields _ _ _, fun _ => rfl⟩
  | above hmem hname =>
    refine ⟨hfields _ _ _, fun hkind => ?_⟩
    rw [superName?, hproper hmem hkind] at hname
    cases hname

end Scan

/-! ### Runs of classes that are read -/

namespace Partner

variable {σ τ : Type} [Store τ] (w : Partner σ)

/-- A plan that is carried out does not look at the class any more. -/
theorem emit_ne_notAnEntity (plan : List (Artifact × Decision)) (report : RunReport) (k : τ) (s : σ)
    (name : String) : (w.emit plan report k s).1 ≠ .error (.notAnEntity name) := by
  induction plan generalizing report k s with
  | nil => nofun
  | cons step plan ih =>
    obtain ⟨a, d⟩ := step
    rw [emit]
    rcases a.filed d with fault | _ | ⟨id, text⟩
    · nofun
    · exact ih _ _ _
    · dsimp only
      rcases Store.write k id (markedText text) with ⟨_ | _, k'⟩
      · nofun
      · exact ih _ _ _

theorem produce_ne_notAnEntity (m : Entity) (p : Settings) (concerns : List Concern)
    (missing : List Feature) (k : τ) (s : σ) (name : String) :
    (w.produce m p concerns missing k s).1 ≠ .error (.notAnEntity name) := by
  rw [produce]
  rcases Artifact.all m p with fault | artifacts
  · nofun
  · dsimp only
    rcases w.plan p (Store.existing k) artifacts s with ⟨fault | _ | plan, s'⟩
    · nofun
    · nofun
    · exact w.emit_ne_notAnEntity plan _ k s' name

/-- Checks that only look at entities refuse none. -/
theorem not_refused_of_isProper {table : TypeTable} {c : SourceClass} (hc : c.IsProper)
    {p : Settings} {s : σ} {fault : RunFault} :
    (w.admission table c p s).1 ≠ .refused fault := by
  intro h
  -- a class that passes its check is an entity
  obtain ⟨-, hvalid, hm⟩ := w.of_refused h
  rw [Entity.ofClass?, if_pos (SourceClass.isEntity_of_isValid hc hvalid)] at hm
  cases hm

end Partner

/-- **No class of a scan is refused as no entity.** The units of the scan are read from texts; the
class is any of its classes, of whatever kind, modifiers and annotations, and so are the store, the
settings and everybody who takes part. A run either ends at one of its checks, with a report and
the store as it was, or goes on to produce the artifacts of a class that can be an entity; and it
does not end for the lack of one later on. -/
theorem Scan.run_cases_of_mem_classes {s : Scan} (hs : s.IsRead) {c : SourceClass}
    (hc : c ∈ s.classes) {σ τ : Type} [Store τ] (w : Partner σ) (table : TypeTable) (p : Settings)
    (k : τ) (x : σ) :
    (∀ name, (w.run table c p k x).1 ≠ .error (.notAnEntity name)) ∧
      ((∃ report x', report.IsStop ∧ w.run table c p k x = (.ok report, k, x')) ∨
        c.isEntity = true ∧ ∃ m concerns missing x', Entity.ofClass? table c = some m ∧
          w.run table c p k x = w.produce m p concerns missing k x') := by
  have hproper := isProper_of_mem_classes hs hc
  rw [w.run_eq]
  rcases ha : w.admission table c p x with ⟨report | fault | ⟨m, concerns, missing⟩, x'⟩
  · exact ⟨fun name => nofun,
      Or.inl ⟨report, x', w.isStop_of_stopped (congrArg Prod.fst ha), rfl⟩⟩
  · exact absurd (congrArg Prod.fst ha) (w.not_refused_of_isProper hproper)
  · have hm := w.ofClass?_of_admitted (congrArg Prod.fst ha)
    have hentity : c.isEntity = true := by
      by_contra hn
      rw [Entity.ofClass?, if_neg hn] at hm
      cases hm
    exact ⟨w.produce_ne_notAnEntity m p concerns missing k x',
      Or.inr ⟨hentity, m, concerns, missing, x', hm, rfl⟩⟩

/-- The scan of one text, which is empty if the text is no unit. -/
def Scan.ofText (text : String) : Scan where
  units := (SourceUnit.read none text).toOption.toList

theorem Scan.isRead_ofText (text : String) : (ofText text).IsRead := by
  intro u hu
  refine ⟨none, text, ?_⟩
  rw [ofText, Option.mem_toList] at hu
  cases hread : SourceUnit.read none text with
  | error fault =>
    rw [hread] at hu
    cases hu
  | ok u' =>
    rw [hread] at hu
    cases hu
    rfl

/-- An interface that is marked as an entity. -/
def Scan.markedInterface : Scan :=
  .ofText "package shop; @jakarta.persistence.Entity public interface User extends Base \x7b \x7d"

/-- The run for a marked interface is stopped, whoever takes part. -/
theorem Scan.run_cases_markedInterface :
    ∃ c ∈ markedInterface.classes, c.kind = .interfaceType ∧
      Marker.entity.isIn c.annotations = true ∧ ∀ w : Partner Unit,
        ∃ report, report.IsStop ∧
          w.run .standard c .standard ({} : MemoryStore) () = (.ok report, {}, ()) := by
  have hname : "shop.User" ∈ markedInterface.topLevels.map (·.1) := by decide +kernel
  obtain ⟨c, hc, -, -⟩ := exists_mem_classes hname
  obtain ⟨u, d, p, hmem, rfl⟩ : ∃ u d p, (c.qualifiedName, u, d) ∈ markedInterface.topLevels ∧
      c = markedInterface.describe u d p := by
    cases markedInterface.memo_described.describes (lookup_of_mem_classes hc) with
    | alone hmem => exact ⟨_, _, _, hmem, rfl⟩
    | above hmem => exact ⟨_, _, _, hmem, rfl⟩
  have hkind : ∀ x ∈ markedInterface.topLevels, x.2.2.kind = .interfaceType := by decide +kernel
  have hmarked : ∀ x ∈ markedInterface.topLevels,
      Marker.entity.isIn (markedInterface.describe x.2.1 x.2.2 none).annotations = true := by
    decide +kernel
  refine ⟨_, hc, hkind _ hmem, hmarked _ hmem, fun w => ?_⟩
  rcases (run_cases_of_mem_classes (isRead_ofText _) hc w .standard .standard
    ({} : MemoryStore) ()).2 with ⟨report, ⟨⟩, hstop, hrun⟩ | ⟨hentity, -⟩
  · exact ⟨report, hstop, hrun⟩
  · rw [SourceClass.isEntity, show (markedInterface.describe u d p).kind = .interfaceType from
      hkind _ hmem] at hentity
    cases hentity

end EntityScaffold

import EntityScaffold.Artifact.Listing
import EntityScaffold.Proofs.Types.Resolver

/-!
# Types inside types

A type with its arguments, their arguments and so on are its nodes. A type imports the nodes that
have to be imported (`mem_imports`). Under the standard table every node of a resolved text has a
simple name without dots, and no primitive has a namespace (`standard_isCanonical`), so the import
of a node is told by its namespace alone (`IsCanonical.needsImport_iff`).
-/

namespace EntityScaffold

open Text

namespace ResolvedType

/-! ### Nodes -/

mutual

/-- The type and all types inside it. -/
def nodes : ResolvedType → List ResolvedType
  | mk kind name ns args rank => mk kind name ns args rank :: nodesAll args

/-- The types and all types inside them. -/
def nodesAll : List ResolvedType → List ResolvedType
  | [] => []
  | t :: ts => t.nodes ++ nodesAll ts

end

theorem mem_nodesAll {n : ResolvedType} {ts : List ResolvedType} :
    n ∈ nodesAll ts ↔ ∃ t ∈ ts, n ∈ t.nodes := by
  induction ts with
  | nil => simp [nodesAll]
  | cons t ts ih => simp [nodesAll, ih]

@[simp]
theorem nodes_plain (kind : Kind) (name ns : String) :
    (plain kind name ns).nodes = [plain kind name ns] := by
  simp [plain, nodes, nodesAll]

mutual

/-- A type imports the nodes that have to be imported. -/
theorem imports_eq : ∀ t : ResolvedType,
    t.imports = (t.nodes.filter (·.needsImport)).map (·.qualifiedName)
  | mk kind name ns args rank => by
    rw [imports, nodes, importsAll_eq args, List.filter_cons]
    split
    · rfl
    · rfl

theorem importsAll_eq : ∀ ts : List ResolvedType,
    importsAll ts = ((nodesAll ts).filter (·.needsImport)).map (·.qualifiedName)
  | [] => rfl
  | t :: ts => by
    rw [importsAll, nodesAll, imports_eq t, importsAll_eq ts, List.filter_append, List.map_append]

end

theorem mem_imports {t : ResolvedType} {q : String} :
    q ∈ t.imports ↔ ∃ n ∈ t.nodes, n.needsImport = true ∧ n.qualifiedName = q := by
  rw [imports_eq]
  simp [and_assoc]

/-- A class that stands for a primitive. -/
theorem boxed_cases (t : ResolvedType) :
    t.boxed = t ∨ ∃ w ∈ wrappers.map (·.2), t.boxed = plain .boxed w languageNamespace := by
  unfold boxed boxed?
  split
  · cases h : wrappers.lookup t.name with
    | none => exact Or.inl rfl
    | some w =>
      obtain ⟨before, after, hw, -⟩ := List.lookup_eq_some_iff.1 h
      exact Or.inr ⟨w, List.mem_map.2 ⟨(t.name, w), by simp [hw], rfl⟩, rfl⟩
  · exact Or.inl rfl

/-! ### Canonical names -/

/-- The simple name of a node has no dots, and a primitive has no namespace. -/
structure IsCanonical (t : ResolvedType) : Prop where
  name : '.' ∉ t.name.toList
  ns : t.kind = .primitive → t.ns = ""

instance (t : ResolvedType) : Decidable t.IsCanonical :=
  decidable_of_iff ('.' ∉ t.name.toList ∧ (t.kind = .primitive → t.ns = ""))
    ⟨fun h => ⟨h.1, h.2⟩, fun h => ⟨h.name, h.ns⟩⟩

/-- A node is imported unless its namespace is empty or the language's own. -/
theorem IsCanonical.needsImport_iff {t : ResolvedType} (h : t.IsCanonical) :
    t.needsImport = true ↔ t.ns ≠ "" ∧ t.ns ≠ languageNamespace := by
  unfold needsImport
  simp only [Bool.and_eq_true, bne_iff_ne]
  exact ⟨fun ⟨hns, _⟩ => hns, fun hns => ⟨hns, fun hkind => hns.1 (h.ns hkind)⟩⟩

/-- The package of a node in a namespace is the namespace. -/
theorem IsCanonical.packageOf? {t : ResolvedType} (h : t.IsCanonical) (hns : t.ns ≠ "") :
    Listing.packageOf? t.qualifiedName = some t.ns := by
  have hchars : t.qualifiedName.toList = t.ns.toList ++ '.' :: t.name.toList := by
    simp [qualifiedName, qualify, hns]
  rw [Listing.packageOf?, hchars, cutLast_append_cons h.name]
  simp

end ResolvedType

namespace TypeTable

open ResolvedType

theorem standard_isCanonical_resolveHead (head : List Char) :
    (standard.resolveHead head).IsCanonical := by
  have hentries : ∀ entry ∈ standard.entries, entry.2.IsCanonical := by decide
  have hcollections : ∀ name ∈ collectionNames, '.' ∉ name.toList := by decide
  unfold resolveHead
  split
  · next t ht =>
    obtain ⟨before, after, heq, -⟩ := List.lookup_eq_some_iff.1 ht
    exact hentries (String.ofList head, t) (by simp [heq])
  · split
    · next name hname =>
      refine ⟨?_, fun hkind => nomatch hkind⟩
      unfold collectionHead? at hname
      dsimp only at hname
      split_ifs at hname with h₁ h₂
      · exact hcollections _ (Option.some.inj hname ▸ h₁)
      · exact hcollections _ (Option.some.inj hname ▸ h₂)
    · split
      · next ns name hcut =>
        refine ⟨?_, fun hkind => nomatch hkind⟩
        simpa [plain] using (eq_of_cutLast hcut).2
      · next hcut =>
        refine ⟨?_, fun hkind => nomatch hkind⟩
        simpa [plain] using cutLast_eq_none_iff.1 hcut

/-- **All nodes of a resolved text are canonical.** -/
theorem standard_isCanonical (s : List Char) :
    ∀ n ∈ (standard.resolveChars s).nodes, n.IsCanonical := by
  induction s using resolveChars.induct with
  | case1 s rest hrest bound hbound ih =>
    rw [resolveChars_of_wildcard hrest, hbound]
    exact ih
  | case2 s rest hrest hbound =>
    rw [resolveChars_of_wildcard hrest, hbound]
    dsimp only [object]
    rw [nodes_plain]
    simp only [List.mem_singleton, forall_eq]
    decide
  | case3 s hwritten written ih =>
    have hhead := standard_isCanonical_resolveHead written.head
    rw [resolveChars_of_written hwritten]
    dsimp only
    rw [assemble_of_plain (standard_isPlain.resolveHead _), nodes]
    intro n hn
    rcases List.mem_cons.1 hn with rfl | hn
    · exact ⟨hhead.name, hhead.ns⟩
    · obtain ⟨t, ht, hnode⟩ := mem_nodesAll.1 hn
      obtain ⟨a, ha, rfl⟩ := List.mem_map.1 ht
      exact ih ⟨a, ha⟩ n hnode

end TypeTable

end EntityScaffold

import EntityScaffold.Proofs.Store.Memory
import EntityScaffold.Proofs.Store.Write

/-!
# The two stores

A store in a directory mirrors a store in memory if the files below its source root are those in
memory, each under the names of its identity. Then both tell the same identities
(`Mirrors.mem_existing_iff_mem`), and a write that succeeds in the directory succeeds in memory and
leaves a mirror (`Mirrors.write`).
-/

namespace EntityScaffold

open Text

/-- The directory holds what the memory holds, and both can be written. All identities are plain: a
file in an excluded directory would be kept but not told. -/
structure Mirrors (k : DirectoryStore) (m : MemoryStore) : Prop where
  dryRun : k.dryRun = false
  failing : m.failing = []
  rooted : k.IsRooted
  distinct : k.tree.root.IsDistinct
  plain : ∀ id ∈ Store.existing m, id.IsPlain
  files : ∀ names content, k.tree.fileBelow? k.root names = some content ↔
    ∃ id text, m.text? id = some text ∧ id.fileNames = names ∧ encode text = content

namespace Mirrors

variable {k k' : DirectoryStore} {m : MemoryStore} {id : Identity}

/-- **Both stores tell the same identities.** -/
theorem mem_existing_iff_mem (h : Mirrors k m) : id ∈ Store.existing k ↔ id ∈ Store.existing m := by
  rw [DirectoryStore.mem_existing_iff_exists_file h.distinct]
  constructor
  · rintro ⟨names, -, ⟨content, hfile⟩, rfl⟩
    obtain ⟨id, text, htext, rfl, -⟩ := (h.files names content).1 hfile
    have hmem := MemoryStore.mem_existing_of_text? htext
    rwa [(h.plain id hmem).identityOf_fileNames]
  · intro hmem
    have hplain := h.plain id hmem
    obtain ⟨text, htext⟩ := Option.isSome_iff_exists.1 (MemoryStore.isSome_text?_iff.2 hmem)
    exact ⟨id.fileNames, DirectoryStore.isSeen_fileNames hplain,
      ⟨_, (h.files _ _).2 ⟨id, text, htext, rfl, rfl⟩⟩, hplain.identityOf_fileNames k.root⟩

/-- **A write keeps the mirror**, if the directory keeps the text as it is. -/
theorem write (h : Mirrors k m) (hid : id.IsPlain) {text : String}
    (htext : DirectoryStore.content text = text)
    (hw : Store.write k id text = (.ok (), k')) :
    ∃ m', Store.write m id text = (.ok (), m') ∧ Mirrors k' m' := by
  have hgrows := DirectoryStore.grows_of_write k id text
  rw [hw] at hgrows
  have hfails : m.fails id = false := by simp [MemoryStore.fails, h.failing]
  have htext? (other : Identity) := MemoryStore.lookup_putFile m.files id other text
  refine ⟨_, MemoryStore.write_of_not_fails hfails text, hgrows.dryRun.trans h.dryRun, h.failing,
    h.rooted.grows hgrows, hgrows.tree.distinct h.distinct, fun other hother => ?_,
    fun names content => ?_⟩
  · rw [← MemoryStore.isSome_text?_iff, MemoryStore.text?, htext?] at hother
    split at hother
    · rename_i heq
      exact heq ▸ hid
    · exact h.plain other (MemoryStore.isSome_text?_iff.1 hother)
  · rw [DirectoryStore.files_of_write h.dryRun h.rooted hid.toIsNamed hw, htext]
    -- by place: the file that was written, or one that was there before
    constructor
    · intro hfile
      split at hfile
      · rename_i heq
        refine ⟨id, text, ?_, heq.symm, Option.some.inj hfile⟩
        rw [MemoryStore.text?, htext?, if_pos rfl]
      · rename_i hne
        obtain ⟨other, old, hold, rfl, rfl⟩ := (h.files names content).1 hfile
        have hother : other ≠ id := by
          rintro rfl
          exact hne rfl
        refine ⟨other, old, ?_, rfl, rfl⟩
        rw [MemoryStore.text?, htext?, if_neg hother]
        exact hold
    · rintro ⟨other, new, hnew, rfl, rfl⟩
      rw [MemoryStore.text?, htext?] at hnew
      split at hnew
      · rename_i heq
        cases hnew
        rw [if_pos (heq ▸ rfl)]
      · rename_i hne
        have hother := h.plain other (MemoryStore.mem_existing_of_text? hnew)
        -- plain identities have a place each, so the file written is not this one
        rw [if_neg fun heq => hne (hother.eq_of_fileNames_eq hid.toIsNamed heq)]
        exact (h.files _ _).2 ⟨other, new, hnew, rfl, rfl⟩

end Mirrors

end EntityScaffold

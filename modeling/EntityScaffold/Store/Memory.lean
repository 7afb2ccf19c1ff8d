import EntityScaffold.Store.Basic

/-!
# Stores in memory

Files by identity, each with the text that was written last, and a log of all writes. Chosen names
make writes fail, which then change nothing.
-/

namespace EntityScaffold

/-- A store in memory. -/
structure MemoryStore where
  /-- Texts by identity, in the order in which they came. -/
  files : List (Identity × String) := []
  /-- Simple or qualified class names that cannot be written. -/
  failing : List String := []
  /-- The identities of all writes, in order. -/
  writes : List Identity := []
  deriving Inhabited

namespace MemoryStore

/-- The text under an identity. -/
def text? (k : MemoryStore) (id : Identity) : Option String := k.files.lookup id

/-- Files with a text put under an identity, in the place of an earlier one. -/
def putFile (files : List (Identity × String)) (id : Identity) (text : String) :
    List (Identity × String) :=
  if files.any (·.1 = id) then files.map fun f => if f.1 = id then (id, text) else f
  else files ++ [(id, text)]

/-- An identity that cannot be written. -/
def fails (k : MemoryStore) (id : Identity) : Bool :=
  id.className ∈ k.failing || id.qualifiedName ∈ k.failing

instance : Store MemoryStore where
  existing k := k.files.map (·.1)
  write k id text :=
    if k.fails id then (.error ⟨id, "simulated write failure"⟩, k)
    else (.ok (), { k with files := putFile k.files id text, writes := k.writes ++ [id] })

end MemoryStore

end EntityScaffold

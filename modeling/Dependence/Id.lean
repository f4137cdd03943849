/-!
# Identities

Everything that a dependence graph speaks of is named by a 32-bit word. `Id e` keeps the word
together with the kind of thing that it names, so the identity of an argument cannot stand where
that of a value is asked for. Identities are opaque: nothing but their equality matters, except
that the identity of a node, its `Handle`, is also its position in the arena that holds it.
-/

namespace Dependence

/-- The kinds of things that have an identity. -/
inductive Entity
  | node
  | function
  | argument
  | value
  | instruction
  deriving DecidableEq

/-- The name that texts give to the identities of a kind. -/
def Entity.idName : Entity → String
  | .node => "NodeId"
  | .function => "FunctionId"
  | .argument => "ArgumentId"
  | .value => "ValueId"
  | .instruction => "InstructionId"

/-- The word by which a thing of one kind is known. -/
structure Id (entity : Entity) where
  word : UInt32
  deriving DecidableEq

/-- The identity of a node: its position in an arena. -/
abbrev Handle := Id .node

namespace Id

variable {e : Entity}

/-- The identity as a natural number. -/
def index (x : Id e) : Nat := x.word.toNat

/-- The identity with a given index; only the low 32 bits of the index count. -/
def ofIndex (n : Nat) : Id e := ⟨UInt32.ofNat n⟩

/-- Identities of one kind are ordered by their indices. -/
instance : Ord (Id e) := ⟨fun x y => compare x.index y.index⟩

theorem index_lt (x : Id e) : x.index < UInt32.size := x.word.toNat_lt_size

@[simp] theorem ofIndex_index (x : Id e) : ofIndex x.index = x := by
  simp [ofIndex, index]

theorem index_ofIndex (n : Nat) : (ofIndex n : Id e).index = n % UInt32.size := by
  simp [ofIndex, index]

theorem index_ofIndex_of_lt {n : Nat} (h : n < UInt32.size) : (ofIndex n : Id e).index = n := by
  rw [index_ofIndex, Nat.mod_eq_of_lt h]

theorem index_inj {x y : Id e} : x.index = y.index ↔ x = y :=
  ⟨fun h => by rw [← ofIndex_index x, h, ofIndex_index], fun h => h ▸ rfl⟩

end Id

end Dependence

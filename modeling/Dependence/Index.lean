import Dependence.Id

/-!
# Indices

An index leads from identities of one kind to nodes. The first node recorded for an identity stays;
recording another one changes nothing. The entries keep the order in which they were recorded.

`find?_record` says what recording does to every look-up.
-/

namespace Dependence

/-- Which node was recorded first for an identity. -/
structure Index (key : Entity) where
  entries : List (Id key × Handle) := []
  deriving DecidableEq

namespace Index

variable {key : Entity}

/-- The node recorded for an identity. -/
def find? (x : Index key) (k : Id key) : Option Handle :=
  (x.entries.find? fun entry => entry.1 = k).map Prod.snd

/-- Whether a node is recorded for an identity. -/
def contains (x : Index key) (k : Id key) : Bool := (x.find? k).isSome

/-- Records a node for an identity that has none yet. -/
def record (x : Index key) (k : Id key) (node : Handle) : Index key :=
  if x.contains k then x else ⟨x.entries ++ [(k, node)]⟩

/-- How many identities have a node. -/
def size (x : Index key) : Nat := x.entries.length

theorem contains_of_mem {x : Index key} {entry : Id key × Handle} (h : entry ∈ x.entries) :
    x.contains entry.1 = true := by
  unfold contains find?
  rw [Option.isSome_map, List.find?_isSome]
  exact ⟨entry, h, decide_eq_true rfl⟩

theorem record_of_contains {x : Index key} {k : Id key} (h : x.contains k = true) (node : Handle) :
    x.record k node = x := by
  simp [record, h]

theorem entries_record_of_not_contains {x : Index key} {k : Id key} (h : x.contains k = false)
    (node : Handle) : (x.record k node).entries = x.entries ++ [(k, node)] := by
  simp [record, h]

/-- Recording a node serves the look-ups of its identity, unless they were served before. -/
theorem find?_record (x : Index key) (k k' : Id key) (node : Handle) :
    (x.record k node).find? k' = if k' = k then some ((x.find? k).getD node) else x.find? k' := by
  cases h : x.find? k with
  | some old =>
    have : x.contains k = true := by simp [contains, h]
    rw [record_of_contains this]
    by_cases hk : k' = k
    · simp [hk, h]
    · simp [hk]
  | none =>
    have hc : x.contains k = false := by simp [contains, h]
    rw [find?, entries_record_of_not_contains hc, List.find?_append]
    by_cases hk : k' = k
    · subst hk
      simp only [find?, Option.map_eq_none_iff] at h
      simp [h]
    · have : ¬ k = k' := fun e => hk e.symm
      simp [find?, hk, this]

end Index

end Dependence

import Dependence.Proofs.Format.Reading
import Dependence.Proofs.Store.Allocation

/-! # How arenas come about

An arena begins empty or is read, from a tree or from a text (`Arena.Fresh`); a blueprint was built in
either case (`Fresh.exists_build`).  From then on it grows by nodes, by edges between nodes that are there,
and by what stores do with it.  `Grows start a added` says that `a` has come about from `start` in this
way, and that `added` are the edges linked on the way, in their order.

A store only ever adds nodes (`Store.update_arena`).  So whatever adding a node and linking an edge keep,
growth keeps (`Grows.keeps`). -/

namespace Dependence

namespace Blueprint

/-- A blueprint is built if it is directed, its holes are in order, and no edge is loose. -/
theorem build_eq_ok {b : Blueprint} {a : Arena} (h : b.build = .ok a) :
    ∃ cells, layOut b.bound 0 b.nodes (b.holes.map Id.index) = .ok cells ∧ b.loose? = none ∧
      a =
        { nodes := ⟨cells⟩
          edges := ⟨b.edges⟩
          outgoing := chain Edge.source ⟨b.edges⟩
          incoming := chain Edge.target ⟨b.edges⟩ } := by
  unfold build at h
  cases hd : b.isDirected with
  | false => simp [hd] at h
  | true =>
      obtain ⟨cells, hcells, hrest⟩ := bind_eq_ok_iff.mp (by simpa [hd] using h)
      cases hl : b.loose? with
      | some edge => simp [hl] at hrest
      | none => exact ⟨cells, hcells, rfl, by simpa [hl, eq_comm] using hrest⟩

end Blueprint

namespace Arena

/-- An arena that is empty, or that was read from a tree or a text. -/
inductive Fresh : Arena → Prop
  | new : Fresh .empty
  | ofJson {v : Json} {a : Arena} : format.ofJson v = .ok a → Fresh a
  | parse {s : String} {a : Arena} : format.parse s = .ok a → Fresh a

/-- Growth of an arena, with the edges linked on the way in their order. -/
inductive Grows (start : Arena) : Arena → List Edge → Prop
  | refl : Grows start start []
  | addNode {a : Arena} {added : List Edge} (payload : Payload) :
      Grows start a added → Grows start (a.addNode payload) added
  | connect {a b : Arena} {added : List Edge} {edge : Edge} :
      Grows start a added → a.connect edge = .ok b → Grows start b (added ++ [edge])
  | create {a : Arena} {added : List Edge} (d : Declaration) :
      Grows start a added → Grows start (Store.create a d).state.2 added
  | update {a : Arena} {added : List Edge} (s : Store) (u : Store.Update) :
      Grows start a added → Grows start (s.update a u).state.2 added

theorem Grows.addNodes {start a : Arena} {added : List Edge} (h : Grows start a added)
    (payloads : List Payload) : Grows start (a.addNodes payloads) added := by
  induction payloads generalizing a with
  | nil => exact h
  | cons payload rest ih => exact ih (h.addNode payload)

/-- Whatever new nodes and new edges keep, growth keeps. -/
theorem Grows.keeps {P : Arena → List Edge → Prop} {start a : Arena} {added : List Edge}
    (h : Grows start a added) (hstart : P start [])
    (hnode : ∀ a added payload, P a added → P (a.addNode payload) added)
    (hlink : ∀ a added edge, a.contains edge.source = true → a.contains edge.target = true →
      P a added → P (a.link edge) (added ++ [edge])) :
    P a added := by
  have hnodes : ∀ (payloads : List Payload) (a : Arena) (added : List Edge),
      P a added → P (a.addNodes payloads) added := by
    intro payloads
    induction payloads with
    | nil => exact fun a added h => h
    | cons payload rest ih => exact fun a added h => ih _ _ (hnode a added payload h)
  induction h with
  | refl => exact hstart
  | addNode payload _ ih => exact hnode _ _ payload ih
  | connect _ hconnect ih =>
      obtain ⟨hs, ht, rfl⟩ := connect_eq_ok.mp hconnect
      exact hlink _ _ _ hs ht ih
  | create d _ ih =>
      rw [Store.create_arena]
      exact hnodes _ _ _ ih
  | update s u _ ih =>
      obtain ⟨payloads, hp⟩ := Store.update_arena s _ u
      rw [hp]
      exact hnodes payloads _ _ ih

theorem exists_build_of_reads {a : Arena} (h : format.Reads a) : ∃ b : Blueprint, b.build = .ok a := by
  obtain ⟨⟨a', _⟩, hrecord, rfl⟩ := Format.reads_map h
  have hgraph : (Blueprint.format.refine ofBlueprint blueprint).Reads a' := by
    rcases (Row.reads_record hrecord).1 with h | h | h
    · exact h
    · simp at h
    · simp at h
  obtain ⟨b, -, hb⟩ := Format.reads_refine hgraph
  exact ⟨b, mapError_eq_ok_iff.mp hb⟩

/-- However an arena begins, it is built from some blueprint. -/
theorem Fresh.exists_build {a : Arena} (h : Fresh a) : ∃ b : Blueprint, b.build = .ok a := by
  cases h with
  | new => exact ⟨{ nodes := [], edges := [] }, rfl⟩
  | ofJson h => exact exists_build_of_reads (.inl ⟨_, h⟩)
  | parse h => exact exists_build_of_reads (Format.reads_of_parse h)

end Arena
end Dependence

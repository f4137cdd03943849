import Dependence.Proofs.Arena.Chains
import Dependence.Proofs.Arena.Growth

/-! # An arena is a directed multigraph

The edges of an arena form one list in the order in which they were linked: those it began with, in
the order of their slots, and then each new one.  `Arena.Logged` is the invariant behind this.  It ties
both chains of the arena and the slots of its edges to a single log, the edge linked last in front, and
it survives every operation although the log and the slots are ordered differently once a vacant slot is
taken (`Logged.link`).

The listings of a node are read off this list (`listings_of_grows`): each of its edges stands in the
listing of its source and in the listing of its target as often as it was linked, the last one first. -/

namespace Dependence
namespace Arena

/-- The links that a log of edges makes in the chains of one of their ends. -/
def linksAt (node : Edge → Handle) (log : List (Nat × Edge)) : List (Nat × Nat) :=
  log.map fun entry => ((node entry.2).index, entry.1)

/-- A log of the edges of an arena with their slots, the edge linked last in front. -/
structure Logged (a : Arena) (log : List (Nat × Edge)) : Prop where
  mem_iff : ∀ slot edge, (slot, edge) ∈ log ↔ a.edges.get? slot = some edge
  edgeCount_eq : a.edgeCount = log.length
  outgoing : a.outgoing.Strung (linksAt Edge.source log)
  incoming : a.incoming.Strung (linksAt Edge.target log)

variable {a : Arena} {log : List (Nat × Edge)}

/-! ### The log grows -/

theorem Logged.addNode (h : a.Logged log) (payload : Payload) : (a.addNode payload).Logged log :=
  ⟨h.mem_iff, h.edgeCount_eq, h.outgoing, h.incoming⟩

theorem map_snd_linksAt (node : Edge → Handle) (log : List (Nat × Edge)) :
    (linksAt node log).map Prod.snd = log.map Prod.fst := by
  unfold linksAt
  rw [List.map_map]
  rfl

/-- The next slot is not logged, since it is vacant. -/
theorem Logged.next_not_mem (h : a.Logged log) : a.edges.next ∉ log.map Prod.fst := by
  intro hmem
  obtain ⟨⟨slot, edge⟩, hentry, hslot⟩ := List.mem_map.mp hmem
  have hget := (h.mem_iff slot edge).mp hentry
  rw [show slot = a.edges.next from hslot, Slots.get?_next] at hget
  cases hget

/-- A linked edge comes to the front of the log, whichever slot it takes. -/
theorem Logged.link (h : a.Logged log) (edge : Edge) :
    (a.link edge).Logged ((a.edges.next, edge) :: log) := by
  have hnew := h.next_not_mem
  refine ⟨?_, ?_, ?_, ?_⟩
  · intro slot other
    have hget : (a.link edge).edges.get? slot =
        if slot = a.edges.next then some edge else a.edges.get? slot :=
      Slots.get?_insert ..
    rw [hget, List.mem_cons, h.mem_iff, Prod.mk.injEq]
    by_cases hs : slot = a.edges.next
    · simp [hs, Slots.get?_next, eq_comm]
    · simp [hs]
  · rw [List.length_cons, ← h.edgeCount_eq]
    exact Slots.count_insert ..
  · exact h.outgoing.link _ (by rwa [map_snd_linksAt])
  · exact h.incoming.link _ (by rwa [map_snd_linksAt])

/-- The chains of a blueprint follow the slots of its edges. -/
theorem strung_chain (node : Edge → Handle) (edges : Slots Edge) :
    (Blueprint.chain node edges).Strung (linksAt node edges.entries.reverse) := by
  have hfold : Blueprint.chain node edges =
      (linksAt node edges.entries).foldl (fun c entry => c.link entry.1 entry.2) {} := by
    unfold linksAt
    rw [List.foldl_map]
    rfl
  have hnodup : (((linksAt node edges.entries).reverse ++ []).map Prod.snd).Nodup := by
    rw [List.append_nil, List.map_reverse, map_snd_linksAt]
    exact (List.reverse_perm _).nodup_iff.mpr edges.nodup_entries_map_fst
  have hstrung := Chain.Strung.empty.foldl_link (linksAt node edges.entries) hnodup
  rwa [← hfold, List.append_nil, linksAt, ← List.map_reverse] at hstrung

/-- An arena that is built has its edges logged in the order of their slots. -/
theorem logged_of_build {b : Blueprint} (hb : b.build = .ok a) : a.Logged a.edges.entries.reverse := by
  obtain ⟨cells, -, -, rfl⟩ := Blueprint.build_eq_ok hb
  refine ⟨?_, ?_, strung_chain .., strung_chain ..⟩
  · intro slot edge
    rw [List.mem_reverse]
    exact Slots.mem_entries
  · rw [List.length_reverse, ← List.length_map Prod.snd, Slots.entries_map_snd]
    rfl

theorem Fresh.logged (h : Fresh a) : a.Logged a.edges.entries.reverse := by
  obtain ⟨b, hb⟩ := h.exists_build
  exact logged_of_build hb

/-- A grown arena has a log of the edges it began with and those linked since. -/
theorem Grows.exists_logged {start : Arena} {added : List Edge} (hstart : Fresh start)
    (h : Grows start a added) :
    ∃ log, a.Logged log ∧ log.map Prod.snd = (start.edges.present ++ added).reverse := by
  refine h.keeps (P := fun a added =>
    ∃ log, a.Logged log ∧ log.map Prod.snd = (start.edges.present ++ added).reverse) ?_ ?_ ?_
  · refine ⟨_, hstart.logged, ?_⟩
    rw [List.map_reverse, Slots.entries_map_snd, List.append_nil]
  · rintro a added payload ⟨log, hlog, hedges⟩
    exact ⟨log, hlog.addNode payload, hedges⟩
  · rintro a added edge - - ⟨log, hlog, hedges⟩
    refine ⟨_, hlog.link edge, ?_⟩
    rw [List.map_cons, hedges, ← List.append_assoc, List.reverse_concat]

/-! ### Listings are read off the log -/

theorem filterMap_loggedAt {edges : Slots Edge} (node : Edge → Handle) (h : Handle) :
    ∀ {log : List (Nat × Edge)}, (∀ entry ∈ log, edges.get? entry.1 = some entry.2) →
      (Chain.loggedAt (linksAt node log) h.index).filterMap
        edges.get? = (log.map Prod.snd).filter fun edge => node edge = h
  | [], _ => rfl
  | (slot, edge) :: log, hget => by
      have hrest := filterMap_loggedAt node h fun entry hmem => hget entry (List.mem_cons_of_mem _ hmem)
      have hfirst : edges.get? slot = some edge := hget (slot, edge) List.mem_cons_self
      unfold linksAt at hrest ⊢
      rw [List.map_cons, Chain.loggedAt_cons, List.map_cons, List.filter_cons]
      by_cases hn : node edge = h
      · simp [hn, hfirst, hrest]
      · have hi : ¬ h.index = (node edge).index := fun hi => hn (Id.index_inj.mp hi.symm)
        simp [hn, hi, hrest]

/-- The edges chained at a node are the logged ones with this end. -/
theorem Logged.chained_eq (hlog : a.Logged log) {chain : Chain} {node : Edge → Handle}
    (hchain : chain.Strung (linksAt node log)) {h : Handle}
    (hh : a.contains h = true) :
    a.chained chain h = (log.map Prod.snd).filter fun edge => node edge = h := by
  unfold chained
  rw [if_pos hh, hchain.slots_eq]
  exact filterMap_loggedAt node h fun entry hmem => (hlog.mem_iff entry.1 entry.2).mp hmem

/-- Among the edges with a given end, one is told from the others by its other end and its kind. -/
theorem count_map_filter {near far : Edge → Handle} {x y : Handle} {k : Kind} {e : Edge}
    (he : ∀ edge, (far edge, edge.kind) = (y, k) ∧ near edge = x ↔ edge = e) (edges : List Edge) :
    ((edges.filter fun edge => near edge = x).map fun edge => (far edge, edge.kind)).count (y, k) =
      edges.count e := by
  rw [List.count_eq_countP, List.count_eq_countP, List.countP_map, List.countP_filter]
  refine List.countP_congr fun edge _ => ?_
  simpa using he edge

/-- The listings of an arena are those of the list of its edges in the order of linking. -/
theorem listings_of_grows {start : Arena} {added : List Edge} (hstart : Fresh start)
    (h : Grows start a added) :
    let edges := start.edges.present ++ added
    (∀ x, a.contains x = true →
      a.dependents x =
          ((edges.filter fun edge => edge.source = x).map fun edge => (edge.target, edge.kind)).reverse ∧
        a.dependencies x =
          ((edges.filter fun edge => edge.target = x).map fun edge => (edge.source, edge.kind)).reverse) ∧
      (∀ x, a.contains x = false → a.dependents x = [] ∧ a.dependencies x = []) ∧
      a.edgeCount = edges.length ∧
      (∀ x y k, a.contains x = true → (a.dependents x).count (y, k) = edges.count ⟨x, y, k⟩) ∧
      ∀ x y k, a.contains y = true → (a.dependencies y).count (x, k) = edges.count ⟨x, y, k⟩ := by
  intro edges
  obtain ⟨log, hlog, hedges⟩ := h.exists_logged hstart
  have hout : ∀ x, a.contains x = true → a.dependents x =
      ((edges.filter fun edge => edge.source = x).map fun edge => (edge.target, edge.kind)).reverse := by
    intro x hx
    unfold dependents
    rw [hlog.chained_eq hlog.outgoing hx, hedges, List.filter_reverse, List.map_reverse]
  have hin : ∀ x, a.contains x = true → a.dependencies x =
      ((edges.filter fun edge => edge.target = x).map fun edge => (edge.source, edge.kind)).reverse := by
    intro x hx
    unfold dependencies
    rw [hlog.chained_eq hlog.incoming hx, hedges, List.filter_reverse, List.map_reverse]
  refine ⟨fun x hx => ⟨hout x hx, hin x hx⟩, ?_, ?_, ?_, ?_⟩
  · intro x hx
    simp [dependents, dependencies, chained, hx]
  · rw [hlog.edgeCount_eq, ← List.length_map Prod.snd, hedges, List.length_reverse]
  · intro x y k hx
    rw [hout x hx, List.count_reverse]
    refine count_map_filter ?_ edges
    rintro ⟨source, target, kind⟩
    simp only [Prod.mk.injEq, Edge.mk.injEq]
    tauto
  · intro x y k hy
    rw [hin y hy, List.count_reverse]
    refine count_map_filter ?_ edges
    rintro ⟨source, target, kind⟩
    simp only [Prod.mk.injEq, Edge.mk.injEq]
    tauto

/-- An arena with a vacant slot between two nodes, an edge from a node to itself, a vacant edge slot, and
an edge to the other node. -/
def looped : Arena where
  nodes := ⟨[some (.value ⟨7⟩), none, some (.synthetic "x")]⟩
  edges := ⟨[some ⟨⟨0⟩, ⟨0⟩, .data⟩, none, some ⟨⟨0⟩, ⟨2⟩, .control⟩]⟩
  outgoing := ⟨⟨[some 2]⟩, ⟨[none, none, some 0]⟩⟩
  incoming := ⟨⟨[some 0, none, some 2]⟩, ⟨[none, none, none]⟩⟩

/-- A parallel edge takes the vacant slot, and yet is listed first. -/
theorem listings_of_grows_looped :
    ∃ a, Fresh looped ∧ Grows looped a [⟨⟨0⟩, ⟨2⟩, .data⟩] ∧
      a.dependents ⟨0⟩ = [(⟨2⟩, .data), (⟨2⟩, .control), (⟨0⟩, .data)] ∧
      a.dependencies ⟨0⟩ = [(⟨0⟩, .data)] ∧ a.dependents ⟨1⟩ = [] ∧ a.edgeCount = 3 ∧
      (a.dependencies ⟨2⟩).count (⟨0⟩, .data) = 1 := by
  have hload : format.ofJson (format.write looped) = .ok looped := by decide +kernel
  have hgrows : Grows looped (looped.link ⟨⟨0⟩, ⟨2⟩, .data⟩) ([] ++ [⟨⟨0⟩, ⟨2⟩, .data⟩]) :=
    .connect .refl (connect_eq_ok.mpr ⟨rfl, rfl, rfl⟩)
  obtain ⟨hlistings, hvacant, hcount, -, hmultiplicity⟩ := listings_of_grows (.ofJson hload) hgrows
  refine ⟨_, .ofJson hload, hgrows, ?_, ?_, ?_, ?_, ?_⟩
  · exact (hlistings ⟨0⟩ rfl).1
  · exact (hlistings ⟨0⟩ rfl).2
  · exact (hvacant ⟨1⟩ rfl).1
  · exact hcount
  · exact hmultiplicity ⟨0⟩ ⟨2⟩ .data rfl

end Arena
end Dependence

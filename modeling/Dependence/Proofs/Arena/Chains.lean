import Dependence.Chain
import Mathlib.Data.List.Perm.Subperm

/-! # Chains follow the order of linking

A chain is compared with a log of the links made so far: pairs of a node and the slot of an edge, the
one linked last in front.  `Strung c log` says that the chain of every node leads through the slots
that the log has for that node, in the order of the log, and ends after the last of them.

Linking extends the log by one pair in front (`Strung.link`), whatever the number of the slot is:
slots that were vacant come in an order of their own.  Since a slot occurs only once in the log, a
walk never needs more steps than there are links, so that `Chain.slots` reads the log off the
chains (`Strung.slots_eq`). -/

namespace Dependence
namespace Chain

/-- Following the links from a start visits exactly the given slots and ends after the last. -/
inductive Leads (c : Chain) : Option Nat → List Nat → Prop
  | stop : Leads c none []
  | step {slot : Nat} {path : List Nat} :
      Leads c (c.next.get? slot) path → Leads c (some slot) (slot :: path)

/-- The slots that a log has for a node. -/
def loggedAt (log : List (Nat × Nat)) (node : Nat) : List Nat :=
  (log.filter fun entry => entry.1 = node).map Prod.snd

/-- The chain of every node leads through the slots logged for it. -/
structure Strung (c : Chain) (log : List (Nat × Nat)) : Prop where
  nodup : (log.map Prod.snd).Nodup
  lt_length : ∀ slot ∈ log.map Prod.snd, slot < c.next.cells.length
  leads : ∀ node, c.Leads (c.first.get? node) (loggedAt log node)

/-! ### Links -/

section links
variable {c : Chain} {start : Option Nat} {path : List Nat} {log : List (Nat × Nat)}

theorem first_link (c : Chain) (node slot other : Nat) :
    (c.link node slot).first.get? other = if other = node then some slot else c.first.get? other :=
  Slots.get?_assign ..

theorem next_link (c : Chain) (node slot other : Nat) :
    (c.link node slot).next.get? other =
      if other = slot then c.first.get? node else c.next.get? other :=
  Slots.get?_assign ..

/-- With enough steps a walk visits the whole path. -/
theorem Leads.walk_eq (h : c.Leads start path) :
    ∀ {fuel : Nat}, path.length ≤ fuel → c.walk fuel start = path := by
  induction h with
  | stop =>
      intro fuel _
      cases fuel <;> rfl
  | step _ ih =>
      intro fuel hle
      cases fuel with
      | zero => simp at hle
      | succ fuel => rw [walk, ih (by simpa using hle)]

/-- A path is not touched by linking a slot that does not lie on it. -/
theorem Leads.link (h : c.Leads start path) (node : Nat) {slot : Nat} (hs : slot ∉ path) :
    (c.link node slot).Leads start path := by
  induction h with
  | stop => exact .stop
  | @step visited path _ ih =>
      have hne : visited ≠ slot := fun he => hs (by simp [he])
      refine .step ?_
      rw [next_link, if_neg hne]
      exact ih fun hmem => hs (List.mem_cons_of_mem _ hmem)

theorem loggedAt_cons (node slot other : Nat) :
    loggedAt ((node, slot) :: log) other =
      if other = node then slot :: loggedAt log other else loggedAt log other := by
  by_cases h : other = node
  · simp [loggedAt, h]
  · simp [loggedAt, h, Ne.symm h]

theorem loggedAt_sublist (log : List (Nat × Nat)) (node : Nat) :
    (loggedAt log node).Sublist (log.map Prod.snd) :=
  List.filter_sublist.map Prod.snd

/-! ### Logs -/

/-- Where nothing is linked, nothing is logged. -/
theorem Strung.empty : Strung {} [] :=
  ⟨List.nodup_nil, by simp, fun _ => .stop⟩

/-- Linking a slot that was not linked before puts it in front of the log. -/
theorem Strung.link (h : c.Strung log) (node : Nat) {slot : Nat} (hs : slot ∉ log.map Prod.snd) :
    (c.link node slot).Strung ((node, slot) :: log) := by
  refine ⟨List.nodup_cons.mpr ⟨hs, h.nodup⟩, ?_, ?_⟩
  · intro other hmem
    rcases List.mem_cons.mp hmem with rfl | hmem
    · exact Slots.lt_length_assign ..
    · exact Nat.lt_of_lt_of_le (h.lt_length other hmem) (Slots.length_le_length_assign ..)
  · intro other
    have hkept : (c.link node slot).Leads (c.first.get? other) (loggedAt log other) :=
      (h.leads other).link node fun hmem => hs ((loggedAt_sublist log other).subset hmem)
    rw [first_link, loggedAt_cons]
    by_cases hn : other = node
    · subst hn
      rw [if_pos rfl, if_pos rfl]
      refine .step ?_
      rwa [next_link, if_pos rfl]
    · rwa [if_neg hn, if_neg hn]

/-- The slots of a node are those logged for it, the one linked last coming first. -/
theorem Strung.slots_eq (h : c.Strung log) (node : Nat) : c.slots node = loggedAt log node := by
  refine (h.leads node).walk_eq ?_
  have hsub := loggedAt_sublist log node
  have hrange : (loggedAt log node).Subperm (List.range c.next.cells.length) :=
    (h.nodup.sublist hsub).subperm fun slot hmem =>
      List.mem_range.mpr (h.lt_length slot (hsub.subset hmem))
  simpa using hrange.length_le

/-- Linking several slots one after the other logs them in this order. -/
theorem Strung.foldl_link (h : c.Strung log) (links : List (Nat × Nat))
    (hnd : ((links.reverse ++ log).map Prod.snd).Nodup) :
    (links.foldl (fun c entry => c.link entry.1 entry.2) c).Strung (links.reverse ++ log) := by
  induction links generalizing c log with
  | nil => simpa using h
  | cons entry links ih =>
      rw [List.reverse_cons, List.append_assoc, List.singleton_append] at hnd ⊢
      have hnew : entry.2 ∉ log.map Prod.snd := by
        rw [List.map_append, List.map_cons] at hnd
        exact (List.nodup_cons.mp (List.nodup_append.mp hnd).2.1).1
      exact ih (h.link entry.1 hnew) hnd

end links

end Chain
end Dependence

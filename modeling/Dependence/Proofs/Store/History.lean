import Dependence.Session.Operation

/-! # Histories of a store

What a store was asked to write, call by call, and what can be read off such a history without
knowing any store.  An `Attempt` is a single write together with the node that it offers; the nodes
that a bulk call offers follow from the arena that it is given and from the attempts before it
(`Attempt.each`).  Attempts to record a node for an argument and for a value are told apart by the kind
of their key only, and what is read off them is said for both at once (`Attempt.pairs`).

* `Attempt.firsts` keeps of several pairs with one key the earliest; `firsts_append_singleton` says how it
  grows, and `nodeFor_firsts` that no question for a node is answered differently.
* `Attempt.listing` goes through the attempts and takes the nodes of those that repeat no earlier
  attempt for the same key. -/

namespace Dependence

/-- A single write that a store is asked for, with the node that it offers. -/
inductive Attempt
  | formal (argument : Id .argument) (node : Handle)
  | value (value : Id .value) (node : Handle)
  | unindexed (node : Handle)
  | call (call : Call)
  | milestone (built : Bool)
  deriving DecidableEq

namespace Attempt

/-- The attempt to record a node for an identity. -/
def recording {key : Entity} : Indexed key → Id key → Handle → Attempt
  | .argument => formal
  | .value => value

/-- The identity and the node of an attempt to record a node for an identity of one kind. -/
def pair? {key : Entity} : Indexed key → Attempt → Option (Id key × Handle)
  | .argument, formal argument node => some (argument, node)
  | .value, value v node => some (v, node)
  | _, _ => none

/-- The call that an attempt adds. -/
def call? : Attempt → Option Call
  | call c => some c
  | _ => none

/-- The attempts so far for the identities of one kind. -/
def pairs {key : Entity} (k : Indexed key) (history : List Attempt) : List (Id key × Handle) :=
  history.filterMap (pair? k)

/-- The attempts so far for arguments. -/
def formalPairs (history : List Attempt) : List (Id .argument × Handle) := pairs .argument history

/-- The attempts so far for values. -/
def valuePairs (history : List Attempt) : List (Id .value × Handle) := pairs .value history

/-- Whether some pair has the given key. -/
def hasKey {key : Entity} (pairs : List (Id key × Handle)) (k : Id key) : Bool :=
  pairs.any fun pair => pair.1 = k

/-- The node of the earliest pair with the given key. -/
def nodeFor {key : Entity} (pairs : List (Id key × Handle)) (k : Id key) : Option Handle :=
  (pairs.find? fun pair => pair.1 = k).map Prod.snd

/-- Of several pairs with one key the earliest, all in their order. -/
def firsts {key : Entity} : List (Id key × Handle) → List (Id key × Handle)
  | [] => []
  | pair :: rest => pair :: (firsts rest).filter fun later => later.1 ≠ pair.1

/-- The node that an attempt lists after the attempts before it: nothing, if its key was asked for
already or it offers no node. -/
def listed (earlier : List Attempt) : Attempt → List Handle
  | formal argument node => if hasKey (formalPairs earlier) argument then [] else [node]
  | value v node => if hasKey (valuePairs earlier) v then [] else [node]
  | unindexed node => [node]
  | call _ => []
  | milestone _ => []

/-- The nodes that further attempts list. -/
def listedAfter (earlier : List Attempt) : List Attempt → List Handle
  | [] => []
  | attempt :: rest => attempt.listed earlier ++ listedAfter (earlier ++ [attempt]) rest

/-- The nodes that a history lists. -/
def listing (history : List Attempt) : List Handle := listedAfter [] history

/-- The attempts of a bulk call, which offers each argument a new node of the arena.  The arena grows
by the nodes of the arguments that were not asked for before. -/
def each (f : Id .function) (history : List Attempt) (arena : Arena) :
    List (Id .argument) → List Attempt
  | [] => []
  | argument :: rest =>
      let attempt := formal argument arena.nextHandle
      let grown :=
        if hasKey (formalPairs history) argument then arena else arena.addNode (.formal f argument)
      attempt :: each f (history ++ [attempt]) grown rest

/-- The attempts of one call to a store of the given declaration. -/
def ofUpdate (d : Declaration) (history : List Attempt) (arena : Arena) :
    Store.Update → List Attempt
  | .setBuilt built => [milestone built]
  | .addFormal argument => [formal argument arena.nextHandle]
  | .recordFormal argument node => [formal argument node]
  | .addFormals => each d.id history arena d.params
  | .recordValue v node => [value v node]
  | .listNode node => [unindexed node]
  | .addCall c => [call c]

/-- The attempts of several calls, each with the arena given to it. -/
def ofCalls (d : Declaration) (calls : List (Arena × Store.Update)) : List Attempt :=
  calls.foldl (fun history (arena, u) => history ++ ofUpdate d history arena u) []

/-! ### Keys -/

section keys
variable {key : Entity} {pairs : List (Id key × Handle)} {k : Id key}

theorem hasKey_iff : hasKey pairs k = true ↔ ∃ node, (k, node) ∈ pairs := by
  unfold hasKey
  rw [List.any_eq_true]
  constructor
  · rintro ⟨⟨k', node⟩, hmem, hk⟩
    obtain rfl : k' = k := of_decide_eq_true hk
    exact ⟨node, hmem⟩
  · rintro ⟨node, hmem⟩
    exact ⟨(k, node), hmem, by simp⟩

theorem isSome_nodeFor : (nodeFor pairs k).isSome = hasKey pairs k := by
  unfold nodeFor hasKey
  rw [Bool.eq_iff_iff, Option.isSome_map, List.find?_isSome, List.any_eq_true]

theorem nodeFor_cons (pair : Id key × Handle) (rest : List (Id key × Handle)) (k : Id key) :
    nodeFor (pair :: rest) k = if pair.1 = k then some pair.2 else nodeFor rest k := by
  unfold nodeFor
  by_cases h : pair.1 = k <;> simp [h]

theorem hasKey_firsts (pairs : List (Id key × Handle)) (k : Id key) :
    hasKey (firsts pairs) k = hasKey pairs k := by
  induction pairs with
  | nil => rfl
  | cons pair rest ih =>
      unfold hasKey at ih ⊢
      rw [firsts, List.any_cons, List.any_cons, List.any_filter, ← ih]
      by_cases h : pair.1 = k
      · simp [h]
      · congr 2
        funext later
        by_cases hl : later.1 = k
        · simp [hl, Ne.symm h]
        · simp [hl]

/-- The earliest pairs answer every question for a node as all pairs do. -/
theorem nodeFor_firsts (pairs : List (Id key × Handle)) (k : Id key) :
    nodeFor (firsts pairs) k = nodeFor pairs k := by
  induction pairs with
  | nil => rfl
  | cons pair rest ih =>
      rw [firsts, nodeFor_cons, nodeFor_cons]
      by_cases h : pair.1 = k
      · rw [if_pos h, if_pos h]
      · rw [if_neg h, if_neg h, ← ih]
        unfold nodeFor
        rw [List.find?_filter]
        congr 2
        funext later
        by_cases hl : later.1 = k
        · simp [hl, Ne.symm h]
        · simp [hl]

/-- Each key stands once among the earliest pairs. -/
theorem nodup_keys_firsts (pairs : List (Id key × Handle)) :
    ((firsts pairs).map Prod.fst).Nodup := by
  induction pairs with
  | nil => exact List.nodup_nil
  | cons pair rest ih =>
      rw [firsts, List.map_cons, List.nodup_cons]
      refine ⟨?_, (List.filter_sublist.map Prod.fst).nodup ih⟩
      intro hmem
      obtain ⟨later, hl, he⟩ := List.mem_map.mp hmem
      exact of_decide_eq_true (List.mem_filter.mp hl).2 he

theorem mem_keys_firsts : k ∈ (firsts pairs).map Prod.fst ↔ ∃ node, (k, node) ∈ pairs := by
  rw [← hasKey_iff, ← hasKey_firsts, hasKey_iff]
  simp

/-- One more pair counts only if its key is new. -/
theorem firsts_append_singleton (pairs : List (Id key × Handle)) (k : Id key) (node : Handle) :
    firsts (pairs ++ [(k, node)]) =
      if hasKey pairs k then firsts pairs else firsts pairs ++ [(k, node)] := by
  induction pairs with
  | nil => rfl
  | cons pair rest ih =>
      have hkey : hasKey (pair :: rest) k = (decide (pair.1 = k) || hasKey rest k) := List.any_cons
      rw [List.cons_append, firsts, ih, hkey]
      by_cases hr : hasKey rest k = true
      · simp [hr, firsts]
      · by_cases hp : pair.1 = k
        · simp [hr, hp, firsts]
        · simp [hr, hp, firsts, Ne.symm hp]

end keys

/-! ### Longer histories -/

section recordings
variable {key : Entity} {k : Indexed key} {x : Id key} {node : Handle}

theorem pair?_eq_some {attempt : Attempt} : pair? k attempt = some (x, node) ↔ attempt = recording k x node := by
  cases k <;> cases attempt <;> simp [pair?, recording]

theorem mem_pairs {history : List Attempt} : (x, node) ∈ pairs k history ↔ recording k x node ∈ history := by
  unfold pairs
  rw [List.mem_filterMap]
  constructor
  · rintro ⟨attempt, hmem, he⟩
    rwa [← pair?_eq_some.mp he]
  · exact fun hmem => ⟨_, hmem, pair?_eq_some.mpr rfl⟩

theorem pairs_append_singleton (k : Indexed key) (history : List Attempt) (attempt : Attempt) :
    pairs k (history ++ [attempt]) = pairs k history ++ (pair? k attempt).toList := by
  unfold pairs
  cases h : pair? k attempt <;> simp [h]

/-- An attempt to record a node lists it unless its key was asked for before. -/
theorem listed_recording (earlier : List Attempt) (k : Indexed key) (x : Id key) (node : Handle) :
    (recording k x node).listed earlier = if hasKey (pairs k earlier) x then [] else [node] := by
  cases k <;> rfl

end recordings

theorem listedAfter_append (earlier history more : List Attempt) :
    listedAfter earlier (history ++ more) =
      listedAfter earlier history ++ listedAfter (earlier ++ history) more := by
  induction history generalizing earlier with
  | nil => simp [listedAfter]
  | cons attempt rest ih => simp [listedAfter, ih]

/-- One more attempt lists what it lists after all before it. -/
theorem listing_append_singleton (history : List Attempt) (attempt : Attempt) :
    listing (history ++ [attempt]) = listing history ++ attempt.listed history := by
  simp [listing, listedAfter_append, listedAfter]

theorem ofCalls_append_singleton (d : Declaration) (calls : List (Arena × Store.Update))
    (arena : Arena) (u : Store.Update) :
    ofCalls d (calls ++ [(arena, u)]) = ofCalls d calls ++ ofUpdate d (ofCalls d calls) arena u := by
  simp [ofCalls, List.foldl_append]

end Attempt
end Dependence

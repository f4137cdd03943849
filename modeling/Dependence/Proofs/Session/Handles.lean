import Dependence.Proofs.Session.Allocation
import Dependence.Proofs.Session.Step

/-! # Handles over a session

Stores are only ever made or updated (`step_alters`), so each stays the store of its function, with the
same node for the further arguments or without one (`KeepsStores`, `Matches`).

That node leads to something in the arena that the store was made with, and is thus never granted again
there.  So no enumeration of the store shows it, unless somebody supplies it (`Unlisted.run`).

`KeepsHandles` gathers what holds of the handles of a session while further steps are carried out, and
`keepsHandles_run` says that it holds of every session that is ever reached. -/

namespace Dependence

/-- If the step works on a certain store, it gives it a certain arena, and it does not supply a certain
handle. -/
def Step.Withholds (step : Step) (j i : Nat) (node : Handle) : Prop :=
  ∀ k update, step = .updateStore j k update → k = i ∧ update.supplied ≠ some node

namespace Session

variable {s t : Session} {steps : List Step}

/-! ### Stores keep their declarations -/

/-- What a step does to the stores. -/
inductive Alters (s t : Session) : Step → Prop
  | keeps {step : Step} : t.stores = s.stores → Alters s t step
  | makes {step : Step} (a : Arena) (d : Declaration) :
      t.stores = s.stores ++ [(Store.create a d).state.1] → Alters s t step
  | updates {j i : Nat} {store : Store} {a : Arena} {update : Store.Update} :
      s.stores[j]? = some store → s.arenas[i]? = some a →
        t.stores = s.stores.set j (store.update a update).state.1 →
        t.arenas = s.arenas.set i (store.update a update).state.2 →
        Alters s t (.updateStore j i update)

theorem step_alters (s : Session) (step : Step) : s.Alters (s.step step).session step := by
  have hdoes := step_does s step
  generalize s.step step = reply at hdoes
  cases hdoes with
  | fails | looks | makes | works => exact .keeps rfl
  | creates => exact .makes _ _ rfl
  | updates hs ha => exact .updates hs ha rfl rfl

/-- Every store of the first session is there in the second, for the same function. -/
def KeepsStores (s t : Session) : Prop :=
  ∀ (j : Nat) (store : Store), s.stores[j]? = some store →
    ∃ later, t.stores[j]? = some later ∧ later.declaration = store.declaration ∧
      later.variadicNode = store.variadicNode

theorem keepsStores_step (s : Session) (step : Step) : s.KeepsStores (s.step step).session := by
  intro k other hother
  have hk : k < s.stores.length := (List.getElem?_eq_some_iff.mp hother).1
  cases step_alters s step with
  | keeps ht => exact ⟨other, by rw [ht, hother], rfl, rfl⟩
  | makes a d ht => exact ⟨other, by rw [ht, List.getElem?_append_left hk, hother], rfl, rfl⟩
  | updates hs ha ht harenas =>
      rename_i j i store a update
      by_cases hj : j = k
      · subst hj
        rw [hs] at hother
        cases hother
        exact ⟨_, by rw [ht, List.getElem?_set_self hk], Store.update_declaration ..,
          Store.update_variadicNode ..⟩
      · exact ⟨other, by rw [ht, List.getElem?_set_ne hj, hother], rfl, rfl⟩

theorem keepsStores_run (s : Session) (steps : List Step) : s.KeepsStores (s.run steps).1 := by
  induction steps generalizing s with
  | nil => exact fun j store hs => ⟨store, hs, rfl, rfl⟩
  | cons step steps ih =>
      intro j store hs
      obtain ⟨next, hnext, hdeclaration, hvariadic⟩ := keepsStores_step s step j store hs
      obtain ⟨later, hlater, hdeclaration', hvariadic'⟩ := ih _ j next hnext
      exact ⟨later, hlater, hdeclaration'.trans hdeclaration, hvariadic'.trans hvariadic⟩

/-- The stores of variadic functions, and only these, have a node for the further arguments. -/
def Matches (s : Session) : Prop :=
  ∀ store ∈ s.stores, store.variadicNode.isSome = store.declaration.isVariadic

theorem Matches.step (h : s.Matches) (step : Step) : (s.step step).session.Matches := by
  intro other hother
  cases step_alters s step with
  | keeps ht =>
      rw [ht] at hother
      exact h other hother
  | makes a d ht =>
      rw [ht] at hother
      rcases List.mem_append.mp hother with hother | hother
      · exact h other hother
      · obtain rfl := List.mem_singleton.mp hother
        rw [Store.create_store]
        cases d.isVariadic <;> rfl
  | updates hs ha ht harenas =>
      rename_i j i store a update
      rw [ht] at hother
      rcases List.mem_or_eq_of_mem_set hother with hother | rfl
      · exact h other hother
      · rw [Store.update_variadicNode, Store.update_declaration]
        exact h store (List.mem_of_getElem? hs)

theorem Matches.run (h : s.Matches) (steps : List Step) : (s.run steps).1.Matches := by
  induction steps generalizing s with
  | nil => exact h
  | cons step steps ih => exact ih (h.step step)

/-! ### Handles that a store does not show -/

/-- A handle that leads to a node already, and that a store shows in none of its enumerations. -/
structure Unlisted (s : Session) (j i : Nat) (node : Handle) : Prop where
  taken : s.node? i node ≠ none
  not_mem : ∀ store, s.stores[j]? = some store → node ∉ store.enumerated

/-- The arena does not grant the handle again. -/
theorem Unlisted.step {j i : Nat} {node : Handle} {step : Step} (h : s.Unlisted j i node)
    (hroom : (s.step step).session.HasRoom) (hstep : step.Withholds j i node) :
    (s.step step).session.Unlisted j i node := by
  refine ⟨fun hnone => h.taken ((extends_step s step).node?_eq_none hnone), ?_⟩
  intro other hother hmem
  cases step_alters s step with
  | keeps ht =>
      rw [ht] at hother
      exact h.not_mem other hother hmem
  | makes a d ht =>
      rw [ht] at hother
      by_cases hj : j < s.stores.length
      · rw [List.getElem?_append_left hj] at hother
        exact h.not_mem other hother hmem
      · obtain ⟨-, rfl⟩ : j - s.stores.length = 0 ∧ (Store.create a d).state.1 = other := by
          rw [List.getElem?_append_right (by omega), List.getElem?_singleton] at hother
          split at hother
          · exact ⟨‹_›, Option.some.inj hother⟩
          · cases hother
        rw [Store.enumerated_create] at hmem
        cases hmem
  | updates hs ha ht harenas =>
      rename_i k l store a update
      by_cases hk : k = j
      · subst hk
        obtain ⟨rfl, hsupplied⟩ := hstep l update rfl
        have hklt : k < s.stores.length := (List.getElem?_eq_some_iff.mp hs).1
        have hl : l < s.arenas.length := (List.getElem?_eq_some_iff.mp ha).1
        rw [ht, List.getElem?_set_self hklt] at hother
        obtain rfl := Option.some.inj hother
        have hgrown : (store.update a update).state.2.HasRoom := by
          refine hroom _ ?_
          rw [harenas]
          exact List.mem_set hl _
        rcases store.mem_enumerated_update hgrown hmem with hmem | hmem | hmem
        · exact h.not_mem store hs hmem
        · exact hsupplied hmem
        · refine h.taken ?_
          unfold Session.node?
          rw [ha, Option.bind_some, hmem]
      · rw [ht, List.getElem?_set_ne hk] at hother
        exact h.not_mem other hother hmem

theorem Unlisted.run {j i : Nat} {node : Handle} (h : s.Unlisted j i node)
    (hroom : (s.run steps).1.HasRoom) (hsteps : ∀ step ∈ steps, step.Withholds j i node) :
    (s.run steps).1.Unlisted j i node := by
  induction steps generalizing s with
  | nil => exact h
  | cons step steps ih =>
      have hroom' : (s.step step).session.HasRoom := .of_extends (extends_run _ steps) hroom
      exact ih (h.step hroom' (hsteps step List.mem_cons_self)) hroom
        fun step hmem => hsteps step (List.mem_cons_of_mem _ hmem)

/-- The store that a step makes is found where its answer says. -/
theorem stores_newStore {d i j : Nat} (hanswer : (s.step (.newStore d i)).answer = .ok (.count j)) :
    ∃ a declaration, (s.step (.newStore d i)).session.stores[j]? =
      some (Store.create a declaration).state.1 := by
  simp only [Session.step] at hanswer ⊢
  split at hanswer
  · rename_i declaration a hd ha
    obtain rfl : s.stores.length = j := by injection hanswer with he; injection he
    exact ⟨a, declaration, List.getElem?_concat_length⟩
  · cases hanswer

/-- A new store shows nothing, and its node for the further arguments is there. -/
theorem unlisted_newStore {d i j : Nat} {store : Store} {node : Handle}
    (hroom : (s.step (.newStore d i)).session.HasRoom)
    (hanswer : (s.step (.newStore d i)).answer = .ok (.count j))
    (hstore : (s.step (.newStore d i)).session.stores[j]? = some store)
    (hnode : store.variadicNode = some node) :
    (s.step (.newStore d i)).session.Unlisted j i node := by
  have hmem : ⟨i, node, .variadic store.function⟩ ∈ s.allocations (.newStore d i) := by
    simp [allocations, hanswer, hstore, hnode]
  have htaken := ((step_works s (.newStore d i)).mem hroom _ hmem).2
  obtain ⟨a, declaration, hmade⟩ := stores_newStore hanswer
  refine ⟨?_, ?_⟩
  · intro hnone
    rw [htaken] at hnone
    cases hnone
  · intro other hother hlisted
    rw [hmade] at hother
    obtain rfl := Option.some.inj hother
    rw [Store.enumerated_create] at hlisted
    cases hlisted

/-- A store never shows its own node for the further arguments, unless it is supplied. -/
theorem not_mem_enumerated {d i j : Nat} {rest : List Step} {store : Store} {node : Handle}
    (hroom : ((s.step (.newStore d i)).session.run rest).1.HasRoom)
    (hanswer : (s.step (.newStore d i)).answer = .ok (.count j))
    (hstore : ((s.step (.newStore d i)).session.run rest).1.stores[j]? = some store)
    (hnode : store.variadicNode = some node) (hrest : ∀ step ∈ rest, step.Withholds j i node) :
    node ∉ store.enumerated := by
  obtain ⟨a, declaration, hmade⟩ := stores_newStore hanswer
  obtain ⟨later, hlater, -, hvariadic⟩ := keepsStores_run _ rest j _ hmade
  obtain rfl : later = store := Option.some.inj (hlater.symm.trans hstore)
  have hnew := unlisted_newStore (.of_extends (extends_run _ rest) hroom) hanswer hmade
    (hvariadic.symm.trans hnode)
  exact (hnew.run hroom hrest).not_mem later hstore

/-! ### A whole session -/

/-- What holds of the handles of a session while further steps are carried out. -/
structure KeepsHandles (s : Session) (steps : List Step) : Prop where
  /-- A handle that leads to a payload goes on doing so. -/
  stable : ∀ i h payload, s.node? i h = some payload → (s.run steps).1.node? i h = some payload
  /-- A handle that is allocated led nowhere, and from then on leads to the payload it is for. -/
  fresh : ∀ x ∈ s.allocated steps, s.node? x.arena x.handle = none
  labelled : ∀ x ∈ s.allocated steps, (s.run steps).1.node? x.arena x.handle = some x.payload
  /-- Nothing but what is allocated comes to lead anywhere in an arena. -/
  complete : ∀ i h payload, i < s.arenas.length → (s.run steps).1.node? i h = some payload →
    s.node? i h = some payload ∨ ⟨i, h, payload⟩ ∈ s.allocated steps
  /-- No arena allocates a handle twice. -/
  distinct : ((s.allocated steps).map Allocation.place).Nodup
  /-- A store stays that of its function, with the node for the further arguments or without it. -/
  stores : s.KeepsStores (s.run steps).1
  isVariadic : (s.run steps).1.Matches
  /-- The node for the further arguments of a new store is in none of its enumerations, as long as the
  store is given the arena it was made with and nobody supplies this node. -/
  unlisted : ∀ d i j rest store node, steps = .newStore d i :: rest →
    (s.step (.newStore d i)).answer = .ok (.count j) →
    (s.run steps).1.stores[j]? = some store → store.variadicNode = some node →
    (∀ step ∈ rest, step.Withholds j i node) → node ∉ store.enumerated

/-- Whatever steps have led to a session, its handles are kept by whatever steps follow. -/
theorem keepsHandles_run (declarations : List Declaration) (past steps : List Step)
    (hroom : ((({ declarations } : Session).run past).1.run steps).1.HasRoom) :
    (({ declarations } : Session).run past).1.KeepsHandles steps where
  stable i h payload hs := (extends_run _ steps).node? hs
  fresh x hx := (mem_allocated hroom x hx).1
  labelled x hx := (mem_allocated hroom x hx).2
  complete i h payload hi hnode := node?_or_mem_allocated hi hnode
  distinct := nodup_allocated hroom
  stores := keepsStores_run _ steps
  isVariadic := by
    have hstart : ({ declarations } : Session).Matches := fun store hmem => by cases hmem
    exact (hstart.run past).run steps
  unlisted d i j rest store node hsteps hanswer hstore hnode hrest := by
    subst hsteps
    exact not_mem_enumerated hroom hanswer hstore hnode hrest

/-- An arena with a vacant slot between two nodes, as a tree. -/
def holed : Json :=
  .object
    [("graph", Blueprint.format.write
      { nodes := [.value ⟨5⟩, .value ⟨6⟩], holes := [⟨1⟩], edges := [] })]

/-- A variadic function for which one parameter is declared twice. -/
def printing : Declaration := ⟨⟨3⟩, "print", [⟨1⟩, ⟨2⟩, ⟨1⟩], true⟩

/-- Makes a store with a loaded arena, and works on that arena and on a copy of it. -/
def sharing : List Step :=
  [.newStore 0 1, .copyArena 1, .updateStore 0 1 .addFormals,
    .updateArena 2 (.addNode (.synthetic "x")), .updateStore 0 1 (.addFormal ⟨4⟩)]

/-- The vacant slot goes to the further arguments, and is not granted again. -/
theorem keepsHandles_run_sharing :
    let s := (({ declarations := [printing] } : Session).run [.loadArena holed]).1
    s.KeepsHandles sharing ∧ s.node? 1 ⟨1⟩ = none ∧
      (s.run sharing).1.node? 1 ⟨1⟩ = some (.variadic ⟨3⟩) ∧
      s.allocated sharing =
        [⟨1, ⟨1⟩, .variadic ⟨3⟩⟩, ⟨1, ⟨3⟩, .formal ⟨3⟩ ⟨1⟩⟩, ⟨1, ⟨4⟩, .formal ⟨3⟩ ⟨2⟩⟩,
          ⟨2, ⟨3⟩, .synthetic "x"⟩, ⟨1, ⟨5⟩, .formal ⟨3⟩ ⟨4⟩⟩] ∧
      (s.run sharing).1.stores.map Store.enumerated =
        [[⟨3⟩, ⟨4⟩, ⟨5⟩, ⟨3⟩, ⟨4⟩, ⟨5⟩]] := by
  have hroom : ((({ declarations := [printing] } : Session).run [.loadArena holed]).1.run
      sharing).1.HasRoom := by
    unfold HasRoom Arena.HasRoom
    decide +kernel
  have hkeeps := keepsHandles_run [printing] [.loadArena holed] sharing hroom
  have hallocated : ⟨1, ⟨1⟩, .variadic ⟨3⟩⟩ ∈
      (({ declarations := [printing] } : Session).run [.loadArena holed]).1.allocated sharing := by
    decide +kernel
  refine ⟨hkeeps, hkeeps.fresh _ hallocated, hkeeps.labelled _ hallocated, ?_, ?_⟩
  · decide +kernel
  · decide +kernel

end Session
end Dependence

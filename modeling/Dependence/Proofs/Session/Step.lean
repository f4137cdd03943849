import Dependence.Session

/-! # What a step can do

`Session.step` decides in many places whether a step is carried out, and on what.  `Session.Does` lists what
comes of this: a step fails and leaves the session as it was; or it is answered without changing anything; or
it appends an arena or a store; or it works on the arena, or on the store and the arena, that it addresses.
`step_does` is the inversion from which other facts about single steps are read off. -/

namespace Dependence

/-- Whether a step is a question. -/
def Step.isQuery : Step → Bool
  | .askArena .. | .askStore .. => true
  | _ => false

/-- Whether a step makes an arena. -/
def Step.makesArena : Step → Bool
  | .newArena | .copyArena _ | .loadArena _ => true
  | _ => false

namespace Session

variable {s : Session}

/-- The replies that a step can get: it fails, it is answered only, it appends an arena or a store, or it
works on an arena, or on a store and an arena. -/
inductive Does (s : Session) : Step → Reply → Prop
  | fails (step : Step) (f : Failure) : Does s step (s.say (.error f))
  | looks {step : Step} (answer : Answer) : step.isQuery = true → Does s step (s.say (.ok answer))
  | makes {step : Step} (a : Arena) : step.makesArena = true → Does s step (s.withArena a)
  | works {i : Nat} {a b : Arena} {update : Arena.Update} {answer : Answer} :
      s.arenas[i]? = some a → a.update update = (b, .ok answer) →
        Does s (.updateArena i update)
          { session := { s with arenas := s.arenas.set i b }, answer := .ok answer }
  | creates {d i : Nat} {declaration : Declaration} {a : Arena} :
      s.declarations[d]? = some declaration → s.arenas[i]? = some a →
        Does s (.newStore d i)
          { session :=
              { s with
                arenas := s.arenas.set i (Store.create a declaration).state.2
                stores := s.stores ++ [(Store.create a declaration).state.1] }
            answer := .ok (.count s.stores.length)
            events := (Store.create a declaration).events }
  | updates {j i : Nat} {store : Store} {a : Arena} {update : Store.Update} :
      s.stores[j]? = some store → s.arenas[i]? = some a →
        Does s (.updateStore j i update)
          { session :=
              { s with
                arenas := s.arenas.set i (store.update a update).state.2
                stores := s.stores.set j (store.update a update).state.1 }
            answer := .ok (store.update a update).answer
            events := (store.update a update).events }

/-- What stands in a place can be put there again. -/
theorem set_eq_self {α : Type} {list : List α} {i : Nat} {x : α} (h : list[i]? = some x) :
    list.set i x = list := by
  obtain ⟨hlt, rfl⟩ := List.getElem?_eq_some_iff.mp h
  exact List.set_getElem_self hlt

theorem say_does {step : Step} (h : step.isQuery = true) (answer : Except Failure Answer) :
    s.Does step (s.say answer) := by
  cases answer with
  | ok answer => exact .looks answer h
  | error f => exact .fails step f

/-- An edge that is refused leaves its arena as it was. -/
theorem updateArena_does (s : Session) (i : Nat) (update : Arena.Update) :
    s.Does (.updateArena i update) (s.step (.updateArena i update)) := by
  cases ha : s.arenas[i]? with
  | none =>
      simp only [step, ha]
      exact .fails _ _
  | some a =>
      simp only [step, ha]
      cases update with
      | addNode payload => exact .works ha rfl
      | connect edge =>
          cases hc : a.connect edge with
          | ok b =>
              have hwork : a.update (.connect edge) = (b, .ok .done) := by simp only [Arena.update, hc]
              rw [hwork]
              exact .works ha hwork
          | error m =>
              have hstay : a.update (.connect edge) = (a, .error (.missing m)) := by
                simp only [Arena.update, hc]
              rw [hstay, set_eq_self ha]
              exact .fails _ _

/-- Every step gets one of these replies. -/
theorem step_does (s : Session) (step : Step) : s.Does step (s.step step) := by
  cases step with
  | newArena => exact .makes .empty rfl
  | copyArena i =>
      simp only [Session.step]
      split
      · exact .makes _ rfl
      · exact .fails _ _
  | loadArena tree =>
      simp only [Session.step]
      split
      · exact .makes _ rfl
      · exact .fails _ _
  | askArena i query =>
      simp only [Session.step]
      split <;> exact say_does rfl _
  | updateArena i update => exact updateArena_does s i update
  | newStore d i =>
      simp only [Session.step]
      split
      · exact .creates ‹_› ‹_›
      · exact .fails _ _
  | askStore j i query =>
      simp only [Session.step]
      split <;> exact say_does rfl _
  | updateStore j i update =>
      simp only [Session.step]
      split
      · exact .updates ‹_› ‹_›
      · exact .fails _ _

end Session
end Dependence

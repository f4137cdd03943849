import Dependence.Json.Scan

/-! # Rounds without fuel

`Scan.repeated` allows as many rounds as there are characters.  `Scan.Settles` describes the same
repetition without counting: every round but the last reads something, and the last one finds
something left.  A repetition that settles yields its result (`Settles.repeated_eq`), so the bound
never has to be computed; and whatever the rounds keep, the repetition keeps
(`of_repeated_eq_ok`). -/

namespace Dependence

/-- A chain of two computations succeeds if both do. -/
theorem bind_eq_ok_iff {ε α β : Type} {x : Except ε α} {f : α → Except ε β} {b : β} :
    (x >>= f) = .ok b ↔ ∃ a, x = .ok a ∧ f a = .ok b := by
  cases x <;> simp [bind, Except.bind]

/-- What is made of a result changes no error. -/
theorem bind_ok_eq_error_iff {ε α β : Type} {x : Except ε α} {f : α → β} {e : ε} :
    (x >>= fun a => .ok (f a)) = .error e ↔ x = .error e := by
  cases x <;> simp [bind, Except.bind]

/-- Whether a computation succeeds does not depend on how its errors are named. -/
theorem mapError_eq_ok_iff {ε δ α : Type} {x : Except ε α} {f : ε → δ} {a : α} :
    x.mapError f = .ok a ↔ x = .ok a := by
  cases x with
  | error e =>
      refine iff_of_false ?_ ?_
      · intro h
        cases (show Except.error (f e) = Except.ok a from h)
      · intro h
        cases h
  | ok b =>
      constructor
      · intro h
        cases (show Except.ok b = Except.ok a from h)
        rfl
      · intro h
        cases h
        rfl

namespace Scan

variable {α σ : Type} {round : σ → Scan (Round σ α)}

/-- From a state and a text the rounds lead to a result and what is left of the text. -/
inductive Settles (round : σ → Scan (Round σ α)) : σ → List Char → α → List Char → Prop
  | last {state : σ} {s rest : List Char} {x : α} :
      round state s = .ok (.last x, rest) → s ≠ [] → Settles round state s x rest
  | again {state state' : σ} {s s' rest : List Char} {x : α} :
      round state s = .ok (.again state', s') → s'.length < s.length →
        Settles round state' s' x rest → Settles round state s x rest

theorem Settles.rounds_eq {state : σ} {s rest : List Char} {x : α}
    (h : Settles round state s x rest) :
    ∀ {fuel : Nat}, s.length ≤ fuel → rounds round fuel state s = .ok (x, rest) := by
  induction h with
  | @last state s rest x hround hne =>
      intro fuel hfuel
      have hpos : 0 < s.length := List.length_pos_iff.mpr hne
      obtain ⟨fuel, rfl⟩ : ∃ k, fuel = k + 1 := ⟨fuel - 1, by omega⟩
      rw [rounds, hround]
  | again hround hlt _ ih =>
      intro fuel hfuel
      obtain ⟨fuel, rfl⟩ : ∃ k, fuel = k + 1 := ⟨fuel - 1, by omega⟩
      rw [rounds, hround]
      exact ih (by omega)

/-- There are enough rounds for every repetition that settles. -/
theorem Settles.repeated_eq {start : σ} {s rest : List Char} {x : α}
    (h : Settles round start s x rest) : repeated round start s = .ok (x, rest) :=
  h.rounds_eq (Nat.le_refl _)

/-- What every round keeps of the state holds when the last round is reached. -/
theorem of_rounds_eq_ok {Inv : σ → Prop} {Result : α → Prop}
    (hagain : ∀ state s state' s', Inv state → round state s = .ok (.again state', s') → Inv state')
    (hlast : ∀ state s x s', Inv state → round state s = .ok (.last x, s') → Result x) :
    ∀ {fuel : Nat} {state : σ} {s rest : List Char} {x : α}, Inv state →
      rounds round fuel state s = .ok (x, rest) → Result x := by
  intro fuel
  induction fuel with
  | zero => intro state s rest x _ h; simp [rounds] at h
  | succ fuel ih =>
      intro state s rest x hinv h
      rw [rounds] at h
      split at h
      · simp at h
      · exact ih (hagain _ _ _ _ hinv ‹_›) h
      · simp only [Except.ok.injEq, Prod.mk.injEq] at h
        obtain ⟨rfl, -⟩ := h
        exact hlast _ _ _ _ hinv ‹_›

theorem of_repeated_eq_ok (Inv : σ → Prop) (Result : α → Prop)
    (hagain : ∀ state s state' s', Inv state → round state s = .ok (.again state', s') → Inv state')
    (hlast : ∀ state s x s', Inv state → round state s = .ok (.last x, s') → Result x)
    {start : σ} {s rest : List Char} {x : α} (hstart : Inv start)
    (h : repeated round start s = .ok (x, rest)) : Result x :=
  of_rounds_eq_ok hagain hlast hstart h

end Scan
end Dependence

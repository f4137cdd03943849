import Dependence.Proofs.Json.Tokens
import Dependence.Proofs.Json.Trees

/-! # Numbers look one character ahead

A number ends where something else begins.  What is read of it depends on its own characters, which are neither blanks
nor quotes, and on the one behind them (`Number.peeks_scan`).  So it does not matter which of the characters that can
follow a value this one is. -/

namespace Dependence

namespace Scan

variable {α β : Type}

/-- What can stand in a numeral is neither blank nor a quote. -/
def Solid (c : Char) : Prop := isBlank c = false ∧ c ≠ '"'

instance : DecidablePred Solid := fun c => inferInstanceAs (Decidable (isBlank c = false ∧ c ≠ '"'))

/-- A text begins like another one, or with something that follows a value. -/
def Like (rest r : List Char) : Prop := r.head? = rest.head? ∨ Ends r

/-- What is read depends on the characters that are read and at most on the one behind them. -/
structure Peeks (scan : Scan α) : Prop where
  peek : ∀ {s rest x}, scan s = .ok (x, rest) →
    ∃ p, s = p ++ rest ∧ (∀ c ∈ p, Solid c) ∧ ∀ r, Like rest r → scan (p ++ r) = .ok (x, r)

theorem Like.append {rest r : List Char} (h : Like rest r) : ∀ q : List Char, Like (q ++ rest) (q ++ r)
  | [] => h
  | _ :: _ => .inl rfl

theorem Peeks.bind {a : Scan α} {b : α → Scan β} (ha : Peeks a) (hb : ∀ x, Peeks (b x)) :
    Peeks fun s => a s >>= fun (x, s) => b x s := by
  constructor
  intro s rest y h
  obtain ⟨⟨x, s₁⟩, hx, hy⟩ := bind_eq_ok_iff.mp h
  obtain ⟨p, rfl, hp, hreadp⟩ := ha.peek hx
  obtain ⟨q, rfl, hq, hreadq⟩ := (hb x).peek hy
  refine ⟨p ++ q, (List.append_assoc p q rest).symm, List.forall_mem_append.mpr ⟨hp, hq⟩, ?_⟩
  intro r hr
  rw [List.append_assoc]
  exact bind_eq_ok_iff.mpr ⟨(x, q ++ r), hreadp _ (hr.append q), hreadq r hr⟩

theorem peeks_ok (x : α) : Peeks fun s => .ok (x, s) := by
  constructor
  intro s rest y h
  obtain ⟨rfl, rfl⟩ := Prod.mk.inj (Except.ok.inj h)
  exact ⟨[], rfl, List.forall_mem_nil _, fun r _ => rfl⟩

theorem Peeks.map {a : Scan α} (ha : Peeks a) (f : α → β) : Peeks fun s => a s >>= fun (x, s) => .ok (f x, s) :=
  ha.bind fun x => peeks_ok (f x)

/-- A character in front is part of what is read. -/
theorem Peeks.cons {a : Scan α} (ha : Peeks a) {c : Char} (hc : Solid c) {s rest : List Char} {x : α}
    (h : a s = .ok (x, rest)) :
    ∃ p, c :: s = c :: p ++ rest ∧ (∀ d ∈ c :: p, Solid d) ∧ ∀ r, Like rest r → a (p ++ r) = .ok (x, r) := by
  obtain ⟨p, rfl, hp, hread⟩ := ha.peek h
  exact ⟨p, rfl, List.forall_mem_cons.mpr ⟨hc, hp⟩, hread⟩

end Scan

namespace Numeral

open Scan

theorem solid_of_isDigit {c : Char} (hc : c.isDigit = true) : Solid c :=
  ⟨isBlank_of_isDigit hc, ne_of_isDigit hc rfl⟩

theorem Stops.like {rest r : List Char} (h : Stops rest) (hr : Like rest r) : Stops r := by
  rcases hr with hhead | hends
  · intro c hc
    exact h c (hhead ▸ hc)
  · exact stops_of_ends hends

theorem digits_eq_ok {s rest ds : List Char} (h : digits s = .ok (ds, rest)) :
    s = ds ++ rest ∧ ds ≠ [] ∧ (∀ c ∈ ds, c.isDigit = true) ∧ Stops rest := by
  cases s with
  | nil => cases h
  | cons c s =>
      rw [digits] at h
      split at h
      · rename_i hc
        obtain ⟨rfl, rfl⟩ := Prod.mk.inj (Except.ok.inj h)
        refine ⟨List.takeWhile_append_dropWhile.symm, ?_, fun d hd => List.mem_takeWhile_imp hd, ?_⟩
        · rw [List.takeWhile_cons, if_pos hc]
          exact List.cons_ne_nil _ _
        · intro d hd
          have hnot := List.head?_dropWhile_not Char.isDigit (c :: s)
          rw [hd] at hnot
          simpa using hnot
      · cases h

/-- Digits end where something else begins. -/
theorem peeks_digits : Peeks digits := by
  constructor
  intro s rest ds h
  obtain ⟨rfl, hne, hds, hstops⟩ := digits_eq_ok h
  exact ⟨ds, rfl, fun c hc => solid_of_isDigit (hds c hc), fun r hr => digits_append hds hne (hstops.like hr)⟩

theorem wholePart_eq_ok {s rest ds : List Char} (h : wholePart s = .ok (ds, rest)) :
    s = ds ++ rest ∧ ds ≠ [] ∧ (∀ c ∈ ds, c.isDigit = true) ∧ Stops rest ∧ ∀ d more, ds ≠ '0' :: d :: more := by
  unfold wholePart at h
  split at h
  · rename_i c s
    split at h
    · cases h
    · rename_i hc
      obtain ⟨rfl, rfl⟩ := Prod.mk.inj (Except.ok.inj h)
      refine ⟨rfl, List.cons_ne_nil _ _, List.forall_mem_singleton.mpr rfl, ?_, fun d more hds => by cases hds⟩
      intro d hd
      rw [← Option.some.inj hd]
      simpa using hc
  · rename_i hnot
    obtain ⟨rfl, hne, hds, hstops⟩ := digits_eq_ok h
    refine ⟨rfl, hne, hds, hstops, ?_⟩
    rintro d more rfl
    exact hnot d (more ++ rest) rfl

theorem wholePart_append {ds rest : List Char} (hds : ∀ c ∈ ds, c.isDigit = true) (hne : ds ≠ []) (hrest : Stops rest)
    (hzero : ∀ d more, ds ≠ '0' :: d :: more) : wholePart (ds ++ rest) = .ok (ds, rest) := by
  unfold wholePart
  split
  · rename_i c s heq
    match ds with
    | [] => exact absurd rfl hne
    | [d] =>
        obtain ⟨rfl, rfl⟩ := List.cons.inj heq
        rw [if_neg (by simpa using hrest c rfl)]
    | d :: e :: more =>
        obtain ⟨rfl, -⟩ := List.cons.inj heq
        exact absurd rfl (hzero e more)
  · exact digits_append hds hne hrest

theorem peeks_wholePart : Peeks wholePart := by
  constructor
  intro s rest ds h
  obtain ⟨rfl, hne, hds, hstops, hzero⟩ := wholePart_eq_ok h
  exact ⟨ds, rfl, fun c hc => solid_of_isDigit (hds c hc), fun r hr => wholePart_append hds hne (hstops.like hr) hzero⟩

/-- A text that does not begin with a character does so neither if a value ends before it. -/
theorem head?_ne_of_like {c : Char} {rest r : List Char} (hr : Like rest r) (hc : ∀ s, ¬ Ends (c :: s))
    (hrest : rest.head? ≠ some c) : r.head? ≠ some c := by
  rcases hr with hhead | hends
  · rwa [hhead]
  · cases r with
    | nil => exact nofun
    | cons d r =>
        intro hd
        rw [Option.some.inj hd] at hends
        exact hc r hends

theorem fractionPart_none {r : List Char} (h : r.head? ≠ some '.') : fractionPart r = .ok (none, r) := by
  unfold fractionPart
  split
  · exact absurd rfl h
  · rfl

theorem peeks_fractionPart : Peeks fractionPart := by
  constructor
  intro s rest x h
  unfold fractionPart at h
  split at h
  · obtain ⟨p, hs, hp, hread⟩ := (peeks_digits.map some).cons (c := '.') (by decide) h
    exact ⟨'.' :: p, hs, hp, hread⟩
  · rename_i hnot
    obtain ⟨rfl, rfl⟩ := Prod.mk.inj (Except.ok.inj h)
    refine ⟨[], rfl, List.forall_mem_nil _, fun r hr => fractionPart_none (head?_ne_of_like hr ?_ ?_)⟩
    · intro s hends
      cases hends
    · intro hhead
      obtain ⟨s', rfl⟩ := List.head?_eq_some_iff.mp hhead
      exact hnot s' rfl

theorem peeks_exponentDigits : Peeks exponentDigits := by
  have hdigits : ∀ f : Nat → Int, Peeks fun s => digits s >>= fun read =>
      (.ok (some (f (valueOf read.1)), read.2) : Except Fault (Option Int × List Char)) :=
    fun f => peeks_digits.map fun ds => some (f (valueOf ds))
  constructor
  intro s rest x h
  unfold exponentDigits at h
  split at h
  · obtain ⟨p, hs, hp, hread⟩ := (hdigits fun n => -(n : Int)).cons (c := '-') (by decide) h
    exact ⟨'-' :: p, hs, hp, hread⟩
  · obtain ⟨p, hs, hp, hread⟩ := (hdigits fun n => (n : Int)).cons (c := '+') (by decide) h
    exact ⟨'+' :: p, hs, hp, hread⟩
  · obtain ⟨⟨ds, s₁⟩, hds, h⟩ := bind_eq_ok_iff.mp h
    obtain ⟨rfl, rfl⟩ := Prod.mk.inj (Except.ok.inj h)
    obtain ⟨rfl, hne, hdigit, hstops⟩ := digits_eq_ok hds
    refine ⟨ds, rfl, fun c hc => solid_of_isDigit (hdigit c hc), ?_⟩
    intro r hr
    have hread := digits_append hdigit hne (hstops.like hr)
    obtain ⟨d, more, rfl⟩ := List.exists_cons_of_ne_nil hne
    have hd := hdigit d List.mem_cons_self
    unfold exponentDigits
    split
    · rename_i heq
      exact absurd (List.cons.inj heq).1 (ne_of_isDigit hd rfl)
    · rename_i heq
      exact absurd (List.cons.inj heq).1 (ne_of_isDigit hd rfl)
    · exact bind_eq_ok_iff.mpr ⟨_, hread, rfl⟩

theorem exponentPart_none {r : List Char} (he : r.head? ≠ some 'e') (hE : r.head? ≠ some 'E') :
    exponentPart r = .ok (none, r) := by
  cases r with
  | nil => rfl
  | cons c r =>
      rw [exponentPart_cons, if_neg]
      simp only [Bool.or_eq_true, decide_eq_true_eq, not_or]
      exact ⟨fun hc => he (congrArg some hc), fun hc => hE (congrArg some hc)⟩

theorem peeks_exponentPart : Peeks exponentPart := by
  constructor
  intro s rest x h
  have hends : ∀ c, c = 'e' ∨ c = 'E' → ∀ s, ¬ Ends (c :: s) := by
    rintro c (rfl | rfl) s hends <;> cases hends
  have hnone : rest.head? ≠ some 'e' → rest.head? ≠ some 'E' →
      ∀ r, Like rest r → exponentPart ([] ++ r) = .ok (none, r) :=
    fun he hE r hr => exponentPart_none (head?_ne_of_like hr (hends 'e' (.inl rfl)) he)
      (head?_ne_of_like hr (hends 'E' (.inr rfl)) hE)
  cases s with
  | nil =>
      obtain ⟨rfl, rfl⟩ := Prod.mk.inj (Except.ok.inj h)
      exact ⟨[], rfl, List.forall_mem_nil _, hnone nofun nofun⟩
  | cons c s =>
      rw [exponentPart_cons] at h
      split at h
      · rename_i hc
        have hsolid : Solid c := by
          rcases (by simpa using hc : c = 'e' ∨ c = 'E') with rfl | rfl <;> exact (by decide)
        obtain ⟨p, hs, hp, hread⟩ := peeks_exponentDigits.cons hsolid h
        refine ⟨c :: p, hs, hp, ?_⟩
        intro r hr
        rw [List.cons_append, exponentPart_cons, if_pos hc]
        exact hread r hr
      · rename_i hc
        obtain ⟨rfl, rfl⟩ := Prod.mk.inj (Except.ok.inj h)
        simp only [Bool.or_eq_true, decide_eq_true_eq, not_or] at hc
        have he : (c :: s).head? ≠ some 'e' := fun h => hc.1 (Option.some.inj h)
        have hE : (c :: s).head? ≠ some 'E' := fun h => hc.2 (Option.some.inj h)
        exact ⟨[], rfl, List.forall_mem_nil _, hnone he hE⟩

theorem peeks_unsigned (isNegative : Bool) : Peeks (unsigned isNegative) :=
  peeks_wholePart.bind fun whole => peeks_fractionPart.bind fun fraction =>
    peeks_exponentPart.map fun exponent => Numeral.mk isNegative whole fraction exponent

theorem peeks_scan : Peeks scan := by
  constructor
  intro s rest n h
  cases s with
  | nil => cases h
  | cons c s =>
      by_cases hc : c = '-'
      · subst hc
        obtain ⟨p, hs, hp, hread⟩ := (peeks_unsigned true).cons (c := '-') (by decide) h
        exact ⟨'-' :: p, hs, hp, hread⟩
      · unfold scan at h
        rw [sign_cons hc] at h
        obtain ⟨p, hs, hp, hread⟩ := (peeks_unsigned false).peek h
        have hlt := (progress_unsigned false).length_lt h
        refine ⟨p, hs, hp, ?_⟩
        intro r hr
        cases p with
        | nil =>
            rw [hs] at hlt
            exact absurd hlt (Nat.lt_irrefl _)
        | cons d p =>
            obtain ⟨rfl, -⟩ := List.cons.inj hs
            unfold scan
            rw [List.cons_append, sign_cons hc]
            exact hread r hr

end Numeral

theorem Number.peeks_scan : Scan.Peeks Number.scan := by
  constructor
  intro s rest x h
  obtain ⟨⟨n, s₁⟩, hn, h⟩ := bind_eq_ok_iff.mp h
  obtain ⟨p, hs, hp, hread⟩ := Numeral.peeks_scan.peek hn
  dsimp only at h
  split at h
  · rename_i y hy
    obtain ⟨rfl, rfl⟩ := Prod.mk.inj (Except.ok.inj h)
    refine ⟨p, hs, hp, fun r hr => ?_⟩
    simp only [Number.scan, hread r hr, hy, bind, Except.bind]
  · cases h

end Dependence

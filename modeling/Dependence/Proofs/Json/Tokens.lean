import Dependence.Json.Reader
import Dependence.Proofs.Json.Locality

/-! # Strings and numbers do not depend on what follows

A string ends with a quote, so its readers are closed (`Quoted.closed_scan`, `Quoted.closed_skip`).  A number ends
where something else begins, so its readers are local (`Number.local_scan`, `Numeral.local_skip`). -/

namespace Dependence

/-! ### Strings -/

namespace Quoted

open Scan

theorem closed_hex4 : Closed hex4 := by
  refine ⟨⟨?_, ?_⟩, ?_⟩
  · intro s rest n h
    unfold hex4 at h
    split at h
    · split at h
      · rw [← (Prod.mk.inj (Except.ok.inj h)).2]
        simp only [List.length_cons]
        omega
      · cases h
    · split at h <;> cases h
  · intro s rest n h t
    unfold hex4 at h
    split at h
    · rename_i a b c d s
      split at h
      · rename_i hvalue
        obtain ⟨rfl, rfl⟩ := Prod.mk.inj (Except.ok.inj h)
        simp only [List.cons_append, hex4, hvalue]
      · cases h
    · split at h <;> cases h
  · intro r h
    cases h

theorem fixed_lowHalf (high : Nat) : Fixed (lowHalf high) := by
  have hpair := closed_hex4.toFixed.bind fun low => Fixed.ite (p := 0xDC00 ≤ low ∧ low ≤ 0xDFFF)
    (fixed_ok (Char.ofNat ((high - 0xD800) * 0x400 + (low - 0xDC00) + 0x10000))) (fixed_error fun _ => .malformed)
  constructor
  · intro s rest c h
    unfold lowHalf at h
    split at h
    · cases h
    · cases h
    · have hle := hpair.length_le h
      simp only [List.length_cons]
      omega
    · cases h
  · intro s rest c h t
    unfold lowHalf at h
    split at h
    · cases h
    · cases h
    · exact hpair.append h t
    · cases h

theorem closed_numbered : Closed numbered :=
  closed_hex4.bind fun n => .ite (p := 0xDC00 ≤ n ∧ n ≤ 0xDFFF) (fixed_error fun _ => .malformed) <|
    .ite (p := 0xD800 ≤ n ∧ n ≤ 0xDBFF) (fixed_lowHalf n) (fixed_ok (Char.ofNat n))

theorem fixed_short {α : Type} (plain : Char → α) (c : Char) :
    Fixed fun s => match short c with
      | some c => (.ok (plain c, s) : Except Fault (α × List Char))
      | none => .error .malformed := by
  cases short c with
  | some c => exact fixed_ok (plain c)
  | none => exact fixed_error fun _ => .malformed

theorem closed_escaped {α : Type} (plain : Char → α) {byNumber : Scan α} (h : Fixed byNumber) :
    Closed (escaped plain byNumber) := by
  have hshort := fun c => h.ite (p := c = 'u') (fixed_short plain c)
  refine ⟨⟨?_, ?_⟩, ?_⟩
  · intro s rest x hread
    cases s with
    | nil => cases hread
    | cons c s => exact Nat.le_trans ((hshort c).length_le hread) (Nat.le_succ _)
  · intro s rest x hread t
    cases s with
    | nil => cases hread
    | cons c s => exact (hshort c).append hread t
  · intro r hread
    cases hread

theorem closed_round {α : Type} (plain : Char → α) {byNumber : Scan α} (h : Fixed byNumber) (seen : List α) :
    Closed (round plain byNumber seen) := by
  have hescaped := (closed_escaped plain h).map fun x => (Round.again (x :: seen) : Round (List α) (List α))
  refine ⟨⟨?_, ?_⟩, ?_⟩
  · intro s rest x hread
    unfold round at hread
    split at hread
    · cases hread
    · rw [← (Prod.mk.inj (Except.ok.inj hread)).2]
      exact Nat.le_succ _
    · exact Nat.le_trans (hescaped.length_le hread) (Nat.le_succ _)
    · split at hread
      · cases hread
      · rw [← (Prod.mk.inj (Except.ok.inj hread)).2]
        exact Nat.le_succ _
  · intro s rest x hread t
    unfold round at hread
    split at hread
    · cases hread
    · obtain ⟨rfl, rfl⟩ := Prod.mk.inj (Except.ok.inj hread)
      rfl
    · exact hescaped.append hread t
    · rename_i c s hquote hbackslash
      split at hread
      · cases hread
      · rename_i hplain
        obtain ⟨rfl, rfl⟩ := Prod.mk.inj (Except.ok.inj hread)
        rw [List.cons_append, round]
        · exact if_neg hplain
        · exact hquote
        · exact hbackslash
  · intro r hread
    cases hread

theorem closed_body {α : Type} (plain : Char → α) {byNumber : Scan α} (h : Fixed byNumber) :
    Closed (body plain byNumber) := by
  refine ClosedRound.repeated ⟨?_, ?_, ?_⟩ []
  · exact fun seen => (closed_round plain h seen).local
  · exact fun hread => (closed_round plain h _).append hread
  · exact fun seen => (closed_round plain h seen).nil

theorem closed_scan : Closed scan := (closed_body id closed_numbered.toFixed).map String.ofList

theorem closed_skip : Closed skip :=
  (closed_body (fun _ => ()) (closed_hex4.map fun _ => ()).toFixed).map fun _ => ()

end Quoted

/-! ### Numbers -/

namespace Numeral

open Scan

theorem dropWhile_ne_nil_append {p : Char → Bool} {s : List Char} (h : s.dropWhile p ≠ []) (t : List Char) :
    (s ++ t).takeWhile p = s.takeWhile p ∧ (s ++ t).dropWhile p = s.dropWhile p ++ t := by
  constructor
  · rw [List.takeWhile_append, if_neg]
    intro hlength
    have hsplit := congrArg List.length (List.takeWhile_append_dropWhile (p := p) (l := s))
    rw [List.length_append, hlength] at hsplit
    exact h (List.length_eq_zero_iff.mp (by omega))
  · rw [List.dropWhile_append, if_neg]
    rwa [List.isEmpty_iff]

theorem progress_digits : Progress digits := by
  constructor
  intro s rest ds h
  unfold digits at h
  split at h
  · cases h
  · rename_i c s
    split at h
    · rename_i hc
      rw [← (Prod.mk.inj (Except.ok.inj h)).2, List.dropWhile_cons, if_pos hc, List.length_cons]
      exact Nat.lt_succ_of_le (List.dropWhile_sublist _).length_le
    · cases h

theorem local_digits : Local digits := by
  constructor
  · exact fun h => Nat.le_of_lt (progress_digits.length_lt h)
  · intro s rest ds h hne t
    unfold digits at h
    split at h
    · cases h
    · rename_i c s
      split at h
      · rename_i hc
        obtain ⟨rfl, rfl⟩ := Prod.mk.inj (Except.ok.inj h)
        obtain ⟨htake, hdrop⟩ := dropWhile_ne_nil_append hne t
        rw [List.cons_append] at htake hdrop
        rw [List.cons_append, digits, if_pos hc, htake, hdrop]
      · cases h

theorem progress_wholePart : Progress wholePart := by
  constructor
  intro s rest ds h
  unfold wholePart at h
  split at h
  · split at h
    · cases h
    · rw [← (Prod.mk.inj (Except.ok.inj h)).2]
      exact Nat.lt_succ_self _
  · exact progress_digits.length_lt h

theorem local_wholePart : Local wholePart := by
  constructor
  · exact fun h => Nat.le_of_lt (progress_wholePart.length_lt h)
  · intro s rest ds h hne t
    unfold wholePart at h
    split at h
    · rename_i c s
      split at h
      · cases h
      · rename_i hc
        obtain ⟨rfl, rfl⟩ := Prod.mk.inj (Except.ok.inj h)
        rw [List.cons_append, List.cons_append, wholePart, if_neg hc]
    · rename_i hnot
      have hmore := local_digits.append h hne t
      unfold wholePart
      split
      · rename_i c s' heq
        match s with
        | [] => cases h
        | [d] =>
            obtain ⟨rfl, -⟩ := List.cons.inj heq
            obtain ⟨-, rfl⟩ := Prod.mk.inj (Except.ok.inj h)
            exact absurd rfl hne
        | d :: e :: s =>
            obtain ⟨rfl, -⟩ := List.cons.inj heq
            exact absurd rfl (hnot e s)
      · exact hmore

theorem local_fractionPart : Local fractionPart := by
  have hdigits := local_digits.map some
  constructor
  · intro s rest x h
    unfold fractionPart at h
    split at h
    · exact Nat.le_trans (hdigits.length_le h) (Nat.le_succ _)
    · exact Nat.le_of_eq (congrArg List.length (Prod.mk.inj (Except.ok.inj h)).2).symm
  · intro s rest x h hne t
    unfold fractionPart at h
    split at h
    · exact hdigits.append h hne t
    · rename_i hnot
      obtain ⟨rfl, rfl⟩ := Prod.mk.inj (Except.ok.inj h)
      unfold fractionPart
      split
      · rename_i s' heq
        obtain ⟨c, s, rfl⟩ := List.exists_cons_of_ne_nil hne
        obtain ⟨rfl, -⟩ := List.cons.inj heq
        exact absurd rfl (hnot s)
      · rfl

/-- What follows the letter of an exponent. -/
def exponentDigits : Scan (Option Int) := fun s =>
  match s with
  | '-' :: s => do
    let (ds, s) ← digits s
    .ok (some (-(valueOf ds : Int)), s)
  | '+' :: s => do
    let (ds, s) ← digits s
    .ok (some (valueOf ds : Int), s)
  | s => do
    let (ds, s) ← digits s
    .ok (some (valueOf ds : Int), s)

theorem exponentPart_cons (c : Char) (s : List Char) :
    exponentPart (c :: s) = if c = 'e' || c = 'E' then exponentDigits s else .ok (none, c :: s) :=
  rfl

theorem local_exponentDigits : Local exponentDigits := by
  have hdigits : ∀ f : Nat → Int, Local fun s => digits s >>= fun (ds, s) =>
      (.ok (some (f (valueOf ds)), s) : Except Fault (Option Int × List Char)) :=
    fun f => local_digits.map fun ds => some (f (valueOf ds))
  constructor
  · intro s rest x h
    unfold exponentDigits at h
    split at h
    · exact Nat.le_trans ((hdigits fun n => -(n : Int)).length_le h) (Nat.le_succ _)
    · exact Nat.le_trans ((hdigits fun n => (n : Int)).length_le h) (Nat.le_succ _)
    · exact (hdigits fun n => (n : Int)).length_le h
  · intro s rest x h hne t
    unfold exponentDigits at h
    split at h
    · exact (hdigits fun n => -(n : Int)).append h hne t
    · exact (hdigits fun n => (n : Int)).append h hne t
    · rename_i hminus hplus
      have hmore := (hdigits fun n => (n : Int)).append h hne t
      have hs := ne_nil_of_length_le ((hdigits fun n => (n : Int)).length_le h) hne
      obtain ⟨c, s, rfl⟩ := List.exists_cons_of_ne_nil hs
      unfold exponentDigits
      split
      · rename_i s' heq
        obtain ⟨rfl, -⟩ := List.cons.inj heq
        exact absurd rfl (hminus s)
      · rename_i s' heq
        obtain ⟨rfl, -⟩ := List.cons.inj heq
        exact absurd rfl (hplus s)
      · exact hmore

theorem local_exponentPart : Local exponentPart := by
  constructor
  · intro s rest x h
    cases s with
    | nil =>
        exact Nat.le_of_eq (congrArg List.length (Prod.mk.inj (Except.ok.inj h)).2).symm
    | cons c s =>
        rw [exponentPart_cons] at h
        split at h
        · exact Nat.le_trans (local_exponentDigits.length_le h) (Nat.le_succ _)
        · exact Nat.le_of_eq (congrArg List.length (Prod.mk.inj (Except.ok.inj h)).2).symm
  · intro s rest x h hne t
    cases s with
    | nil =>
        obtain ⟨-, rfl⟩ := Prod.mk.inj (Except.ok.inj h)
        exact absurd rfl hne
    | cons c s =>
        rw [exponentPart_cons] at h
        rw [List.cons_append, exponentPart_cons]
        split at h
        · rename_i hc
          rw [if_pos hc]
          exact local_exponentDigits.append h hne t
        · rename_i hc
          obtain ⟨rfl, rfl⟩ := Prod.mk.inj (Except.ok.inj h)
          exact if_neg hc

/-- A numeral after its sign. -/
def unsigned (isNegative : Bool) : Scan Numeral := fun s => do
  let (whole, s) ← wholePart s
  let (fraction, s) ← fractionPart s
  let (exponent, s) ← exponentPart s
  .ok ({ isNegative, whole, fraction, exponent }, s)

theorem local_unsigned (isNegative : Bool) : Local (unsigned isNegative) :=
  local_wholePart.bind fun whole => local_fractionPart.bind fun fraction =>
    local_exponentPart.map fun exponent => Numeral.mk isNegative whole fraction exponent

theorem progress_unsigned (isNegative : Bool) : Progress (unsigned isNegative) := by
  constructor
  intro s rest n h
  obtain ⟨⟨whole, s₁⟩, hwhole, h⟩ := bind_eq_ok_iff.mp h
  have hlt := progress_wholePart.length_lt hwhole
  have hle := (local_fractionPart.bind fun fraction => local_exponentPart.map fun exponent =>
    (Numeral.mk isNegative whole fraction exponent)).length_le h
  omega

theorem sign_cons {c : Char} (hc : c ≠ '-') (s : List Char) : sign (c :: s) = (false, c :: s) := by
  unfold sign
  split
  · exact absurd (List.cons.inj ‹_›).1 hc
  · rfl

theorem progress_scan : Progress scan := by
  constructor
  intro s rest n h
  cases s with
  | nil => cases h
  | cons c s =>
      by_cases hc : c = '-'
      · subst hc
        exact Nat.lt_succ_of_lt ((progress_unsigned _).length_lt h)
      · unfold scan at h
        rw [sign_cons hc] at h
        exact (progress_unsigned _).length_lt h

theorem local_scan : Local scan := by
  constructor
  · exact fun h => Nat.le_of_lt (progress_scan.length_lt h)
  · intro s rest n h hne t
    cases s with
    | nil => cases h
    | cons c s =>
        by_cases hc : c = '-'
        · subst hc
          exact (local_unsigned true).append h hne t
        · unfold scan at h ⊢
          rw [sign_cons hc] at h
          rw [List.cons_append, sign_cons hc]
          exact (local_unsigned false).append h hne t

theorem skip_eq_ok_iff {s rest : List Char} :
    skip s = .ok ((), rest) ↔ ∃ n, scan s = .ok (n, rest) := by
  unfold skip
  cases scan s with
  | error fault => simp
  | ok r =>
      obtain ⟨n, s'⟩ := r
      simp

theorem local_skip : Local skip := by
  constructor
  · intro s rest x h
    obtain ⟨n, hn⟩ := skip_eq_ok_iff.mp h
    exact local_scan.length_le hn
  · intro s rest x h hne t
    obtain ⟨n, hn⟩ := skip_eq_ok_iff.mp h
    exact skip_eq_ok_iff.mpr ⟨n, local_scan.append hn hne t⟩

theorem progress_skip : Progress skip := by
  constructor
  intro s rest x h
  obtain ⟨n, hn⟩ := skip_eq_ok_iff.mp h
  exact progress_scan.length_lt hn

end Numeral

theorem Number.local_meaning (n : Numeral) :
    Scan.Local fun s => match n.number? with
      | some x => (.ok (x, s) : Except Fault (Number × List Char))
      | none => .error .malformed := by
  cases n.number? with
  | some x => exact (Scan.fixed_ok x).local
  | none => exact Scan.local_error fun _ => .malformed

theorem Number.local_scan : Scan.Local Number.scan := Numeral.local_scan.bind Number.local_meaning

theorem Number.progress_scan : Scan.Progress Number.scan := by
  constructor
  intro s rest n h
  obtain ⟨⟨m, s₁⟩, hm, h⟩ := bind_eq_ok_iff.mp h
  dsimp only at h
  split at h
  · rw [← (Prod.mk.inj (Except.ok.inj h)).2]
    exact Numeral.progress_scan.length_lt hm
  · cases h

end Dependence

import Dependence.Json.Reader
import Dependence.Proofs.Json.Rounds
import Mathlib.Data.List.DropRight

/-! # What is read does not depend on what follows

Properties of a reader of the front of a text, each kept when readers are put together.

* `Fixed`: whatever is put behind a text that is read, the same is read, and what follows is left.
* `Closed`: besides, nothing is read from an empty text.  Such a reader knows where what it reads ends.
* `Local`: the same is read as long as something is left of the text.  A number is read like this, because
  more digits may follow if it stands at the end.
* `Progress`: something is read; and `Shortens`: at least nothing is put back.

A reader that is local and then closed is closed (`Local.bind_closed`), so whatever ends with a bracket, a brace or
a quote is read by a closed reader.  Rounds that are local are closed together if the last one is
(`ClosedRound.repeated`). -/

namespace Dependence
namespace Scan

variable {α β κ σ : Type}

/-- What is read is the same whatever follows. -/
structure Fixed (scan : Scan α) : Prop where
  length_le : ∀ {s rest x}, scan s = .ok (x, rest) → rest.length ≤ s.length
  append : ∀ {s rest x}, scan s = .ok (x, rest) → ∀ t, scan (s ++ t) = .ok (x, rest ++ t)

/-- What is read is the same whatever follows, and it is something. -/
structure Closed (scan : Scan α) : Prop extends Fixed scan where
  nil : ∀ r, scan [] ≠ .ok r

/-- What is read is the same whatever follows, if it does not take the whole text. -/
structure Local (scan : Scan α) : Prop where
  length_le : ∀ {s rest x}, scan s = .ok (x, rest) → rest.length ≤ s.length
  append : ∀ {s rest x}, scan s = .ok (x, rest) → rest ≠ [] → ∀ t, scan (s ++ t) = .ok (x, rest ++ t)

/-- Nothing is put back. -/
structure Shortens (scan : Scan α) : Prop where
  length_le : ∀ {s rest x}, scan s = .ok (x, rest) → rest.length ≤ s.length

/-- Something is read whenever anything is. -/
structure Progress (scan : Scan α) : Prop where
  length_lt : ∀ {s rest x}, scan s = .ok (x, rest) → rest.length < s.length

theorem Fixed.shortens {scan : Scan α} (h : Fixed scan) : Shortens scan := ⟨h.length_le⟩

theorem Local.shortens {scan : Scan α} (h : Local scan) : Shortens scan := ⟨h.length_le⟩

theorem Progress.shortens {scan : Scan α} (h : Progress scan) : Shortens scan :=
  ⟨fun hread => Nat.le_of_lt (h.length_lt hread)⟩

theorem Fixed.local {scan : Scan α} (h : Fixed scan) : Local scan :=
  ⟨h.length_le, fun hread _ => h.append hread⟩

theorem Closed.local {scan : Scan α} (h : Closed scan) : Local scan := h.toFixed.local

theorem ne_nil_of_length_le {s rest : List α} (h : rest.length ≤ s.length) (hne : rest ≠ []) : s ≠ [] := by
  rintro rfl
  exact hne (List.length_eq_zero_iff.mp (Nat.le_zero.mp h))

theorem Closed.ne_nil {scan : Scan α} (h : Closed scan) {s rest : List Char} {x : α}
    (hread : scan s = .ok (x, rest)) : s ≠ [] := by
  rintro rfl
  exact h.nil _ hread

/-! ### Readers one after the other -/

section bind

variable {a : Scan α} {b : α → Scan β}

/-- Only what the first reader yields has to be asked for. -/
theorem Fixed.bind_of (ha : Fixed a) (hb : ∀ {s rest x}, a s = .ok (x, rest) → Fixed (b x)) :
    Fixed fun s => a s >>= fun (x, s) => b x s := by
  constructor
  · intro s rest y h
    obtain ⟨⟨x, s₁⟩, hx, hy⟩ := bind_eq_ok_iff.mp h
    exact Nat.le_trans ((hb hx).length_le hy) (ha.length_le hx)
  · intro s rest y h t
    obtain ⟨⟨x, s₁⟩, hx, hy⟩ := bind_eq_ok_iff.mp h
    exact bind_eq_ok_iff.mpr ⟨(x, s₁ ++ t), ha.append hx t, (hb hx).append hy t⟩

theorem Fixed.bind (ha : Fixed a) (hb : ∀ x, Fixed (b x)) : Fixed fun s => a s >>= fun (x, s) => b x s :=
  ha.bind_of fun _ => hb _

theorem Closed.bind_of (ha : Closed a) (hb : ∀ {s rest x}, a s = .ok (x, rest) → Fixed (b x)) :
    Closed fun s => a s >>= fun (x, s) => b x s := by
  refine ⟨ha.toFixed.bind_of hb, ?_⟩
  intro r h
  obtain ⟨r₁, hx, -⟩ := bind_eq_ok_iff.mp h
  exact ha.nil _ hx

theorem Closed.bind (ha : Closed a) (hb : ∀ x, Fixed (b x)) : Closed fun s => a s >>= fun (x, s) => b x s :=
  ha.bind_of fun _ => hb _

theorem Local.bind (ha : Local a) (hb : ∀ x, Local (b x)) : Local fun s => a s >>= fun (x, s) => b x s := by
  constructor
  · intro s rest y h
    obtain ⟨⟨x, s₁⟩, hx, hy⟩ := bind_eq_ok_iff.mp h
    exact Nat.le_trans ((hb x).length_le hy) (ha.length_le hx)
  · intro s rest y h hne t
    obtain ⟨⟨x, s₁⟩, hx, hy⟩ := bind_eq_ok_iff.mp h
    have hs₁ := ne_nil_of_length_le ((hb x).length_le hy) hne
    exact bind_eq_ok_iff.mpr ⟨(x, s₁ ++ t), ha.append hx hs₁ t, (hb x).append hy hne t⟩

/-- What is read last decides whether the end is known. -/
theorem Local.bind_closed (ha : Local a) (hb : ∀ x, Closed (b x)) :
    Closed fun s => a s >>= fun (x, s) => b x s := by
  refine ⟨⟨(ha.bind fun x => (hb x).local).length_le, ?_⟩, ?_⟩
  · intro s rest y h t
    obtain ⟨⟨x, s₁⟩, hx, hy⟩ := bind_eq_ok_iff.mp h
    exact bind_eq_ok_iff.mpr ⟨(x, s₁ ++ t), ha.append hx ((hb x).ne_nil hy) t, (hb x).append hy t⟩
  · intro r h
    obtain ⟨⟨x, s₁⟩, hx, hy⟩ := bind_eq_ok_iff.mp h
    exact ((hb x).ne_nil hy) (List.length_eq_zero_iff.mp (Nat.le_zero.mp (ha.length_le hx)))

end bind

theorem fixed_ok (x : α) : Fixed fun s => .ok (x, s) := by
  constructor
  · rintro s rest y h
    exact Nat.le_of_eq (congrArg List.length (Prod.mk.inj (Except.ok.inj h)).2).symm
  · rintro s rest y h t
    obtain ⟨rfl, rfl⟩ := Prod.mk.inj (Except.ok.inj h)
    rfl

theorem closed_error (fault : List Char → Fault) : Closed fun s => (.error (fault s) : Except Fault (α × List Char)) := by
  refine ⟨⟨?_, ?_⟩, ?_⟩
  · intro s rest x h
    cases h
  · intro s rest x h
    cases h
  · intro r h
    cases h

theorem fixed_error (fault : List Char → Fault) : Fixed fun s => (.error (fault s) : Except Fault (α × List Char)) :=
  (closed_error fault).toFixed

theorem local_error (fault : List Char → Fault) : Local fun s => (.error (fault s) : Except Fault (α × List Char)) :=
  (closed_error fault).local

theorem Shortens.ite {p : Prop} [Decidable p] {a b : Scan α} (ha : Shortens a) (hb : Shortens b) :
    Shortens fun s => if p then a s else b s := by
  split
  · exact ha
  · exact hb

theorem Fixed.ite {p : Prop} [Decidable p] {a b : Scan α} (ha : Fixed a) (hb : Fixed b) :
    Fixed fun s => if p then a s else b s := by
  split
  · exact ha
  · exact hb

theorem Local.ite {p : Prop} [Decidable p] {a b : Scan α} (ha : Local a) (hb : Local b) :
    Local fun s => if p then a s else b s := by
  split
  · exact ha
  · exact hb

theorem Shortens.map {a : Scan α} (ha : Shortens a) (f : α → β) :
    Shortens fun s => a s >>= fun (x, s) => .ok (f x, s) := by
  constructor
  intro s rest y h
  obtain ⟨⟨x, s₁⟩, hx, hy⟩ := bind_eq_ok_iff.mp h
  cases hy
  exact ha.length_le hx

theorem Local.map {a : Scan α} (ha : Local a) (f : α → β) : Local fun s => a s >>= fun (x, s) => .ok (f x, s) :=
  ha.bind fun x => (fixed_ok (f x)).local

theorem Progress.map {a : Scan α} (ha : Progress a) (f : α → β) :
    Progress fun s => a s >>= fun (x, s) => .ok (f x, s) := by
  constructor
  intro s rest y h
  obtain ⟨⟨x, s₁⟩, hx, hy⟩ := bind_eq_ok_iff.mp h
  cases hy
  exact ha.length_lt hx

theorem Closed.map {a : Scan α} (ha : Closed a) (f : α → β) :
    Closed fun s => a s >>= fun (x, s) => .ok (f x, s) :=
  ha.bind fun x => fixed_ok (f x)

/-- What is read is accepted if it passes its check. -/
theorem checked_eq_ok_iff {a : Scan α} {check : α → Except Mismatch β} {s rest : List Char} {y : β} :
    checked a check s = .ok (y, rest) ↔ ∃ x, a s = .ok (x, rest) ∧ check x = .ok y := by
  constructor
  · intro h
    obtain ⟨⟨x, s₁⟩, hx, h⟩ := bind_eq_ok_iff.mp h
    dsimp only at h
    split at h
    · rename_i z hz
      obtain ⟨rfl, rfl⟩ := Prod.mk.inj (Except.ok.inj h)
      exact ⟨x, hx, hz⟩
    · cases h
  · rintro ⟨x, hx, hy⟩
    simp only [checked, hx, hy, bind, Except.bind]

/-- Only blanks may follow in the end. -/
theorem whole_eq_ok_iff {a : Scan α} {s : List Char} {x : α} :
    whole a s = .ok x ↔ ∃ rest, a s = .ok (x, rest) ∧ skipBlanks rest = [] := by
  constructor
  · intro h
    obtain ⟨⟨y, rest⟩, hy, h⟩ := bind_eq_ok_iff.mp h
    dsimp only at h
    split at h
    · rw [← Except.ok.inj h]
      exact ⟨rest, hy, ‹_›⟩
    · cases h
  · rintro ⟨rest, hx, hrest⟩
    simp only [whole, hx, hrest, bind, Except.bind, if_true]

/-- A check looks only at what is read. -/
theorem fixed_check {check : α → Except Mismatch β} (x : α) :
    Fixed fun s => match check x with
      | .ok y => (.ok (y, s) : Except Fault (β × List Char))
      | .error m => .error (.mismatch m) := by
  cases check x with
  | ok y => exact fixed_ok y
  | error m => exact fixed_error fun _ => .mismatch m

theorem Local.checked {a : Scan α} (ha : Local a) (check : α → Except Mismatch β) : Local (checked a check) :=
  ha.bind fun x => (fixed_check x).local

theorem Progress.checked {a : Scan α} (ha : Progress a) (check : α → Except Mismatch β) :
    Progress (checked a check) := by
  constructor
  intro s rest y h
  obtain ⟨x, hx, -⟩ := checked_eq_ok_iff.mp h
  exact ha.length_lt hx

/-- A reader that reads something may be asked to begin with a certain character. -/
theorem Local.cons {a : Scan α} (ha : Local a) (hprogress : Progress a) (c : Char) : Local fun s => a (c :: s) :=
  ⟨fun h => Nat.le_of_lt_succ (hprogress.length_lt h), fun h => ha.append h⟩

theorem Closed.checked {a : Scan α} (ha : Closed a) (check : α → Except Mismatch β) : Closed (checked a check) :=
  ha.bind fun x => fixed_check x

/-! ### Blanks, keywords and symbols -/

theorem skipBlanks_append {s : List Char} (h : skipBlanks s ≠ []) (t : List Char) :
    skipBlanks (s ++ t) = skipBlanks s ++ t := by
  unfold skipBlanks at h ⊢
  rw [List.dropWhile_append, if_neg]
  rwa [List.isEmpty_iff]

theorem length_skipBlanks_le (s : List Char) : (skipBlanks s).length ≤ s.length :=
  (List.dropWhile_sublist _).length_le

theorem skipBlanks_skipBlanks (s : List Char) : skipBlanks (skipBlanks s) = skipBlanks s :=
  List.dropWhile_idempotent isBlank s

theorem Local.skipBlanks {a : Scan α} (ha : Local a) : Local fun s => a (skipBlanks s) := by
  constructor
  · exact fun h => Nat.le_trans (ha.length_le h) (length_skipBlanks_le _)
  · intro s rest x h hne t
    rw [skipBlanks_append (ne_nil_of_length_le (ha.length_le h) hne)]
    exact ha.append h hne t

section head

variable {k : Char → Scan α}

/-- Reads the first character that is not blank, and then by what it is. -/
def atHead (k : Char → Scan α) : Scan α := fun s =>
  match skipBlanks s with
  | [] => .error .truncated
  | c :: s => k c s

theorem atHead_eq_ok_iff {s : List Char} {r : α × List Char} :
    atHead k s = .ok r ↔ ∃ c s', skipBlanks s = c :: s' ∧ k c s' = .ok r := by
  unfold atHead
  cases skipBlanks s with
  | nil => simp
  | cons c s' =>
      constructor
      · exact fun h => ⟨c, s', rfl, h⟩
      · rintro ⟨c', s'', heq, h⟩
        obtain ⟨rfl, rfl⟩ := List.cons.inj heq
        exact h

theorem progress_atHead (hk : ∀ c, Shortens (k c)) : Progress (atHead k) := by
  constructor
  intro s rest x h
  have hle := length_skipBlanks_le s
  unfold atHead at h
  generalize skipBlanks s = blankless at h hle
  cases blankless with
  | nil => cases h
  | cons c s' =>
      have hrest := (hk c).length_le h
      rw [List.length_cons] at hle
      omega

/-- What follows a text matters to a reader of the first character no more than to what it hands on to. -/
theorem atHead_append {s rest t : List Char} {x : α} (h : atHead k s = .ok (x, rest))
    (hk : ∀ c s', k c s' = .ok (x, rest) → k c (s' ++ t) = .ok (x, rest ++ t)) :
    atHead k (s ++ t) = .ok (x, rest ++ t) := by
  unfold Scan.atHead at h ⊢
  split at h
  · cases h
  · rename_i c s' hs
    rw [skipBlanks_append (by rw [hs]; exact List.cons_ne_nil _ _), hs]
    exact hk c s' h

theorem Local.atHead (hk : ∀ c, Local (k c)) : Local (atHead k) := by
  constructor
  · intro s rest x h
    exact Nat.le_of_lt ((progress_atHead fun c => (hk c).shortens).length_lt h)
  · intro s rest x h hne t
    exact atHead_append h fun c s' h' => (hk c).append h' hne t

theorem Closed.atHead (hk : ∀ c, Fixed (k c)) : Closed (atHead k) := by
  refine ⟨⟨(Local.atHead fun c => (hk c).local).length_le, ?_⟩, ?_⟩
  · intro s rest x h t
    exact atHead_append h fun c s' h' => (hk c).append h' t
  · intro r h
    cases h

end head

theorem fixed_keyword (x : α) : ∀ cs : List Char, Fixed (keyword x cs)
  | [] => fixed_ok x
  | c :: cs => by
      have hcs := fixed_keyword x cs
      constructor
      · intro s rest y h
        cases s with
        | nil => cases h
        | cons d s =>
            rw [keyword] at h
            split at h
            · have hle := hcs.length_le h
              rw [List.length_cons]
              omega
            · cases h
      · intro s rest y h t
        cases s with
        | nil => cases h
        | cons d s =>
            rw [keyword] at h
            split at h
            · rename_i hd
              rw [List.cons_append, keyword, if_pos hd]
              exact hcs.append h t
            · cases h

theorem keyword_eq_ok_iff {x y : α} {cs s rest : List Char} :
    keyword x cs s = .ok (y, rest) ↔ s = cs ++ rest ∧ y = x := by
  induction cs generalizing s with
  | nil =>
      rw [keyword, Except.ok.injEq, Prod.mk.injEq]
      exact ⟨fun h => ⟨h.2, h.1.symm⟩, fun h => ⟨h.2.symm, h.1⟩⟩
  | cons c cs ih =>
      cases s with
      | nil => simp [keyword]
      | cons d s =>
          rw [keyword, List.cons_append, List.cons.injEq]
          split
          · rename_i hc
            rw [ih]
            simp [hc]
          · rename_i hc
            simp [Ne.symm hc]

theorem fixed_expect (c d : Char) :
    Fixed fun s => if c = d then .ok ((), s) else (.error .malformed : Except Fault (Unit × List Char)) :=
  .ite (fixed_ok ()) (fixed_error fun _ => .malformed)

theorem closed_symbol (c : Char) : Closed (symbol c) := .atHead (fixed_expect c)

theorem progress_symbol (c : Char) : Progress (symbol c) := progress_atHead fun d => (fixed_expect c d).shortens

/-- Whether a list goes on is told by the first character that is not blank. -/
theorem more_eq_ok_iff {close : Char} {isFirst goesOn : Bool} {s rest : List Char} :
    more close isFirst s = .ok (goesOn, rest) ↔ ∃ c t, skipBlanks s = c :: t ∧
      if c = close then goesOn = false ∧ rest = c :: t
      else goesOn = true ∧ if isFirst = true then rest = c :: t else c = ',' ∧ rest = t := by
  unfold more
  cases skipBlanks s with
  | nil => simp
  | cons c t =>
      have hpair : ∀ {b : Bool} {u : List Char},
          (Except.ok (b, u) : Except Fault (Bool × List Char)) = .ok (goesOn, rest) ↔ goesOn = b ∧ rest = u :=
        fun {b u} => by rw [Except.ok.injEq, Prod.mk.injEq, eq_comm (a := b), eq_comm (a := u)]
      have hhead : ∀ {P : Char → List Char → Prop}, (∃ d u, c :: t = d :: u ∧ P d u) ↔ P c t := by simp
      rw [hhead]
      dsimp only
      split_ifs with hc hfirst hcomma
      · exact hpair
      · exact hpair
      · rw [and_iff_right hcomma]
        exact hpair
      · simp [hcomma]

theorem closed_more (close : Char) (isFirst : Bool) : Closed (more close isFirst) := by
  refine ⟨⟨?_, ?_⟩, fun _ h => by cases h⟩
  · intro s rest goesOn h
    obtain ⟨c, t, hs, h⟩ := more_eq_ok_iff.mp h
    have hle := length_skipBlanks_le s
    rw [hs] at hle
    split_ifs at h
    · obtain ⟨-, rfl⟩ := h
      exact hle
    · obtain ⟨-, rfl⟩ := h
      exact hle
    · obtain ⟨-, -, rfl⟩ := h
      exact Nat.le_of_succ_le hle
  · intro s rest goesOn h r
    obtain ⟨c, t, hs, h⟩ := more_eq_ok_iff.mp h
    have hs' : skipBlanks (s ++ r) = c :: (t ++ r) := by
      rw [skipBlanks_append (by rw [hs]; exact List.cons_ne_nil _ _), hs, List.cons_append]
    refine more_eq_ok_iff.mpr ⟨c, t ++ r, hs', ?_⟩
    split_ifs at h ⊢
    · exact ⟨h.1, congrArg (· ++ r) h.2⟩
    · exact ⟨h.1, congrArg (· ++ r) h.2⟩
    · exact ⟨h.1, h.2.1, congrArg (· ++ r) h.2.2⟩

theorem symbol_eq_ok_iff {c : Char} {s rest : List Char} {u : Unit} :
    symbol c s = .ok (u, rest) ↔ skipBlanks s = c :: rest := by
  unfold symbol
  split
  · rename_i hs
    simp [hs]
  · rename_i d s' hs
    rw [hs, List.cons.injEq]
    split
    · rename_i hc
      simp [hc]
    · rename_i hc
      simp [Ne.symm hc]

/-- A list ends where its closing character stands. -/
theorem more_eq_false_iff {close : Char} {isFirst : Bool} {s rest : List Char} :
    more close isFirst s = .ok (false, rest) ↔ ∃ t, skipBlanks s = close :: t ∧ rest = close :: t := by
  rw [more_eq_ok_iff]
  constructor
  · rintro ⟨c, t, hs, h⟩
    split_ifs at h with hc
    · exact ⟨t, hc ▸ hs, hc ▸ h.2⟩
    · exact h.1.elim
    · exact h.1.elim
  · rintro ⟨t, hs, hrest⟩
    refine ⟨close, t, hs, ?_⟩
    rw [if_pos rfl]
    exact ⟨rfl, hrest⟩

/-- A list begins where its closing character does not stand. -/
theorem more_first_eq_true_iff {close : Char} {s rest : List Char} :
    more close true s = .ok (true, rest) ↔ ∃ c t, skipBlanks s = c :: t ∧ c ≠ close ∧ rest = c :: t := by
  rw [more_eq_ok_iff]
  refine exists_congr fun c => exists_congr fun t => and_congr_right fun _ => ?_
  by_cases hc : c = close
  · simp [hc]
  · simp [hc]

theorem quoted_eq_ok_iff {string : Scan κ} {s : List Char} {r : κ × List Char} :
    quoted string s = .ok r ↔ ∃ s', skipBlanks s = '"' :: s' ∧ string s' = .ok r := by
  refine (atHead_eq_ok_iff (k := fun c s => if c = '"' then string s else .error .malformed)).trans ?_
  constructor
  · rintro ⟨c, s', hs, h⟩
    split at h
    · rename_i hc
      exact ⟨s', hc ▸ hs, h⟩
    · cases h
  · rintro ⟨s', hs, h⟩
    exact ⟨'"', s', hs, h⟩

/-- The first part of a list is read where the list is. -/
theorem quoted_of_more {close : Char} {string : Scan κ} {s s' : List Char} {r : κ × List Char}
    (hmore : more close true s = .ok (true, s')) (h : quoted string s' = .ok r) : quoted string s = .ok r := by
  obtain ⟨c, t, hs, -, rfl⟩ := more_first_eq_true_iff.mp hmore
  obtain ⟨s'', hs'', hread⟩ := quoted_eq_ok_iff.mp h
  rw [← hs, skipBlanks_skipBlanks] at hs''
  exact quoted_eq_ok_iff.mpr ⟨s'', hs'', hread⟩

/-! ### Repetitions -/

theorem rounds_mono {round : σ → Scan (Round σ α)} :
    ∀ {fuel fuel' : Nat} {state : σ} {s : List Char} {r : α × List Char}, fuel ≤ fuel' →
      rounds round fuel state s = .ok r → rounds round fuel' state s = .ok r
  | 0, _, _, _, _, _, h => by cases h
  | fuel + 1, fuel', state, s, r, hle, h => by
      obtain ⟨more, rfl⟩ : ∃ more, fuel' = more + 1 := ⟨fuel' - 1, by omega⟩
      rw [rounds] at h ⊢
      split at h
      · cases h
      · exact rounds_mono (Nat.le_of_succ_le_succ hle) h
      · exact h

/-- Rounds that are local, of which the last one is closed. -/
structure ClosedRound (round : σ → Scan (Round σ α)) : Prop where
  isLocal : ∀ state, Local (round state)
  last : ∀ {state s x rest}, round state s = .ok (.last x, rest) → ∀ t, round state (s ++ t) = .ok (.last x, rest ++ t)
  nil : ∀ state r, round state [] ≠ .ok r

theorem ClosedRound.rounds {round : σ → Scan (Round σ α)} (h : ClosedRound round) :
    ∀ (fuel : Nat) (state : σ), Closed (rounds round fuel state)
  | 0, _ => closed_error fun _ => .truncated
  | fuel + 1, state => by
      refine ⟨⟨?_, ?_⟩, ?_⟩
      · intro s rest x hread
        rw [Scan.rounds] at hread
        split at hread
        · cases hread
        · rename_i state' s' hround
          exact Nat.le_trans ((h.rounds fuel state').length_le hread) ((h.isLocal state).length_le hround)
        · rename_i y s' hround
          obtain ⟨rfl, rfl⟩ := Prod.mk.inj (Except.ok.inj hread)
          exact (h.isLocal state).length_le hround
      · intro s rest x hread t
        rw [Scan.rounds] at hread ⊢
        split at hread
        · cases hread
        · rename_i state' s' hround
          rw [(h.isLocal state).append hround ((h.rounds fuel state').ne_nil hread)]
          exact (h.rounds fuel state').append hread t
        · rename_i y s' hround
          obtain ⟨rfl, rfl⟩ := Prod.mk.inj (Except.ok.inj hread)
          rw [h.last hround]
      · intro r hread
        rw [Scan.rounds] at hread
        split at hread
        · cases hread
        · exact h.nil _ _ ‹_›
        · exact h.nil _ _ ‹_›

theorem ClosedRound.repeated {round : σ → Scan (Round σ α)} (h : ClosedRound round) (start : σ) :
    Closed (repeated round start) := by
  refine ⟨⟨fun hread => (h.rounds _ start).length_le hread, ?_⟩, fun r => (h.rounds _ start).nil r⟩
  intro s rest x hread t
  exact rounds_mono (by rw [List.length_append]; omega) ((h.rounds _ start).append hread t)

theorem shortens_quoted {string : Scan κ} (h : Shortens string) : Shortens (quoted string) :=
  (progress_atHead fun c => .ite (p := c = '"') h (fixed_error fun _ => .malformed).shortens).shortens

theorem closed_quoted {string : Scan κ} (h : Fixed string) : Closed (quoted string) :=
  .atHead fun _ => .ite h (fixed_error fun _ => .malformed)

end Scan
end Dependence

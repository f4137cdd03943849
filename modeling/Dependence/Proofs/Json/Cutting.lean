import Dependence.Proofs.Json.Lists
import Dependence.Proofs.Json.Tokens
import Dependence.Proofs.Json.Trees

/-! # Texts that break off

What readers make of a text whose end is missing.  `scan.Snaps t` says that the text `t` is found cut short wherever
it is cut.  `scan.Frays t` says that if `t` is cut anywhere, it is found cut short or all that is left of it is read:
so it is with a number, of which every part but the empty one is a number.

A reader that goes on after a text that frays finds it cut short (`Snaps.bind`), because what is read next cannot be
empty.  So lists snap if their entries fray (`snaps_items`). -/

namespace Dependence
namespace Scan

variable {α β σ : Type}

/-- The text is cut short, or all of it is read. -/
def Unfinished (r : Except Fault (α × List Char)) : Prop := r = .error .truncated ∨ ∃ x, r = .ok (x, [])

/-- Of a text that is cut everything is read, or it is found cut short. -/
def Frays (scan : Scan α) (t : List Char) : Prop := ∀ p q, p ++ q = t → Unfinished (scan p)

/-- A text that is cut is found cut short. -/
def Snaps (scan : Scan α) (t : List Char) : Prop := ∀ p q, p ++ q = t → q ≠ [] → scan p = .error .truncated

theorem Ends.of_append {p q : List Char} (h : Ends (p ++ q)) : Ends p := by
  cases p with
  | nil => exact .nil
  | cons c p =>
      generalize hs : c :: p ++ q = s at h
      cases h with
      | nil => cases hs
      | comma s => exact (List.cons.inj hs).1 ▸ .comma p
      | bracket s => exact (List.cons.inj hs).1 ▸ .bracket p
      | brace s => exact (List.cons.inj hs).1 ▸ .brace p

/-! ### Readers one after the other -/

section bind

variable {a : Scan α} {b : α → Scan β} {t u : List Char} {x : α}

/-- A text that is read whole, if only it is there, frays where it snaps. -/
theorem Snaps.frays {scan : Scan α} (h : Snaps scan t) (hread : scan t = .ok (x, [])) : Frays scan t := by
  intro p q hpq
  by_cases hq : q = []
  · rw [hq, List.append_nil] at hpq
    exact .inr ⟨x, hpq ▸ hread⟩
  · exact .inl (h p q hpq hq)

theorem Frays.bind (ha : Snaps a t) (hread : ∀ p q, p ++ q = u → a (t ++ p) = .ok (x, p)) (hb : Frays (b x) u) :
    Frays (fun s => a s >>= fun (x, s) => b x s) (t ++ u) := by
  have hwhole : ∀ p q, p ++ q = u → Unfinished (a (t ++ p) >>= fun (x, s) => b x s) := by
    intro p q hpq
    rw [hread p q hpq]
    exact hb p q hpq
  intro p q hpq
  rcases List.append_eq_append_iff.mp hpq with ⟨r, ht, -⟩ | ⟨r, rfl, hu⟩
  · by_cases hr : r = []
    · subst hr
      rw [List.append_nil] at ht
      have hnil := hwhole [] u rfl
      rwa [List.append_nil, ht] at hnil
    · dsimp only
      rw [ha p r ht.symm hr]
      exact .inl rfl
  · exact hwhole r q hu.symm

/-- The reader that goes on must find something. -/
theorem Snaps.bind (ha : Frays a t) (hread : ∀ p q, p ++ q = u → a (t ++ p) = .ok (x, p))
    (hnil : ∀ y, b y [] = .error .truncated) (hb : Snaps (b x) u) :
    Snaps (fun s => a s >>= fun (x, s) => b x s) (t ++ u) := by
  intro p q hpq hq
  rcases List.append_eq_append_iff.mp hpq with ⟨r, ht, -⟩ | ⟨r, rfl, hu⟩
  · rcases ha p r ht.symm with h | ⟨y, h⟩
    · dsimp only
      rw [h]
      rfl
    · dsimp only
      rw [h]
      exact hnil y
  · dsimp only
    rw [hread r q hu.symm]
    exact hb r q hu.symm hq

theorem Frays.map (ha : Frays a t) (f : α → β) : Frays (fun s => a s >>= fun (x, s) => .ok (f x, s)) t := by
  intro p q hpq
  dsimp only
  rcases ha p q hpq with h | ⟨x, h⟩
  · rw [h]
    exact .inl rfl
  · rw [h]
    exact .inr ⟨f x, rfl⟩

/-- What is done with a value is not done before it is read. -/
theorem Snaps.andThen (ha : Snaps a t) (next : α × List Char → Except Fault (β × List Char)) :
    Snaps (fun s => a s >>= next) t := by
  intro p q hpq hq
  dsimp only
  rw [ha p q hpq hq]
  rfl

end bind

/-! ### Beginnings, keywords and symbols -/

section head

variable {scan g : Scan α} {c : Char} {t : List Char}

theorem Frays.cons (hnil : scan [] = .error .truncated) (hcons : ∀ s, scan (c :: s) = g s) (hg : Frays g t) :
    Frays scan (c :: t) := by
  intro p q hpq
  cases p with
  | nil => exact .inl hnil
  | cons d p =>
      obtain ⟨rfl, ht⟩ := List.cons.inj hpq
      rw [hcons]
      exact hg p q ht

theorem Snaps.cons (hnil : scan [] = .error .truncated) (hcons : ∀ s, scan (c :: s) = g s) (hg : Snaps g t) :
    Snaps scan (c :: t) := by
  intro p q hpq hq
  cases p with
  | nil => exact hnil
  | cons d p =>
      obtain ⟨rfl, ht⟩ := List.cons.inj hpq
      rw [hcons]
      exact hg p q ht hq

theorem snaps_nil (scan : Scan α) : Snaps scan [] := by
  intro p q hpq hq
  exact absurd (List.append_eq_nil_iff.mp hpq).2 hq

theorem snaps_singleton (hnil : scan [] = .error .truncated) (c : Char) : Snaps scan [c] := by
  intro p q hpq hq
  obtain ⟨rfl, -⟩ | ⟨-, rfl⟩ := List.append_eq_singleton_iff.mp hpq
  · exact hnil
  · exact absurd rfl hq

end head

theorem snaps_keyword (x : α) : ∀ cs : List Char, Snaps (keyword x cs) cs
  | [] => snaps_nil _
  | _ :: cs => .cons rfl (fun _ => if_pos rfl) (snaps_keyword x cs)

/-! ### Rounds -/

theorem rounds_nil {round : σ → Scan (Round σ α)} (hnil : ∀ state, round state [] = .error .truncated)
    (fuel : Nat) (state : σ) : rounds round fuel state [] = .error .truncated := by
  cases fuel with
  | zero => rfl
  | succ fuel => rw [rounds, hnil]

/-- A round that is cut short is the end, and so is a round that leaves nothing for the next one. -/
theorem snaps_rounds {round : σ → Scan (Round σ α)} (hnil : ∀ state, round state [] = .error .truncated)
    {state state' : σ} {t u : List Char}
    (hcut : ∀ p q, p ++ q = t → round state p = .error .truncated ∨ ∃ state', round state p = .ok (.again state', []))
    (hread : ∀ p q, p ++ q = u → round state (t ++ p) = .ok (.again state', p))
    (hrest : ∀ fuel, Snaps (rounds round fuel state') u) : ∀ fuel, Snaps (rounds round fuel state) (t ++ u)
  | 0 => fun _ _ _ _ => rfl
  | fuel + 1 => by
      intro p q hpq hq
      rw [rounds]
      rcases List.append_eq_append_iff.mp hpq with ⟨r, ht, -⟩ | ⟨r, rfl, hu⟩
      · rcases hcut p r ht.symm with h | ⟨state'', h⟩
        · rw [h]
        · rw [h]
          exact rounds_nil hnil fuel state''
      · rw [hread r q hu.symm]
        exact hrest fuel r q hu.symm hq

/-! ### Lists -/

section lists

variable {close : Char}

/-- The next text of a list, with the comma before it if it is not the first. -/
def led (isFirst : Bool) (t : List Char) : List Char := if isFirst then t else ',' :: t

theorem remaining_cons (isFirst : Bool) (t : List Char) (ts : List (List Char)) :
    remaining isFirst (t :: ts) = led isFirst t ++ remaining false ts := rfl

/-- If anything is there of the next text of a list, then the list goes on. -/
theorem more_led (hclose : Closes close) {t : List Char} (ht : Begins t) {isFirst : Bool} {p q : List Char}
    (hpq : p ++ q = led isFirst t) :
    p = [] ∨ ∃ p', more close isFirst p = .ok (true, p') ∧ p' ++ q = t := by
  cases p with
  | nil => exact .inl rfl
  | cons c p =>
      cases isFirst with
      | true =>
          obtain ⟨d, t, rfl, hblank, -, hbracket, hbrace⟩ := ht
          obtain ⟨rfl, -⟩ := List.cons.inj hpq
          have hne : c ≠ close := by
            obtain rfl | rfl := hclose
            · exact hbracket
            · exact hbrace
          refine .inr ⟨c :: p, ?_, hpq⟩
          unfold more
          rw [skipBlanks_cons hblank]
          simp [hne]
      | false =>
          obtain ⟨rfl, hp⟩ := List.cons.inj hpq
          have hne : ',' ≠ close := by obtain rfl | rfl := hclose <;> decide
          refine .inr ⟨p, ?_, hp⟩
          unfold more
          rw [skipBlanks_cons rfl]
          simp [hne]

theorem more_led_append (hclose : Closes close) {t : List Char} (ht : Begins t) (isFirst : Bool) (s : List Char) :
    more close isFirst (led isFirst t ++ s) = .ok (true, t ++ s) := by
  have hmore := more_remaining hclose ht isFirst [] s
  rwa [remaining_cons, remaining, List.append_nil, List.nil_append] at hmore

/-- What is left of a list after one of its texts. -/
theorem ends_of_append_eq (hclose : Closes close) {ts : List (List Char)} {p q : List Char}
    (h : p ++ q = remaining false ts ++ [close]) : Ends p :=
  Ends.of_append (h ▸ ends_remaining hclose ts [])

theorem snaps_items {item : Scan α} {text : α → List Char} {xs : List α}
    (haccepts : ∀ x ∈ xs, item.Accepts (text x) x) (hfrays : ∀ x ∈ xs, item.Frays (text x)) :
    Snaps (items item) (Text.separated [','] (xs.map text) ++ [']']) := by
  have hclose : Closes ']' := .inl rfl
  have hnil : ∀ seen, itemRound item seen [] = .error .truncated := fun _ => rfl
  have hrounds : ∀ (seen : List α) (fuel : Nat),
      Snaps (rounds (itemRound item) fuel seen) (remaining seen.isEmpty (xs.map text) ++ [']']) := by
    induction xs with
    | nil => exact fun seen fuel => snaps_singleton (rounds_nil hnil fuel seen) ']'
    | cons x xs ih =>
        intro seen
        have hx := haccepts x List.mem_cons_self
        have hrest := ih (fun y hy => haccepts y (List.mem_cons_of_mem _ hy))
          (fun y hy => hfrays y (List.mem_cons_of_mem _ hy)) (x :: seen)
        rw [List.map_cons, remaining_cons, List.append_assoc]
        refine snaps_rounds hnil ?_ ?_ hrest
        · intro p q hpq
          obtain rfl | ⟨p', hmore, hp'⟩ := more_led hclose hx.begins hpq
          · exact .inl rfl
          · rcases hfrays x List.mem_cons_self p' q hp' with h | ⟨y, h⟩
            · left
              simp only [itemRound, hmore, h, bind, Except.bind, if_true]
            · right
              exact ⟨y :: seen, by simp only [itemRound, hmore, h, bind, Except.bind, if_true]⟩
        · intro p q hpq
          have hends := ends_of_append_eq hclose hpq
          simp only [itemRound, more_led_append hclose hx.begins, hx.scan_eq hends, bind, Except.bind, if_true]
  rw [separated_eq_remaining]
  exact fun p q => hrounds [] p.length p q

end lists
end Scan

/-! ### Strings -/

namespace Quoted

open Scan

theorem snaps_hex4 {a b c d : Char} (ha : a.utf8Size = 1) (hb : b.utf8Size = 1) (hc : c.utf8Size = 1) :
    Snaps hex4 [a, b, c, d] := by
  intro p q hpq hq
  match p with
  | [] => rfl
  | [a'] =>
      simp only [List.cons_append, List.cons.injEq] at hpq
      obtain ⟨rfl, -⟩ := hpq
      simp [hex4, byteCount, ha]
  | [a', b'] =>
      simp only [List.cons_append, List.cons.injEq] at hpq
      obtain ⟨rfl, rfl, -⟩ := hpq
      simp [hex4, byteCount, ha, hb]
  | [a', b', c'] =>
      simp only [List.cons_append, List.cons.injEq] at hpq
      obtain ⟨rfl, rfl, rfl, -⟩ := hpq
      simp [hex4, byteCount, ha, hb, hc]
  | _ :: _ :: _ :: _ :: p =>
      have hlength := congrArg List.length hpq
      have hpos := List.length_pos_iff.mpr hq
      simp only [List.length_append, List.length_cons, List.length_nil] at hlength
      omega

/-- The digits of a control character are ASCII. -/
theorem utf8Size_digitChar : ∀ n < 16, (Nat.digitChar n).utf8Size = 1 := by
  decide

theorem snaps_round_short (seen : List Char) (c : Char) : Snaps (round id numbered seen) ['\\', c] := by
  refine .cons rfl (fun _ => rfl) (Snaps.andThen ?_ _)
  exact snaps_singleton rfl c

theorem snaps_round_escape (seen : List Char) (c : Char) : Snaps (round id numbered seen) (escape c) := by
  unfold escape
  split
  · exact snaps_round_short seen _
  · exact snaps_round_short seen _
  · exact snaps_round_short seen _
  · exact snaps_round_short seen _
  · exact snaps_round_short seen _
  · exact snaps_round_short seen _
  · exact snaps_round_short seen _
  · split
    · rename_i hcontrol
      have hdigit := utf8Size_digitChar (c.toNat / 16) (by omega)
      have hhex : Snaps hex4 ['0', '0', Nat.digitChar (c.toNat / 16), Nat.digitChar (c.toNat % 16)] :=
        snaps_hex4 rfl rfl hdigit
      refine .cons rfl (fun _ => rfl) (Snaps.andThen ?_ _)
      exact .cons rfl (fun _ => rfl) (hhex.andThen _)
    · exact snaps_singleton rfl c

/-- A string is cut short wherever it is cut, inside of an escape as well. -/
theorem snaps_scan (cs : List Char) : Snaps scan (cs.flatMap escape ++ ['"']) := by
  have hnil : ∀ seen, round id numbered seen [] = .error .truncated := fun _ => rfl
  have hrounds : ∀ (seen : List Char) (fuel : Nat),
      Snaps (rounds (round id numbered) fuel seen) (cs.flatMap escape ++ ['"']) := by
    induction cs with
    | nil => exact fun seen fuel => snaps_singleton (rounds_nil hnil fuel seen) '"'
    | cons c cs ih =>
        intro seen
        rw [List.flatMap_cons, List.append_assoc]
        refine snaps_rounds hnil ?_ (fun p _ _ => round_escape c seen p) (ih (c :: seen))
        intro p q hpq
        by_cases hq : q = []
        · subst hq
          rw [List.append_nil] at hpq
          have hround := round_escape c seen []
          rw [List.append_nil, ← hpq] at hround
          exact .inr ⟨c :: seen, hround⟩
        · exact .inl (snaps_round_escape seen c p q hpq hq)
  have hbody : Snaps (body id numbered) (cs.flatMap escape ++ ['"']) := fun p q => hrounds [] p.length p q
  exact hbody.andThen _

theorem snaps_encode (t : String) : Snaps (quoted scan) (encode t) := by
  have hencode : encode t = '"' :: (t.toList.flatMap escape ++ ['"']) := by simp [encode]
  rw [hencode]
  exact .cons rfl (fun _ => rfl) (snaps_scan t.toList)

end Quoted

/-! ### Numbers -/

/-- Of the digits of a number that are not all cut off, those left are the digits of a number that is not greater. -/
theorem exists_toDigits_eq_of_append (n : Nat) {p q : List Char} (hp : p ≠ []) (h : p ++ q = Nat.toDigits 10 n) :
    ∃ m ≤ n, p = Nat.toDigits 10 m := by
  induction n using Nat.strongRecOn generalizing q with
  | ind n ih =>
      by_cases hq : q = []
      · exact ⟨n, Nat.le_refl n, by rw [← h, hq, List.append_nil]⟩
      · by_cases hlt : n < 10
        · rw [Nat.toDigits_of_lt_base hlt] at h
          obtain ⟨rfl, -⟩ | ⟨-, rfl⟩ := List.append_eq_singleton_iff.mp h
          · exact absurd rfl hp
          · exact absurd rfl hq
        · have hdiv : n / 10 < n := Nat.div_lt_self (by omega) (by decide)
          rw [Nat.toDigits_of_base_le (by decide) (by omega)] at h
          obtain ⟨q', c, rfl⟩ := List.eq_nil_or_concat q |>.resolve_left hq
          rw [List.concat_eq_append, ← List.append_assoc] at h
          obtain ⟨h, -⟩ := List.append_inj' h rfl
          obtain ⟨m, hm, rfl⟩ := ih (n / 10) hdiv h
          exact ⟨m, by omega, rfl⟩

end Dependence

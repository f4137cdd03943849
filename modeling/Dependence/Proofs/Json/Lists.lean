import Dependence.Json.Reader
import Dependence.Proofs.Json.Locality
import Dependence.Proofs.Json.Texts
import Mathlib.Data.List.Forall2

/-! # Lists in texts

Arrays and objects are lists of entries: items in brackets, members in braces.  Both are read by the same rounds
(`Scan.entryRound`), so that what holds of lists need not be said twice.

`Scan.Listed` describes the texts of lists without rounds: an entry, then the rest of the list, up to the closing
character.  If every entry takes something of the text, then a list is read just where there is one
(`entries_eq_ok_iff`), and what relates entries relates lists of them (`Listed.follow`). -/

namespace Dependence
namespace Scan

variable {α β γ δ κ κ' : Type}

/-! ### Rounds -/

/-- On texts up to a certain length, what the first reader reads the second one reads likewise. -/
structure Follows (n : Nat) (R : α → β → Prop) (scan : Scan α) (other : Scan β) : Prop where
  follow : ∀ {s rest x}, s.length ≤ n → scan s = .ok (x, rest) → ∃ y, other s = .ok (y, rest) ∧ R x y

theorem Follows.same {R : α → α → Prop} {n : Nat} {scan : Scan α} (h : ∀ x, R x x) : Follows n R scan scan :=
  ⟨fun _ hread => ⟨_, hread, h _⟩⟩

theorem Follows.ite {R : α → β → Prop} {n : Nat} {p : Prop} [Decidable p] {a a' : Scan α} {b b' : Scan β}
    (h : Follows n R a b) (h' : Follows n R a' b') :
    Follows n R (fun s => if p then a s else a' s) fun s => if p then b s else b' s := by
  split
  · exact h
  · exact h'

theorem Follows.map {R : α → β → Prop} {S : γ → δ → Prop} {n : Nat} {a : Scan α} {b : Scan β} {f : α → γ}
    {g : β → δ} (h : Follows n R a b) (hfg : ∀ {x y}, R x y → S (f x) (g y)) :
    Follows n S (fun s => a s >>= fun (x, s) => .ok (f x, s)) fun s => b s >>= fun (y, s) => .ok (g y, s) := by
  constructor
  intro s rest z hn hread
  obtain ⟨⟨x, s₁⟩, hx, hz⟩ := bind_eq_ok_iff.mp hread
  obtain ⟨y, hy, hxy⟩ := h.follow hn hx
  cases hz
  exact ⟨g y, bind_eq_ok_iff.mpr ⟨(y, rest), hy, rfl⟩, hfg hxy⟩

/-- After the first character the text is shorter. -/
theorem Follows.atHead {R : α → β → Prop} {n : Nat} {k : Char → Scan α} {k' : Char → Scan β}
    (h : ∀ c, ∀ m < n, Follows m R (k c) (k' c)) : Follows n R (atHead k) (atHead k') := by
  constructor
  intro s rest x hn hread
  have hle := length_skipBlanks_le s
  unfold Scan.atHead at hread ⊢
  split at hread
  · cases hread
  · rename_i c s' hs
    rw [hs, List.length_cons] at hle
    exact (h c s'.length (by omega)).follow (Nat.le_refl _) hread

/-- Reads a member of an object: its name in quotes, a colon and its value. -/
def member (key : Scan κ) (value : Scan α) : Scan (κ × α) := fun s => do
  let (k, s) ← quoted key s
  let (_, s) ← symbol ':' s
  let (x, s) ← value s
  .ok ((k, x), s)

/-- Reads one more entry of a list, or its closing character. -/
def entryRound (close : Char) (entry : Scan α) (seen : List α) : Scan (Round (List α) (List α)) := fun s => do
  let (goesOn, s) ← more close seen.isEmpty s
  if goesOn then
    let (x, s) ← entry s
    .ok (.again (x :: seen), s)
  else
    let (_, s) ← symbol close s
    .ok (.last seen.reverse, s)

/-- Reads entries up to the closing character. -/
def entries (close : Char) (entry : Scan α) : Scan (List α) := repeated (entryRound close entry) []

theorem memberRound_eq_entryRound (key : Scan κ) (value : Scan α) :
    memberRound key value = entryRound '\x7d' (member key value) := by
  funext seen s
  unfold memberRound entryRound member
  simp only [bind_assoc]
  rfl

theorem members_eq_entries (key : Scan κ) (value : Scan α) :
    members key value = entries '\x7d' (member key value) := by
  unfold members entries
  rw [memberRound_eq_entryRound]

section rounds

variable {close : Char} {entry : Scan α} {seen : List α} {s rest : List Char}

theorem entryRound_eq_again_iff {seen' : List α} :
    entryRound close entry seen s = .ok (.again seen', rest) ↔
      ∃ s₁ x, more close seen.isEmpty s = .ok (true, s₁) ∧ entry s₁ = .ok (x, rest) ∧ seen' = x :: seen := by
  constructor
  · intro h
    obtain ⟨⟨goesOn, s₁⟩, hmore, h⟩ := bind_eq_ok_iff.mp h
    cases goesOn with
    | true =>
        obtain ⟨⟨x, s₂⟩, hx, h⟩ := bind_eq_ok_iff.mp h
        cases h
        exact ⟨s₁, x, hmore, hx, rfl⟩
    | false =>
        obtain ⟨_, -, h⟩ := bind_eq_ok_iff.mp h
        cases h
  · rintro ⟨s₁, x, hmore, hx, rfl⟩
    simp only [entryRound, hmore, hx, bind, Except.bind, if_true]

theorem entryRound_eq_last_iff (hclose : Closes close) {xs : List α} :
    entryRound close entry seen s = .ok (.last xs, rest) ↔ skipBlanks s = close :: rest ∧ xs = seen.reverse := by
  constructor
  · intro h
    obtain ⟨⟨goesOn, s₁⟩, hmore, h⟩ := bind_eq_ok_iff.mp h
    cases goesOn with
    | true =>
        obtain ⟨_, -, h⟩ := bind_eq_ok_iff.mp h
        cases h
    | false =>
        obtain ⟨⟨_, s₂⟩, hsymbol, h⟩ := bind_eq_ok_iff.mp h
        cases h
        obtain ⟨t, hs, rfl⟩ := more_eq_false_iff.mp hmore
        rw [symbol_cons hclose.isBlank_eq] at hsymbol
        cases hsymbol
        exact ⟨hs, rfl⟩
  · rintro ⟨hs, rfl⟩
    have hmore : more close seen.isEmpty s = .ok (false, close :: rest) := more_eq_false_iff.mpr ⟨rest, hs, rfl⟩
    simp only [entryRound, hmore, symbol_cons hclose.isBlank_eq, bind, Except.bind]
    rfl

end rounds

/-! ### Lists without rounds -/

/-- The text of a list, and what is left behind its closing character. -/
inductive Listed (close : Char) (entry : Scan α) : Bool → List Char → List α → List Char → Prop
  | nil {isFirst : Bool} {s rest : List Char} : skipBlanks s = close :: rest → Listed close entry isFirst s [] rest
  | cons {isFirst : Bool} {s s₁ s₂ rest : List Char} {x : α} {xs : List α} :
      more close isFirst s = .ok (true, s₁) → entry s₁ = .ok (x, s₂) → Listed close entry false s₂ xs rest →
        Listed close entry isFirst s (x :: xs) rest

section listed

variable {close : Char} {entry : Scan α}

/-- Where the closing character stands there are no more entries. -/
theorem Listed.of_closed (hclose : Closes close) {isFirst : Bool} {xs : List α} {s rest : List Char}
    (h : Listed close entry isFirst (close :: s) xs rest) : xs = [] ∧ rest = s := by
  have hs := skipBlanks_cons hclose.isBlank_eq s
  cases h with
  | nil hrest =>
      rw [hs] at hrest
      exact ⟨rfl, (List.cons.inj hrest).2.symm⟩
  | cons hmore =>
      have hend : more close isFirst (close :: s) = .ok (false, close :: s) := more_eq_false_iff.mpr ⟨s, hs, rfl⟩
      rw [hend] at hmore
      cases hmore

theorem listed_of_rounds (hclose : Closes close) :
    ∀ {fuel : Nat} {seen xs : List α} {s rest : List Char},
      rounds (entryRound close entry) fuel seen s = .ok (xs, rest) →
        ∃ ys, xs = seen.reverse ++ ys ∧ Listed close entry seen.isEmpty s ys rest
  | 0, _, _, _, _, h => by cases h
  | fuel + 1, seen, xs, s, rest, h => by
      rw [rounds] at h
      split at h
      · cases h
      · rename_i seen' s' hround
        obtain ⟨s₁, x, hmore, hx, rfl⟩ := entryRound_eq_again_iff.mp hround
        obtain ⟨ys, rfl, hlisted⟩ := listed_of_rounds hclose h
        refine ⟨x :: ys, ?_, .cons hmore hx hlisted⟩
        rw [List.reverse_cons, List.append_assoc, List.singleton_append]
      · rename_i ys s' hround
        obtain ⟨rfl, rfl⟩ := Prod.mk.inj (Except.ok.inj h)
        obtain ⟨hs, rfl⟩ := (entryRound_eq_last_iff hclose).mp hround
        exact ⟨[], (List.append_nil _).symm, .nil hs⟩

theorem Listed.settles (hclose : Closes close) (hprogress : Progress entry) {isFirst : Bool} {xs : List α}
    {s rest : List Char} (h : Listed close entry isFirst s xs rest) :
    ∀ seen : List α, seen.isEmpty = isFirst →
      Settles (entryRound close entry) seen s (seen.reverse ++ xs) rest := by
  induction h with
  | nil hs =>
      intro seen _
      rw [List.append_nil]
      refine .last ((entryRound_eq_last_iff hclose).mpr ⟨hs, rfl⟩) ?_
      rintro rfl
      cases hs
  | @cons _ s s₁ s₂ rest x xs hmore hx _ ih =>
      intro seen hseen
      subst hseen
      have hrest := ih (x :: seen) rfl
      rw [List.reverse_cons, List.append_assoc, List.singleton_append] at hrest
      refine .again (entryRound_eq_again_iff.mpr ⟨s₁, x, hmore, hx, rfl⟩) ?_ hrest
      exact Nat.lt_of_lt_of_le (hprogress.length_lt hx) ((closed_more close _).length_le hmore)

/-- A list is read where there is one. -/
theorem entries_eq_ok_iff (hclose : Closes close) (hprogress : Progress entry) {s rest : List Char}
    {xs : List α} : entries close entry s = .ok (xs, rest) ↔ Listed close entry true s xs rest := by
  constructor
  · intro h
    obtain ⟨ys, rfl, hlisted⟩ := listed_of_rounds hclose h
    exact hlisted
  · exact fun h => (h.settles hclose hprogress [] rfl).repeated_eq

/-- What relates entries relates lists of them. -/
theorem Listed.follow {other : Scan β} {R : α → β → Prop} (hprogress : Progress entry) {n : Nat}
    (hentry : Follows n R entry other) {isFirst : Bool} {xs : List α} {s rest : List Char}
    (h : Listed close entry isFirst s xs rest) :
    s.length ≤ n → ∃ ys, Listed close other isFirst s ys rest ∧ List.Forall₂ R xs ys := by
  induction h with
  | nil hs => exact fun _ => ⟨[], .nil hs, .nil⟩
  | cons hmore hx _ ih =>
      intro hn
      have hs₁ := Nat.le_trans ((closed_more close _).length_le hmore) hn
      obtain ⟨y, hy, hxy⟩ := hentry.follow hs₁ hx
      obtain ⟨ys, hys, hxys⟩ := ih (Nat.le_trans (Nat.le_of_lt (hprogress.length_lt hx)) hs₁)
      exact ⟨y :: ys, .cons hmore hy hys, .cons hxy hxys⟩

theorem Follows.entries {other : Scan β} {R : α → β → Prop} {n : Nat} (hclose : Closes close)
    (hprogress : Progress entry) (hother : Progress other) (h : Follows n R entry other) :
    Follows n (List.Forall₂ R) (entries close entry) (entries close other) := by
  constructor
  intro s rest xs hn hread
  have hlisted := (entries_eq_ok_iff hclose hprogress).mp hread
  obtain ⟨ys, hys, hxys⟩ := hlisted.follow hprogress h hn
  exact ⟨ys, (entries_eq_ok_iff hclose hother).mpr hys, hxys⟩

theorem Listed.length_lt (hprogress : Progress entry) {isFirst : Bool} {xs : List α} {s rest : List Char}
    (h : Listed close entry isFirst s xs rest) : rest.length < s.length := by
  induction h with
  | @nil _ s rest hs =>
      have hle := length_skipBlanks_le s
      rw [hs] at hle
      exact hle
  | cons hmore hx _ ih =>
      have hle := (closed_more close _).length_le hmore
      have hlt := hprogress.length_lt hx
      omega

theorem progress_entries (hclose : Closes close) (hprogress : Progress entry) : Progress (entries close entry) :=
  ⟨fun h => ((entries_eq_ok_iff hclose hprogress).mp h).length_lt hprogress⟩

theorem closedRound_entryRound (hentry : Local entry) : ClosedRound (entryRound close entry) := by
  have hlast : ∀ seen : List α, Closed fun s => symbol close s >>= fun (_, s) =>
      (.ok (.last seen.reverse, s) : Except Fault (Round (List α) (List α) × List Char)) :=
    fun seen => (closed_symbol close).map fun _ => Round.last seen.reverse
  refine ⟨?_, ?_, ?_⟩
  · intro seen
    have hagain := hentry.map fun x : α => (Round.again (x :: seen) : Round (List α) (List α))
    exact (closed_more close seen.isEmpty).local.bind fun goesOn =>
      .ite (p := goesOn = true) hagain (hlast seen).local
  · intro seen s x rest hread t
    obtain ⟨⟨goesOn, s₁⟩, hmore, hread⟩ := bind_eq_ok_iff.mp hread
    refine bind_eq_ok_iff.mpr ⟨(goesOn, s₁ ++ t), (closed_more close seen.isEmpty).append hmore t, ?_⟩
    cases goesOn with
    | true =>
        obtain ⟨⟨y, s₂⟩, -, hagain⟩ := bind_eq_ok_iff.mp hread
        cases hagain
    | false => exact (hlast seen).append hread t
  · intro seen r hread
    cases hread

theorem closed_entries (hentry : Local entry) : Closed (entries close entry) :=
  (closedRound_entryRound hentry).repeated []

end listed

theorem local_member {key : Scan κ} {value : Scan α} (hkey : Fixed key) (hvalue : Local value) :
    Local (member key value) :=
  (closed_quoted hkey).local.bind fun k => (closed_symbol ':').local.bind fun _ => hvalue.map fun x => (k, x)

theorem progress_member {key : Scan κ} {value : Scan α} (hkey : Shortens key) (hvalue : Progress value) :
    Progress (member key value) := by
  constructor
  intro s rest x h
  obtain ⟨⟨k, s₁⟩, hk, h⟩ := bind_eq_ok_iff.mp h
  obtain ⟨⟨_, s₂⟩, hcolon, h⟩ := bind_eq_ok_iff.mp h
  obtain ⟨⟨y, s₃⟩, hy, h⟩ := bind_eq_ok_iff.mp h
  cases h
  have hs₁ := (shortens_quoted hkey).length_le hk
  have hs₂ := (progress_symbol ':').length_lt hcolon
  exact Nat.lt_trans (hvalue.length_lt hy) (Nat.lt_of_lt_of_le hs₂ hs₁)

theorem Follows.quoted {key : Scan κ} {other : Scan β} {K : κ → β → Prop} {n : Nat} (h : Follows n K key other) :
    Follows n K (quoted key) (quoted other) := by
  show Follows n K (Scan.atHead fun c s => if c = '"' then key s else .error .malformed)
    (Scan.atHead fun c s => if c = '"' then other s else .error .malformed)
  refine .atHead ?_
  intro c m hm
  constructor
  intro s rest k hs hread
  split at hread
  · rename_i hc
    rw [if_pos hc]
    exact h.follow (Nat.le_trans hs (Nat.le_of_lt hm)) hread
  · cases hread

theorem Follows.member {key : Scan κ} {value : Scan α} {key' : Scan κ'} {value' : Scan β} {K : κ → κ' → Prop}
    {R : α → β → Prop} {n : Nat} (hshortens : Shortens key) (hkey : Follows n K key key')
    (hvalue : Follows n R value value') :
    Follows n (fun m m' => K m.1 m'.1 ∧ R m.2 m'.2) (member key value) (member key' value') := by
  constructor
  intro s rest m hn h
  obtain ⟨⟨k, s₁⟩, hk, h⟩ := bind_eq_ok_iff.mp h
  obtain ⟨⟨_, s₂⟩, hcolon, h⟩ := bind_eq_ok_iff.mp h
  obtain ⟨⟨x, s₃⟩, hx, h⟩ := bind_eq_ok_iff.mp h
  cases h
  have hs₁ := (shortens_quoted hshortens).length_le hk
  have hs₂ := Nat.le_of_lt ((progress_symbol ':').length_lt hcolon)
  obtain ⟨k', hk', hkk'⟩ := hkey.quoted.follow hn hk
  obtain ⟨x', hx', hxx'⟩ := hvalue.follow (Nat.le_trans hs₂ (Nat.le_trans hs₁ hn)) hx
  refine ⟨(k', x'), ?_, hkk', hxx'⟩
  simp only [Scan.member, hk', hcolon, hx', bind, Except.bind]

theorem closed_items {item : Scan α} (h : Local item) : Closed (items item) := closed_entries h

theorem closed_members {key : Scan κ} {value : Scan α} (hkey : Fixed key) (hvalue : Local value) :
    Closed (members key value) := by
  rw [members_eq_entries]
  exact closed_entries (local_member hkey hvalue)

end Scan
end Dependence

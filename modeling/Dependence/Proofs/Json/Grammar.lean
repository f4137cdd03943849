import Dependence.Proofs.Json.Lists
import Dependence.Proofs.Json.Tokens

/-! # Readers of any JSON

All readers that take any JSON share one grammar, `Builder.scan`.  `Builder.Reads` is this grammar without a reader: a
text is read just as it says (`Advances.scan_eq_ok_iff`).  What is read does not depend on what follows if this is so for
numbers and strings (`Steady.local_scan`).

Two readers take the same texts if they take the same numbers, strings and keys: `Builder.Simulates K R b b'` says that
whatever `b` reads `b'` reads likewise, up to a relation of what they make of it, and then this is so for whole texts
(`Simulates.scan`).  A depth that exceeds the length of the text is no bound (`Advances.scan_mono`), so passing over a
value does not depend on how long the text is (`Json.local_skip`). -/

namespace Dependence
namespace Builder

variable {α β κ κ' : Type}

/-- Reads an array or an object after its first character. -/
def nested (b : Builder α κ) : Nat → Char → Scan α
  | 0, _ => fun _ => .error .malformed
  | depth + 1, c => fun s =>
      if c = '[' then do
        let (xs, s) ← Scan.items (b.scan depth) s
        .ok (b.array xs, s)
      else if c = '\x7b' then do
        let (xs, s) ← Scan.members b.key (b.scan depth) s
        .ok (b.object xs, s)
      else .error .malformed

/-- Reads a JSON text after its first character. -/
def afterHead (b : Builder α κ) (depth : Nat) (c : Char) : Scan α := fun s =>
  if c = 'n' then Scan.keyword b.null "ull".toList s
  else if c = 't' then Scan.keyword (b.boolean true) "rue".toList s
  else if c = 'f' then Scan.keyword (b.boolean false) "alse".toList s
  else if c = '"' then b.string s
  else if startsNumeral c then b.number (c :: s)
  else b.nested depth c s

theorem scan_eq_atHead (b : Builder α κ) (depth : Nat) : b.scan depth = Scan.atHead (b.afterHead depth) := by
  funext s
  unfold Scan.atHead
  rw [scan]
  cases Scan.skipBlanks s with
  | nil => rfl
  | cons c s =>
      cases depth with
      | zero => rfl
      | succ depth => rfl

variable {b : Builder α κ}

theorem scan_skipBlanks (depth : Nat) (s : List Char) : b.scan depth (Scan.skipBlanks s) = b.scan depth s := by
  rw [scan_eq_atHead]
  unfold Scan.atHead
  rw [Scan.skipBlanks_skipBlanks]

/-! ### Progress -/

/-- No reader of a part puts anything back, and a number is something. -/
structure Advances (b : Builder α κ) : Prop where
  progress_number : Scan.Progress b.number
  shortens_string : Scan.Shortens b.string
  shortens_key : Scan.Shortens b.key

/-- Only arrays and objects are read by a reader of their items. -/
theorem Advances.shortens_afterHead (h : b.Advances) {depth : Nat} {c : Char}
    (hnested : Scan.Shortens (b.nested depth c)) : Scan.Shortens (b.afterHead depth c) :=
  .ite (p := c = 'n') (Scan.fixed_keyword b.null _).shortens <|
    .ite (p := c = 't') (Scan.fixed_keyword (b.boolean true) _).shortens <|
    .ite (p := c = 'f') (Scan.fixed_keyword (b.boolean false) _).shortens <|
    .ite (p := c = '"') h.shortens_string <|
    .ite (p := startsNumeral c = true) ⟨fun hread => Nat.le_of_lt_succ (h.progress_number.length_lt hread)⟩ hnested

theorem Advances.shortens_nested (h : b.Advances) : ∀ (depth : Nat) (c : Char), Scan.Shortens (b.nested depth c)
  | 0, _ => (Scan.fixed_error fun _ => .malformed).shortens
  | depth + 1, c => by
      have hitem : Scan.Progress (b.scan depth) := by
        rw [scan_eq_atHead]
        exact Scan.progress_atHead fun c => h.shortens_afterHead (h.shortens_nested depth c)
      have hitems := Scan.progress_entries (.inl rfl : Scan.Closes ']') hitem
      have hmembers := Scan.progress_entries (.inr rfl : Scan.Closes '\x7d') (Scan.progress_member h.shortens_key hitem)
      rw [← Scan.members_eq_entries] at hmembers
      exact .ite (p := c = '[') (hitems.shortens.map b.array) <|
        .ite (p := c = '\x7b') (hmembers.shortens.map b.object) <|
        (Scan.fixed_error fun _ => .malformed).shortens

theorem Advances.progress_scan (h : b.Advances) (depth : Nat) : Scan.Progress (b.scan depth) := by
  rw [scan_eq_atHead]
  exact Scan.progress_atHead fun c => h.shortens_afterHead (h.shortens_nested depth c)

/-! ### Texts that are read -/

theorem ne_of_startsNumeral {c d : Char} (hc : startsNumeral c = true) (hd : startsNumeral d = false) : c ≠ d := by
  rintro rfl
  rw [hc] at hd
  cases hd

/-- What a builder makes of a text whose arrays and objects are nested at most to a depth, and what is left of the
text behind it. -/
inductive Reads (b : Builder α κ) (s : List Char) : Nat → α → List Char → Prop
  | null {depth : Nat} {rest : List Char} :
      Scan.skipBlanks s = 'n' :: ("ull".toList ++ rest) → Reads b s depth b.null rest
  | isTrue {depth : Nat} {rest : List Char} :
      Scan.skipBlanks s = 't' :: ("rue".toList ++ rest) → Reads b s depth (b.boolean true) rest
  | isFalse {depth : Nat} {rest : List Char} :
      Scan.skipBlanks s = 'f' :: ("alse".toList ++ rest) → Reads b s depth (b.boolean false) rest
  | string {depth : Nat} {s' rest : List Char} {x : α} :
      Scan.skipBlanks s = '"' :: s' → b.string s' = .ok (x, rest) → Reads b s depth x rest
  | number {depth : Nat} {c : Char} {s' rest : List Char} {x : α} :
      Scan.skipBlanks s = c :: s' → startsNumeral c = true → b.number (c :: s') = .ok (x, rest) → Reads b s depth x rest
  | array {depth : Nat} {s' rest : List Char} {xs : List α} :
      Scan.skipBlanks s = '[' :: s' → Scan.Listed ']' (b.scan depth) true s' xs rest →
        Reads b s (depth + 1) (b.array xs) rest
  | object {depth : Nat} {s' rest : List Char} {ms : List (κ × α)} :
      Scan.skipBlanks s = '\x7b' :: s' → Scan.Listed '\x7d' (Scan.member b.key (b.scan depth)) true s' ms rest →
        Reads b s (depth + 1) (b.object ms) rest

theorem Advances.items_eq_ok_iff (h : b.Advances) {depth : Nat} {s rest : List Char} {xs : List α} :
    Scan.items (b.scan depth) s = .ok (xs, rest) ↔ Scan.Listed ']' (b.scan depth) true s xs rest :=
  Scan.entries_eq_ok_iff (.inl rfl) (h.progress_scan depth)

theorem Advances.members_eq_ok_iff (h : b.Advances) {depth : Nat} {s rest : List Char} {ms : List (κ × α)} :
    Scan.members b.key (b.scan depth) s = .ok (ms, rest) ↔
      Scan.Listed '\x7d' (Scan.member b.key (b.scan depth)) true s ms rest := by
  rw [Scan.members_eq_entries]
  exact Scan.entries_eq_ok_iff (.inr rfl) (Scan.progress_member h.shortens_key (h.progress_scan depth))

theorem Reads.scan_eq {depth : Nat} {s rest : List Char} {x : α} (h : b.Advances) (hread : b.Reads s depth x rest) :
    b.scan depth s = .ok (x, rest) := by
  rw [scan_eq_atHead, Scan.atHead]
  cases hread with
  | null hs =>
      rw [hs]
      exact Scan.keyword_eq_ok_iff.mpr ⟨rfl, rfl⟩
  | isTrue hs =>
      rw [hs]
      exact Scan.keyword_eq_ok_iff.mpr ⟨rfl, rfl⟩
  | isFalse hs =>
      rw [hs]
      exact Scan.keyword_eq_ok_iff.mpr ⟨rfl, rfl⟩
  | string hs hx =>
      rw [hs]
      exact hx
  | number hs hc hx =>
      have hn := ne_of_startsNumeral hc (show startsNumeral 'n' = false by decide)
      have ht := ne_of_startsNumeral hc (show startsNumeral 't' = false by decide)
      have hf := ne_of_startsNumeral hc (show startsNumeral 'f' = false by decide)
      have hquote := ne_of_startsNumeral hc (show startsNumeral '"' = false by decide)
      rw [hs]
      simp only [afterHead, hn, ht, hf, hquote, hc, if_true, if_false]
      exact hx
  | array hs hlisted =>
      rw [hs]
      exact bind_eq_ok_iff.mpr ⟨_, h.items_eq_ok_iff.mpr hlisted, rfl⟩
  | object hs hlisted =>
      rw [hs]
      exact bind_eq_ok_iff.mpr ⟨_, h.members_eq_ok_iff.mpr hlisted, rfl⟩

theorem Advances.reads_of_nested (h : b.Advances) {s s' rest : List Char} {x : α} {c : Char}
    (hs : Scan.skipBlanks s = c :: s') : ∀ {depth : Nat}, b.nested depth c s' = .ok (x, rest) → b.Reads s depth x rest
  | 0, hread => by cases hread
  | depth + 1, hread => by
      rw [nested] at hread
      split at hread
      · rename_i hc
        subst hc
        obtain ⟨⟨xs, s₁⟩, hxs, hread⟩ := bind_eq_ok_iff.mp hread
        cases hread
        exact .array hs (h.items_eq_ok_iff.mp hxs)
      · split at hread
        · rename_i hc
          subst hc
          obtain ⟨⟨ms, s₁⟩, hms, hread⟩ := bind_eq_ok_iff.mp hread
          cases hread
          exact .object hs (h.members_eq_ok_iff.mp hms)
        · cases hread

/-- A text is read just as its grammar says. -/
theorem Advances.scan_eq_ok_iff (h : b.Advances) {depth : Nat} {s rest : List Char} {x : α} :
    b.scan depth s = .ok (x, rest) ↔ b.Reads s depth x rest := by
  refine ⟨?_, Reads.scan_eq h⟩
  intro hread
  rw [scan_eq_atHead] at hread
  unfold Scan.atHead at hread
  split at hread
  · cases hread
  · rename_i c s' hs
    unfold afterHead at hread
    split at hread
    · rename_i hc
      subst hc
      obtain ⟨rfl, rfl⟩ := Scan.keyword_eq_ok_iff.mp hread
      exact .null hs
    · split at hread
      · rename_i hc
        subst hc
        obtain ⟨rfl, rfl⟩ := Scan.keyword_eq_ok_iff.mp hread
        exact .isTrue hs
      · split at hread
        · rename_i hc
          subst hc
          obtain ⟨rfl, rfl⟩ := Scan.keyword_eq_ok_iff.mp hread
          exact .isFalse hs
        · split at hread
          · rename_i hc
            subst hc
            exact .string hs hread
          · split at hread
            · rename_i hc
              exact .number hs hc hread
            · exact h.reads_of_nested hs hread

/-! ### What follows a text -/

/-- What is read of numbers, strings and keys does not depend on what follows. -/
structure Steady (b : Builder α κ) : Prop where
  local_number : Scan.Local b.number
  progress_number : Scan.Progress b.number
  fixed_string : Scan.Fixed b.string
  fixed_key : Scan.Fixed b.key

theorem Steady.advances (h : b.Steady) : b.Advances :=
  ⟨h.progress_number, h.fixed_string.shortens, h.fixed_key.shortens⟩

theorem Steady.local_afterHead (h : b.Steady) {depth : Nat} {c : Char} (hnested : Scan.Local (b.nested depth c)) :
    Scan.Local (b.afterHead depth c) :=
  .ite (p := c = 'n') (Scan.fixed_keyword b.null _).local <|
    .ite (p := c = 't') (Scan.fixed_keyword (b.boolean true) _).local <|
    .ite (p := c = 'f') (Scan.fixed_keyword (b.boolean false) _).local <|
    .ite (p := c = '"') h.fixed_string.local <|
    .ite (p := startsNumeral c = true) (h.local_number.cons h.progress_number c) hnested

theorem Steady.local_nested (h : b.Steady) : ∀ (depth : Nat) (c : Char), Scan.Local (b.nested depth c)
  | 0, _ => Scan.local_error fun _ => .malformed
  | depth + 1, c => by
      have hitem : Scan.Local (b.scan depth) := by
        rw [scan_eq_atHead]
        exact .atHead fun c => h.local_afterHead (h.local_nested depth c)
      exact .ite (p := c = '[') ((Scan.closed_items hitem).map b.array).local <|
        .ite (p := c = '\x7b') ((Scan.closed_members h.fixed_key hitem).map b.object).local <|
        Scan.local_error fun _ => .malformed

theorem Steady.local_scan (h : b.Steady) (depth : Nat) : Scan.Local (b.scan depth) := by
  rw [scan_eq_atHead]
  exact .atHead fun c => h.local_afterHead (h.local_nested depth c)

/-! ### Two builders side by side -/

/-- What the first builder reads the second one reads likewise, and what they make of it is related. -/
structure Simulates (K : κ → κ' → Prop) (R : α → β → Prop) (b : Builder α κ) (b' : Builder β κ') : Prop where
  null : R b.null b'.null
  boolean : ∀ x, R (b.boolean x) (b'.boolean x)
  number : ∀ n, Scan.Follows n R b.number b'.number
  string : ∀ n, Scan.Follows n R b.string b'.string
  key : ∀ n, Scan.Follows n K b.key b'.key
  array : ∀ {xs ys}, List.Forall₂ R xs ys → R (b.array xs) (b'.array ys)
  object : ∀ {xs ys}, List.Forall₂ (fun m m' => K m.1 m'.1 ∧ R m.2 m'.2) xs ys → R (b.object xs) (b'.object ys)

variable {b' : Builder β κ'} {K : κ → κ' → Prop} {R : α → β → Prop}

theorem follows_keyword {x : α} {y : β} (hxy : R x y) (cs : List Char) (n : Nat) :
    Scan.Follows n R (Scan.keyword x cs) (Scan.keyword y cs) := by
  constructor
  intro s rest z _ h
  obtain ⟨hs, rfl⟩ := Scan.keyword_eq_ok_iff.mp h
  exact ⟨y, Scan.keyword_eq_ok_iff.mpr ⟨hs, rfl⟩, hxy⟩

theorem Simulates.afterHead (h : b.Simulates K R b') {depth depth' : Nat} {c : Char} {n : Nat}
    (hnested : Scan.Follows n R (b.nested depth c) (b'.nested depth' c)) :
    Scan.Follows n R (b.afterHead depth c) (b'.afterHead depth' c) := by
  have hnumber : Scan.Follows n R (fun s => b.number (c :: s)) fun s => b'.number (c :: s) :=
    ⟨fun _ hread => (h.number _).follow (Nat.le_refl _) hread⟩
  exact .ite (p := c = 'n') (follows_keyword h.null _ n) <|
    .ite (p := c = 't') (follows_keyword (h.boolean true) _ n) <|
    .ite (p := c = 'f') (follows_keyword (h.boolean false) _ n) <|
    .ite (p := c = '"') (h.string n) <|
    .ite (p := startsNumeral c = true) hnumber hnested

theorem Simulates.nested (h : b.Simulates K R b') (hb : b.Advances) (hb' : b'.Advances) :
    ∀ {depth depth' n : Nat}, min depth n ≤ depth' → ∀ c, ∀ m < n,
      Scan.Follows m R (b.nested depth c) (b'.nested depth' c)
  | 0, _, _, _, _, _, _ => ⟨fun _ hread => by cases hread⟩
  | depth + 1, depth', n, hdepth, c, m, hm => by
      obtain ⟨depth', rfl⟩ : ∃ d, depth' = d + 1 := ⟨depth' - 1, by omega⟩
      have hitem : Scan.Follows m R (b.scan depth) (b'.scan depth') := by
        rw [scan_eq_atHead, scan_eq_atHead]
        exact .atHead fun c m' hm' => h.afterHead (h.nested hb hb' (by omega) c m' hm')
      have hbracket : Scan.Closes ']' := .inl rfl
      have hbrace : Scan.Closes '\x7d' := .inr rfl
      have hitems := hitem.entries hbracket (hb.progress_scan depth) (hb'.progress_scan depth')
      have hmember := Scan.Follows.member hb.shortens_key (h.key m) hitem
      have hmembers := hmember.entries hbrace
        (Scan.progress_member hb.shortens_key (hb.progress_scan depth))
        (Scan.progress_member hb'.shortens_key (hb'.progress_scan depth'))
      rw [← Scan.members_eq_entries, ← Scan.members_eq_entries] at hmembers
      exact .ite (p := c = '[') (hitems.map h.array) <| .ite (p := c = '\x7b') (hmembers.map h.object) <|
        ⟨fun _ hread => by cases hread⟩

/-- The depth of the second builder must not be less than that of the first one and the length of the text. -/
theorem Simulates.scan (h : b.Simulates K R b') (hb : b.Advances) (hb' : b'.Advances) {depth depth' n : Nat}
    (hdepth : min depth n ≤ depth') : Scan.Follows n R (b.scan depth) (b'.scan depth') := by
  rw [scan_eq_atHead, scan_eq_atHead]
  exact .atHead fun c m hm => h.afterHead (h.nested hb hb' hdepth c m hm)

/-- Builders that make the same of the same parts, of which the second one reads whatever the first one reads. -/
theorem simulates_eq {b b' : Builder α κ} (hnull : b.null = b'.null) (hboolean : b.boolean = b'.boolean)
    (hnumber : ∀ n, Scan.Follows n Eq b.number b'.number) (hstring : ∀ n, Scan.Follows n Eq b.string b'.string)
    (hkey : ∀ n, Scan.Follows n Eq b.key b'.key) (harray : b.array = b'.array) (hobject : b.object = b'.object) :
    b.Simulates Eq Eq b' := by
  refine ⟨hnull, congrFun hboolean, hnumber, hstring, hkey, ?_, ?_⟩
  · intro xs ys hxys
    rw [List.forall₂_eq_eq_eq] at hxys
    rw [harray, hxys]
  · intro xs ys hxys
    have heq : xs = ys := List.forall₂_eq_eq_eq ▸ hxys.imp fun _ _ hm => Prod.ext hm.1 hm.2
    rw [hobject, heq]

/-- How deep a reader may go does not matter once it is more than the text is long. -/
theorem Advances.scan_mono (h : b.Advances) {depth depth' : Nat} {s : List Char} {r : α × List Char}
    (hdepth : min depth s.length ≤ depth') (hread : b.scan depth s = .ok r) : b.scan depth' s = .ok r := by
  have hself : b.Simulates Eq Eq b :=
    simulates_eq rfl rfl (fun _ => .same fun _ => rfl) (fun _ => .same fun _ => rfl) (fun _ => .same fun _ => rfl) rfl rfl
  obtain ⟨x, hx, rfl⟩ := (hself.scan h h hdepth).follow (Nat.le_refl _) hread
  exact hx

end Builder

/-! ### Passing over a text -/

namespace Json

theorem steady_nothing : nothing.Steady :=
  ⟨Numeral.local_skip, Numeral.progress_skip, Quoted.closed_skip.toFixed, Quoted.closed_skip.toFixed⟩

theorem steady_tree : tree.Steady :=
  ⟨Number.local_scan.map Json.number, Number.progress_scan.map Json.number, (Quoted.closed_scan.map Json.string).toFixed,
    Quoted.closed_scan.toFixed⟩

/-- Passing over a value does not depend on what follows, as long as anything does. -/
theorem local_skip : Scan.Local skip := by
  constructor
  · exact fun h => (steady_nothing.local_scan _).length_le h
  · intro s rest x h hne t
    have happend := (steady_nothing.local_scan _).append h hne t
    exact steady_nothing.advances.scan_mono (Nat.min_le_right _ _) happend

end Json
end Dependence

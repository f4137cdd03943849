import Dependence.Proofs.Json.Texts

/-! # Trees that are read back

A natural number that fits into 64 bits is read back from its digits (`Number.scan_toDigits`): they
are digits, the first of them is zero only if it is the last, and nothing that can follow a value could
belong to a number.

`v.Fits d` says that a tree has only such numbers, and that its arrays and objects are nested at most to
the depth `d`.  A reader that goes to this depth accepts its compact text (`Json.Fits.accepts`). -/

namespace Dependence

/-! ### Numbers -/

theorem ne_of_isDigit {c d : Char} (hc : c.isDigit = true) (hd : d.isDigit = false) : c ≠ d := by
  rintro rfl
  rw [hc] at hd
  cases hd

theorem isBlank_of_isDigit {c : Char} (hc : c.isDigit = true) : Scan.isBlank c = false := by
  simp [Scan.isBlank, ne_of_isDigit hc]

/-- A natural number has at least one digit. -/
theorem exists_toDigits_eq_cons (n : Nat) : ∃ d ds, Nat.toDigits 10 n = d :: ds ∧ d.isDigit = true := by
  obtain ⟨d, ds, hd⟩ := List.exists_cons_of_ne_nil (Nat.toDigits_ne_nil (n := n) (b := 10))
  exact ⟨d, ds, hd, Nat.isDigit_of_mem_toDigits (by decide) (by decide) (hd ▸ List.mem_cons_self)⟩

namespace Numeral

/-- No digit follows. -/
def Stops (rest : List Char) : Prop := ∀ c, rest.head? = some c → c.isDigit = false

theorem stops_of_ends {rest : List Char} (h : Scan.Ends rest) : Stops rest := by
  intro c hc
  cases h with
  | nil => cases hc
  | comma s => rw [← Option.some.inj hc]; rfl
  | bracket s => rw [← Option.some.inj hc]; rfl
  | brace s => rw [← Option.some.inj hc]; rfl

theorem digits_append {ds rest : List Char} (hds : ∀ c ∈ ds, c.isDigit = true) (hne : ds ≠ [])
    (hrest : Stops rest) : digits (ds ++ rest) = .ok (ds, rest) := by
  have htake : (ds ++ rest).takeWhile Char.isDigit = ds := by
    rw [List.takeWhile_append_of_pos hds]
    cases rest with
    | nil => simp
    | cons c rest => simp [hrest c rfl]
  have hdrop : (ds ++ rest).dropWhile Char.isDigit = rest := by
    rw [List.dropWhile_append_of_pos hds]
    cases rest with
    | nil => simp
    | cons c rest => simp [hrest c rfl]
  obtain ⟨c, ds, rfl⟩ := List.exists_cons_of_ne_nil hne
  rw [List.cons_append] at htake hdrop ⊢
  simp only [digits, htake, hdrop, hds c List.mem_cons_self, if_true]

/-- Only zero is written with a leading zero. -/
theorem toDigits_ne_zero_cons {n : Nat} (hn : 0 < n) (ds : List Char) : Nat.toDigits 10 n ≠ '0' :: ds := by
  induction n using Nat.strongRecOn generalizing ds with
  | ind n ih =>
      intro h
      by_cases hlt : n < 10
      · have hdigit : ∀ m < 10, 0 < m → Nat.digitChar m ≠ '0' := by decide
        rw [Nat.toDigits_of_lt_base hlt] at h
        exact hdigit n hlt hn (List.cons.inj h).1
      · have hdiv : n / 10 < n := Nat.div_lt_self hn (by decide)
        have hpos : 0 < n / 10 := Nat.div_pos (by omega) (by decide)
        obtain ⟨d, more, hd, -⟩ := exists_toDigits_eq_cons (n / 10)
        rw [Nat.toDigits_of_base_le (by decide) (by omega), hd, List.cons_append] at h
        refine ih (n / 10) hdiv hpos more ?_
        rw [hd, (List.cons.inj h).1]

theorem wholePart_toDigits (n : Nat) {rest : List Char} (hrest : Scan.Ends rest) :
    wholePart (Nat.toDigits 10 n ++ rest) = .ok (Nat.toDigits 10 n, rest) := by
  have hds : ∀ c ∈ Nat.toDigits 10 n, c.isDigit = true := fun c hc =>
    Nat.isDigit_of_mem_toDigits (by decide) (by decide) hc
  by_cases hn : n = 0
  · subst hn
    rw [Nat.toDigits_zero]
    cases hrest <;> rfl
  · unfold wholePart
    split
    · rename_i c s hs
      obtain ⟨d, ds, hd, -⟩ := exists_toDigits_eq_cons n
      rw [hd, List.cons_append] at hs
      rw [(List.cons.inj hs).1] at hd
      exact absurd hd (toDigits_ne_zero_cons (Nat.pos_of_ne_zero hn) ds)
    · exact digits_append hds Nat.toDigits_ne_nil (stops_of_ends hrest)

/-- The digits of a natural number are a numeral without sign, point and exponent. -/
theorem scan_toDigits (n : Nat) {rest : List Char} (hrest : Scan.Ends rest) :
    scan (Nat.toDigits 10 n ++ rest) =
      .ok ({ isNegative := false, whole := Nat.toDigits 10 n }, rest) := by
  have hsign : sign (Nat.toDigits 10 n ++ rest) = (false, Nat.toDigits 10 n ++ rest) := by
    unfold sign
    split
    · rename_i s hs
      obtain ⟨d, ds, hd, hdigit⟩ := exists_toDigits_eq_cons n
      rw [hd, List.cons_append] at hs
      exact absurd (List.cons.inj hs).1 (ne_of_isDigit hdigit rfl)
    · rfl
  have hfraction : fractionPart rest = .ok (none, rest) := by cases hrest <;> rfl
  have hexponent : exponentPart rest = .ok (none, rest) := by cases hrest <;> rfl
  unfold scan
  rw [hsign]
  simp only [wholePart_toDigits n hrest, hfraction, hexponent, bind, Except.bind]

end Numeral

/-- A natural number that fits into 64 bits is read back from its digits. -/
theorem Number.scan_toDigits {n : Nat} (hn : n < UInt64.size) {rest : List Char}
    (hrest : Scan.Ends rest) :
    Number.scan (Nat.toDigits 10 n ++ rest) = .ok (.integer n, rest) := by
  have hnumber : Numeral.number? { isNegative := false, whole := Nat.toDigits 10 n } =
      some (.integer n) := by
    unfold Numeral.number? Numeral.integer? Numeral.valueOf
    rw [Nat.ofDigitChars_ten_toDigits]
    simp [hn]
  unfold Number.scan
  rw [Numeral.scan_toDigits n hrest]
  simp only [bind, Except.bind, hnumber]

/-- The text of a natural number. -/
theorem Number.text_natural (n : Nat) : (Number.integer n).text = Nat.toDigits 10 n :=
  Nat.toList_repr

theorem Scan.begins_toDigits (n : Nat) : Begins (Nat.toDigits 10 n) := by
  obtain ⟨d, ds, hd, hdigit⟩ := exists_toDigits_eq_cons n
  exact ⟨d, ds, hd, isBlank_of_isDigit hdigit, ne_of_isDigit hdigit rfl, ne_of_isDigit hdigit rfl,
    ne_of_isDigit hdigit rfl⟩

/-- A reader that hands numerals on accepts a natural number. -/
theorem Scan.accepts_toDigits {α : Type} {scan f : Scan α} {n : Nat} {x : α}
    (hscan : ∀ c s, c.isDigit = true → scan (c :: s) = f (c :: s))
    (hf : ∀ {rest : List Char}, Ends rest → f (Nat.toDigits 10 n ++ rest) = .ok (x, rest)) :
    scan.Accepts (Nat.toDigits 10 n) x := by
  refine ⟨begins_toDigits n, ?_⟩
  intro rest hends
  have hrest := hf hends
  obtain ⟨d, ds, hd, hdigit⟩ := exists_toDigits_eq_cons n
  rw [hd, List.cons_append] at hrest ⊢
  rw [hscan d _ hdigit, hrest]

/-! ### Trees -/

namespace Json

/-- A tree with natural numbers of 64 bits only, whose arrays and objects are nested at most to a
certain depth. -/
inductive Fits : Nat → Json → Prop
  | null {d : Nat} : Fits d .null
  | boolean {d : Nat} (b : Bool) : Fits d (.boolean b)
  | natural {d n : Nat} : n < UInt64.size → Fits d (.number (.integer n))
  | string {d : Nat} (s : String) : Fits d (.string s)
  | array {d : Nat} {items : List Json} : (∀ item ∈ items, Fits d item) → Fits (d + 1) (.array items)
  | object {d : Nat} {members : List (String × Json)} :
      (∀ member ∈ members, Fits d member.2) → Fits (d + 1) (.object members)

/-- The texts of the members of an object. -/
def memberTexts (members : List (String × Json)) : List (List Char) :=
  members.map fun member => Scan.memberText member.1 member.2.compact

theorem compactItems_eq_map : ∀ items, compactItems items = items.map compact
  | [] => rfl
  | item :: items => by rw [compactItems, compactItems_eq_map items, List.map_cons]

theorem compactMembers_eq : ∀ members, compactMembers members = memberTexts members
  | [] => rfl
  | (name, value) :: members => by
      rw [compactMembers, compactMembers_eq members]
      rfl

theorem compact_string (s : String) (rest : List Char) :
    (Json.string s).compact ++ rest = '"' :: (s.toList.flatMap Quoted.escape ++ '"' :: rest) := by
  show Quoted.encode s ++ rest = _
  simp [Quoted.encode]

theorem compact_array (items : List Json) (rest : List Char) :
    (Json.array items).compact ++ rest =
      '[' :: (Text.separated [','] (items.map compact) ++ ']' :: rest) := by
  show '[' :: Text.separated [','] (compactItems items) ++ [']'] ++ rest = _
  simp [compactItems_eq_map]

theorem compact_object (members : List (String × Json)) (rest : List Char) :
    (Json.object members).compact ++ rest =
      '\x7b' :: (Text.separated [','] (memberTexts members) ++ '\x7d' :: rest) := by
  show '\x7b' :: Text.separated [','] (compactMembers members) ++ ['\x7d'] ++ rest = _
  simp [compactMembers_eq]

/-! Strings, arrays and objects begin with a character of their own. -/

theorem begins_string (s : String) : Scan.Begins (Json.string s).compact :=
  ⟨'"', _, rfl, rfl, by decide, by decide, by decide⟩

theorem begins_array (items : List Json) : Scan.Begins (Json.array items).compact :=
  ⟨'[', _, rfl, rfl, by decide, by decide, by decide⟩

theorem begins_object (members : List (String × Json)) : Scan.Begins (Json.object members).compact :=
  ⟨'\x7b', _, rfl, rfl, by decide, by decide, by decide⟩

/-- The reader of trees reads a tree back from its compact text. -/
theorem Fits.accepts {d : Nat} {v : Json} (h : v.Fits d) : (tree.scan d).Accepts v.compact v := by
  induction h with
  | null =>
      refine ⟨⟨'n', _, rfl, rfl, by decide, by decide, by decide⟩, ?_⟩
      intro rest _
      rw [Builder.scan]
      exact Scan.keyword_append Json.null "ull".toList rest
  | boolean b =>
      cases b with
      | true =>
          refine ⟨⟨'t', _, rfl, rfl, by decide, by decide, by decide⟩, ?_⟩
          intro rest _
          rw [Builder.scan]
          exact Scan.keyword_append (Json.boolean true) "rue".toList rest
      | false =>
          refine ⟨⟨'f', _, rfl, rfl, by decide, by decide, by decide⟩, ?_⟩
          intro rest _
          rw [Builder.scan]
          exact Scan.keyword_append (Json.boolean false) "alse".toList rest
  | @natural d n hn =>
      have htext : (Json.number (.integer n)).compact = Nat.toDigits 10 n := Number.text_natural n
      rw [htext]
      refine Scan.accepts_toDigits (f := tree.number) ?_ ?_
      · intro c s hdigit
        have hstart : Builder.startsNumeral c = true := by simp [Builder.startsNumeral, hdigit]
        rw [Builder.scan, Scan.skipBlanks_cons (isBlank_of_isDigit hdigit)]
        simp only [ne_of_isDigit hdigit (d := 'n') rfl, ne_of_isDigit hdigit (d := 't') rfl,
          ne_of_isDigit hdigit (d := 'f') rfl, ne_of_isDigit hdigit (d := '"') rfl, hstart, if_true, if_false]
      · intro rest hends
        show (Number.scan _ >>= _) = _
        rw [Number.scan_toDigits hn hends]
        rfl
  | string s =>
      refine ⟨begins_string s, ?_⟩
      intro rest _
      rw [compact_string, Builder.scan, Scan.skipBlanks_cons rfl]
      show (Quoted.scan _ >>= _) = _
      rw [Quoted.scan_encoded]
      rfl
  | @array d items _ ih =>
      refine ⟨begins_array items, ?_⟩
      intro rest _
      rw [compact_array, Builder.scan, Scan.skipBlanks_cons rfl]
      show (Scan.items (tree.scan d) _ >>= _) = _
      rw [Scan.items_separated ih]
      rfl
  | @object d members _ ih =>
      refine ⟨begins_object members, ?_⟩
      intro rest _
      have hmembers : Scan.members Quoted.scan (tree.scan d)
          (Text.separated [','] (memberTexts members) ++ '\x7d' :: rest) = .ok (members, rest) :=
        Scan.members_separated ih rest
      rw [compact_object, Builder.scan, Scan.skipBlanks_cons rfl]
      show (Scan.members Quoted.scan (tree.scan d) _ >>= _) = _
      rw [hmembers]
      rfl

/-- A tree within the depth that readers go to is the tree of its text. -/
theorem Fits.parse_text {v : Json} (h : v.Fits maxDepth) : parse v.text = .ok v := by
  have hscan := h.accepts.scan_eq .nil
  rw [List.append_nil] at hscan
  unfold parse Scan.whole text Json.scan
  rw [String.toList_ofList, hscan]
  rfl

end Json
end Dependence

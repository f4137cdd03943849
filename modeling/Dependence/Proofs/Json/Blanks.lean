import Dependence.Proofs.Json.Outline
import Dependence.Proofs.Json.Peeking

/-! # Blanks mean nothing

`Json.tighten` takes the blanks out of a text that stand outside its strings.  What has a tree has the same tree without
these blanks (`Json.parse_tight`), so texts that differ in blanks only do not have different trees.

The end of a number is told by what follows it, and a blank may stand there.  Without the blank there stands a comma
or a closing character, which cannot belong to a number either; so a reader keeps this if something that can follow a
value follows (`Scan.Tightens`). -/

namespace Dependence

namespace Json

open Scan

/-! ### Texts without blanks -/

/-- Where a character stands. -/
inductive Place
  | outside
  | inside
  /-- After a backslash in a string. -/
  | escaped

/-- The rest of a text without the blanks outside its strings. -/
def tighten : Place → List Char → List Char
  | _, [] => []
  | .outside, c :: s =>
    if isBlank c then tighten .outside s else c :: tighten (if c = '"' then .inside else .outside) s
  | .inside, c :: s => c :: tighten (if c = '"' then .outside else if c = '\\' then .escaped else .inside) s
  | .escaped, c :: s => c :: tighten .inside s

/-- A text without the blanks outside its strings. -/
def tight (t : String) : String := String.ofList (tighten .outside t.toList)

theorem tighten_quote (s : List Char) : tighten .outside ('"' :: s) = '"' :: tighten .inside s := rfl

theorem tighten_cons {c : Char} (hc : Solid c) (s : List Char) :
    tighten .outside (c :: s) = c :: tighten .outside s := by
  rw [tighten, if_neg (by simp [hc.1]), if_neg hc.2]

theorem tighten_append {p : List Char} (hp : ∀ c ∈ p, Solid c) (s : List Char) :
    tighten .outside (p ++ s) = p ++ tighten .outside s := by
  induction p with
  | nil => rfl
  | cons c p ih =>
      obtain ⟨hc, hp⟩ := List.forall_mem_cons.mp hp
      rw [List.cons_append, tighten_cons hc, ih hp, List.cons_append]

theorem tighten_skipBlanks (s : List Char) : tighten .outside (skipBlanks s) = tighten .outside s := by
  induction s with
  | nil => rfl
  | cons c s ih =>
      unfold skipBlanks at ih ⊢
      rw [List.dropWhile_cons]
      split
      · rename_i hc
        rw [ih, tighten, if_pos hc]
      · rfl

theorem skipBlanks_tighten (s : List Char) : skipBlanks (tighten .outside s) = tighten .outside s := by
  induction s with
  | nil => rfl
  | cons c s ih =>
      rw [tighten]
      split
      · exact ih
      · rename_i hc
        exact skipBlanks_cons (by simpa using hc) _

theorem tighten_of_skipBlanks {c : Char} {s rest : List Char} (hs : skipBlanks s = c :: rest) (hc : Solid c) :
    skipBlanks (tighten .outside s) = c :: tighten .outside rest := by
  rw [skipBlanks_tighten, ← tighten_skipBlanks, hs, tighten_cons hc]

theorem tighten_string {s rest : List Char} (hs : skipBlanks s = '"' :: rest) :
    skipBlanks (tighten .outside s) = '"' :: tighten .inside rest := by
  rw [skipBlanks_tighten, ← tighten_skipBlanks, hs, tighten_quote]

end Json

/-! ### Strings -/

namespace Quoted

open Scan Json

theorem tighten_inside {c : Char} (hquote : c ≠ '"') (hbackslash : c ≠ '\\') (s : List Char) :
    tighten .inside (c :: s) = c :: tighten .inside s := by
  rw [tighten, if_neg hquote, if_neg hbackslash]

theorem tighten_hexValue {c : Char} {n : Nat} (h : hexValue c = some n) (s : List Char) :
    tighten .inside (c :: s) = c :: tighten .inside s := by
  refine tighten_inside ?_ ?_ s
  · rintro rfl
    cases (show hexValue '"' = none by decide) ▸ h
  · rintro rfl
    cases (show hexValue '\\' = none by decide) ▸ h

theorem hex4_tighten {n : Nat} {s rest : List Char} (h : hex4 s = .ok (n, rest)) :
    hex4 (tighten .inside s) = .ok (n, tighten .inside rest) := by
  unfold hex4 at h
  split at h
  · rename_i a b c d s
    split at h
    · rename_i hvalue
      obtain ⟨rfl, rfl⟩ := Prod.mk.inj (Except.ok.inj h)
      have hvalues := hvalue
      unfold hexValue4 at hvalues
      obtain ⟨a', ha, hvalues⟩ := Option.bind_eq_some_iff.mp hvalues
      obtain ⟨b', hb, hvalues⟩ := Option.bind_eq_some_iff.mp hvalues
      obtain ⟨c', hc, hvalues⟩ := Option.bind_eq_some_iff.mp hvalues
      obtain ⟨d', hd, -⟩ := Option.bind_eq_some_iff.mp hvalues
      rw [tighten_hexValue ha, tighten_hexValue hb, tighten_hexValue hc, tighten_hexValue hd]
      simp only [hex4, hvalue]
    · cases h
  · split at h <;> cases h

theorem lowHalf_tighten {high : Nat} {c : Char} {s rest : List Char} (h : lowHalf high s = .ok (c, rest)) :
    lowHalf high (tighten .inside s) = .ok (c, tighten .inside rest) := by
  unfold lowHalf at h
  split at h
  · cases h
  · cases h
  · obtain ⟨⟨low, s₁⟩, hlow, h⟩ := bind_eq_ok_iff.mp h
    refine bind_eq_ok_iff.mpr ⟨(low, tighten .inside s₁), hex4_tighten hlow, ?_⟩
    dsimp only at h ⊢
    split at h
    · rename_i hlow
      obtain ⟨rfl, rfl⟩ := Prod.mk.inj (Except.ok.inj h)
      rw [if_pos hlow]
    · cases h
  · cases h

theorem numbered_tighten {c : Char} {s rest : List Char} (h : numbered s = .ok (c, rest)) :
    numbered (tighten .inside s) = .ok (c, tighten .inside rest) := by
  obtain ⟨⟨n, s₁⟩, hn, h⟩ := bind_eq_ok_iff.mp h
  refine bind_eq_ok_iff.mpr ⟨(n, tighten .inside s₁), hex4_tighten hn, ?_⟩
  dsimp only at h ⊢
  split at h
  · cases h
  · rename_i hlow
    rw [if_neg hlow]
    split at h
    · rename_i hhigh
      rw [if_pos hhigh]
      exact lowHalf_tighten h
    · rename_i hhigh
      obtain ⟨rfl, rfl⟩ := Prod.mk.inj (Except.ok.inj h)
      rw [if_neg hhigh]

theorem escaped_tighten {c : Char} {s rest : List Char} (h : escaped id numbered s = .ok (c, rest)) :
    escaped id numbered (tighten .escaped s) = .ok (c, tighten .inside rest) := by
  cases s with
  | nil => cases h
  | cons d s =>
      rw [tighten]
      unfold escaped at h ⊢
      dsimp only at h ⊢
      split at h
      · rename_i hd
        rw [if_pos hd]
        exact numbered_tighten h
      · rename_i hd
        rw [if_neg hd]
        split at h
        · rename_i hshort
          obtain ⟨rfl, rfl⟩ := Prod.mk.inj (Except.ok.inj h)
          rfl
        · cases h

theorem round_tighten {seen seen' : List Char} {s rest : List Char}
    (h : round id numbered seen s = .ok (.again seen', rest)) :
    round id numbered seen (tighten .inside s) = .ok (.again seen', tighten .inside rest) := by
  unfold round at h
  split at h
  · cases h
  · cases h
  · obtain ⟨⟨c, s₁⟩, hc, h⟩ := bind_eq_ok_iff.mp h
    cases h
    exact bind_eq_ok_iff.mpr ⟨(c, tighten .inside rest), escaped_tighten hc, rfl⟩
  · rename_i c s hquote hbackslash
    split at h
    · cases h
    · rename_i hplain
      cases h
      rw [tighten_inside hquote hbackslash, round]
      · exact if_neg hplain
      · exact hquote
      · exact hbackslash

theorem round_last_eq {α : Type} {plain : Char → α} {byNumber : Scan α} {seen xs : List α} {s rest : List Char}
    (h : round plain byNumber seen s = .ok (.last xs, rest)) : s = '"' :: rest ∧ xs = seen.reverse := by
  unfold round at h
  split at h
  · cases h
  · cases h
    exact ⟨rfl, rfl⟩
  · obtain ⟨_, -, h⟩ := bind_eq_ok_iff.mp h
    cases h
  · split at h <;> cases h

theorem progress_round (seen : List Char) : Progress (round id numbered seen) := by
  constructor
  intro s rest r h
  have hescaped := (closed_escaped id closed_numbered.toFixed).toFixed.shortens
  unfold round at h
  split at h
  · cases h
  · cases h
    exact Nat.lt_succ_self _
  · obtain ⟨⟨c, s₁⟩, hc, h⟩ := bind_eq_ok_iff.mp h
    cases h
    exact Nat.lt_succ_of_le (hescaped.length_le hc)
  · split at h
    · cases h
    · cases h
      exact Nat.lt_succ_self _

/-- A string is read in the same rounds without the blanks behind it. -/
theorem settles_tighten : ∀ {fuel : Nat} {seen cs : List Char} {s rest : List Char},
    rounds (round id numbered) fuel seen s = .ok (cs, rest) →
      Settles (round id numbered) seen (tighten .inside s) cs (tighten .outside rest)
  | 0, _, _, _, _, h => by cases h
  | fuel + 1, seen, cs, s, rest, h => by
      rw [rounds] at h
      split at h
      · cases h
      · rename_i hround
        have hround' := round_tighten hround
        exact .again hround' ((progress_round _).length_lt hround') (settles_tighten h)
      · rename_i hround
        obtain ⟨rfl, rfl⟩ := Prod.mk.inj (Except.ok.inj h)
        obtain ⟨rfl, rfl⟩ := round_last_eq hround
        exact .last rfl (List.cons_ne_nil _ _)

theorem scan_tighten {t : String} {s rest : List Char} (h : scan s = .ok (t, rest)) :
    scan (tighten .inside s) = .ok (t, tighten .outside rest) := by
  obtain ⟨⟨cs, s'⟩, hcs, h⟩ := bind_eq_ok_iff.mp h
  cases h
  exact bind_eq_ok_iff.mpr ⟨(cs, _), (settles_tighten hcs).repeated_eq, rfl⟩

end Quoted

/-! ### Lists and trees -/

namespace Scan

variable {α κ : Type}

open Json

/-- What is read is read in the same way without the blanks, if only something that can follow a value follows. -/
structure Tightens (scan : Scan α) : Prop where
  tighten : ∀ {s rest x}, scan s = .ok (x, rest) → Ends (tighten .outside rest) →
    scan (tighten .outside s) = .ok (x, tighten .outside rest)

theorem isBlank_of_skipBlanks {c : Char} {s rest : List Char} (hs : skipBlanks s = c :: rest) : isBlank c = false := by
  have hnot := List.head?_dropWhile_not isBlank s
  rw [show s.dropWhile isBlank = c :: rest from hs] at hnot
  simpa using hnot

theorem Closes.solid {close : Char} (h : Closes close) : Solid close := by
  obtain rfl | rfl := h
  · exact (by decide)
  · exact (by decide)

theorem solid_comma : Solid ',' := (by decide)

theorem more_rest_eq_true_iff {close : Char} (hclose : Closes close) {s rest : List Char} :
    more close false s = .ok (true, rest) ↔ skipBlanks s = ',' :: rest := by
  have hcomma : ',' ≠ close := by
    rintro rfl
    obtain h | h := hclose <;> cases h
  unfold more
  cases skipBlanks s with
  | nil => simp
  | cons c t =>
      by_cases hc : c = close
      · simp [hc, hcomma.symm]
      · by_cases hc' : c = ','
        · simp [hc', hcomma]
        · simp [hc, hc']

/-- The rest of a list can follow a value. -/
theorem Listed.ends {close : Char} (hclose : Closes close) {entry : Scan α} {s rest : List Char} {xs : List α}
    (h : Listed close entry false s xs rest) : Ends (tighten .outside s) := by
  rw [← skipBlanks_tighten]
  cases h with
  | nil hs =>
      rw [tighten_of_skipBlanks hs hclose.solid]
      obtain rfl | rfl := hclose
      · exact .bracket _
      · exact .brace _
  | cons hmore =>
      rw [tighten_of_skipBlanks ((more_rest_eq_true_iff hclose).mp hmore) solid_comma]
      exact .comma _

theorem more_tighten {close : Char} (hclose : Closes close) {isFirst : Bool} {s rest : List Char}
    (h : more close isFirst s = .ok (true, rest)) :
    more close isFirst (tighten .outside s) = .ok (true, tighten .outside rest) := by
  cases isFirst with
  | true =>
      obtain ⟨c, t, hs, hc, rfl⟩ := more_first_eq_true_iff.mp h
      have hrest : Json.tighten .outside (c :: t) = c :: Json.tighten (if c = '"' then .inside else .outside) t := by
        rw [Json.tighten, if_neg (by simp [isBlank_of_skipBlanks hs])]
      refine more_first_eq_true_iff.mpr ⟨c, _, ?_, hc, hrest⟩
      rw [skipBlanks_tighten, ← tighten_skipBlanks, hs, hrest]
  | false =>
      rw [more_rest_eq_true_iff hclose] at h ⊢
      exact tighten_of_skipBlanks h solid_comma

theorem Listed.tighten {close : Char} (hclose : Closes close) {entry : Scan α} (hentry : Tightens entry)
    {isFirst : Bool} {s rest : List Char} {xs : List α} (h : Listed close entry isFirst s xs rest) :
    Listed close entry isFirst (tighten .outside s) xs (tighten .outside rest) := by
  induction h with
  | nil hs => exact .nil (tighten_of_skipBlanks hs hclose.solid)
  | cons hmore hx hrest ih => exact .cons (more_tighten hclose hmore) (hentry.tighten hx (hrest.ends hclose)) ih

theorem Tightens.member {value : Scan α} (h : Tightens value) : Tightens (member Quoted.scan value) := by
  constructor
  intro s rest m hread hends
  obtain ⟨⟨name, s₁⟩, hname, hread⟩ := bind_eq_ok_iff.mp hread
  obtain ⟨⟨_, s₂⟩, hcolon, hread⟩ := bind_eq_ok_iff.mp hread
  obtain ⟨⟨x, s₃⟩, hx, hread⟩ := bind_eq_ok_iff.mp hread
  cases hread
  obtain ⟨s', hs, hname⟩ := quoted_eq_ok_iff.mp hname
  refine bind_eq_ok_iff.mpr ⟨_, quoted_eq_ok_iff.mpr ⟨_, tighten_string hs, Quoted.scan_tighten hname⟩, ?_⟩
  have hcolon' := tighten_of_skipBlanks (symbol_eq_ok_iff.mp hcolon) (by decide)
  refine bind_eq_ok_iff.mpr ⟨((), _), symbol_eq_ok_iff.mpr hcolon', ?_⟩
  exact bind_eq_ok_iff.mpr ⟨_, h.tighten hx hends, rfl⟩

end Scan

namespace Json

open Scan

theorem tighten_keyword {c : Char} {cs s rest : List Char} (hs : skipBlanks s = c :: (cs ++ rest))
    (hc : ∀ d ∈ c :: cs, Solid d) : skipBlanks (tighten .outside s) = c :: (cs ++ tighten .outside rest) := by
  obtain ⟨hhead, htail⟩ := List.forall_mem_cons.mp hc
  rw [tighten_of_skipBlanks hs hhead, tighten_append htail]

/-- A number is read in the same way if nothing but blanks stands between it and what follows. -/
theorem number_tighten {n : Number} {c : Char} {s s' rest : List Char} (hs : skipBlanks s = c :: s')
    (hn : Number.scan (c :: s') = .ok (n, rest)) (hends : Ends (tighten .outside rest)) :
    ∃ s'', skipBlanks (tighten .outside s) = c :: s'' ∧ Number.scan (c :: s'') = .ok (n, tighten .outside rest) := by
  obtain ⟨p, hp, hsolid, hread⟩ := Number.peeks_scan.peek hn
  have hlt := Number.progress_scan.length_lt hn
  cases p with
  | nil =>
      rw [hp] at hlt
      exact absurd hlt (Nat.lt_irrefl _)
  | cons d p =>
      obtain ⟨rfl, hs'⟩ := List.cons.inj hp
      refine ⟨p ++ tighten .outside rest, ?_, hread _ (.inr hends)⟩
      rw [skipBlanks_tighten, ← tighten_skipBlanks, hs, hp, tighten_append hsolid, List.cons_append]

/-- A tree is read in the same way without the blanks. -/
theorem tightens_scan (depth : Nat) : Tightens (tree.scan depth) := by
  induction depth using Nat.strongRecOn with
  | ind depth ih =>
      constructor
      intro s rest v h hends
      refine steady_tree.advances.scan_eq_ok_iff.mpr ?_
      cases steady_tree.advances.scan_eq_ok_iff.mp h with
      | null hs => exact .null (tighten_keyword hs (by simp [Solid, isBlank]))
      | isTrue hs => exact .isTrue (tighten_keyword hs (by simp [Solid, isBlank]))
      | isFalse hs => exact .isFalse (tighten_keyword hs (by simp [Solid, isBlank]))
      | string hs hx =>
          obtain ⟨t, ht, rfl⟩ := string_eq_ok_iff.mp hx
          exact .string (tighten_string hs) (string_eq_ok_iff.mpr ⟨t, Quoted.scan_tighten ht, rfl⟩)
      | number hs hc hx =>
          obtain ⟨n, hn, rfl⟩ := number_eq_ok_iff.mp hx
          obtain ⟨s'', hs'', hn'⟩ := number_tighten hs hn hends
          exact .number hs'' hc (number_eq_ok_iff.mpr ⟨n, hn', rfl⟩)
      | array hs hlisted =>
          have hitems := hlisted.tighten (.inl rfl) (ih _ (Nat.lt_succ_self _))
          exact .array (tighten_of_skipBlanks hs (by decide)) hitems
      | object hs hlisted =>
          have hmembers := hlisted.tighten (.inr rfl) (ih _ (Nat.lt_succ_self _)).member
          exact .object (tighten_of_skipBlanks hs (by decide)) hmembers

/-- What has a tree has the same tree without the blanks outside its strings. -/
theorem parse_tight {t : String} {v : Json} (h : parse t = .ok v) : parse (tight t) = .ok v := by
  obtain ⟨rest, hscan, hrest⟩ := whole_eq_ok_iff.mp h
  have hnil : tighten .outside rest = [] := by rw [← tighten_skipBlanks, hrest, tighten]
  have htight := (tightens_scan maxDepth).tighten hscan (hnil ▸ .nil)
  refine whole_eq_ok_iff.mpr ⟨[], ?_, rfl⟩
  rw [tight, String.toList_ofList]
  rwa [hnil] at htight

end Json
end Dependence

import Dependence.Proofs.Json.Grammar

/-! # Outlines of texts

A reader passes over what it does not look for, and asks there neither for the value of a number nor for the meaning
of an escape.  So a text that is read need not have a tree.  It has an outline: the tree in which zero stands for every
number that is out of range, and the empty text for every string whose escapes mean nothing.

Whatever can be passed over has an outline (`Json.exists_sketch_of_skip`), and whatever has a tree can be passed over
(`Json.skip_of_scan`) and is its own outline (`Json.sketch_of_scan`). -/

namespace Dependence

namespace Scan

variable {α : Type}

/-- Reads over what cannot be read, and puts a given value in its place. -/
def orSkip (scan : Scan α) (skip : Scan Unit) (x : α) : Scan α := fun s =>
  match scan s with
  | .ok r => .ok r
  | .error _ => do
    let (_, s) ← skip s
    .ok (x, s)

variable {scan : Scan α} {skip : Scan Unit} {x : α}

theorem orSkip_of_ok {s : List Char} {r : α × List Char} (h : scan s = .ok r) : orSkip scan skip x s = .ok r := by
  simp only [orSkip, h]

theorem orSkip_eq_ok {s rest : List Char} {y : α} (h : orSkip scan skip x s = .ok (y, rest)) :
    scan s = .ok (y, rest) ∨ skip s = .ok ((), rest) ∧ y = x := by
  unfold orSkip at h
  split at h
  · rename_i r hr
    rw [hr, Except.ok.inj h]
    exact .inl rfl
  · obtain ⟨⟨_, s'⟩, hskip, h⟩ := bind_eq_ok_iff.mp h
    obtain ⟨rfl, rfl⟩ := Prod.mk.inj (Except.ok.inj h)
    exact .inr ⟨hskip, rfl⟩

theorem Shortens.orSkip (hscan : Shortens scan) (hskip : Shortens skip) : Shortens (orSkip scan skip x) := by
  constructor
  intro s rest y h
  rcases orSkip_eq_ok h with hread | ⟨hread, -⟩
  · exact hscan.length_le hread
  · exact hskip.length_le hread

theorem Progress.orSkip (hscan : Progress scan) (hskip : Progress skip) : Progress (orSkip scan skip x) := by
  constructor
  intro s rest y h
  rcases orSkip_eq_ok h with hread | ⟨hread, -⟩
  · exact hscan.length_lt hread
  · exact hskip.length_lt hread

theorem follows_orSkip (n : Nat) : Follows n Eq scan (orSkip scan skip x) :=
  ⟨fun _ h => ⟨_, orSkip_of_ok h, rfl⟩⟩

/-- What is read ends where it ends when it is passed over. -/
theorem Follows.orSkip {n : Nat} (h : Follows n (fun _ _ => True) scan skip) :
    Follows n (fun _ _ => True) skip (orSkip scan skip x) := by
  constructor
  intro s rest u hn hskip
  cases hscan : scan s with
  | ok r =>
      obtain ⟨y, rest'⟩ := r
      obtain ⟨u', hu', -⟩ := h.follow hn hscan
      rw [hskip] at hu'
      obtain ⟨-, rfl⟩ := Prod.mk.inj (Except.ok.inj hu')
      exact ⟨y, orSkip_of_ok hscan, trivial⟩
  | error fault => exact ⟨x, by simp only [Scan.orSkip, hscan, hskip, bind, Except.bind], trivial⟩

end Scan

/-! ### Strings and numbers that are passed over -/

namespace Quoted

/-- Reads over four hexadecimal digits. -/
def overNumber : Scan Unit := fun s => do
  let (_, s) ← hex4 s
  .ok ((), s)

/-- One step of passing over a string. -/
abbrev skipRound : List Unit → Scan (Scan.Round (List Unit) (List Unit)) := round (fun _ => ()) overNumber

/-- The rest of a string can be passed over, however much of it has been passed over before. -/
def Skips (s rest : List Char) : Prop := ∀ seen, ∃ us, Scan.Settles skipRound seen s us rest

theorem Skips.step {s s' rest : List Char} (h : Skips s' rest) (hlt : s'.length < s.length)
    (hround : ∀ seen, skipRound seen s = .ok (.again (() :: seen), s')) : Skips s rest := by
  intro seen
  obtain ⟨us, hus⟩ := h (() :: seen)
  exact ⟨us, .again (hround seen) hlt hus⟩

theorem Skips.plain {c : Char} {s rest : List Char} (h : Skips s rest) (hquote : c ≠ '"') (hbackslash : c ≠ '\\')
    (hplain : ¬ c.toNat < 0x20) : Skips (c :: s) rest := by
  refine h.step (Nat.lt_succ_self _) ?_
  intro seen
  rw [skipRound, round]
  · exact if_neg hplain
  · exact hquote
  · exact hbackslash

theorem Skips.short {c d : Char} {s rest : List Char} (h : Skips s rest) (hu : c ≠ 'u') (hc : short c = some d) :
    Skips ('\\' :: c :: s) rest := by
  refine h.step (Nat.lt_succ_of_lt (Nat.lt_succ_self _)) ?_
  intro seen
  simp only [skipRound, round, escaped, if_neg hu, hc, bind, Except.bind]

theorem Skips.hex4 {n : Nat} {s s' rest : List Char} (h : Skips s' rest) (hn : hex4 s = .ok (n, s')) :
    Skips ('\\' :: 'u' :: s) rest := by
  have hle := closed_hex4.length_le hn
  refine h.step (by simp only [List.length_cons]; omega) ?_
  intro seen
  simp only [skipRound, round, escaped, overNumber, hn, bind, Except.bind, if_true]

theorem exists_hex4_of_lowHalf {high : Nat} {c : Char} {s rest : List Char} (h : lowHalf high s = .ok (c, rest)) :
    ∃ low s', s = '\\' :: 'u' :: s' ∧ Quoted.hex4 s' = .ok (low, rest) := by
  unfold lowHalf at h
  split at h
  · cases h
  · cases h
  · rename_i s'
    obtain ⟨⟨low, s₁⟩, hlow, h⟩ := bind_eq_ok_iff.mp h
    dsimp only at h
    split at h
    · obtain ⟨-, rfl⟩ := Prod.mk.inj (Except.ok.inj h)
      exact ⟨low, s', rfl, hlow⟩
    · cases h
  · cases h

/-- A character that is escaped by two halves is passed over in two steps. -/
theorem Skips.numbered {c : Char} {s s' rest : List Char} (h : Skips s' rest) (hc : numbered s = .ok (c, s')) :
    Skips ('\\' :: 'u' :: s) rest := by
  obtain ⟨⟨n, s₁⟩, hn, hc⟩ := bind_eq_ok_iff.mp hc
  dsimp only at hc
  split at hc
  · cases hc
  · split at hc
    · obtain ⟨low, s₂, rfl, hlow⟩ := exists_hex4_of_lowHalf hc
      exact (h.hex4 hlow).hex4 hn
    · obtain ⟨-, rfl⟩ := Prod.mk.inj (Except.ok.inj hc)
      exact h.hex4 hn

theorem Skips.round {seen seen' : List Char} {s s' rest : List Char} (h : Skips s' rest)
    (hround : round id Quoted.numbered seen s = .ok (.again seen', s')) : Skips s rest := by
  unfold Quoted.round at hround
  split at hround
  · cases hround
  · cases hround
  · obtain ⟨⟨c, s₁⟩, hc, hround⟩ := bind_eq_ok_iff.mp hround
    obtain ⟨-, rfl⟩ := Prod.mk.inj (Except.ok.inj hround)
    unfold escaped at hc
    split at hc
    · cases hc
    · split at hc
      · rename_i hu
        subst hu
        exact h.numbered hc
      · rename_i hu
        split at hc
        · rename_i hshort
          obtain ⟨-, rfl⟩ := Prod.mk.inj (Except.ok.inj hc)
          exact h.short hu hshort
        · cases hc
  · rename_i c s hquote hbackslash
    split at hround
    · cases hround
    · rename_i hplain
      obtain ⟨-, rfl⟩ := Prod.mk.inj (Except.ok.inj hround)
      exact h.plain hquote hbackslash hplain

theorem skips_of_last {seen cs : List Char} {s rest : List Char}
    (hround : round id numbered seen s = .ok (.last cs, rest)) : Skips s rest := by
  unfold round at hround
  split at hround
  · cases hround
  · obtain ⟨-, rfl⟩ := Prod.mk.inj (Except.ok.inj hround)
    exact fun seen => ⟨seen.reverse, .last rfl (List.cons_ne_nil _ _)⟩
  · obtain ⟨_, -, hround⟩ := bind_eq_ok_iff.mp hround
    cases hround
  · split at hround <;> cases hround

theorem skips_of_rounds : ∀ {fuel : Nat} {seen cs : List Char} {s rest : List Char},
    Scan.rounds (round id numbered) fuel seen s = .ok (cs, rest) → Skips s rest
  | 0, _, _, _, _, h => by cases h
  | fuel + 1, seen, cs, s, rest, h => by
      rw [Scan.rounds] at h
      split at h
      · cases h
      · rename_i hround
        exact (skips_of_rounds h).round hround
      · rename_i hround
        obtain ⟨rfl, rfl⟩ := Prod.mk.inj (Except.ok.inj h)
        exact skips_of_last hround

/-- A string that is read can be passed over. -/
theorem skip_of_scan {t : String} {s rest : List Char} (h : scan s = .ok (t, rest)) : skip s = .ok ((), rest) := by
  obtain ⟨⟨cs, s'⟩, hcs, h⟩ := bind_eq_ok_iff.mp h
  obtain ⟨-, rfl⟩ := Prod.mk.inj (Except.ok.inj h)
  obtain ⟨us, hus⟩ := skips_of_rounds hcs []
  exact bind_eq_ok_iff.mpr ⟨(us, s'), hus.repeated_eq, rfl⟩

end Quoted

/-- A number that is read can be passed over. -/
theorem Numeral.skip_of_scan {n : Number} {s rest : List Char} (h : Number.scan s = .ok (n, rest)) :
    skip s = .ok ((), rest) := by
  obtain ⟨⟨m, s'⟩, hm, h⟩ := bind_eq_ok_iff.mp h
  dsimp only at h
  split at h
  · obtain ⟨-, rfl⟩ := Prod.mk.inj (Except.ok.inj h)
    exact skip_eq_ok_iff.mpr ⟨m, hm⟩
  · cases h

/-! ### Outlines -/

namespace Json

open Scan (Follows Shortens Progress Listed)

/-- How an outline is built. -/
def lenient : Builder Json String where
  null := .null
  boolean := .boolean
  number := Scan.orSkip tree.number Numeral.skip (.number (.integer 0))
  string := Scan.orSkip tree.string Quoted.skip (.string "")
  key := Scan.orSkip Quoted.scan Quoted.skip ""
  array := .array
  object := .object

/-- Reads an outline from the front of a text. -/
def sketch : Scan Json := fun s => lenient.scan s.length s

/-- The outline of a text. -/
def outline (s : String) : Except Fault Json := Scan.whole sketch s.toList

theorem number_eq_ok_iff {v : Json} {s rest : List Char} :
    tree.number s = .ok (v, rest) ↔ ∃ n, Number.scan s = .ok (n, rest) ∧ v = .number n := by
  refine bind_eq_ok_iff.trans ?_
  constructor
  · rintro ⟨⟨n, s'⟩, hn, h⟩
    obtain ⟨rfl, rfl⟩ := Prod.mk.inj (Except.ok.inj h)
    exact ⟨n, hn, rfl⟩
  · rintro ⟨n, hn, rfl⟩
    exact ⟨(n, rest), hn, rfl⟩

theorem string_eq_ok_iff {v : Json} {s rest : List Char} :
    tree.string s = .ok (v, rest) ↔ ∃ t, Quoted.scan s = .ok (t, rest) ∧ v = .string t := by
  refine bind_eq_ok_iff.trans ?_
  constructor
  · rintro ⟨⟨t, s'⟩, ht, h⟩
    obtain ⟨rfl, rfl⟩ := Prod.mk.inj (Except.ok.inj h)
    exact ⟨t, ht, rfl⟩
  · rintro ⟨t, ht, rfl⟩
    exact ⟨(t, rest), ht, rfl⟩

theorem follows_number (n : Nat) : Follows n (fun _ _ => True) tree.number Numeral.skip := by
  constructor
  intro s rest v _ h
  obtain ⟨m, hm, -⟩ := number_eq_ok_iff.mp h
  exact ⟨(), Numeral.skip_of_scan hm, trivial⟩

theorem follows_string (n : Nat) : Follows n (fun _ _ => True) tree.string Quoted.skip := by
  constructor
  intro s rest v _ h
  obtain ⟨t, ht, -⟩ := string_eq_ok_iff.mp h
  exact ⟨(), Quoted.skip_of_scan ht, trivial⟩

theorem follows_key (n : Nat) : Follows n (fun _ _ => True) Quoted.scan Quoted.skip :=
  ⟨fun _ h => ⟨(), Quoted.skip_of_scan h, trivial⟩⟩

theorem advances_lenient : lenient.Advances where
  progress_number := steady_tree.progress_number.orSkip Numeral.progress_skip
  shortens_string := steady_tree.fixed_string.shortens.orSkip Quoted.closed_skip.toFixed.shortens
  shortens_key := steady_tree.fixed_key.shortens.orSkip Quoted.closed_skip.toFixed.shortens

/-- Whatever has a tree can be passed over. -/
theorem skip_of_scan {depth : Nat} {v : Json} {s rest : List Char} (h : tree.scan depth s = .ok (v, rest)) :
    skip s = .ok ((), rest) := by
  have hsimulates : tree.Simulates (fun _ _ => True) (fun _ _ => True) nothing :=
    ⟨trivial, fun _ => trivial, follows_number, follows_string, follows_key, fun _ => trivial, fun _ => trivial⟩
  have hdepth : min depth s.length ≤ s.length := Nat.min_le_right _ _
  obtain ⟨u, hu, -⟩ :=
    (hsimulates.scan steady_tree.advances steady_nothing.advances hdepth).follow (Nat.le_refl _) h
  exact hu

/-- Whatever can be passed over has an outline. -/
theorem exists_sketch_of_skip {s rest : List Char} (h : skip s = .ok ((), rest)) :
    ∃ v, sketch s = .ok (v, rest) := by
  have hsimulates : nothing.Simulates (fun _ _ => True) (fun _ _ => True) lenient :=
    ⟨trivial, fun _ => trivial, fun n => (follows_number n).orSkip, fun n => (follows_string n).orSkip,
      fun n => (follows_key n).orSkip, fun _ => trivial, fun _ => trivial⟩
  have hdepth : min s.length s.length ≤ s.length := Nat.min_le_right _ _
  obtain ⟨v, hv, -⟩ :=
    (hsimulates.scan steady_nothing.advances advances_lenient hdepth).follow (Nat.le_refl _) h
  exact ⟨v, hv⟩

/-- A tree is its own outline. -/
theorem sketch_of_scan {depth : Nat} {v : Json} {s rest : List Char} (h : tree.scan depth s = .ok (v, rest)) :
    sketch s = .ok (v, rest) := by
  have hsimulates : tree.Simulates Eq Eq lenient :=
    Builder.simulates_eq rfl rfl Scan.follows_orSkip Scan.follows_orSkip Scan.follows_orSkip rfl rfl
  have hdepth : min depth s.length ≤ s.length := Nat.min_le_right _ _
  obtain ⟨w, hw, rfl⟩ :=
    (hsimulates.scan steady_tree.advances advances_lenient hdepth).follow (Nat.le_refl _) h
  exact hw

theorem outline_of_parse {t : String} {v : Json} (h : parse t = .ok v) : outline t = .ok v := by
  obtain ⟨rest, hscan, hrest⟩ := Scan.whole_eq_ok_iff.mp h
  exact Scan.whole_eq_ok_iff.mpr ⟨rest, sketch_of_scan hscan, hrest⟩

/-! ### Outlines from outlines -/

theorem sketch_eq_ok_iff {v : Json} {s rest : List Char} :
    sketch s = .ok (v, rest) ↔ lenient.Reads s s.length v rest :=
  advances_lenient.scan_eq_ok_iff

theorem progress_sketch : Progress sketch := ⟨fun h => (advances_lenient.progress_scan _).length_lt h⟩

theorem sketch_number {n : Number} {c : Char} {s s' rest : List Char} (hs : Scan.skipBlanks s = c :: s')
    (hc : Builder.startsNumeral c = true) (hn : Number.scan (c :: s') = .ok (n, rest)) :
    sketch s = .ok (.number n, rest) :=
  sketch_eq_ok_iff.mpr (.number hs hc (Scan.orSkip_of_ok (number_eq_ok_iff.mpr ⟨n, hn, rfl⟩)))

theorem sketch_string {t : String} {s s' rest : List Char} (hs : Scan.skipBlanks s = '"' :: s')
    (ht : Quoted.scan s' = .ok (t, rest)) : sketch s = .ok (.string t, rest) :=
  sketch_eq_ok_iff.mpr (.string hs (Scan.orSkip_of_ok (string_eq_ok_iff.mpr ⟨t, ht, rfl⟩)))

theorem follows_sketch {n depth : Nat} (h : n ≤ depth) : Follows n Eq sketch (lenient.scan depth) := by
  constructor
  intro s rest v hn hread
  have hdepth : min s.length s.length ≤ depth := Nat.le_trans (Nat.min_le_left _ _) (Nat.le_trans hn h)
  exact ⟨v, advances_lenient.scan_mono hdepth hread, rfl⟩

/-- What follows an opening bracket is no longer than the text allows to nest. -/
theorem exists_depth {c : Char} {s s' : List Char} (hs : Scan.skipBlanks s = c :: s') :
    ∃ depth, s.length = depth + 1 ∧ s'.length ≤ depth := by
  have hle := Scan.length_skipBlanks_le s
  rw [hs, List.length_cons] at hle
  exact ⟨s.length - 1, by omega, by omega⟩

theorem sketch_array {vs : List Json} {s s' rest : List Char} (hs : Scan.skipBlanks s = '[' :: s')
    (h : Listed ']' sketch true s' vs rest) : sketch s = .ok (.array vs, rest) := by
  obtain ⟨depth, hlength, hs'⟩ := exists_depth hs
  obtain ⟨ws, hws, hvs⟩ := h.follow progress_sketch (follows_sketch hs') (Nat.le_refl _)
  rw [List.forall₂_eq_eq_eq] at hvs
  subst hvs
  rw [sketch_eq_ok_iff, hlength]
  exact .array hs hws

/-- Reads a member of an object as it stands in an outline. -/
def sketchMember : Scan (String × Json) := Scan.member lenient.key sketch

theorem progress_sketchMember : Progress sketchMember :=
  Scan.progress_member advances_lenient.shortens_key progress_sketch

theorem sketch_object {members : List (String × Json)} {s s' rest : List Char}
    (hs : Scan.skipBlanks s = '\x7b' :: s') (h : Listed '\x7d' sketchMember true s' members rest) :
    sketch s = .ok (.object members, rest) := by
  obtain ⟨depth, hlength, hs'⟩ := exists_depth hs
  have hmember := Scan.Follows.member advances_lenient.shortens_key (.same fun _ => rfl) (follows_sketch hs')
  obtain ⟨members', hmembers', hsame⟩ := h.follow progress_sketchMember hmember (Nat.le_refl _)
  have heq : members = members' :=
    List.forall₂_eq_eq_eq ▸ hsame.imp fun _ _ hm => Prod.ext hm.1 hm.2
  subst heq
  rw [sketch_eq_ok_iff, hlength]
  exact .object hs hmembers'

theorem sketchMember_eq {name : String} {v : Json} {s s₁ s₂ rest : List Char}
    (hname : Scan.quoted Quoted.scan s = .ok (name, s₁)) (hcolon : Scan.symbol ':' s₁ = .ok ((), s₂))
    (hv : sketch s₂ = .ok (v, rest)) : sketchMember s = .ok ((name, v), rest) := by
  obtain ⟨name', hname', rfl⟩ :=
    (Scan.Follows.quoted (Scan.follows_orSkip s.length)).follow (Nat.le_refl _) hname
  exact bind_eq_ok_iff.mpr ⟨(name, s₁), hname', bind_eq_ok_iff.mpr ⟨((), s₂), hcolon,
    bind_eq_ok_iff.mpr ⟨(v, rest), hv, rfl⟩⟩⟩

/-- Blanks in front do not count. -/
theorem sketch_of_skipBlanks {v : Json} {s rest : List Char} (h : sketch (Scan.skipBlanks s) = .ok (v, rest)) :
    sketch s = .ok (v, rest) := by
  obtain ⟨w, hw, rfl⟩ := (follows_sketch (Scan.length_skipBlanks_le s)).follow (Nat.le_refl _) h
  rwa [Builder.scan_skipBlanks] at hw

/-- Null begins with a letter of its own. -/
theorem head_of_sketch_null {s rest : List Char} (h : sketch s = .ok (.null, rest)) :
    ∃ s', Scan.skipBlanks s = 'n' :: s' := by
  generalize hv : Json.null = v at h
  have hreads := sketch_eq_ok_iff.mp h
  generalize s.length = depth at hreads
  cases hreads with
  | null hs => exact ⟨_, hs⟩
  | isTrue => cases hv
  | isFalse => cases hv
  | string _ hx =>
      rcases Scan.orSkip_eq_ok hx with hread | ⟨-, rfl⟩
      · obtain ⟨t, -, rfl⟩ := string_eq_ok_iff.mp hread
        cases hv
      · cases hv
  | number _ _ hx =>
      rcases Scan.orSkip_eq_ok hx with hread | ⟨-, rfl⟩
      · obtain ⟨n, -, rfl⟩ := number_eq_ok_iff.mp hread
        cases hv
      · cases hv
  | array => cases hv
  | object => cases hv

end Json
end Dependence

import Dependence.Json.Compact
import Dependence.Json.Reader
import Dependence.Proofs.Json.Rounds

/-! # What is written is read

`scan.Accepts t x` says that a reader reads the text `t` as `x`, and leaves alone whatever can follow a
value in a compact text (`Ends`).  A reader of items accepts the texts of the items with commas between
them (`items_separated`), and likewise for members.

Strings are accepted character by character (`Quoted.round_escape`), and numbers by their digits
(`Number.scan_toDigits`).  Together these make up trees: the reader of trees accepts the compact text of
every tree that is not nested too deeply and has only natural numbers that fit into 64 bits
(`Json.Fits.accepts`). -/

namespace Dependence

namespace Scan

variable {α κ : Type}

/-! ### Where values begin and end -/

/-- What can follow a value. -/
inductive Ends : List Char → Prop
  | nil : Ends []
  | comma (s : List Char) : Ends (',' :: s)
  | bracket (s : List Char) : Ends (']' :: s)
  | brace (s : List Char) : Ends ('\x7d' :: s)

/-- The text begins with a character that neither separates, nor closes, nor is blank. -/
def Begins (t : List Char) : Prop :=
  ∃ c s, t = c :: s ∧ isBlank c = false ∧ c ≠ ',' ∧ c ≠ ']' ∧ c ≠ '\x7d'

/-- A text that is read as a certain value whatever follows it. -/
structure Accepts (scan : Scan α) (t : List Char) (x : α) : Prop where
  begins : Begins t
  scan_eq : ∀ {rest : List Char}, Ends rest → scan (t ++ rest) = .ok (x, rest)

theorem skipBlanks_cons {c : Char} (h : isBlank c = false) (s : List Char) :
    skipBlanks (c :: s) = c :: s := by
  unfold skipBlanks
  rw [List.dropWhile_cons, h]
  rfl

theorem Begins.skipBlanks_eq {t : List Char} (h : Begins t) (s : List Char) :
    skipBlanks (t ++ s) = t ++ s := by
  obtain ⟨c, t, rfl, hblank, -⟩ := h
  exact skipBlanks_cons hblank (t ++ s)

theorem keyword_append (x : α) (cs s : List Char) : keyword x cs (cs ++ s) = .ok (x, s) := by
  induction cs with
  | nil => rfl
  | cons c cs ih => rw [List.cons_append, keyword, if_pos rfl, ih]

theorem symbol_cons {c : Char} (h : isBlank c = false) (s : List Char) :
    symbol c (c :: s) = .ok ((), s) := by
  unfold symbol
  rw [skipBlanks_cons h]
  exact if_pos rfl

/-- A value that passes its check is accepted. -/
theorem checked_eq_ok {scan : Scan α} {check : α → Except Mismatch κ} {s rest : List Char} {x : α} {y : κ}
    (h : scan s = .ok (x, rest)) (hy : check x = .ok y) : checked scan check s = .ok (y, rest) := by
  simp only [checked, h, hy, bind, Except.bind]

/-! ### Lists -/

/-- What is still to be read of texts with commas between them. -/
def remaining (isFirst : Bool) : List (List Char) → List Char
  | [] => []
  | t :: ts => (if isFirst then t else ',' :: t) ++ remaining false ts

theorem separated_eq_remaining : ∀ ts, Text.separated [','] ts = remaining true ts
  | [] => rfl
  | [t] => (List.append_nil t).symm
  | t :: u :: ts => by
      show t ++ [','] ++ Text.separated [','] (u :: ts) = _
      rw [separated_eq_remaining (u :: ts), List.append_assoc]
      rfl

/-- A character that closes a list. -/
def Closes (c : Char) : Prop := c = ']' ∨ c = '\x7d'

theorem Closes.isBlank_eq {c : Char} (h : Closes c) : isBlank c = false := by
  obtain rfl | rfl := h <;> rfl

theorem ends_remaining {close : Char} (h : Closes close) (ts : List (List Char)) (s : List Char) :
    Ends (remaining false ts ++ close :: s) := by
  cases ts with
  | nil =>
      obtain rfl | rfl := h
      · exact .bracket s
      · exact .brace s
  | cons t ts => exact .comma _

theorem more_close {close : Char} (h : Closes close) (isFirst : Bool) (s : List Char) :
    more close isFirst (close :: s) = .ok (false, close :: s) := by
  unfold more
  rw [skipBlanks_cons h.isBlank_eq]
  exact if_pos rfl

/-- As long as texts remain, the list goes on with the next one. -/
theorem more_remaining {close : Char} (h : Closes close) {t : List Char} (ht : Begins t) (isFirst : Bool)
    (ts : List (List Char)) (s : List Char) :
    more close isFirst (remaining isFirst (t :: ts) ++ s) = .ok (true, t ++ (remaining false ts ++ s)) := by
  obtain ⟨c, t, rfl, hblank, -, hbracket, hbrace⟩ := ht
  have hclose : c ≠ close := by
    obtain rfl | rfl := h
    · exact hbracket
    · exact hbrace
  unfold more
  cases isFirst with
  | true =>
      simp only [remaining, if_true, List.cons_append, List.append_assoc]
      rw [skipBlanks_cons hblank]
      simp [hclose]
  | false =>
      have hcomma : ',' ≠ close := by obtain rfl | rfl := h <;> decide
      simp only [remaining, Bool.false_eq_true, if_false, List.cons_append, List.append_assoc]
      rw [skipBlanks_cons rfl]
      simp [hcomma]

/-- The next text takes something of what remains. -/
theorem length_remaining_lt {t : List Char} (ht : Begins t) (isFirst : Bool) (ts : List (List Char))
    (s : List Char) : (remaining false ts ++ s).length < (remaining isFirst (t :: ts) ++ s).length := by
  obtain ⟨c, t, rfl, -⟩ := ht
  cases isFirst with
  | true =>
      simp only [remaining, if_true, List.length_append, List.length_cons]
      omega
  | false =>
      simp only [remaining, Bool.false_eq_true, if_false, List.length_append, List.length_cons]
      omega

/-- Items are read one after the other. -/
theorem items_separated {item : Scan α} {text : α → List Char} {xs : List α}
    (h : ∀ x ∈ xs, item.Accepts (text x) x) (rest : List Char) :
    items item (Text.separated [','] (xs.map text) ++ ']' :: rest) = .ok (xs, rest) := by
  have hclose : Closes ']' := .inl rfl
  have hsettles : ∀ seen : List α,
      Settles (itemRound item) seen (remaining seen.isEmpty (xs.map text) ++ ']' :: rest)
        (seen.reverse ++ xs) rest := by
    induction xs with
    | nil =>
        intro seen
        refine .last ?_ (by simp)
        simp [itemRound, remaining, more_close hclose, symbol_cons hclose.isBlank_eq, bind, Except.bind]
    | cons x xs ih =>
        intro seen
        have hx := h x List.mem_cons_self
        have hrest := ih (fun y hy => h y (List.mem_cons_of_mem _ hy)) (x :: seen)
        rw [List.reverse_cons, List.append_assoc, List.singleton_append] at hrest
        refine .again ?_ ?_ hrest
        · have hends := ends_remaining hclose (xs.map text) rest
          rw [List.map_cons, itemRound, more_remaining hclose hx.begins]
          simp only [bind, Except.bind, if_true, hx.scan_eq hends]
          rfl
        · exact length_remaining_lt hx.begins ..
  rw [separated_eq_remaining]
  exact (hsettles []).repeated_eq

end Scan

/-! ### Strings -/

namespace Quoted

/-- The two hexadecimal digits of a control character mean its number. -/
theorem hexValue4_control : ∀ n < 0x20,
    hexValue4 '0' '0' (Nat.digitChar (n / 16)) (Nat.digitChar (n % 16)) = some n := by
  decide

theorem numbered_control {c : Char} (h : c.toNat < 0x20) (s : List Char) :
    numbered ('0' :: '0' :: Nat.digitChar (c.toNat / 16) :: Nat.digitChar (c.toNat % 16) :: s) =
      .ok (c, s) := by
  have hlow : ¬ (0xDC00 ≤ c.toNat ∧ c.toNat ≤ 0xDFFF) := by omega
  have hhigh : ¬ (0xD800 ≤ c.toNat ∧ c.toNat ≤ 0xDBFF) := by omega
  simp only [numbered, hex4, hexValue4_control _ h, bind, Except.bind, if_neg hlow, if_neg hhigh,
    Char.ofNat_toNat]

/-- A character is read back from the way in which it is written. -/
theorem round_escape (c : Char) (seen s : List Char) :
    round id numbered seen (escape c ++ s) = .ok (.again (c :: seen), s) := by
  unfold escape
  split
  · rfl
  · rfl
  · rfl
  · rfl
  · rfl
  · rfl
  · rfl
  · rename_i hquote hbackslash _ _ _ _ _
    split
    · rename_i hcontrol
      simp only [List.cons_append, List.nil_append, round, escaped, if_true, numbered_control hcontrol,
        bind, Except.bind]
    · rename_i hplain
      rw [List.singleton_append, round]
      · rw [if_neg hplain]
        rfl
      · exact fun h => hquote h
      · exact fun h => hbackslash h

theorem scan_escaped (cs : List Char) (s : List Char) :
    scan (cs.flatMap escape ++ '"' :: s) = .ok (String.ofList cs, s) := by
  have hsettles : ∀ seen : List Char,
      Scan.Settles (round id numbered) seen (cs.flatMap escape ++ '"' :: s) (seen.reverse ++ cs) s := by
    induction cs with
    | nil =>
        intro seen
        refine .last ?_ (by simp)
        rw [List.append_nil]
        rfl
    | cons c cs ih =>
        intro seen
        have hrest := ih (c :: seen)
        rw [List.reverse_cons, List.append_assoc, List.singleton_append] at hrest
        rw [List.flatMap_cons, List.append_assoc]
        refine .again (round_escape c seen _) ?_ hrest
        have hne : escape c ≠ [] := by
          intro h
          have hround := round_escape c [] []
          rw [h] at hround
          cases hround
        have hpos := List.length_pos_iff.mpr hne
        simp only [List.length_append]
        omega
  unfold scan body
  rw [(hsettles []).repeated_eq]
  rfl

theorem scan_encoded (t : String) (s : List Char) :
    scan (t.toList.flatMap escape ++ '"' :: s) = .ok (t, s) := by
  rw [scan_escaped, String.ofList_toList]

/-- A string is read back from its text. -/
theorem quoted_encode (t : String) (s : List Char) :
    Scan.quoted scan (encode t ++ s) = .ok (t, s) := by
  unfold Scan.quoted encode
  simp only [List.cons_append, List.append_assoc, List.nil_append]
  rw [Scan.skipBlanks_cons rfl]
  exact scan_encoded t s

end Quoted

namespace Scan

/-- The text of a member of an object. -/
def memberText (name : String) (t : List Char) : List Char := Quoted.encode name ++ ':' :: t

theorem begins_memberText (name : String) (t : List Char) : Begins (memberText name t) :=
  ⟨'"', _, rfl, rfl, by decide, by decide, by decide⟩

/-- The name of a member is read first. -/
theorem quoted_memberText (name : String) (t s : List Char) :
    quoted Quoted.scan (memberText name t ++ s) = .ok (name, ':' :: (t ++ s)) := by
  unfold memberText
  rw [List.append_assoc, Quoted.quoted_encode]
  rfl

/-- Members are read one after the other. -/
theorem members_separated {α : Type} {value : Scan α} {text : α → List Char} {members : List (String × α)}
    (h : ∀ member ∈ members, value.Accepts (text member.2) member.2) (rest : List Char) :
    Scan.members Quoted.scan value
      (Text.separated [','] (members.map fun member => memberText member.1 (text member.2)) ++
        '\x7d' :: rest) = .ok (members, rest) := by
  have hclose : Closes '\x7d' := .inr rfl
  have hsettles : ∀ seen : List (String × α),
      Settles (memberRound Quoted.scan value) seen
        (remaining seen.isEmpty (members.map fun member => memberText member.1 (text member.2)) ++
          '\x7d' :: rest) (seen.reverse ++ members) rest := by
    induction members with
    | nil =>
        intro seen
        refine .last ?_ (by simp)
        simp [memberRound, remaining, more_close hclose, symbol_cons hclose.isBlank_eq, bind, Except.bind]
    | cons member members ih =>
        intro seen
        obtain ⟨name, x⟩ := member
        have hx : value.Accepts (text x) x := h (name, x) List.mem_cons_self
        have hrest := ih (fun y hy => h y (List.mem_cons_of_mem _ hy)) ((name, x) :: seen)
        rw [List.reverse_cons, List.append_assoc, List.singleton_append] at hrest
        have hbegins := begins_memberText name (text x)
        refine .again ?_ ?_ hrest
        · have hends := ends_remaining hclose
            (members.map fun member => memberText member.1 (text member.2)) rest
          rw [List.map_cons, memberRound, more_remaining hclose hbegins]
          simp only [bind, Except.bind, if_true, quoted_memberText, symbol_cons (c := ':') rfl,
            hx.scan_eq hends]
          rfl
        · exact length_remaining_lt hbegins ..
  rw [separated_eq_remaining]
  exact (hsettles []).repeated_eq

end Scan
end Dependence

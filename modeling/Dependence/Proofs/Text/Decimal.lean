import Dependence.Proofs.Json.Trees
import Dependence.Style
import Mathlib.Data.List.DropRight

/-! # Decimals in a given width

`Text.Decimal n ds` says that `ds` are the digits of `n`.  A style that asks for an alignment and a width only
puts blanks around these digits (`Style.number_aligned`), as many as it takes to reach the width
(`Style.length_padded`), and how many of them stand on the left depends on the alignment alone
(`Alignment.before`).  No digit is a blank, so the number can be read back whatever the alignment and the width
(`Text.Decimal.readNumber`). -/

namespace Dependence

namespace Text

/-- The digits of a number, without leading zeros. -/
structure Decimal (n : Nat) (ds : List Char) : Prop where
  ne_nil : ds ≠ []
  isDigit : ∀ d ∈ ds, d.isDigit = true
  /-- A zero stands first only if it stands alone. -/
  lead : ∀ rest, ds = '0' :: rest → rest = []
  value : Nat.ofDigitChars 10 ds 0 = n

theorem decimal_toDigits (n : Nat) : Decimal n (Nat.toDigits 10 n) where
  ne_nil := Nat.toDigits_ne_nil
  isDigit _ hd := Nat.isDigit_of_mem_toDigits (by decide) (by decide) hd
  lead rest h := by
    rcases Nat.eq_zero_or_pos n with rfl | hn
    · rw [Nat.toDigits_zero] at h
      exact (List.cons.inj h).2.symm
    · exact absurd h (Numeral.toDigits_ne_zero_cons hn rest)
  value := Nat.ofDigitChars_ten_toDigits

/-- A text without the blanks at its ends. -/
def trimmed (t : List Char) : List Char := (t.dropWhile (· = ' ')).rdropWhile (· = ' ')

/-- The number that a text shows, if there is nothing but digits between the blanks at its ends. -/
def readNumber (t : List Char) : Option Nat :=
  let ds := trimmed t
  if ds ≠ [] ∧ ds.all Char.isDigit = true then some (Nat.ofDigitChars 10 ds 0) else none

theorem dropWhile_blanks_append {t : List Char} (ht : ∀ c ∈ t.head?, c ≠ ' ') (n : Nat) :
    (List.replicate n ' ' ++ t).dropWhile (· = ' ') = t := by
  have hblanks : ∀ c ∈ List.replicate n ' ', decide (c = ' ') = true := fun c hc =>
    decide_eq_true (List.eq_of_mem_replicate hc)
  rw [List.dropWhile_append_of_pos hblanks]
  cases t with
  | nil => rfl
  | cons c cs => exact List.dropWhile_cons_of_neg (by simpa using ht c rfl)

theorem trimmed_append {t : List Char} (hne : t ≠ []) (ht : ∀ c ∈ t, c ≠ ' ') (before after : Nat) :
    trimmed (List.replicate before ' ' ++ t ++ List.replicate after ' ') = t := by
  have hfirst : ∀ c ∈ (t ++ List.replicate after ' ').head?, c ≠ ' ' := by
    intro c hc
    rw [List.head?_append_of_ne_nil _ hne] at hc
    exact ht c (List.mem_of_mem_head? hc)
  have hlast : ∀ c ∈ t.reverse.head?, c ≠ ' ' := fun c hc =>
    ht c (List.mem_reverse.mp (List.mem_of_mem_head? hc))
  rw [trimmed, List.append_assoc, dropWhile_blanks_append hfirst, List.rdropWhile, List.reverse_append,
    List.reverse_replicate, dropWhile_blanks_append hlast, List.reverse_reverse]

theorem Decimal.readNumber {n : Nat} {ds : List Char} (h : Decimal n ds) (before after : Nat) :
    readNumber (List.replicate before ' ' ++ ds ++ List.replicate after ' ') = some n := by
  have hblank : ∀ c ∈ ds, c ≠ ' ' := fun c hc => ne_of_isDigit (h.isDigit c hc) rfl
  have hall : ds.all Char.isDigit = true := List.all_eq_true.mpr h.isDigit
  simp only [Text.readNumber, trimmed_append h.ne_nil hblank]
  rw [if_pos ⟨h.ne_nil, hall⟩, h.value]

end Text

/-! ### The filling -/

/-- How much of a filling stands on the left. -/
def Alignment.before (gap : Nat) : Alignment → Nat
  | .left => 0
  | .center => gap / 2
  | .right => gap

namespace Style

theorem padded_eq (fill : Char) (width : Nat) (alignment : Alignment) (t : List Char) :
    padded fill width alignment t =
      List.replicate (alignment.before (width - t.length)) fill ++ t ++
        List.replicate (width - t.length - alignment.before (width - t.length)) fill := by
  cases alignment <;> simp [padded, Alignment.before]

theorem length_padded (fill : Char) (width : Nat) (alignment : Alignment) (t : List Char) :
    (padded fill width alignment t).length = max width t.length := by
  have hbefore : alignment.before (width - t.length) ≤ width - t.length := by
    cases alignment <;> simp only [Alignment.before] <;> omega
  rw [padded_eq, List.length_append, List.length_append, List.length_replicate, List.length_replicate]
  omega

/-- A style that asks for an alignment and a width only puts blanks around the digits. -/
theorem number_aligned (alignment : Option Alignment) (width n : Nat) :
    Style.number { alignment, width } n = padded ' ' width (alignment.getD .right) (Nat.toDigits 10 n) := by
  simp [Style.number, Style.digits, Style.lead]

end Style

end Dependence

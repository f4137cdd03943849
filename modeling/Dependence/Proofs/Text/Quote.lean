import Dependence.Json.Quoted
import Dependence.Text.Quote

/-! # Quoted texts can be read back

An escape tells its character, whichever characters are visible: `readEscape` finds the character at the head
of a text and what follows it (`readEscape_escape`).  No escape begins with a quote.  So where a quoted text
stands before something else, both are told apart (`quote_append_inj`), and a text can hold nothing that
ends its quotes. -/

namespace Dependence.Text

/-- The number that hexadecimal digits mean. -/
def hexNumber (ds : List Char) : Nat := ds.foldl (fun n d => 16 * n + (Quoted.hexValue d).getD 0) 0

/-- Reads what stands for a character after a backslash, and yields what follows it. -/
def readEscaped : List Char → Option (Char × List Char)
  | '0' :: rest => some ('\x00', rest)
  | 't' :: rest => some ('\t', rest)
  | 'n' :: rest => some ('\n', rest)
  | 'r' :: rest => some ('\r', rest)
  | '"' :: rest => some ('"', rest)
  | '\\' :: rest => some ('\\', rest)
  | 'u' :: '\x7b' :: rest =>
    some (Char.ofNat (hexNumber (rest.takeWhile (· ≠ '\x7d'))), (rest.dropWhile (· ≠ '\x7d')).tail)
  | _ => none

/-- Reads one character that may be escaped, and yields what follows it. -/
def readEscape : List Char → Option (Char × List Char)
  | [] => none
  | c :: rest => if c = '\\' then readEscaped rest else some (c, rest)

theorem hexNumber_append_singleton (ds : List Char) {d : Nat} (hd : d < 16) :
    hexNumber (ds ++ [Nat.digitChar d]) = 16 * hexNumber ds + d := by
  have hvalue : ∀ d < 16, Quoted.hexValue (Nat.digitChar d) = some d := by decide
  simp [hexNumber, hvalue d hd]

theorem hexNumber_toDigits (n : Nat) : hexNumber (Nat.toDigits 16 n) = n := by
  induction n using Nat.strongRecOn with
  | ind n ih =>
      rcases Nat.lt_or_ge n 16 with hlt | hge
      · rw [Nat.toDigits_of_lt_base hlt, ← List.nil_append [_], hexNumber_append_singleton [] hlt]
        simp [hexNumber]
      · rw [Nat.toDigits_of_base_le (by decide) hge, hexNumber_append_singleton _ (Nat.mod_lt n (by decide)),
          ih (n / 16) (Nat.div_lt_self (by omega) (by decide)), Nat.div_add_mod]

theorem ne_brace_of_mem_toDigits {n : Nat} {c : Char} (h : c ∈ Nat.toDigits 16 n) : c ≠ '\x7d' := by
  induction n using Nat.strongRecOn with
  | ind n ih =>
      have hdigit : ∀ d < 16, Nat.digitChar d ≠ '\x7d' := by decide
      rcases Nat.lt_or_ge n 16 with hlt | hge
      · rw [Nat.toDigits_of_lt_base hlt, List.mem_singleton] at h
        exact h ▸ hdigit n hlt
      · rw [Nat.toDigits_of_base_le (by decide) hge, List.mem_append, List.mem_singleton] at h
        rcases h with h | rfl
        · exact ih (n / 16) (Nat.div_lt_self (by omega) (by decide)) h
        · exact hdigit _ (Nat.mod_lt n (by decide))

/-- An escape tells its character, and what follows it. -/
theorem readEscape_escape (c : Char) (rest : List Char) : readEscape (escape c ++ rest) = some (c, rest) := by
  unfold escape
  split
  · rfl
  · rfl
  · rfl
  · rfl
  · rfl
  · rfl
  · rename_i hbackslash
    split
    · exact if_neg hbackslash
    · have hdigits : ∀ d ∈ Nat.toDigits 16 c.toNat, decide (d ≠ '\x7d') = true :=
        fun d hd => decide_eq_true (ne_brace_of_mem_toDigits hd)
      have htake : (Nat.toDigits 16 c.toNat ++ '\x7d' :: rest).takeWhile (· ≠ '\x7d') =
          Nat.toDigits 16 c.toNat := by
        rw [List.takeWhile_append_of_pos hdigits, List.takeWhile_cons_of_neg (by decide), List.append_nil]
      have hdrop : (Nat.toDigits 16 c.toNat ++ '\x7d' :: rest).dropWhile (· ≠ '\x7d') = '\x7d' :: rest := by
        rw [List.dropWhile_append_of_pos hdigits, List.dropWhile_cons_of_neg (by decide)]
      simp only [List.append_assoc, List.cons_append, List.nil_append, readEscape, if_true, readEscaped, htake,
        hdrop, hexNumber_toDigits, Char.ofNat_toNat, List.tail_cons]

theorem escape_append_inj {c d : Char} {rest rest' : List Char} (h : escape c ++ rest = escape d ++ rest') :
    c = d ∧ rest = rest' := by
  have hread := congrArg readEscape h
  rw [readEscape_escape, readEscape_escape] at hread
  exact Prod.mk.inj (Option.some.inj hread)

/-- Nothing that stands for a character ends the quotes. -/
theorem escape_append_ne_quote (c : Char) (rest rest' : List Char) : escape c ++ rest ≠ '"' :: rest' := by
  unfold escape
  split
  · simp
  · simp
  · simp
  · simp
  · simp
  · simp
  · rename_i hquote _
    split
    · simpa using fun he => absurd he hquote
    · simp

theorem flatMap_escape_append_inj {cs ds rest rest' : List Char}
    (h : cs.flatMap escape ++ '"' :: rest = ds.flatMap escape ++ '"' :: rest') : cs = ds ∧ rest = rest' := by
  induction cs generalizing ds with
  | nil =>
      cases ds with
      | nil => exact ⟨rfl, (List.cons.inj h).2⟩
      | cons d ds =>
          rw [List.flatMap_cons, List.append_assoc] at h
          exact absurd h.symm (escape_append_ne_quote d _ _)
  | cons c cs ih =>
      rw [List.flatMap_cons, List.append_assoc] at h
      cases ds with
      | nil => exact absurd h (escape_append_ne_quote c _ _)
      | cons d ds =>
          rw [List.flatMap_cons, List.append_assoc] at h
          obtain ⟨rfl, hlater⟩ := escape_append_inj h
          obtain ⟨rfl, hrest⟩ := ih hlater
          exact ⟨rfl, hrest⟩

/-- A quoted text and what follows it are told apart. -/
theorem quote_append_inj {s t : String} {rest rest' : List Char} (h : quote s ++ rest = quote t ++ rest') :
    s = t ∧ rest = rest' := by
  simp only [quote, List.cons_append, List.append_assoc, List.cons.injEq, true_and] at h
  obtain ⟨hs, hrest⟩ := flatMap_escape_append_inj h
  exact ⟨String.toList_injective hs, hrest⟩

end Dependence.Text

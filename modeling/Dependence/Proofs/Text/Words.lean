import Mathlib.Data.List.TakeWhile

/-! # Words

A word of letters, digits and underscores goes as far as there are such characters.  So it is told from what
follows it, if this begins with another character (`append_inj_of_all`). -/

namespace Dependence
namespace Text

/-- Letters, digits and the underscore. -/
def isWordChar (c : Char) : Bool := c.isAlphanum || c = '_'

/-- A word of such characters that begins with a letter. -/
def isWord (s : String) : Bool :=
  match s.toList with
  | [] => false
  | c :: cs => c.isAlpha && cs.all isWordChar

/-- A text that does not go on with a word. -/
def Breaks (t : List Char) : Prop := ∀ c ∈ t.head?, isWordChar c = false

theorem breaks_nil : Breaks [] := by
  intro c hc
  cases hc

theorem breaks_cons {c : Char} (h : isWordChar c = false) (t : List Char) : Breaks (c :: t) := by
  intro d hd
  exact Option.some.inj hd ▸ h

theorem isDigit_of_isAlpha {c : Char} (h : c.isAlpha = true) : c.isDigit = false := by
  unfold Char.isAlpha Char.isUpper Char.isLower at h
  unfold Char.isDigit
  simp only [Bool.or_eq_true, Bool.and_eq_true, decide_eq_true_eq, Bool.and_eq_false_iff, decide_eq_false_iff_not,
    ge_iff_le, UInt32.le_iff_toNat_le] at h ⊢
  have hA : 'A'.val.toNat = 65 := rfl
  have ha : 'a'.val.toNat = 97 := rfl
  have h9 : '9'.val.toNat = 57 := rfl
  omega

theorem exists_of_isWord {s : String} (h : isWord s = true) :
    ∃ c cs, s.toList = c :: cs ∧ c.isAlpha = true ∧ ∀ d ∈ s.toList, isWordChar d = true := by
  unfold isWord at h
  split at h
  · cases h
  · rename_i c cs hs
    obtain ⟨hc, hcs⟩ := Bool.and_eq_true_iff.mp h
    refine ⟨c, cs, hs, hc, ?_⟩
    rw [hs]
    intro d hd
    rcases List.mem_cons.mp hd with rfl | hd
    · simp [isWordChar, Char.isAlphanum, hc]
    · exact List.all_eq_true.mp hcs d hd

/-- A row of characters of one kind is told from what follows it, if this begins with none of them. -/
theorem append_inj_of_all {p : Char → Bool} {u v r r' : List Char} (hu : ∀ c ∈ u, p c = true)
    (hv : ∀ c ∈ v, p c = true) (hr : ∀ c ∈ r.head?, p c = false) (hr' : ∀ c ∈ r'.head?, p c = false)
    (h : u ++ r = v ++ r') : u = v ∧ r = r' := by
  have htake : ∀ r : List Char, (∀ c ∈ r.head?, p c = false) → r.takeWhile p = [] ∧ r.dropWhile p = r := by
    intro r hr
    cases r with
    | nil => exact ⟨rfl, rfl⟩
    | cons c cs => simp [hr c rfl]
  have hfirst := congrArg (List.takeWhile p) h
  have hsecond := congrArg (List.dropWhile p) h
  rw [List.takeWhile_append_of_pos hu, List.takeWhile_append_of_pos hv, (htake r hr).1, (htake r' hr').1,
    List.append_nil, List.append_nil] at hfirst
  rw [List.dropWhile_append_of_pos hu, List.dropWhile_append_of_pos hv, (htake r hr).2, (htake r' hr').2]
    at hsecond
  exact ⟨hfirst, hsecond⟩

end Text

end Dependence

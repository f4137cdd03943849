import Dependence.Format
import Dependence.Proofs.Json.Trees

/-! # Formats that read back what they write

`f.Faithful d x` says that both readers of a format, that of trees and that of texts, yield `x` from what
is written for `x`, and that this is a tree within the depth `d`, which can be read from its text as well.

Every format made from faithful formats is faithful, for exactly those values whose parts are written
faithfully; here are the plain formats, options and lists. -/

namespace Dependence
namespace Format

variable {α β : Type}

/-- A value that both readers yield from what is written for it. -/
structure Faithful (f : Format α) (d : Nat) (x : α) : Prop where
  fits : (f.write x).Fits d
  ofJson_write : f.ofJson (f.write x) = .ok x
  accepts : f.scan.Accepts (f.write x).compact x

/-- The text of a value is read as this value. -/
theorem Faithful.parse_text {f : Format α} {d : Nat} {x : α} (h : f.Faithful d x) :
    f.parse (f.text x) = .ok x := by
  have hscan := h.accepts.scan_eq .nil
  rw [List.append_nil] at hscan
  unfold parse Scan.whole text Json.text
  rw [String.toList_ofList, hscan]
  rfl

/-! ### Plain values -/

theorem wordOf_toNat (w : UInt32) : wordOf (.integer w.toNat) = .ok w := by
  have hlt : (w.toNat : Int) < UInt32.size := by
    exact_mod_cast w.toNat_lt_size
  simp only [wordOf]
  rw [if_pos ⟨Int.natCast_nonneg _, hlt⟩, Int.toNat_natCast, UInt32.ofNat_toNat]

theorem faithful_word (d : Nat) (w : UInt32) : word.Faithful d w := by
  have hsize : w.toNat < UInt64.size := by
    have hlt := w.toNat_lt_size
    unfold UInt32.size at hlt
    unfold UInt64.size
    omega
  have htext : (word.write w).compact = Nat.toDigits 10 w.toNat := Number.text_natural _
  refine ⟨.natural hsize, ?_, ?_⟩
  · simp only [word]
    exact wordOf_toNat w
  · rw [htext]
    refine Scan.accepts_toDigits (f := Scan.checked Number.scan wordOf) ?_ ?_
    · intro c s hdigit
      have hstart : Builder.startsNumeral c = true := by simp [Builder.startsNumeral, hdigit]
      simp only [word, Scan.skipBlanks_cons (isBlank_of_isDigit hdigit), hstart, if_true]
    · intro rest hends
      exact Scan.checked_eq_ok (Number.scan_toDigits hsize hends) (wordOf_toNat w)

/-- The text of a word does not begin like null. -/
theorem head?_compact_word (w : UInt32) : (word.write w).compact.head? ≠ some 'n' := by
  have htext : (word.write w).compact = Nat.toDigits 10 w.toNat := Number.text_natural _
  obtain ⟨c, ds, hds, hdigit⟩ := exists_toDigits_eq_cons w.toNat
  rw [htext, hds, List.head?_cons]
  exact fun h => ne_of_isDigit hdigit (d := 'n') rfl (Option.some.inj h)

theorem faithful_boolean (d : Nat) (b : Bool) : boolean.Faithful d b := by
  cases b with
  | true =>
      refine ⟨.boolean true, rfl, ⟨'t', _, rfl, rfl, by decide, by decide, by decide⟩, ?_⟩
      intro rest _
      exact Scan.keyword_append true "rue".toList rest
  | false =>
      refine ⟨.boolean false, rfl, ⟨'f', _, rfl, rfl, by decide, by decide, by decide⟩, ?_⟩
      intro rest _
      exact Scan.keyword_append false "alse".toList rest

theorem faithful_string (d : Nat) (s : String) : string.Faithful d s := by
  refine ⟨.string s, rfl, Json.begins_string s, ?_⟩
  intro rest _
  show string.scan ((Json.string s).compact ++ rest) = _
  rw [Json.compact_string]
  simp only [string, Scan.skipBlanks_cons (c := '"') rfl]
  exact Quoted.scan_encoded s rest

/-! ### Formats from formats -/

theorem Faithful.map {f : Format α} {d : Nat} {make : α → β} {parts : β → α} {y : β}
    (h : f.Faithful d (parts y)) (hy : make (parts y) = y) : (f.map make parts).Faithful d y := by
  refine ⟨h.fits, ?_, h.accepts.begins, ?_⟩
  · simp only [Format.map, h.ofJson_write, Except.map, hy]
  · intro rest hends
    simp only [Format.map, h.accepts.scan_eq hends, bind, Except.bind, hy]

/-- A value that passes the check under which it is read. -/
theorem Faithful.refine {f : Format α} {d : Nat} {check : α → Except String β} {parts : β → α} {y : β}
    (h : f.Faithful d (parts y)) (hy : check (parts y) = .ok y) :
    (f.refine check parts).Faithful d y := by
  refine ⟨h.fits, ?_, h.accepts.begins, ?_⟩
  · simp only [Format.refine, h.ofJson_write, bind, Except.bind, hy]
    rfl
  · intro rest hends
    simp only [Format.refine]
    refine Scan.checked_eq_ok (h.accepts.scan_eq hends) ?_
    rw [hy]
    rfl

theorem faithful_none (f : Format α) (d : Nat) : f.optional.Faithful d none := by
  refine ⟨.null, rfl, ⟨'n', _, rfl, rfl, by decide, by decide, by decide⟩, ?_⟩
  intro rest _
  exact Scan.keyword_append none "ull".toList rest

/-- What is written for a value must not be taken for its absence. -/
theorem Faithful.some {f : Format α} {d : Nat} {x : α} (h : f.Faithful d x)
    (hn : (f.write x).compact.head? ≠ .some 'n') : f.optional.Faithful d (.some x) := by
  have hnull : f.write x ≠ .null := by
    intro hnull
    rw [hnull] at hn
    exact hn rfl
  refine ⟨h.fits, ?_, h.accepts.begins, ?_⟩
  · show f.optional.ofJson (f.write x) = _
    unfold optional
    dsimp only
    split
    · exact absurd ‹_› hnull
    · rw [h.ofJson_write]
      rfl
  · intro rest hends
    have hscan := h.accepts.scan_eq hends
    obtain ⟨c, t, ht, -⟩ := id h.accepts.begins
    show f.optional.scan ((f.write x).compact ++ rest) = _
    simp only [optional, h.accepts.begins.skipBlanks_eq]
    split
    · rename_i s hs
      rw [ht, List.cons_append] at hs
      rw [ht, (List.cons.inj hs).1] at hn
      exact absurd rfl hn
    · rw [hscan]
      rfl

theorem mapM_ofJson {f : Format α} {d : Nat} {xs : List α} (h : ∀ x ∈ xs, f.Faithful d x) :
    (xs.map f.write).mapM f.ofJson = .ok xs := by
  induction xs with
  | nil => rfl
  | cons x xs ih =>
      rw [List.map_cons, List.mapM_cons, (h x List.mem_cons_self).ofJson_write,
        ih fun y hy => h y (List.mem_cons_of_mem _ hy)]
      rfl

theorem faithful_list {f : Format α} {d : Nat} {xs : List α} (h : ∀ x ∈ xs, f.Faithful d x) :
    f.list.Faithful (d + 1) xs := by
  refine ⟨?_, mapM_ofJson h, Json.begins_array _, ?_⟩
  · refine .array ?_
    intro item hitem
    obtain ⟨x, hx, rfl⟩ := List.mem_map.mp hitem
    exact (h x hx).fits
  · intro rest _
    show f.list.scan ((Json.array (xs.map f.write)).compact ++ rest) = _
    rw [Json.compact_array, List.map_map]
    simp only [list, Scan.skipBlanks_cons (c := '[') rfl]
    exact Scan.items_separated (fun x hx => (h x hx).accepts) rest

end Format
end Dependence

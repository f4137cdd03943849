import Dependence.Proofs.Text.Decimal
import Dependence.Proofs.Text.Words
import Dependence.Session.Operation

/-! # What texts for users identify

The sentence about a missing thing obeys no style and tells the thing (`Missing.display_inj`): the three kinds of
sentences begin differently (`Missing.opening_eq`), and the number in a mention ends at its bracket (`Id.mention_append_inj`).  So the
text with which a demand gives up tells the function and what was demanded (`Store.panic?_inj`).

An identity is shown as a bare number that is fitted into a width, and can be read back from it
(`Id.read?_display`). -/

namespace Dependence

/-! ### Identities -/

namespace Id

variable {e : Entity}

/-- The identity whose number a text shows. -/
def read? (text : String) : Option (Id e) :=
  match Text.readNumber text.toList with
  | some n => if n < UInt32.size then some (ofIndex n) else none
  | none => none

theorem toList_display (x : Id e) (alignment : Option Alignment) (width : Nat) :
    (x.display { alignment, width }).toList =
      Style.padded ' ' width (alignment.getD .right) (Nat.toDigits 10 x.index) := by
  rw [display, String.toList_ofList, Style.number_aligned]

/-- The smaller half of the blanks stands on the left. -/
example : (⟨17⟩ : Id .value).display { alignment := some .center, width := 5 } = " 17  " := by decide

theorem read?_display (x : Id e) (alignment : Option Alignment) (width : Nat) :
    read? (x.display { alignment, width }) = some x := by
  have hnumber : Text.readNumber (x.display { alignment, width }).toList = some x.index := by
    rw [toList_display, Style.padded_eq]
    exact (Text.decimal_toDigits x.index).readNumber _ _
  simp only [read?, hnumber, x.index_lt, if_true, ofIndex_index]

theorem display_inj {x y : Id e} {alignment : Option Alignment} {width : Nat} :
    x.display { alignment, width } = y.display { alignment, width } ↔ x = y := by
  refine ⟨fun h => ?_, congrArg (display _)⟩
  apply Option.some.inj
  rw [← read?_display x alignment width, h, read?_display]

theorem toList_mention (x : Id e) :
    x.mention.toList = e.idName.toList ++ '(' :: (Nat.toDigits 10 x.index ++ [')']) := by
  simp [mention]

/-- A mention and what follows it are told apart. -/
theorem mention_append_inj {x y : Id e} {s t : String} (h : x.mention ++ s = y.mention ++ t) :
    x = y ∧ s = t := by
  have hdigits : ∀ n, ∀ c ∈ Nat.toDigits 10 n, c.isDigit = true := fun n => (Text.decimal_toDigits n).isDigit
  have hchars := congrArg String.toList h
  simp only [String.toList_append, toList_mention, List.append_assoc, List.cons_append, List.nil_append,
    List.append_cancel_left_eq, List.cons.injEq, true_and] at hchars
  obtain ⟨hindex, hrest⟩ := Text.append_inj_of_all (hdigits _) (hdigits _) (by simp) (by simp) hchars
  refine ⟨index_inj.mp ?_, String.toList_injective (List.cons.inj hrest).2⟩
  rw [← (Text.decimal_toDigits x.index).value, hindex, (Text.decimal_toDigits y.index).value]

theorem mention_inj {x y : Id e} (h : x.mention = y.mention) : x = y :=
  (mention_append_inj (congrArg (· ++ "") h)).1

end Id

/-! ### Missing things -/

namespace Missing

/-- The words with which a sentence begins. -/
def opening : Missing → String
  | formal .. => "no formal argument node for "
  | value .. => "no node for "
  | node _ => "node not found: "

/-- The mentions that come after these words. -/
def mentions : Missing → String
  | formal f a => a.mention ++ (" in " ++ f.mention)
  | value f v => v.mention ++ (" in " ++ f.mention)
  | node h => h.mention

variable {m n : Missing}

theorem message_eq (m : Missing) : m.message = m.opening ++ m.mentions := by
  cases m <;> unfold message opening mentions
  · simp only [String.append_assoc]
  · simp only [String.append_assoc]
  · rfl

/-- Texts that differ in their first four characters are different, whatever follows. -/
theorem append_ne_append {s t : String} (hs : 4 ≤ s.toList.length) (ht : 4 ≤ t.toList.length)
    (h : s.toList.take 4 ≠ t.toList.take 4) (u v : String) : s ++ u ≠ t ++ v := by
  intro he
  have hchars := congrArg (fun s => s.toList.take 4) he
  simp only [String.toList_append, List.take_append_of_le_length hs, List.take_append_of_le_length ht] at hchars
  exact h hchars

/-- Sentences of different kinds begin differently. -/
theorem opening_eq (h : m.message = n.message) : m.opening = n.opening := by
  have hlength : ∀ m : Missing, 4 ≤ m.opening.toList.length := fun m => by cases m <;> simp [opening]
  by_contra hne
  rw [message_eq, message_eq] at h
  refine append_ne_append (hlength m) (hlength n) ?_ _ _ h
  cases m <;> cases n <;> first | exact absurd rfl hne | simp [opening]

theorem mentions_eq (h : m.message = n.message) : m.mentions = n.mentions := by
  have hopening := opening_eq h
  rw [message_eq, message_eq, hopening] at h
  exact (String.append_right_inj _).mp h

/-- An identity and the function that it belongs to are told apart. -/
theorem mention_in_inj {key : Entity} {x y : Id key} {f g : Id .function}
    (h : x.mention ++ (" in " ++ f.mention) = y.mention ++ (" in " ++ g.mention)) : x = y ∧ f = g := by
  obtain ⟨hkey, hin⟩ := Id.mention_append_inj h
  exact ⟨hkey, Id.mention_inj ((String.append_right_inj _).mp hin)⟩

/-- A sentence tells what is missing. -/
theorem message_inj : m.message = n.message ↔ m = n := by
  refine ⟨fun h => ?_, congrArg message⟩
  have hopening := opening_eq h
  have hmentions := mentions_eq h
  cases m with
  | formal f a =>
      cases n with
      | formal g b =>
          obtain ⟨rfl, rfl⟩ := mention_in_inj hmentions
          rfl
      | _ => simp [opening] at hopening
  | value f v =>
      cases n with
      | value g w =>
          obtain ⟨rfl, rfl⟩ := mention_in_inj hmentions
          rfl
      | _ => simp [opening] at hopening
  | node h' =>
      cases n with
      | node k => rw [Id.mention_inj hmentions]
      | _ => simp [opening] at hopening

theorem display_inj {style style' : Style} : m.display style = n.display style' ↔ m = n :=
  message_inj

end Missing

/-! ### Demands that are given up -/

namespace Store

/-- The text with which a question gives up, if it does. -/
def panic? (s : Store) (q : Query) : Option String :=
  match s.ask q with
  | .error (.aborted m) => some (m.display {})
  | _ => none

/-- A demand for the node of an identity gives up if there is none. -/
theorem panic?_demand {s : Store} {q : Query} {key : Entity} {k : Indexed key} {x : Id key}
    (h : s.ask q = answerOf .handle .aborted (s.find k x)) :
    s.panic? q = if (s.index k).contains x then none else some ((k.missing s.function x).display {}) := by
  unfold panic? Index.contains
  rw [h, find]
  cases (s.index k).find? x <;> rfl

theorem panic?_demandFormal (s : Store) (a : Id .argument) :
    s.panic? (.demandFormal a) =
      if s.formals.contains a then none else some ((Missing.formal s.function a).display {}) :=
  panic?_demand (k := .argument) rfl

theorem panic?_demandValue (s : Store) (v : Id .value) :
    s.panic? (.demandValue v) =
      if s.values.contains v then none else some ((Missing.value s.function v).display {}) :=
  panic?_demand (k := .value) rfl

/-- What a question reports as missing, if it gives up. -/
def demanded (s : Store) : Query → Option Missing
  | .demandFormal a => some (.formal s.function a)
  | .demandValue v => some (.value s.function v)
  | _ => none

variable {s t : Store} {q q' : Query}

theorem demanded_of_panic? {text : String} (h : s.panic? q = some text) :
    ∃ m, s.demanded q = some m ∧ m.display {} = text := by
  cases q with
  | demandFormal a =>
      rw [panic?_demandFormal] at h
      split at h
      · cases h
      · exact ⟨_, rfl, Option.some.inj h⟩
  | demandValue v =>
      rw [panic?_demandValue] at h
      split at h
      · cases h
      · exact ⟨_, rfl, Option.some.inj h⟩
  | tryFormal a =>
      -- A look-up reports what is missing, but does not give up.
      cases hformal : s.formal a <;> simp [panic?, ask, answerOf, hformal, Except.map, Except.mapError] at h
  | tryValue v =>
      cases hvalue : s.value v <;> simp [panic?, ask, answerOf, hvalue, Except.map, Except.mapError] at h
  | _ => cases h

theorem demanded_inj {m : Missing} (h : s.demanded q = some m) (h' : t.demanded q' = some m) :
    s.function = t.function ∧ q = q' := by
  have hsame := h.trans h'.symm
  cases q with
  | demandFormal a =>
      cases q' with
      | demandFormal b =>
          obtain ⟨hfunction, hkey⟩ := Missing.formal.inj (Option.some.inj hsame)
          exact ⟨hfunction, congrArg Query.demandFormal hkey⟩
      | demandValue v => exact Missing.noConfusion (Option.some.inj hsame)
      | _ => cases h'
  | demandValue v =>
      cases q' with
      | demandFormal b => exact Missing.noConfusion (Option.some.inj hsame)
      | demandValue w =>
          obtain ⟨hfunction, hkey⟩ := Missing.value.inj (Option.some.inj hsame)
          exact ⟨hfunction, congrArg Query.demandValue hkey⟩
      | _ => cases h'
  | _ => cases h

theorem demanded_congr (h : s.function = t.function) (q : Query) : s.demanded q = t.demanded q := by
  unfold demanded
  rw [h]

/-- Two demands give up with one text just if both give up, and ask the same of the same function. -/
theorem panic?_inj :
    (∃ text, s.panic? q = some text ∧ t.panic? q' = some text) ↔
      (s.panic? q).isSome ∧ (t.panic? q').isSome ∧ s.function = t.function ∧ q = q' := by
  constructor
  · rintro ⟨text, hs, ht⟩
    obtain ⟨m, hm, hmtext⟩ := demanded_of_panic? hs
    obtain ⟨n, hn, hntext⟩ := demanded_of_panic? ht
    obtain rfl := Missing.display_inj.mp (hmtext.trans hntext.symm)
    exact ⟨hs ▸ rfl, ht ▸ rfl, demanded_inj hm hn⟩
  · rintro ⟨hs, ht, hfunction, rfl⟩
    obtain ⟨text, hs⟩ := Option.isSome_iff_exists.mp hs
    obtain ⟨text', ht⟩ := Option.isSome_iff_exists.mp ht
    obtain ⟨m, hm, rfl⟩ := demanded_of_panic? hs
    obtain ⟨n, hn, rfl⟩ := demanded_of_panic? ht
    rw [demanded_congr hfunction, hn] at hm
    obtain rfl := Option.some.inj hm
    exact ⟨_, hs, ht⟩

end Store

/-- The texts for users identify what they name: the sentence about a missing thing in any style, the text with which
a demand gives up, and the number of an identity with blanks on the sides that its alignment asks for. -/
theorem displays_identify :
    (∀ style (m : Missing), m.display style = m.display {}) ∧
    (∀ style style' (m n : Missing), m.display style = n.display style' ↔ m = n) ∧
    (∀ (s : Store) a, s.panic? (.demandFormal a) =
      if s.formals.contains a then none else some ((Missing.formal s.function a).display {})) ∧
    (∀ (s : Store) v, s.panic? (.demandValue v) =
      if s.values.contains v then none else some ((Missing.value s.function v).display {})) ∧
    (∀ (s t : Store) q q', (∃ text, s.panic? q = some text ∧ t.panic? q' = some text) ↔
      (s.panic? q).isSome ∧ (t.panic? q').isSome ∧ s.function = t.function ∧ q = q') ∧
    ∀ (e : Entity) (alignment : Option Alignment) (width : Nat),
      let style : Style := { alignment, width }
      (∀ x : Id e, ∃ ds, Text.Decimal x.index ds ∧
        let gap := width - ds.length
        let before := (alignment.getD .right).before gap
        x.display style =
            String.ofList (List.replicate before ' ' ++ ds ++ List.replicate (gap - before) ' ') ∧
          (x.display style).length = max width ds.length ∧ Id.read? (x.display style) = some x) ∧
      ∀ x y : Id e, x.display style = y.display style ↔ x = y := by
  refine ⟨fun _ _ => rfl, fun _ _ _ _ => Missing.display_inj, Store.panic?_demandFormal,
    Store.panic?_demandValue, fun _ _ _ _ => Store.panic?_inj, fun e alignment width => ⟨fun x => ?_, fun x y => ?_⟩⟩
  · refine ⟨_, Text.decimal_toDigits x.index, ?_, ?_, Id.read?_display x alignment width⟩
    · rw [← Style.padded_eq, ← Id.toList_display, String.ofList_toList]
    · rw [← String.length_toList, Id.toList_display, Style.length_padded]
  · exact Id.display_inj

end Dependence

import Dependence.Proofs.Snapshot.Frames
import Dependence.Proofs.Text.Quote
import Dependence.Proofs.Text.Words

/-! # Snapshots can be told by their texts

A snapshot is proper if its names are words.  The text of a proper snapshot tells it, whatever follows, as
long as this is something that can follow a snapshot (`Snapshot.Ends`): the text begins with the longest word
(`word_append_inj`), the character after the word tells the form (`form_rest`), and parts are told one by one,
since no part begins like the end of its frame (`Frame.Legible.around_inj`).

Both ways to show snapshots have legible frames (`legible_inlineFrame`, `legible_blockFrame`), so both texts
of a proper snapshot tell it (`describe_inj`). -/

namespace Dependence

namespace Snapshot

open Text (isWord)

/-- What can follow a snapshot in a text. -/
def Ends : List Char → Prop
  | [] => True
  | ' ' :: r => r.head? = some '\x7d'
  | c :: _ => c ∈ [',', ':', ')', ']', '\x7d']

/-- How a part begins: not like the end of a frame. -/
def Begins (t : List Char) : Prop := ∃ c cs, t = c :: cs ∧ c ∉ [' ', ')', ']', '\x7d']

/-- What comes after the word of a snapshot. -/
inductive Form
  | plain
  | quoted
  | framed (b : Bracket)
  deriving DecidableEq

/-- The form that a text shows after a word. -/
def Form.of : List Char → Form
  | '"' :: _ => .quoted
  | '(' :: _ => .framed .tuple
  | '[' :: _ => .framed .list
  | '\x7b' :: _ => .framed .table
  | ' ' :: '\x7b' :: _ => .framed .record
  | _ => .plain

/-- The form of a snapshot. -/
def form : Snapshot → Form
  | .number _ | .boolean _ | .verbatim _ => .plain
  | .text _ => .quoted
  | .tuple .. => .framed .tuple
  | .record .. => .framed .record
  | .list _ => .framed .list
  | .table _ => .framed .table

/-- A snapshot whose names are words.  A word that stands alone is no truth value. -/
inductive Proper : Snapshot → Prop
  | number (n : Nat) : Proper (.number n)
  | boolean (b : Bool) : Proper (.boolean b)
  | text (s : String) : Proper (.text s)
  | verbatim {s : String} : isWord s = true → s ∉ ["true", "false"] → Proper (.verbatim s)
  | tuple {name : String} {items : List Snapshot} :
      isWord name = true → (∀ item ∈ items, Proper item) → Proper (.tuple name items)
  | record {name : String} {fields : List (String × Snapshot)} :
      isWord name = true → (∀ field ∈ fields, isWord field.1 = true) →
        (∀ field ∈ fields, Proper field.2) → Proper (.record name fields)
  | list {items : List Snapshot} : (∀ item ∈ items, Proper item) → Proper (.list items)
  | table {entries : List (Snapshot × Snapshot)} :
      (∀ entry ∈ entries, Proper entry.1) → (∀ entry ∈ entries, Proper entry.2) → Proper (.table entries)

/-- A value that is told from all proper ones by its text, whatever follows. -/
def Told {α : Type} (print : α → List Char) (proper : α → Prop) (x : α) : Prop :=
  ∀ {y : α} {r r' : List Char}, proper y → Ends r → Ends r' → print x ++ r = print y ++ r' → x = y ∧ r = r'

end Snapshot

/-- A frame that can be told from its parts. -/
structure Frame.Legible (f : Frame) (b : Snapshot.Bracket) : Prop where
  form : ∀ t, Snapshot.Form.of (f.first ++ t) = .framed b
  /-- A part is not mistaken for the end of the frame. -/
  blank_ne : ∀ {part : List Char} (r r' : List Char), Snapshot.Begins part →
    f.blank ++ r ≠ f.start ++ part ++ r'
  next_ne : ∀ r r', f.next ++ r ≠ f.last ++ r'
  /-- What follows a part can follow a snapshot. -/
  ends_next : ∀ r, Snapshot.Ends (f.next ++ r)
  ends_last : ∀ r, Snapshot.Ends (f.last ++ r)

namespace Snapshot

open Text (isWord isWordChar Breaks breaks_nil breaks_cons)

/-! ### Parts in a frame -/

section parts
variable {f : Frame} {b : Bracket} {α : Type} {print : α → List Char} {proper : α → Prop} {xs ys : List α}
  {r r' : List Char}

theorem ends_further (hf : f.Legible b) (parts : List (List Char)) (r : List Char) :
    Ends (f.further parts ++ r) := by
  cases parts with
  | nil => exact hf.ends_last r
  | cons part parts =>
      rw [Frame.further, List.append_assoc, List.append_assoc]
      exact hf.ends_next _

/-- Further parts are told one by one, and then the end of the frame. -/
theorem further_inj (hf : f.Legible b) (hxs : ∀ x ∈ xs, Told print proper x) (hys : ∀ y ∈ ys, proper y)
    (h : f.further (xs.map print) ++ r = f.further (ys.map print) ++ r') : xs = ys ∧ r = r' := by
  induction xs generalizing ys with
  | nil =>
      cases ys with
      | nil => exact ⟨rfl, List.append_cancel_left h⟩
      | cons y ys =>
          simp only [List.map_cons, List.map_nil, Frame.further, List.append_assoc] at h
          exact absurd h.symm (hf.next_ne _ _)
  | cons x xs ih =>
      cases ys with
      | nil =>
          simp only [List.map_cons, List.map_nil, Frame.further, List.append_assoc] at h
          exact absurd h (hf.next_ne _ _)
      | cons y ys =>
          simp only [List.map_cons, Frame.further, List.append_assoc, List.append_cancel_left_eq] at h
          obtain ⟨rfl, hrest⟩ := hxs x List.mem_cons_self (hys y List.mem_cons_self)
            (ends_further hf _ r) (ends_further hf _ r') h
          obtain ⟨rfl, hr⟩ := ih (fun x hx => hxs x (List.mem_cons_of_mem _ hx))
            (fun y hy => hys y (List.mem_cons_of_mem _ hy)) hrest
          exact ⟨rfl, hr⟩

/-- The parts in a frame are told, and what follows the frame. -/
theorem around_inj (hf : f.Legible b) (hxs : ∀ x ∈ xs, Told print proper x) (hys : ∀ y ∈ ys, proper y)
    (hbegins : ∀ x, proper x → Begins (print x)) (hpxs : ∀ x ∈ xs, proper x)
    (h : f.around (xs.map print) ++ r = f.around (ys.map print) ++ r') : xs = ys ∧ r = r' := by
  unfold Frame.around at h
  rw [List.append_assoc, List.append_assoc, List.append_cancel_left_eq] at h
  cases xs with
  | nil =>
      cases ys with
      | nil => exact ⟨rfl, List.append_cancel_left h⟩
      | cons y ys =>
          simp only [List.map_cons, List.map_nil, Frame.inside, List.append_assoc] at h
          rw [← List.append_assoc f.start] at h
          exact absurd h (hf.blank_ne _ _ (hbegins y (hys y List.mem_cons_self)))
  | cons x xs =>
      cases ys with
      | nil =>
          simp only [List.map_cons, List.map_nil, Frame.inside, List.append_assoc] at h
          rw [← List.append_assoc f.start] at h
          exact absurd h.symm (hf.blank_ne _ _ (hbegins x (hpxs x List.mem_cons_self)))
      | cons y ys =>
          simp only [List.map_cons, Frame.inside, List.append_assoc, List.append_cancel_left_eq] at h
          obtain ⟨rfl, hrest⟩ := hxs x List.mem_cons_self (hys y List.mem_cons_self)
            (ends_further hf _ r) (ends_further hf _ r') h
          obtain ⟨rfl, hr⟩ := further_inj hf (fun x hx => hxs x (List.mem_cons_of_mem _ hx))
            (fun y hy => hys y (List.mem_cons_of_mem _ hy)) hrest
          exact ⟨rfl, hr⟩

end parts

/-! ### Words -/

/-- The snapshot that is nothing but a word. -/
def ofWord (w : List Char) : Snapshot :=
  if w.all Char.isDigit then .number (Nat.ofDigitChars 10 w 0)
  else if w = "true".toList then .boolean true
  else if w = "false".toList then .boolean false
  else .verbatim (String.ofList w)

theorem ofWord_word {x : Snapshot} (hx : x.Proper) (hform : x.form = .plain) : ofWord x.word = x := by
  cases hx with
  | number n =>
      have hdigits : (Nat.toDigits 10 n).all Char.isDigit = true :=
        List.all_eq_true.mpr fun c hc => Nat.isDigit_of_mem_toDigits (by decide) (by decide) hc
      simp [ofWord, word, hdigits, Nat.ofDigitChars_ten_toDigits]
  | boolean b => cases b <;> rfl
  | @verbatim s hword hnot =>
      obtain ⟨c, cs, hs, hc, -⟩ := Text.exists_of_isWord hword
      have hdigits : s.toList.all Char.isDigit = false := by
        simp [hs, Text.isDigit_of_isAlpha hc]
      simp only [List.mem_cons, List.not_mem_nil, or_false, not_or] at hnot
      have htrue : s.toList ≠ "true".toList := fun he => hnot.1 (String.toList_injective he)
      have hfalse : s.toList ≠ "false".toList := fun he => hnot.2 (String.toList_injective he)
      simp only [ofWord, word, hdigits, htrue, hfalse, Bool.false_eq_true, if_false, String.ofList_toList]
  | _ => cases hform

theorem isWordChar_of_mem_word {x : Snapshot} (hx : x.Proper) : ∀ c ∈ x.word, isWordChar c = true := by
  cases hx with
  | number n =>
      intro c hc
      have hdigit : c.isDigit = true := Nat.isDigit_of_mem_toDigits (by decide) (by decide) hc
      simp [isWordChar, Char.isAlphanum, hdigit]
  | boolean b => exact List.all_eq_true.mp (by cases b <;> decide)
  | verbatim hword | tuple hword | record hword =>
      obtain ⟨-, -, -, -, hall⟩ := Text.exists_of_isWord hword
      exact hall
  | _ =>
      intro c hc
      cases hc

/-! ### Forms -/

theorem breaks_of_form {t : List Char} (h : Form.of t ≠ .plain) : Breaks t := by
  unfold Form.of at h
  split at h
  · exact breaks_cons (by decide) _
  · exact breaks_cons (by decide) _
  · exact breaks_cons (by decide) _
  · exact breaks_cons (by decide) _
  · exact breaks_cons (by decide) _
  · exact absurd rfl h

theorem begins_of_form {t : List Char} (h : Form.of t ≠ .plain) (h' : Form.of t ≠ .framed .record) :
    Begins t := by
  unfold Form.of at h h'
  split at h
  · exact ⟨_, _, rfl, by decide⟩
  · exact ⟨_, _, rfl, by decide⟩
  · exact ⟨_, _, rfl, by decide⟩
  · exact ⟨_, _, rfl, by decide⟩
  · exact absurd rfl h'
  · exact absurd rfl h

theorem Ends.form {r : List Char} (h : Ends r) : Form.of r = .plain := by
  unfold Ends at h
  split at h
  · rfl
  · rename_i r
    cases r with
    | nil => rfl
    | cons c cs =>
        obtain rfl := Option.some.inj h
        rfl
  · simp only [List.mem_cons, List.not_mem_nil, or_false] at h
    rcases h with rfl | rfl | rfl | rfl | rfl <;> rfl

theorem Ends.breaks {r : List Char} (h : Ends r) : Breaks r := by
  unfold Ends at h
  split at h
  · exact breaks_nil
  · exact breaks_cons (by decide) _
  · simp only [List.mem_cons, List.not_mem_nil, or_false] at h
    rcases h with rfl | rfl | rfl | rfl | rfl <;> exact breaks_cons (by decide) _

section shown
variable {frame : Bracket → Frame} {inner : Snapshot → List Char} (hframe : ∀ b, (frame b).Legible b)
include hframe

/-- What follows the word of a snapshot shows its form. -/
theorem form_rest (x : Snapshot) {r : List Char} (hr : Ends r) : Form.of (x.rest frame inner ++ r) = x.form := by
  cases x with
  | number | boolean | verbatim => exact hr.form
  | text s => rfl
  | tuple name items => rw [rest, Frame.around, List.append_assoc, (hframe .tuple).form, Snapshot.form]
  | record name fields => rw [rest, Frame.around, List.append_assoc, (hframe .record).form, Snapshot.form]
  | list items => rw [rest, Frame.around, List.append_assoc, (hframe .list).form, Snapshot.form]
  | table entries => rw [rest, Frame.around, List.append_assoc, (hframe .table).form, Snapshot.form]

omit hframe in
theorem rest_of_plain {x : Snapshot} (h : x.form = .plain) : x.rest frame inner = [] := by
  cases x with
  | number | boolean | verbatim => rfl
  | _ => cases h

theorem breaks_rest (x : Snapshot) {r : List Char} (hr : Ends r) : Breaks (x.rest frame inner ++ r) := by
  cases hform : x.form with
  | plain =>
      rw [rest_of_plain hform]
      exact hr.breaks
  | quoted | framed =>
      apply breaks_of_form
      rw [form_rest hframe x hr, hform]
      exact Form.noConfusion

end shown

/-! ### The beginnings of parts -/

theorem begins_of_isWordChar {c : Char} (h : Text.isWordChar c = true) (t : List Char) : Begins (c :: t) := by
  refine ⟨c, t, rfl, ?_⟩
  intro hmem
  simp only [List.mem_cons, List.not_mem_nil, or_false] at hmem
  rcases hmem with rfl | rfl | rfl | rfl <;> cases h

theorem begins_labelled {inner : Snapshot → List Char} {field : String × Snapshot} (h : isWord field.1 = true) :
    Begins (labelled inner field) := by
  obtain ⟨c, cs, hs, -, hall⟩ := Text.exists_of_isWord h
  rw [labelled, hs, List.cons_append, List.cons_append]
  exact begins_of_isWordChar (hall c (hs ▸ List.mem_cons_self)) _

theorem begins_shown {frame : Bracket → Frame} {inner : Snapshot → List Char}
    (hframe : ∀ b, (frame b).Legible b) {x : Snapshot} (hx : x.Proper) :
    Begins (x.word ++ x.rest frame inner) := by
  cases hword : x.word with
  | cons c cs => exact begins_of_isWordChar (isWordChar_of_mem_word hx c (hword ▸ List.mem_cons_self)) _
  | nil =>
      -- Without a word there is a quote or a bracket.
      have hform : x.form ≠ .plain ∧ x.form ≠ .framed .record := by
        cases hx with
        | number n => exact absurd hword Nat.toDigits_ne_nil
        | boolean b => cases b <;> cases hword
        | verbatim h | tuple h | record h =>
            obtain ⟨c, cs, hs, -, -⟩ := Text.exists_of_isWord h
            rw [word, hs] at hword
            cases hword
        | _ => exact ⟨Form.noConfusion, by simp [form]⟩
      have hof : Form.of (x.rest frame inner) = x.form := by
        rw [← form_rest hframe x (r := []) trivial, List.append_nil]
      rw [List.nil_append]
      rw [← hof] at hform
      exact begins_of_form hform.1 hform.2

/-! ### Snapshots in a text -/

section told
variable {inner : Snapshot → List Char} {render : Nat → Snapshot → List Char} {frame : Nat → Bracket → Frame}

theorem told_labelled {field : String × Snapshot} (hname : isWord field.1 = true)
    (h : Told inner Proper field.2) :
    Told (labelled inner) (fun field => isWord field.1 = true ∧ field.2.Proper) field := by
  intro field' r r' hproper hr hr' heq
  obtain ⟨-, -, -, -, hchars⟩ := Text.exists_of_isWord hname
  obtain ⟨-, -, -, -, hchars'⟩ := Text.exists_of_isWord hproper.1
  simp only [labelled, List.append_assoc, List.cons_append, List.nil_append] at heq
  obtain ⟨hnames, hvalues⟩ := Text.append_inj_of_all hchars hchars' (breaks_cons (by decide) _)
    (breaks_cons (by decide) _) heq
  simp only [List.cons.injEq, true_and] at hvalues
  obtain ⟨hvalue, hrest⟩ := h hproper.2 hr hr' hvalues
  exact ⟨Prod.ext (String.toList_injective hnames) hvalue, hrest⟩

theorem told_keyed {entry : Snapshot × Snapshot} (hkey : Told inner Proper entry.1)
    (hvalue : Told inner Proper entry.2) :
    Told (keyed inner) (fun entry => entry.1.Proper ∧ entry.2.Proper) entry := by
  intro entry' r r' hproper hr hr' heq
  simp only [keyed, List.append_assoc, List.cons_append, List.nil_append] at heq
  obtain ⟨hkeys, hvalues⟩ := hkey hproper.1 (by simp [Ends]) (by simp [Ends]) heq
  simp only [List.cons.injEq, true_and] at hvalues
  obtain ⟨hsame, hrest⟩ := hvalue hproper.2 hr hr' hvalues
  exact ⟨Prod.ext hkeys hsame, hrest⟩

variable (hshows : Shows render frame) (hframe : ∀ depth b, (frame depth b).Legible b)
include hshows hframe

theorem begins_render (depth : Nat) {x : Snapshot} (hx : x.Proper) : Begins (render depth x) := by
  rw [hshows]
  exact begins_shown (hframe depth) hx

theorem begins_keyed (depth : Nat) {entry : Snapshot × Snapshot} (h : entry.1.Proper) :
    Begins (keyed (render depth) entry) := by
  obtain ⟨c, cs, hc, hne⟩ := begins_render hshows hframe depth h
  exact ⟨c, cs ++ [':', ' '] ++ render depth entry.2, by rw [keyed, hc]; rfl, hne⟩

variable {x y : Snapshot} {depth : Nat} {r r' : List Char}

/-- The word, the form and the rest of a snapshot are told apart. -/
theorem word_append_inj (hx : x.Proper) (hy : y.Proper) (hr : Ends r) (hr' : Ends r')
    (h : render depth x ++ r = render depth y ++ r') :
    x.word = y.word ∧ x.form = y.form ∧
      x.rest (frame depth) (render (depth + 1)) ++ r = y.rest (frame depth) (render (depth + 1)) ++ r' := by
  rw [hshows, hshows, List.append_assoc, List.append_assoc] at h
  obtain ⟨hword, hrest⟩ := Text.append_inj_of_all (isWordChar_of_mem_word hx) (isWordChar_of_mem_word hy)
    (breaks_rest (hframe depth) x hr) (breaks_rest (hframe depth) y hr') h
  refine ⟨hword, ?_, hrest⟩
  rw [← form_rest (hframe depth) x hr, hrest, form_rest (hframe depth) y hr']

theorem told_of_plain (hx : x.Proper) (hplain : x.form = .plain) : Told (render depth) Proper x := by
  intro y r r' hy hr hr' h
  obtain ⟨hword, hform, hrest⟩ := word_append_inj hshows hframe hx hy hr hr' h
  have hplain' : y.form = .plain := hform.symm.trans hplain
  rw [rest_of_plain hplain, rest_of_plain hplain'] at hrest
  exact ⟨by rw [← ofWord_word hx hplain, hword, ofWord_word hy hplain'], hrest⟩

/-- A proper snapshot is told by its text, whatever follows. -/
theorem told_of_proper (hx : x.Proper) : Told (render depth) Proper x := by
  -- The parts of a snapshot stand one step deeper, and each is followed by something else of it.  Both are
  -- covered, since `Told` speaks of all that can follow.
  induction hx generalizing depth with
  | number n => exact told_of_plain hshows hframe (.number n) rfl
  | boolean b => exact told_of_plain hshows hframe (.boolean b) rfl
  | verbatim hword hnot => exact told_of_plain hshows hframe (.verbatim hword hnot) rfl
  | text s =>
      intro y r r' hy hr hr' h
      obtain ⟨-, hform, hrest⟩ := word_append_inj hshows hframe (.text s) hy hr hr' h
      cases hy with
      | text t =>
          obtain ⟨rfl, hr⟩ := Text.quote_append_inj hrest
          exact ⟨rfl, hr⟩
      | _ => cases hform
  | @tuple name items hname hitems ih =>
      intro y r r' hy hr hr' h
      obtain ⟨hword, hform, hrest⟩ := word_append_inj hshows hframe (.tuple hname hitems) hy hr hr' h
      cases hy with
      | tuple hname' hitems' =>
          obtain ⟨rfl, hr⟩ := around_inj (hframe depth .tuple) (fun item hi => ih item hi) hitems'
            (fun _ => begins_render hshows hframe (depth + 1)) hitems hrest
          exact ⟨congrArg (Snapshot.tuple · items) (String.toList_injective hword), hr⟩
      | _ => cases hform
  | @record name fields hname hnames hvalues ih =>
      intro y r r' hy hr hr' h
      obtain ⟨hword, hform, hrest⟩ :=
        word_append_inj hshows hframe (.record hname hnames hvalues) hy hr hr' h
      cases hy with
      | record hname' hnames' hvalues' =>
          obtain ⟨rfl, hr⟩ := around_inj (hframe depth .record)
            (fun field hi => told_labelled (hnames field hi) (ih field hi))
            (fun field hi => ⟨hnames' field hi, hvalues' field hi⟩) (fun _ h => begins_labelled h.1)
            (fun field hi => ⟨hnames field hi, hvalues field hi⟩) hrest
          exact ⟨congrArg (Snapshot.record · fields) (String.toList_injective hword), hr⟩
      | _ => cases hform
  | @list items hitems ih =>
      intro y r r' hy hr hr' h
      obtain ⟨-, hform, hrest⟩ := word_append_inj hshows hframe (.list hitems) hy hr hr' h
      cases hy with
      | list hitems' =>
          obtain ⟨rfl, hr⟩ := around_inj (hframe depth .list) (fun item hi => ih item hi) hitems'
            (fun _ => begins_render hshows hframe (depth + 1)) hitems hrest
          exact ⟨rfl, hr⟩
      | _ => cases hform
  | @table entries hkeys hvalues ihkeys ihvalues =>
      intro y r r' hy hr hr' h
      obtain ⟨-, hform, hrest⟩ := word_append_inj hshows hframe (.table hkeys hvalues) hy hr hr' h
      cases hy with
      | table hkeys' hvalues' =>
          obtain ⟨rfl, hr⟩ := around_inj (hframe depth .table)
            (fun entry hi => told_keyed (ihkeys entry hi) (ihvalues entry hi))
            (fun entry hi => ⟨hkeys' entry hi, hvalues' entry hi⟩)
            (fun _ h => begins_keyed hshows hframe (depth + 1) h.1)
            (fun entry hi => ⟨hkeys entry hi, hvalues entry hi⟩) hrest
          exact ⟨rfl, hr⟩
      | _ => cases hform

end told

/-! ### The two ways to show snapshots -/

theorem legible_inlineFrame (b : Bracket) : (inlineFrame b).Legible b where
  form t := by cases b <;> rfl
  blank_ne := by
    intro part r r' hpart
    obtain ⟨c, cs, rfl, hc⟩ := hpart
    simp only [List.mem_cons, List.not_mem_nil, or_false, not_or] at hc
    cases b <;> simp [inlineFrame, Bracket.ends, Ne.symm, hc]
  next_ne r r' := by cases b <;> simp [inlineFrame, Bracket.ends]
  ends_next r := by simp [inlineFrame, Ends]
  ends_last r := by cases b <;> simp [inlineFrame, Bracket.ends, Ends]

theorem legible_blockFrame (depth : Nat) (b : Bracket) : (blockFrame depth b).Legible b where
  form t := by cases b <;> rfl
  blank_ne := by
    intro part r r' _
    cases b <;> simp [blockFrame, Bracket.ends]
  next_ne r r' := by
    have hmargin : margin (depth + 1) = margin depth ++ List.replicate 4 ' ' :=
      List.replicate_append_replicate.symm
    cases b <;> simp [blockFrame, Bracket.ends, hmargin, List.replicate_succ]
  ends_next r := by simp [blockFrame, Ends]
  ends_last r := by simp [blockFrame, Ends]

/-- Both texts of a proper snapshot tell it. -/
theorem describe_inj {x y : Snapshot} (hx : x.Proper) (hy : y.Proper) (isSpacious : Bool) :
    x.describe isSpacious = y.describe isSpacious ↔ x = y := by
  refine ⟨fun h => ?_, congrArg _⟩
  have htold : ∀ {render : Nat → Snapshot → List Char} {frame : Nat → Bracket → Frame}, Shows render frame →
      (∀ depth b, (frame depth b).Legible b) → render 0 x = render 0 y → x = y := by
    intro render frame hshows hframe h
    have hends : Ends [] := trivial
    have hboth : render 0 x ++ [] = render 0 y ++ [] := by rw [h]
    exact (told_of_proper hshows hframe hx hy hends hends hboth).1
  cases isSpacious with
  | false => exact htold shows_compact (fun _ => legible_inlineFrame) (String.ofList_injective h)
  | true => exact htold shows_indented legible_blockFrame (String.ofList_injective h)

end Snapshot
end Dependence

import Dependence.Proofs.Format.Layout
import Dependence.Proofs.Format.Texts
import Dependence.Proofs.Format.Trees
import Dependence.Proofs.Json.Outline

/-! # Texts that are read have outlines

A `Layout` says where in a tree records are expected, and a `Body` is what stands at such a place.  Whatever the reader
of texts accepts has an outline in which no body has a field twice; and if no content of a variant is given as an array,
the reader of trees makes the same of the outline (`Format.Outlined`).

Every format keeps this of the formats that it is made from.  A member of an object is read by `Row.scanValue`, so one
member adds one value of the outline to what is read so far (`Row.takes_of_scanValue`), and by induction on the rounds
the members of the outline complete the row (`Row.completes_of_rounds`). -/

namespace Dependence

/-! ### Readers of texts and of trees side by side -/

/-- Whatever is read from a text has an outline in which no record has a field twice; and the same is read from the
outline if no content of a variant is given as an array. -/
structure Scan.Outlined {α : Type} (scan : Scan α) (ofJson : Json → Except Mismatch α) (layout : Layout) : Prop where
  outlined : ∀ {s rest x}, scan s = .ok (x, rest) →
    ∃ v, Json.sketch s = .ok (v, rest) ∧ layout.Once v ∧ (layout.Plain v → ofJson v = .ok x)

namespace Scan

variable {α β : Type} {scan : Scan α} {ofJson : Json → Except Mismatch α} {layout : Layout}

theorem Outlined.progress (h : scan.Outlined ofJson layout) : Progress scan := by
  constructor
  intro s rest x hread
  obtain ⟨v, hv, -⟩ := h.outlined hread
  exact Json.progress_sketch.length_lt hv

theorem Outlined.map (h : scan.Outlined ofJson layout) (f : α → β) :
    Outlined (fun s => scan s >>= fun (x, s) => .ok (f x, s)) (fun v => (ofJson v).map f) layout := by
  constructor
  intro s rest y hread
  obtain ⟨⟨x, s'⟩, hx, hread⟩ := bind_eq_ok_iff.mp hread
  obtain ⟨rfl, rfl⟩ := Prod.mk.inj (Except.ok.inj hread)
  obtain ⟨v, hv, honce, hplain⟩ := h.outlined hx
  exact ⟨v, hv, honce, fun h => map_eq_ok_iff.mpr ⟨x, hplain h, rfl⟩⟩

theorem Outlined.checked (h : scan.Outlined ofJson layout) (check : α → Except Mismatch β) :
    Outlined (checked scan check) (fun v => ofJson v >>= check) layout := by
  constructor
  intro s rest y hread
  obtain ⟨x, hx, hy⟩ := checked_eq_ok_iff.mp hread
  obtain ⟨v, hv, honce, hplain⟩ := h.outlined hx
  exact ⟨v, hv, honce, fun h => bind_eq_ok_iff.mpr ⟨x, hplain h, hy⟩⟩

end Scan

namespace Format

variable {α β : Type} {f : Format α} {layout : Layout}

/-- The two readers of a format side by side. -/
abbrev Outlined (f : Format α) (layout : Layout) : Prop := f.scan.Outlined f.ofJson layout

/-! ### Plain values -/

theorem outlined_word : word.Outlined .leaf := by
  constructor
  intro s rest x h
  obtain ⟨c, s', hs, h⟩ := Scan.atHead_eq_ok_iff.mp (show Scan.atHead _ s = _ from h)
  split at h
  · rename_i hc
    obtain ⟨n, hn, hx⟩ := Scan.checked_eq_ok_iff.mp h
    exact ⟨.number n, Json.sketch_number hs hc hn, Layout.all_leaf _, fun _ => hx⟩
  · cases h

theorem outlined_boolean : boolean.Outlined .leaf := by
  constructor
  intro s rest x h
  obtain ⟨c, s', hs, h⟩ := Scan.atHead_eq_ok_iff.mp (show Scan.atHead _ s = _ from h)
  split at h
  · rename_i hc
    obtain ⟨rfl, rfl⟩ := Scan.keyword_eq_ok_iff.mp h
    exact ⟨.boolean true, Json.sketch_eq_ok_iff.mpr (.isTrue (hc ▸ hs)), Layout.all_leaf _, fun _ => rfl⟩
  · split at h
    · rename_i hc
      obtain ⟨rfl, rfl⟩ := Scan.keyword_eq_ok_iff.mp h
      exact ⟨.boolean false, Json.sketch_eq_ok_iff.mpr (.isFalse (hc ▸ hs)), Layout.all_leaf _, fun _ => rfl⟩
    · cases h

theorem outlined_string : string.Outlined .leaf := by
  constructor
  intro s rest x h
  obtain ⟨c, s', hs, h⟩ := Scan.atHead_eq_ok_iff.mp (show Scan.atHead _ s = _ from h)
  split at h
  · rename_i hc
    exact ⟨.string x, Json.sketch_string (hc ▸ hs) h, Layout.all_leaf _, fun _ => rfl⟩
  · cases h

theorem outlined_unit : unit.Outlined .leaf := by
  constructor
  intro s rest x h
  obtain ⟨c, s', hs, h⟩ := Scan.atHead_eq_ok_iff.mp (show Scan.atHead _ s = _ from h)
  split at h
  · rename_i hc
    obtain ⟨rfl, -⟩ := Scan.keyword_eq_ok_iff.mp h
    exact ⟨.null, Json.sketch_eq_ok_iff.mpr (.null (hc ▸ hs)), Layout.all_leaf _, fun _ => rfl⟩
  · cases h

/-! ### Formats from formats -/

theorem outlined_map (hf : f.Outlined layout) (make : α → β) (parts : β → α) :
    (f.map make parts).Outlined layout :=
  Scan.Outlined.map hf make

theorem outlined_refine (hf : f.Outlined layout) (check : α → Except String β) (parts : β → α) :
    (f.refine check parts).Outlined layout :=
  Scan.Outlined.checked hf fun x => (check x).mapError .refused

/-- Null is not among the outlines of what is there. -/
theorem outlined_optional (hf : f.Outlined .leaf) : f.optional.Outlined .leaf := by
  constructor
  intro s rest x h
  rcases optional_scan_eq_ok_iff.mp h with ⟨hs, rfl⟩ | ⟨hnot, y, hy, rfl⟩
  · exact ⟨.null, Json.sketch_eq_ok_iff.mpr (.null hs), Layout.all_leaf _, fun _ => rfl⟩
  · obtain ⟨v, hv, -, hplain⟩ := hf.outlined hy
    refine ⟨v, Json.sketch_of_skipBlanks hv, Layout.all_leaf _, ?_⟩
    intro hall
    refine optional_ofJson_eq_ok_iff.mpr (.inr ⟨?_, y, hplain hall, rfl⟩)
    rintro rfl
    obtain ⟨s', hs'⟩ := Json.head_of_sketch_null hv
    rw [Scan.skipBlanks_skipBlanks] at hs'
    exact hnot s' hs'

/-- Every item of the list has its place in the outline. -/
theorem outlined_items (hf : f.Outlined layout) {isFirst : Bool} {xs : List α} {s rest : List Char}
    (h : Scan.Listed ']' f.scan isFirst s xs rest) :
    ∃ items, Scan.Listed ']' Json.sketch isFirst s items rest ∧ (∀ item ∈ items, layout.Once item) ∧
      ((∀ item ∈ items, layout.Plain item) → List.Forall₂ (fun item x => f.ofJson item = .ok x) items xs) := by
  induction h with
  | nil hs => exact ⟨[], .nil hs, List.forall_mem_nil _, fun _ => .nil⟩
  | cons hmore hx _ ih =>
      obtain ⟨v, hv, honce, hplain⟩ := hf.outlined hx
      obtain ⟨items, hitems, honces, hplains⟩ := ih
      refine ⟨v :: items, .cons hmore hv hitems, List.forall_mem_cons.mpr ⟨honce, honces⟩, ?_⟩
      intro hall
      obtain ⟨hhead, htail⟩ := List.forall_mem_cons.mp hall
      exact .cons (hplain hhead) (hplains htail)

theorem outlined_list (hf : f.Outlined layout) : f.list.Outlined (.list layout) := by
  constructor
  intro s rest xs h
  obtain ⟨c, s', hs, h⟩ := Scan.atHead_eq_ok_iff.mp (show Scan.atHead _ s = _ from h)
  split at h
  · rename_i hc
    have hlisted := (Scan.entries_eq_ok_iff (.inl rfl) hf.progress).mp h
    obtain ⟨items, hitems, honce, hplain⟩ := outlined_items hf hlisted
    refine ⟨.array items, Json.sketch_array (hc ▸ hs) hitems, Layout.all_list_iff.mpr honce, ?_⟩
    intro hall
    exact list_ofJson_eq_ok_iff.mpr ⟨items, rfl, hplain (Layout.all_list_iff.mp hall)⟩
  · cases h

end Format

namespace Row

variable {ρ π : Type} {name : String} {s left : List Char}

/-! ### Records -/

/-- What the reader of texts makes of a text that has this outline. -/
def fromText {α : Type} (f : Format α) (v : Json) (x : α) : Prop :=
  ∃ s rest, f.scan s = .ok (x, rest) ∧ Json.sketch s = .ok (v, rest)

/-- The formats of the fields have the given layouts. -/
def Outlined {ρ π : Type} : Row ρ π → List (String × Layout) → Prop
  | .nil, [] => True
  | .nil, _ :: _ => False
  | .cons _ _ _ _ _, [] => False
  | .cons name format _ _ rest, (other, layout) :: fields =>
      other = name ∧ format.Outlined layout ∧ rest.Outlined fields

variable {row : Row ρ π} {fields : List (String × Layout)}

/-- A member adds its outline to what is read so far. -/
theorem takes_of_scanValue {ρ π : Type} : ∀ {row : Row ρ π} {fields : List (String × Layout)} {cells cells' : π},
    row.Outlined fields → row.scanValue name cells s = .ok (cells', left) →
      ∃ s₁ v, Scan.symbol ':' s = .ok ((), s₁) ∧ Json.sketch s₁ = .ok (v, left) ∧
        row.Takes fromText name v cells cells'
  | .nil, _, (), (), _, h => by
      obtain ⟨s₁, hcolon, hskip⟩ := scanValue_nil_eq_ok_iff.mp h
      obtain ⟨v, hv⟩ := Json.exists_sketch_of_skip hskip
      exact ⟨s₁, v, hcolon, hv, trivial⟩
  | .cons _ _ _ _ _, [], _, _, houtlined, _ => houtlined.elim
  | .cons other format _ _ rest, (_, _) :: _, (cell, cells), (cell', cells'), houtlined, h => by
      obtain ⟨-, hformat, hrest⟩ := houtlined
      have hvalue := scanValue_cons_eq_ok_iff.mp h
      by_cases hname : name = other
      · rw [if_pos hname] at hvalue
        obtain ⟨rfl, rfl, s₁, x, hcolon, hx, rfl⟩ := hvalue
        obtain ⟨v, hv, -⟩ := hformat.outlined hx
        refine ⟨s₁, v, hcolon, hv, ?_⟩
        rw [Takes, if_pos hname]
        exact ⟨rfl, ⟨x, rfl, s₁, left, hx, hv⟩, rfl⟩
      · rw [if_neg hname] at hvalue
        obtain ⟨rfl, hvalue⟩ := hvalue
        obtain ⟨s₁, v, hcolon, hv, htakes⟩ := takes_of_scanValue hrest hvalue
        refine ⟨s₁, v, hcolon, hv, ?_⟩
        rw [Takes, if_neg hname]
        exact ⟨rfl, htakes⟩

/-- The members of the outline complete what is read so far. -/
theorem completes_of_rounds (h : row.Outlined fields) (hnodup : row.names.Nodup) {xs : ρ} :
    ∀ {fuel : Nat} {isFirst : Bool} {cells : π} {s : List Char},
      Scan.rounds row.memberRound fuel (isFirst, cells) s = .ok (xs, left) →
        ∃ members, Scan.Listed '\x7d' Json.sketchMember isFirst s members left ∧
          row.Completes fromText cells (Json.valuesOf members) xs
  | 0, _, _, _, hread => by cases hread
  | fuel + 1, isFirst, cells, s, hread => by
      rw [Scan.rounds] at hread
      split at hread
      · cases hread
      · rename_i hround
        obtain ⟨s₁, name, s₂, cells', hmore, hname, hvalue, rfl⟩ := memberRound_eq_again_iff.mp hround
        obtain ⟨s₃, v, hcolon, hv, htakes⟩ := takes_of_scanValue h hvalue
        obtain ⟨members, hmembers, hcompletes⟩ := completes_of_rounds h hnodup hread
        refine ⟨(name, v) :: members, .cons hmore (Json.sketchMember_eq hname hcolon hv) hmembers, ?_⟩
        rw [Json.valuesOf_cons, ← exists_takes_iff hnodup]
        exact ⟨cells', htakes, hcompletes⟩
      · rename_i hround
        obtain ⟨rfl, rfl⟩ := Prod.mk.inj (Except.ok.inj hread)
        obtain ⟨hs, hfinish⟩ := memberRound_eq_last_iff.mp hround
        exact ⟨[], .nil hs, finish_eq_ok_iff.mp hfinish⟩

theorem Outlined.map_fst : ∀ {ρ π : Type} {row : Row ρ π} {fields : List (String × Layout)}, row.Outlined fields →
    fields.map Prod.fst = row.names
  | _, _, .nil, [], _ => rfl
  | _, _, .nil, _ :: _, h => h.elim
  | _, _, .cons _ _ _ _ _, [], h => h.elim
  | _, _, .cons _ _ _ _ rest, (_, _) :: _, h => by
      obtain ⟨rfl, -, hrest⟩ := h
      rw [List.map_cons, hrest.map_fst, names]

/-- The reader of texts has only one outline to offer. -/
theorem agrees_of_fromText {α : Type} {f : Format α} {layout : Layout} {v : Json} {x : α} (h : f.Outlined layout)
    (hread : fromText f v x) : layout.Once v ∧ (layout.Plain v → f.ofJson v = .ok x) := by
  obtain ⟨s, rest, hx, hv⟩ := hread
  obtain ⟨w, hw, hgood⟩ := h.outlined hx
  rw [hv] at hw
  cases hw
  exact hgood

theorem Fills.once {α : Type} {format : Format α} {layout : Layout} {ifAbsent : Option α} {x : α}
    (h : format.Outlined layout) : ∀ {cell : Option α} {values : List Json},
      Fills fromText format ifAbsent x cell values → ∀ v ∈ values, layout.Once v
  | some _, [], _, _, hmem => by cases hmem
  | none, [], _, _, hmem => by cases hmem
  | none, [w], hfills, v, hmem => by
      rw [List.mem_singleton.mp hmem]
      exact (agrees_of_fromText h hfills).1
  | some _, _ :: _, hfills, _, _ => hfills.elim
  | none, _ :: _ :: _, hfills, _, _ => hfills.elim

theorem Fills.fromTree {α : Type} {format : Format α} {layout : Layout} {ifAbsent : Option α} {x : α}
    (h : format.Outlined layout) : ∀ {cell : Option α} {values : List Json},
      Fills fromText format ifAbsent x cell values → (∀ v ∈ values, layout.Plain v) →
        Fills fromTree format ifAbsent x cell values
  | some _, [], hfills, _ => hfills
  | none, [], hfills, _ => hfills
  | none, [w], hfills, hplain => (agrees_of_fromText h hfills).2 (hplain w (List.mem_singleton_self w))
  | some _, _ :: _, hfills, _ => hfills.elim
  | none, _ :: _ :: _, hfills, _ => hfills.elim

/-- No record in the value of a field has a field twice. -/
theorem Completes.once {values : String → List Json} {ρ π : Type} :
    ∀ {row : Row ρ π} {fields : List (String × Layout)} {cells : π} {xs : ρ}, row.Outlined fields →
      row.Completes fromText cells values xs → ∀ name, ∀ v ∈ values name, (Layout.ofName fields name).Once v
  | .nil, [], (), (), _, _, _, v, _ => Layout.all_leaf v
  | .nil, _ :: _, _, _, h, _, _, _, _ => h.elim
  | .cons _ _ _ _ _, [], _, _, h, _, _, _, _ => h.elim
  | .cons other format _ _ rest, (_, layout) :: fields, (_, _), (_, _), h, hcompletes, name, v, hmem => by
      obtain ⟨rfl, hformat, hrest⟩ := h
      rw [Layout.ofName_cons]
      split
      · rename_i hname
        subst hname
        exact Fills.once hformat hcompletes.1 v hmem
      · exact Completes.once hrest hcompletes.2 name v hmem

/-- The reader of trees completes the row with the same values. -/
theorem Completes.fromTree {values : String → List Json} {ρ π : Type} :
    ∀ {row : Row ρ π} {fields : List (String × Layout)} {cells : π} {xs : ρ}, row.Outlined fields → row.names.Nodup →
      row.Completes fromText cells values xs → (∀ name, ∀ v ∈ values name, (Layout.ofName fields name).Plain v) →
        row.Completes fromTree cells values xs
  | .nil, _, (), (), _, _, _, _ => trivial
  | .cons _ _ _ _ _, [], _, _, h, _, _, _ => h.elim
  | .cons other format _ _ rest, (_, layout) :: fields, (_, _), (_, _), h, hnodup, hcompletes, hplain => by
      obtain ⟨rfl, hformat, hrest⟩ := h
      obtain ⟨hother, hnames⟩ := List.nodup_cons.mp hnodup
      refine ⟨Fills.fromTree hformat hcompletes.1 ?_, Completes.fromTree hrest hnames hcompletes.2 ?_⟩
      · intro v hmem
        have hv := hplain _ v hmem
        rwa [Layout.ofName_cons, if_pos rfl] at hv
      · intro name v hmem
        have hv := hplain name v hmem
        rw [Layout.ofName_cons] at hv
        split at hv
        · rename_i hname
          subst hname
          rw [Layout.ofName_of_not_mem (hrest.map_fst ▸ hother)]
          exact Layout.all_leaf v
        · exact hv

/-- What an object is read as. -/
theorem outlined_scanMembers (h : row.Outlined fields) (hnodup : row.names.Nodup) (isVariant : Bool) {xs : ρ}
    (hread : row.scanMembers s = .ok (xs, left)) :
    ∃ members, Scan.Listed '\x7d' Json.sketchMember true s members left ∧
      (Layout.record isVariant fields).Once (.object members) ∧
      ((Layout.record isVariant fields).Plain (.object members) → row.ofMembers members = .ok xs) := by
  obtain ⟨members, hmembers, hcompletes⟩ := completes_of_rounds h hnodup hread
  refine ⟨members, hmembers, Layout.all_record_object_iff.mpr ⟨?_, ?_⟩, ?_⟩
  · rintro members' ⟨⟩ name hname
    rw [← Json.length_valuesOf]
    exact hcompletes.length_le name (h.map_fst ▸ hname)
  · intro name v hmem
    exact hcompletes.once h name v (Json.mem_valuesOf.mpr hmem)
  · intro hplain
    obtain ⟨-, hplain⟩ := Layout.all_record_object_iff.mp hplain
    have htree := hcompletes.fromTree h hnodup fun name v hmem => hplain name v (Json.mem_valuesOf.mp hmem)
    rw [ofMembers_eq_ok_iff hnodup]
    refine (completes_congr row row.blank xs ?_).mp htree
    exact fun name hname => Json.valuesOf_eq_toList (hcompletes.length_le name hname)

/-- An array is read as far as the row goes. -/
theorem outlined_scanFront (expected : String) {ρ π : Type} :
    ∀ {row : Row ρ π} {fields : List (String × Layout)} (read : Nat) {xs : ρ} {s s₁ : List Char},
      row.Outlined fields → row.scanFront expected read s = .ok (xs, s₁) → Scan.skipBlanks s₁ = ']' :: left →
        ∃ items, Scan.Listed ']' Json.sketch (read = 0) s items left ∧
          (∀ body ∈ Layout.ofItems fields items, body.Once) ∧
          ((∀ body ∈ Layout.ofItems fields items, body.Plain) → row.Enumerates items xs [])
  | .nil, [], read, (), s, s₁, _, hread, hend => by
      obtain ⟨-, rfl⟩ := Prod.mk.inj (Except.ok.inj hread)
      exact ⟨[], .nil hend, Layout.all_ofItems_nil, fun _ => rfl⟩
  | .nil, _ :: _, _, _, _, _, h, _, _ => h.elim
  | .cons _ _ _ _ _, [], _, _, _, _, h, _, _ => h.elim
  | .cons _ format _ ifShort rest, (_, layout) :: fields, read, (x, xs), s, s₁, h, hread, hend => by
      obtain ⟨-, hformat, hrest⟩ := h
      obtain ⟨⟨goesOn, s₂⟩, hmore, hread⟩ := bind_eq_ok_iff.mp hread
      cases goesOn with
      | true =>
          obtain ⟨⟨y, s₃⟩, hy, hread⟩ := bind_eq_ok_iff.mp hread
          obtain ⟨⟨ys, s₄⟩, hys, hread⟩ := bind_eq_ok_iff.mp hread
          cases hread
          obtain ⟨v, hv, honce, hplain⟩ := hformat.outlined hy
          obtain ⟨items, hitems, honces, hplains⟩ := outlined_scanFront expected (read + 1) hrest hys hend
          refine ⟨v :: items, .cons hmore hv hitems, List.forall_mem_append.mpr ⟨honce, honces⟩, ?_⟩
          intro hall
          obtain ⟨hhead, htail⟩ := List.forall_mem_append.mp hall
          exact ⟨hplain hhead, hplains htail⟩
      | false =>
          obtain ⟨t, hs, rfl⟩ := Scan.more_eq_false_iff.mp hmore
          cases ifShort with
          | none => cases hread
          | some z =>
              obtain ⟨⟨ys, s₃⟩, hys, hread⟩ := bind_eq_ok_iff.mp hread
              cases hread
              obtain ⟨items, hitems, -, hplains⟩ := outlined_scanFront expected (read + 1) hrest hys hend
              obtain ⟨rfl, rfl⟩ := hitems.of_closed (.inl rfl)
              exact ⟨[], .nil hs, Layout.all_ofItems_nil, fun _ => ⟨rfl, hplains Layout.all_ofItems_nil⟩⟩

theorem outlined_scanItems (h : row.Outlined fields) {expected : String} (expected' : String) {xs : ρ}
    (hread : row.scanItems expected s = .ok (xs, left)) :
    ∃ items, Scan.Listed ']' Json.sketch true s items left ∧
      (∀ body ∈ Layout.ofItems fields items, body.Once) ∧
      ((∀ body ∈ Layout.ofItems fields items, body.Plain) → row.ofItems expected' items = .ok xs) := by
  obtain ⟨⟨ys, s₁⟩, hys, hread⟩ := bind_eq_ok_iff.mp hread
  obtain ⟨⟨_, s₂⟩, hend, hread⟩ := bind_eq_ok_iff.mp hread
  cases hread
  obtain ⟨items, hitems, honce, hplain⟩ := outlined_scanFront expected 0 h hys (Scan.symbol_eq_ok_iff.mp hend)
  exact ⟨items, hitems, honce, fun hall => ofItems_eq_ok_iff.mpr (hplain hall)⟩

end Row

namespace Format

variable {α ρ π : Type} {row : Row ρ π} {fields : List (String × Layout)}

theorem outlined_record (title : String) (h : row.Outlined fields) (hnodup : row.names.Nodup) :
    (record title row).Outlined (.record false fields) := by
  constructor
  intro s rest xs hread
  obtain ⟨c, s', hs, hread⟩ := Scan.atHead_eq_ok_iff.mp (show Scan.atHead _ s = _ from hread)
  split at hread
  · rename_i hc
    obtain ⟨members, hmembers, honce, hplain⟩ := Row.outlined_scanMembers h hnodup false hread
    exact ⟨.object members, Json.sketch_object (hc ▸ hs) hmembers, honce, hplain⟩
  · split at hread
    · rename_i hc
      obtain ⟨items, hitems, honce, hplain⟩ := Row.outlined_scanItems h _ hread
      refine ⟨.array items, Json.sketch_array (hc ▸ hs) hitems, Layout.all_record_array_iff.mpr ⟨?_, honce⟩, ?_⟩
      · intro members hmembers
        cases hmembers
      · exact fun hall => hplain (Layout.all_record_array_iff.mp hall).2
    · cases hread

/-- No records are expected in the parts of a tuple. -/
theorem outlined_tuple (h : row.Outlined (Layout.leaves row.names)) : (tuple row).Outlined .leaf := by
  constructor
  intro s rest xs hread
  obtain ⟨c, s', hs, hread⟩ := Scan.atHead_eq_ok_iff.mp (show Scan.atHead _ s = _ from hread)
  split at hread
  · rename_i hc
    obtain ⟨items, hitems, -, hplain⟩ := Row.outlined_scanItems h _ hread
    refine ⟨.array items, Json.sketch_array (hc ▸ hs) hitems, Layout.all_leaf _, fun _ => hplain ?_⟩
    rw [Layout.ofItems_leaves]
    exact List.forall_mem_nil _
  · cases hread

end Format

/-! ### Choices -/

namespace Branch

variable {α ρ π : Type} {row : Row ρ π} {fields : List (String × Layout)} {layout : Layout}

/-- The two readers of a variant side by side. -/
abbrev Outlined (branch : Branch α) (layout : Layout) : Prop := branch.scan.Outlined branch.ofJson layout

theorem outlined_constant (name : String) (x : α) : (constant name x).Outlined .leaf :=
  Format.outlined_unit.map fun _ => x

/-- Only an object is the content of a variant that the reader of trees accepts. -/
theorem outlined_record (type name : String) (make : ρ → α) (h : row.Outlined fields) (hnodup : row.names.Nodup) :
    (record type name row make).Outlined (.record true fields) := by
  constructor
  intro s rest x hread
  obtain ⟨⟨xs, s₁⟩, hxs, hread⟩ := bind_eq_ok_iff.mp hread
  cases hread
  obtain ⟨c, s', hs, hread⟩ := Scan.atHead_eq_ok_iff.mp (show Scan.atHead _ s = _ from hxs)
  split at hread
  · rename_i hc
    obtain ⟨members, hmembers, honce, hplain⟩ := Row.outlined_scanMembers h hnodup true hread
    exact ⟨.object members, Json.sketch_object (hc ▸ hs) hmembers, honce,
      fun hall => map_eq_ok_iff.mpr ⟨xs, hplain hall, rfl⟩⟩
  · split at hread
    · rename_i hc
      obtain ⟨items, hitems, honce, -⟩ := Row.outlined_scanItems h "" hread
      refine ⟨.array items, Json.sketch_array (hc ▸ hs) hitems, Layout.all_record_array_iff.mpr ⟨?_, honce⟩, ?_⟩
      · intro members hmembers
        cases hmembers
      · intro hall
        exact absurd rfl ((Layout.all_record_array_iff.mp hall).1 rfl items)
    · cases hread

end Branch

namespace Format

variable {α : Type} {branches : List (Branch α)} {write : α → Json} {variants : List (String × Layout)}

/-- The object in which a choice is written has one member. -/
theorem outlined_choice (h : ∀ branch ∈ branches, branch.Outlined (Layout.ofName variants branch.name))
    (hnodup : (branches.map Branch.name).Nodup) : (choice branches write).Outlined (.choice variants) := by
  constructor
  intro s rest x hread
  rcases choice_scan_eq_ok_iff.mp hread with
    ⟨s', name, hs, hname, hx⟩ | ⟨s₁, s₂, s₃, s₄, name, branch, hs, hname, hfind, hcolon, hx, hbrace⟩
  · exact ⟨.string name, Json.sketch_string hs hname, Layout.all_leaf (.string name), fun _ => hx⟩
  · obtain ⟨hmem, rfl⟩ := (Branch.find_eq_ok_iff hnodup).mp hfind
    obtain ⟨v, hv, honce, hplain⟩ := (h branch hmem).outlined hx
    obtain ⟨s', hs', hstring⟩ := Scan.quoted_eq_ok_iff.mp hname
    have hmore : Scan.more '\x7d' true s₁ = .ok (true, Scan.skipBlanks s₁) :=
      Scan.more_first_eq_true_iff.mpr ⟨'"', s', hs', by decide, hs'⟩
    have hname' : Scan.quoted Quoted.scan (Scan.skipBlanks s₁) = .ok (branch.name, s₂) :=
      Scan.quoted_eq_ok_iff.mpr ⟨s', (Scan.skipBlanks_skipBlanks s₁).trans hs', hstring⟩
    have hmember := Json.sketchMember_eq hname' hcolon hv
    have hfields : Json.fields [(branch.name, v)] = [(branch.name, v)] := rfl
    refine ⟨.object [(branch.name, v)], Json.sketch_object hs (.cons hmore hmember (.nil hbrace)), ?_, ?_⟩
    · exact Layout.all_ofMembers_iff.mpr fun other w hother => by
        cases List.mem_singleton.mp hother
        exact honce
    · intro hall
      have hread := hplain (Layout.all_ofMembers_iff.mp hall branch.name v (List.mem_singleton_self _))
      simp only [choice, hfields, hfind]
      exact hread

end Format
end Dependence

import Dependence.Proofs.Format.Texts
import Dependence.Proofs.Format.Trees
import Dependence.Proofs.Json.Outline

/-! # Texts of trees that are read

What the reader of trees makes of a tree, the reader of texts makes of every text of the tree, if no object of the tree
has two members of one name (`Scan.Rereads`).  Every format keeps this of the formats that it is made from.

A text of a tree is taken apart by `Json.spells_of_scan`: each kind of tree begins with a character of its own.  The
members of an object are read in the order of the text, and complete the row in this order as they do in any other
(`Row.settles_members`). -/

namespace Dependence

/-! ### The texts of a tree -/

namespace Json

open Scan (skipBlanks)

/-- No object has two members of one name. -/
inductive Distinct : Json → Prop
  | null : Distinct .null
  | boolean (b : Bool) : Distinct (.boolean b)
  | number (n : Number) : Distinct (.number n)
  | string (s : String) : Distinct (.string s)
  | array {items : List Json} : (∀ item ∈ items, Distinct item) → Distinct (.array items)
  | object {members : List (String × Json)} : (members.map Prod.fst).Nodup →
      (∀ member ∈ members, Distinct member.2) → Distinct (.object members)

/-- How a text begins with a tree. -/
def Spells (s rest : List Char) : Json → Prop
  | .null => skipBlanks s = 'n' :: ("ull".toList ++ rest)
  | .boolean true => skipBlanks s = 't' :: ("rue".toList ++ rest)
  | .boolean false => skipBlanks s = 'f' :: ("alse".toList ++ rest)
  | .number n => ∃ c s', skipBlanks s = c :: s' ∧ Builder.startsNumeral c = true ∧ Number.scan (c :: s') = .ok (n, rest)
  | .string t => ∃ s', skipBlanks s = '"' :: s' ∧ Quoted.scan s' = .ok (t, rest)
  | .array items => ∃ depth s', skipBlanks s = '[' :: s' ∧ Scan.Listed ']' (tree.scan depth) true s' items rest
  | .object members => ∃ depth s', skipBlanks s = '\x7b' :: s' ∧
      Scan.Listed '\x7d' (Scan.member Quoted.scan (tree.scan depth)) true s' members rest

theorem spells_of_scan {depth : Nat} {v : Json} {s rest : List Char} (h : tree.scan depth s = .ok (v, rest)) :
    v.Spells s rest := by
  cases steady_tree.advances.scan_eq_ok_iff.mp h with
  | null hs => exact hs
  | isTrue hs => exact hs
  | isFalse hs => exact hs
  | string hs hx =>
      obtain ⟨t, ht, rfl⟩ := string_eq_ok_iff.mp hx
      exact ⟨_, hs, ht⟩
  | number hs hc hx =>
      obtain ⟨n, hn, rfl⟩ := number_eq_ok_iff.mp hx
      exact ⟨_, _, hs, hc, hn⟩
  | array hs hlisted => exact ⟨_, _, hs, hlisted⟩
  | object hs hlisted => exact ⟨_, _, hs, hlisted⟩

/-- What is not null does not begin like null. -/
theorem Spells.ne_null {v : Json} {s rest : List Char} (h : v.Spells s rest) (hv : v ≠ .null) (s' : List Char) :
    skipBlanks s ≠ 'n' :: s' := by
  intro hs
  cases v with
  | null => exact hv rfl
  | boolean b =>
      cases b with
      | true => simp [Spells, hs] at h
      | false => simp [Spells, hs] at h
  | number n =>
      obtain ⟨c, s'', hs', hc, -⟩ := h
      rw [hs] at hs'
      obtain ⟨rfl, -⟩ := List.cons.inj hs'
      cases hc
  | string t => simp [Spells, hs] at h
  | array items => simp [Spells, hs] at h
  | object members => simp [Spells, hs] at h

end Json

/-! ### Plain values -/

/-- What is read from a tree is read from every text of the tree. -/
structure Scan.Rereads {α : Type} (scan : Scan α) (ofJson : Json → Except Mismatch α) : Prop where
  reread : ∀ {depth s rest v x}, Json.tree.scan depth s = .ok (v, rest) → v.Distinct → ofJson v = .ok x →
    scan s = .ok (x, rest)

namespace Format

variable {α β : Type} {f : Format α}

/-- The two readers of a format side by side. -/
abbrev Rereads (f : Format α) : Prop := f.scan.Rereads f.ofJson

theorem rereads_word : word.Rereads := by
  constructor
  intro depth s rest v x h _ hread
  cases v with
  | number n =>
      obtain ⟨c, s', hs, hc, hn⟩ := Json.spells_of_scan h
      refine Scan.atHead_eq_ok_iff.mpr ⟨c, s', hs, ?_⟩
      rw [if_pos hc]
      exact Scan.checked_eq_ok_iff.mpr ⟨n, hn, hread⟩
  | _ => cases hread

theorem rereads_boolean : boolean.Rereads := by
  constructor
  intro depth s rest v x h _ hread
  cases v with
  | boolean b =>
      obtain rfl : b = x := Except.ok.inj hread
      cases b with
      | true => exact Scan.atHead_eq_ok_iff.mpr ⟨'t', _, Json.spells_of_scan h, Scan.keyword_eq_ok_iff.mpr ⟨rfl, rfl⟩⟩
      | false => exact Scan.atHead_eq_ok_iff.mpr ⟨'f', _, Json.spells_of_scan h, Scan.keyword_eq_ok_iff.mpr ⟨rfl, rfl⟩⟩
  | _ => cases hread

theorem rereads_string : string.Rereads := by
  constructor
  intro depth s rest v x h _ hread
  cases v with
  | string t =>
      obtain rfl : t = x := Except.ok.inj hread
      obtain ⟨s', hs, ht⟩ := Json.spells_of_scan h
      exact Scan.atHead_eq_ok_iff.mpr ⟨'"', s', hs, ht⟩
  | _ => cases hread

theorem rereads_unit : unit.Rereads := by
  constructor
  intro depth s rest v x h _ hread
  cases v with
  | null => exact Scan.atHead_eq_ok_iff.mpr ⟨'n', _, Json.spells_of_scan h, Scan.keyword_eq_ok_iff.mpr ⟨rfl, rfl⟩⟩
  | _ => cases hread

/-! ### Formats from formats -/

end Format

namespace Scan

variable {α β : Type} {scan : Scan α} {ofJson : Json → Except Mismatch α}

theorem Rereads.map (h : scan.Rereads ofJson) (f : α → β) :
    Rereads (fun s => scan s >>= fun (x, s) => .ok (f x, s)) fun v => (ofJson v).map f := by
  constructor
  intro depth s rest v y hv hdistinct hread
  obtain ⟨x, hx, rfl⟩ := map_eq_ok_iff.mp hread
  exact bind_eq_ok_iff.mpr ⟨(x, rest), h.reread hv hdistinct hx, rfl⟩

theorem Rereads.checked (h : scan.Rereads ofJson) (check : α → Except Mismatch β) :
    Rereads (checked scan check) fun v => ofJson v >>= check := by
  constructor
  intro depth s rest v y hv hdistinct hread
  obtain ⟨x, hx, hy⟩ := bind_eq_ok_iff.mp hread
  exact checked_eq_ok_iff.mpr ⟨x, h.reread hv hdistinct hx, hy⟩

end Scan

namespace Format

variable {α β : Type} {f : Format α}

theorem rereads_map (hf : f.Rereads) (make : α → β) (parts : β → α) : (f.map make parts).Rereads :=
  Scan.Rereads.map hf make

theorem rereads_refine (hf : f.Rereads) (check : α → Except String β) (parts : β → α) :
    (f.refine check parts).Rereads :=
  Scan.Rereads.checked hf fun x => (check x).mapError .refused

theorem rereads_optional (hf : f.Rereads) : f.optional.Rereads := by
  constructor
  intro depth s rest v x h hdistinct hread
  rcases optional_ofJson_eq_ok_iff.mp hread with ⟨rfl, rfl⟩ | ⟨hv, y, hy, rfl⟩
  · exact optional_scan_eq_ok_iff.mpr (.inl ⟨Json.spells_of_scan h, rfl⟩)
  · have hnot := (Json.spells_of_scan h).ne_null hv
    rw [← Builder.scan_skipBlanks] at h
    exact optional_scan_eq_ok_iff.mpr (.inr ⟨hnot, y, hf.reread h hdistinct hy, rfl⟩)

/-- The items are read one after the other. -/
theorem listed_of_forall₂ (hf : f.Rereads) {depth : Nat} {isFirst : Bool} {items : List Json} {s rest : List Char}
    (h : Scan.Listed ']' (Json.tree.scan depth) isFirst s items rest) :
    ∀ {xs : List α}, (∀ item ∈ items, item.Distinct) → List.Forall₂ (fun item x => f.ofJson item = .ok x) items xs →
      Scan.Listed ']' f.scan isFirst s xs rest := by
  induction h with
  | nil hs =>
      intro xs _ hread
      cases hread
      exact .nil hs
  | cons hmore hitem _ ih =>
      intro xs hdistinct hread
      obtain ⟨hhead, htail⟩ := List.forall_mem_cons.mp hdistinct
      cases hread with
      | cons hx hxs => exact .cons hmore (hf.reread hitem hhead hx) (ih htail hxs)

theorem rereads_list (hf : f.Rereads) (hprogress : Scan.Progress f.scan) : f.list.Rereads := by
  constructor
  intro depth s rest v xs h hdistinct hread
  obtain ⟨items, rfl, hitems⟩ := list_ofJson_eq_ok_iff.mp hread
  obtain ⟨depth, s', hs, hlisted⟩ := Json.spells_of_scan h
  cases hdistinct with
  | array hdistinct =>
      refine Scan.atHead_eq_ok_iff.mpr ⟨'[', s', hs, ?_⟩
      exact (Scan.entries_eq_ok_iff (.inl rfl) hprogress).mpr (listed_of_forall₂ hf hlisted hdistinct hitems)

end Format

/-! ### Records -/

namespace Row

variable {ρ π : Type} {left : List Char}

/-- The formats of the fields read what stands in the texts of trees. -/
def Rereads {ρ π : Type} : Row ρ π → Prop
  | .nil => True
  | .cons _ format _ _ rest => format.Rereads ∧ rest.Rereads

/-- What a member adds to what is read so far, it adds from the text. -/
theorem scanValue_of_takes {name : String} {v : Json} {depth : Nat} {s s₁ : List Char}
    (hcolon : Scan.symbol ':' s = .ok ((), s₁)) (hv : Json.tree.scan depth s₁ = .ok (v, left)) (hdistinct : v.Distinct)
    {ρ π : Type} : ∀ {row : Row ρ π} {cells cells' : π}, row.Rereads → row.Takes fromTree name v cells cells' →
      row.scanValue name cells s = .ok (cells', left)
  | .nil, (), (), _, _ => scanValue_nil_eq_ok_iff.mpr ⟨s₁, hcolon, Json.skip_of_scan hv⟩
  | .cons other format _ _ rest, (cell, cells), (cell', cells'), h, htakes => by
      refine scanValue_cons_eq_ok_iff.mpr ?_
      rw [Takes] at htakes
      split
      · rename_i hname
        rw [if_pos hname] at htakes
        obtain ⟨hcell, ⟨x, hx, hread⟩, hcells⟩ := htakes
        exact ⟨hcell, hcells, s₁, x, hcolon, h.1.reread hv hdistinct hread, hx⟩
      · rename_i hname
        rw [if_neg hname] at htakes
        exact ⟨htakes.1, scanValue_of_takes hcolon hv hdistinct h.2 htakes.2⟩

theorem progress_treeMember (depth : Nat) : Scan.Progress (Scan.member Quoted.scan (Json.tree.scan depth)) :=
  Scan.progress_member Json.steady_tree.fixed_key.shortens (Json.steady_tree.advances.progress_scan depth)

/-- The members of an object are read one after the other. -/
theorem settles_members {row : Row ρ π} (h : row.Rereads) (hnodup : row.names.Nodup) {xs : ρ} {depth : Nat}
    {isFirst : Bool} {members : List (String × Json)} {s : List Char}
    (hlisted : Scan.Listed '\x7d' (Scan.member Quoted.scan (Json.tree.scan depth)) isFirst s members left) :
    ∀ {cells : π}, (∀ member ∈ members, member.2.Distinct) →
      row.Completes fromTree cells (Json.valuesOf members) xs →
        Scan.Settles row.memberRound (isFirst, cells) s xs left := by
  induction hlisted with
  | @nil isFirst s rest hs =>
      intro cells _ hcompletes
      refine .last (memberRound_eq_last_iff.mpr ⟨hs, finish_eq_ok_iff.mpr hcompletes⟩) ?_
      rintro rfl
      cases hs
  | @cons isFirst s s₁ s₂ rest member members hmore hmember _ ih =>
      intro cells hdistinct hcompletes
      obtain ⟨hhead, htail⟩ := List.forall_mem_cons.mp hdistinct
      have hlt : s₂.length < s.length :=
        Nat.lt_of_lt_of_le ((progress_treeMember depth).length_lt hmember) ((Scan.closed_more _ _).length_le hmore)
      obtain ⟨⟨name, s₃⟩, hname, hmember⟩ := bind_eq_ok_iff.mp hmember
      obtain ⟨⟨_, s₄⟩, hcolon, hmember⟩ := bind_eq_ok_iff.mp hmember
      obtain ⟨⟨v, s₅⟩, hv, hmember⟩ := bind_eq_ok_iff.mp hmember
      cases hmember
      rw [Json.valuesOf_cons] at hcompletes
      obtain ⟨cells', htakes, hrest⟩ := (exists_takes_iff hnodup).mpr hcompletes
      have hvalue := scanValue_of_takes hcolon hv hhead h htakes
      exact .again (memberRound_eq_again_iff.mpr ⟨s₁, name, s₃, cells', hmore, hname, hvalue, rfl⟩) hlt (ih htail hrest)

theorem scanMembers_of_ofMembers {row : Row ρ π} (h : row.Rereads) (hnodup : row.names.Nodup) {xs : ρ} {depth : Nat}
    {members : List (String × Json)} {s : List Char}
    (hlisted : Scan.Listed '\x7d' (Scan.member Quoted.scan (Json.tree.scan depth)) true s members left)
    (hdistinct : (Json.object members).Distinct) (hread : row.ofMembers members = .ok xs) :
    row.scanMembers s = .ok (xs, left) := by
  cases hdistinct with
  | object hnames hvalues =>
      have hcompletes := (ofMembers_eq_ok_iff hnodup).mp hread
      rw [← funext (Json.valuesOf_of_nodup hnames)] at hcompletes
      exact (settles_members h hnodup hlisted hvalues hcompletes).repeated_eq

/-- The items of an array are read as far as the row goes. -/
theorem exists_scanFront_of_enumerates (expected : String) {depth : Nat} {ρ π : Type} :
    ∀ {row : Row ρ π} (read : Nat) {items : List Json} {xs : ρ} {s : List Char}, row.Rereads →
      Scan.Listed ']' (Json.tree.scan depth) (read = 0) s items left → (∀ item ∈ items, item.Distinct) →
        row.Enumerates items xs [] →
          ∃ s₁, row.scanFront expected read s = .ok (xs, s₁) ∧ Scan.skipBlanks s₁ = ']' :: left
  | .nil, read, items, (), s, _, hlisted, _, hall => by
      obtain rfl : [] = items := hall
      cases hlisted with
      | nil hs => exact ⟨s, rfl, hs⟩
  | .cons _ format _ ifShort rest, read, item :: items, (x, xs), s, h, hlisted, hdistinct, hall => by
      obtain ⟨hhead, htail⟩ := List.forall_mem_cons.mp hdistinct
      cases hlisted with
      | cons hmore hitem hitems =>
          have hx := h.1.reread hitem hhead hall.1
          obtain ⟨s₁, hxs, hend⟩ := exists_scanFront_of_enumerates expected (read + 1) h.2 hitems htail hall.2
          refine ⟨s₁, bind_eq_ok_iff.mpr ⟨_, hmore, ?_⟩, hend⟩
          exact bind_eq_ok_iff.mpr ⟨_, hx, bind_eq_ok_iff.mpr ⟨_, hxs, rfl⟩⟩
  | .cons _ format _ ifShort rest, read, [], (x, xs), s, h, hlisted, _, hall => by
      obtain ⟨rfl, hall⟩ := hall
      cases hlisted with
      | nil hs =>
          have hend : Scan.Listed ']' (Json.tree.scan depth) (read + 1 = 0) (']' :: left) [] left :=
            .nil (Scan.skipBlanks_cons rfl left)
          obtain ⟨s₁, hxs, hend⟩ :=
            exists_scanFront_of_enumerates expected (read + 1) h.2 hend (List.forall_mem_nil _) hall
          refine ⟨s₁, bind_eq_ok_iff.mpr ⟨_, Scan.more_eq_false_iff.mpr ⟨left, hs, rfl⟩, ?_⟩, hend⟩
          exact bind_eq_ok_iff.mpr ⟨_, hxs, rfl⟩

theorem scanItems_of_ofItems {row : Row ρ π} (h : row.Rereads) {expected expected' : String} {xs : ρ} {depth : Nat}
    {items : List Json} {s : List Char} (hlisted : Scan.Listed ']' (Json.tree.scan depth) true s items left)
    (hdistinct : (Json.array items).Distinct) (hread : row.ofItems expected' items = .ok xs) :
    row.scanItems expected s = .ok (xs, left) := by
  cases hdistinct with
  | array hdistinct =>
      obtain ⟨s₁, hxs, hend⟩ :=
        exists_scanFront_of_enumerates expected 0 h hlisted hdistinct (ofItems_eq_ok_iff.mp hread)
      exact bind_eq_ok_iff.mpr ⟨(xs, s₁), hxs, bind_eq_ok_iff.mpr ⟨((), left), Scan.symbol_eq_ok_iff.mpr hend, rfl⟩⟩

end Row

namespace Format

variable {ρ π : Type} {row : Row ρ π}

theorem rereads_record (title : String) (h : row.Rereads) (hnodup : row.names.Nodup) : (record title row).Rereads := by
  constructor
  intro depth s rest v xs hv hdistinct hread
  cases v with
  | object members =>
      obtain ⟨depth, s', hs, hlisted⟩ := Json.spells_of_scan hv
      refine Scan.atHead_eq_ok_iff.mpr ⟨'\x7b', s', hs, ?_⟩
      exact Row.scanMembers_of_ofMembers h hnodup hlisted hdistinct hread
  | array items =>
      obtain ⟨depth, s', hs, hlisted⟩ := Json.spells_of_scan hv
      refine Scan.atHead_eq_ok_iff.mpr ⟨'[', s', hs, ?_⟩
      exact Row.scanItems_of_ofItems h hlisted hdistinct hread
  | _ => cases hread

theorem rereads_tuple (h : row.Rereads) : (tuple row).Rereads := by
  constructor
  intro depth s rest v xs hv hdistinct hread
  cases v with
  | array items =>
      obtain ⟨depth, s', hs, hlisted⟩ := Json.spells_of_scan hv
      refine Scan.atHead_eq_ok_iff.mpr ⟨'[', s', hs, ?_⟩
      exact Row.scanItems_of_ofItems h hlisted hdistinct hread
  | _ => cases hread

end Format

/-! ### Choices -/

namespace Branch

variable {α ρ π : Type}

/-- The two readers of a variant side by side. -/
abbrev Rereads (branch : Branch α) : Prop := branch.scan.Rereads branch.ofJson

theorem rereads_constant (name : String) (x : α) : (constant name x).Rereads := Format.rereads_unit.map fun _ => x

theorem rereads_record (type name : String) {row : Row ρ π} (make : ρ → α) (h : row.Rereads)
    (hnodup : row.names.Nodup) : (record type name row make).Rereads := by
  constructor
  intro depth s rest v x hv hdistinct hread
  cases v with
  | object members =>
      obtain ⟨xs, hxs, rfl⟩ := map_eq_ok_iff.mp hread
      obtain ⟨depth, s', hs, hlisted⟩ := Json.spells_of_scan hv
      refine bind_eq_ok_iff.mpr ⟨(xs, rest), Scan.atHead_eq_ok_iff.mpr ⟨'\x7b', s', hs, ?_⟩, rfl⟩
      exact Row.scanMembers_of_ofMembers h hnodup hlisted hdistinct hxs
  | _ => cases hread

end Branch

/-- An object whose members are distinct, but all have one name, has one member. -/
theorem Json.Distinct.eq_of_tags {v content : Json} {name : String} (h : v.Distinct) (htags : v.Tags name content) :
    v = .object [(name, content)] := by
  obtain ⟨members, rfl, hseen, hall⟩ := htags
  cases h with
  | object hnames _ =>
      have hperm := perm_fields hnames
      rw [fields_eq_singleton_iff.mpr ⟨hseen, hall⟩] at hperm
      rw [List.perm_singleton.mp hperm.symm]

namespace Format

variable {α : Type} {branches : List (Branch α)} {write : α → Json}

theorem rereads_choice (h : ∀ branch ∈ branches, branch.Rereads) (hnodup : (branches.map Branch.name).Nodup) :
    (choice branches write).Rereads := by
  constructor
  intro depth s rest v x hv hdistinct hread
  rcases choice_ofJson_eq_ok_iff.mp hread with
    ⟨name, branch, rfl, hfind, halone⟩ | ⟨name, content, branch, htags, hfind, hcontent⟩
  · obtain ⟨s', hs, hname⟩ := Json.spells_of_scan hv
    exact choice_scan_eq_ok_iff.mpr (.inl ⟨s', name, hs, hname, bind_eq_ok_iff.mpr ⟨branch, hfind, halone⟩⟩)
  · obtain rfl := hdistinct.eq_of_tags htags
    obtain ⟨depth, s₁, hs, hlisted⟩ := Json.spells_of_scan hv
    cases hlisted with
    | cons hmore hmember hend =>
        cases hend with
        | nil hend =>
            obtain ⟨⟨name, s₂⟩, hname, hmember⟩ := bind_eq_ok_iff.mp hmember
            obtain ⟨⟨_, s₃⟩, hcolon, hmember⟩ := bind_eq_ok_iff.mp hmember
            obtain ⟨⟨w, s₄⟩, hw, hmember⟩ := bind_eq_ok_iff.mp hmember
            cases hmember
            have hname := Scan.quoted_of_more hmore hname
            cases hdistinct with
            | object _ hvalues =>
                have hx := (h branch ((Branch.find_eq_ok_iff hnodup).mp hfind).1).reread hw
                  (hvalues _ (List.mem_singleton_self _)) hcontent
                exact choice_scan_eq_ok_iff.mpr (.inr ⟨s₁, s₂, s₃, _, name, branch, hs, hname, hfind, hcolon, hx, hend⟩)

end Format
end Dependence

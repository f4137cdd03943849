import Dependence.Proofs.Format.Choice
import Dependence.Proofs.Format.Endings
import Dependence.Proofs.Json.Cutting

/-! # Values that break off

The text that a format writes for a value frays or snaps when it is cut: a word frays, for every part of it but the
empty one is a word, and whatever is written with quotes, brackets or braces snaps.  Records and tuples need no more than
that their fields fray, because a field is followed by a comma, a bracket or a brace.

While a record breaks off nothing else can be amiss: the fields that are still to come have not been filled, so no field
is there twice, and that a field is missing shows at the closing brace only. -/

namespace Dependence
namespace Format

variable {α β : Type}

/-! ### Plain values -/

theorem frays_word (w : UInt32) : word.scan.Frays (word.write w).compact := by
  have htext : (word.write w).compact = Nat.toDigits 10 w.toNat := Number.text_natural _
  intro p q hpq
  by_cases hp : p = []
  · subst hp
    exact .inl rfl
  · rw [htext] at hpq
    obtain ⟨m, hm, rfl⟩ := exists_toDigits_eq_of_append w.toNat hp hpq
    have hword : (UInt32.ofNat m).toNat = m := UInt32.toNat_ofNat_of_lt' (Nat.lt_of_le_of_lt hm w.toNat_lt_size)
    have hread := (faithful_word 0 (UInt32.ofNat m)).accepts.scan_eq .nil
    have htext : (word.write (UInt32.ofNat m)).compact = Nat.toDigits 10 (UInt32.ofNat m).toNat := Number.text_natural _
    rw [List.append_nil, htext, hword] at hread
    exact .inr ⟨_, hread⟩

theorem snaps_boolean (b : Bool) : boolean.scan.Snaps (boolean.write b).compact := by
  cases b with
  | true => exact .cons rfl (fun _ => rfl) (Scan.snaps_keyword true _)
  | false => exact .cons rfl (fun _ => rfl) (Scan.snaps_keyword false _)

theorem snaps_string (s : String) : string.scan.Snaps (string.write s).compact := by
  have htext := Json.compact_string s []
  rw [List.append_nil] at htext
  show string.scan.Snaps (Json.string s).compact
  rw [htext]
  exact .cons rfl (fun _ => rfl) (Quoted.snaps_scan s.toList)

/-! ### Formats from formats -/

theorem Faithful.frays {f : Format α} {d : Nat} {x : α} (h : f.Faithful d x)
    (hsnaps : f.scan.Snaps (f.write x).compact) : f.scan.Frays (f.write x).compact := by
  have hread := h.accepts.scan_eq .nil
  rw [List.append_nil] at hread
  exact hsnaps.frays hread

theorem frays_none {f : Format α} (hnil : f.scan [] = .error .truncated) :
    f.optional.scan.Frays (f.optional.write none).compact := by
  have hsnaps : f.optional.scan.Snaps (f.optional.write none).compact := by
    refine .cons ?_ (fun _ => rfl) (Scan.snaps_keyword none "ull".toList)
    show (f.scan [] >>= _) = _
    rw [hnil]
    rfl
  exact (faithful_none f 0).frays hsnaps

theorem frays_some {f : Format α} {x : α} (hnil : f.scan [] = .error .truncated)
    (hbegins : Scan.Begins (f.write x).compact) (hn : (f.write x).compact.head? ≠ some 'n')
    (hfrays : f.scan.Frays (f.write x).compact) : f.optional.scan.Frays (f.optional.write (some x)).compact := by
  obtain ⟨c, t, ht, hblank, -⟩ := hbegins
  have hsome := hfrays.map some
  intro p q hpq
  have hp := hsome p q hpq
  cases p with
  | nil =>
      left
      show (f.scan [] >>= _) = _
      rw [hnil]
      rfl
  | cons d p =>
      have hd : d = c := by
        have hcons : d :: p ++ q = c :: t := hpq.trans ht
        exact (List.cons.inj hcons).1
      subst hd
      simp only [optional, Scan.skipBlanks_cons hblank]
      split
      · rename_i s hs
        rw [ht, (List.cons.inj hs).1] at hn
        exact absurd rfl hn
      · exact hp

theorem snaps_list {f : Format α} {d : Nat} {xs : List α} (hf : ∀ x ∈ xs, f.Faithful d x)
    (hfrays : ∀ x ∈ xs, f.scan.Frays (f.write x).compact) : f.list.scan.Snaps (f.list.write xs).compact := by
  have htext := Json.compact_array (xs.map f.write) []
  rw [List.append_nil, List.map_map] at htext
  show f.list.scan.Snaps (Json.array (xs.map f.write)).compact
  rw [htext]
  exact .cons rfl (fun _ => rfl) (Scan.snaps_items (fun x hx => (hf x hx).accepts) hfrays)

end Format

/-! ### Records -/

namespace Row

variable {ρ π : Type}

/-- The values of a row fray in the formats of their fields. -/
def Frays {ρ π : Type} : Row ρ π → ρ → Prop
  | .nil, () => True
  | .cons _ format _ _ rest, (x, xs) => format.scan.Frays (format.write x).compact ∧ rest.Frays xs

/-- The value of a member frays if its field has not been filled. -/
theorem frays_scanValue {name : String} {v : Json} {seen : List String} {ρ π : Type} :
    ∀ {row : Row ρ π} {xs : ρ}, row.Frays xs → row.names.Nodup → (name, v) ∈ row.write xs → name ∉ seen →
      Scan.Frays (row.scanValue name (row.filled seen xs)) (':' :: v.compact)
  | .nil, (), _, _, hmem, _ => by cases hmem
  | .cons other format _ _ rest, (x, xs), hfrays, hnodup, hmem, hnew => by
      obtain ⟨hx, hxs⟩ := hfrays
      obtain ⟨hother, hrest⟩ := List.nodup_cons.mp hnodup
      rcases List.mem_cons.mp hmem with he | hmem
      · obtain ⟨rfl, rfl⟩ := Prod.mk.inj he
        have hvalue := hx.map fun x => (some x, rest.filled seen xs)
        refine .cons ?_ ?_ hvalue
        · simp only [filled, scanValue, if_neg hnew, if_true]
          rfl
        · intro s
          simp only [filled, scanValue, if_neg hnew, if_true, Scan.symbol_cons (c := ':') rfl, bind, Except.bind]
      · have hne : name ≠ other := fun he => hother (he ▸ mem_names hmem)
        have hvalue := frays_scanValue hxs hrest hmem hnew
        simp only [filled, scanValue, if_neg hne]
        exact hvalue.map _

theorem memberRound_of_more {row : Row ρ π} {isFirst : Bool} {cells : π} {s s' : List Char}
    (h : Scan.more '\x7d' isFirst s = .ok (true, s')) :
    row.memberRound (isFirst, cells) s =
      (Scan.quoted Quoted.scan s' >>= fun (name, s) => row.scanValue name cells s) >>= fun (cells, s) =>
        .ok (.again (false, cells), s) := by
  simp only [memberRound, h, bind_assoc]
  rfl

theorem snaps_memberTexts {row : Row ρ π} {d : Nat} {xs : ρ} (hf : row.Faithful d xs) (hfrays : row.Frays xs)
    (hnodup : row.names.Nodup) :
    ∀ {members : List (String × Json)} {seen : List String} (isFirst : Bool),
      (∀ member ∈ members, member ∈ row.write xs) → (members.map Prod.fst ++ seen).Nodup → ∀ fuel,
        Scan.Snaps (Scan.rounds row.memberRound fuel (isFirst, row.filled seen xs))
          (Scan.remaining isFirst (Json.memberTexts members) ++ ['\x7d'])
  | [], _, _, _, _ => fun fuel => Scan.snaps_singleton (Scan.rounds_nil (fun _ => rfl) fuel _) '\x7d'
  | (name, v) :: members, seen, isFirst, hmem, hnew => by
      have hclose : Scan.Closes '\x7d' := .inr rfl
      have hbegins := Scan.begins_memberText name v.compact
      have hname : name ∉ seen := fun hseen =>
        (List.nodup_cons.mp hnew).1 (List.mem_append_right _ hseen)
      have hmoved : (members.map Prod.fst ++ name :: seen).Nodup := (List.perm_middle.nodup_iff).mpr hnew
      have hvalue := frays_scanValue hfrays hnodup (hmem _ List.mem_cons_self) hname
      have hmember : Scan.Frays (fun s => Scan.quoted Quoted.scan s >>= fun (name, s) =>
          row.scanValue name (row.filled seen xs) s) (Scan.memberText name v.compact) :=
        Scan.Frays.bind (b := fun name => row.scanValue name (row.filled seen xs)) (Quoted.snaps_encode name)
          (fun p _ _ => Quoted.quoted_encode name p) hvalue
      show ∀ fuel, Scan.Snaps _
        (Scan.remaining isFirst (Scan.memberText name v.compact :: Json.memberTexts members) ++ ['\x7d'])
      rw [Scan.remaining_cons, List.append_assoc]
      refine Scan.snaps_rounds (fun _ => rfl) ?_ ?_
        (snaps_memberTexts hf hfrays hnodup false (fun member h => hmem member (List.mem_cons_of_mem _ h)) hmoved)
      · intro p q hpq
        obtain rfl | ⟨p', hmore, hp'⟩ := Scan.more_led hclose hbegins hpq
        · exact .inl rfl
        · rw [memberRound_of_more hmore]
          rcases hmember p' q hp' with h | ⟨cells, h⟩
          · left
            dsimp only at h
            rw [h]
            rfl
          · right
            dsimp only at h
            rw [h]
            exact ⟨(false, cells), rfl⟩
      · intro p q hpq
        have hends := Scan.ends_of_append_eq hclose hpq
        have hfilled := scanValue_filled hends hf hnodup (hmem _ List.mem_cons_self) hname
        simp only [memberRound, Scan.more_led_append hclose hbegins, if_true, Scan.quoted_memberText, hfilled, bind,
          Except.bind]

theorem snaps_scanMembers {row : Row ρ π} {d : Nat} {xs : ρ} (hf : row.Faithful d xs) (hfrays : row.Frays xs)
    (hnodup : row.names.Nodup) :
    row.scanMembers.Snaps (Text.separated [','] (Json.memberTexts (row.write xs)) ++ ['\x7d']) := by
  have hnames := write_map_fst row xs
  have hnew : ((row.write xs).map Prod.fst ++ []).Nodup := by rwa [List.append_nil, hnames]
  have hrounds := snaps_memberTexts hf hfrays hnodup true (fun member h => h) hnew
  rw [filled_nil row xs, ← Scan.separated_eq_remaining] at hrounds
  exact fun p q => hrounds p.length p q

theorem snaps_scanEither {row : Row ρ π} {d : Nat} {xs : ρ} (hf : row.Faithful d xs) (hfrays : row.Frays xs)
    (hnodup : row.names.Nodup) (expected : String) :
    (row.scanEither expected).Snaps (Json.object (row.write xs)).compact := by
  have htext := Json.compact_object (row.write xs) []
  rw [List.append_nil] at htext
  rw [htext]
  exact .cons rfl (fun _ => rfl) (snaps_scanMembers hf hfrays hnodup)

/-! ### Tuples -/

/-- Whatever is read after the values of an array must find its bracket. -/
theorem scanFront_nil {β : Type} (expected : String) {next : ρ → Scan β} (hnext : ∀ xs, next xs [] = .error .truncated)
    (row : Row ρ π) (read : Nat) :
    (row.scanFront expected read [] >>= fun (xs, s) => next xs s) = .error .truncated := by
  cases row with
  | nil => exact hnext ()
  | cons name format ifAbsent ifShort rest => rfl

theorem scanFront_bind_of_more {α β : Type} {expected name : String} {format : Format α} {ifAbsent ifShort : Option α}
    {rest : Row ρ π} {read : Nat} {s s' : List Char} (next : α × ρ → Scan β)
    (h : Scan.more ']' (read = 0) s = .ok (true, s')) :
    ((Row.cons name format ifAbsent ifShort rest).scanFront expected read s >>= fun (ys, s) => next ys s) =
      format.scan s' >>= fun (x, s) => rest.scanFront expected (read + 1) s >>= fun (xs, s) => next (x, xs) s := by
  simp only [scanFront, h, bind, Except.bind, if_true]
  cases format.scan s' with
  | error fault => rfl
  | ok r =>
      obtain ⟨x, s⟩ := r
      dsimp only
      cases rest.scanFront expected (read + 1) s with
      | error fault => rfl
      | ok r => rfl

/-- The values of an array, and whatever is read after them. -/
theorem snaps_scanFront {β : Type} (expected : String) {d : Nat} {ρ π : Type} :
    ∀ {row : Row ρ π} {xs : ρ} (read : Nat) (next : ρ → Scan β), row.Faithful d xs → row.Frays xs →
      (∀ ys, next ys [] = .error .truncated) →
        Scan.Snaps (fun s => row.scanFront expected read s >>= fun (ys, s) => next ys s)
          (Scan.remaining (read = 0) ((row.writeItems xs).map Json.compact) ++ [']'])
  | .nil, (), _, next, _, _, hnext => @Scan.snaps_singleton _ (next ()) (hnext ()) ']'
  | .cons _ format _ _ rest, (x, xs), read, next, hf, hfrays, hnext => by
      have hclose : Scan.Closes ']' := .inl rfl
      obtain ⟨hx, hxs⟩ := hf
      obtain ⟨hxfrays, hxsfrays⟩ := hfrays
      have hrest := snaps_scanFront expected (read + 1) (fun ys => next (x, ys)) hxs hxsfrays fun ys => hnext (x, ys)
      rw [show decide (read + 1 = 0) = false from rfl] at hrest
      intro p q hpq hq
      rw [writeItems, List.map_cons, Scan.remaining_cons, List.append_assoc] at hpq
      dsimp only
      rcases List.append_eq_append_iff.mp hpq with ⟨r, ht, -⟩ | ⟨r, rfl, hu⟩
      · obtain rfl | ⟨p', hmore, hp'⟩ := Scan.more_led hclose hx.accepts.begins ht.symm
        · rfl
        · rw [scanFront_bind_of_more next hmore]
          rcases hxfrays p' r hp' with h | ⟨y, h⟩
          · rw [h]
            rfl
          · rw [h]
            exact scanFront_nil expected (fun ys => hnext (y, ys)) rest (read + 1)
      · have hends := Scan.ends_of_append_eq hclose hu.symm
        have hmore := Scan.more_led_append hclose hx.accepts.begins (read = 0) r
        rw [scanFront_bind_of_more next hmore, hx.accepts.scan_eq hends]
        exact hrest r q hu.symm hq

theorem snaps_scanItems {row : Row ρ π} {d : Nat} {xs : ρ} (hf : row.Faithful d xs) (hfrays : row.Frays xs)
    (expected : String) :
    (row.scanItems expected).Snaps (Text.separated [','] ((row.writeItems xs).map Json.compact) ++ [']']) := by
  have hfront := snaps_scanFront expected 0 (fun xs s => Scan.symbol ']' s >>= fun r => .ok (xs, r.2)) hf hfrays
    fun _ => rfl
  rwa [show decide (0 = 0) = true from rfl, ← Scan.separated_eq_remaining] at hfront

end Row

namespace Format

variable {α ρ π : Type} {row : Row ρ π} {d : Nat} {xs : ρ}

theorem snaps_record (name : String) (hf : row.Faithful d xs) (hfrays : row.Frays xs) (hnodup : row.names.Nodup) :
    (record name row).scan.Snaps ((record name row).write xs).compact :=
  Row.snaps_scanEither hf hfrays hnodup ("struct " ++ name)

theorem snaps_tuple (hf : row.Faithful d xs) (hfrays : row.Frays xs) :
    (tuple row).scan.Snaps ((tuple row).write xs).compact := by
  have htext := Json.compact_array (row.writeItems xs) []
  rw [List.append_nil] at htext
  show (tuple row).scan.Snaps (Json.array (row.writeItems xs)).compact
  rw [htext]
  exact .cons rfl (fun _ => rfl) (Row.snaps_scanItems hf hfrays _)

/-! ### Choices -/

variable {branches : List (Branch α)} {write : α → Json} {name : String} {x : α}

/-- A variant that is written as its name. -/
theorem snaps_choice_of_alone (hwrite : write x = .string name) :
    (choice branches write).scan.Snaps (write x).compact := by
  have htext := Json.compact_string name []
  rw [List.append_nil] at htext
  rw [hwrite, htext]
  exact .cons rfl (fun _ => rfl) ((Quoted.snaps_scan name.toList).andThen _)

/-- A variant that is written as an object whose only member has a record for its content. -/
theorem snaps_choice_of_record {type : String} {make : ρ → α}
    (hwrite : write x = .object [(name, .object (row.write xs))])
    (hfind : Branch.find branches name = .ok (Branch.record type name row make))
    (hf : row.Faithful d xs) (hfrays : row.Frays xs) (hnodup : row.names.Nodup) :
    (choice branches write).scan.Snaps (write x).compact := by
  have htext := compact_singleton name (.object (row.write xs)) []
  rw [List.append_nil] at htext
  have hcontent : (Branch.record type name row make).scan.Snaps (Json.object (row.write xs)).compact :=
    (Row.snaps_scanEither hf hfrays hnodup _).andThen _
  have hread : ∀ s, (Branch.record type name row make).scan ((Json.object (row.write xs)).compact ++ s) =
      .ok (make xs, s) := by
    intro s
    simp only [Branch.record, Row.scanEither_write hf hnodup, bind, Except.bind]
  have hwhole := hread []
  rw [List.append_nil] at hwhole
  have hbrace := Scan.Snaps.bind (b := fun x s => Scan.symbol '\x7d' s >>= fun r => .ok (x, r.2))
    (hcontent.frays hwhole) (fun p _ _ => hread p) (fun _ => rfl) (Scan.snaps_singleton rfl '\x7d')
  have hafter : Scan.Snaps (afterName (Branch.record type name row make))
      (':' :: ((Json.object (row.write xs)).compact ++ ['\x7d'])) :=
    .cons rfl (fun _ => rfl) hbrace
  have hname : Scan.Snaps (Scan.checked Quoted.scan (Branch.find branches))
      (name.toList.flatMap Quoted.escape ++ ['"']) :=
    (Quoted.snaps_scan name.toList).andThen _
  have hnamed : ∀ s, Scan.checked Quoted.scan (Branch.find branches)
      (name.toList.flatMap Quoted.escape ++ ['"'] ++ s) = .ok (Branch.record type name row make, s) := by
    intro s
    rw [List.append_assoc]
    exact Scan.checked_eq_ok (Quoted.scan_encoded name s) hfind
  have hnamedWhole := hnamed []
  rw [List.append_nil] at hnamedWhole
  have htagged := Scan.Snaps.bind (b := afterName) (hname.frays hnamedWhole) (fun p _ _ => hnamed p) (fun _ => rfl) hafter
  rw [List.append_assoc] at htagged
  rw [hwrite, htext]
  exact .cons rfl (fun _ => rfl) (.cons rfl (fun _ => rfl) htagged)

end Format
end Dependence

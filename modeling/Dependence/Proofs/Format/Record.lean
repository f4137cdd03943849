import Dependence.Format.Record
import Dependence.Proofs.Format.Faithful
import Dependence.Proofs.Json.Fields

/-! # Records read back what they write

While a record is read its fields are filled one after the other, in ascending order of their names from
a tree and in the order of the row from a text.  In either case `Row.filled` tells what is read so far: the
values of those fields whose names have been seen.  A further member fills its field (`visit_filled`,
`scanValue_filled`), and when all names have been seen the values are complete (`finish_filled`).  So the
order in which the members come does not matter, as long as no two fields have the same name.

Arrays are read in the order in which they are written. -/

namespace Dependence

namespace Row

variable {ρ π : Type}

/-- The values of a row are written faithfully by the formats of their fields. -/
def Faithful {ρ π : Type} : Row ρ π → Nat → ρ → Prop
  | .nil, _, () => True
  | .cons _ format _ _ rest, d, (x, xs) => format.Faithful d x ∧ rest.Faithful d xs

/-- The names of the fields. -/
def names {ρ π : Type} : Row ρ π → List String
  | .nil => []
  | .cons name _ _ _ rest => name :: rest.names

/-- What is read of the values of a row when the members of certain names have been read. -/
def filled (seen : List String) {ρ π : Type} : Row ρ π → ρ → π
  | .nil, () => ()
  | .cons name _ _ _ rest, (x, xs) => (if name ∈ seen then some x else none, rest.filled seen xs)

theorem write_map_fst {ρ π : Type} : ∀ (row : Row ρ π) (xs : ρ), (row.write xs).map Prod.fst = row.names
  | .nil, () => rfl
  | .cons name _ _ _ rest, (x, xs) => by rw [write, List.map_cons, write_map_fst rest xs, names]

theorem filled_nil {ρ π : Type} : ∀ (row : Row ρ π) (xs : ρ), row.filled [] xs = row.blank
  | .nil, () => rfl
  | .cons _ _ _ _ rest, (x, xs) => by rw [filled, filled_nil rest xs, blank, if_neg List.not_mem_nil]

theorem filled_congr {seen seen' : List String} {ρ π : Type} :
    ∀ {row : Row ρ π} {xs : ρ}, (∀ name ∈ row.names, name ∈ seen ↔ name ∈ seen') →
      row.filled seen xs = row.filled seen' xs
  | .nil, (), _ => rfl
  | .cons name _ _ _ rest, (x, xs), h => by
      have hrest : rest.filled seen xs = rest.filled seen' xs :=
        filled_congr fun other hmem => h other (List.mem_cons_of_mem _ hmem)
      have hname := h name List.mem_cons_self
      simp only [filled, hrest, hname]

/-- A row is complete when all of its names have been seen. -/
theorem finish_filled {seen : List String} {ρ π : Type} :
    ∀ {row : Row ρ π} {xs : ρ}, (∀ name ∈ row.names, name ∈ seen) → row.finish (row.filled seen xs) = .ok xs
  | .nil, (), _ => rfl
  | .cons name _ _ _ rest, (x, xs), h => by
      have hrest : rest.finish (rest.filled seen xs) = .ok xs :=
        finish_filled fun other hmem => h other (List.mem_cons_of_mem _ hmem)
      simp only [filled, if_pos (h name List.mem_cons_self), finish, Option.some_or, hrest, bind, Except.bind]

theorem mem_names {row : Row ρ π} {xs : ρ} {member : String × Json} (h : member ∈ row.write xs) :
    member.1 ∈ row.names := by
  rw [← write_map_fst row xs]
  exact List.mem_map_of_mem h

theorem filled_cons_of_not_mem {name : String} {row : Row ρ π} {xs : ρ} (h : name ∉ row.names)
    (seen : List String) : row.filled (name :: seen) xs = row.filled seen xs := by
  refine filled_congr fun other hmem => ?_
  have hne : other ≠ name := fun he => h (he ▸ hmem)
  simp [hne]

/-! ### From trees -/

/-- A member that is written for a row fills its field. -/
theorem visit_filled {name : String} {v : Json} {seen : List String} {d : Nat} {ρ π : Type} :
    ∀ {row : Row ρ π} {xs : ρ}, row.Faithful d xs → row.names.Nodup → (name, v) ∈ row.write xs →
      name ∉ seen → row.visit name v (row.filled seen xs) = .ok (row.filled (name :: seen) xs)
  | .nil, (), _, _, hmem, _ => by cases hmem
  | .cons other format _ _ rest, (x, xs), hf, hnodup, hmem, hnew => by
      obtain ⟨hx, hxs⟩ := hf
      obtain ⟨hother, hrest⟩ := List.nodup_cons.mp hnodup
      rcases List.mem_cons.mp hmem with he | hmem
      · obtain ⟨rfl, rfl⟩ := Prod.mk.inj he
        rw [filled, filled, filled_cons_of_not_mem hother, if_neg hnew, if_pos List.mem_cons_self]
        simp only [visit, if_true, hx.ofJson_write, bind, Except.bind]
      · have hne : name ≠ other := fun he => hother (he ▸ mem_names hmem)
        have hiff : other ∈ name :: seen ↔ other ∈ seen := by simp [Ne.symm hne]
        have hvisit := visit_filled hxs hrest hmem hnew
        simp only [filled, visit, if_neg hne, hvisit, hiff, bind, Except.bind]

/-- The members written for a row complete it in whatever order they come. -/
theorem foldlM_visit_filled {row : Row ρ π} {d : Nat} {xs : ρ} (hf : row.Faithful d xs)
    (hnodup : row.names.Nodup) :
    ∀ {members : List (String × Json)} {seen : List String}, (∀ member ∈ members, member ∈ row.write xs) →
      (members.map Prod.fst ++ seen).Nodup →
      members.foldlM (fun cells (name, v) => row.visit name v cells) (row.filled seen xs) =
        .ok (row.filled ((members.map Prod.fst).reverse ++ seen) xs)
  | [], _, _, _ => rfl
  | (name, v) :: members, seen, hmem, hnew => by
      have hmoved : (members.map Prod.fst ++ name :: seen).Nodup :=
        (List.perm_middle.nodup_iff).mpr hnew
      have hname : name ∉ seen := fun hseen =>
        (List.nodup_cons.mp hnew).1 (List.mem_append_right _ hseen)
      have hvisit := visit_filled hf hnodup (hmem _ List.mem_cons_self) hname
      have hrest := foldlM_visit_filled hf hnodup
        (fun member h => hmem member (List.mem_cons_of_mem _ h)) hmoved
      rw [List.foldlM_cons]
      show (row.visit name v (row.filled seen xs) >>= _) = _
      rw [hvisit]
      show members.foldlM _ (row.filled (name :: seen) xs) = _
      rw [hrest, List.map_cons, List.reverse_cons, List.append_assoc, List.singleton_append]

theorem ofMembers_write {row : Row ρ π} {d : Nat} {xs : ρ} (hf : row.Faithful d xs)
    (hnodup : row.names.Nodup) : row.ofMembers (row.write xs) = .ok xs := by
  have hnames : ((row.write xs).map Prod.fst).Nodup := by rwa [write_map_fst]
  have hperm := Json.perm_fields hnames
  have hfields : ((Json.fields (row.write xs)).map Prod.fst ++ []).Nodup := by
    rw [List.append_nil]
    exact (hperm.map Prod.fst).nodup_iff.mpr hnames
  have hfold := foldlM_visit_filled hf hnodup (fun member h => hperm.mem_iff.mp h) hfields
  unfold ofMembers
  rw [← filled_nil row xs, hfold]
  refine finish_filled fun name hname => ?_
  rw [List.append_nil, List.mem_reverse, (hperm.map Prod.fst).mem_iff, write_map_fst]
  exact hname

theorem ofFront_writeItems {expected : String} {d : Nat} {ρ π : Type} :
    ∀ {row : Row ρ π} {read : Nat} {xs : ρ}, row.Faithful d xs →
      row.ofFront expected read (row.writeItems xs) = .ok (xs, [])
  | .nil, _, (), _ => rfl
  | .cons _ _ _ _ rest, read, (x, xs), hf => by
      obtain ⟨hx, hxs⟩ := hf
      simp only [writeItems, ofFront, hx.ofJson_write, ofFront_writeItems hxs, bind, Except.bind]

theorem ofItems_writeItems {row : Row ρ π} {d : Nat} {xs : ρ} (hf : row.Faithful d xs) (expected : String) :
    row.ofItems expected (row.writeItems xs) = .ok xs := by
  unfold ofItems
  rw [ofFront_writeItems hf]
  rfl

/-! ### From texts -/

/-- The text of a member that is written for a row fills its field. -/
theorem scanValue_filled {name : String} {v : Json} {seen : List String} {d : Nat} {s : List Char}
    (hends : Scan.Ends s) {ρ π : Type} :
    ∀ {row : Row ρ π} {xs : ρ}, row.Faithful d xs → row.names.Nodup → (name, v) ∈ row.write xs →
      name ∉ seen → row.scanValue name (row.filled seen xs) (':' :: (v.compact ++ s)) =
        .ok (row.filled (name :: seen) xs, s)
  | .nil, (), _, _, hmem, _ => by cases hmem
  | .cons other format _ _ rest, (x, xs), hf, hnodup, hmem, hnew => by
      obtain ⟨hx, hxs⟩ := hf
      obtain ⟨hother, hrest⟩ := List.nodup_cons.mp hnodup
      rcases List.mem_cons.mp hmem with he | hmem
      · obtain ⟨rfl, rfl⟩ := Prod.mk.inj he
        rw [filled, filled, filled_cons_of_not_mem hother, if_neg hnew, if_pos List.mem_cons_self]
        simp only [scanValue, if_true, Scan.symbol_cons (c := ':') rfl, hx.accepts.scan_eq hends, bind,
          Except.bind]
      · have hne : name ≠ other := fun he => hother (he ▸ mem_names hmem)
        have hiff : other ∈ name :: seen ↔ other ∈ seen := by simp [Ne.symm hne]
        have hvalue := scanValue_filled hends hxs hrest hmem hnew
        simp only [filled, scanValue, if_neg hne, hvalue, hiff, bind, Except.bind]

/-- The texts of the members that are left complete the row. -/
theorem settles_memberTexts {row : Row ρ π} {d : Nat} {xs : ρ} (hf : row.Faithful d xs)
    (hnodup : row.names.Nodup) (rest : List Char) :
    ∀ {members : List (String × Json)} {seen : List String} (isFirst : Bool),
      (∀ member ∈ members, member ∈ row.write xs) → (members.map Prod.fst ++ seen).Nodup →
      (∀ name ∈ row.names, name ∈ members.map Prod.fst ++ seen) →
      Scan.Settles row.memberRound (isFirst, row.filled seen xs)
        (Scan.remaining isFirst (Json.memberTexts members) ++ '\x7d' :: rest) xs rest
  | [], seen, isFirst, _, _, hall => by
      have hclose : Scan.Closes '\x7d' := .inr rfl
      have hfinish : row.finish (row.filled seen xs) = .ok xs := finish_filled hall
      have hchecked : Scan.checked (fun s => .ok (row.filled seen xs, s)) row.finish ('\x7d' :: rest) =
          .ok (xs, '\x7d' :: rest) :=
        Scan.checked_eq_ok rfl hfinish
      refine .last ?_ (by simp)
      show row.memberRound (isFirst, row.filled seen xs) ('\x7d' :: rest) = _
      simp only [memberRound, Scan.more_close hclose, hchecked, Scan.symbol_cons hclose.isBlank_eq, bind,
        Except.bind]
      rfl
  | (name, v) :: members, seen, isFirst, hmem, hnew, hall => by
      have hclose : Scan.Closes '\x7d' := .inr rfl
      have hmoved : (members.map Prod.fst ++ name :: seen).Perm ((name :: members.map Prod.fst) ++ seen) :=
        List.perm_middle
      have hname : name ∉ seen := fun hseen =>
        (List.nodup_cons.mp hnew).1 (List.mem_append_right _ hseen)
      have hbegins := Scan.begins_memberText name v.compact
      have hends := Scan.ends_remaining hclose (Json.memberTexts members) rest
      have hvalue := scanValue_filled hends hf hnodup (hmem _ List.mem_cons_self) hname
      refine .again ?_ ?_
        (settles_memberTexts hf hnodup rest false (fun member h => hmem member (List.mem_cons_of_mem _ h))
          (hmoved.nodup_iff.mpr hnew) fun other h => hmoved.mem_iff.mpr (hall other h))
      · show row.memberRound (isFirst, row.filled seen xs)
          (Scan.remaining isFirst (Scan.memberText name v.compact :: Json.memberTexts members) ++ '\x7d' :: rest) = _
        simp only [memberRound, Scan.more_remaining hclose hbegins, if_true, Scan.quoted_memberText, hvalue,
          bind, Except.bind]
      · exact Scan.length_remaining_lt hbegins isFirst (Json.memberTexts members) ('\x7d' :: rest)

/-- An object is read back after its opening brace. -/
theorem scanMembers_write {row : Row ρ π} {d : Nat} {xs : ρ} (hf : row.Faithful d xs)
    (hnodup : row.names.Nodup) (rest : List Char) :
    row.scanMembers (Text.separated [','] (Json.memberTexts (row.write xs)) ++ '\x7d' :: rest) = .ok (xs, rest) := by
  have hnames := write_map_fst row xs
  have hsettles := settles_memberTexts hf hnodup rest true (fun member h => h)
    (by rwa [List.append_nil, hnames]) fun name h => by rwa [List.append_nil, hnames]
  rw [filled_nil row xs] at hsettles
  unfold scanMembers
  rw [Scan.separated_eq_remaining]
  exact hsettles.repeated_eq

/-- The values of an array are read back up to its closing bracket. -/
theorem scanFront_writeItems (expected : String) {d : Nat} (rest : List Char) {ρ π : Type} :
    ∀ {row : Row ρ π} (read : Nat) {xs : ρ}, row.Faithful d xs →
      row.scanFront expected read
        (Scan.remaining (read = 0) ((row.writeItems xs).map Json.compact) ++ ']' :: rest) =
          .ok (xs, ']' :: rest)
  | .nil, _, (), _ => rfl
  | .cons _ format _ _ more, read, (x, xs), hf => by
      have hclose : Scan.Closes ']' := .inl rfl
      obtain ⟨hx, hxs⟩ := hf
      have hends := Scan.ends_remaining hclose ((more.writeItems xs).map Json.compact) rest
      have hmore := scanFront_writeItems expected rest (read + 1) hxs
      rw [show decide (read + 1 = 0) = false from rfl] at hmore
      rw [writeItems, List.map_cons, scanFront]
      simp only [Scan.more_remaining hclose hx.accepts.begins, if_true, hx.accepts.scan_eq hends, hmore, bind,
        Except.bind]

/-- An array is read back after its opening bracket. -/
theorem scanItems_writeItems {row : Row ρ π} {d : Nat} {xs : ρ} (hf : row.Faithful d xs) (expected : String)
    (rest : List Char) :
    row.scanItems expected
      (Text.separated [','] ((row.writeItems xs).map Json.compact) ++ ']' :: rest) = .ok (xs, rest) := by
  have hfront := scanFront_writeItems expected rest 0 hf
  rw [show decide (0 = 0) = true from rfl] at hfront
  unfold scanItems
  rw [Scan.separated_eq_remaining, hfront]
  simp only [Scan.symbol_cons (c := ']') rfl, bind, Except.bind]

/-- The object that is written for a row is read back. -/
theorem scanEither_write {row : Row ρ π} {d : Nat} {xs : ρ} (hf : row.Faithful d xs)
    (hnodup : row.names.Nodup) (expected : String) (rest : List Char) :
    row.scanEither expected ((Json.object (row.write xs)).compact ++ rest) = .ok (xs, rest) := by
  rw [Json.compact_object]
  simp only [scanEither, Scan.skipBlanks_cons (c := '\x7b') rfl, if_true]
  exact scanMembers_write hf hnodup rest

/-! ### The formats -/

theorem fits_write {d : Nat} {ρ π : Type} : ∀ {row : Row ρ π} {xs : ρ}, row.Faithful d xs →
    ∀ member ∈ row.write xs, member.2.Fits d
  | .nil, (), _, _, hmem => by cases hmem
  | .cons _ _ _ _ rest, (x, xs), hf, member, hmem => by
      obtain ⟨hx, hxs⟩ := hf
      rcases List.mem_cons.mp hmem with rfl | hmem
      · exact hx.fits
      · exact fits_write hxs member hmem

theorem fits_writeItems {d : Nat} {ρ π : Type} : ∀ {row : Row ρ π} {xs : ρ}, row.Faithful d xs →
    ∀ item ∈ row.writeItems xs, item.Fits d
  | .nil, (), _, _, hmem => by cases hmem
  | .cons _ _ _ _ rest, (x, xs), hf, item, hmem => by
      obtain ⟨hx, hxs⟩ := hf
      rcases List.mem_cons.mp hmem with rfl | hmem
      · exact hx.fits
      · exact fits_writeItems hxs item hmem

end Row

namespace Format

variable {ρ π : Type} {row : Row ρ π} {d : Nat} {xs : ρ}

/-- A record whose fields have different names reads back what it writes. -/
theorem faithful_record (name : String) (hf : row.Faithful d xs) (hnodup : row.names.Nodup) :
    (Format.record name row).Faithful (d + 1) xs :=
  ⟨.object (Row.fits_write hf), Row.ofMembers_write hf hnodup, Json.begins_object _,
    fun _ => Row.scanEither_write hf hnodup ("struct " ++ name) _⟩

/-- A tuple reads back what it writes. -/
theorem faithful_tuple (hf : row.Faithful d xs) : (Format.tuple row).Faithful (d + 1) xs := by
  refine ⟨.array (Row.fits_writeItems hf), Row.ofItems_writeItems hf _, Json.begins_array _, ?_⟩
  intro rest _
  show (Format.tuple row).scan ((Json.array (row.writeItems xs)).compact ++ rest) = _
  rw [Json.compact_array]
  simp only [tuple, Scan.skipBlanks_cons (c := '[') rfl, if_true]
  exact Row.scanItems_writeItems hf _ rest

end Format
end Dependence

import Dependence.Format.Choice
import Dependence.Proofs.Format.Record

/-! # Choices read back what they write

A variant is read back if it is written as its branch reads it: as its name alone
(`faithful_choice_of_alone`), or as the one member of an object whose content is a record
(`faithful_choice_of_record`). -/

namespace Dependence
namespace Format

variable {α ρ π : Type} {branches : List (Branch α)} {write : α → Json} {name : String} {d : Nat} {x : α}

/-- A variant that is written as its name. -/
theorem faithful_choice_of_alone {branch : Branch α} (hwrite : write x = .string name)
    (hfind : Branch.find branches name = .ok branch) (halone : branch.alone = .ok x) :
    (choice branches write).Faithful d x := by
  have hread : (Branch.find branches name >>= Branch.alone) = .ok x := by
    rw [hfind]
    exact halone
  refine ⟨?_, ?_, ?_, ?_⟩
  · show (write x).Fits d
    rw [hwrite]
    exact .string name
  · show (choice branches write).ofJson (write x) = _
    rw [hwrite]
    exact hread
  · show Scan.Begins (write x).compact
    rw [hwrite]
    exact Json.begins_string name
  · intro rest _
    show (choice branches write).scan ((write x).compact ++ rest) = _
    rw [hwrite, Json.compact_string]
    simp only [choice, Scan.skipBlanks_cons (c := '"') rfl, if_true]
    exact Scan.checked_eq_ok (Quoted.scan_encoded name rest) hread

/-- The text of an object with one member. -/
theorem compact_singleton (name : String) (v : Json) (rest : List Char) :
    (Json.object [(name, v)]).compact ++ rest =
      '\x7b' :: '"' :: (name.toList.flatMap Quoted.escape ++ '"' :: ':' :: (v.compact ++ '\x7d' :: rest)) := by
  rw [Json.compact_object]
  simp [Json.memberTexts, Scan.memberText, Text.separated, Quoted.encode]

/-- A variant that is written as an object whose only member has a record for its content. -/
theorem faithful_choice_of_record {type : String} {row : Row ρ π} {make : ρ → α} {xs : ρ}
    (hwrite : write x = .object [(name, .object (row.write xs))])
    (hfind : Branch.find branches name = .ok (Branch.record type name row make))
    (hrow : row.Faithful d xs) (hnodup : row.names.Nodup) (hx : make xs = x) :
    (choice branches write).Faithful (d + 2) x := by
  refine ⟨?_, ?_, ?_, ?_⟩
  · show (write x).Fits (d + 2)
    rw [hwrite]
    refine .object ?_
    intro member hmem
    rw [List.mem_singleton.mp hmem]
    exact .object (Row.fits_write hrow)
  · show (choice branches write).ofJson (write x) = _
    rw [hwrite]
    show (Branch.find branches name >>= fun branch => branch.ofJson (.object (row.write xs))) = _
    rw [hfind]
    show (row.ofMembers (row.write xs)).map make = _
    rw [Row.ofMembers_write hrow hnodup]
    exact congrArg Except.ok hx
  · show Scan.Begins (write x).compact
    rw [hwrite]
    exact Json.begins_object _
  · intro rest _
    have hcontent := Row.scanEither_write hrow hnodup ("struct variant " ++ type ++ "::" ++ name)
      ('\x7d' :: rest)
    have hname : Scan.checked Quoted.scan (Branch.find branches)
        (name.toList.flatMap Quoted.escape ++ '"' :: ':' :: ((Json.object (row.write xs)).compact ++ '\x7d' :: rest)) =
          .ok (Branch.record type name row make,
            ':' :: ((Json.object (row.write xs)).compact ++ '\x7d' :: rest)) :=
      Scan.checked_eq_ok (Quoted.scan_encoded name _) hfind
    have hbrace : Scan.symbol '\x7d' ('\x7d' :: rest) = .ok ((), rest) := Scan.symbol_cons rfl rest
    have hbranch : (Branch.record type name row make).scan
        ((Json.object (row.write xs)).compact ++ '\x7d' :: rest) = .ok (x, '\x7d' :: rest) := by
      simp only [Branch.record, hcontent, bind, Except.bind, hx]
    show (choice branches write).scan ((write x).compact ++ rest) = _
    rw [hwrite, compact_singleton]
    simp only [choice, Scan.skipBlanks_cons (c := '\x7b') rfl, Scan.skipBlanks_cons (c := '"') rfl, hname,
      Scan.symbol_cons (c := ':') rfl, hbranch, hbrace, bind, Except.bind]
    rfl

end Format
end Dependence

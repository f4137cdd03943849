import Dependence.Inspection
import Dependence.Proofs.Snapshot.Legible
import Dependence.Session.Operation

/-! # What snapshots show

A snapshot function pictures its values if its snapshots are proper and show everything (`Snapshot.Pictures`).
Lists, options and tables of pictured values are pictured, and so are all values of the domain.  Hence both
texts of a value tell it among all values of its type (`texts_tell`): no name or label can be
chosen such that the text of one value reads like that of another. -/

namespace Dependence

namespace Snapshot

open Text (isWord)

/-- A way to picture values in which nothing gets lost. -/
structure Pictures {α : Type} (snapshot : α → Snapshot) : Prop where
  proper : ∀ x, (snapshot x).Proper
  injective : Function.Injective snapshot

/-- Both texts tell what a snapshot shows. -/
def Tells {α : Type} (snapshot : α → Snapshot) : Prop :=
  ∀ isSpacious x y, (snapshot x).describe isSpacious = (snapshot y).describe isSpacious ↔ x = y

section pictures
variable {α : Type} {snapshot : α → Snapshot}

theorem Pictures.tells (h : Pictures snapshot) : Tells snapshot := by
  intro isSpacious x y
  rw [describe_inj (h.proper x) (h.proper y), h.injective.eq_iff]

theorem Pictures.list (h : Pictures snapshot) : Pictures fun xs : List α => .list (xs.map snapshot) where
  proper _ := .list (List.forall_mem_map.mpr fun x _ => h.proper x)
  injective _ _ hsame := (List.map_inj_right h.injective).mp (Snapshot.list.inj hsame)

theorem Pictures.optional (h : Pictures snapshot) :
    Pictures fun x : Option α => Snapshot.optional (x.map snapshot) where
  proper x := by
    cases x with
    | none => exact .verbatim (by decide) (by decide)
    | some x => exact .tuple (by decide) (List.forall_mem_singleton.mpr (h.proper x))
  injective x y hsame := by
    cases x with
    | none =>
        cases y with
        | none => rfl
        | some y => cases hsame
    | some x =>
        cases y with
        | none => cases hsame
        | some y => rw [h.injective (List.cons.inj (Snapshot.tuple.inj hsame).2).1]

theorem proper_record {name : String} {fields : List (String × Snapshot)}
    (hnames : ∀ n ∈ name :: fields.map Prod.fst, isWord n = true) (hvalues : ∀ field ∈ fields, field.2.Proper) :
    Proper (.record name fields) :=
  .record (List.forall_mem_cons.mp hnames).1 (List.forall_mem_map.mp (List.forall_mem_cons.mp hnames).2) hvalues

end pictures

/-! ### The values of the domain -/

theorem pictures_id (e : Entity) : Pictures (@Id.snapshot e) where
  proper x := .tuple (by cases e <;> decide) (List.forall_mem_singleton.mpr (.number _))
  injective x y h := by simpa [Id.snapshot, Id.index_inj] using h

theorem pictures_stage : Pictures Stage.snapshot where
  proper s := by cases s <;> exact .verbatim (by decide) (by decide)
  injective s t h := by cases s <;> cases t <;> simp_all [Stage.snapshot, Stage.name]

theorem pictures_kind : Pictures Kind.snapshot where
  proper k := by cases k <;> exact .verbatim (by decide) (by decide)
  injective k l h := by cases k <;> cases l <;> simp_all [Kind.snapshot, Kind.name]

theorem pictures_index (e : Entity) : Pictures (@Index.snapshot e) where
  proper x := by
    refine .table ?_ ?_ <;>
    · rw [List.forall_mem_map]
      intro pair _
      exact (pictures_id _).proper _
  injective := by
    rintro ⟨entries⟩ ⟨entries'⟩ h
    refine congrArg Index.mk ((List.map_inj_right ?_).mp (Snapshot.table.inj h))
    rintro ⟨key, node⟩ ⟨key', node'⟩ hpair
    obtain ⟨hkey, hnode⟩ := Prod.mk.inj hpair
    rw [(pictures_id _).injective hkey, (pictures_id _).injective hnode]

theorem pictures_declaration : Pictures Declaration.snapshot where
  proper d := by
    refine proper_record (by simp only [List.map]; decide) ?_
    simp only [List.forall_mem_cons]
    exact ⟨(pictures_id _).proper _, .text _, (pictures_id _).list.proper _, .boolean _, nofun⟩
  injective := by
    rintro ⟨id, name, params, isVariadic⟩ ⟨id', name', params', isVariadic'⟩ h
    simp only [Declaration.snapshot, Snapshot.record.injEq, List.cons.injEq, Prod.mk.injEq, true_and, and_true,
      Snapshot.text.injEq, Snapshot.boolean.injEq] at h
    obtain ⟨hid, rfl, hparams, rfl⟩ := h
    rw [(pictures_id _).injective hid, (pictures_id _).list.injective hparams]

theorem pictures_call : Pictures Call.snapshot where
  proper c := by
    refine proper_record (by simp only [List.map]; decide) ?_
    simp only [List.forall_mem_cons]
    exact ⟨(pictures_id _).proper _, (pictures_id _).optional.proper _, nofun⟩
  injective := by
    rintro ⟨instruction, callee⟩ ⟨instruction', callee'⟩ h
    simp only [Call.snapshot, Snapshot.record.injEq, List.cons.injEq, Prod.mk.injEq, true_and, and_true] at h
    rw [(pictures_id _).injective h.1, (pictures_id _).optional.injective h.2]

theorem pictures_payload : Pictures Payload.snapshot where
  proper p := by
    cases p <;>
    · refine proper_record (by simp only [List.map]; decide) ?_
      simp [(pictures_id _).proper, Proper.text]
  injective p q h := by
    cases p <;> cases q <;>
      simp_all [Payload.snapshot, (pictures_id _).injective.eq_iff]

theorem pictures_missing : Pictures Missing.snapshot where
  proper m := by
    cases m <;>
    · refine proper_record (by simp only [List.map]; decide) ?_
      simp [(pictures_id _).proper]
  injective m n h := by
    cases m <;> cases n <;>
      simp_all [Missing.snapshot, (pictures_id _).injective.eq_iff]

theorem pictures_store : Pictures Store.snapshot where
  proper s := by
    refine proper_record (by simp only [List.map]; decide) ?_
    simp only [List.forall_mem_cons]
    exact ⟨pictures_declaration.proper _, pictures_stage.proper _, (pictures_index _).proper _,
      (pictures_id _).optional.proper _, (pictures_index _).proper _, (pictures_id _).list.proper _,
      pictures_call.list.proper _, nofun⟩
  injective := by
    rintro ⟨declaration, stage, formals, variadicNode, values, listed, calls⟩
      ⟨declaration', stage', formals', variadicNode', values', listed', calls'⟩ h
    simp only [Store.snapshot, Snapshot.record.injEq, List.cons.injEq, Prod.mk.injEq, true_and, and_true] at h
    obtain ⟨hdeclaration, hstage, hformals, hvariadic, hvalues, hlisted, hcalls⟩ := h
    rw [pictures_declaration.injective hdeclaration, pictures_stage.injective hstage,
      (pictures_index _).injective hformals, (pictures_id _).optional.injective hvariadic,
      (pictures_index _).injective hvalues, (pictures_id _).list.injective hlisted,
      pictures_call.list.injective hcalls]

/-- A store can be told by either of its texts, down to the order of its entries, and so can the values of the
types that a store is about. -/
theorem texts_tell :
    (∀ isSpacious (s t : Store),
      s.ask (.describe isSpacious) = t.ask (.describe isSpacious) ↔
        s.declaration = t.declaration ∧ s.stage = t.stage ∧ s.formals.entries = t.formals.entries ∧
          s.variadicNode = t.variadicNode ∧ s.values.entries = t.values.entries ∧ s.listed = t.listed ∧
          s.calls = t.calls) ∧
    Tells Declaration.snapshot ∧ Tells Call.snapshot ∧ Tells Payload.snapshot ∧ Tells Kind.snapshot ∧
    Tells Missing.snapshot ∧ ∀ e, Tells (@Id.snapshot e) := by
  refine ⟨fun isSpacious s t => ?_, pictures_declaration.tells, pictures_call.tells, pictures_payload.tells,
    pictures_kind.tells, pictures_missing.tells, fun e => (pictures_id e).tells⟩
  have hanswers : s.ask (.describe isSpacious) = t.ask (.describe isSpacious) ↔ s = t := by
    simp only [Store.ask, Except.ok.injEq, Answer.text.injEq, pictures_store.tells isSpacious s t]
  rw [hanswers]
  obtain ⟨declaration, stage, ⟨formals⟩, variadicNode, ⟨values⟩, listed, calls⟩ := s
  obtain ⟨declaration', stage', ⟨formals'⟩, variadicNode', ⟨values'⟩, listed', calls'⟩ := t
  simp only [Store.mk.injEq, Index.mk.injEq]

end Snapshot
end Dependence

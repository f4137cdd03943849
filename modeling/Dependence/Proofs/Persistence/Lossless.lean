import Dependence.Proofs.Persistence

/-! # Nothing is lost by writing a value down

A format is lossless if both of its readers take every value back from its text: the reader of texts from
the text itself, and the reader of trees from the tree of the text.  So no two values have the same text.

A format that is faithful for all values within the depth that readers go to is lossless
(`Format.lossless_of_faithful`), and this is so for identities, declarations, calls, payloads and kinds of
dependence. -/

namespace Dependence
namespace Format

variable {α : Type}

/-- Every value is read back from its text, and from the tree of its text. -/
structure Lossless (f : Format α) : Prop where
  parse_text : ∀ x, f.parse (f.text x) = .ok x
  ofJson_parse : ∀ x, ∃ v, Json.parse (f.text x) = .ok v ∧ f.ofJson v = .ok x
  text_eq_iff : ∀ x y, f.text x = f.text y ↔ x = y

theorem lossless_of_faithful {f : Format α} (h : ∀ x, f.Faithful Json.maxDepth x) : f.Lossless := by
  have hparse : ∀ x, f.parse (f.text x) = .ok x := fun x => (h x).parse_text
  refine ⟨hparse, ?_, ?_⟩
  · intro x
    exact ⟨f.write x, (h x).fits.parse_text, (h x).ofJson_write⟩
  · intro x y
    constructor
    · intro htext
      have hsame := hparse x
      rw [htext, hparse y] at hsame
      exact (Except.ok.inj hsame).symm
    · exact congrArg f.text

/-- Whatever stands in a declaration, a call, a payload or a kind of dependence comes back unchanged, names
and labels with any characters among it. -/
theorem lossless_persisted :
    (∀ e : Entity, (@Id.format e).Lossless) ∧ Declaration.format.Lossless ∧ Call.format.Lossless ∧
      Payload.format.Lossless ∧ Kind.format.Lossless :=
  ⟨fun _ => lossless_of_faithful (Id.faithful 127), lossless_of_faithful (Declaration.faithful 125),
    lossless_of_faithful (Call.faithful 126), lossless_of_faithful (Payload.faithful 125),
    lossless_of_faithful (Kind.faithful 127)⟩

/-- A label with a quote, a backslash, two control characters and a character of the highest planes. -/
example : Payload.format.text (.synthetic "\"\\\n\x01\x7f😀") =
    "\x7b\"Synthetic\":\x7b\"label\":\"\\\"\\\\\\n\\u0001\x7f😀\"\x7d\x7d" := by
  decide +kernel

end Format
end Dependence

import Mathlib.Logic.Relator
import ClaimCheck.Proofs.Validation
/-!
Two runs of one computation on different data. They end the same way if both give a result, and
the results are related, or both fail with the same error. Steps that keep this keep it together,
so that what two runs have in common is found part by part.
-/
namespace ClaimCheck
open Relator

/-- Related results, or one error. -/
inductive SameEnd {ε α β : Type} (related : α → β → Prop) : Except ε α → Except ε β → Prop
  | ok {a : α} {b : β} (h : related a b) : SameEnd related (.ok a) (.ok b)
  | error (e : ε) : SameEnd related (.error e) (.error e)

section
variable {ε δ α β γ κ : Type} {R : α → β → Prop} {S : γ → κ → Prop}

namespace SameEnd
variable {result : Except ε α} {other : Except ε β}

theorem of_eq {left right : Except ε α} (h : left = right) : SameEnd Eq left right := by
  subst h
  cases left with
  | error e => exact .error e
  | ok a => exact .ok rfl

theorem bind (h : SameEnd R result other) {next : α → Except ε γ} {next' : β → Except ε κ}
    (hnext : (R ⇒ SameEnd S) next next') : SameEnd S (result >>= next) (other >>= next') := by
  cases h with
  | error e => exact .error e
  | ok h => exact hnext h

theorem map (h : SameEnd R result other) {f : α → γ} {g : β → κ} (hf : (R ⇒ S) f g) :
    SameEnd S (result.map f) (other.map g) := by
  cases h with
  | error e => exact .error e
  | ok h => exact .ok (hf h)

theorem mapError (h : SameEnd R result other) (wrap : ε → δ) :
    SameEnd R (result.mapError wrap) (other.mapError wrap) := by
  cases h with
  | error e => exact .error (wrap e)
  | ok h => exact .ok h

theorem ok_iff (h : SameEnd R result other) : (∃ a, result = .ok a) ↔ ∃ b, other = .ok b := by
  cases h with
  | error e => exact ⟨nofun, nofun⟩
  | ok _ => exact ⟨fun _ => ⟨_, rfl⟩, fun _ => ⟨_, rfl⟩⟩

end SameEnd

/-- Related functions of related arguments; where both checks fail, the issues of both are kept
in both runs. -/
theorem Checked.and_sameEnd {f : Checked (α → γ)} {g : Checked (β → κ)} {a : Checked α}
    {b : Checked β} (hf : SameEnd (R ⇒ S) f g) (ha : SameEnd R a b) :
    SameEnd S (Checked.and f a) (Checked.and g b) := by
  cases hf with
  | error issues =>
      cases ha with
      | error more => exact .error (issues ++ more)
      | ok _ => exact .error issues
  | ok hf =>
      cases ha with
      | error issues => exact .error issues
      | ok ha => exact .ok (hf ha)

theorem Checked.named_sameEnd {a : Checked α} {b : Checked β} (h : SameEnd R a b)
    (record : String) : SameEnd R (a.named record) (b.named record) := by
  cases h with
  | ok h => exact .ok h
  | error issues =>
      unfold Checked.named
      dsimp only
      cases issues.find? (·.flaw.breaksOff) with
      | none => exact .error _
      | some issue => exact .error _

end

theorem Fields.optional_sameEnd {α : Type} {fields others : Fields} {name : String}
    (h : fields.get? name = others.get? name) (read : Reader α) (default : α) :
    SameEnd Eq (fields.optional name read default) (others.optional name read default) := by
  refine .of_eq ?_
  rw [Fields.optional, Fields.optional, h]

end ClaimCheck

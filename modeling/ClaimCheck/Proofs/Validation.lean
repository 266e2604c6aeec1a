import ClaimCheck.Validation.Reader
import ClaimCheck.Proofs.Failure
/-!
When a check ends with a result. A record is accepted exactly when each of its fields is, and
the result is then put together from what the fields gave.
-/
namespace ClaimCheck

theorem Checked.and_eq_ok_iff {α β : Type} {f : Checked (α → β)} {a : Checked α} {b : β} :
    Checked.and f a = .ok b ↔ ∃ g x, f = .ok g ∧ a = .ok x ∧ b = g x := by
  constructor
  · intro h
    cases f with
    | error issues => cases a <;> cases h
    | ok g =>
        cases a with
        | error issues => cases h
        | ok x => exact ⟨g, x, rfl, rfl, (Except.ok.inj h).symm⟩
  · rintro ⟨g, x, rfl, rfl, rfl⟩
    rfl

theorem Checked.under_eq_ok_iff {α : Type} {step : Step} {a : Checked α} {x : α} :
    a.under step = .ok x ↔ a = .ok x := by
  cases a with
  | ok y => rfl
  | error issues => exact ⟨nofun, nofun⟩

theorem Checked.named_eq_ok_iff {α : Type} {record : String} {a : Checked α} {x : α} :
    a.named record = .ok x ↔ a = .ok x := by
  cases a with
  | ok y => simp only [Checked.named, Except.ok.injEq]
  | error issues =>
      unfold Checked.named
      dsimp only
      split <;> exact ⟨nofun, nofun⟩

/-- What a field that may be left out comes to. -/
def Reader.Takes {α : Type} (read : Reader α) (default : α) : Option Value → α → Prop
  | some value, a => read value = .ok a
  | none, a => a = default

/-- A reader that takes what another one takes, as far as a condition holds of the result. -/
def Reader.Restricts {α : Type} (P : α → Prop) (read narrow : Reader α) : Prop :=
  ∀ value a, narrow value = .ok a ↔ read value = .ok a ∧ P a

namespace Reader
variable {α : Type} {P : α → Prop} {read narrow : Reader α}

/-- A field that may be left out is subject to a condition that its default meets. -/
theorem Restricts.takes (h : Restricts P read narrow) {default : α} (hdefault : P default)
    {value : Option Value} {a : α} :
    Takes narrow default value a ↔ Takes read default value a ∧ P a := by
  cases value with
  | some value => exact h value a
  | none =>
      constructor
      · rintro rfl
        exact ⟨rfl, hdefault⟩
      · exact And.left

theorem Restricts.orNull (h : Restricts P read narrow) :
    Restricts (fun a => ∀ x, a = some x → P x) (orNull read) (orNull narrow) := by
  intro value a
  by_cases hnull : value = .null
  · subst hnull
    constructor
    · intro ha
      cases ha
      exact ⟨rfl, nofun⟩
    · exact And.left
  · have hread : ∀ reader : Reader α, Reader.orNull reader value = (reader value).map some := by
      intro reader
      cases value with
      | null => exact absurd rfl hnull
      | _ => rfl
    rw [hread, hread, map_eq_ok_iff, map_eq_ok_iff]
    constructor
    · rintro ⟨x, hx, rfl⟩
      obtain ⟨hx, hP⟩ := (h value x).mp hx
      exact ⟨⟨x, hx, rfl⟩, fun _ hsome => Option.some.inj hsome ▸ hP⟩
    · rintro ⟨⟨x, hx, rfl⟩, hP⟩
      exact ⟨x, (h value x).mpr ⟨hx, hP x rfl⟩, rfl⟩

/-- A reader that tests what another one gives. -/
theorem restricts_of_test
    (herror : ∀ value issues, read value = .error issues → narrow value = .error issues)
    (htest : ∀ value a, read value = .ok a → P a ∧ narrow value = .ok a ∨
      ¬ P a ∧ ∃ issues, narrow value = .error issues) :
    Restricts P read narrow := by
  intro value a
  cases hread : read value with
  | error issues =>
      rw [herror value issues hread]
      exact ⟨nofun, nofun⟩
  | ok b =>
      rcases htest value b hread with ⟨hP, hnarrow⟩ | ⟨hP, issues, hnarrow⟩
      · rw [hnarrow]
        refine ⟨fun h => ⟨h, ?_⟩, And.left⟩
        cases h
        exact hP
      · rw [hnarrow]
        refine ⟨nofun, ?_⟩
        rintro ⟨h, ha⟩
        cases h
        exact absurd ha hP

theorem restricts_nonEmptyText :
    Restricts (· ≠ "") (spelled .notText .notUnicode) nonEmptyText := by
  refine restricts_of_test (fun value issues h => ?_) (fun value s h => ?_)
  · simp only [nonEmptyText, h]
  · by_cases hs : s = ""
    · exact .inr ⟨not_not_intro hs, _, by simp only [nonEmptyText, h, hs]; rfl⟩
    · refine .inl ⟨hs, ?_⟩
      simp only [nonEmptyText, h, String.isEmpty_iff, if_neg hs]

theorem restricts_positive : Restricts (1 ≤ ·) integer positive := by
  refine restricts_of_test (fun value issues h => ?_) (fun value n h => ?_)
  · simp only [positive, h]
  · by_cases hn : 0 < n
    · exact .inl ⟨hn, by simp only [positive, h, if_pos hn]⟩
    · exact .inr ⟨hn, _, by simp only [positive, h, if_neg hn]; rfl⟩

/-- The fields that a record is read from: what a mapping holds under texts, or the fields of a
record of that name which has been made before. -/
inductive FieldsOf (name : String) : Value → Fields → Prop
  | mapping (entries : List (Value × Value)) :
      FieldsOf name (.map entries) (Value.textEntries entries)
  | made (text : String) (fields : Fields) : FieldsOf name (.record name text fields) fields

theorem record_eq_ok_iff {name : String} {read : Fields → Checked α} {value : Value} {a : α} :
    record name read value = .ok a ↔ ∃ fields, FieldsOf name value fields ∧ read fields = .ok a := by
  constructor
  · intro h
    unfold record at h
    split at h
    next entries => exact ⟨_, .mapping entries, h⟩
    next made text fields =>
      split at h
      next hname =>
        subst hname
        exact ⟨fields, .made text fields, h⟩
      next => cases h
    next => cases h
  · rintro ⟨fields, hfields, h⟩
    cases hfields with
    | mapping entries => exact h
    | made text fields => rwa [record, if_pos rfl]

end Reader

theorem Fields.optional_eq_ok_iff {α : Type} {fields : Fields} {name : String} {read : Reader α}
    {default a : α} :
    fields.optional name read default = .ok a ↔ read.Takes default (fields.get? name) a := by
  unfold Fields.optional
  cases fields.get? name with
  | some value => exact Checked.under_eq_ok_iff
  | none =>
      simp only [Except.ok.injEq, Reader.Takes]
      exact eq_comm

theorem Fields.required_eq_ok_iff {α : Type} {fields : Fields} {name : String} {read : Reader α}
    {a : α} :
    fields.required name read = .ok a ↔
      ∃ value, fields.get? name = some value ∧ read value = .ok a := by
  unfold Fields.required
  cases fields.get? name with
  | some value =>
      rw [Checked.under_eq_ok_iff]
      exact ⟨fun h => ⟨value, rfl, h⟩, fun ⟨_, hv, h⟩ => Option.some.inj hv ▸ h⟩
  | none => exact ⟨nofun, nofun⟩

theorem Fields.get?_nil (name : String) : Fields.get? [] name = none := rfl

theorem Fields.get?_append (xs ys : Fields) (name : String) :
    Fields.get? (xs ++ ys) name = (Fields.get? xs name).or (Fields.get? ys name) := by
  unfold Fields.get?
  rw [List.find?_append]
  cases xs.find? (·.1 == name) <;> rfl

theorem Fields.get?_cons (key name : String) (value : Value) (rest : Fields) :
    Fields.get? ((key, value) :: rest) name =
      if key = name then some value else Fields.get? rest name := by
  unfold Fields.get?
  rw [List.find?_cons]
  split
  next h => rw [if_pos (beq_iff_eq.mp h)]; rfl
  next h => rw [if_neg (by simpa using h)]

end ClaimCheck

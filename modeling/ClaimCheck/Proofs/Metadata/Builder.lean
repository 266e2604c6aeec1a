import ClaimCheck.Metadata
import ClaimCheck.Metadata.Builder
import ClaimCheck.Proofs.Validation

namespace ClaimCheck

/-- What gives every member back gives the whole collection back. -/
theorem Checked.collect_map {α : Type} {read : Reader α} {toValue : α → Value}
    (h : ∀ a, read (toValue a) = .ok a) (position : Nat) (xs : List α) :
    Checked.collect position ((xs.map toValue).map read) = .ok xs := by
  induction xs generalizing position with
  | nil => rfl
  | cons x xs ih =>
      simp only [List.map_cons, Checked.collect, h, ih]
      rfl

theorem Reader.mapping_ofFields (fields : Fields) :
    Reader.mapping (Value.ofFields fields) = .ok fields := by
  rw [Value.ofFields, Reader.mapping]
  induction fields with
  | nil => rfl
  | cons field fields ih =>
      rw [List.map_cons, Reader.textKeys, ih]
      rfl

theorem RateLimit.reader_toValue (r : RateLimit) : RateLimit.reader r.toValue = .ok r := rfl

theorem Usage.reader_toValue (u : Usage) : Usage.reader u.toValue = .ok u := rfl

theorem PromptFilter.reader_toValue (f : PromptFilter) :
    PromptFilter.reader f.toValue = .ok f := rfl

theorem PromptMetadata.reader_toValue (p : PromptMetadata) :
    PromptMetadata.reader p.toValue = .ok p := by
  have hfilters : Reader.tuple PromptFilter.reader (.tuple (p.filters.map PromptFilter.toValue)) =
      .ok p.filters := Checked.collect_map PromptFilter.reader_toValue 0 p.filters
  have hfields : Fields.optional p.fields "filters" (Reader.tuple PromptFilter.reader) [] =
      .ok p.filters := Fields.optional_eq_ok_iff.mpr hfilters
  change PromptMetadata.check p.fields = .ok p
  rw [PromptMetadata.check, hfields]
  rfl

namespace Metadata

theorem check_eq_ok_iff {fields : Fields} {m : Metadata} :
    check fields = .ok m ↔
      Reader.Takes Reader.text "" (fields.get? "id") m.id ∧
      Reader.Takes Reader.text "" (fields.get? "model") m.model ∧
      Reader.Takes RateLimit.reader .empty (fields.get? "rate_limit") m.rateLimit ∧
      Reader.Takes Usage.reader .empty (fields.get? "usage") m.usage ∧
      Reader.Takes PromptMetadata.reader .empty (fields.get? "prompt_metadata") m.promptMetadata ∧
      Reader.Takes Reader.mapping [] (fields.get? "extra") m.extra := by
  simp only [check, Checked.and_eq_ok_iff, map_eq_ok_iff, Fields.optional_eq_ok_iff]
  constructor
  · rintro ⟨_, extra, ⟨_, prompts, ⟨_, usage, ⟨_, limit, ⟨_, model, ⟨id, hid, rfl⟩, hmodel, rfl⟩,
      hlimit, rfl⟩, husage, rfl⟩, hprompts, rfl⟩, hextra, rfl⟩
    exact ⟨hid, hmodel, hlimit, husage, hprompts, hextra⟩
  · rintro ⟨hid, hmodel, hlimit, husage, hprompts, hextra⟩
    exact ⟨_, m.extra, ⟨_, m.promptMetadata, ⟨_, m.usage, ⟨_, m.rateLimit, ⟨_, m.model,
      ⟨m.id, hid, rfl⟩, hmodel, rfl⟩, hlimit, rfl⟩, husage, rfl⟩, hprompts, rfl⟩, hextra, rfl⟩

theorem reader_toValue (m : Metadata) : reader m.toValue = .ok m := by
  change check [("id", .text m.id), ("model", .text m.model), ("rate_limit", m.rateLimit.toValue),
    ("usage", m.usage.toValue), ("prompt_metadata", m.promptMetadata.toValue),
    ("extra", Value.ofFields m.extra)] = .ok m
  rw [check_eq_ok_iff]
  exact ⟨rfl, rfl, m.rateLimit.reader_toValue, m.usage.reader_toValue,
    m.promptMetadata.reader_toValue, Reader.mapping_ofFields m.extra⟩

namespace Builder

theorem get?_written (key name : String) (value : Option Value) :
    Fields.get? (written key value) name = if key = name then value else none := by
  cases value with
  | none => exact (ite_self none).symm
  | some v => exact Fields.get?_cons key name v []

/-- Every field is looked up where it was written. -/
theorem get?_fields (b : Builder) :
    Fields.get? b.fields "id" = b.id ∧ Fields.get? b.fields "model" = b.model ∧
      Fields.get? b.fields "rate_limit" = b.rateLimit ∧ Fields.get? b.fields "usage" = b.usage ∧
      Fields.get? b.fields "prompt_metadata" = b.promptMetadata ∧
      Fields.get? b.fields "extra" = some (.map b.extra) := by
  simp [fields, Fields.get?_append, get?_written, Fields.get?_cons, Fields.get?_nil]

theorem build_eq_ok_iff {b : Builder} {m : Metadata} :
    b.build = .ok m ↔
      Reader.Takes Reader.text "" b.id m.id ∧ Reader.Takes Reader.text "" b.model m.model ∧
      Reader.Takes RateLimit.reader .empty b.rateLimit m.rateLimit ∧
      Reader.Takes Usage.reader .empty b.usage m.usage ∧
      Reader.Takes PromptMetadata.reader .empty b.promptMetadata m.promptMetadata ∧
      Reader.mapping (.map b.extra) = .ok m.extra := by
  obtain ⟨hid, hmodel, hlimit, husage, hprompts, hextra⟩ := b.get?_fields
  rw [build, ofFields, Checked.named_eq_ok_iff, check_eq_ok_iff, hid, hmodel, hlimit, husage,
    hprompts, hextra]
  rfl

end Builder

end Metadata
end ClaimCheck

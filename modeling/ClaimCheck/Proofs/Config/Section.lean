import ClaimCheck.Proofs.Config.Load
import ClaimCheck.Proofs.Validation

namespace ClaimCheck

namespace Config

theorem check_eq_ok_iff {fields : Fields} {config : Config} :
    check fields = .ok config ↔
      (∃ value, fields.get? "name" = some value ∧ Reader.nonEmptyText value = .ok config.name) ∧
      (∃ value, fields.get? "chat" = some value ∧ ChatModel.reader value = .ok config.chat) ∧
      Reader.Takes PromptConfig.reader .default (fields.get? "evaluator") config.evaluator := by
  simp only [check, Checked.and_eq_ok_iff, map_eq_ok_iff, Fields.required_eq_ok_iff,
    Fields.optional_eq_ok_iff]
  constructor
  · rintro ⟨_, evaluator, ⟨_, chat, ⟨name, hname, rfl⟩, hchat, rfl⟩, hevaluator, rfl⟩
    exact ⟨hname, hchat, hevaluator⟩
  · rintro ⟨hname, hchat, hevaluator⟩
    exact ⟨_, config.evaluator, ⟨_, config.chat, ⟨config.name, hname, rfl⟩, hchat, rfl⟩,
      hevaluator, rfl⟩

/-- A finished load has interpolated a mapping and checked what came out. -/
theorem loadData_eq_ok {env : Environment} {data : Value} {config : Config}
    (h : (loadData env data).outcome = .ok config) :
    ∃ entries result, data = .map entries ∧
      Environment.interpolateEntries env entries = .ok result ∧
      check (Value.textEntries result) = .ok config := by
  have hdata : ofData env data = .ok config := by
    unfold loadData at h
    split at h
    next other hother => cases h; exact hother
    next => cases h
  unfold ofData at hdata
  split at hdata
  next entries =>
    split at hdata
    next =>
      split at hdata
      next value hvalue =>
        rw [Environment.interpolate] at hvalue
        obtain ⟨result, hresult, rfl⟩ := map_eq_ok_iff.mp hvalue
        have hchecked := mapError_eq_ok_iff.mp hdata
        exact ⟨entries, result, rfl, hresult, Checked.named_eq_ok_iff.mp hchecked⟩
      next => cases hdata
    next => cases hdata
  next => cases hdata

/-- The data of a file, as far as a load gets to it. -/
def DataAt (depths : Yaml.Depths) (files : Files) (path : String) (data : Value) : Prop :=
  ∃ contents, files.contents? (Path.normalized path) = some contents ∧
    parseContents depths contents = .ok data

section DataAt
variable {depths : Yaml.Depths} {env : Environment} {files other : Files}
  {path otherPath : String} {data data' : Value} {config config' : Config}

theorem DataAt.unique (h : DataAt depths files path data) (h' : DataAt depths files path data') :
    data = data' := by
  obtain ⟨contents, hcontents, hparse⟩ := h
  obtain ⟨contents', hcontents', hparse'⟩ := h'
  cases hcontents.symm.trans hcontents'
  exact Except.ok.inj (hparse.symm.trans hparse')

theorem DataAt.load (h : DataAt depths files path data) (env : Environment) :
    load depths env files path = loadData env data := by
  obtain ⟨contents, hcontents, hparse⟩ := h
  exact loadWith_of_parsed hcontents hparse

theorem load_eq_ok_iff :
    (load depths env files path).outcome = .ok config ↔
      ∃ data, DataAt depths files path data ∧ (loadData env data).outcome = .ok config := by
  constructor
  · intro h
    obtain ⟨contents, data, hcontents, hparse, hload⟩ := loadWith_eq_ok h
    exact ⟨data, ⟨contents, hcontents, hparse⟩, hload⟩
  · rintro ⟨data, hdata, h⟩
    rw [hdata.load]
    exact h

end DataAt
end Config
end ClaimCheck

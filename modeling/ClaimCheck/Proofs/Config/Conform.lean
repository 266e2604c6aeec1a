import ClaimCheck.Config
import ClaimCheck.Proofs.Config.Load
import ClaimCheck.Proofs.Config.Prompt
import ClaimCheck.Proofs.Number.Sign
import ClaimCheck.Proofs.Validation

namespace ClaimCheck

namespace ChatModel

/-- A model that can be called: it has a name, and its settings are within their bounds. -/
structure Sound (m : ChatModel) : Prop where
  model : m.model ≠ ""
  temperature : m.temperature.AtLeastZero
  maxTokens : ∀ n, m.maxTokens = some n → 1 ≤ n

/-- A sound model that the fields spell. -/
structure Conforms (fields : Fields) (m : ChatModel) : Prop where
  model : ∃ value, fields.get? "model" = some value ∧
    Reader.spelled .notText .notUnicode value = .ok m.model
  temperature : Reader.Takes Reader.number .zero (fields.get? "temperature") m.temperature
  maxTokens : Reader.Takes (Reader.orNull Reader.integer) none (fields.get? "max_tokens") m.maxTokens
  apiBase : Reader.Takes (Reader.orNull Reader.text) none (fields.get? "api_base") m.apiBase
  sound : m.Sound

theorem restricts_nonNegative :
    Reader.Restricts Binary64.AtLeastZero Reader.number Reader.nonNegative := by
  refine Reader.restricts_of_test (fun value issues h => ?_) (fun value x h => ?_)
  · simp only [Reader.nonNegative, h]
  · rw [← Binary64.isNonNegative_iff]
    by_cases hx : x.isNonNegative = true
    · exact .inl ⟨hx, by simp only [Reader.nonNegative, h, if_pos hx]⟩
    · exact .inr ⟨hx, _, by simp only [Reader.nonNegative, h, if_neg hx]; rfl⟩

theorem atLeastZero_zero : Binary64.AtLeastZero .zero :=
  (Binary64.isNonNegative_iff .zero).mp rfl

/-- No limit is within every bound. -/
theorem of_none {P : Int → Prop} : ∀ n, (none : Option Int) = some n → P n :=
  nofun

theorem check_eq_ok_iff {fields : Fields} {m : ChatModel} :
    check fields = .ok m ↔ Conforms fields m := by
  simp only [check, Checked.and_eq_ok_iff, map_eq_ok_iff, Fields.required_eq_ok_iff,
    Fields.optional_eq_ok_iff, Reader.restricts_nonEmptyText _ _,
    restricts_nonNegative.takes atLeastZero_zero,
    Reader.restricts_positive.orNull.takes of_none]
  constructor
  · rintro ⟨_, apiBase, ⟨_, maxTokens, ⟨_, temperature, ⟨model, ⟨value, hvalue, hmodel, hnamed⟩,
      rfl⟩, ⟨htemperature, hbound⟩, rfl⟩, ⟨hmaxTokens, hcount⟩, rfl⟩, hapiBase, rfl⟩
    exact ⟨⟨value, hvalue, hmodel⟩, htemperature, hmaxTokens, hapiBase, hnamed, hbound, hcount⟩
  · rintro ⟨⟨value, hvalue, hmodel⟩, htemperature, hmaxTokens, hapiBase, hnamed, hbound, hcount⟩
    exact ⟨_, m.apiBase, ⟨_, m.maxTokens, ⟨_, m.temperature, ⟨m.model,
      ⟨value, hvalue, hmodel, hnamed⟩, rfl⟩, ⟨htemperature, hbound⟩, rfl⟩, ⟨hmaxTokens, hcount⟩,
      rfl⟩, hapiBase, rfl⟩

theorem ofFields_eq_ok_iff {fields : Fields} {m : ChatModel} :
    ofFields fields = .ok m ↔ Conforms fields m := by
  rw [ofFields, Checked.named_eq_ok_iff, check_eq_ok_iff]

theorem reader_eq_ok_iff {value : Value} {m : ChatModel} :
    reader value = .ok m ↔
      ∃ fields, Reader.FieldsOf "ChatModelConfig" value fields ∧ Conforms fields m := by
  simp only [reader, Reader.record_eq_ok_iff, check_eq_ok_iff]

end ChatModel

namespace Config

/-- A configuration that a claim can be checked with. -/
structure Sound (config : Config) : Prop where
  name : config.name ≠ ""
  chat : config.chat.Sound
  evaluator : config.evaluator.Grounded

/-- A configuration that the fields spell, section by section. -/
structure Spelled (fields : Fields) (config : Config) : Prop where
  name : ∃ value, fields.get? "name" = some value ∧
    Reader.spelled .notText .notUnicode value = .ok config.name ∧ config.name ≠ ""
  chat : ∃ value, fields.get? "chat" = some value ∧ ∃ settings,
    Reader.FieldsOf "ChatModelConfig" value settings ∧ config.chat.Conforms settings
  evaluator : config.evaluator.MadeWith (fields.get? "evaluator")

theorem Spelled.sound {fields : Fields} {config : Config} (h : Spelled fields config) :
    config.Sound := by
  obtain ⟨_, _, _, hname⟩ := h.name
  obtain ⟨_, _, _, _, hchat⟩ := h.chat
  exact ⟨hname, hchat.sound, h.evaluator.grounded⟩

theorem check_eq_ok_iff_spelled {fields : Fields} {config : Config} :
    check fields = .ok config ↔ Spelled fields config := by
  simp only [check_eq_ok_iff, Reader.restricts_nonEmptyText _ _, ChatModel.reader_eq_ok_iff,
    PromptConfig.takes_iff_madeWith]
  exact ⟨fun ⟨hname, hchat, hevaluator⟩ => ⟨hname, hchat, hevaluator⟩,
    fun ⟨hname, hchat, hevaluator⟩ => ⟨hname, hchat, hevaluator⟩⟩

/-- The configuration that a value holds. -/
def HeldBy (data : Value) (config : Config) : Prop :=
  ∃ fields, Reader.FieldsOf recordName data fields ∧ Spelled fields config

theorem ofValue_eq_ok_iff {data : Value} {config : Config} :
    ofValue data = .ok config ↔ config.HeldBy data := by
  simp only [ofValue, reader, Checked.named_eq_ok_iff, Reader.record_eq_ok_iff,
    check_eq_ok_iff_spelled, HeldBy]

/-- Whatever the file and the environment, a load gives sound configurations only. -/
theorem sound_of_loadWith {parse : List UInt8 → Except Raised Value} {env : Environment}
    {files : Files} {path : String} {config : Config}
    (h : (loadWith parse env files path).outcome = .ok config) : config.Sound := by
  obtain ⟨_, _, _, _, hload⟩ := loadWith_eq_ok h
  obtain ⟨_, _, _, _, hcheck⟩ := loadData_eq_ok hload
  exact (check_eq_ok_iff_spelled.mp hcheck).sound

end Config
end ClaimCheck

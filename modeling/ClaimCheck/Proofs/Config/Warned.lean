import ClaimCheck.Chat.Client
import ClaimCheck.Proofs.Config.Conform
/-!
Warnings of a temperature. An accepted temperature is zero or above, so it is either equal to zero
or warned of: once by the load that accepts it, and once by the chat model it belongs to, however
many calls follow. The two look at it apart from each other, and they never differ.
-/
namespace ClaimCheck

/-- How many of the events have a name. -/
def timesReported (name : String) (events : List Event) : Nat :=
  events.countP (·.name == name)

/-- An event that may come ahead of others with other names is among them once or not at all. -/
theorem timesReported_ahead (event : Event) {rest : List Event}
    (hrest : ∀ other ∈ rest, other.name ≠ event.name) (warned : Bool) :
    timesReported event.name ((if warned then [event] else []) ++ rest) =
      if warned then 1 else 0 := by
  have hnone : rest.countP (·.name == event.name) = 0 := by
    simpa only [List.countP_eq_zero, beq_iff_eq] using hrest
  rw [timesReported, List.countP_append, hnone, Nat.add_zero]
  cases warned with
  | true => simp
  | false => rfl

namespace Chat

def warning : String := "chat.high_temperature_warned"

/-- The temperature is warned of before anything else, and not again. -/
def WarnedFirst (model : ChatModel) (events : List Event) : Prop :=
  timesReported warning events = 1 ∧
    events.head? = some (.highTemperatureWarned model.model model.temperature)

/-- A call never warns of a temperature. -/
theorem call_events_ne_warning (model : ChatModel) (text : String) (reply : Reply)
    (clock : Clock) : ∀ event ∈ (call model text reply clock).events, event.name ≠ warning := by
  cases reply with
  | fault fault =>
      unfold call faultOutcome
      dsimp only
      split <;> simp [Event.name, warning]
  | answer answer =>
      unfold call
      dsimp only
      split <;> simp [Event.name, warning]

theorem calls_events_ne_warning (model : ChatModel) (exchanges : List Exchange) (clock : Clock) :
    ∀ event ∈ (calls model exchanges clock).flatMap (·.events), event.name ≠ warning := by
  induction exchanges generalizing clock with
  | nil => exact nofun
  | cons exchange rest ih =>
      intro event hevent
      rw [calls, List.flatMap_cons, List.mem_append] at hevent
      rcases hevent with hfirst | hrest
      · exact call_events_ne_warning model exchange.text exchange.reply clock event hfirst
      · exact ih _ event hrest

theorem timesReported_reported (model : ChatModel) (exchanges : List Exchange) (clock : Clock) :
    timesReported warning (reported model exchanges clock) =
      if model.temperature.isPositive then 1 else 0 :=
  timesReported_ahead (.highTemperatureWarned model.model model.temperature)
    (calls_events_ne_warning model exchanges clock) _

theorem warnedFirst_iff_isPositive (model : ChatModel) (exchanges : List Exchange)
    (clock : Clock) :
    WarnedFirst model (reported model exchanges clock) ↔ model.temperature.isPositive = true := by
  rw [WarnedFirst, timesReported_reported]
  cases h : model.temperature.isPositive with
  | true => simp [reported, ChatModel.warnings, h]
  | false => simp

end Chat

namespace Config

def warning : String := "config.chat_temperature_warning"

/-- The temperature is warned of once, and the end of the load is reported after it. -/
def WarnedBeforeLoaded (config : Config) (events : List Event) : Prop :=
  timesReported warning events = 1 ∧
    List.Sublist [.configTemperatureWarned config.chat.temperature,
      .configLoaded config.name config.chat.model] events

theorem timesReported_loadEvents (config : Config) :
    timesReported warning (loadEvents config) =
      if config.chat.temperature.isPositive then 1 else 0 := by
  refine timesReported_ahead (.configTemperatureWarned config.chat.temperature) ?_ _
  intro event hevent
  rw [List.mem_singleton] at hevent
  subst hevent
  simp [Event.name]

theorem warnedBeforeLoaded_iff_isPositive (config : Config) :
    WarnedBeforeLoaded config (loadEvents config) ↔
      config.chat.temperature.isPositive = true := by
  rw [WarnedBeforeLoaded, timesReported_loadEvents]
  cases h : config.chat.temperature.isPositive with
  | true => simp [loadEvents, h]
  | false => simp

/-- A load that accepts a configuration warns of its temperature once, before it reports the
configuration, if the temperature is not equal to zero, and otherwise never. A chat model that is
accepted is warned of once, ahead of all that its calls report, on the same condition. So a
configuration is warned of by its load as often as by its chat model. -/
theorem warned_iff_temperature_not_zero :
    (∀ parse env files path config, (loadWith parse env files path).outcome = .ok config →
      (WarnedBeforeLoaded config (loadWith parse env files path).events ↔
          ¬ config.chat.temperature.EqualsZero) ∧
        (timesReported warning (loadWith parse env files path).events = 0 ↔
          config.chat.temperature.EqualsZero)) ∧
    (∀ fields model, ChatModel.ofFields fields = .ok model → ∀ exchanges clock,
      (Chat.WarnedFirst model (Chat.reported model exchanges clock) ↔
          ¬ model.temperature.EqualsZero) ∧
        (timesReported Chat.warning (Chat.reported model exchanges clock) = 0 ↔
          model.temperature.EqualsZero)) ∧
    ∀ parse env files path config, (loadWith parse env files path).outcome = .ok config →
      ∀ exchanges clock,
        timesReported warning (loadWith parse env files path).events =
          timesReported Chat.warning (Chat.reported config.chat exchanges clock) := by
  refine ⟨?_, ?_, ?_⟩
  · intro parse env files path config h
    have hpositive := Binary64.isPositive_iff_not_equalsZero (sound_of_loadWith h).chat.temperature
    rw [events_of_loadWith_ok h, warnedBeforeLoaded_iff_isPositive, timesReported_loadEvents]
    exact ⟨hpositive, by rw [← not_iff_not, ← hpositive]; simp⟩
  · intro fields model h exchanges clock
    have hpositive := Binary64.isPositive_iff_not_equalsZero
      (ChatModel.ofFields_eq_ok_iff.mp h).sound.temperature
    rw [Chat.warnedFirst_iff_isPositive, Chat.timesReported_reported]
    exact ⟨hpositive, by rw [← not_iff_not, ← hpositive]; simp⟩
  · intro parse env files path config h exchanges clock
    rw [events_of_loadWith_ok h, timesReported_loadEvents, Chat.timesReported_reported]

/-- A file that spells its temperature as a text. -/
def warmFiles : Files :=
  .ofListing [("config.yaml",
    .file (Text.encodeUtf8 "name: n\nchat:\n  model: m\n  temperature: '0.5'\n"))]

def warmConfig : Config :=
  ⟨"n", ⟨"m", .ofRatio false 1 2, none, none⟩, .default⟩

def warmRun : LoadRun :=
  loadWith (parseContents ⟨480, 482⟩) [] warmFiles "config.yaml"

/-- Zero with a minus sign. -/
def coldModel : ChatModel :=
  ⟨"m", .ofRatio true 0 1, none, none⟩

theorem warmth_is_warned_of_and_cold_is_not :
    warmRun.outcome = .ok warmConfig ∧ WarnedBeforeLoaded warmConfig warmRun.events ∧
      timesReported Chat.warning (Chat.reported coldModel [⟨"p", .fault ⟨.timeout, ""⟩⟩] []) = 0 := by
  have hload : warmRun.outcome = .ok warmConfig := ok_of_toOption (by decide +kernel)
  have hcold : ChatModel.ofFields [("model", .text "m"), ("temperature", .text "-0.0")] =
      .ok coldModel := ok_of_toOption (by decide +kernel)
  obtain ⟨hwarm, hmodel, _⟩ := warned_iff_temperature_not_zero
  have hhalf : ¬ warmConfig.chat.temperature.EqualsZero := by
    rw [Binary64.equalsZero_iff]
    decide +kernel
  have hzero : coldModel.temperature.EqualsZero :=
    (Binary64.equalsZero_iff _).mpr (by decide +kernel)
  exact ⟨hload, (hwarm _ _ _ _ _ hload).1.mpr hhalf, (hmodel _ _ hcold _ _).2.mpr hzero⟩

end Config
end ClaimCheck

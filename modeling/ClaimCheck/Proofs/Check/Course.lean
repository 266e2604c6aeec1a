import ClaimCheck.Check
import ClaimCheck.Proofs.Chat.Call
import ClaimCheck.Proofs.Config.Load
import ClaimCheck.Proofs.Evaluation
/-!
The course of a check. It asks the model its question once the log format is known, the console is
made, the configuration is loaded, the document is read and the prompt is rendered; whatever is
missing ends it before anything is sent. From the question on, the reply decides.
-/
namespace ClaimCheck.Check

/-- The question that a check poses: the prompt that the chosen template gives for the text of the
document and the claim, put to the model of a loaded configuration. -/
structure Poses (world : World) (options : Options) (config : Config) (document prompt : String) :
    Prop where
  known : options.logFormat = "console" ∨ options.logFormat = "json"
  loaded : (Config.load world.depths world.env world.files options.config).outcome = .ok config
  decoded : ∃ contents text,
    world.files.contents? (Path.normalized options.document) = some contents ∧
      Text.encodeUtf8 text = contents ∧ document = String.ofList (Text.unifyLines text.toList)
  rendered : Template.render (templateOf options config)
    (Evaluation.bindings document options.claim) = .ok prompt

/-- A question is asked only if there is a console for the verdict. -/
structure Asks (world : World) (options : Options) (config : Config) (document prompt : String) :
    Prop extends Poses world options config document prompt where
  shown : ∃ console, world.terminal world.env = .ok console

/-- Whom a check asks: one reply comes back, whatever the prompt is. -/
def client (world : World) (config : Config) : Evaluation.Client := fun prompt clock =>
  Chat.call config.chat prompt world.reply clock

def answerTo (world : World) (config : Config) (prompt : String) : CallRun :=
  client world config prompt world.clock.read.2

def AsksNothing (world : World) (options : Options) : Prop :=
  ∀ config document prompt, ¬ Asks world options config document prompt

/-- The log format is known, and then there is no console, or the path of the configuration leads
to what cannot be read. -/
def CannotStart (world : World) (options : Options) : Prop :=
  (options.logFormat = "console" ∨ options.logFormat = "json") ∧
    ((∃ reason, world.terminal world.env = .error reason) ∨
      Config.LeadsToUnreadable world.depths world.files options.config)

theorem answerTo_sent (world : World) (config : Config) (prompt : String) :
    (answerTo world config prompt).sent = [⟨prompt, config.chat⟩] :=
  Chat.call_sent config.chat prompt world.reply world.clock.read.2

theorem contains_knownFormats (format : String) :
    knownFormats.contains format = true ↔ format = "console" ∨ format = "json" := by
  rw [List.contains_iff_mem, knownFormats, List.mem_cons, List.mem_singleton]

theorem readDocument_eq_ok_iff {files : Files} {path document : String} :
    readDocument files path = .ok document ↔ ∃ contents text,
      files.contents? (Path.normalized path) = some contents ∧
        Text.encodeUtf8 text = contents ∧
          document = String.ofList (Text.unifyLines text.toList) := by
  cases hcontents : files.contents? (Path.normalized path) with
  | none =>
      simp only [readDocument, hcontents]
      exact ⟨nofun, nofun⟩
  | some contents =>
      cases hd : Text.decodeUtf8 contents with
      | ok text =>
          simp only [readDocument, hcontents, hd]
          have htext := (Text.decodeUtf8_eq_ok_iff contents text).mp hd
          constructor
          · intro h; cases h; exact ⟨contents, text, rfl, htext, rfl⟩
          · rintro ⟨_, other, hsome, hother, rfl⟩
            cases hsome
            cases hd.symm.trans ((Text.decodeUtf8_eq_ok_iff contents other).mpr hother)
            rfl
      | error e =>
          simp only [readDocument, hcontents, hd]
          constructor
          · intro h; cases h
          · rintro ⟨_, other, hsome, hother, _⟩
            cases hsome
            cases hd.symm.trans ((Text.decodeUtf8_eq_ok_iff contents other).mpr hother)

/-- What is left of a check after its evaluation. -/
def conclude (console : Console) (events : List Event) (r : Evaluation.Run) : Run :=
  match r.outcome with
  | .ok response => finished console response.passed (events ++ r.events) r.sent
  | .error raised => ended raised (events ++ r.events) r.sent

/-- The evaluation of a check: its supporting text is the document and nothing else. -/
def evaluation (world : World) (options : Options) (config : Config) (document : String) :
    Evaluation.Run :=
  Evaluation.run (templateOf options config) (client world config)
    ⟨"", [⟨some document, []⟩], options.claim⟩ world.clock

section Stages
variable {world : World} {options : Options} {console : Console} {config : Config}
  {document : String}

theorem run_unknownFormat (h : knownFormats.contains options.logFormat = false) :
    run world options = failed (formatMessage options.logFormat) [] [] := by
  rw [run, h]
  rfl

theorem run_noConsole {reason : String} (h : knownFormats.contains options.logFormat = true)
    (hconsole : world.terminal world.env = .error reason) :
    run world options = ended (.noConsole reason) [] [] := by
  simp only [run, h, if_true, hconsole]

theorem run_notLoaded {raised : Raised} (h : knownFormats.contains options.logFormat = true)
    (hconsole : world.terminal world.env = .ok console)
    (hload : (Config.load world.depths world.env world.files options.config).outcome =
      .error raised) :
    run world options = ended raised
      (Config.load world.depths world.env world.files options.config).events [] := by
  simp only [run, h, if_true, hconsole, hload]

theorem run_loaded (h : knownFormats.contains options.logFormat = true)
    (hconsole : world.terminal world.env = .ok console)
    (hload : (Config.load world.depths world.env world.files options.config).outcome =
      .ok config) :
    run world options = runWith world options console config
      ((Config.load world.depths world.env world.files options.config).events
        ++ config.chat.warnings) := by
  simp only [run, h, if_true, hconsole, hload]

theorem runWith_unread {message : String} (events : List Event)
    (h : readDocument world.files options.document = .error message) :
    runWith world options console config events = failed message events [] := by
  simp only [runWith, h]

/-- A text of a document is never refused, so the evaluation begins. -/
theorem runWith_read (events : List Event)
    (h : readDocument world.files options.document = .ok document) :
    runWith world options console config events =
      conclude console events (evaluation world options config document) := by
  have hrequest : requestOf document options.claim =
      .ok ⟨"", [⟨some document, []⟩], options.claim⟩ := rfl
  simp only [runWith, h, hrequest]
  rfl

end Stages

namespace Asks
variable {world : World} {options : Options} {console : Console} {config : Config}
  {document prompt : String}

theorem run_eq (h : Asks world options config document prompt)
    (hconsole : world.terminal world.env = .ok console) :
    run world options = conclude console
      ((Config.load world.depths world.env world.files options.config).events
        ++ config.chat.warnings)
      (evaluation world options config document) := by
  rw [run_loaded ((contains_knownFormats _).mpr h.known) hconsole h.loaded,
    runWith_read _ (readDocument_eq_ok_iff.mpr h.decoded)]

theorem run_raised (h : Asks world options config document prompt) {raised : Raised}
    (hcall : (answerTo world config prompt).outcome = .error raised) :
    ∃ events, run world options = ended raised events [⟨prompt, config.chat⟩] := by
  obtain ⟨console, hconsole⟩ := h.shown
  rw [h.run_eq hconsole, evaluation, Evaluation.run_raised h.rendered hcall, ← answerTo,
    answerTo_sent]
  exact ⟨_, rfl⟩

theorem run_answered (h : Asks world options config document prompt)
    (hconsole : world.terminal world.env = .ok console) {response : ChatResponse}
    (hcall : (answerTo world config prompt).outcome = .ok response) {durationMs : Int}
    (hspan : Evaluation.span (client world config) prompt world.clock = .ok durationMs) :
    ∃ events, run world options =
      finished console (Evaluation.verdict response.content == .supported) events
        [⟨prompt, config.chat⟩] := by
  rw [h.run_eq hconsole, evaluation, Evaluation.run_answered h.rendered hcall hspan, ← answerTo,
    answerTo_sent]
  exact ⟨_, rfl⟩

end Asks

/-- A check that asks nothing ends with a message, unless it cannot start. -/
theorem run_of_asksNothing {world : World} {options : Options} (h : AsksNothing world options) :
    (∃ message events, run world options = failed message events []) ∨
      CannotStart world options := by
  cases hformat : knownFormats.contains options.logFormat with
  | false => exact .inl ⟨_, _, run_unknownFormat hformat⟩
  | true =>
      have hknown := (contains_knownFormats _).mp hformat
      cases hconsole : world.terminal world.env with
      | error reason => exact .inr ⟨hknown, .inl ⟨reason, hconsole⟩⟩
      | ok console =>
          cases hload :
            (Config.load world.depths world.env world.files options.config).outcome with
          | error raised =>
              have hrun := run_notLoaded hformat hconsole hload
              rcases Config.load_error hload with hraised | ⟨hunreadable, _⟩
              · obtain ⟨failure, rfl⟩ := hraised.isFailure
                exact .inl ⟨_, _, hrun⟩
              · exact .inr ⟨hknown, .inr hunreadable⟩
          | ok config =>
              have hrun := run_loaded hformat hconsole hload
              cases hread : readDocument world.files options.document with
              | error message => exact .inl ⟨_, _, hrun.trans (runWith_unread _ hread)⟩
              | ok document =>
                  rw [runWith_read _ hread] at hrun
                  cases hrender : Template.render (templateOf options config)
                    (Evaluation.bindings document options.claim) with
                  | ok prompt =>
                      have hdecoded := readDocument_eq_ok_iff.mp hread
                      exact absurd ⟨⟨hknown, hload, hdecoded, hrender⟩, console, hconsole⟩
                        (h config document prompt)
                  | error missing =>
                      rw [evaluation, Evaluation.run_notRendered hrender] at hrun
                      exact .inl ⟨_, _, hrun⟩

/-- A check that cannot start asks nothing and ends with something that it does not report. -/
theorem CannotStart.run {world : World} {options : Options} (h : CannotStart world options) :
    AsksNothing world options ∧ ∃ raised events, ¬ raised.Reported ∧
      Check.run world options = ended raised events [] := by
  obtain ⟨hknown, hstart⟩ := h
  have hformat := (contains_knownFormats _).mpr hknown
  cases hconsole : world.terminal world.env with
  | error reason =>
      refine ⟨?_, _, _, id, run_noConsole hformat hconsole⟩
      intro config document prompt hasks
      obtain ⟨console, hshown⟩ := hasks.shown
      cases hconsole.symm.trans hshown
  | ok console =>
      have hunreadable := hstart.resolve_left fun ⟨_, h⟩ => nomatch hconsole.symm.trans h
      obtain ⟨raised, hload, hraised⟩ := hunreadable.load_error world.env
      refine ⟨?_, raised, _, hraised.not_reported, run_notLoaded hformat hconsole hload⟩
      intro config document prompt hasks
      cases hload.symm.trans hasks.loaded

end ClaimCheck.Check

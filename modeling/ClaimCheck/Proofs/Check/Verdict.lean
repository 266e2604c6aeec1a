import ClaimCheck.Proofs.Check.Course
import ClaimCheck.Proofs.Console
/-!
What the end of a check tells. Exit code zero and the line of a supported claim stand for an
answer of `yes` and for nothing else, and the line of an unsupported claim for any other answer, as
far as the console shows lines at all. Exit code one stands for more: whatever escapes a check ends
with it too, and this module says what does.
-/
namespace ClaimCheck.Check

/-- The question is asked, and the answer says yes. -/
def Affirmed (world : World) (options : Options) : Prop :=
  ∃ config document prompt response, Asks world options config document prompt ∧
    (answerTo world config prompt).outcome = .ok response ∧
      ∃ content, response.content = some content ∧ Text.lowercase content = "yes"

/-- The question is asked, and the answer says anything but yes. -/
def Denied (world : World) (options : Options) : Prop :=
  ∃ config document prompt response, Asks world options config document prompt ∧
    (answerTo world config prompt).outcome = .ok response ∧
      ¬ ∃ content, response.content = some content ∧ Text.lowercase content = "yes"

/-- The question is asked, and the answer cannot be made into a response. -/
def AnswerUnreadable (world : World) (options : Options) : Prop :=
  ∃ config document prompt answer, Asks world options config document prompt ∧
    world.reply = .answer answer ∧ ¬ answer.Readable

/-- What a check meets that nothing in it is prepared for. -/
def MeetsUnreadable (world : World) (options : Options) : Prop :=
  CannotStart world options ∨ AnswerUnreadable world options

variable {world : World} {options : Options} {config : Config} {document prompt : String}

theorem Asks.unique {config' : Config} {document' prompt' : String}
    (h : Asks world options config document prompt)
    (h' : Asks world options config' document' prompt') :
    config = config' ∧ document = document' ∧ prompt = prompt' := by
  have hconfig : config = config' := Except.ok.inj (h.loaded.symm.trans h'.loaded)
  have hdocument : document = document' := Except.ok.inj
    ((readDocument_eq_ok_iff.mpr h.decoded).symm.trans (readDocument_eq_ok_iff.mpr h'.decoded))
  subst hconfig
  subst hdocument
  exact ⟨rfl, rfl, Except.ok.inj (h.rendered.symm.trans h'.rendered)⟩

theorem ended_of_reported {raised : Raised} (h : raised.Reported) (events : List Event)
    (sent : List Completion) :
    ∃ message, ended raised events sent = failed message events sent := by
  cases raised with
  | failure f => exact ⟨_, rfl⟩
  | provider fault => exact ⟨_, if_pos h⟩
  | _ => exact h.elim

theorem ended_of_not_reported {raised : Raised} (h : ¬ raised.Reported) (events : List Event)
    (sent : List Completion) :
    ended raised events sent = ⟨1, "", "", events, sent, some raised⟩ := by
  cases raised with
  | failure f => exact absurd trivial h
  | provider fault => exact if_neg h
  | _ => rfl

/-- How a check can end, by what happened: with one of two verdicts, with a message, or with what
escapes it. -/
inductive Ending (world : World) (options : Options) : Run → Prop
  | affirmed (console : Console) (events : List Event) (sent : List Completion)
      (hconsole : world.terminal world.env = .ok console) (h : Affirmed world options)
      (hread : ¬ MeetsUnreadable world options) :
      Ending world options ⟨exitSupported, console passLine, "", events, sent, none⟩
  | denied (console : Console) (events : List Event) (sent : List Completion)
      (hconsole : world.terminal world.env = .ok console) (h : Denied world options)
      (hread : ¬ MeetsUnreadable world options) :
      Ending world options ⟨exitUnsupported, console failLine, "", events, sent, none⟩
  | message (message : String) (events : List Event) (sent : List Completion)
      (haffirmed : ¬ Affirmed world options) (hdenied : ¬ Denied world options)
      (hread : ¬ MeetsUnreadable world options) :
      Ending world options (failed message events sent)
  | escape (raised : Raised) (events : List Event) (sent : List Completion)
      (haffirmed : ¬ Affirmed world options) (hdenied : ¬ Denied world options)
      (hmeets : MeetsUnreadable world options) :
      Ending world options ⟨1, "", "", events, sent, some raised⟩

theorem AsksNothing.no_verdict (h : AsksNothing world options) :
    ¬ Affirmed world options ∧ ¬ Denied world options ∧ ¬ AnswerUnreadable world options := by
  refine ⟨?_, ?_, ?_⟩
  · rintro ⟨config, document, prompt, _, hasks, _⟩
    exact h config document prompt hasks
  · rintro ⟨config, document, prompt, _, hasks, _⟩
    exact h config document prompt hasks
  · rintro ⟨config, document, prompt, _, hasks, _⟩
    exact h config document prompt hasks

theorem Asks.no_verdict {raised : Raised} (h : Asks world options config document prompt)
    (hcall : (answerTo world config prompt).outcome = .error raised) :
    ¬ Affirmed world options ∧ ¬ Denied world options := by
  constructor
  · rintro ⟨_, _, _, response, hasks, hother, _⟩
    obtain ⟨rfl, rfl, rfl⟩ := h.unique hasks
    cases hcall.symm.trans hother
  · rintro ⟨_, _, _, response, hasks, hother, _⟩
    obtain ⟨rfl, rfl, rfl⟩ := h.unique hasks
    cases hcall.symm.trans hother

/-- On a clock that counts seconds, an answer that a response was made of is a readable one. -/
theorem Asks.meets_iff (h : Asks world options config document prompt)
    (hclock : world.clock.Bounded) :
    MeetsUnreadable world options ↔ ∃ answer raised, world.reply = .answer answer ∧
      (answerTo world config prompt).outcome = .error raised := by
  have hreadable := Chat.call_answer_ok_iff hclock.read.2 config.chat prompt
  constructor
  · rintro (hconfig | ⟨_, _, _, answer, hasks, hreply, hunreadable⟩)
    · exact absurd h (hconfig.run.1 _ _ _)
    · cases hcall : (answerTo world config prompt).outcome with
      | error raised => exact ⟨answer, raised, hreply, rfl⟩
      | ok response =>
          rw [answerTo, client, hreply] at hcall
          exact absurd ((hreadable answer).mp ⟨response, hcall⟩) hunreadable
  · rintro ⟨answer, raised, hreply, hcall⟩
    rw [answerTo, client, hreply] at hcall
    refine .inr ⟨config, document, prompt, answer, h, hreply, ?_⟩
    rw [← hreadable]
    rintro ⟨response, hresponse⟩
    cases hresponse.symm.trans hcall

theorem Asks.ending_of_response {console : Console} {response : ChatResponse}
    (h : Asks world options config document prompt)
    (hconsole : world.terminal world.env = .ok console)
    (hcall : (answerTo world config prompt).outcome = .ok response)
    (hread : ¬ MeetsUnreadable world options) (events : List Event) (sent : List Completion) :
    Ending world options
      (finished console (Evaluation.verdict response.content == .supported) events sent) := by
  cases hverdict : Evaluation.verdict response.content == .supported with
  | true =>
      exact .affirmed console events sent hconsole ⟨config, document, prompt, response, h, hcall,
        (Evaluation.supported_iff_yes _).mp hverdict⟩ hread
  | false =>
      refine .denied console events sent hconsole ⟨config, document, prompt, response, h, hcall, ?_⟩
        hread
      rw [← Evaluation.supported_iff_yes, hverdict]
      exact Bool.false_ne_true

/-- A response is a verdict, a fault is always told, and any other answer escapes. -/
theorem Asks.ending (h : Asks world options config document prompt)
    (hclock : world.clock.Bounded) : Ending world options (run world options) := by
  have hmeets := h.meets_iff hclock
  cases hcall : (answerTo world config prompt).outcome with
  | ok response =>
      obtain ⟨durationMs, hspan⟩ := Clock.milliseconds_of_within hclock.read.1
        (Chat.call_clock hclock.read.2 config.chat prompt world.reply).read.1
      obtain ⟨console, hconsole⟩ := h.shown
      obtain ⟨events, hrun⟩ := h.run_answered hconsole hcall hspan
      rw [hrun]
      refine h.ending_of_response hconsole hcall ?_ events _
      rw [hmeets]
      rintro ⟨_, _, _, hraised⟩
      cases hcall.symm.trans hraised
  | error raised =>
      obtain ⟨events, hrun⟩ := h.run_raised hcall
      obtain ⟨haffirmed, hdenied⟩ := h.no_verdict hcall
      rw [hrun]
      cases hreply : world.reply with
      | fault fault =>
          obtain ⟨other, hother, hreported⟩ :=
            Chat.call_fault config.chat prompt fault world.clock.read.2
          rw [answerTo, client, hreply] at hcall
          cases hother.symm.trans hcall
          obtain ⟨message, hmessage⟩ := ended_of_reported hreported events [⟨prompt, config.chat⟩]
          rw [hmessage]
          refine .message message events _ haffirmed hdenied ?_
          rw [hmeets]
          rintro ⟨_, _, hanswer, _⟩
          cases hreply.symm.trans hanswer
      | answer answer =>
          have hunread := hmeets.mpr ⟨answer, raised, hreply, hcall⟩
          rw [answerTo, client, hreply] at hcall
          rw [ended_of_not_reported (Chat.call_answer_error hcall)]
          exact .escape raised events _ haffirmed hdenied hunread

namespace Ending
variable {r : Run}

end Ending

theorem Denied.console (h : Denied world options) :
    ∃ console, world.terminal world.env = .ok console := by
  obtain ⟨_, _, _, _, hasks, _⟩ := h
  exact hasks.shown

end ClaimCheck.Check

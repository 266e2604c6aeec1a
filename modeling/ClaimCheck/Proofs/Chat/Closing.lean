import ClaimCheck.Chat.Client
import ClaimCheck.Proofs.Chat.Fault
import ClaimCheck.Proofs.Pairing
/-!
How the start of a completion is answered in the log. A response goes with an event of
completion, a fault with one of failure and an interrupt with none. An answer that no response
can be made of has no event of failure: it ends its call without a second event, or, where only
its content cannot be read, after one of completion.
-/
namespace ClaimCheck

def Raised.IsInterrupt : Raised → Prop
  | .provider fault => fault.kind.IsA .interrupt
  | _ => False

theorem Raised.not_interrupt_of_not_reported {raised : Raised} (h : ¬ raised.Reported) :
    ¬ raised.IsInterrupt := by
  cases raised with
  | provider fault => exact fun hinterrupt => h ((FaultKind.isInterrupt_iff _).mpr hinterrupt)
  | _ => exact id

namespace Chat

/-- A call whose events are the ones that its end calls for: it started, and then it was completed
if it gave a response, and failed if it raised anything but an interrupt. -/
inductive Closed (model : ChatModel) (run : CallRun) : Prop
  | completed (response : ChatResponse) (durationMs total : Int) (h : run.outcome = .ok response)
      (hevents : run.events = [.completionStarted model.model,
        .completionCompleted model.model durationMs total])
  | failed (raised : Raised) (reason : String) (h : run.outcome = .error raised)
      (hraised : ¬ raised.IsInterrupt)
      (hevents : run.events = [.completionStarted model.model,
        .completionFailed model.model reason])
  | interrupted (raised : Raised) (h : run.outcome = .error raised) (hraised : raised.IsInterrupt)
      (hevents : run.events = [.completionStarted model.model])

section Call
variable {model : ChatModel} {answer : Answer} {clock : Clock}

theorem call_fault_closed (model : ChatModel) (text : String) (fault : ProviderFault)
    (clock : Clock) : Closed model (call model text (.fault fault) clock) := by
  by_cases h : fault.kind.IsA .interrupt
  · rw [call_fault_interrupted h]
    exact .interrupted _ rfl h rfl
  · rw [call_fault_failed h]
    exact .failed _ fault.message rfl id rfl

/-- Once the metadata of an answer is known the completion counts as completed, whatever its
content turns out to be. -/
theorem call_of_described (hclock : clock.Bounded) (model : ChatModel) (text : String)
    (h : answer.Described) :
    ∃ metadata durationMs,
      (call model text (.answer answer) clock).outcome = responseOf answer metadata ∧
      (call model text (.answer answer) clock).events = [.completionStarted model.model,
        .completionCompleted model.model durationMs metadata.usage.total] := by
  obtain ⟨metadata, hmetadata⟩ := metadataOf_ok_iff.mpr h
  obtain ⟨durationMs, hduration⟩ :=
    Clock.milliseconds_of_within hclock.read.1 hclock.read.2.read.1
  have hcompletion : completion model answer clock.read.1 clock.read.2.read.1 =
      .ok (durationMs, metadata) := by
    rw [completion, hduration, hmetadata]
    rfl
  refine ⟨metadata, durationMs, ?_, ?_⟩
  · simp only [call, hcompletion]
  · simp only [call, hcompletion]

theorem call_of_not_described (h : ¬ answer.Described) (model : ChatModel) (text : String)
    (clock : Clock) :
    ∃ raised, ¬ raised.Reported ∧
      (call model text (.answer answer) clock).outcome = .error raised ∧
      (call model text (.answer answer) clock).events = [.completionStarted model.model] := by
  cases hcompletion : completion model answer clock.read.1 clock.read.2.read.1 with
  | error raised =>
      refine ⟨raised, completion_error hcompletion, ?_, ?_⟩
      · simp only [call, hcompletion]
      · simp only [call, hcompletion]
  | ok measured =>
      rw [completion, bind_eq_ok_iff] at hcompletion
      obtain ⟨durationMs, _, hrest⟩ := hcompletion
      obtain ⟨metadata, hmetadata, _⟩ := bind_eq_ok_iff.mp hrest
      exact absurd (metadataOf_ok_iff.mp ⟨metadata, hmetadata⟩) h

/-- How a call that its answer lets down is left in the log. -/
inductive LeftOpen (model : ChatModel) (answer : Answer) (run : CallRun) : Prop
  | content (raised : Raised) (durationMs total : Int) (h : run.outcome = .error raised)
      (hraised : ¬ raised.IsInterrupt) (hdescribed : answer.Described)
      (hevents : run.events = [.completionStarted model.model,
        .completionCompleted model.model durationMs total])
  | metadata (raised : Raised) (h : run.outcome = .error raised)
      (hraised : ¬ raised.IsInterrupt) (hdescribed : ¬ answer.Described)
      (hevents : run.events = [.completionStarted model.model])

theorem LeftOpen.not_closed {run : CallRun} (h : LeftOpen model answer run) :
    ¬ Closed model run := by
  intro hclosed
  cases h with
  | content raised durationMs total h hraised _ hevents =>
      cases hclosed with
      | completed response _ _ hok => cases hok.symm.trans h
      | failed _ _ _ _ hfailed => cases hevents.symm.trans hfailed
      | interrupted _ _ _ hstarted => cases hevents.symm.trans hstarted
  | metadata raised h hraised _ hevents =>
      cases hclosed with
      | completed response _ _ hok => cases hok.symm.trans h
      | failed _ _ _ _ hfailed => cases hevents.symm.trans hfailed
      | interrupted other hother hinterrupt =>
          cases hother.symm.trans h
          exact hraised hinterrupt

/-- An answer closes its call if a response can be made of it, and leaves it open otherwise. -/
theorem call_answer_closed_or_open (hclock : clock.Bounded) (model : ChatModel) (text : String)
    (answer : Answer) :
    (answer.Readable ∧ Closed model (call model text (.answer answer) clock)) ∨
      (¬ answer.Readable ∧ LeftOpen model answer (call model text (.answer answer) clock)) := by
  by_cases hdescribed : answer.Described
  · obtain ⟨metadata, durationMs, houtcome, hevents⟩ :=
      call_of_described hclock model text hdescribed
    have hreadable := call_answer_ok_iff hclock model text answer
    -- the completion has been reported by now, before the content is read
    cases hresponse : responseOf answer metadata with
    | ok response =>
        rw [hresponse] at houtcome
        exact .inl ⟨hreadable.mp ⟨response, houtcome⟩, .completed response _ _ houtcome hevents⟩
    | error raised =>
        rw [hresponse] at houtcome
        refine .inr ⟨fun hread => ?_, .content raised _ _ houtcome
          (Raised.not_interrupt_of_not_reported (responseOf_error hresponse)) hdescribed hevents⟩
        obtain ⟨response, hok⟩ := hreadable.mpr hread
        cases hok.symm.trans houtcome
  · obtain ⟨raised, hraised, houtcome, hevents⟩ :=
      call_of_not_described hdescribed model text clock
    exact .inr ⟨fun hread => hdescribed hread.toDescribed, .metadata raised houtcome
      (Raised.not_interrupt_of_not_reported hraised) hdescribed hevents⟩

end Call

/-- What holds of every call on a clock that counts seconds holds of each of a list of calls. -/
theorem forall₂_calls {model : ChatModel} {related : Exchange → CallRun → Prop}
    (h : ∀ (exchange : Exchange) (clock : Clock), clock.Bounded →
      related exchange (call model exchange.text exchange.reply clock))
    (exchanges : List Exchange) {clock : Clock} (hclock : clock.Bounded) :
    List.Forall₂ related exchanges (calls model exchanges clock) := by
  induction exchanges generalizing clock with
  | nil => exact .nil
  | cons exchange rest ih =>
      exact .cons (h exchange clock hclock) (ih (call_clock hclock model exchange.text _))

/-- A reply that a response can be made of, or that says itself that there is none. -/
def Reply.IsSound (reply : Reply) : Prop :=
  ∀ answer, reply = .answer answer → answer.Readable

theorem call_closed_iff {clock : Clock} (hclock : clock.Bounded) (model : ChatModel)
    (exchange : Exchange) :
    Closed model (call model exchange.text exchange.reply clock) ↔
      Reply.IsSound exchange.reply := by
  cases hreply : exchange.reply with
  | fault fault => exact ⟨fun _ => nofun, fun _ => call_fault_closed model _ fault clock⟩
  | answer answer =>
      rcases call_answer_closed_or_open hclock model exchange.text answer with
        ⟨hread, hclosed⟩ | ⟨hunread, hopen⟩
      · exact ⟨fun _ _ h => by cases h; exact hread, fun _ => hclosed⟩
      · exact ⟨fun h => absurd h hopen.not_closed, fun h => absurd (h answer rfl) hunread⟩

/-- The calls of a list are all closed by the events that their ends call for exactly if a
response can be made of each answer. A call that is not closed so has raised something that is
no interrupt, and has no event of failure for it. -/
theorem calls_closed_iff {clock : Clock} (hclock : clock.Bounded) (model : ChatModel)
    (exchanges : List Exchange) :
    ((∀ run ∈ calls model exchanges clock, Closed model run) ↔
        ∀ exchange ∈ exchanges, Reply.IsSound exchange.reply) ∧
      List.Forall₂ (fun exchange run => Closed model run ∨ ∃ answer,
          exchange.reply = .answer answer ∧ ¬ answer.Readable ∧ LeftOpen model answer run)
        exchanges (calls model exchanges clock) := by
  constructor
  · exact forall_mem_iff_of_forall₂
      (forall₂_calls (fun exchange clock h => call_closed_iff h model exchange) exchanges hclock)
  · refine forall₂_calls (fun exchange clock h => ?_) exchanges hclock
    cases hreply : exchange.reply with
    | fault fault => exact .inl (call_fault_closed model _ fault clock)
    | answer answer =>
        rcases call_answer_closed_or_open h model exchange.text answer with
          ⟨_, hclosed⟩ | ⟨hunread, hopen⟩
        · exact .inl hclosed
        · exact .inr ⟨answer, rfl, hunread, hopen⟩

/-- An answer that says yes, one without a choice and one whose usage is no count. -/
def threeAnswers : List Exchange :=
  [⟨"p", .answer ⟨.null, .null, none, none, none, some (.text "yes")⟩⟩,
    ⟨"p", .answer ⟨.null, .null, none, none, none, none⟩⟩,
    ⟨"p", .answer ⟨.null, .null, some ⟨.text "many", .null⟩, none, none, some (.text "yes")⟩⟩]

theorem answers_without_choice_are_left_open :
    Clock.Bounded [] ∧
      ¬ ∀ run ∈ calls ⟨"m", .zero, none, none⟩ threeAnswers [],
        Closed ⟨"m", .zero, none, none⟩ run := by
  have hclock : Clock.Bounded [] := nofun
  obtain ⟨hclosed, _⟩ := calls_closed_iff hclock ⟨"m", .zero, none, none⟩ threeAnswers
  refine ⟨hclock, fun h => ?_⟩
  obtain ⟨value, hvalue, _⟩ := (hclosed.mp h _ (List.mem_cons_of_mem _ List.mem_cons_self) _
    rfl).content
  cases hvalue

end Chat
end ClaimCheck

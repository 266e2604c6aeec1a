import ClaimCheck.Proofs.Evaluation.Configured
import ClaimCheck.Proofs.Template.Substitution
import ClaimCheck.Proofs.Text.FinalSigma
/-!
The course of evaluations. Each of them announces itself; then it is refused for the sake of its
template before there is a client, or one client is asked once, and what this one raises comes out
as it is, or its answer becomes a verdict. Of a list of evaluations each takes its own course: all
that it has of those before is the clock that they leave.
-/
namespace ClaimCheck.Evaluation
open Template (Substituted)

/-- The texts of all documents that have one, on lines of their own. -/
def supportingText (request : EvaluationRequest) : String :=
  "\n".intercalate (request.documents.filterMap (·.content))

def announced (request : EvaluationRequest) : Event :=
  .factCheckStarted request.claim.length (supportingText request).length

/-- The small letters of an answer; no answer has none. -/
def smallLetters (content : Option String) : List Char :=
  Text.lowerInContext (content.getD "").toList

/-- What an answer comes to: whether the claim passes, and the events that tell so. -/
inductive Told (content : Option String) (durationMs : Int) : Bool → List Event → Prop
  | yes (h : smallLetters content = "yes".toList) :
      Told content durationMs true [.factCheckCompleted true durationMs]
  | no (h : smallLetters content = "no".toList) :
      Told content durationMs false [.factCheckCompleted false durationMs]
  | unrecognised (hyes : smallLetters content ≠ "yes".toList)
      (hno : smallLetters content ≠ "no".toList) :
      Told content durationMs false
        [.verdictUnrecognised content, .factCheckCompleted false durationMs]

/-- The template of an evaluation with the supporting text and the claim put in. -/
def Asks (template : String) (request : EvaluationRequest) (prompt : String) : Prop :=
  Substituted (bindings (supportingText request) request.claim) template.toList prompt.toList

/-- How an evaluation goes that starts at a clock. -/
inductive Course (template : String) (task : Task) (clock : Clock) : Run → Prop
  | refused (names : List String) (hsome : names ≠ []) (hascending : names.Pairwise (· < ·))
      (hnames : ∀ name, name ∈ names ↔ IsOther template name) :
      Course template task clock
        ⟨.error (.failure (.promptNotRendered names)), [announced task.request], [], 0, [], clock⟩
  | raised (prompt : String) (raised : Raised) (hprompt : Asks template task.request prompt)
      (hcall : (task.client prompt clock.read.2).outcome = .error raised) :
      Course template task clock
        ⟨.error raised, announced task.request :: (task.client prompt clock.read.2).events,
          [prompt], 1, (task.client prompt clock.read.2).sent,
          (task.client prompt clock.read.2).clock⟩
  | answered (prompt : String) (response : ChatResponse) (durationMs : Int) (passed : Bool)
      (told : List Event) (hprompt : Asks template task.request prompt)
      (hcall : (task.client prompt clock.read.2).outcome = .ok response)
      (hspan : span task.client prompt clock = .ok durationMs)
      (htold : Told response.content durationMs passed told) :
      Course template task clock
        ⟨.ok ⟨passed, .zero, "", []⟩,
          announced task.request :: (task.client prompt clock.read.2).events ++ told, [prompt], 1,
          (task.client prompt clock.read.2).sent,
          (task.client prompt clock.read.2).clock.read.2⟩

/-- An evaluation that has an answer, while no whole number of milliseconds lies between the
readings before and after it. -/
def Unmeasured (template : String) (task : Task) (clock : Clock) (r : Run) : Prop :=
  ∃ prompt response flaw, Asks template task.request prompt ∧
    (task.client prompt clock.read.2).outcome = .ok response ∧
    span task.client prompt clock = .error flaw ∧
    r = ⟨.error (.unmeasured flaw),
      announced task.request :: (task.client prompt clock.read.2).events, [prompt], 1,
      (task.client prompt clock.read.2).sent, (task.client prompt clock.read.2).clock.read.2⟩

theorem told_verdictEvents (content : Option String) (durationMs : Int) :
    Told content durationMs (verdict content == .supported) (verdictEvents content durationMs) := by
  have hyes : smallLetters content = "yes".toList ↔ Text.lowercase (content.getD "") = "yes" :=
    Text.lowerInContext_eq_iff (by decide) (by decide)
  have hno : smallLetters content = "no".toList ↔ Text.lowercase (content.getD "") = "no" :=
    Text.lowerInContext_eq_iff (by decide) (by decide)
  unfold verdictEvents verdict
  by_cases haffirms : Text.lowercase (content.getD "") = "yes"
  · simp only [haffirms, if_true]
    exact .yes (hyes.mpr haffirms)
  · by_cases hdenies : Text.lowercase (content.getD "") = "no"
    · simp only [hdenies, if_true]
      exact .no (hno.mpr hdenies)
    · simp only [haffirms, hdenies, if_false, if_true]
      exact .unrecognised (mt hyes.mp haffirms) (mt hno.mp hdenies)

/-- A client that takes the readings of a clock that counts seconds, and leaves such a clock. -/
def KeepsTime (client : Client) : Prop :=
  ∀ prompt clock, Clock.Bounded clock → (client prompt clock).clock.Bounded

section Run
variable {template : String} {task : Task} {clock : Clock}

theorem run_course (template : String) (task : Task) (clock : Clock) :
    Course template task clock (run template task.client task.request clock) ∨
      Unmeasured template task clock (run template task.client task.request clock) := by
  cases hrender : Template.render template
      (bindings task.request.support task.request.claim) with
  | error names =>
      obtain ⟨hnames, hsome⟩ := Template.render_eq_error_iff.mp hrender
      subst hnames
      rw [run_notRendered hrender]
      exact .inl (.refused _ hsome (Template.missing_pairwise _ _)
        fun name => mem_missing_bindings_iff)
  | ok prompt =>
      have hprompt : Asks template task.request prompt :=
        Template.render_eq_ok_iff_substituted.mp hrender
      cases hcall : (task.client prompt clock.read.2).outcome with
      | error raised =>
          rw [run_raised hrender hcall]
          exact .inl (.raised prompt raised hprompt hcall)
      | ok response =>
          cases hspan : span task.client prompt clock with
          | error flaw =>
              rw [run_unmeasured hrender hcall hspan]
              exact .inr ⟨prompt, response, flaw, hprompt, hcall, hspan, rfl⟩
          | ok durationMs =>
              rw [run_answered hrender hcall hspan]
              exact .inl (.answered prompt response durationMs _ _ hprompt hcall hspan
                (told_verdictEvents response.content durationMs))

/-- On a clock that counts seconds every answer is measured. -/
theorem span_of_keepsTime (hkeeps : KeepsTime task.client) (hclock : clock.Bounded)
    (prompt : String) : ∃ durationMs, span task.client prompt clock = .ok durationMs :=
  Clock.milliseconds_of_within hclock.read.1 (hkeeps prompt _ hclock.read.2).read.1

theorem run_course_of_keepsTime (hkeeps : KeepsTime task.client) (hclock : clock.Bounded) :
    Course template task clock (run template task.client task.request clock) := by
  rcases run_course template task clock with hcourse | ⟨prompt, _, flaw, _, _, hspan, _⟩
  · exact hcourse
  · obtain ⟨durationMs, hmeasured⟩ := span_of_keepsTime hkeeps hclock prompt
    cases hspan.symm.trans hmeasured

theorem Course.clock_bounded {r : Run} (h : Course template task clock r)
    (hkeeps : KeepsTime task.client) (hclock : clock.Bounded) : r.clock.Bounded := by
  cases h with
  | refused => exact hclock
  | raised prompt => exact hkeeps prompt _ hclock.read.2
  | answered prompt => exact (hkeeps prompt _ hclock.read.2).read.2

end Run

section Session
variable {template : String}

/-- The clock that evaluations leave. -/
def left (template : String) : List Task → Clock → Clock
  | [], clock => clock
  | task :: rest, clock => left template rest (run template task.client task.request clock).clock

theorem runs_append (before after : List Task) (clock : Clock) :
    runs template (before ++ after) clock =
      runs template before clock ++ runs template after (left template before clock) := by
  induction before generalizing clock with
  | nil => rfl
  | cons task rest ih =>
      simp only [List.cons_append, runs, left]
      rw [ih]

theorem length_runs (tasks : List Task) (clock : Clock) :
    (runs template tasks clock).length = tasks.length := by
  induction tasks generalizing clock with
  | nil => rfl
  | cons task rest ih => exact congrArg (· + 1) (ih _)

theorem left_bounded {tasks : List Task} (hkeeps : ∀ task ∈ tasks, KeepsTime task.client)
    {clock : Clock} (hclock : clock.Bounded) : (left template tasks clock).Bounded := by
  induction tasks generalizing clock with
  | nil => exact hclock
  | cons task rest ih =>
      obtain ⟨htask, hrest⟩ := List.forall_mem_cons.mp hkeeps
      exact ih hrest ((run_course_of_keepsTime htask hclock).clock_bounded htask hclock)

end Session

/-- Each evaluation of a list is the one that its own request and client make at the clock which
those before it leave. On a clock that counts seconds it takes its course: refused, ended by what
its client raises, or answered. On any other clock one thing more can happen: that the time of an
answer is no number of milliseconds. -/
theorem evaluations_take_their_course (template : String) (tasks : List Task) (clock : Clock) :
    (runs template tasks clock).length = tasks.length ∧
      ∀ before task after, tasks = before ++ task :: after → ∃ start r,
        start = left template before clock ∧
          r = run template task.client task.request start ∧
          runs template tasks clock =
            runs template before clock ++ r :: runs template after r.clock ∧
          (Course template task start r ∨ Unmeasured template task start r) ∧
          (clock.Bounded → (∀ task ∈ tasks, KeepsTime task.client) →
            Course template task start r) := by
  refine ⟨length_runs tasks clock, ?_⟩
  rintro before task after rfl
  refine ⟨_, _, rfl, rfl, runs_append before (task :: after) clock, run_course _ _ _, ?_⟩
  intro hclock hkeeps
  rw [List.forall_mem_append, List.forall_mem_cons] at hkeeps
  exact run_course_of_keepsTime hkeeps.2.1 (left_bounded hkeeps.1 hclock)

theorem keepsTime_chatClient (model : ChatModel) (reply : Reply) :
    KeepsTime (chatClient model reply) := by
  intro prompt clock hclock
  exact Chat.call_clock hclock model prompt reply

/-- Two documents around one without a text. -/
def threeDocuments : EvaluationRequest :=
  ⟨"", [⟨some "\x7bclaim\x7d", []⟩, ⟨none, []⟩, ⟨some "d", []⟩], "c"⟩

/-- A client that answers with a content. -/
def answering (content : Value) : Client :=
  chatClient ⟨"m", .zero, none, none⟩ (.answer ⟨.null, .null, none, none, none, some content⟩)

/-- An answer that says yes, a fault, and an answer without a content. -/
def threeTasks : List Task :=
  [⟨threeDocuments, answering (.text "YES")⟩, ⟨threeDocuments, silentClient⟩,
    ⟨threeDocuments, answering .null⟩]

def claimAndDocument : String := "\x7bclaim\x7d|\x7bdocument\x7d"

theorem silence_is_no_verdict :
    Clock.Bounded [] ∧ (∀ task ∈ threeTasks, KeepsTime task.client) ∧
      ∃ r, Course claimAndDocument ⟨threeDocuments, answering .null⟩ [] r ∧
        (runs claimAndDocument threeTasks [])[2]? = some r ∧
        r.prompts = ["c|\x7bclaim\x7d\nd"] := by
  have hclock : Clock.Bounded [] := nofun
  have hkeeps : ∀ task ∈ threeTasks, KeepsTime task.client := by
    simp only [threeTasks, List.forall_mem_cons]
    exact ⟨keepsTime_chatClient _ _, keepsTime_chatClient _ _, keepsTime_chatClient _ _, nofun⟩
  obtain ⟨_, hruns⟩ := evaluations_take_their_course claimAndDocument threeTasks []
  obtain ⟨start, r, hstart, hr, hall, _, hcourse⟩ :=
    hruns (threeTasks.take 2) ⟨threeDocuments, answering .null⟩ [] rfl
  have hleft : start = [] := by rw [hstart]; decide +kernel
  subst hleft
  refine ⟨hclock, hkeeps, r, hcourse hclock hkeeps, ?_, ?_⟩
  · rw [hall]
    rfl
  · rw [hr]
    decide +kernel

/-- A client that says yes without a look at the clock. -/
def yesAtOnce : Client := fun _ clock => ⟨.ok ⟨some "yes", .empty⟩, [], [], clock⟩

/-- Two readings of a clock with more milliseconds between them than the largest finite number. -/
def farReadings : Clock := [.zero, .ofInt (10 ^ 306)]

/-- The answer is lost with the time that it took. -/
theorem yes_lost_between_farReadings :
    (run claimAndDocument yesAtOnce threeDocuments farReadings).outcome =
        .error (.unmeasured .endless) ∧
      ¬ Course claimAndDocument ⟨threeDocuments, yesAtOnce⟩ farReadings
        (run claimAndDocument yesAtOnce threeDocuments farReadings) := by
  have hrender : Template.render claimAndDocument
      (bindings threeDocuments.support threeDocuments.claim) = .ok "c|\x7bclaim\x7d\nd" := by
    decide +kernel
  have hspan : span yesAtOnce "c|\x7bclaim\x7d\nd" farReadings = .error .endless := by
    decide +kernel
  rw [run_unmeasured hrender rfl hspan]
  refine ⟨rfl, ?_⟩
  intro hcourse
  cases hcourse with
  | raised prompt raised hprompt hcall => cases hcall

end ClaimCheck.Evaluation

import ClaimCheck.Proofs.Chat.Metadata
import ClaimCheck.Proofs.Clock
import ClaimCheck.Proofs.Config.Conform
/-!
How a call ends. One completion goes out whatever the reply is. A fault ends the call as the
fault says, and an answer becomes a response exactly when each of its parts can be read; an
answer that cannot is never reported as a failure.
-/
namespace ClaimCheck

/-- A value that counts as absent, or that a reader takes. -/
def Value.BlankOr {α : Type} (read : Reader α) (value : Value) : Prop :=
  value.isBlank = true ∨ ∃ a, read value = .ok a

/-- What metadata can be made of: names that are texts, counts that are integers, and headers,
if any are looked for, that are a mapping. -/
structure Answer.Described (answer : Answer) : Prop where
  id : answer.id.BlankOr Reader.text
  model : answer.model.BlankOr Reader.text
  usage : ∀ reported, answer.usage = some reported →
    reported.prompt.BlankOr Reader.integer ∧ reported.completion.BlankOr Reader.integer
  headers : ∀ entries, answer.hiddenParams = some (.map entries) →
    ∃ limit, RateLimit.ofHeaderValue? (Answer.headersIn entries) = some limit

/-- An answer that a response can be made of: besides its metadata there is a first choice
whose content is a text or null. -/
structure Answer.Readable (answer : Answer) : Prop extends answer.Described where
  content : ∃ value, answer.content = some value ∧
    ∃ content, Reader.orNull Reader.text value = .ok content

/-- Something stands for a value just where the value is blank or can be read. -/
theorem Value.exists_fills_iff {α : Type} {read : Reader α} {taken : Value → α → Prop}
    (hread : ∀ value a, read value = .ok a ↔ taken value a) {default : α} {value : Value} :
    (∃ a, value.Fills taken default a) ↔ value.BlankOr read := by
  constructor
  · rintro ⟨a, h⟩
    cases h with
    | blank h => exact .inl h
    | given _ h => exact .inr ⟨a, (hread value a).mpr h⟩
  · intro h
    cases hblank : value.isBlank with
    | true => exact ⟨default, .blank hblank⟩
    | false =>
        obtain ⟨a, ha⟩ := h.resolve_left (Bool.eq_false_iff.mp hblank)
        exact ⟨a, .given hblank ((hread value a).mp ha)⟩

theorem Value.exists_name_iff {default : String} {value : Value} :
    (∃ s, value.Fills Writes default s) ↔ value.BlankOr Reader.text :=
  exists_fills_iff Reader.text_eq_ok_iff

theorem Value.exists_count_iff {value : Value} :
    (∃ n, value.Fills IsCount 0 n) ↔ value.BlankOr Reader.integer :=
  exists_fills_iff fun _ _ => Iff.rfl

namespace Answer

theorem exists_counts_iff {usage : Option ReportedUsage} :
    (∃ u, Counts usage u) ↔ ∀ reported, usage = some reported →
      reported.prompt.BlankOr Reader.integer ∧ reported.completion.BlankOr Reader.integer := by
  constructor
  · rintro ⟨u, h⟩ reported rfl
    cases h with
    | reported hprompt hcompletion =>
        exact ⟨Value.exists_count_iff.mp ⟨_, hprompt⟩, Value.exists_count_iff.mp ⟨_, hcompletion⟩⟩
  · intro h
    cases usage with
    | none => exact ⟨.empty, .unreported⟩
    | some reported =>
        obtain ⟨hprompt, hcompletion⟩ := h reported rfl
        obtain ⟨promptTokens, hprompt⟩ := Value.exists_count_iff.mpr hprompt
        obtain ⟨generationTokens, hcompletion⟩ := Value.exists_count_iff.mpr hcompletion
        exact ⟨⟨promptTokens, generationTokens⟩, .reported hprompt hcompletion⟩

theorem exists_limits_iff {params : Option Value} :
    (∃ limit, Limits params limit) ↔ ∀ entries, params = some (.map entries) →
      ∃ limit, RateLimit.ofHeaderValue? (headersIn entries) = some limit := by
  constructor
  · rintro ⟨limit, h⟩ entries rfl
    cases h with
    | headers h => exact ⟨limit, h⟩
    | nothing h => exact absurd rfl (h entries)
  · intro h
    by_cases hmap : ∃ entries, params = some (.map entries)
    · obtain ⟨entries, rfl⟩ := hmap
      obtain ⟨limit, hlimit⟩ := h entries rfl
      exact ⟨limit, .headers hlimit⟩
    · exact ⟨.empty, .nothing fun entries hentries => hmap ⟨entries, hentries⟩⟩

theorem exists_dates (created : Option Value) : ∃ extra, Dates created extra := by
  by_cases hint : ∃ n, created = some (.int n)
  · obtain ⟨n, rfl⟩ := hint
    exact ⟨_, .integer n⟩
  · by_cases hbool : ∃ b, created = some (.bool b)
    · obtain ⟨b, rfl⟩ := hbool
      exact ⟨_, .truth b⟩
    · exact ⟨[], .nothing (fun n hn => hint ⟨n, hn⟩) fun b hb => hbool ⟨b, hb⟩⟩

end Answer

namespace Chat

theorem addRateLimit_error {answer : Answer} {b : Metadata.Builder} {raised : Raised}
    (h : addRateLimit answer b = .error raised) : ¬ raised.Reported := by
  unfold addRateLimit at h
  split at h
  · dsimp only at h
    split at h
    · cases h
    · cases h; exact id
  · cases h

theorem metadataOf_ok_iff {model : ChatModel} {answer : Answer} :
    (∃ m, metadataOf model answer = .ok m) ↔ answer.Described := by
  simp only [metadataOf_eq_ok_iff]
  constructor
  · rintro ⟨m, h⟩
    exact ⟨Value.exists_name_iff.mp ⟨_, h.id⟩, Value.exists_name_iff.mp ⟨_, h.model⟩,
      Answer.exists_counts_iff.mp ⟨_, h.usage⟩, Answer.exists_limits_iff.mp ⟨_, h.rateLimit⟩⟩
  · intro h
    obtain ⟨id, hid⟩ := Value.exists_name_iff.mpr h.id
    obtain ⟨name, hname⟩ := Value.exists_name_iff.mpr h.model
    obtain ⟨usage, husage⟩ := Answer.exists_counts_iff.mpr h.usage
    obtain ⟨limit, hlimit⟩ := Answer.exists_limits_iff.mpr h.headers
    obtain ⟨extra, hextra⟩ := Answer.exists_dates answer.created
    exact ⟨⟨id, name, limit, usage, .empty, extra⟩, hid, hname, husage, hlimit, rfl, hextra⟩

theorem metadataOf_error {model : ChatModel} {answer : Answer} {raised : Raised}
    (h : metadataOf model answer = .error raised) : ¬ raised.Reported := by
  unfold metadataOf at h
  simp only [bind_eq_error_iff, mapError_eq_error_iff] at h
  rcases h with ⟨rejection, _, rfl⟩ | ⟨usage, _, hlimit | ⟨b, _, rejection, _, rfl⟩⟩
  · exact id
  · exact addRateLimit_error hlimit
  · exact id

theorem responseOf_eq_ok_iff {answer : Answer} {metadata : Metadata} {response : ChatResponse} :
    responseOf answer metadata = .ok response ↔ response.metadata = metadata ∧
      ∃ value, answer.content = some value ∧
        Reader.orNull Reader.text value = .ok response.content := by
  unfold responseOf
  cases answer.content with
  | none => exact ⟨nofun, nofun⟩
  | some value =>
      have hmetadata : Reader.Takes Metadata.reader .empty (some metadata.toValue) metadata :=
        metadata.reader_toValue
      simp only [mapError_eq_ok_iff, ChatResponse.ofFields, Checked.named_eq_ok_iff,
        ChatResponse.check, Checked.and_eq_ok_iff, map_eq_ok_iff,
        Fields.required_eq_ok_iff, Fields.optional_eq_ok_iff, Fields.get?_cons, if_true]
      constructor
      · rintro ⟨_, other, ⟨content, ⟨_, hvalue, hcontent⟩, rfl⟩, hother, rfl⟩
        cases hvalue
        cases hmetadata.symm.trans hother
        exact ⟨rfl, value, rfl, hcontent⟩
      · rintro ⟨rfl, _, hvalue, hcontent⟩
        cases hvalue
        exact ⟨_, response.metadata, ⟨response.content, ⟨value, rfl, hcontent⟩, rfl⟩, hmetadata,
          rfl⟩

theorem responseOf_error {answer : Answer} {metadata : Metadata} {raised : Raised}
    (h : responseOf answer metadata = .error raised) : ¬ raised.Reported := by
  unfold responseOf at h
  split at h
  · cases h; exact id
  · obtain ⟨rejection, _, rfl⟩ := mapError_eq_error_iff.mp h
    exact id

theorem completion_error {model : ChatModel} {answer : Answer} {start stop : Binary64}
    {raised : Raised} (h : completion model answer start stop = .error raised) :
    ¬ raised.Reported := by
  unfold completion at h
  simp only [bind_eq_error_iff, mapError_eq_error_iff] at h
  rcases h with ⟨flaw, _, rfl⟩ | ⟨durationMs, _, hmetadata | ⟨metadata, _, hpure⟩⟩
  · exact id
  · exact metadataOf_error hmetadata
  · cases hpure

theorem call_sent (model : ChatModel) (text : String) (reply : Reply) (clock : Clock) :
    (call model text reply clock).sent = [⟨text, model⟩] := by
  unfold call
  cases reply with
  | fault fault => rfl
  | answer answer =>
      dsimp only
      split <;> rfl

theorem call_clock {clock : Clock} (h : clock.Bounded) (model : ChatModel) (text : String)
    (reply : Reply) : (call model text reply clock).clock.Bounded := by
  unfold call
  cases reply with
  | fault fault => exact h.read.2
  | answer answer =>
      dsimp only
      split <;> exact h.read.2.read.2

theorem call_answer_outcome (model : ChatModel) (text : String) (answer : Answer)
    (clock : Clock) :
    (call model text (.answer answer) clock).outcome =
      completion model answer clock.read.1 clock.read.2.read.1 >>= fun measured =>
        responseOf answer measured.2 := by
  simp only [call]
  cases completion model answer clock.read.1 clock.read.2.read.1 with
  | error raised => rfl
  | ok measured => rfl

theorem call_fault (model : ChatModel) (text : String) (fault : ProviderFault) (clock : Clock) :
    ∃ raised, (call model text (.fault fault) clock).outcome = .error raised ∧
      raised.Reported := by
  refine ⟨(faultOutcome model fault).1, rfl, ?_⟩
  unfold faultOutcome
  split
  next h => exact h
  next => exact trivial

theorem call_answer_error {model : ChatModel} {text : String} {answer : Answer} {clock : Clock}
    {raised : Raised} (h : (call model text (.answer answer) clock).outcome = .error raised) :
    ¬ raised.Reported := by
  rw [call_answer_outcome, bind_eq_error_iff] at h
  rcases h with h | ⟨measured, _, h⟩
  · exact completion_error h
  · exact responseOf_error h

/-- A call that returns has had an answer, of which its metadata tell, and reports the tokens that
stand in them. -/
theorem call_returned {model : ChatModel} {text : String} {reply : Reply} {clock : Clock}
    {response : ChatResponse} (h : (call model text reply clock).outcome = .ok response) :
    ∃ answer durationMs, reply = .answer answer ∧ answer.Tells model.model response.metadata ∧
      (call model text reply clock).events = [.completionStarted model.model,
        .completionCompleted model.model durationMs response.metadata.usage.total] := by
  cases reply with
  | fault fault =>
      obtain ⟨raised, hraised, _⟩ := call_fault model text fault clock
      cases hraised.symm.trans h
  | answer answer =>
      rw [call_answer_outcome, bind_eq_ok_iff] at h
      obtain ⟨⟨durationMs, m⟩, hcompletion, hresponse⟩ := h
      have hsame : response.metadata = m := (responseOf_eq_ok_iff.mp hresponse).1
      subst hsame
      refine ⟨answer, durationMs, rfl, ?_, by simp only [call, hcompletion]⟩
      simp only [completion, bind_eq_ok_iff] at hcompletion
      obtain ⟨_, _, m, hmetadata, hmeasured⟩ := hcompletion
      cases hmeasured
      exact metadataOf_eq_ok_iff.mp hmetadata

/-- A call knows nothing of templates, so it never fails for the sake of one. -/
theorem call_ne_notRendered (model : ChatModel) (text : String) (reply : Reply) (clock : Clock)
    (names : List String) :
    (call model text reply clock).outcome ≠ .error (.failure (.promptNotRendered names)) := by
  intro h
  cases reply with
  | fault fault =>
      change Except.error (faultOutcome model fault).1 = _ at h
      unfold faultOutcome at h
      split at h
      · cases h
      · cases h
  | answer answer => exact call_answer_error h trivial

/-- On a clock that counts seconds, what an answer becomes does not depend on the time. -/
theorem call_answer_ok_iff {clock : Clock} (hclock : clock.Bounded) (model : ChatModel)
    (text : String) (answer : Answer) :
    (∃ response, (call model text (.answer answer) clock).outcome = .ok response) ↔
      answer.Readable := by
  obtain ⟨durationMs, hduration⟩ :=
    Clock.milliseconds_of_within hclock.read.1 hclock.read.2.read.1
  have hmeasured : ∀ measured, completion model answer clock.read.1 clock.read.2.read.1 =
      .ok measured ↔ ∃ m, metadataOf model answer = .ok m ∧ measured = (durationMs, m) := by
    intro measured
    rw [completion, hduration]
    cases metadataOf model answer with
    | error raised => exact ⟨nofun, nofun⟩
    | ok m =>
        constructor
        · intro h; cases h; exact ⟨m, rfl, rfl⟩
        · rintro ⟨_, hm, rfl⟩
          cases hm
          rfl
  simp only [call_answer_outcome, bind_eq_ok_iff, hmeasured, responseOf_eq_ok_iff]
  constructor
  · rintro ⟨response, _, ⟨m, hm, rfl⟩, _, value, hvalue, hcontent⟩
    exact ⟨metadataOf_ok_iff.mp ⟨m, hm⟩, value, hvalue, response.content, hcontent⟩
  · rintro ⟨hdescribed, value, hvalue, content, hcontent⟩
    obtain ⟨m, hm⟩ := metadataOf_ok_iff.mpr hdescribed
    exact ⟨⟨content, m⟩, _, ⟨m, hm, rfl⟩, rfl, value, hvalue, hcontent⟩

/-- What a call of an accepted model returns has metadata that tell of the answer part by part, with
the name of the model where the answer names none, and so never without a name. No other metadata
tell of it, and the tokens that are reported are the ones in the metadata. -/
theorem returned_metadata_tell_of_answer {fields : Fields} {model : ChatModel} {text : String}
    {reply : Reply} {clock : Clock} {response : ChatResponse}
    (hmodel : ChatModel.ofFields fields = .ok model)
    (h : (call model text reply clock).outcome = .ok response) :
    ∃ answer durationMs, reply = .answer answer ∧
      answer.Tells model.model response.metadata ∧ response.metadata.model ≠ "" ∧
      (∀ m, answer.Tells model.model m → m = response.metadata) ∧
      (call model text reply clock).events = [.completionStarted model.model,
        .completionCompleted model.model durationMs
          (response.metadata.usage.promptTokens + response.metadata.usage.generationTokens)] := by
  have hnamed : model.model ≠ "" := (ChatModel.ofFields_eq_ok_iff.mp hmodel).sound.model
  obtain ⟨answer, durationMs, hreply, htells, hevents⟩ := call_returned h
  exact ⟨answer, durationMs, hreply, htells, htells.model.ne_empty hnamed,
    fun m hm => tells_unique hm htells, hevents⟩

/-- An answer without an id or a name, with one count that is null and one that is a text, and with
a truth value for its time. -/
def oddAnswer : Answer :=
  ⟨.null, .text "", some ⟨.null, .text "12"⟩, some (.bool true), some (.list []),
    some (.text "yes")⟩

def oddMetadata : Metadata :=
  ⟨"", "m", .empty, ⟨0, 12⟩, .empty, [("created", .bool true)]⟩

theorem oddMetadata_returned :
    ∃ response, (call ⟨"m", .zero, none, none⟩ "p" (.answer oddAnswer) []).outcome =
        .ok response ∧ oddMetadata = response.metadata := by
  have hmodel : ChatModel.ofFields [("model", .text "m")] = .ok ⟨"m", .zero, none, none⟩ := rfl
  have hcount : Reader.integer (.text "12") = .ok 12 := by decide +kernel
  have hreadable : oddAnswer.Readable :=
    ⟨⟨.inl rfl, .inl rfl, fun _ h => Option.some.inj h ▸ ⟨.inl rfl, .inr ⟨12, hcount⟩⟩, nofun⟩,
      _, rfl, some "yes", rfl⟩
  have htells : oddAnswer.Tells "m" oddMetadata :=
    ⟨.blank rfl, .blank rfl, .reported (.blank rfl) (.given rfl hcount), .nothing nofun, rfl,
      .truth true⟩
  have hclock : Clock.Bounded [] := nofun
  obtain ⟨response, h⟩ := (call_answer_ok_iff hclock _ "p" _).mpr hreadable
  obtain ⟨answer, _, hreply, _, _, honly, _⟩ := returned_metadata_tell_of_answer hmodel h
  cases hreply
  exact ⟨response, h, honly oddMetadata htells⟩

end Chat
end ClaimCheck

import ClaimCheck.Proofs.Chat.Call
import ClaimCheck.Proofs.RateLimit.Collected
import ClaimCheck.Proofs.SameEnd
/-!
What the headers of an answer reach. They are read into the rate limit of the metadata and into
nothing else, and no header keeps a call from its end: two calls whose answers differ in their
hidden parameters send the same, report the same and end the same way but for the rate limit.
-/
namespace ClaimCheck
open Relator

/-- Metadata that differ at most in their rate limits. -/
structure Metadata.SameButLimit (m n : Metadata) : Prop where
  id : m.id = n.id
  model : m.model = n.model
  usage : m.usage = n.usage
  promptMetadata : m.promptMetadata = n.promptMetadata
  extra : m.extra = n.extra

structure ChatResponse.SameButLimit (response other : ChatResponse) : Prop where
  content : response.content = other.content
  metadata : response.metadata.SameButLimit other.metadata

structure CallRun.SameButLimit (run other : CallRun) : Prop where
  sent : run.sent = other.sent
  events : run.events = other.events
  clock : run.clock = other.clock
  outcome : SameEnd ChatResponse.SameButLimit run.outcome other.outcome

def Answer.withHiddenParams (answer : Answer) (params : Option Value) : Answer :=
  { answer with hiddenParams := params }

def Reply.withHiddenParams : Reply → Option Value → Reply
  | .fault raised, _ => .fault raised
  | .answer given, params => .answer (given.withHiddenParams params)

/-- Hidden parameters that hold headers, if there are any at all, as null or as a mapping. -/
def Answer.MayHoldHeaders (params : Option Value) : Prop :=
  ∀ entries, params = some (.map entries) →
    Answer.headersIn entries = .null ∨ ∃ headers, Answer.headersIn entries = .map headers

namespace Metadata

theorem mk_sameButLimit : (Eq ⇒ Eq ⇒ (fun _ _ => True) ⇒ Eq ⇒ Eq ⇒ Eq ⇒ SameButLimit)
    Metadata.mk Metadata.mk := by
  rintro id _ rfl model _ rfl limit other - usage _ rfl prompts _ rfl extra _ rfl
  exact ⟨rfl, rfl, rfl, rfl, rfl⟩

namespace Builder

/-- Builders of metadata that differ at most in their rate limits, both of them acceptable. -/
structure SameButLimit (b c : Builder) : Prop where
  id : b.id = c.id
  model : b.model = c.model
  usage : b.usage = c.usage
  promptMetadata : b.promptMetadata = c.promptMetadata
  extra : b.extra = c.extra
  limit : ∃ limit, Reader.Takes RateLimit.reader .empty b.rateLimit limit
  otherLimit : ∃ limit, Reader.Takes RateLimit.reader .empty c.rateLimit limit

theorem SameButLimit.build {b c : Builder} (h : SameButLimit b c) :
    SameEnd Metadata.SameButLimit b.build c.build := by
  obtain ⟨bid, bmodel, blimit, busage, bprompts, bextra⟩ := b.get?_fields
  obtain ⟨cid, cmodel, climit, cusage, cprompts, cextra⟩ := c.get?_fields
  obtain ⟨limit, hlimit⟩ := h.limit
  obtain ⟨other, hother⟩ := h.otherLimit
  have hlimits : SameEnd (fun _ _ => True)
      (Fields.optional b.fields "rate_limit" RateLimit.reader .empty)
      (Fields.optional c.fields "rate_limit" RateLimit.reader .empty) := by
    rw [Fields.optional_eq_ok_iff.mpr (blimit ▸ hlimit),
      Fields.optional_eq_ok_iff.mpr (climit ▸ hother)]
    exact .ok trivial
  have hid := Fields.optional_sameEnd (bid.trans (h.id.trans cid.symm)) Reader.text ""
  have hmodel := Fields.optional_sameEnd (bmodel.trans (h.model.trans cmodel.symm)) Reader.text ""
  have husage := Fields.optional_sameEnd (busage.trans (h.usage.trans cusage.symm))
    Usage.reader .empty
  have hprompts := Fields.optional_sameEnd
    (bprompts.trans (h.promptMetadata.trans cprompts.symm)) PromptMetadata.reader .empty
  have hextra := Fields.optional_sameEnd
    (bextra.trans ((congrArg (fun extra => some (Value.map extra)) h.extra).trans cextra.symm))
    Reader.mapping []
  exact Checked.named_sameEnd (Checked.and_sameEnd (Checked.and_sameEnd (Checked.and_sameEnd
    (Checked.and_sameEnd (Checked.and_sameEnd (hid.map mk_sameButLimit) hmodel) hlimits) husage)
    hprompts) hextra) recordName

end Builder
end Metadata

theorem ChatResponse.mk_sameButLimit :
    (Eq ⇒ Metadata.SameButLimit ⇒ SameButLimit) ChatResponse.mk ChatResponse.mk := by
  rintro content _ rfl m n h
  exact ⟨rfl, h⟩

namespace Chat
open Metadata (Builder)
variable {answer : Answer} {p q : Option Value}

theorem addRateLimit_of_headers {entries : List (Value × Value)} {limit : RateLimit}
    (hparams : answer.hiddenParams = some (.map entries))
    (hlimit : RateLimit.ofHeaderValue? (Answer.headersIn entries) = some limit) (b : Builder) :
    addRateLimit answer b = .ok (b.withRateLimit limit.toValue) := by
  rw [Answer.headersIn] at hlimit
  simp only [addRateLimit, hparams, hlimit]

/-- Headers that are looked for are found to be none or a mapping, and only the rate limit is
written for them. -/
theorem addRateLimit_of_mayHoldHeaders (answer : Answer)
    (h : Answer.MayHoldHeaders answer.hiddenParams) (b : Builder) : addRateLimit answer b = .ok b ∨
      ∃ limit : RateLimit, addRateLimit answer b = .ok (b.withRateLimit limit.toValue) := by
  by_cases hparams : ∃ entries, answer.hiddenParams = some (.map entries)
  · obtain ⟨entries, hparams⟩ := hparams
    rcases h entries hparams with hnull | ⟨headers, hmap⟩
    · exact .inr ⟨.empty, addRateLimit_of_headers hparams (by rw [hnull]; rfl) b⟩
    · exact .inr ⟨.ofHeaders headers, addRateLimit_of_headers hparams (by rw [hmap]; rfl) b⟩
  · refine .inl ?_
    unfold addRateLimit
    split
    next entries hentries => exact absurd ⟨entries, hentries⟩ hparams
    next => rfl

theorem addRateLimit_sameEnd (hp : Answer.MayHoldHeaders p) (hq : Answer.MayHoldHeaders q)
    {b c : Builder} (h : b.SameButLimit c) :
    SameEnd Builder.SameButLimit (addRateLimit (answer.withHiddenParams p) b)
      (addRateLimit (answer.withHiddenParams q) c) := by
  have hb := addRateLimit_of_mayHoldHeaders (answer.withHiddenParams p) hp b
  have hc := addRateLimit_of_mayHoldHeaders (answer.withHiddenParams q) hq c
  rcases hb with hb | ⟨limit, hb⟩ <;> rcases hc with hc | ⟨other, hc⟩ <;> rw [hb, hc]
  · exact .ok h
  · exact .ok { h with otherLimit := ⟨other, other.reader_toValue⟩ }
  · exact .ok { h with limit := ⟨limit, limit.reader_toValue⟩ }
  · exact .ok { h with
      limit := ⟨limit, limit.reader_toValue⟩
      otherLimit := ⟨other, other.reader_toValue⟩ }

theorem addCreated_sameButLimit {b c : Builder} (h : b.SameButLimit c) (answer : Answer) :
    (addCreated answer b).SameButLimit (addCreated answer c) := by
  unfold addCreated
  split
  next n _ => exact { h with extra := congrArg (Value.insertEntry · _ _) h.extra }
  next v _ => exact { h with extra := congrArg (Value.insertEntry · _ _) h.extra }
  next => exact h

theorem metadataOf_sameEnd (hp : Answer.MayHoldHeaders p) (hq : Answer.MayHoldHeaders q)
    (model : ChatModel) (answer : Answer) :
    SameEnd Metadata.SameButLimit (metadataOf model (answer.withHiddenParams p))
      (metadataOf model (answer.withHiddenParams q)) := by
  have husage : SameEnd Eq ((usageOf (answer.withHiddenParams p)).mapError Raised.rejected)
      ((usageOf (answer.withHiddenParams q)).mapError Raised.rejected) := .of_eq rfl
  have hdraft : ∀ usage : Usage, Builder.SameButLimit
      (((Builder.new.withId (orElse answer.id (.text ""))).withModel
        (orElse answer.model (.text model.model))).withUsage usage.toValue)
      (((Builder.new.withId (orElse answer.id (.text ""))).withModel
        (orElse answer.model (.text model.model))).withUsage usage.toValue) := fun _ =>
    ⟨rfl, rfl, rfl, rfl, rfl, ⟨.empty, rfl⟩, ⟨.empty, rfl⟩⟩
  -- up to the headers both runs do the same, and after them only the drafts differ
  unfold metadataOf
  refine husage.bind ?_
  rintro usage _ rfl
  refine (addRateLimit_sameEnd hp hq (hdraft usage)).bind ?_
  intro b c hbuilders
  exact (addCreated_sameButLimit hbuilders answer).build.mapError Raised.rejected

theorem responseOf_sameEnd (answer : Answer) {m n : Metadata} (h : m.SameButLimit n) :
    SameEnd ChatResponse.SameButLimit (responseOf (answer.withHiddenParams p) m)
      (responseOf (answer.withHiddenParams q) n) := by
  unfold responseOf
  dsimp only [Answer.withHiddenParams]
  cases answer.content with
  | none => exact .error _
  | some content =>
      have hcontent : SameEnd Eq
          (Fields.required [("content", content), ("metadata", m.toValue)] "content"
            (Reader.orNull Reader.text))
          (Fields.required [("content", content), ("metadata", n.toValue)] "content"
            (Reader.orNull Reader.text)) := .of_eq rfl
      have hmetadata : SameEnd Metadata.SameButLimit
          (Fields.optional [("content", content), ("metadata", m.toValue)] "metadata"
            Metadata.reader .empty)
          (Fields.optional [("content", content), ("metadata", n.toValue)] "metadata"
            Metadata.reader .empty) := by
        have hgiven : ∀ given : Metadata, Fields.optional
            [("content", content), ("metadata", given.toValue)] "metadata" Metadata.reader .empty =
              .ok given := fun given => Fields.optional_eq_ok_iff.mpr given.reader_toValue
        rw [hgiven m, hgiven n]
        exact .ok h
      exact (Checked.named_sameEnd (Checked.and_sameEnd (hcontent.map ChatResponse.mk_sameButLimit)
        hmetadata) "ChatResponse").mapError Raised.rejected

theorem completion_sameEnd (hp : Answer.MayHoldHeaders p) (hq : Answer.MayHoldHeaders q)
    (model : ChatModel) (answer : Answer) (start stop : Binary64) :
    SameEnd (fun measured other : Int × Metadata =>
        measured.1 = other.1 ∧ measured.2.SameButLimit other.2)
      (completion model (answer.withHiddenParams p) start stop)
      (completion model (answer.withHiddenParams q) start stop) := by
  have hduration : SameEnd Eq ((Clock.milliseconds start stop).mapError Raised.unmeasured)
      ((Clock.milliseconds start stop).mapError Raised.unmeasured) := .of_eq rfl
  unfold completion
  refine hduration.bind ?_
  rintro durationMs _ rfl
  refine (metadataOf_sameEnd hp hq model answer).bind ?_
  intro m n h
  exact .ok ⟨rfl, h⟩

theorem call_sameButLimit (hp : Answer.MayHoldHeaders p) (hq : Answer.MayHoldHeaders q)
    (model : ChatModel) (text : String) (reply : Reply) (clock : Clock) :
    (call model text (reply.withHiddenParams p) clock).SameButLimit
      (call model text (reply.withHiddenParams q) clock) := by
  cases reply with
  | fault fault => exact ⟨rfl, rfl, rfl, .error _⟩
  | answer answer =>
      have hcompletion := completion_sameEnd hp hq model answer clock.read.1 clock.read.2.read.1
      simp only [Reply.withHiddenParams, call]
      revert hcompletion
      generalize completion model (answer.withHiddenParams p) _ _ = result
      generalize completion model (answer.withHiddenParams q) _ _ = other
      intro hcompletion
      cases hcompletion with
      | error raised => exact ⟨rfl, rfl, rfl, .error raised⟩
      | @ok measured remeasured h =>
          obtain ⟨durationMs, m⟩ := measured
          obtain ⟨_, n⟩ := remeasured
          obtain ⟨rfl, hmetadata⟩ := h
          have husage : m.usage = n.usage := hmetadata.usage
          exact ⟨rfl, by simp only [husage], rfl, responseOf_sameEnd answer hmetadata⟩

theorem limit_of_call_ok {model : ChatModel} {text : String} {reply : Reply} {clock : Clock}
    {entries headers : List (Value × Value)} {response : ChatResponse}
    (hheaders : Answer.headersIn entries = .map headers)
    (hok : (call model text (reply.withHiddenParams (some (.map entries))) clock).outcome =
      .ok response) :
    RateLimit.ofFields (RateLimit.collect [] headers) = .ok response.metadata.rateLimit := by
  obtain ⟨answer, _, hreply, htells, _⟩ := call_returned hok
  have hparams : answer.hiddenParams = some (.map entries) := by
    cases reply with
    | fault => cases hreply
    | answer => cases hreply; rfl
  have hlimit := htells.rateLimit
  rw [hparams] at hlimit
  generalize response.metadata.rateLimit = limit at hlimit ⊢
  cases hlimit with
  | nothing h => exact absurd rfl (h entries)
  | headers h =>
      rw [hheaders] at h
      rw [← Option.some.inj h]
      exact RateLimit.ofFields_collect headers

/-- Calls whose answers differ in their hidden parameters, headers of any text among them, differ
at most in the rate limits of their responses. No header keeps a call from a response, and the
rate limit of a response is what the fields collected from its headers are accepted as. -/
theorem headers_reach_rate_limit_only (hp : Answer.MayHoldHeaders p)
    (hq : Answer.MayHoldHeaders q) (model : ChatModel) (text : String) (reply : Reply)
    (clock : Clock) :
    (call model text (reply.withHiddenParams p) clock).SameButLimit
        (call model text (reply.withHiddenParams q) clock) ∧
      ((∃ response, (call model text (reply.withHiddenParams p) clock).outcome = .ok response) ↔
        ∃ response, (call model text (reply.withHiddenParams none) clock).outcome =
          .ok response) ∧
      ∀ entries headers response, p = some (.map entries) →
        Answer.headersIn entries = .map headers →
        (call model text (reply.withHiddenParams p) clock).outcome = .ok response →
        RateLimit.ofFields (RateLimit.collect [] headers) = .ok response.metadata.rateLimit := by
  have hnone : Answer.MayHoldHeaders none := nofun
  refine ⟨call_sameButLimit hp hq model text reply clock,
    (call_sameButLimit hp hnone model text reply clock).outcome.ok_iff, ?_⟩
  rintro entries headers response rfl hheaders hok
  exact limit_of_call_ok hheaders hok

/-- Counts and resets that are no numbers, or numbers out of all bounds. -/
def unboundedHeaders : Option Value :=
  some (.map [(.text "additional_headers", .map [
    (.text "x-ratelimit-limit-requests", .text "inf"),
    (.text "llm_provider-X-RateLimit-Remaining-Requests", .text "nan"),
    (.text "x-ratelimit-reset-requests", .text "1e400h"),
    (.text "x-ratelimit-reset-tokens", .text "99999999999999999999s")])])

theorem call_with_unboundedHeaders :
    Answer.MayHoldHeaders unboundedHeaders ∧ Answer.MayHoldHeaders none ∧
      ∃ response, (call ⟨"m", .zero, none, none⟩ "p"
        (.answer ⟨.null, .null, none, none, unboundedHeaders, some (.text "yes")⟩) []).outcome =
          .ok response := by
  have hheaders : Answer.MayHoldHeaders unboundedHeaders := by
    rintro entries h
    cases h
    exact .inr ⟨_, rfl⟩
  have hnone : Answer.MayHoldHeaders none := nofun
  have hplain : Answer.Readable ⟨.null, .null, none, none, none, some (.text "yes")⟩ :=
    ⟨⟨.inl rfl, .inl rfl, nofun, nofun⟩, _, rfl, some "yes", rfl⟩
  obtain ⟨_, hends, _⟩ := headers_reach_rate_limit_only hheaders hnone ⟨"m", .zero, none, none⟩ "p"
    (.answer ⟨.null, .null, none, none, none, some (.text "yes")⟩) []
  have hclock : Clock.Bounded [] := nofun
  exact ⟨hheaders, hnone, hends.mpr ((call_answer_ok_iff hclock _ _ _).mpr hplain)⟩

end Chat
end ClaimCheck

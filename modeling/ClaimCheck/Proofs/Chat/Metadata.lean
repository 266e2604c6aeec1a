import ClaimCheck.Chat.Client
import ClaimCheck.Proofs.Failure
import ClaimCheck.Proofs.Metadata.Builder
import ClaimCheck.Proofs.Text.Utf8
/-!
The metadata of an answer. Each part of an answer may be missing, null, blank or of a kind of its
own, whatever the other parts are. What is told of the metadata part by part holds of exactly those
that are made of the answer.
-/
namespace ClaimCheck

/-- The text that a value is, or that its bytes encode. -/
inductive Value.Writes : Value → String → Prop
  | text (s : String) : Writes (.text s) s
  | torn (t : Text.Torn) : Writes (.torn t) t.text
  | bytes (s : String) : Writes (.bytes (Text.encodeUtf8 s)) s

theorem Reader.text_eq_ok_iff (value : Value) (s : String) :
    Reader.text value = .ok s ↔ value.Writes s := by
  constructor
  · intro h
    cases value with
    | text t => exact Except.ok.inj h ▸ .text t
    | torn t => exact Except.ok.inj h ▸ .torn t
    | bytes bs =>
        simp only [Reader.text, Reader.spelled] at h
        split at h
        next t hdecoded =>
          rw [← (Text.decodeUtf8_eq_ok_iff bs t).mp hdecoded, ← Except.ok.inj h]
          exact .bytes t
        next => cases h
    | _ => cases h
  · intro h
    cases h with
    | text => rfl
    | torn => rfl
    | bytes =>
        have hdecoded := (Text.decodeUtf8_eq_ok_iff (Text.encodeUtf8 s) s).mpr rfl
        simp only [Reader.text, Reader.spelled, hdecoded]

/-- A value that is not blank is no empty text. -/
theorem Value.Writes.ne_empty {value : Value} {s : String} (h : value.Writes s)
    (hblank : value.isBlank = false) : s ≠ "" := by
  intro hempty
  cases h with
  | text => cases hempty; cases hblank
  | bytes => cases hempty; cases hblank
  | torn t =>
      obtain ⟨rs, htorn⟩ := t
      cases rs with
      | nil => cases htorn
      | cons r rs => exact absurd (String.ofList_inj.mp hempty) (List.cons_ne_nil _ _)

/-- The integer that a value is read as. -/
def Value.IsCount (value : Value) (n : Int) : Prop :=
  Reader.integer value = .ok n

/-- What stands for a value: a default where the value is blank, and otherwise what the value is
taken for. -/
inductive Value.Fills {α : Type} (value : Value) (taken : Value → α → Prop) (default : α) :
    α → Prop
  | blank (h : value.isBlank = true) : Fills value taken default default
  | given {a : α} (hvalue : value.isBlank = false) (h : taken value a) :
      Fills value taken default a

section Fills
variable {α : Type} {value : Value} {taken : Value → α → Prop} {default a : α}

theorem Value.Fills.eq_default (h : value.Fills taken default a) (hblank : value.isBlank = true) :
    a = default := by
  cases h with
  | blank => rfl
  | given hvalue => cases hblank.symm.trans hvalue

theorem Value.Fills.of_given (h : value.Fills taken default a)
    (hvalue : value.isBlank = false) : taken value a := by
  cases h with
  | blank hblank => cases hblank.symm.trans hvalue
  | given _ h => exact h

/-- A name is not empty unless the one that stands for a blank is. -/
theorem Value.Fills.ne_empty {name other : String} (h : value.Fills Value.Writes other name)
    (hother : other ≠ "") : name ≠ "" := by
  cases h with
  | blank => exact hother
  | given hvalue h => exact h.ne_empty hvalue

end Fills

/-- The token counts of an answer, of which it may report none. -/
inductive Answer.Counts : Option ReportedUsage → Usage → Prop
  | unreported : Counts none .empty
  | reported {reported : ReportedUsage} {promptTokens generationTokens : Int}
      (hprompt : reported.prompt.Fills Value.IsCount 0 promptTokens)
      (hcompletion : reported.completion.Fills Value.IsCount 0 generationTokens) :
      Counts (some reported) ⟨promptTokens, generationTokens⟩

def Answer.headersIn (entries : List (Value × Value)) : Value :=
  ((Value.textEntries entries).get? "additional_headers").getD .null

/-- The rate limit of an answer: only hidden parameters that are a mapping can hold headers. -/
inductive Answer.Limits : Option Value → RateLimit → Prop
  | headers {entries : List (Value × Value)} {limit : RateLimit}
      (h : RateLimit.ofHeaderValue? (Answer.headersIn entries) = some limit) :
      Limits (some (.map entries)) limit
  | nothing {params : Option Value} (h : ∀ entries, params ≠ some (.map entries)) :
      Limits params .empty

/-- The bag of an answer: only an integer or a truth value is a time of creation. -/
inductive Answer.Dates : Option Value → Fields → Prop
  | integer (n : Int) : Dates (some (.int n)) [("created", .int n)]
  | truth (b : Bool) : Dates (some (.bool b)) [("created", .bool b)]
  | nothing {created : Option Value} (hint : ∀ n, created ≠ some (.int n))
      (hbool : ∀ b, created ≠ some (.bool b)) : Dates created []

/-- What metadata tell of an answer, with the name of a model for an answer that names none. -/
structure Answer.Tells (answer : Answer) (model : String) (m : Metadata) : Prop where
  id : answer.id.Fills Value.Writes "" m.id
  model : answer.model.Fills Value.Writes model m.model
  usage : Answer.Counts answer.usage m.usage
  rateLimit : Answer.Limits answer.hiddenParams m.rateLimit
  promptMetadata : m.promptMetadata = .empty
  extra : Answer.Dates answer.created m.extra

namespace Chat
variable {answer : Answer} {m : Metadata} {b : Metadata.Builder}

theorem orElse_eq_ok_iff {α : Type} {read : Reader α} {taken : Value → α → Prop}
    (hread : ∀ value a, read value = .ok a ↔ taken value a) {value default : Value} {d a : α}
    (hdefault : read default = .ok d) :
    read (orElse value default) = .ok a ↔ value.Fills taken d a := by
  unfold orElse
  cases hblank : value.isBlank with
  | true =>
      rw [if_pos rfl, hdefault]
      constructor
      · intro h
        exact Except.ok.inj h ▸ .blank hblank
      · intro h
        rw [h.eq_default hblank]
  | false =>
      rw [if_neg Bool.false_ne_true, hread]
      constructor
      · exact .given hblank
      · exact fun h => h.of_given hblank

/-- A count of an answer, which is zero where it is blank. -/
theorem integer_orElse_eq_ok_iff {value : Value} {n : Int} :
    Reader.integer (orElse value (.int 0)) = .ok n ↔ value.Fills Value.IsCount 0 n :=
  orElse_eq_ok_iff (fun _ _ => Iff.rfl) rfl

/-- A name of an answer, for which another one stands where it is blank. -/
theorem text_orElse_eq_ok_iff {value : Value} {default s : String} :
    Reader.text (orElse value (.text default)) = .ok s ↔ value.Fills Value.Writes default s :=
  orElse_eq_ok_iff Reader.text_eq_ok_iff rfl

theorem usageOf_eq_ok_iff {usage : Usage} :
    usageOf answer = .ok usage ↔ Answer.Counts answer.usage usage := by
  unfold usageOf
  cases answer.usage with
  | none =>
      constructor
      · intro h
        exact Except.ok.inj h ▸ .unreported
      · intro h
        cases h
        rfl
  | some reported =>
      simp only [Usage.ofFields, Checked.named_eq_ok_iff, Usage.check, Checked.and_eq_ok_iff,
        map_eq_ok_iff, Fields.optional_eq_ok_iff, Fields.get?_cons]
      constructor
      · rintro ⟨_, generation, ⟨prompt, hprompt, rfl⟩, hgeneration, rfl⟩
        exact .reported (integer_orElse_eq_ok_iff.mp hprompt)
          (integer_orElse_eq_ok_iff.mp hgeneration)
      · intro h
        cases h with
        | reported hprompt hcompletion =>
            exact ⟨_, _, ⟨_, integer_orElse_eq_ok_iff.mpr hprompt, rfl⟩,
              integer_orElse_eq_ok_iff.mpr hcompletion, rfl⟩

theorem addRateLimit_frame {c : Metadata.Builder} (h : addRateLimit answer b = .ok c) :
    c.id = b.id ∧ c.model = b.model ∧ c.usage = b.usage ∧
      c.promptMetadata = b.promptMetadata ∧ c.extra = b.extra := by
  unfold addRateLimit at h
  split at h
  · dsimp only at h
    split at h
    · cases h
      exact ⟨rfl, rfl, rfl, rfl, rfl⟩
    · cases h
  · cases h
    exact ⟨rfl, rfl, rfl, rfl, rfl⟩

/-- The limit that a builder without one takes from an answer. -/
theorem takes_addRateLimit (hb : b.rateLimit = none) {limit : RateLimit} :
    (∃ c, addRateLimit answer b = .ok c ∧
        Reader.Takes RateLimit.reader .empty c.rateLimit limit) ↔
      Answer.Limits answer.hiddenParams limit := by
  unfold addRateLimit
  constructor
  · rintro ⟨c, hc, htakes⟩
    split at hc
    next entries hentries =>
      dsimp only at hc
      split at hc
      next told htold =>
        cases hc
        have hsame : told = limit := Except.ok.inj (told.reader_toValue.symm.trans htakes)
        subst hsame
        rw [hentries]
        exact .headers htold
      next => cases hc
    next hother =>
      cases hc
      rw [hb] at htakes
      cases htakes
      exact .nothing hother
  · intro h
    generalize answer.hiddenParams = params at h ⊢
    cases h with
    | headers h =>
        rw [Answer.headersIn] at h
        exact ⟨b.withRateLimit limit.toValue, by simp only [h], limit.reader_toValue⟩
    | nothing h =>
        refine ⟨b, ?_, by rw [hb]; rfl⟩
        split
        next entries => exact absurd rfl (h entries)
        next => rfl

theorem addCreated_frame (answer : Answer) (b : Metadata.Builder) :
    (addCreated answer b).id = b.id ∧ (addCreated answer b).model = b.model ∧
      (addCreated answer b).rateLimit = b.rateLimit ∧ (addCreated answer b).usage = b.usage ∧
      (addCreated answer b).promptMetadata = b.promptMetadata := by
  unfold addCreated
  split <;> exact ⟨rfl, rfl, rfl, rfl, rfl⟩

/-- The bag that a builder without one takes from an answer. -/
theorem mapping_addCreated (hb : b.extra = []) {extra : Fields} :
    Reader.mapping (.map (addCreated answer b).extra) = .ok extra ↔
      Answer.Dates answer.created extra := by
  have hbag : ∀ key value, (b.withKeyValue key value).extra = [(key, value)] := by
    intro key value
    rw [Metadata.Builder.withKeyValue, hb]
    rfl
  unfold addCreated
  constructor
  · intro h
    split at h
    next n hcreated =>
      rw [hbag] at h
      rw [hcreated, ← Except.ok.inj h]
      exact .integer n
    next v hcreated =>
      rw [hbag] at h
      rw [hcreated, ← Except.ok.inj h]
      exact .truth v
    next hint hbool =>
      rw [hb] at h
      rw [← Except.ok.inj h]
      exact .nothing hint hbool
  · intro h
    generalize answer.created = created at h ⊢
    cases h with
    | integer n => simp only [hbag]; rfl
    | truth v => simp only [hbag]; rfl
    | nothing hint hbool =>
        split
        next n => exact absurd rfl (hint n)
        next v => exact absurd rfl (hbool v)
        next => rw [hb]; rfl

/-- The builder with the names and the counts of an answer, before its limit and its bag. -/
def draft (model : ChatModel) (answer : Answer) (usage : Usage) : Metadata.Builder :=
  ((Metadata.Builder.new.withId (orElse answer.id (.text ""))).withModel
    (orElse answer.model (.text model.model))).withUsage usage.toValue

section Draft
variable {model : ChatModel}

theorem build_addCreated_eq_ok_iff {usage : Usage} {c : Metadata.Builder}
    (hc : addRateLimit answer (draft model answer usage) = .ok c) :
    (addCreated answer c).build = .ok m ↔
      answer.id.Fills Value.Writes "" m.id ∧
      answer.model.Fills Value.Writes model.model m.model ∧
      Reader.Takes RateLimit.reader .empty c.rateLimit m.rateLimit ∧ m.usage = usage ∧
      m.promptMetadata = .empty ∧ Answer.Dates answer.created m.extra := by
  obtain ⟨hid, hmodel, husage, hprompts, hextra⟩ := addRateLimit_frame hc
  obtain ⟨hid', hmodel', hlimit', husage', hprompts'⟩ := addCreated_frame answer c
  have hnames : Reader.Takes Reader.text "" (draft model answer usage).id m.id ↔
      answer.id.Fills Value.Writes "" m.id := text_orElse_eq_ok_iff
  have hmodels : Reader.Takes Reader.text "" (draft model answer usage).model m.model ↔
      answer.model.Fills Value.Writes model.model m.model := text_orElse_eq_ok_iff
  have hcounts : Reader.Takes Usage.reader .empty (draft model answer usage).usage m.usage ↔
      m.usage = usage := by
    have hread : Usage.reader usage.toValue = .ok usage := usage.reader_toValue
    exact ⟨fun h => Except.ok.inj (h.symm.trans hread), fun h => h ▸ hread⟩
  have hnone : Reader.Takes PromptMetadata.reader .empty (draft model answer usage).promptMetadata
      m.promptMetadata ↔ m.promptMetadata = .empty := Iff.rfl
  rw [Metadata.Builder.build_eq_ok_iff, hid', hmodel', hlimit', husage', hprompts',
    mapping_addCreated hextra, hid, hmodel, husage, hprompts, hnames, hmodels, hcounts, hnone]

/-- Metadata are made of an answer just where they tell of it, part by part. -/
theorem metadataOf_eq_ok_iff : metadataOf model answer = .ok m ↔ answer.Tells model.model m := by
  have hsteps : metadataOf model answer = .ok m ↔ ∃ usage, usageOf answer = .ok usage ∧
      ∃ c, addRateLimit answer (draft model answer usage) = .ok c ∧
        (addCreated answer c).build = .ok m := by
    unfold metadataOf
    simp only [bind_eq_ok_iff, mapError_eq_ok_iff]
    rfl
  rw [hsteps]
  constructor
  · rintro ⟨usage, husage, c, hc, hbuild⟩
    obtain ⟨hid, hmodel, hlimit, rfl, hprompts, hextra⟩ := (build_addCreated_eq_ok_iff hc).mp hbuild
    exact ⟨hid, hmodel, usageOf_eq_ok_iff.mp husage, (takes_addRateLimit rfl).mp ⟨c, hc, hlimit⟩,
      hprompts, hextra⟩
  · rintro ⟨hid, hmodel, husage, hlimit, hprompts, hextra⟩
    have hdraft : (draft model answer m.usage).rateLimit = none := rfl
    obtain ⟨c, hc, htakes⟩ := (takes_addRateLimit hdraft).mpr hlimit
    exact ⟨m.usage, usageOf_eq_ok_iff.mpr husage, c, hc, (build_addCreated_eq_ok_iff hc).mpr
      ⟨hid, hmodel, htakes, rfl, hprompts, hextra⟩⟩

/-- No two metadata tell of an answer with the same name for a blank. -/
theorem tells_unique {n : Metadata} (hm : answer.Tells model.model m)
    (hn : answer.Tells model.model n) : m = n :=
  Except.ok.inj ((metadataOf_eq_ok_iff.mpr hm).symm.trans (metadataOf_eq_ok_iff.mpr hn))

end Draft

end Chat
end ClaimCheck

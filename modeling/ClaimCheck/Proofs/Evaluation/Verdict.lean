import ClaimCheck.Proofs.Evaluation.Course
import ClaimCheck.Proofs.Text.Lowercase
/-!
Which answers pass. Small letters are taken of every script, but the three letters of a yes are the
small form of ASCII letters only, so that no other text passes, whatever looks like a yes. The same
holds of a no, and any other answer is reported.
-/
namespace ClaimCheck.Evaluation

/-- An answer of as many letters as there are choices, each of them among its choice. -/
def Spells (choices : List (List Char)) (content : Option String) : Prop :=
  ∃ text, content = some text ∧ List.Forall₂ (· ∈ ·) text.toList choices

/-- Nothing but a yes, in capital and small ASCII letters as they come. -/
def SaysYes : Option String → Prop :=
  Spells [['Y', 'y'], ['E', 'e'], ['S', 's']]

/-- Nothing but a no, in capital and small ASCII letters as they come. -/
def SaysNo : Option String → Prop :=
  Spells [['N', 'n'], ['O', 'o']]

/-- The small form of an answer is a word without a k just where the answer has the letters of the
word, each in one of its two cases. -/
theorem smallLetters_eq_iff {content : Option String} {word : List Char} (hne : word ≠ [])
    (hall : word.all (fun d => d.isLower && d != 'k') = true) :
    smallLetters content = word ↔ Spells (word.map fun d => [d.toUpper, d]) content := by
  have hword : ∀ d ∈ word, d.isLower = true ∧ d ≠ 'k' := by
    simpa only [List.all_eq_true, Bool.and_eq_true, bne_iff_ne] using hall
  have hascii : ∀ d ∈ word, d.toNat < 128 := fun d hd => Text.ascii_of_isLower (hword d hd).1
  rw [smallLetters, Text.lowerInContext_eq_iff_of_ascii hascii, Text.lower_eq_iff_isCasing hword,
    Spells]
  cases content with
  | none =>
      have hempty : ¬ Text.IsCasing [] word := mt List.forall₂_nil_left_iff.mp hne
      exact ⟨fun h => absurd h hempty, nofun⟩
  | some text =>
      simp only [Option.getD_some, Option.some.injEq, exists_eq_left', List.forall₂_map_right_iff]
      rfl

theorem smallLetters_eq_yes_iff {content : Option String} :
    smallLetters content = "yes".toList ↔ SaysYes content :=
  smallLetters_eq_iff (by decide) (by decide)

theorem smallLetters_eq_no_iff {content : Option String} :
    smallLetters content = "no".toList ↔ SaysNo content :=
  smallLetters_eq_iff (by decide) (by decide)

section Told
variable {content : Option String} {durationMs : ℤ} {passed : Bool} {told : List Event}

theorem Told.passed_iff (h : Told content durationMs passed told) :
    passed = true ↔ SaysYes content := by
  rw [← smallLetters_eq_yes_iff]
  cases h with
  | yes hyes => exact ⟨fun _ => hyes, fun _ => rfl⟩
  | no hno => exact ⟨nofun, fun hyes => absurd (hyes.symm.trans hno) (by decide)⟩
  | unrecognised hyes _ => exact ⟨nofun, fun h => absurd h hyes⟩

/-- An answer is reported as it came, and only if it is neither a yes nor a no. -/
theorem Told.reported_iff (h : Told content durationMs passed told) (raw : Option String) :
    .verdictUnrecognised raw ∈ told ↔ raw = content ∧ ¬ SaysYes content ∧ ¬ SaysNo content := by
  cases h with
  | yes hyes => simp [smallLetters_eq_yes_iff.mp hyes]
  | no hno => simp [smallLetters_eq_no_iff.mp hno]
  | unrecognised hyes hno =>
      have hneither : ¬ SaysYes content ∧ ¬ SaysNo content :=
        ⟨mt smallLetters_eq_yes_iff.mpr hyes, mt smallLetters_eq_no_iff.mpr hno⟩
      simp [hneither]

end Told

section Reply
variable {template prompt : String} {task : Task} {clock : Clock} {response : ChatResponse}

/-- An evaluation whose client answers judges that answer, unless its time has no number. -/
theorem run_of_reply (hprompt : Asks template task.request prompt)
    (hreply : (task.client prompt clock.read.2).outcome = .ok response) :
    (∃ durationMs told, Told response.content durationMs
        (verdict response.content == .supported) told ∧
      (run template task.client task.request clock).outcome =
        .ok ⟨verdict response.content == .supported, .zero, "", []⟩ ∧
      (run template task.client task.request clock).events =
        announced task.request :: (task.client prompt clock.read.2).events ++ told) ∨
    ∃ flaw, span task.client prompt clock = .error flaw ∧
      (run template task.client task.request clock).outcome = .error (.unmeasured flaw) := by
  have hrender := Template.render_eq_ok_iff_substituted.mpr hprompt
  cases hspan : span task.client prompt clock with
  | error flaw =>
      rw [run_unmeasured hrender hreply hspan]
      exact .inr ⟨flaw, rfl, rfl⟩
  | ok durationMs =>
      rw [run_answered hrender hreply hspan]
      exact .inl ⟨durationMs, _, told_verdictEvents response.content durationMs, rfl, rfl⟩

/-- Whatever a client answers, the claim passes only if the answer is a yes of three ASCII letters,
and the answer is reported only if it is not that and not a no of two. On a clock that counts
seconds every answer is judged. -/
theorem only_bare_yes_passes (hprompt : Asks template task.request prompt)
    (hreply : (task.client prompt clock.read.2).outcome = .ok response) :
    (∀ evaluation, (run template task.client task.request clock).outcome = .ok evaluation →
      (evaluation.passed = true ↔ SaysYes response.content) ∧
        ∃ told, (run template task.client task.request clock).events =
            announced task.request :: (task.client prompt clock.read.2).events ++ told ∧
          ∀ raw, .verdictUnrecognised raw ∈ told ↔
            raw = response.content ∧ ¬ SaysYes response.content ∧ ¬ SaysNo response.content) ∧
    (clock.Bounded → KeepsTime task.client →
      ∃ evaluation, (run template task.client task.request clock).outcome = .ok evaluation) := by
  rcases run_of_reply hprompt hreply with ⟨_, told, htold, houtcome, hevents⟩ | ⟨flaw, hspan, hlost⟩
  · refine ⟨fun evaluation h => ?_, fun _ _ => ⟨_, houtcome⟩⟩
    cases houtcome.symm.trans h
    exact ⟨htold.passed_iff, told, hevents, htold.reported_iff⟩
  · refine ⟨fun evaluation h => ?_, fun hclock hkeeps => ?_⟩
    · cases hlost.symm.trans h
    · obtain ⟨durationMs, hmeasured⟩ := span_of_keepsTime hkeeps hclock prompt
      cases hspan.symm.trans hmeasured

end Reply

/-- A yes whose last letter is a long s, given without a look at the clock. -/
def longYes : Task :=
  ⟨threeDocuments, fun _ clock => ⟨.ok ⟨some "ye\u017f", .empty⟩, [], [], clock⟩⟩

/-- The long s has the same capital letter as the other s, but no small letter. -/
theorem longYes_does_not_pass :
    (∃ evaluation, (run claimAndDocument longYes.client longYes.request []).outcome =
        .ok evaluation ∧ evaluation.passed = false) ∧
      .verdictUnrecognised (some "ye\u017f") ∈
        (run claimAndDocument longYes.client longYes.request []).events := by
  have hrender : Template.render claimAndDocument
      (bindings threeDocuments.support threeDocuments.claim) = .ok "c|\x7bclaim\x7d\nd" := by
    decide +kernel
  have hprompt : Asks claimAndDocument longYes.request "c|\x7bclaim\x7d\nd" :=
    Template.render_eq_ok_iff_substituted.mp hrender
  have hreply : (longYes.client "c|\x7bclaim\x7d\nd" (Clock.read []).2).outcome =
      .ok ⟨some "ye\u017f", .empty⟩ := rfl
  have hyes : ¬ SaysYes (some "ye\u017f") := by
    rw [← smallLetters_eq_yes_iff]
    decide +kernel
  have hno : ¬ SaysNo (some "ye\u017f") := by
    rw [← smallLetters_eq_no_iff]
    decide +kernel
  obtain ⟨hjudged, hmeasured⟩ := only_bare_yes_passes hprompt hreply
  obtain ⟨evaluation, houtcome⟩ := hmeasured nofun fun _ _ h => h
  obtain ⟨hpassed, told, hevents, hreported⟩ := hjudged evaluation houtcome
  refine ⟨⟨evaluation, houtcome, Bool.eq_false_iff.mpr (mt hpassed.mp hyes)⟩, ?_⟩
  rw [hevents]
  exact List.mem_append_right _ ((hreported _).mpr ⟨rfl, hyes, hno⟩)

end ClaimCheck.Evaluation

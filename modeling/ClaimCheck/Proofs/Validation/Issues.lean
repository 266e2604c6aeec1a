import ClaimCheck.Proofs.Validation
/-!
When a check fails. It always says why: a check without an issue has a result, and the issues of a
record are those of its fields, one field after another.
-/
namespace ClaimCheck

namespace Checked
variable {α β : Type}

def issues : Checked α → List Issue
  | .ok _ => []
  | .error issues => issues

/-- A check that does not fail without an issue. -/
def Explained (checked : Checked α) : Prop :=
  checked.issues = [] → ∃ a, checked = .ok a

theorem explained_ok (a : α) : Explained (.ok a) :=
  fun _ => ⟨a, rfl⟩

theorem explained_fail (flaw : Flaw) : Explained (fail flaw : Checked α) :=
  nofun

theorem issues_eq_nil_iff {checked : Checked α} (h : checked.Explained) :
    checked.issues = [] ↔ ∃ a, checked = .ok a := by
  constructor
  · exact h
  · rintro ⟨a, rfl⟩
    rfl

theorem issues_under (step : Step) (checked : Checked α) :
    (checked.under step).issues = checked.issues.map (·.under step) := by
  cases checked <;> rfl

theorem head?_of_mem_under {step : Step} {checked : Checked α} {issue : Issue}
    (h : issue ∈ (checked.under step).issues) : issue.path.head? = some step := by
  rw [issues_under] at h
  obtain ⟨_, _, rfl⟩ := List.mem_map.mp h
  rfl

theorem issues_map (f : α → β) (checked : Checked α) :
    issues (Except.map f checked) = checked.issues := by
  cases checked <;> rfl

theorem issues_and (f : Checked (α → β)) (a : Checked α) :
    (Checked.and f a).issues = f.issues ++ a.issues := by
  cases f with
  | ok g => cases a <;> rfl
  | error issues =>
      cases a with
      | ok x => exact (List.append_nil issues).symm
      | error more => rfl

theorem Explained.under {checked : Checked α} (h : checked.Explained) (step : Step) :
    (checked.under step).Explained := by
  intro hissues
  rw [issues_under, List.map_eq_nil_iff] at hissues
  obtain ⟨a, rfl⟩ := h hissues
  exact ⟨a, rfl⟩

theorem Explained.map {checked : Checked α} (h : checked.Explained) (f : α → β) :
    Explained (Except.map f checked) := by
  intro hissues
  rw [issues_map] at hissues
  obtain ⟨a, rfl⟩ := h hissues
  exact ⟨f a, rfl⟩

theorem Explained.and {f : Checked (α → β)} {a : Checked α} (hf : f.Explained)
    (ha : a.Explained) : (Checked.and f a).Explained := by
  intro hissues
  rw [issues_and, List.append_eq_nil_iff] at hissues
  obtain ⟨g, rfl⟩ := hf hissues.1
  obtain ⟨x, rfl⟩ := ha hissues.2
  exact ⟨g x, rfl⟩

theorem Explained.bind {checked : Checked α} {next : α → Checked β} (h : checked.Explained)
    (hnext : ∀ a, (next a).Explained) : Explained (checked.bind next) := by
  cases checked with
  | ok a => exact hnext a
  | error issues =>
      intro hissues
      obtain ⟨a, ha⟩ := h hissues
      cases ha

theorem explained_collect {results : List (Checked α)} (h : ∀ r ∈ results, r.Explained)
    (position : Nat) : (collect position results).Explained := by
  induction results generalizing position with
  | nil => exact explained_ok []
  | cons result results ih =>
      obtain ⟨hresult, hresults⟩ := List.forall_mem_cons.mp h
      exact ((hresult.under _).map _).and (ih hresults (position + 1))

/-- A rejection that did not break off holds every issue. -/
theorem issues_of_named {record : String} {checked : Checked α} {rejection : Rejection}
    (h : checked.named record = .error rejection) (hwhole : rejection.breakingFlaw? = none) :
    rejection.issues = checked.issues := by
  cases checked with
  | ok a => cases h
  | error issues =>
      rw [named] at h
      split at h
      next issue hissue =>
        cases h
        have hbreaks := List.find?_some hissue
        simp only [Rejection.breakingFlaw?, List.find?_singleton, hbreaks, if_true,
          Option.map_some, reduceCtorEq] at hwhole
      next => cases h; rfl

theorem mem_issues_of_named {record : String} {checked : Checked α} {rejection : Rejection}
    (h : checked.named record = .error rejection) {issue : Issue}
    (hissue : issue ∈ rejection.issues) : issue ∈ checked.issues := by
  cases checked with
  | ok a => cases h
  | error issues =>
      rw [named] at h
      split at h
      next only honly =>
        cases h
        rw [List.mem_singleton] at hissue
        subst hissue
        exact List.mem_of_find?_eq_some honly
      next => cases h; exact hissue

end Checked

theorem Fields.issues_optional {α : Type} (fields : Fields) (name : String) (read : Reader α)
    (default : α) :
    (fields.optional name read default).issues =
      ((fields.get? name).map fun value =>
        (read value).issues.map (·.under (.name name))).getD [] := by
  unfold Fields.optional
  cases fields.get? name with
  | some value => exact Checked.issues_under _ _
  | none => rfl

/-- The issues of a field name it. -/
theorem Fields.head?_of_mem_optional {α : Type} {fields : Fields} {name : String}
    {read : Reader α} {default : α} {issue : Issue}
    (h : issue ∈ (fields.optional name read default).issues) :
    issue.path.head? = some (.name name) := by
  unfold Fields.optional at h
  split at h
  · exact Checked.head?_of_mem_under h
  · cases h

theorem Fields.head?_of_mem_required {α : Type} {fields : Fields} {name : String}
    {read : Reader α} {issue : Issue} (h : issue ∈ (fields.required name read).issues) :
    issue.path.head? = some (.name name) := by
  unfold Fields.required at h
  split at h
  · exact Checked.head?_of_mem_under h
  · exact Checked.head?_of_mem_under h

namespace Reader
open Checked (explained_ok explained_fail explained_collect)
variable {α : Type}

/-- A reader that says why it does not take a value. -/
def Explains (read : Reader α) : Prop :=
  ∀ value, (read value).Explained

theorem Explains.optional {read : Reader α} (h : read.Explains) (fields : Fields) (name : String)
    (default : α) : (fields.optional name read default).Explained := by
  unfold Fields.optional
  split
  next value _ => exact (h value).under _
  next => exact explained_ok default

theorem Explains.required {read : Reader α} (h : read.Explains) (fields : Fields)
    (name : String) : (fields.required name read).Explained := by
  unfold Fields.required
  split
  next value _ => exact (h value).under _
  next => exact (explained_fail .missing).under _

theorem explains_record {read : Fields → Checked α} (h : ∀ fields, (read fields).Explained)
    (name : String) : (record name read).Explains := by
  intro value
  unfold record
  split
  · exact h _
  · split
    · exact h _
    · exact explained_fail _
  · exact explained_fail _

theorem explains_spelled (unlike broken : Flaw) : (spelled unlike broken).Explains := by
  intro value
  unfold spelled
  split
  · exact explained_ok _
  · exact explained_fail _
  · split
    · exact explained_ok _
    · exact explained_fail _
  · exact explained_fail _

theorem explains_text : text.Explains := by
  intro value
  unfold text
  split
  · exact explained_ok _
  · exact explains_spelled _ _ _

theorem explained_integerOfNumber (x : Binary64) : (integerOfNumber x).Explained := by
  unfold integerOfNumber
  split
  · exact explained_fail _
  · split
    · split
      · exact explained_ok _
      · exact explained_fail _
    · exact explained_fail _

theorem explained_integerOfText (s : String) : (integerOfText s).Explained := by
  unfold integerOfText
  split
  · exact explained_ok _
  · exact explained_fail _
  · exact explained_fail _

theorem explains_integer : integer.Explains := by
  intro value
  unfold integer
  split
  · exact explained_ok _
  · exact explained_ok _
  · exact explained_integerOfNumber _
  · exact (explains_spelled _ _ _).bind explained_integerOfText

theorem explained_durationOfMicros (negative : Bool) (micros : Nat) :
    (durationOfMicros negative micros).Explained := by
  unfold durationOfMicros
  split
  · exact explained_fail _
  · split
    · exact explained_ok _
    · exact explained_fail _

theorem explained_durationOfSeconds (x : Binary64) : (durationOfSeconds x).Explained := by
  unfold durationOfSeconds
  split
  · exact explained_fail _
  · split
    · exact explained_durationOfMicros _ _
    · exact explained_fail _

theorem explained_durationOfText (s : String) : (durationOfText s).Explained := by
  unfold durationOfText
  split
  · exact explained_durationOfMicros _ _
  · exact explained_fail _

theorem explains_duration : duration.Explains := by
  intro value
  unfold duration
  split
  · exact explained_ok _
  · split
    · exact explained_durationOfMicros _ _
    · split
      · exact explained_fail _
      · exact explained_fail _
  · exact explained_ok _
  · exact explained_durationOfSeconds _
  · exact (explains_spelled _ _ _).bind explained_durationOfText

theorem explains_any : any.Explains :=
  explained_ok

theorem explained_textKeys (entries : List (Value × Value)) : (textKeys entries).Explained := by
  induction entries with
  | nil => exact explained_ok []
  | cons entry entries ih =>
      exact ((((explains_text entry.1).under _).under _).map _).and ih

theorem explains_mapping : mapping.Explains := by
  intro value
  unfold mapping
  split
  · exact explained_textKeys _
  · exact explained_fail _

theorem explains_tuple {read : Reader α} (h : read.Explains) : (tuple read).Explains := by
  intro value
  unfold tuple
  split
  · exact explained_collect (List.forall_mem_map.mpr fun value _ => h value) 0
  · exact explained_fail _

end Reader

end ClaimCheck

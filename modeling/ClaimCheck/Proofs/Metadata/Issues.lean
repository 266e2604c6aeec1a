import ClaimCheck.Metadata.Builder
import ClaimCheck.Proofs.Validation.Issues

namespace ClaimCheck
open Checked (issues)

theorem RateLimit.explains_reader : RateLimit.reader.Explains := by
  have hcount := Reader.explains_integer.optional
  have hreset := Reader.explains_duration.optional
  refine Reader.explains_record (fun fields => ?_) "RateLimit"
  exact (((((((hcount fields _ _).map _).and (hcount fields _ _)).and (hreset fields _ _)).and
    (hcount fields _ _)).and (hcount fields _ _)).and (hreset fields _ _))

theorem Usage.explains_reader : Usage.reader.Explains := by
  have hcount := Reader.explains_integer.optional
  refine Reader.explains_record (fun fields => ?_) "Usage"
  exact ((hcount fields _ _).map _).and (hcount fields _ _)

theorem PromptFilter.explains_reader : PromptFilter.reader.Explains := by
  refine Reader.explains_record (fun fields => ?_) Value.frozenRecord
  exact ((Reader.explains_integer.required fields _).map _).and
    (Reader.explains_any.optional fields _ _)

theorem PromptMetadata.explains_reader : PromptMetadata.reader.Explains := by
  refine Reader.explains_record (fun fields => ?_) "PromptMetadata"
  exact ((Reader.explains_tuple PromptFilter.explains_reader).optional fields _ _).map _

namespace Metadata

/-- What is found at a name: the issues of the value there, if there is one. -/
def issuesAt (name : String) (found : Value → List Issue) (fields : Fields) : List Issue :=
  ((fields.get? name).map fun value => (found value).map (·.under (.name name))).getD []

theorem head?_of_mem_issuesAt {name : String} {found : Value → List Issue} {fields : Fields}
    {issue : Issue} (h : issue ∈ issuesAt name found fields) :
    issue.path.head? = some (.name name) := by
  unfold issuesAt at h
  cases hvalue : fields.get? name with
  | none =>
      rw [hvalue] at h
      cases h
  | some value =>
      rw [hvalue] at h
      obtain ⟨_, _, rfl⟩ := List.mem_map.mp h
      rfl

theorem issuesAt_congr {name : String} {fields others : Fields}
    (h : others.get? name = fields.get? name) (found : Value → List Issue) :
    issuesAt name found others = issuesAt name found fields := by
  rw [issuesAt, issuesAt, h]

namespace Field

/-- The issues that the reader of a field finds. -/
def found : Field → Value → List Issue
  | .id, value => issues (Reader.text value)
  | .model, value => issues (Reader.text value)
  | .rateLimit, value => issues (RateLimit.reader value)
  | .usage, value => issues (Usage.reader value)
  | .promptMetadata, value => issues (PromptMetadata.reader value)

def issuesIn (field : Field) (fields : Fields) : List Issue :=
  issuesAt field.name field.found fields

/-- A value that metadata can be made from with nothing else given. -/
def Accepts (field : Field) (value : Value) : Prop :=
  ∃ m, ofFields [(field.name, value)] = .ok m

theorem name_inj {field other : Field} (h : field.name = other.name) : field = other := by
  cases field <;> cases other <;> first | rfl | exact absurd h (by decide)

end Field

def bagIssues (fields : Fields) : List Issue :=
  issuesAt "extra" (fun value => issues (Reader.mapping value)) fields

theorem issues_check (fields : Fields) :
    issues (check fields) =
      Field.issuesIn .id fields ++ Field.issuesIn .model fields ++
        Field.issuesIn .rateLimit fields ++ Field.issuesIn .usage fields ++
        Field.issuesIn .promptMetadata fields ++ bagIssues fields := by
  simp only [check, Checked.issues_and, Checked.issues_map, Fields.issues_optional]
  rfl

theorem explained_check (fields : Fields) : (check fields).Explained :=
  ((((((Reader.explains_text.optional fields _ _).map _).and
    (Reader.explains_text.optional fields _ _)).and
    (RateLimit.explains_reader.optional fields _ _)).and
    (Usage.explains_reader.optional fields _ _)).and
    (PromptMetadata.explains_reader.optional fields _ _)).and
    (Reader.explains_mapping.optional fields _ _)

/-- Metadata are made unless one of the fields has an issue. -/
theorem exists_ofFields_iff {fields : Fields} :
    (∃ m, ofFields fields = .ok m) ↔
      (∀ field : Field, field.issuesIn fields = []) ∧ bagIssues fields = [] := by
  simp only [ofFields, Checked.named_eq_ok_iff]
  rw [← Checked.issues_eq_nil_iff (explained_check fields), issues_check]
  simp only [List.append_eq_nil_iff]
  constructor
  · rintro ⟨⟨⟨⟨⟨hid, hmodel⟩, hlimit⟩, husage⟩, hprompts⟩, hbag⟩
    refine ⟨fun field => ?_, hbag⟩
    cases field with
    | id => exact hid
    | model => exact hmodel
    | rateLimit => exact hlimit
    | usage => exact husage
    | promptMetadata => exact hprompts
  · rintro ⟨hfields, hbag⟩
    exact ⟨⟨⟨⟨⟨hfields .id, hfields .model⟩, hfields .rateLimit⟩, hfields .usage⟩,
      hfields .promptMetadata⟩, hbag⟩

section Rejected
variable {fields others : Fields} {rejection : Rejection} {field : Field} {value : Value}

theorem issues_of_rejected (h : ofFields fields = .error rejection)
    (hwhole : rejection.breakingFlaw? = none) : rejection.issues = issues (check fields) :=
  Checked.issues_of_named h hwhole

/-- No field has an issue but the one that the issues name. -/
theorem issuesAt_eq_nil_of_only {name : String} {found : Value → List Issue}
    (honly : ∀ issue ∈ issues (check fields), issue.path.head? = some (.name field.name))
    (hname : name ≠ field.name)
    (hmem : ∀ issue ∈ issuesAt name found fields, issue ∈ issues (check fields)) :
    issuesAt name found fields = [] := by
  rw [List.eq_nil_iff_forall_not_mem]
  intro issue hissue
  have hhead := (head?_of_mem_issuesAt hissue).symm.trans (honly issue (hmem issue hissue))
  rw [Option.some.injEq, Step.name.injEq] at hhead
  exact hname hhead

theorem issuesIn_subset_check (field : Field) (fields : Fields) :
    field.issuesIn fields ⊆ issues (check fields) := by
  intro issue hissue
  rw [issues_check]
  simp only [List.mem_append]
  cases field with
  | id => exact .inl (.inl (.inl (.inl (.inl hissue))))
  | model => exact .inl (.inl (.inl (.inl (.inr hissue))))
  | rateLimit => exact .inl (.inl (.inl (.inr hissue)))
  | usage => exact .inl (.inl (.inr hissue))
  | promptMetadata => exact .inl (.inr hissue)

theorem bagIssues_subset_check (fields : Fields) : bagIssues fields ⊆ issues (check fields) := by
  intro issue hissue
  rw [issues_check]
  exact List.mem_append_right _ hissue

theorem Field.Accepts.issuesIn (h : field.Accepts value)
    (hvalue : others.get? field.name = some value) : field.issuesIn others = [] := by
  have hsingle : Fields.get? [(field.name, value)] field.name = some value := by
    rw [Fields.get?_cons, if_pos rfl]
  rw [← (exists_ofFields_iff.mp h).1 field]
  exact issuesAt_congr (hvalue.trans hsingle.symm) field.found

/-- Where all issues were of one field, an accepted value in its place is enough. -/
theorem exists_ofFields_of_overwritten (h : ofFields fields = .error rejection)
    (hwhole : rejection.breakingFlaw? = none)
    (honly : ∀ issue ∈ rejection.issues, issue.path.head? = some (.name field.name))
    (hvalue : field.Accepts value) (hfield : others.get? field.name = some value)
    (hothers : ∀ other : Field, other ≠ field → others.get? other.name = fields.get? other.name)
    (hbag : others.get? "extra" = fields.get? "extra") : ∃ m, ofFields others = .ok m := by
  rw [issues_of_rejected h hwhole] at honly
  rw [exists_ofFields_iff]
  constructor
  · intro other
    by_cases hother : other = field
    · subst hother
      exact hvalue.issuesIn hfield
    · rw [Field.issuesIn, issuesAt_congr (hothers other hother)]
      exact issuesAt_eq_nil_of_only honly (fun hname => hother (Field.name_inj hname))
        (issuesIn_subset_check other fields)
  · rw [bagIssues, issuesAt_congr hbag]
    exact issuesAt_eq_nil_of_only honly (by cases field <;> decide) (bagIssues_subset_check fields)

end Rejected
end Metadata
end ClaimCheck

import ClaimCheck.Evaluation.Request
import ClaimCheck.Proofs.Validation.Issues
/-!
A supporting text beside a list of documents. The list is what the request is made of, and the
text has no part in it; but the text is turned into a document before it is left aside, so one
that no document can hold keeps the request from being made. That is all that it can change.
-/
namespace ClaimCheck

/-- Fields that hold the same under every name but one. -/
def Fields.AgreeBut (name : String) (fields others : Fields) : Prop :=
  ∀ other, other ≠ name → fields.get? other = others.get? other

theorem Fields.agreeBut_cons (name : String) (value : Value) (fields : Fields) :
    Fields.AgreeBut name fields ((name, value) :: fields) := by
  intro other hother
  rw [Fields.get?_cons, if_neg (Ne.symm hother)]

theorem Fields.agreeBut_filter (name : String) (fields : Fields) :
    Fields.AgreeBut name (fields.filter fun field => field.1 != name) fields := by
  intro other hother
  induction fields with
  | nil => rfl
  | cons field rest ih =>
      obtain ⟨key, value⟩ := field
      by_cases hkey : key = name
      · subst hkey
        rw [List.filter_cons_of_neg (by simp), ih, Fields.get?_cons, if_neg (Ne.symm hother)]
      · rw [List.filter_cons_of_pos (by simpa using hkey), Fields.get?_cons, Fields.get?_cons, ih]

namespace Document

/-- What keeps a value from being the content of a document. -/
def contentFlaw? : Value → Option Flaw
  | .null | .text _ | .torn _ => none
  | .bytes bs =>
    match Text.decodeUtf8 bs with
    | .ok _ => none
    | .error _ => some .notUnicode
  | _ => some .notText

theorem read_content (value : Value) :
    (contentFlaw? value = none ∧ ∃ content, Reader.orNull Reader.text value = .ok content) ∨
      ∃ flaw, contentFlaw? value = some flaw ∧
        Reader.orNull Reader.text value = Checked.fail flaw := by
  cases value with
  | null => exact .inl ⟨rfl, _, rfl⟩
  | text s => exact .inl ⟨rfl, _, rfl⟩
  | torn s => exact .inl ⟨rfl, _, rfl⟩
  | bytes bs =>
      simp only [contentFlaw?, Reader.orNull, Reader.text, Reader.spelled]
      cases Text.decodeUtf8 bs with
      | ok s => exact .inl ⟨rfl, _, rfl⟩
      | error e => exact .inr ⟨_, rfl, rfl⟩
  | _ => exact .inr ⟨_, rfl, rfl⟩

/-- A document is made of a content alone unless there is a flaw in it. -/
theorem check_content (value : Value) :
    (contentFlaw? value = none ∧ ∃ document, check [("content", value)] = .ok document) ∨
      ∃ flaw, contentFlaw? value = some flaw ∧
        check [("content", value)] = .error [⟨[.name "content"], flaw⟩] := by
  have hget : Fields.get? [("content", value)] "content" = some value := rfl
  have hmetadata : Fields.get? [("content", value)] "metadata" = none := rfl
  simp only [check, Fields.required, Fields.optional, hget, hmetadata]
  rcases read_content value with ⟨hnone, content, hcontent⟩ | ⟨flaw, hflaw, hcontent⟩
  · rw [hcontent]
    exact .inl ⟨hnone, _, rfl⟩
  · rw [hcontent]
    exact .inr ⟨flaw, hflaw, rfl⟩

end Document

namespace EvaluationRequest
open Fields (AgreeBut)

/-- What keeps the supporting text, if there is one, from being made into a document. -/
def supportFlaw? (fields : Fields) : Option Flaw :=
  (fields.get? "supporting_data").bind Document.contentFlaw?

section
variable {fields others : Fields} {flaw : Flaw}

theorem checkPrepared_congr (h : AgreeBut "supporting_data" fields others) :
    checkPrepared fields = checkPrepared others := by
  simp only [checkPrepared, Fields.optional, Fields.required, h "user_text" (by decide),
    h "data_list" (by decide), h "response_content" (by decide)]

theorem path_of_mem_checkPrepared {issue : Issue}
    (h : issue ∈ Checked.issues (checkPrepared fields)) :
    issue.path.head? ≠ some (.name "content") := by
  simp only [checkPrepared, Checked.issues_and, Checked.issues_map, List.mem_append] at h
  rcases h with (h | h) | h
  · rw [Fields.head?_of_mem_optional h]
    decide
  · rw [Fields.head?_of_mem_optional h]
    decide
  · rw [Fields.head?_of_mem_required h]
    decide

theorem check_of_flaw (h : supportFlaw? fields = some flaw) :
    check fields = .error [⟨[.name "content"], flaw⟩] := by
  obtain ⟨support, hsupport, hflaw⟩ := Option.bind_eq_some_iff.mp h
  rcases Document.check_content support with ⟨hnone, _⟩ | ⟨other, hother, hcheck⟩
  · cases hnone.symm.trans hflaw
  · cases hother.symm.trans hflaw
    simp only [check, withSupport, hsupport, hcheck]

theorem check_of_documents (hlist : (fields.get? "data_list").isSome)
    (h : supportFlaw? fields = none) : check fields = checkPrepared fields := by
  rw [check, withSupport]
  cases hsupport : fields.get? "supporting_data" with
  | none => rfl
  | some support =>
      rw [supportFlaw?, hsupport, Option.bind_some] at h
      rcases Document.check_content support with ⟨_, document, hdocument⟩ | ⟨flaw, hflaw, _⟩
      · have hrest := Fields.agreeBut_filter "supporting_data" fields
        simp only [hdocument, hrest "data_list" (by decide), hlist, if_true]
        exact checkPrepared_congr hrest
      · cases h.symm.trans hflaw

theorem breaksOff_of_supportFlaw (h : supportFlaw? fields = some flaw) :
    flaw.breaksOff = false := by
  obtain ⟨support, _, hflaw⟩ := Option.bind_eq_some_iff.mp h
  unfold Document.contentFlaw? at hflaw
  split at hflaw
  · cases hflaw
  · cases hflaw
  · cases hflaw
  · split at hflaw <;> cases hflaw
    rfl
  · cases hflaw
    rfl

theorem ofFields_of_flaw (h : supportFlaw? fields = some flaw) :
    ofFields fields = .error ⟨"EvaluationRequest", [⟨[.name "content"], flaw⟩]⟩ := by
  simp only [ofFields, check_of_flaw h, Checked.named, List.find?_singleton,
    breaksOff_of_supportFlaw h, Bool.false_eq_true, if_false]

theorem ofFields_of_documents (hlist : (fields.get? "data_list").isSome)
    (h : supportFlaw? fields = none) :
    ofFields fields = (checkPrepared fields).named "EvaluationRequest" := by
  rw [ofFields, check_of_documents hlist h]

/-- Checks of the other fields never end with the rejection of a supporting text. -/
theorem ofFields_ne_of_flaw (hlist : (fields.get? "data_list").isSome)
    (hnone : supportFlaw? fields = none) (hflaw : supportFlaw? others = some flaw) :
    ofFields fields ≠ ofFields others := by
  intro heq
  rw [ofFields_of_documents hlist hnone, ofFields_of_flaw hflaw] at heq
  exact path_of_mem_checkPrepared
    (Checked.mem_issues_of_named heq (List.mem_singleton_self _)) rfl

theorem documents_of_ofFields {request : EvaluationRequest}
    (hlist : (fields.get? "data_list").isSome) (h : ofFields fields = .ok request) :
    supportFlaw? fields = none ∧ ∃ list, fields.get? "data_list" = some list ∧
      Reader.list Document.reader list = .ok request.documents := by
  cases hsupport : supportFlaw? fields with
  | some flaw =>
      rw [ofFields_of_flaw hsupport] at h
      cases h
  | none =>
      obtain ⟨list, hget⟩ := Option.isSome_iff_exists.mp hlist
      rw [ofFields_of_documents hlist hsupport, Checked.named_eq_ok_iff] at h
      obtain ⟨_, claim, hdocuments, _, rfl⟩ := Checked.and_eq_ok_iff.mp h
      obtain ⟨make, documents, huser, hread, rfl⟩ := Checked.and_eq_ok_iff.mp hdocuments
      obtain ⟨userText, _, rfl⟩ := (map_eq_ok_iff ..).mp huser
      rw [Fields.optional_eq_ok_iff, hget] at hread
      exact ⟨rfl, list, hget, hread⟩

end

/-- Where documents are given, a request is made of these, and a supporting text beside them,
whatever it is, changes the outcome exactly if what keeps it from being a document changes. -/
theorem documents_outweigh_support_iff {fields others : Fields}
    (hlist : (fields.get? "data_list").isSome) (hrest : AgreeBut "supporting_data" fields others) :
    (ofFields fields = ofFields others ↔ supportFlaw? fields = supportFlaw? others) ∧
      (∀ request, ofFields fields = .ok request →
        supportFlaw? fields = none ∧ ∃ list, fields.get? "data_list" = some list ∧
          Reader.list Document.reader list = .ok request.documents) ∧
      ∀ flaw, supportFlaw? fields = some flaw →
        ofFields fields = .error ⟨"EvaluationRequest", [⟨[.name "content"], flaw⟩]⟩ := by
  have hlist' : (others.get? "data_list").isSome := hrest "data_list" (by decide) ▸ hlist
  refine ⟨?_, fun request => documents_of_ofFields hlist, fun flaw => ofFields_of_flaw⟩
  cases hleft : supportFlaw? fields with
  | none =>
      cases hright : supportFlaw? others with
      | none =>
          rw [ofFields_of_documents hlist hleft, ofFields_of_documents hlist' hright,
            checkPrepared_congr hrest]
          simp only
      | some flaw => exact iff_of_false (ofFields_ne_of_flaw hlist hleft hright) nofun
  | some flaw =>
      cases hright : supportFlaw? others with
      | none =>
          exact iff_of_false (ofFields_ne_of_flaw hlist' hright hleft).symm nofun
      | some other =>
          rw [ofFields_of_flaw hleft, ofFields_of_flaw hright]
          simp only [Except.error.injEq, Rejection.mk.injEq, List.cons.injEq, Issue.mk.injEq,
            true_and, and_true, Option.some.injEq]

/-- A claim with one document that it should rest on. -/
def documented : Fields :=
  [("data_list", .list [Value.ofFields [("content", .text "d")]]), ("response_content", .text "c")]

theorem number_spoils_documents :
    (documented.get? "data_list").isSome ∧
      AgreeBut "supporting_data" documented (("supporting_data", .int 5) :: documented) ∧
      AgreeBut "supporting_data" documented (("supporting_data", .text "s") :: documented) ∧
      ofFields documented = ofFields (("supporting_data", .text "s") :: documented) ∧
      ofFields documented ≠ ofFields (("supporting_data", .int 5) :: documented) := by
  have hlist : (documented.get? "data_list").isSome := rfl
  have htext := Fields.agreeBut_cons "supporting_data" (.text "s") documented
  have hnumber := Fields.agreeBut_cons "supporting_data" (.int 5) documented
  obtain ⟨hsame, _⟩ := documents_outweigh_support_iff hlist htext
  obtain ⟨hdiffer, _⟩ := documents_outweigh_support_iff hlist hnumber
  refine ⟨hlist, hnumber, htext, hsame.mpr rfl, fun heq => ?_⟩
  cases hdiffer.mp heq

end EvaluationRequest
end ClaimCheck

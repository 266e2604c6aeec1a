import ClaimCheck.Validation.Reader

namespace ClaimCheck

/-- A piece of supporting context; there is no content when it is not text. -/
structure Document where
  content : Option String
  metadata : Fields
  deriving Repr

namespace Document

def check (fields : Fields) : Checked Document :=
  Checked.and
    ((fields.required "content" (Reader.orNull Reader.text)).map Document.mk)
    (fields.optional "metadata" Reader.mapping [])

def ofFields (fields : Fields) : Except Rejection Document :=
  (check fields).named "Document"

def reader : Reader Document :=
  Reader.record "Document" check

def fields (d : Document) : Fields :=
  [("content", match d.content with
      | some s => .text s
      | none => .null), ("metadata", Value.ofFields d.metadata)]

def toValue (d : Document) : Value :=
  .record "Document" (Value.fieldsText d.fields) d.fields

end Document

structure EvaluationRequest where
  userText : String
  documents : List Document
  claim : String
  deriving Repr

namespace EvaluationRequest

/-- The fields with a supporting text turned into a list of one document. The document is
made, and may be rejected, also when a list is given. -/
def withSupport (fields : Fields) : Checked Fields :=
  match fields.get? "supporting_data" with
  | none => .ok fields
  | some support =>
    match Document.check [("content", support)] with
    | .error issues => .error issues
    | .ok document =>
      let rest : Fields := fields.filter fun field => field.1 != "supporting_data"
      if (rest.get? "data_list").isSome then .ok rest
      else .ok (rest ++ [("data_list", .list [document.toValue])])

def checkPrepared (fields : Fields) : Checked EvaluationRequest :=
  let userText := (fields.optional "user_text" Reader.text "").map EvaluationRequest.mk
  let documents :=
    Checked.and userText (fields.optional "data_list" (Reader.list Document.reader) [])
  Checked.and documents (fields.required "response_content" Reader.text)

def check (fields : Fields) : Checked EvaluationRequest :=
  match withSupport fields with
  | .ok fields => checkPrepared fields
  | .error issues => .error issues

def ofFields (fields : Fields) : Except Rejection EvaluationRequest :=
  (check fields).named "EvaluationRequest"

def support (r : EvaluationRequest) : String :=
  "\n".intercalate (r.documents.filterMap (·.content))

end EvaluationRequest
end ClaimCheck

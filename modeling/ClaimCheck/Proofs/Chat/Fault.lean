import ClaimCheck.Proofs.Chat.Call

namespace ClaimCheck

namespace FaultKind

/-- The kind that a kind is a special case of, where it is a case of another one. -/
def base? : FaultKind → Option FaultKind
  | .timeout | .connection => some .system
  | .connectionReset => some .connection
  | .apiTimeout => some .apiConnection
  | .rateLimited | .badRequest | .unauthenticated | .permissionDenied | .notFound | .conflict
  | .unprocessable | .internalServer => some .apiStatus
  | .derived _ base => some base
  | _ => none

/-- A kind is a case of itself and of what the kind is a case of that it is derived from. -/
inductive IsA : FaultKind → FaultKind → Prop
  | refl (kind : FaultKind) : IsA kind kind
  | step {kind base other : FaultKind} (h : kind.base? = some base) (hbase : IsA base other) :
      IsA kind other

theorem IsA.of_closed {P : FaultKind → Prop} {kind other : FaultKind}
    (hP : ∀ kind base, kind.base? = some base → P base → P kind) (h : kind.IsA other)
    (hother : P other) : P kind := by
  induction h with
  | refl => exact hother
  | step h _ ih => exact hP _ _ h (ih hother)

theorem isTransient_of_base? (kind base : FaultKind) (h : kind.base? = some base)
    (hbase : base.isTransient = true) : kind.isTransient = true := by
  cases kind with
  | derived name _ => cases h; exact hbase
  | apiTimeout => rfl
  | rateLimited => rfl
  | _ => cases h <;> cases hbase

theorem isInterrupt_of_base? (kind base : FaultKind) (h : kind.base? = some base)
    (hbase : base.isInterrupt = true) : kind.isInterrupt = true := by
  cases kind with
  | derived name _ => cases h; exact hbase
  | _ => cases h <;> cases hbase

/-- The same call may succeed after the cases of two kinds and after no other. -/
theorem isTransient_iff (kind : FaultKind) :
    kind.isTransient = true ↔ kind.IsA .apiConnection ∨ kind.IsA .rateLimited := by
  constructor
  · intro h
    induction kind with
    | apiConnection => exact .inl (.refl _)
    | apiTimeout => exact .inl (.step rfl (.refl _))
    | rateLimited => exact .inr (.refl _)
    | derived name base ih => exact (ih h).imp (.step rfl) (.step rfl)
    | _ => cases h
  · rintro (h | h)
    · exact h.of_closed isTransient_of_base? rfl
    · exact h.of_closed isTransient_of_base? rfl

theorem isInterrupt_iff (kind : FaultKind) : kind.isInterrupt = true ↔ kind.IsA .interrupt := by
  constructor
  · intro h
    induction kind with
    | interrupt => exact .refl _
    | derived name base ih => exact .step rfl (ih h)
    | _ => cases h
  · intro h
    exact h.of_closed isInterrupt_of_base? rfl

end FaultKind

namespace Chat
variable {fault : ProviderFault}

theorem call_fault_failed (h : ¬ fault.kind.IsA .interrupt) (model : ChatModel) (text : String)
    (clock : Clock) :
    call model text (.fault fault) clock =
      ⟨.error (.failure (.invocation fault.message fault.kind.isTransient (some fault))),
        [.completionStarted model.model, .completionFailed model.model fault.message],
        [⟨text, model⟩], clock.read.2⟩ := by
  rw [← FaultKind.isInterrupt_iff] at h
  simp only [call, faultOutcome, if_neg h]

theorem call_fault_interrupted (h : fault.kind.IsA .interrupt) (model : ChatModel) (text : String)
    (clock : Clock) :
    call model text (.fault fault) clock =
      ⟨.error (.provider fault), [.completionStarted model.model], [⟨text, model⟩],
        clock.read.2⟩ := by
  rw [← FaultKind.isInterrupt_iff] at h
  simp only [call, faultOutcome, if_pos h]

/-- A failure that stands for a fault: it says so in its text, keeps the fault as its cause, and
may be tried again after the cases of a lost connection and of a refusal for now. -/
structure Wraps (fault : ProviderFault) (failure : Failure) : Prop where
  message : failure.message = "Failed to invoke chat model: " ++ fault.message
  cause : ∃ retriable, failure = .invocation fault.message retriable (some fault)
  retriable : failure.retriable = true ↔
    fault.kind.IsA .apiConnection ∨ fault.kind.IsA .rateLimited

theorem wraps_invocation (fault : ProviderFault) :
    Wraps fault (.invocation fault.message fault.kind.isTransient (some fault)) where
  message := rfl
  cause := ⟨_, rfl⟩
  retriable := fault.kind.isTransient_iff

end Chat
end ClaimCheck

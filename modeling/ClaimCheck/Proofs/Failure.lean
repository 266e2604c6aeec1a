import ClaimCheck.Failure
/-!
What ends an operation that is made of others. A step that fails ends the whole with what it
failed with, and only some of what can be raised is reported to the user as a failure.
-/
namespace ClaimCheck

section Steps
variable {ε δ α β : Type}

theorem bind_eq_ok_iff {first : Except ε α} {next : α → Except ε β} {b : β} :
    (first >>= next) = .ok b ↔ ∃ a, first = .ok a ∧ next a = .ok b := by
  cases first with
  | error e => exact ⟨nofun, nofun⟩
  | ok a => exact ⟨fun h => ⟨a, rfl, h⟩, fun ⟨_, ha, h⟩ => Except.ok.inj ha ▸ h⟩

theorem bind_eq_error_iff {first : Except ε α} {next : α → Except ε β} {e : ε} :
    (first >>= next) = .error e ↔
      first = .error e ∨ ∃ a, first = .ok a ∧ next a = .error e := by
  cases first with
  | error other =>
      constructor
      · intro h; cases h; exact .inl rfl
      · rintro (h | ⟨a, ha, _⟩)
        · cases h; rfl
        · cases ha
  | ok a =>
      constructor
      · intro h; exact .inr ⟨a, rfl, h⟩
      · rintro (h | ⟨_, ha, h⟩)
        · cases h
        · cases ha; exact h

theorem map_eq_ok_iff {f : α → β} {result : Except ε α} {b : β} :
    Except.map f result = .ok b ↔ ∃ a, result = .ok a ∧ b = f a := by
  cases result with
  | error e => exact ⟨nofun, nofun⟩
  | ok a =>
      constructor
      · intro h; exact ⟨a, rfl, (Except.ok.inj h).symm⟩
      · rintro ⟨_, ha, rfl⟩
        cases ha
        rfl

theorem mapError_eq_ok_iff {wrap : ε → δ} {result : Except ε α} {a : α} :
    result.mapError wrap = .ok a ↔ result = .ok a := by
  cases result with
  | error e => exact ⟨nofun, nofun⟩
  | ok b => exact ⟨fun h => Except.ok.inj h ▸ rfl, fun h => Except.ok.inj h ▸ rfl⟩

theorem mapError_eq_error_iff {wrap : ε → δ} {result : Except ε α} {raised : δ} :
    result.mapError wrap = .error raised ↔ ∃ e, result = .error e ∧ raised = wrap e := by
  cases result with
  | error e =>
      constructor
      · intro h; cases h; exact ⟨e, rfl, rfl⟩
      · rintro ⟨_, he, rfl⟩
        cases he
        rfl
  | ok a => exact ⟨nofun, nofun⟩

theorem ok_of_toOption {result : Except ε α} {a : α} (h : result.toOption = some a) :
    result = .ok a := by
  cases result with
  | error e => cases h
  | ok b => exact congrArg Except.ok (Option.some.inj h)

end Steps

namespace Raised

/-- A failure of this library's own work, which carries a message. -/
def IsFailure (raised : Raised) : Prop :=
  ∃ failure, raised = .failure failure

/-- What a check reports to the user: its own failures and an interrupted call. Anything else
escapes it. -/
def Reported : Raised → Prop
  | .failure _ => True
  | .provider fault => fault.kind.isInterrupt = true
  | _ => False

/-- What a file raises that is not opened, or whose contents hold no data and are not just
malformed. -/
def OfFile : Raised → Prop
  | .refused _ _ | .undecodable _ | .scalar _ | .nestedTooDeep => True
  | _ => False

theorem OfFile.not_reported {raised : Raised} (h : raised.OfFile) : ¬ raised.Reported := by
  cases raised with
  | refused | undecodable | scalar | nestedTooDeep => exact id
  | _ => exact h.elim

theorem IsFailure.reported {raised : Raised} (h : raised.IsFailure) : raised.Reported := by
  obtain ⟨failure, rfl⟩ := h
  exact trivial

/-- What a load announces: there is no file, it refers to unset variables, or it holds no valid
configuration. -/
inductive OfLoad : Raised → Prop
  | notFound (path : String) : OfLoad (.failure (.configNotFound path))
  | unset (names : List String) (h : names ≠ []) : OfLoad (.failure (.variablesNotSet names))
  | invalid (flaw : ConfigFlaw) : OfLoad (.failure (.configInvalid flaw))

/-- Every failure of a load says in its first words that something failed. -/
theorem OfLoad.message {raised : Raised} (h : raised.OfLoad) :
    ∃ failure reason, raised = .failure failure ∧ failure.message = "Failed to " ++ reason := by
  cases h with
  | notFound path =>
      refine ⟨_, "load config: file not found: " ++ Path.normalized path, rfl, ?_⟩
      rw [← String.append_assoc]
      rfl
  | unset names _ =>
      refine ⟨_, "load config: missing environment variables: " ++
        ", ".intercalate (Text.sorted names), rfl, ?_⟩
      rw [← String.append_assoc]
      rfl
  | invalid flaw =>
      refine ⟨_, "validate config: " ++ flaw.reason, rfl, ?_⟩
      rw [← String.append_assoc]
      rfl

theorem OfLoad.isFailure {raised : Raised} (h : raised.OfLoad) : raised.IsFailure := by
  obtain ⟨failure, _, hraised, _⟩ := h.message
  exact ⟨failure, hraised⟩

theorem OfFile.not_ofLoad {raised : Raised} (h : raised.OfFile) : ¬ raised.OfLoad := by
  intro hload
  exact h.not_reported hload.isFailure.reported

end Raised
end ClaimCheck

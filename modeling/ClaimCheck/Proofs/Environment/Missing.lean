import ClaimCheck.Environment
/-!
The report of unset variables against the interpolation itself. Both walk the same tree, but
the report reads its leaves while the interpolation builds a new tree and stops at the first
name without a value. They agree: an interpolation fails exactly where the report names a
variable, and with the first name of the report.
-/
namespace ClaimCheck.Environment
open Text (Rune runes)

/-- A result that is missing exactly when there are unset names, for the sake of the first. -/
def FailsWithFirst {α : Type} (names : List String) (result : Except String α) : Prop :=
  ∀ name, result = .error name ↔ names.head? = some name

theorem FailsWithFirst.ok {α : Type} (a : α) : FailsWithFirst [] (.ok a) := by
  intro name
  constructor
  · intro h; cases h
  · intro h; cases h

theorem FailsWithFirst.error {α : Type} (name : String) (names : List String) :
    FailsWithFirst (name :: names) (.error name : Except String α) := by
  intro other
  simp only [Except.error.injEq, List.head?_cons, Option.some.injEq]

theorem FailsWithFirst.map {α β : Type} {names : List String} {result : Except String α}
    (h : FailsWithFirst names result) (f : α → β) : FailsWithFirst names (result.map f) := by
  intro name
  rw [← h name]
  cases result with
  | ok a => exact ⟨nofun, nofun⟩
  | error other => simp only [Except.map, Except.error.injEq]

theorem FailsWithFirst.eq_nil {α : Type} {names : List String} {a : α}
    (h : FailsWithFirst names (.ok a)) : names = [] := by
  cases names with
  | nil => rfl
  | cons name names => cases (h name).mpr rfl

/-- What runs second reports only where the first part has nothing to report. -/
theorem FailsWithFirst.bind {α β : Type} {names more : List String}
    {result : Except String α} {next : α → Except String β}
    (h : FailsWithFirst names result) (k : ∀ a, FailsWithFirst more (next a)) :
    FailsWithFirst (names ++ more) (result >>= next) := by
  cases result with
  | ok a =>
      rw [h.eq_nil, List.nil_append]
      exact k a
  | error first =>
      have hfirst : names.head? = some first := (h first).mp rfl
      intro name
      change Except.error first = Except.error name ↔ _
      rw [List.head?_append, hfirst, Option.some_or, Except.error.injEq, Option.some.injEq]

/-- The unset names that a text refers to without a fallback, with repetitions. -/
def unsetIn (env : Environment) (text : List Rune) : List String :=
  (segments text).filterMap (·.unset? env)

theorem Segment.resolve_fails (env : Environment) (segment : Segment) :
    FailsWithFirst (segment.unset? env).toList (segment.resolve env) := by
  cases segment with
  | literal c => exact .ok [c]
  | reference r =>
      obtain ⟨name, fallback⟩ := r
      cases hv : env.get? (String.ofList name) with
      | some value =>
          have hnone : (Segment.reference ⟨name, fallback⟩).unset? env = none := by
            cases fallback with
            | none => simp only [Segment.unset?, hv, Option.isSome_some, if_true]
            | some text => rfl
          simp only [hnone, Segment.resolve, hv]
          exact .ok (runes value)
      | none =>
          cases fallback with
          | none =>
              have hsome : (Segment.reference ⟨name, none⟩).unset? env =
                  some (String.ofList name) := by
                simp only [Segment.unset?, hv, Option.isSome_none, Bool.false_eq_true, if_false]
              simp only [hsome, Segment.resolve, hv]
              exact .error (String.ofList name) []
          | some text =>
              simp only [Segment.resolve, hv]
              exact .ok text

theorem resolveAll_fails (env : Environment) (pieces : List Segment) :
    FailsWithFirst (pieces.filterMap (·.unset? env)) (resolveAll env pieces) := by
  induction pieces with
  | nil => exact .ok []
  | cons piece rest ih =>
      have hnames : (piece :: rest).filterMap (·.unset? env) =
          (piece.unset? env).toList ++ rest.filterMap (·.unset? env) := by
        cases h : piece.unset? env <;> simp [h]
      rw [hnames]
      exact (Segment.resolve_fails env piece).bind fun here => ih.map fun after => here ++ after

theorem interpolateText_fails (env : Environment) (text : List Rune) :
    FailsWithFirst (unsetIn env text) (interpolateText env text) :=
  resolveAll_fails env (segments text)

-- The three functions that interpolate call one another, and so do the three that list the
-- texts; the cases below are those of both.
mutual

theorem interpolate_fails (env : Environment) (data : Value) :
    FailsWithFirst ((texts data).flatMap (unsetIn env)) (interpolate env data) := by
  match data with
  | .text s =>
      rw [texts, List.flatMap_singleton]
      exact (interpolateText_fails env (runes s)).map Value.ofRunes
  | .torn t =>
      rw [texts, List.flatMap_singleton]
      exact (interpolateText_fails env t.runes).map Value.ofRunes
  | .list xs => exact (interpolateAll_fails env xs).map Value.list
  | .map entries => exact (interpolateEntries_fails env entries).map Value.map
  | .null | .bool _ | .int _ | .float _ | .nan _ | .bytes _ | .duration _ | .moment _
  | .tuple _ | .set _ | .record _ _ _ => exact .ok _

theorem interpolateAll_fails (env : Environment) (xs : List Value) :
    FailsWithFirst ((textsOfAll xs).flatMap (unsetIn env)) (interpolateAll env xs) := by
  match xs with
  | [] => exact .ok []
  | x :: xs =>
      rw [textsOfAll, List.flatMap_append]
      exact (interpolate_fails env x).bind fun here =>
        (interpolateAll_fails env xs).map fun after => here :: after

theorem interpolateEntries_fails (env : Environment) (entries : List (Value × Value)) :
    FailsWithFirst ((textsOfEntries entries).flatMap (unsetIn env))
      (interpolateEntries env entries) := by
  match entries with
  | [] => exact .ok []
  | (key, value) :: entries =>
      rw [textsOfEntries, List.flatMap_append]
      exact (interpolate_fails env value).bind fun here =>
        (interpolateEntries_fails env entries).map fun after => (key, here) :: after

end

/-- Leaving out repetitions keeps the first name. -/
theorem head?_firstAppearances (names : List String) :
    (firstAppearances [] names).head? = names.head? := by
  cases names with
  | nil => rfl
  | cons name names =>
      simp only [firstAppearances, List.contains_nil, Bool.false_eq_true, if_false, List.head?_cons]

theorem interpolate_eq_error_iff (env : Environment) (data : Value) (name : String) :
    interpolate env data = .error name ↔ (missing env data).head? = some name := by
  rw [missing, head?_firstAppearances]
  exact interpolate_fails env data name

theorem interpolate_ok_of_missing_nil {env : Environment} {data : Value}
    (h : missing env data = []) : ∃ result, interpolate env data = .ok result := by
  cases hi : interpolate env data with
  | ok result => exact ⟨result, rfl⟩
  | error name =>
      have hhead := (interpolate_eq_error_iff env data name).mp hi
      rw [h] at hhead
      cases hhead

end ClaimCheck.Environment

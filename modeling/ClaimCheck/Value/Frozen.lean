import ClaimCheck.Value.Equality
/-!
Frozen values: a stand-in that holds no list and no mapping. A mapping becomes the set of
its entries and a list becomes a tuple, so two values with equal stand-ins may still
differ in whether a sequence is a list. Only frozen values can be hashed; a record is hashed
by its fields, which are frozen where the record holds what a provider sent.
-/
namespace ClaimCheck.Value

mutual

def freeze : Value → Value
  | .map entries => .set (freezeEntries entries)
  | .list xs => .tuple (freezeAll xs)
  | .tuple xs => .tuple (freezeAll xs)
  | .set xs => .set (freezeAll xs)
  | value => value

def freezeAll : List Value → List Value
  | [] => []
  | x :: xs => freeze x :: freezeAll xs

/-- Each entry as a pair of its key and its frozen value. -/
def freezeEntries : List (Value × Value) → List Value
  | [] => []
  | (key, value) :: entries => .tuple [key, freeze value] :: freezeEntries entries

end

theorem freezeAll_eq_map (xs : List Value) : freezeAll xs = xs.map freeze := by
  induction xs with
  | nil => rfl
  | cons x xs ih => simp [freezeAll, ih]

/-- The record that is hashed by its frozen fields. -/
def frozenRecord : String := "PromptFilterMetadata"

mutual

/-- The kind of the first part of a value that keeps it from being hashed, as it is or
frozen. -/
def unhashable? (frozen : Bool) : Value → Option String
  | .list xs => if frozen then unhashableAmong? true xs else some (kindName (.list xs))
  | .set xs => if frozen then unhashableAmong? true xs else some (kindName (.set xs))
  | .map entries =>
    if frozen then unhashableEntry? entries else some (kindName (.map entries))
  | .tuple xs => unhashableAmong? frozen xs
  | .record name _ fields => unhashableField? (name == frozenRecord) fields
  | _ => none

def unhashableAmong? (frozen : Bool) : List Value → Option String
  | [] => none
  | x :: xs => match unhashable? frozen x with
    | some kind => some kind
    | none => unhashableAmong? frozen xs

def unhashableEntry? : List (Value × Value) → Option String
  | [] => none
  | (_, value) :: entries => match unhashable? true value with
    | some kind => some kind
    | none => unhashableEntry? entries

def unhashableField? (frozen : Bool) : List (String × Value) → Option String
  | [] => none
  | (_, value) :: fields => match unhashable? frozen value with
    | some kind => some kind
    | none => unhashableField? frozen fields

end

end ClaimCheck.Value

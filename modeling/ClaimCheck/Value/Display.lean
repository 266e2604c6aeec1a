import ClaimCheck.Value

namespace ClaimCheck.Value

def momentText (m : Moment) : String :=
  let pad (width n : Nat) : String :=
    let digits := toString n
    String.ofList (List.replicate (width - digits.length) '0') ++ digits
  let day := pad 4 m.year ++ "-" ++ pad 2 m.month ++ "-" ++ pad 2 m.day
  match m.micros with
  | none => day
  | some micros =>
    let seconds := micros / 1000000
    let part := micros % 1000000
    day ++ " " ++ pad 2 (seconds / 3600) ++ ":" ++ pad 2 (seconds / 60 % 60) ++ ":"
      ++ pad 2 (seconds % 60) ++ (if part = 0 then "" else "." ++ pad 6 part)

mutual

def inner : Value → String
  | .null => "None"
  | .bool b => if b then "True" else "False"
  | .int n => toString n
  | .float x => x.render
  | .nan _ => Binary64.render .nan
  | .text s => Text.quoted s
  | .torn t => Text.quotedRunes t.runes
  | .bytes bs => "b" ++ Text.quoted (String.ofList (bs.map fun b => Char.ofNat b.toNat))
  | .duration d => d.inParts
  | .moment m => momentText m
  | .list xs => "[" ++ ", ".intercalate (innerAll xs) ++ "]"
  | .tuple xs =>
    match innerAll xs with
    | [only] => "(" ++ only ++ ",)"
    | shown => "(" ++ ", ".intercalate shown ++ ")"
  | .set xs =>
    match innerAll xs with
    | [] => "set()"
    | shown => "\x7b" ++ ", ".intercalate shown ++ "\x7d"
  | .map entries => "\x7b" ++ ", ".intercalate (innerEntries entries) ++ "\x7d"
  | .record name _ fields => name ++ "(" ++ ", ".intercalate (innerFields fields) ++ ")"

def innerAll : List Value → List String
  | [] => []
  | x :: xs => inner x :: innerAll xs

def innerEntries : List (Value × Value) → List String
  | [] => []
  | (key, value) :: entries => (inner key ++ ": " ++ inner value) :: innerEntries entries

def innerFields : List (String × Value) → List String
  | [] => []
  | (name, value) :: fields => (name ++ "=" ++ inner value) :: innerFields fields

end

def display : Value → String
  | .text s => s
  | .torn t => t.text
  | .duration d => d.text
  | .record _ shown _ => shown
  | value => inner value

/-- The text of a record without one of its own: its fields one after another. -/
def fieldsText (fields : List (String × Value)) : String :=
  " ".intercalate (innerFields fields)

end ClaimCheck.Value

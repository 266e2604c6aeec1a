import ClaimCheck.Environment
import ClaimCheck.Number.Numeral
import ClaimCheck.Text.Rune
/-!
Where lines are put out for the user. The environment may say how large the screen is, and a line
that is too long for it is spread over several.
-/
namespace ClaimCheck

/-- What is written for a line. -/
abbrev Console := String → String

namespace Console

/-- Digits that are not decimal, such as those of powers: code points in runs, first and last. -/
def figureRuns : List (Nat × Nat) :=
  [
    (0xb2, 0xb3), (0xb9, 0xb9), (0x1369, 0x1371), (0x19da, 0x19da), (0x2070, 0x2070),
    (0x2074, 0x2079), (0x2080, 0x2089), (0x2460, 0x2468), (0x2474, 0x247c), (0x2488, 0x2490),
    (0x24ea, 0x24ea), (0x24f5, 0x24fd), (0x24ff, 0x24ff), (0x2776, 0x277e), (0x2780, 0x2788),
    (0x278a, 0x2792), (0x10a40, 0x10a43), (0x10e60, 0x10e68), (0x11052, 0x1105a),
    (0x1f100, 0x1f10a)]

def isDigit (c : Char) : Bool :=
  (Text.decimalDigit? c).isSome
    || figureRuns.any fun run => run.1 ≤ c.toNat && c.toNat ≤ run.2

def maxDigits : Nat := 4300

/-- The number that digits write, all of which have to be decimal. -/
def numberOf (digits : String) : Except String Nat :=
  let (values, rest) := Numeral.spanDigits Text.decimalDigit? digits.toList
  if maxDigits < values.length then
    .error ("Exceeds the limit (4300 digits) for integer string conversion: value has "
      ++ toString values.length
      ++ " digits; use sys.set_int_max_str_digits() to increase the limit")
  else if rest.isEmpty then .ok (Numeral.valueOf 0 values)
  else
    .error ("invalid literal for int() with base 10: "
      ++ String.ofList ((Text.quoted digits).toList.take 200))

/-- A number of columns or lines, if the environment gives one. What is no row of digits is passed
over. -/
def extent? (env : Environment) (name : String) : Except String (Option Nat) :=
  match env.get? name with
  | some value =>
    if !value.isEmpty && value.toList.all isDigit then (numberOf value).map some else .ok none
  | none => .ok none

def words : List Char → List (List Char)
  | [] => []
  | c :: cs =>
    match words cs with
    | (d :: word) :: rest =>
      if c = ' ' ∧ d ≠ ' ' then [c] :: (d :: word) :: rest else (c :: d :: word) :: rest
    | _ => [[c]]

def blanksBehind (cs : List Char) : Nat :=
  (cs.reverse.takeWhile (· == ' ')).length

def pieces (width : Nat) : (bound : Nat) → List Char → List (List Char)
  | 0, word => [word]
  | bound + 1, word =>
    if word.length ≤ width then [word]
    else word.take width :: pieces width bound (word.drop width)

/-- Puts words on lines, of which the current one is given. Blanks behind a word need no room. -/
def fill (width : Nat) : (current : List Char) → List (List Char) → List (List Char)
  | current, [] => [current]
  | current, word :: rest =>
    let needed := word.length - blanksBehind word
    if current.length + needed ≤ width then fill width (current ++ word) rest
    else if needed ≤ width then current :: fill width word rest
    else
      let parts := pieces width word.length word
      (if current.isEmpty then [] else [current]) ++ parts.dropLast
        ++ fill width (parts.getLast?.getD []) rest

def crop (width : Nat) (line : List Char) : List Char :=
  line.take (max width (line.length - blanksBehind line))

/-- A screen without columns shows nothing. -/
def ofWidth (width : Nat) : Console := fun line =>
  if width = 0 then ""
  else
    let lines := (fill width [] (words line.toList)).map (crop width)
    String.ofList (lines.flatMap (· ++ ['\n']))

def defaultWidth : Nat := 80

/-- The console of a program that writes to a file or to another program, with no colours asked
for. -/
def plain (env : Environment) : Except String Console := do
  let columns ← extent? env "COLUMNS"
  let _ ← extent? env "LINES"
  return ofWidth (columns.getD defaultWidth)

end Console
end ClaimCheck

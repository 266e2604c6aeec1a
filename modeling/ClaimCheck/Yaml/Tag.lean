namespace ClaimCheck.Yaml

inductive Tag where
  | null
  | bool
  | int
  | float
  | binary
  | timestamp
  | omap
  | pairs
  | set
  | str
  | seq
  | map
  | merge
  | value
  | unknown
  deriving DecidableEq, Repr

namespace Tag

def commonOpening : List Char := "tag:yaml.org,2002:".toList

def ofName (name : List Char) : Tag :=
  let known : List (String × Tag) :=
    [("null", .null), ("bool", .bool), ("int", .int), ("float", .float), ("binary", .binary),
      ("timestamp", .timestamp), ("omap", .omap), ("pairs", .pairs), ("set", .set),
      ("str", .str), ("seq", .seq), ("map", .map), ("merge", .merge), ("value", .value)]
  ((known.find? fun entry => commonOpening ++ entry.1.toList == name).map (·.2)).getD .unknown

end Tag

/-! ## Forms of plain scalars -/

namespace Form

def isDigit (c : Char) : Bool := '0' ≤ c && c ≤ '9'

def isDigitOrLine (c : Char) : Bool := isDigit c || c == '_'

def isHexDigit (c : Char) : Bool :=
  isDigit c || ('a' ≤ c && c ≤ 'f') || ('A' ≤ c && c ≤ 'F')

def unsigned : List Char → List Char
  | '-' :: cs => cs
  | '+' :: cs => cs
  | cs => cs

/-- A text whose first character and whose others are of given classes. -/
def startsWith (first others : Char → Bool) : List Char → Bool
  | [] => false
  | c :: cs => first c && cs.all others

def splitAt {α : Type} [DecidableEq α] (mark : α) : List α → List (List α)
  | [] => [[]]
  | a :: as =>
    if a = mark then [] :: splitAt mark as
    else
      match splitAt mark as with
      | part :: parts => (a :: part) :: parts
      | [] => [[a]]

/-- The text without a line feed at its end, unless it is nothing else. -/
def withoutFinalBreak (cs : List Char) : List Char :=
  if 1 < cs.length && cs.getLast? == some '\n' then cs.dropLast else cs

/-- A part of a number in base sixty: at most two digits, below sixty. -/
def isSixtieth : List Char → Bool
  | [c] => isDigit c
  | [c, d] => '0' ≤ c && c ≤ '5' && isDigit d
  | _ => false

def isSexagesimal (first : Char → Bool) (cs : List Char) : Bool :=
  match splitAt ':' cs with
  | part :: rest => !rest.isEmpty && startsWith first isDigitOrLine part && rest.all isSixtieth
  | [] => false

def isNonZeroDigit (c : Char) : Bool := '1' ≤ c && c ≤ '9'

def isInteger (cs : List Char) : Bool :=
  let body := unsigned cs
  let prefixed := match body with
    | ['0'] => true
    | '0' :: 'b' :: bits => !bits.isEmpty && bits.all fun c => c == '0' || c == '1' || c == '_'
    | '0' :: 'x' :: digits => !digits.isEmpty && digits.all fun c => isHexDigit c || c == '_'
    | '0' :: digits => digits.all fun c => ('0' ≤ c && c ≤ '7') || c == '_'
    | _ => false
  prefixed || startsWith isNonZeroDigit isDigitOrLine body || isSexagesimal isNonZeroDigit body

def isPower : List Char → Bool
  | [] => true
  | mark :: sign :: digits =>
    (mark == 'e' || mark == 'E') && (sign == '-' || sign == '+') && !digits.isEmpty
      && digits.all isDigit
  | _ => false

/-- A number with a point and an optional power of ten, in base ten or sixty, or the name
of infinity or of not-a-number after a point. -/
def isFloat (cs : List Char) : Bool :=
  let body := unsigned cs
  let before := body.takeWhile (· != '.')
  match body.drop before.length with
  | '.' :: after =>
    let power := after.dropWhile isDigitOrLine
    let plain := startsWith isDigit isDigitOrLine before && isPower power
    let sixty := isSexagesimal isDigit before && power.isEmpty
    let fraction := before.isEmpty && body.length == cs.length
      && (after.head?.map isDigit).getD false && isPower power
    let infinity := before.isEmpty && ["inf", "Inf", "INF"].any fun w => w.toList == after
    let nan := before.isEmpty && body.length == cs.length
      && ["nan", "NaN", "NAN"].any fun w => w.toList == after
    plain || sixty || fraction || infinity || nan
  | _ => false

def boolWords : List String :=
  ["yes", "Yes", "YES", "no", "No", "NO", "true", "True", "TRUE", "false", "False", "FALSE",
    "on", "On", "ON", "off", "Off", "OFF"]

def isOneOf (words : List String) (cs : List Char) : Bool :=
  words.any fun w => w.toList == cs

def isNull (cs : List Char) : Bool :=
  cs.isEmpty || isOneOf ["~", "null", "Null", "NULL"] cs

end Form
end ClaimCheck.Yaml

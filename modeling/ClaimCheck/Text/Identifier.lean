namespace ClaimCheck.Text

def isLetter (c : Char) : Bool :=
  ('a' ≤ c && c ≤ 'z') || ('A' ≤ c && c ≤ 'Z')

def startsIdentifier (c : Char) : Bool :=
  isLetter c || c == '_'

def continuesIdentifier (c : Char) : Bool :=
  startsIdentifier c || ('0' ≤ c && c ≤ '9')

def isIdentifier : List Char → Bool
  | [] => false
  | c :: cs => startsIdentifier c && cs.all continuesIdentifier

def takeIdentifier? : List Char → Option (List Char × List Char)
  | [] => none
  | c :: cs =>
    if startsIdentifier c then
      some (c :: cs.takeWhile continuesIdentifier, cs.dropWhile continuesIdentifier)
    else none

/-- A name put in its place among ascending names, unless it is there already. -/
def insertName (name : String) : List String → List String
  | [] => [name]
  | other :: rest =>
    if name = other then other :: rest
    else if name < other then name :: other :: rest
    else other :: insertName name rest

/-- The names in ascending order of their code points, each once. -/
def ascending (names : List String) : List String :=
  names.foldr insertName []

def insertRepeated (name : String) : List String → List String
  | [] => [name]
  | other :: rest =>
    if other < name then other :: insertRepeated name rest else name :: other :: rest

/-- The names in ascending order of their code points, repetitions kept. -/
def sorted (names : List String) : List String :=
  names.foldr insertRepeated []

end ClaimCheck.Text

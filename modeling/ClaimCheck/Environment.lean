import ClaimCheck.Value
import ClaimCheck.Text.Identifier
/-!
References to environment variables inside the texts of a configuration: `${NAME}`, or
`${NAME:-text}` with a fallback. One scan finds the references; reporting the unset ones
and putting the values in both read its result.
-/
namespace ClaimCheck

abbrev Environment := List (String × String)

def Environment.get? (env : Environment) (name : String) : Option String :=
  (env.find? (·.1 == name)).map (·.2)

namespace Environment
open Text (Rune runes)

structure Reference where
  name : List Char
  fallback : Option (List Rune)
  deriving DecidableEq, Repr

def Reference.source (r : Reference) : List Rune :=
  [.char '$', .char '{'] ++ r.name.map .char
    ++ (match r.fallback with
      | none => []
      | some text => [.char ':', .char '-'] ++ text)
    ++ [.char '}']

def leading : List Rune → List Char
  | .char c :: rs => c :: leading rs
  | _ => []

def takeName? (rs : List Rune) : Option (List Char × List Rune) :=
  (Text.takeIdentifier? (leading rs)).map fun (name, _) => (name, rs.drop name.length)

/-- The reference whose dollar sign stands just before a text. -/
def referenceAfterDollar? : List Rune → Option Reference
  | .char '{' :: rs =>
    match takeName? rs with
    | some (name, .char '}' :: _) => some ⟨name, none⟩
    | some (name, .char ':' :: .char '-' :: rest) =>
      if rest.contains (.char '}') then some ⟨name, some (rest.takeWhile (· != .char '}'))⟩
      else none
    | _ => none
  | _ => none

inductive Segment where
  | literal (r : Rune)
  | reference (r : Reference)
  deriving DecidableEq, Repr

def Segment.source : Segment → List Rune
  | .literal r => [r]
  | .reference r => r.source

/-- The pieces of a text after passing over some of its runes. -/
def scan : (skip : Nat) → List Rune → List Segment
  | _, [] => []
  | skip + 1, _ :: rs => scan skip rs
  | 0, r :: rs =>
    match if r = .char '$' then referenceAfterDollar? rs else none with
    | some ref => .reference ref :: scan (ref.source.length - 1) rs
    | none => .literal r :: scan 0 rs

def segments (text : List Rune) : List Segment :=
  scan 0 text

/-- The name that a piece refers to without a fallback while it is unset. -/
def Segment.unset? (env : Environment) : Segment → Option String
  | .reference ⟨name, none⟩ =>
    let name := String.ofList name
    if (env.get? name).isSome then none else some name
  | _ => none

def Segment.resolve (env : Environment) : Segment → Except String (List Rune)
  | .literal r => .ok [r]
  | .reference ⟨name, fallback⟩ =>
    match env.get? (String.ofList name), fallback with
    | some value, _ => .ok (runes value)
    | none, some text => .ok text
    | none, none => .error (String.ofList name)

def resolveAll (env : Environment) : List Segment → Except String (List Rune)
  | [] => .ok []
  | segment :: rest => do
    let here ← segment.resolve env
    let after ← resolveAll env rest
    return here ++ after

/-- A text with its references replaced; nothing that is put in is scanned again. -/
def interpolateText (env : Environment) (text : List Rune) : Except String (List Rune) :=
  resolveAll env (segments text)

mutual

/-- The texts at the leaves of lists and mappings, depth first. -/
def texts : Value → List (List Rune)
  | .text s => [runes s]
  | .torn t => [t.runes]
  | .list xs => textsOfAll xs
  | .map entries => textsOfEntries entries
  | _ => []

def textsOfAll : List Value → List (List Rune)
  | [] => []
  | x :: xs => texts x ++ textsOfAll xs

def textsOfEntries : List (Value × Value) → List (List Rune)
  | [] => []
  | (_, value) :: entries => texts value ++ textsOfEntries entries

end

def Segment.name? : Segment → Option String
  | .reference r => some (String.ofList r.name)
  | .literal _ => none

def names (data : Value) : List String :=
  (texts data).flatMap fun text => (segments text).filterMap Segment.name?

/-- The names without those that already stood before. -/
def firstAppearances (seen : List String) : List String → List String
  | [] => []
  | name :: names =>
    if seen.contains name then firstAppearances seen names
    else name :: firstAppearances (name :: seen) names

/-- The unset names that are referred to without a fallback, in order of first appearance. -/
def missing (env : Environment) (data : Value) : List String :=
  firstAppearances []
    ((texts data).flatMap fun text => (segments text).filterMap (·.unset? env))

mutual

/-- A value with the references in its texts replaced, or the first unset name. Keys,
tuples and sets are left alone. A torn text without its halves is a text like others. -/
def interpolate (env : Environment) : Value → Except String Value
  | .text s => (interpolateText env (runes s)).map .ofRunes
  | .torn t => (interpolateText env t.runes).map .ofRunes
  | .list xs => (interpolateAll env xs).map .list
  | .map entries => (interpolateEntries env entries).map .map
  | value => .ok value

def interpolateAll (env : Environment) : List Value → Except String (List Value)
  | [] => .ok []
  | x :: xs => do
    let here ← interpolate env x
    let after ← interpolateAll env xs
    return here :: after

def interpolateEntries (env : Environment) :
    List (Value × Value) → Except String (List (Value × Value))
  | [] => .ok []
  | (key, value) :: entries => do
    let here ← interpolate env value
    let after ← interpolateEntries env entries
    return (key, here) :: after

end

end Environment
end ClaimCheck

import ClaimCheck.Files
/-!
The command line of a check. Options and the one argument come in any order, the last
value of an option counts, and two dashes end the options.
-/
namespace ClaimCheck.Check

structure Options where
  config : String
  document : String
  claim : String
  bespoke : Bool
  logFormat : String
  deriving DecidableEq, Repr

structure Reading where
  arguments : List String
  document : Option String
  claim : Option String
  bespoke : Bool
  logFormat : String
  deriving Repr

inductive OptionName where
  | document
  | claim
  | bespoke
  | logFormat
  deriving DecidableEq, Repr

namespace OptionName

def ofLong? (name : List Char) : Option OptionName :=
  let known : List (String × OptionName) :=
    [("--document", .document), ("--claim", .claim), ("--bespoke-minicheck", .bespoke),
      ("--log-format", .logFormat)]
  (known.find? fun entry => entry.1.toList == name).map (·.2)

def ofShort? : Char → Option OptionName
  | 'd' => some .document
  | 'c' => some .claim
  | _ => none

def takesValue : OptionName → Bool
  | .bespoke => false
  | _ => true

end OptionName

def Reading.set (r : Reading) (name : OptionName) (value : String) : Reading :=
  match name with
  | .document => { r with document := some value }
  | .claim => { r with claim := some value }
  | .bespoke => { r with bespoke := true }
  | .logFormat => { r with logFormat := value }

inductive Dashed where
  /-- An option with all that it needs. -/
  | complete (name : OptionName) (value : String)
  /-- An option whose value is the next argument. -/
  | needsValue (name : OptionName)
  | unknown
  deriving DecidableEq, Repr

/-- An argument that starts with a dash: a long option, with its value after an equals
sign, or a short option, with its value right after the letter. -/
def dashed (arg : String) : Dashed :=
  let cs := arg.toList
  let name := cs.takeWhile (· != '=')
  match OptionName.ofLong? name, cs.drop name.length with
  | some option, '=' :: value =>
    if option.takesValue then .complete option (String.ofList value) else .unknown
  | some option, _ => if option.takesValue then .needsValue option else .complete option ""
  | none, _ =>
    match cs with
    | '-' :: '-' :: _ => .unknown
    | '-' :: letter :: value =>
      match OptionName.ofShort? letter with
      | none => .unknown
      | some option =>
        if value.isEmpty then .needsValue option else .complete option (String.ofList value)
    | _ => .unknown

/-- Whether an argument is an option by its form. A lone dash is not. -/
def isDashed (arg : String) : Bool :=
  match arg.toList with
  | '-' :: _ :: _ => true
  | _ => false

/-- Reads a command line; nothing if an option is unknown or lacks its value. The option
that waits for its value takes the next argument, whatever it looks like. -/
def read (r : Reading) : (waiting : Option OptionName) → List String → Option Reading
  | some _, [] => none
  | some name, value :: args => read (r.set name value) none args
  | none, [] => some r
  | none, arg :: args =>
    if arg = "--" then some { r with arguments := r.arguments ++ args }
    else if isDashed arg then
      match dashed arg with
      | .complete name value => read (r.set name value) none args
      | .needsValue name => read r (some name) args
      | .unknown => none
    else read { r with arguments := r.arguments ++ [arg] } none args

def Options.ofArguments? (files : Files) (args : List String) : Option Options := do
  let r ← read ⟨[], none, none, false, "console"⟩ none args
  let document ← r.document
  let claim ← r.claim
  match r.arguments with
  | [config] =>
    if files.namesFile document then
      some ⟨config, document, claim, r.bespoke, r.logFormat⟩
    else none
  | _ => none

end ClaimCheck.Check

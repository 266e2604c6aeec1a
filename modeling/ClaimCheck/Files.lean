/-!
What a system answers about paths, and a system of files by name, most of them below a working
directory. There the steps of a path are followed only below that directory.
-/
namespace ClaimCheck

/-- Why the system does not follow a path, or does not open a file. -/
structure Refusal where
  number : Nat
  reason : String
  deriving DecidableEq, Repr

namespace Refusal

def notFound : Refusal := ⟨2, "No such file or directory"⟩

def isDirectory : Refusal := ⟨21, "Is a directory"⟩

def nameTooLong : Refusal := ⟨36, "File name too long"⟩

end Refusal

inductive Entry where
  | file (contents : List UInt8)
  | directory
  /-- A file that is not opened. -/
  | locked (refusal : Refusal)
  deriving DecidableEq, Repr

/-- What there is at each path. -/
structure Files where
  lookUp : String → Except Refusal (Option Entry)

namespace Path

def splitSlash (s : String) : List String :=
  go [] s.toList
where
  go (part : List Char) : List Char → List String
    | [] => [String.ofList part.reverse]
    | c :: cs => if c = '/' then String.ofList part.reverse :: go [] cs else go (c :: part) cs

/-- The named steps of a path, without empty ones and without those that stay in place. -/
def components (path : String) : List String :=
  (splitSlash path).filter fun part => part != "" && part != "."

/-- The slashes that a path starts from. Exactly two of them are kept apart from one. -/
def root (path : String) : String :=
  match path.toList with
  | '/' :: '/' :: '/' :: _ => "/"
  | '/' :: '/' :: _ => "//"
  | '/' :: _ => "/"
  | _ => ""

def steps (path : String) : List String :=
  if root path = "" then components path else "/" :: components path

/-- A path without repeated slashes, steps in place and a slash at the end. -/
def normalized (path : String) : String :=
  let text := root path ++ "/".intercalate (components path)
  if text.isEmpty then "." else text

/-- The most bytes that a step may have. -/
def nameLimit : Nat := 255

def pathLimit : Nat := 4095

end Path

/-- Named entries; a name with slashes also makes the directories on the way to it. -/
abbrev Listing := List (String × Entry)

namespace Listing

def entryAt? (entries : Listing) (place : List String) : Option Entry :=
  if place.isEmpty || place == ["/"] then some .directory
  else
    match entries.find? fun file => Path.steps file.1 == place with
    | some file => some file.2
    | none =>
      if entries.any fun file => (Path.steps file.1).take place.length == place then
        some .directory
      else none

def isDirectory (entries : Listing) (place : List String) : Bool :=
  entries.entryAt? place == some .directory

/-- The place that steps lead to. Each step needs a directory to start from, and only there its
name is looked at. -/
def follow (entries : Listing) (place : List String) :
    List String → Except Refusal (Option (List String))
  | [] => .ok (some place)
  | step :: steps =>
    if !entries.isDirectory place then .ok none
    else if step = "/" then follow entries ["/"] steps
    else if step = ".." then
      if place.isEmpty then .ok none
      else follow entries (if place = ["/"] then place else place.dropLast) steps
    else if Path.nameLimit < step.utf8ByteSize then .error .nameTooLong
    else follow entries (place ++ [step]) steps

/-- The entry that a path leads to: the one of the same name, or the one at the place that its steps
lead to. A path with a null character leads nowhere. -/
def lookUp (entries : Listing) (path : String) : Except Refusal (Option Entry) :=
  if path.toList.contains (Char.ofNat 0) then .ok none
  else if Path.pathLimit < path.utf8ByteSize then .error .nameTooLong
  else
    match entries.find? fun file => Path.normalized file.1 == Path.normalized path with
    | some file => .ok (some file.2)
    | none => do
      match ← entries.follow [] (Path.steps path) with
      | some place => return entries.entryAt? place
      | none => return none

end Listing

namespace Files

def ofListing (entries : Listing) : Files :=
  ⟨entries.lookUp⟩

def contents? (files : Files) (path : String) : Option (List UInt8) :=
  match files.lookUp path with
  | .ok (some (.file contents)) => some contents
  | _ => none

def refusal? (files : Files) (path : String) : Option Refusal :=
  match files.lookUp path with
  | .error refusal => some refusal
  | .ok (some (.locked refusal)) => some refusal
  | _ => none

/-- Why a path leads to no contents. -/
def obstacle (files : Files) (path : String) : Refusal :=
  match files.lookUp path with
  | .error refusal | .ok (some (.locked refusal)) => refusal
  | .ok (some .directory) => .isDirectory
  | _ => .notFound

/-- Whether a path leads to a file. A slash at its end makes no difference. -/
def namesFile (files : Files) (path : String) : Bool :=
  (files.contents? path).isSome

end Files
end ClaimCheck

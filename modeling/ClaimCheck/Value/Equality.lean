import ClaimCheck.Value
/-!
Equality of values. Numbers of every kind, truth values included, are compared by their
exact value, and moments of known distance to universal time by the point in time; a list is
never equal to a tuple; mappings and sets are compared without regard to order. Not-a-number
differs from everything, except that a marked one is equal to the one with the same mark,
which is the same value handed on.
-/
namespace ClaimCheck.Value

inductive Magnitude where
  | finite (value : Rat)
  | infinite (negative : Bool)
  deriving DecidableEq

def magnitude? : Value → Option Magnitude
  | .bool b => some (.finite (if b then 1 else 0))
  | .int n => some (.finite (n : Rat))
  | .float (.infinite negative) => some (.infinite negative)
  | .float x => x.value?.map .finite
  | _ => none

/-- Equality of moments. One that names a point in time is never equal to one that does not. -/
def momentEqual (m n : Moment) : Bool :=
  match m.instant?, n.instant? with
  | some i, some j => i == j
  | none, none => m = n
  | _, _ => false

def scalarEqual (a b : Value) : Bool :=
  match a.magnitude?, b.magnitude? with
  | some x, some y => x = y
  | some _, none | none, some _ => false
  | none, none =>
    match a, b with
    | .null, .null => true
    | .nan m, .nan n => m == n
    | .text s, .text t => s == t
    | .torn t, .torn u => t == u
    | .bytes s, .bytes t => s == t
    | .duration d, .duration e => d = e
    | .moment m, .moment n => momentEqual m n
    | _, _ => false

mutual

def equal : Value → Value → Bool
  | .list xs, b => match b with
    | .list ys => equalAll xs ys
    | _ => false
  | .tuple xs, b => match b with
    | .tuple ys => equalAll xs ys
    | _ => false
  | .set xs, b => match b with
    | .set ys => xs.length == ys.length && subset xs ys
    | _ => false
  | .map es, b => match b with
    | .map fs => es.length == fs.length && entriesIn es fs
    | _ => false
  | .record n _ xs, b => match b with
    | .record m _ ys => n == m && equalFields xs ys
    | _ => false
  | a, b => scalarEqual a b

def equalAll : List Value → List Value → Bool
  | [], ys => ys.isEmpty
  | x :: xs, ys => match ys with
    | [] => false
    | y :: ys => equal x y && equalAll xs ys

/-- Every value has an equal one on the other side. -/
def subset : List Value → List Value → Bool
  | [], _ => true
  | x :: xs, ys => ys.any (equal x ·) && subset xs ys

def entriesIn : List (Value × Value) → List (Value × Value) → Bool
  | [], _ => true
  | (key, value) :: es, fs =>
    fs.any (fun f => equal key f.1 && equal value f.2) && entriesIn es fs

def equalFields : List (String × Value) → List (String × Value) → Bool
  | [], fs => fs.isEmpty
  | (name, value) :: es, fs => match fs with
    | [] => false
    | f :: fs => name == f.1 && equal value f.2 && equalFields es fs

end

/-- A mapping with one more entry. A key that is already there keeps its place and its
spelling and takes the new value. -/
def insertEntry {α : Type} (entries : List (Value × α)) (key : Value) (value : α) :
    List (Value × α) :=
  match entries with
  | [] => [(key, value)]
  | (k, v) :: rest =>
    if equal k key then (k, value) :: rest else (k, v) :: insertEntry rest key value

def lastEntries {α : Type} (pairs : List (Value × α)) : List (Value × α) :=
  pairs.foldl (fun entries pair => insertEntry entries pair.1 pair.2) []

def mapOf (pairs : List (Value × Value)) : Value :=
  .map (lastEntries pairs)

def setOf (members : List Value) : Value :=
  .set (members.foldl (fun kept x => if kept.any (equal · x) then kept else kept ++ [x]) [])

end ClaimCheck.Value

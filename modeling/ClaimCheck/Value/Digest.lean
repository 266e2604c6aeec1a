import ClaimCheck.Value.Frozen
/-!
Digests of values: what is known of their hashes. Equal values have equal digests, and so
have some unequal ones: numbers that differ by a multiple of a prime, minus one and minus two,
zero and the empty text, a text or a moment and the bytes that it is kept in, a list and a tuple,
a record and the tuple of its fields, a point in time and the length of time up to it. The digest
of a set does not depend on the order of its members, and two members with one digest cancel each
other out.
-/
namespace ClaimCheck

inductive Digest where
  | number (n : Int)
  | absent
  | undefined
  | unique (mark : Nat)
  | bytes (bs : List UInt8)
  | row (parts : List Digest)
  | pool (size : Nat) (members : List Digest)
  deriving Repr, Inhabited

namespace Digest

/-- Numbers count up to multiples of this prime. -/
def modulus : Nat := 0x1fffffffffffffff

/-- The digest of an exact value with a power of two below its line. Division by two is
multiplication by the sixtieth power of two. -/
def ofRat (q : Rat) : Digest :=
  let halvings := Nat.log2 q.den % 61
  let rest : Int := q.num.natAbs * Nat.pow 2 ((61 - halvings) % 61) % modulus
  let n := if q.num < 0 then -rest else rest
  .number (if n = -1 then -2 else n)

def ofInt (n : Int) : Digest :=
  ofRat n

/-- No bytes at all count as zero. -/
def ofBytes (bs : List UInt8) : Digest :=
  if bs.isEmpty then ofInt 0 else .bytes bs

def lowBytes : (count : Nat) → Nat → List UInt8
  | 0, _ => []
  | count + 1, n => n.toUInt8 :: lowBytes count (n / 0x100)

/-- A text is its code points, all in as few bytes as the greatest one takes. -/
def ofRunes (rs : List Text.Rune) : Digest :=
  let codes := rs.map Text.Rune.code
  let width := if codes.all (· < 0x100) then 1 else if codes.all (· < 0x10000) then 2 else 4
  ofBytes (codes.flatMap (lowBytes width))

/-- A moment that names no point in time is its parts, the highest byte of each first. -/
def ofMoment (m : Moment) : Digest :=
  let day := (lowBytes 2 m.year).reverse ++ lowBytes 1 m.month ++ lowBytes 1 m.day
  let time := m.micros.map fun micros =>
    let seconds := micros / 1000000
    lowBytes 1 (seconds / 3600) ++ lowBytes 1 (seconds / 60 % 60) ++ lowBytes 1 (seconds % 60)
      ++ (lowBytes 3 (micros % 1000000)).reverse
  ofBytes (day ++ time.getD [])

def ofInfinity (negative : Bool) : Digest :=
  .number (if negative then -314159 else 314159)

/-- A length of time is its days, seconds and microseconds. -/
def ofDuration (d : Duration) : Digest :=
  let rest := Int.fmod d.micros Duration.microsPerDay
  .row [ofInt (Int.fdiv d.micros Duration.microsPerDay), ofInt (rest / Duration.microsPerSecond),
    ofInt (rest % Duration.microsPerSecond)]

mutual

/-- Sameness of digests; what is undefined is not even the same as itself. -/
def same : Digest → Digest → Bool
  | .undefined, _ => false
  | .number m, b => match b with
    | .number n => m == n
    | _ => false
  | .absent, b => match b with
    | .absent => true
    | _ => false
  | .unique m, b => match b with
    | .unique n => m == n
    | _ => false
  | .bytes s, b => match b with
    | .bytes t => s == t
    | _ => false
  | .row xs, b => match b with
    | .row ys => sameAll xs ys
    | _ => false
  | .pool m xs, b => match b with
    | .pool n ys => m == n && xs.length == ys.length && within xs ys
    | _ => false

def sameAll : List Digest → List Digest → Bool
  | [], ys => ys.isEmpty
  | x :: xs, ys => match ys with
    | [] => false
    | y :: ys => same x y && sameAll xs ys

def within : List Digest → List Digest → Bool
  | [], _ => true
  | x :: xs, ys => ys.any (same x ·) && within xs ys

end

/-- A member put to others, or taken from them if it is among them. -/
def toggle (d : Digest) (members : List Digest) : List Digest :=
  if members.any (same d ·) then members.filter fun e => !same d e else d :: members

def ofMembers (members : List Digest) : Digest :=
  .pool members.length (members.foldr toggle [])

/-- The digest of a record with given fields; a single field stands for itself. -/
def ofFields : List Digest → Digest
  | [only] => only
  | parts => .row parts

end Digest

namespace Value

def scalarDigest (value : Value) : Digest :=
  match value.magnitude? with
  | some (.finite q) => Digest.ofRat q
  | some (.infinite negative) => Digest.ofInfinity negative
  | none =>
    match value with
    | .nan mark => .unique mark
    | .text s => Digest.ofRunes (Text.runes s)
    | .torn t => Digest.ofRunes t.runes
    | .bytes bs => Digest.ofBytes bs
    | .duration d => Digest.ofDuration d
    | .moment m =>
      match m.instant? with
      | some micros => Digest.ofDuration ⟨micros⟩
      | none => Digest.ofMoment m
    | .float _ => .undefined
    | _ => .absent

mutual

def digest : Value → Digest
  | .list xs => .row (digestAll xs)
  | .tuple xs => .row (digestAll xs)
  | .set xs => Digest.ofMembers (digestAll xs)
  | .map entries => Digest.ofMembers (digestEntries entries)
  | .record _ _ fields => Digest.ofFields (digestFields fields)
  | value => scalarDigest value

def digestAll : List Value → List Digest
  | [] => []
  | x :: xs => digest x :: digestAll xs

def digestEntries : List (Value × Value) → List Digest
  | [] => []
  | (key, value) :: entries => .row [digest key, digest value] :: digestEntries entries

def digestFields : List (String × Value) → List Digest
  | [] => []
  | (_, value) :: fields => digest value :: digestFields fields

end

end Value
end ClaimCheck

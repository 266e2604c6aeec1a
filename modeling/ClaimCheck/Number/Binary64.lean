/-!
Double-precision numbers as exact data. Each operation computes the exact result over the
integers and rounds it once, to the nearest number and to the even one of two. Payloads
of not-a-number are not represented.
-/
namespace ClaimCheck

/-- A power of a whole number; exponents below zero count as zero. -/
def powerOf (base : Nat) (exponent : Int) : Nat :=
  Nat.pow base exponent.toNat

/-- A finite number is `± mantissa · 2 ^ exponent`. -/
inductive Binary64 where
  | finite (negative : Bool) (mantissa : Nat) (exponent : Int)
  | infinite (negative : Bool)
  | nan
  deriving DecidableEq, Repr

namespace Binary64

/-- The integer nearest to a quotient; a half goes to the even neighbour. -/
def divHalfEven (num den : Nat) : Nat :=
  let quotient := num / den
  let twice := 2 * (num % den)
  if twice < den then quotient
  else if den < twice then quotient + 1
  else if quotient % 2 = 0 then quotient
  else quotient + 1

def powLeRatio (k : Int) (num den : Nat) : Bool :=
  if 0 ≤ k then den * powerOf 2 k ≤ num else den ≤ num * powerOf 2 (-k)

def floorLog2 (num den : Nat) : Int :=
  let k : Int := (num.log2 : Int) - (den.log2 : Int)
  if powLeRatio k num den then k else k - 1

/-- The integer nearest to `num / den / 2 ^ k`. -/
def scaledHalfEven (num den : Nat) (k : Int) : Nat :=
  if 0 ≤ k then divHalfEven num (den * powerOf 2 k) else divHalfEven (num * powerOf 2 (-k)) den

def minExponent : Int := -1074

def maxExponent : Int := 971

def ofRatio (negative : Bool) (num den : Nat) : Binary64 :=
  if num = 0 then .finite negative 0 minExponent
  else
    let exponent := max (floorLog2 num den - 52) minExponent
    let mantissa := scaledHalfEven num den exponent
    let (mantissa, exponent) :=
      if mantissa = powerOf 2 53 then (powerOf 2 52, exponent + 1) else (mantissa, exponent)
    if maxExponent < exponent then .infinite negative else .finite negative mantissa exponent

/-- The number nearest to `n · 2 ^ exponent`; a zero takes the given sign. -/
def ofScaled (zeroSign : Bool) (n : Int) (exponent : Int) : Binary64 :=
  let negative := if n = 0 then zeroSign else decide (n < 0)
  if 0 ≤ exponent then ofRatio negative (n.natAbs * powerOf 2 exponent) 1
  else ofRatio negative n.natAbs (powerOf 2 (-exponent))

def ofInt (n : Int) : Binary64 :=
  ofScaled false n 0

def zero : Binary64 := ofInt 0

def isFinite : Binary64 → Bool
  | .finite .. => true
  | _ => false

def signed (negative : Bool) (mantissa : Nat) : Int :=
  if negative then -(mantissa : Int) else mantissa

def neg : Binary64 → Binary64
  | .finite s m e => .finite (!s) m e
  | .infinite s => .infinite (!s)
  | .nan => .nan

def add : Binary64 → Binary64 → Binary64
  | .nan, _ | _, .nan => .nan
  | .infinite s, .infinite t => if s = t then .infinite s else .nan
  | .infinite s, .finite .. => .infinite s
  | .finite .., .infinite t => .infinite t
  | .finite s m e, .finite t n f =>
    let low := min e f
    ofScaled (s && t)
      (signed s m * powerOf 2 (e - low) + signed t n * powerOf 2 (f - low)) low

def sub (x y : Binary64) : Binary64 :=
  add x (neg y)

def mul : Binary64 → Binary64 → Binary64
  | .nan, _ | _, .nan => .nan
  | .infinite s, .infinite t => .infinite (s != t)
  | .infinite s, .finite t n _ => if n = 0 then .nan else .infinite (s != t)
  | .finite s m _, .infinite t => if m = 0 then .nan else .infinite (s != t)
  | .finite s m e, .finite t n f => ofScaled (s != t) (signed s m * signed t n) (e + f)

def div : Binary64 → Binary64 → Binary64
  | .nan, _ | _, .nan => .nan
  | .infinite _, .infinite _ => .nan
  | .infinite s, .finite t .. => .infinite (s != t)
  | .finite s .., .infinite t => ofRatio (s != t) 0 1
  | .finite s m e, .finite t n f =>
    if n = 0 then (if m = 0 then .nan else .infinite (s != t))
    else
      let low := min e f
      ofRatio (s != t) (m * powerOf 2 (e - low)) (n * powerOf 2 (f - low))

instance : Neg Binary64 := ⟨neg⟩
instance : Add Binary64 := ⟨add⟩
instance : Sub Binary64 := ⟨sub⟩
instance : Mul Binary64 := ⟨mul⟩
instance : Div Binary64 := ⟨div⟩

def isPositive : Binary64 → Bool
  | .finite s m _ => !s && m != 0
  | .infinite s => !s
  | .nan => false

def isNonNegative : Binary64 → Bool
  | .finite s m _ => !s || m == 0
  | .infinite s => !s
  | .nan => false

def value? : Binary64 → Option Rat
  | .finite s m e =>
    some (if 0 ≤ e then ((signed s m * powerOf 2 e : Int) : Rat)
      else mkRat (signed s m) (powerOf 2 (-e)))
  | _ => none

/-- The integer part of a finite number, toward zero. -/
def trunc? : Binary64 → Option Int
  | .finite s m e =>
    some (if 0 ≤ e then signed s (m * powerOf 2 e) else signed s (m / powerOf 2 (-e)))
  | _ => none

def fraction : Binary64 → Binary64
  | .finite s m e =>
    if 0 ≤ e then .finite s 0 minExponent
    else ofScaled s (signed s (m % powerOf 2 (-e))) e
  | x => x

def roundHalfEven? : Binary64 → Option Int
  | .finite s m e => some (signed s (scaledHalfEven m 1 (-e)))
  | _ => none

def roundHalfAway? : Binary64 → Option Int
  | .finite s m e =>
    some (if 0 ≤ e then signed s (m * powerOf 2 e)
      else signed s ((2 * m + powerOf 2 (-e)) / (2 * powerOf 2 (-e))))
  | _ => none

def toInt? (x : Binary64) : Option Int :=
  match x with
  | .finite s m e =>
    if 0 ≤ e then some (signed s (m * powerOf 2 e))
    else if m % powerOf 2 (-e) = 0 then some (signed s (m / powerOf 2 (-e)))
    else none
  | _ => none

end Binary64
end ClaimCheck

import ClaimCheck.Number.Binary64
/-!
The fewest decimal digits that still single out a double-precision number, and of those
the nearest ones. The numbers that round to a given one form an interval around it, whose
ends belong to it when the mantissa is even; for each digit count the two neighbours on
that decimal grid are tried.
-/
namespace ClaimCheck.Binary64

/-- Decimal digits without a point, and the power of ten of the first one. -/
structure Digits where
  digits : Nat
  count : Nat
  power : Int
  deriving DecidableEq, Repr

def scaleTen (num den : Nat) (k : Int) : Nat × Nat :=
  if 0 ≤ k then (num * powerOf 10 k, den) else (num, den * powerOf 10 (-k))

def floorLog10 (num den : Nat) (log2 : Int) : Int :=
  let guess := log2 * 30103 / 100000
  let (a, b) := scaleTen num den (-(guess + 1))
  if b ≤ a then guess + 1 else guess

/-- The interval of quotients that round to `mantissa · 2 ^ exponent`, in quarters of its
last place: lower end and upper end. -/
def roundingEnds (mantissa : Nat) (exponent : Int) : Nat × Nat :=
  let lower := if mantissa = powerOf 2 52 ∧ minExponent < exponent then 1 else 2
  (4 * mantissa - lower, 4 * mantissa + 2)

/-- The nearest grid point with `count` digits that rounds back, if there is one. -/
def onGrid? (mantissa : Nat) (exponent : Int) (log10 : Int) (count : Nat) : Option Digits :=
  let (low, high) := roundingEnds mantissa exponent
  let quarter := exponent - 2
  let (num, den) := if 0 ≤ quarter then (powerOf 2 quarter, 1) else (1, powerOf 2 (-quarter))
  let (scale, unit) := scaleTen num den ((count : Int) - 1 - log10)
  let exact := 4 * mantissa * scale
  let within (digits : Nat) : Bool :=
    if mantissa % 2 = 0 then low * scale ≤ digits * unit && digits * unit ≤ high * scale
    else low * scale < digits * unit && digits * unit < high * scale
  let below := exact / unit
  let nearest := divHalfEven exact unit
  let other := if nearest = below then below + 1 else below
  let found :=
    if within nearest then some nearest else if within other then some other else none
  found.map fun digits =>
    if digits = powerOf 10 count then ⟨1, 1, log10 + 1⟩ else ⟨digits, count, log10⟩

def firstGrid (mantissa : Nat) (exponent : Int) (log10 : Int) : Nat → Nat → Digits
  | 0, count => (onGrid? mantissa exponent log10 count).getD ⟨0, 1, 0⟩
  | tries + 1, count =>
    match onGrid? mantissa exponent log10 count with
    | some digits => digits
    | none => firstGrid mantissa exponent log10 tries (count + 1)

/-- The shortest digits of a positive finite number; seventeen always suffice. -/
def shortest (mantissa : Nat) (exponent : Int) : Digits :=
  let (num, den) :=
    if 0 ≤ exponent then (mantissa * powerOf 2 exponent, 1)
    else (mantissa, powerOf 2 (-exponent))
  firstGrid mantissa exponent (floorLog10 num den (floorLog2 num den)) 16 1

/-- Positional below ten thousand millionth millions and from one ten-thousandth up,
with a power of ten outside; a whole number keeps `.0`. -/
def layout (d : Digits) : List Char :=
  let digits := Nat.toDigits 10 d.digits
  if -4 ≤ d.power ∧ d.power < 16 then
    if d.power < 0 then
      ['0', '.'] ++ List.replicate (-d.power - 1).toNat '0' ++ digits
    else
      let whole := d.power.toNat + 1
      let padded := digits ++ List.replicate (whole - digits.length) '0'
      let after := padded.drop whole
      padded.take whole ++ ['.'] ++ (if after.isEmpty then ['0'] else after)
  else
    let mantissa :=
      match digits with
      | [] => []
      | first :: [] => [first]
      | first :: rest => first :: '.' :: rest
    let power := Nat.toDigits 10 d.power.natAbs
    mantissa ++ ['e', if d.power < 0 then '-' else '+']
      ++ List.replicate (2 - power.length) '0' ++ power

def render : Binary64 → String
  | .nan => "nan"
  | .infinite negative => if negative then "-inf" else "inf"
  | .finite negative mantissa exponent =>
    let body := if mantissa = 0 then ['0', '.', '0'] else layout (shortest mantissa exponent)
    String.ofList (if negative then '-' :: body else body)

end ClaimCheck.Binary64

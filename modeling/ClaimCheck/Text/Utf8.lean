import ClaimCheck.Text.Rune
/-!
Strict reading of bytes as text. The first fault is reported with the bytes that belong
to it: a byte that cannot start a character, a lead byte whose next byte does not go on,
or the bytes of a character that the end of the input cuts off.
-/
namespace ClaimCheck.Text

inductive Utf8Fault where
  | invalidStart
  | invalidContinuation
  | unexpectedEnd
  deriving DecidableEq, Repr

def Utf8Fault.reason : Utf8Fault → String
  | .invalidStart => "invalid start byte"
  | .invalidContinuation => "invalid continuation byte"
  | .unexpectedEnd => "unexpected end of data"

/-- Where decoding stopped: the bytes from `position` on, `length` of them. -/
structure Utf8Error where
  fault : Utf8Fault
  position : Nat
  length : Nat
  lead : UInt8
  deriving DecidableEq, Repr

def Utf8Error.message (e : Utf8Error) : String :=
  let place :=
    if e.length ≤ 1 then
      "byte 0x" ++ String.ofList (hexDigits 2 e.lead.toNat) ++ " in position "
        ++ toString e.position
    else
      "bytes in position " ++ toString e.position ++ "-" ++ toString (e.position + e.length - 1)
  "'utf-8' codec can't decode " ++ place ++ ": " ++ e.fault.reason

/-- How a lead byte goes on: the payload of the lead byte, the range allowed for the
second byte, and the number of bytes after the lead. -/
structure LeadByte where
  payload : Nat
  low : Nat
  high : Nat
  following : Nat

def LeadByte.of? (n : Nat) : Option LeadByte :=
  if n < 0x80 then some ⟨n, 0x80, 0xbf, 0⟩
  else if n < 0xc2 then none
  else if n < 0xe0 then some ⟨n - 0xc0, 0x80, 0xbf, 1⟩
  else if n = 0xe0 then some ⟨0, 0xa0, 0xbf, 2⟩
  else if n = 0xed then some ⟨13, 0x80, 0x9f, 2⟩
  else if n < 0xf0 then some ⟨n - 0xe0, 0x80, 0xbf, 2⟩
  else if n = 0xf0 then some ⟨0, 0x90, 0xbf, 3⟩
  else if n < 0xf4 then some ⟨n - 0xf0, 0x80, 0xbf, 3⟩
  else if n = 0xf4 then some ⟨4, 0x80, 0x8f, 3⟩
  else none

/-- What the decoder waits for: nothing, or more bytes of a character begun earlier. -/
inductive Pending where
  | none
  | some (lead : UInt8) (value taken low high remaining : Nat)

/-- A number with the lower six bits of one more byte. -/
def withBits (value : Nat) (b : UInt8) : Nat :=
  value * 64 + b.toNat % 64

/-- A decoder between two bytes: where the character that comes next begins, and what of it has
been read. -/
structure Decoder where
  position : Nat
  pending : Pending

namespace Decoder

def step (d : Decoder) (b : UInt8) : Except Utf8Error (Option Char × Decoder) :=
  match d.pending with
  | .none =>
    match LeadByte.of? b.toNat with
    | none => .error ⟨.invalidStart, d.position, 1, b⟩
    | some ⟨payload, low, high, following⟩ =>
      if following = 0 then .ok (some (Char.ofNat payload), ⟨d.position + 1, .none⟩)
      else .ok (none, ⟨d.position, .some b payload 1 low high following⟩)
  | .some lead value taken low high remaining =>
    if low ≤ b.toNat ∧ b.toNat ≤ high then
      if remaining ≤ 1 then
        .ok (some (Char.ofNat (withBits value b)), ⟨d.position + taken + 1, .none⟩)
      else
        .ok (none,
          ⟨d.position, .some lead (withBits value b) (taken + 1) 0x80 0xbf (remaining - 1)⟩)
    else .error ⟨.invalidContinuation, d.position, taken, lead⟩

def feed (d : Decoder) : List UInt8 → Except Utf8Error (List Char × Decoder)
  | [] => .ok ([], d)
  | b :: bs => do
    let (c, next) ← d.step b
    let (cs, final) ← next.feed bs
    return (c.toList ++ cs, final)

def finish (d : Decoder) : Except Utf8Error Unit :=
  match d.pending with
  | .none => .ok ()
  | .some lead _ taken _ _ _ => .error ⟨.unexpectedEnd, d.position, taken, lead⟩

end Decoder

def decodeFrom (position : Nat) (pending : Pending) (bytes : List UInt8) :
    Except Utf8Error (List Char) := do
  let (cs, d) ← Decoder.feed ⟨position, pending⟩ bytes
  d.finish
  return cs

def decodeUtf8 (bytes : List UInt8) : Except Utf8Error String :=
  (decodeFrom 0 .none bytes).map String.ofList

/-- Line ends of every convention read as line feeds. -/
def unifyLines : List Char → List Char
  | '\r' :: '\n' :: cs => '\n' :: unifyLines cs
  | '\r' :: cs => '\n' :: unifyLines cs
  | c :: cs => c :: unifyLines cs
  | [] => []

end ClaimCheck.Text

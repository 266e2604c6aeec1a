import ClaimCheck.Number.Binary64
import ClaimCheck.Text.Utf8
/-!
A text file that is read in portions. Its bytes are decoded in chunks, somewhat ahead of what is
asked for, so bytes that are no text are met while there is still text in front of them.
-/
namespace ClaimCheck.Text

/-- What is held back between two parts of a text: a carriage return, until it is known what
follows. -/
def heldBack : Bool → List Char
  | true => ['\r']
  | false => []

def unifyPart (held : Bool) (part : List Char) : List Char × Bool :=
  let cs := heldBack held ++ part
  if part.isEmpty then ([], held)
  else if cs.getLast? = some '\r' then (unifyLines cs.dropLast, true)
  else (unifyLines cs, false)

/-- The bytes still to be read, what the decoder waits for, whether a carriage return is held back,
the characters that are ready to be given out, and how many bytes and characters the last chunk
had. -/
structure Stream where
  bytes : List UInt8
  pending : Pending
  held : Bool
  ready : List Char
  chunkBytes : Nat
  chunkChars : Nat

namespace Stream

def ofBytes (bytes : List UInt8) : Stream :=
  ⟨bytes, .none, false, [], 0, 0⟩

def leastChunk : Nat := 8192

/-- How many bytes are read for some characters. The last chunk tells how many a character takes. -/
def chunkSize (s : Stream) (wanted : Nat) : Nat :=
  if s.chunkChars < s.chunkBytes ∧ 0 < s.chunkChars then
    let perChar := Binary64.ofRatio false s.chunkBytes s.chunkChars
    max leastChunk ((perChar * Binary64.ofInt wanted).trunc?.getD 0).toNat
  else max leastChunk wanted

def refill (s : Stream) (wanted : Nat) : Except Utf8Error Stream := do
  let chunk := s.bytes.take (s.chunkSize wanted)
  let (cs, d) ← Decoder.feed ⟨0, s.pending⟩ chunk
  let (ready, held) := unifyPart s.held cs
  return ⟨s.bytes.drop (s.chunkSize wanted), d.pending, held, ready, chunk.length, ready.length⟩

/-- What is left when all bytes have been read: a carriage return that was held back. -/
def close (s : Stream) : Except Utf8Error (List Char) := do
  Decoder.finish ⟨0, s.pending⟩
  return unifyLines (heldBack s.held)

/-- Some characters, or fewer at the end. The bound exceeds the number of bytes. -/
def read : (bound : Nat) → (wanted : Nat) → Stream → Except Utf8Error (List Char × Stream)
  | 0, _, s => .ok ([], s)
  | bound + 1, wanted, s => do
    if wanted ≤ s.ready.length then
      return (s.ready.take wanted, { s with ready := s.ready.drop wanted })
    else if s.bytes.isEmpty then
      return (s.ready ++ (← s.close), ofBytes [])
    else
      let next ← s.refill (wanted - s.ready.length)
      let (more, final) ← read bound (wanted - s.ready.length) next
      return (s.ready ++ more, final)

def portionSize : Nat := 4096

/-- The portions of a text up to the first one that cannot be read. The bound exceeds the number of
characters. -/
def portions : (bound : Nat) → Stream → List (List Char) × Option Utf8Error
  | 0, _ => ([], none)
  | bound + 1, s =>
    match s.read (s.bytes.length + 1) portionSize with
    | .error e => ([], some e)
    | .ok ([], _) => ([], none)
    | .ok (portion, next) =>
      let (rest, e) := portions bound next
      (portion :: rest, e)

end Stream

def portionsOf (bytes : List UInt8) : List (List Char) × Option Utf8Error :=
  (Stream.ofBytes bytes).portions (bytes.length + 2)

end ClaimCheck.Text

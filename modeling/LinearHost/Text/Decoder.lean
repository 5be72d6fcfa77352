import LinearHost.Text.CodeUnit

/-!
# Decoding UTF-8 byte by byte

A decoder takes bytes as they are read from memory and emits a UTF-16 code unit whenever a block is
complete. It knows blocks of one byte (below 128), of two bytes (led by 192 to 223) and of three
bytes (led by any other byte), so it covers the Basic Multilingual Plane; whatever leads a longer or
malformed sequence counts as the lead of three bytes.

## Main definitions

* `Decoder`, `Decoder.feed`: the states of a decoder and its step on a byte.
* `Decoder.states`, `Decoder.emitted`: the states on a row of bytes, and what each byte emits.
* `decodeUnits`, `decode`: the code units and the text of a row of bytes.
* `encode`: the UTF-8 bytes of a text.
-/

namespace LinearHost

/-- The part of a block that was read so far. -/
structure Decoder where
  /-- The bytes of the block, followed by zeros. -/
  pending : Vector UInt8 3 := #v[0, 0, 0]
  /-- The number of bytes that were read. -/
  length : Nat := 0
  /-- The number of bytes that the block lacks. -/
  needed : Nat := 0
deriving DecidableEq, Repr

namespace Decoder

/-- Nothing of a block was read: the next byte leads one. -/
def ready : Decoder := {}

/-- The code unit of a block of two bytes. -/
def unit2 (lead last : UInt8) : UInt16 :=
  ((lead.toUInt16 &&& 31) <<< 6) ||| (last.toUInt16 &&& 63)

/-- The code unit of a block of three bytes. -/
def unit3 (lead middle last : UInt8) : UInt16 :=
  ((lead.toUInt16 &&& 15) <<< 12) ||| ((middle.toUInt16 &&& 63) <<< 6) |||
    (last.toUInt16 &&& 63)

/-- The code unit of the bytes that were read, if they are a whole block. -/
def unit (d : Decoder) : UInt16 :=
  if d.length = 2 then unit2 d.pending[0] d.pending[1]
  else unit3 d.pending[0] d.pending[1] d.pending[2]

/-- Tells whether a block is incomplete. -/
def isPending (d : Decoder) : Bool := 0 < d.length

/-- Adds a byte that the block lacks. -/
def add (d : Decoder) (b : UInt8) : Decoder where
  pending := d.pending.setIfInBounds d.length b
  length := d.length + 1
  needed := d.needed - 1

/-- Starts a block of two or three bytes. -/
def start (d : Decoder) (b : UInt8) : Decoder where
  pending := d.pending.set 0 b
  length := 1
  needed := if 192 ≤ b ∧ b ≤ 223 then 1 else 2

/-- Takes a byte; emits a code unit if the byte completes a block. -/
def feed (d : Decoder) (b : UInt8) : Decoder × Option UInt16 :=
  let d := if 0 < d.needed then d.add b else d
  if d.length = 0 then
    if b < 128 then (d, some b.toUInt16) else (d.start b, none)
  else if 0 < d.needed then (d, none)
  else (ready, some d.unit)

/-- The state after a row of bytes. -/
def after (d : Decoder) (bytes : List UInt8) : Decoder :=
  bytes.foldl (fun d b => (d.feed b).1) d

/-- The states before, between and after the bytes of a row. -/
def states (d : Decoder) (bytes : List UInt8) : List Decoder :=
  bytes.scanl (fun d b => (d.feed b).1) d

/-- What a decoder emits for each byte of a row. -/
def emitted (d : Decoder) (bytes : List UInt8) : List (Option UInt16) :=
  bytes.zipWith (fun b d => (d.feed b).2) (d.states bytes)

@[simp] theorem emitted_nil (d : Decoder) : d.emitted [] = [] := rfl

@[simp] theorem emitted_cons (d : Decoder) (b : UInt8) (rest : List UInt8) :
    d.emitted (b :: rest) = (d.feed b).2 :: (d.feed b).1.emitted rest := by
  simp [emitted, states]

end Decoder

/-- The code units of a row of bytes; an incomplete block at the end is dropped. -/
def decodeUnits (bytes : List UInt8) : List UInt16 :=
  (Decoder.ready.emitted bytes).filterMap id

/-- The text of a row of bytes. -/
def decode (bytes : List UInt8) : String :=
  CodeUnit.toText (decodeUnits bytes)

/-- The UTF-8 bytes of a text. -/
def encode (text : String) : List UInt8 :=
  text.toList.flatMap String.utf8EncodeChar

end LinearHost

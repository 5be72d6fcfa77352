/-!
# UTF-16 code units

Text as a row of 16-bit units. A character beyond the Basic Multilingual Plane takes two units, a
high and a low surrogate; a surrogate without its partner denotes no character.

## Main definitions

* `ofChar`: the units of a character.
* `toChars`: the characters that units denote, U+FFFD for every surrogate without a partner.
-/

namespace LinearHost.CodeUnit

/-- Tells whether a unit is the first of a surrogate pair. -/
def isHigh (u : UInt16) : Bool := 0xD800 ≤ u && u < 0xDC00

/-- Tells whether a unit is the second of a surrogate pair. -/
def isLow (u : UInt16) : Bool := 0xDC00 ≤ u && u < 0xE000

/-- The character that stands for what cannot be decoded. -/
def replacement : Char := '\uFFFD'

def pairChar (high low : UInt16) : Char :=
  Char.ofNat (0x10000 + (high.toNat - 0xD800) * 0x400 + (low.toNat - 0xDC00))

def ofChar (c : Char) : List UInt16 :=
  if c.toNat < 0x10000 then [UInt16.ofNat c.toNat]
  else
    let offset := c.toNat - 0x10000
    [UInt16.ofNat (0xD800 + offset / 0x400), UInt16.ofNat (0xDC00 + offset % 0x400)]

def toChars : List UInt16 → List Char
  | [] => []
  | u :: rest =>
    if isHigh u then
      match rest with
      | [] => [replacement]
      | v :: others =>
        if isLow v then pairChar u v :: toChars others else replacement :: toChars (v :: others)
    else if isLow u then replacement :: toChars rest
    else Char.ofNat u.toNat :: toChars rest

def toText (units : List UInt16) : String :=
  String.ofList (toChars units)

end LinearHost.CodeUnit

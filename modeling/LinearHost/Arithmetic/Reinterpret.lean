import LinearHost.Fault

/-!
# Reading a word as signed or unsigned

Values in linear memory carry no sign. A word of 1 to 64 bits is read as signed or unsigned by
adding or subtracting `2 ^ bits`, and a strict reading refuses every change of the number. On the way
there are numbers of more than 64 bits.

## Main definitions

* `SignCheck`: whether a change of the number is carried out or refused.
* `WideRegisters`: where the numbers on the way are held.
* `toUnsigned`, `toSigned`: the two readings.
-/

namespace LinearHost

/-- What happens to a number that would change its value. -/
inductive SignCheck where
  /-- It is wrapped around silently. -/
  | wrap
  /-- The conversion fails. -/
  | strict
deriving DecidableEq, Repr

/-- Selects the strict check when asked to. -/
def SignCheck.ofStrict (strict : Bool) : SignCheck :=
  if strict then .strict else .wrap

/-- Accepts widths from 1 to 64 bits. -/
def checkWidth (bits : Nat) : Except Fault Unit :=
  if 1 ≤ bits ∧ bits ≤ 64 then .ok () else .error (.invalidBitWidth bits)

/-- What signed and unsigned registers hold when a number is put into them. -/
structure WideRegisters where
  signed : Int → Int
  unsigned : Nat → Nat

/-- Registers without bounds. -/
def WideRegisters.exact : WideRegisters where
  signed n := n
  unsigned n := n

/-- Reads a signed number as an unsigned one, in the given registers. -/
def toUnsignedWith (wide : WideRegisters) (value : Int64) (bits : Nat) (check : SignCheck) :
    Except Fault UInt64 := do
  checkWidth bits
  if 0 ≤ value.toInt then
    return value.toUInt64
  else if check = .strict then
    throw (.signConversion value.toInt bits)
  else
    return UInt64.ofInt (wide.signed (wide.signed (1 <<< bits : Nat) + value.toInt))

/-- Reads a signed number as an unsigned one of `bits` bits: a negative number gains `2 ^ bits`,
and what is still negative then is truncated to a 64-bit register. -/
def toUnsigned (value : Int64) (bits : Nat) (check : SignCheck) : Except Fault UInt64 :=
  toUnsignedWith .exact value bits check

/-- The number that an unsigned one of `bits` bits is read as: from the half range on, `2 ^ bits` is
taken away. -/
def signedNumber (wide : WideRegisters) (value : UInt64) (bits : Nat) (check : SignCheck) :
    Except Fault Int :=
  if wide.unsigned value.toNat < wide.unsigned (1 <<< (bits - 1)) then .ok value.toNat
  else if check = .strict then .error (.signConversion value.toNat bits)
  else .ok (wide.signed (value.toNat - wide.signed (1 <<< bits : Nat)))

/-- The reading of a value as a number of 64 bits, which has to have room for it. -/
def narrowed (value : UInt64) (bits : Nat) (number : Int) : Except Fault Int64 :=
  if Int64.minValue.toInt ≤ number ∧ number ≤ Int64.maxValue.toInt then .ok (Int64.ofInt number)
  else .error (.signConversion value.toNat bits)

/-- The lower half of a value as a signed word. -/
def signedWord (value : UInt64) : Int32 := value.toUInt32.toInt32

/-- Reads an unsigned number as a signed one, in the given registers. A strict reading of 32 bits is
compared with the signed word. -/
def toSignedWith (wide : WideRegisters) (value : UInt64) (bits : Nat) (check : SignCheck) :
    Except Fault Int64 := do
  checkWidth bits
  let result ← narrowed value bits (← signedNumber wide value bits check)
  if check = .strict ∧ bits = 32 ∧ result ≠ (signedWord value).toInt64 then
    throw (.signConversion value.toNat bits)
  return result

/-- Reads an unsigned number of `bits` bits as a signed one: from the half range on, `2 ^ bits` is
taken away. A result beyond 64 bits is refused. -/
def toSigned (value : UInt64) (bits : Nat) (check : SignCheck) : Except Fault Int64 :=
  toSignedWith .exact value bits check

end LinearHost

/-!
# Numerals

Hexadecimal numerals as they stand in messages and bit patterns, and decimal numerals as they stand
in type names.

## Main definitions

* `hex`, `hexPadded`: lower-case hexadecimal digits, as many as needed or at least a given number.
* `hexadecimal?`: the number that a row of lower-case hexadecimal digits denotes.
* `decimal?`: the number that a nonempty row of ASCII digits denotes.
-/

namespace LinearHost.Numeral

/-- The lower-case hexadecimal digits of `n`, without leading zeros. -/
def hex (n : Nat) : String :=
  String.ofList (Nat.toDigits 16 n)

/-- The lower-case hexadecimal digits of `n`, filled with zeros on the left up to `width` digits. -/
def hexPadded (width n : Nat) : String :=
  let digits := Nat.toDigits 16 n
  String.ofList (List.replicate (width - digits.length) '0' ++ digits)

def digit? (c : Char) : Option Nat :=
  if '0' ≤ c ∧ c ≤ '9' then some (c.toNat - '0'.toNat) else none

def hexDigit? (c : Char) : Option Nat :=
  if 'a' ≤ c ∧ c ≤ 'f' then some (c.toNat - 'a'.toNat + 10) else digit? c

/-- The number that a row of lower-case hexadecimal digits denotes. -/
def hexadecimal? (cs : List Char) : Option Nat :=
  (cs.mapM hexDigit?).map fun digits => digits.foldl (fun n d => 16 * n + d) 0

/-- The number denoted by a row of ASCII digits that follows digits already worth `value`. -/
def decimalFrom? (value : Nat) : List Char → Option Nat
  | [] => some value
  | c :: rest => (digit? c).bind fun d => decimalFrom? (10 * value + d) rest

/-- The number denoted by a nonempty row of ASCII digits. -/
def decimal? : List Char → Option Nat
  | [] => none
  | c :: rest => decimalFrom? 0 (c :: rest)

end LinearHost.Numeral

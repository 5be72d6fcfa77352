import LinearHost.Arithmetic.WordPair
import LinearHost.Memory.Access

/-!
# Typed access

Numbers are stored with their least significant byte first. A 64-bit integer is stored as its low
word followed by its high word.

## Main definitions

* `Scalar`: the numbers that can be stored, by type.
* `Scalar.encode`, `ScalarType.decode`: their bytes, and back.
* `Memory.load`, `Memory.store`.
-/

namespace LinearHost

inductive ScalarType where
  | i8
  | i16
  | i32
  | i64
  | f32
  | f64
deriving DecidableEq, Repr

inductive Scalar where
  | i8 (n : Int8)
  | i16 (n : Int16)
  | i32 (n : Int32)
  | i64 (w : WordPair)
  | f32 (x : Binary32)
  | f64 (x : Binary64)
deriving DecidableEq, Repr

/-- The `count` lowest bytes of a number, least significant first. -/
def littleEndian (n : Nat) : Nat → List UInt8
  | 0 => []
  | count + 1 => UInt8.ofNat n :: littleEndian (n / 256) count

/-- The number with the given bytes, least significant first. -/
def ofLittleEndian : List UInt8 → Nat
  | [] => 0
  | b :: rest => b.toNat + 256 * ofLittleEndian rest

namespace ScalarType

def all : List ScalarType := [i8, i16, i32, i64, f32, f64]

def text : ScalarType → String
  | i8 => "i8"
  | i16 => "i16"
  | i32 => "i32"
  | i64 => "i64"
  | f32 => "f32"
  | f64 => "f64"

def ofText? (text : String) : Option ScalarType :=
  all.find? (·.text = text)

def bytes : ScalarType → Nat
  | i8 => 1
  | i16 => 2
  | i32 | f32 => 4
  | i64 | f64 => 8

/-- The number of a type that has the given bytes. -/
def decode (type : ScalarType) (bytes : List UInt8) : Scalar :=
  match type with
  | i8 => .i8 (UInt8.ofNat (ofLittleEndian bytes)).toInt8
  | i16 => .i16 (UInt16.ofNat (ofLittleEndian bytes)).toInt16
  | i32 => .i32 (UInt32.ofNat (ofLittleEndian bytes)).toInt32
  | i64 =>
    .i64 ⟨UInt32.ofNat (ofLittleEndian (bytes.take 4)),
      UInt32.ofNat (ofLittleEndian (bytes.drop 4))⟩
  | f32 => .f32 ⟨UInt32.ofNat (ofLittleEndian bytes)⟩
  | f64 => .f64 ⟨UInt64.ofNat (ofLittleEndian bytes)⟩

end ScalarType

namespace Scalar

def type : Scalar → ScalarType
  | i8 _ => .i8
  | i16 _ => .i16
  | i32 _ => .i32
  | i64 _ => .i64
  | f32 _ => .f32
  | f64 _ => .f64

def encode : Scalar → List UInt8
  | i8 n => littleEndian n.toUInt8.toNat 1
  | i16 n => littleEndian n.toUInt16.toNat 2
  | i32 n => littleEndian n.toUInt32.toNat 4
  | i64 w => littleEndian w.low.toNat 4 ++ littleEndian w.high.toNat 4
  | f32 x => littleEndian x.bits.toNat 4
  | f64 x => littleEndian x.bits.toNat 8

end Scalar

namespace Memory

def load (m : Memory) (type : ScalarType) (address : Nat) : Except Fault Scalar := do
  let bytes ← m.read address type.bytes
  return type.decode bytes

def store (address : Nat) (x : Scalar) : Action Memory Unit :=
  write address x.encode

end Memory

end LinearHost

import LinearHost.Arithmetic.Alignment
import LinearHost.Arithmetic.Reinterpret

/-!
# Settings of a host

Settings are fixed when a host is built. Which of them agree with each other is decided by
`Config.validate`.

## Main definitions

* `Checks`: the optional checks, a set of four flags.
* `DispatchMode`: how indirect calls reach a function.
* `MemorySizes`, `Config`: the sizes of the memory, and all settings together.
-/

namespace LinearHost

/-- The optional checks. -/
structure Checks where
  /-- Verify invariants of allocations, frames and reads. -/
  assertions : Bool := false
  /-- Refuse sign conversions that change the number. -/
  strictSigns : Bool := false
  /-- Clear and poison the bytes that a closed frame leaves behind. -/
  stackInvalidation : Bool := false
  /-- Do not open frames without content. -/
  skipEmptyFrames : Bool := false
deriving DecidableEq, Repr

namespace Checks

/-- The set with the given bits. -/
def ofBits (bits : Nat) : Checks where
  assertions := bits.testBit 0
  strictSigns := bits.testBit 1
  stackInvalidation := bits.testBit 2
  skipEmptyFrames := bits.testBit 3

/-- The flags as bits of a number. -/
def bits (c : Checks) : Nat :=
  c.assertions.toNat + 2 * c.strictSigns.toNat + 4 * c.stackInvalidation.toNat +
    8 * c.skipEmptyFrames.toNat

/-- The flags that are in either set. -/
def union (a b : Checks) : Checks where
  assertions := a.assertions || b.assertions
  strictSigns := a.strictSigns || b.strictSigns
  stackInvalidation := a.stackInvalidation || b.stackInvalidation
  skipEmptyFrames := a.skipEmptyFrames || b.skipEmptyFrames

/-- The flags of the first set that are not in the second. -/
def diff (a b : Checks) : Checks where
  assertions := a.assertions && !b.assertions
  strictSigns := a.strictSigns && !b.strictSigns
  stackInvalidation := a.stackInvalidation && !b.stackInvalidation
  skipEmptyFrames := a.skipEmptyFrames && !b.skipEmptyFrames

/-- Every check, so that no frame is skipped. -/
def debug : Checks where
  assertions := true
  strictSigns := true
  stackInvalidation := true

/-- No check; frames without content are skipped. -/
def release : Checks where
  skipEmptyFrames := true

/-- The names of the flags in the set, in order of their bits. -/
def names (c : Checks) : List String :=
  (if c.assertions then ["ASSERTIONS"] else []) ++
    (if c.strictSigns then ["STRICT_SIGNS"] else []) ++
    (if c.stackInvalidation then ["STACK_INVALIDATION"] else []) ++
    (if c.skipEmptyFrames then ["SKIP_EMPTY_FRAMES"] else [])

/-- The set as it is written in descriptions. -/
def text (c : Checks) : String :=
  if c.names.isEmpty then "CheckFlags(0x0)"
  else "CheckFlags(" ++ " | ".intercalate c.names ++ ")"

end Checks

/-- How an indirect call reaches a function of the table. -/
inductive DispatchMode where
  /-- Through the trampoline of its signature. -/
  | routed
  /-- Straight to the slot. -/
  | direct
deriving DecidableEq, Repr

namespace DispatchMode

/-- The word for a mode in settings. -/
def text : DispatchMode → String
  | routed => "signature"
  | direct => "direct"

/-- All modes. -/
def all : List DispatchMode := [routed, direct]

/-- The mode with a word. -/
def ofText? (text : String) : Option DispatchMode :=
  all.find? (·.text = text)

/-- The name of a mode in descriptions. -/
def name : DispatchMode → String
  | routed => "SignatureRouted"
  | direct => "Direct"

end DispatchMode

/-- The sizes of a linear memory, in bytes. -/
structure MemorySizes where
  /-- The room reserved for the stack. -/
  stack : Nat := 5 * 1024 * 1024
  /-- The size at the start; the stack has to fit into it. -/
  initial : Nat := 16 * 1024 * 1024
  /-- The size that growth never exceeds. -/
  cap : Nat := 256 * 1024 * 1024
deriving DecidableEq, Repr

/-- Tells whether the cap leaves room for growth. -/
def MemorySizes.canGrow (sizes : MemorySizes) : Bool :=
  sizes.initial < sizes.cap

/-- All settings of a host. -/
structure Config where
  /-- The granularity of allocations and struct fields. -/
  quantum : Quantum := .word
  /-- The optional checks. -/
  checks : Checks := .release
  /-- How indirect calls are routed. -/
  dispatch : DispatchMode := .routed
  /-- The sizes of the memory. -/
  memory : MemorySizes := {}
deriving DecidableEq, Repr

namespace Config

/-- Default settings with every check. -/
def debug : Config where
  checks := .debug

/-- Default settings without checks. -/
def release : Config where
  checks := .release

/-- The sign check that the flags ask for. -/
def signCheck (c : Config) : SignCheck :=
  .ofStrict c.checks.strictSigns

/-- The lowest address at which a stack may start. -/
def stackFloor : Nat := 8

/-- The first address of the stack. -/
def stackBase (c : Config) : Nat :=
  c.quantum.align stackFloor

/-- Accepts settings whose stack fits into the initial memory and whose cap is not below it. -/
def validate (c : Config) : Except Fault Unit :=
  match blockEnd? c.stackBase c.memory.stack with
  | none => .error (.invalidConfig .stackOverflows)
  | some stop =>
    if c.memory.initial < c.quantum.align stop then
      .error (.invalidConfig (.stackTooLarge c.memory.stack c.memory.initial))
    else if c.memory.cap < c.memory.initial then
      .error (.invalidConfig (.capTooSmall c.memory.cap c.memory.initial))
    else .ok ()

end Config

end LinearHost

import LinearHost.Memory.RegionKind
import LinearHost.Text.Numeral

/-!
# Faults

Every reason for which an operation of the host can fail, and the wording of each.

## Main definitions

* `Fault`: the causes. A violated invariant is an `Assertion`, a contradiction among settings a
  `ConfigProblem`.
* `Fault.isFatal`: which of them no operation returns.
* `Fault.name`, `Fault.message`: the name of its kind, and the text shown for it.
-/

namespace LinearHost

open Numeral

/-- Invariants that are checked while the program runs. -/
inductive Assertion where
  /-- No shift has this operation code. -/
  | unknownShift (code : Nat)
  /-- An allocation used up the stack. -/
  | stackExhausted (top limit : Nat)
  /-- A frame was opened with a size that is no multiple of the quantum. -/
  | unalignedFrame (size quantum : Nat)
  /-- A byte that a closed frame left behind was read. -/
  | staleRead (address : Nat)
  /-- A call asked for further calls without end. -/
  | endlessCall
deriving DecidableEq, Repr

/-- The text of a violated invariant. -/
def Assertion.message : Assertion → String
  | unknownShift code => s!"unknown 64-bit shift operation {code}"
  | stackExhausted top limit => s!"stack top 0x{hex top} reached limit 0x{hex limit}"
  | unalignedFrame size quantum =>
    s!"frame size {size} is not a multiple of the quantum {quantum}"
  | staleRead address => s!"read of invalidated stack memory at 0x{hex address}"
  | endlessCall => "call through the table does not end"

/-- Ways in which settings contradict each other. -/
inductive ConfigProblem where
  /-- The quantum is not one of the supported powers of two. -/
  | quantum (bytes : Nat)
  /-- The end of the stack is not an address. -/
  | stackOverflows
  /-- The stack does not fit into the memory present at the start. -/
  | stackTooLarge (stack initial : Nat)
  /-- The cap lies below the size at the start. -/
  | capTooSmall (cap initial : Nat)
deriving DecidableEq, Repr

/-- The text of a contradiction among settings. -/
def ConfigProblem.message : ConfigProblem → String
  | quantum bytes => s!"quantum must be a power of two in 1..=64, got {bytes}"
  | stackOverflows => "stack size overflows the address space"
  | stackTooLarge stack initial =>
    s!"stack of {stack} bytes does not fit in {initial} bytes of initial memory"
  | capTooSmall cap initial => s!"max memory {cap} is smaller than initial memory {initial}"

/-- The reasons for which an operation fails. -/
inductive Fault where
  /-- A block does not fit between the top of its region and the limit. -/
  | outOfMemory (region : RegionKind) (requested top limit : Nat)
  /-- A checked invariant does not hold. -/
  | assertion (broken : Assertion)
  /-- A frame other than the innermost one was closed. -/
  | frameOrder (expected found : Nat)
  /-- An access reaches outside the memory. -/
  | invalidAddress (address size : Nat)
  /-- A window of the contents that no check had turned away reaches outside them. -/
  | outsideImage (start stop size : Nat)
  /-- The names given for the fields of a struct do not match its shape. -/
  | layoutMismatch (typeName : String) (expected found : Nat)
  /-- No struct has this name. -/
  | typeNotFound (name : String)
  /-- The text denotes no type. -/
  | unknownType (text : String)
  /-- The struct name is taken by another shape. -/
  | nameTaken (name : String)
  /-- The struct name is bound to an identifier that no type has. -/
  | danglingName (name : String)
  /-- A strict conversion would change the number. -/
  | signConversion (value : Int) (bits : Nat)
  /-- A bit width lies outside `1..=64`. -/
  | invalidBitWidth (bits : Nat)
  /-- A shift amount lies outside `0..=63`. -/
  | invalidShift (bits : Nat)
  /-- A call passes another number of arguments than its signature has parameters. -/
  | arityMismatch (signature : String) (expected found : Nat)
  /-- The text is no call signature. -/
  | invalidSignature (text : String)
  /-- The index names no function of the table. -/
  | invalidTableIndex (index : Nat)
  /-- The settings contradict each other. -/
  | invalidConfig (problem : ConfigProblem)
deriving DecidableEq, Repr

/-- Tells whether a fault is the end of the program and not an answer that an operation returns. -/
def Fault.isFatal : Fault → Bool
  | outsideImage .. => true
  | _ => false

/-- The name of a kind of fault. -/
def Fault.name : Fault → String
  | outOfMemory .. => "OutOfMemory"
  | assertion .. => "AssertionFailure"
  | frameOrder .. => "FrameOrder"
  | invalidAddress .. => "InvalidAddress"
  | outsideImage .. => "OutsideImage"
  | layoutMismatch .. => "LayoutMismatch"
  | typeNotFound .. => "TypeNotFound"
  | unknownType .. => "UnknownType"
  | nameTaken .. | danglingName .. => "TypeInsert"
  | signConversion .. => "SignConversion"
  | invalidBitWidth .. => "InvalidBitWidth"
  | invalidShift .. => "InvalidShift"
  | arityMismatch .. => "ArityMismatch"
  | invalidSignature .. => "InvalidSignature"
  | invalidTableIndex .. => "InvalidTableIndex"
  | invalidConfig .. => "InvalidConfig"

/-- The text shown for a fault. The text of a violated invariant leaves out the place of the check:
the file and the line that the program writes, each with a colon, before the invariant itself. -/
def Fault.message : Fault → String
  | outOfMemory region requested top limit =>
    s!"Out of memory in {region.text} region - requested {requested} bytes " ++
      s!"at top 0x{hex top} (limit 0x{hex limit})"
  | assertion broken => s!"Assertion failed - {broken.message}"
  | frameOrder expected found =>
    s!"Stack frames must be closed in LIFO order - expected depth {expected}, got {found}"
  | invalidAddress address size => s!"Invalid memory access at 0x{hex address} ({size} bytes)"
  | outsideImage start stop size =>
    s!"Window 0x{hex start} to 0x{hex stop} reaches outside a memory of {size} bytes"
  | layoutMismatch typeName expected found =>
    s!"Number of named fields must match the type for {typeName} - " ++
      s!"expected {expected}, got {found}"
  | typeNotFound name => s!"Failed to find type in TypeRegistry - {name}"
  | unknownType text => s!"Unclear type: {text}"
  | nameTaken name =>
    s!"Failed to insert new type into TypeRegistry - {name} " ++
      "is already registered with a different shape"
  | danglingName name => s!"Failed to insert new type into TypeRegistry - {name}"
  | signConversion value bits =>
    s!"Sign conversion of {value} to {bits} bits would lose information"
  | invalidBitWidth bits => s!"Unsupported bit width - {bits}"
  | invalidShift bits => s!"Unsupported 64-bit shift amount - {bits}"
  | arityMismatch signature expected found =>
    s!"Call through signature '{signature}' expects {expected} arguments, got {found}"
  | invalidSignature text => s!"Invalid call signature - '{text}'"
  | invalidTableIndex index => s!"Invalid function table index - {index}"
  | invalidConfig problem => s!"Invalid configuration - {problem.message}"

end LinearHost

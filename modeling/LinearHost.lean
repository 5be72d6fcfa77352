import LinearHost.Arithmetic.Bitwise
import LinearHost.Host.Builder
import LinearHost.Memory.Description
import LinearHost.Memory.Operation
import LinearHost.Proofs.Memory.Elision
import LinearHost.Proofs.Memory.Failure
import LinearHost.Proofs.Memory.Growth
import LinearHost.Proofs.Memory.Capacity
import LinearHost.Proofs.Memory.Fresh
import LinearHost.Proofs.Memory.Nesting
import LinearHost.Proofs.Memory.Block
import LinearHost.Proofs.Memory.Grid
import LinearHost.Proofs.Memory.Ledger
import LinearHost.Proofs.Memory.Leftovers
import LinearHost.Proofs.Memory.Tidy
import LinearHost.Proofs.Layout.Placement
import LinearHost.Proofs.InStep
import LinearHost.Proofs.Memory.Resemblance
import LinearHost.Proofs.Memory.Secrecy
import LinearHost.Proofs.Memory.Assertions
import LinearHost.Host.Calls
import LinearHost.Proofs.Host.Parts
import LinearHost.Proofs.Host.Record
import LinearHost.Layout.Registration
import LinearHost.Proofs.Layout.Registry
import LinearHost.Proofs.Layout.Spelling
import LinearHost.Proofs.Layout.Leaves
import LinearHost.Proofs.Layout.Matching
import LinearHost.Proofs.Layout.Inline
import LinearHost.Proofs.Memory.Independence
import LinearHost.Dispatch.Operation
import LinearHost.Proofs.Dispatch.Modes
import LinearHost.Proofs.Dispatch.Wrapping
import LinearHost.Proofs.Dispatch.Failing
import LinearHost.Proofs.Dispatch.Signatures
import LinearHost.Proofs.Diagnostics.Reports
import LinearHost.Proofs.Text.RoundTrip
import LinearHost.Proofs.Arithmetic.Bitwise
import LinearHost.Proofs.Arithmetic.Shifts
import LinearHost.Proofs.Arithmetic.Reinterpretation
import LinearHost.Proofs.Arithmetic.Strictness
import LinearHost.Proofs.Arithmetic.Rounding
import LinearHost.Proofs.Layout.Grammar
import LinearHost.Proofs.Host.Texts
import LinearHost.Proofs.Memory.Copying
import LinearHost.Proofs.Memory.Scalars
import LinearHost.Proofs.Host.Loading
import LinearHost.Proofs.Layout.Stride
import LinearHost.Proofs.Host.Building
import LinearHost.Proofs.Host.Slot
import LinearHost.Proofs.Layout.Naming

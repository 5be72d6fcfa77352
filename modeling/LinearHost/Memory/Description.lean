import LinearHost.Memory.Basic

/-!
# Description of a memory

The one-line text that shows the sizes, regions and settings of a memory.
-/

namespace LinearHost

def Region.description (r : Region) : String :=
  s!"MemoryRegion \x7b kind: {r.kind.title}, base: {r.base}, top: {r.top}, limit: {r.limit} \x7d"

def Memory.description (m : Memory) : String :=
  s!"LinearMemory \x7b size: {m.size}, max_memory: {m.cap}, stack: {m.stack.description}, " ++
    s!"statics: {m.statics.description}, frames: {m.depth}, " ++
    s!"quantum: Quantum({m.quantum.bytes}), checks: {m.checks.text}, .. \x7d"

end LinearHost

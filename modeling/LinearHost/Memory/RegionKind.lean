/-!
# The two regions of a linear memory
-/

namespace LinearHost

/-- The regions that a linear memory is divided into. -/
inductive RegionKind where
  | stack
  | static
deriving DecidableEq, Repr

def RegionKind.text : RegionKind → String
  | stack => "stack"
  | static => "static"

def RegionKind.all : List RegionKind := [stack, static]

def RegionKind.ofText? (text : String) : Option RegionKind :=
  all.find? (·.text = text)

/-- The capitalised word for a region, as it stands in the description of a memory. -/
def RegionKind.title : RegionKind → String
  | stack => "Stack"
  | static => "Static"

end LinearHost

import Asm64.CodeBlock
import Asm64.FileStore

/-!
# Machines

What calling a function does is up to the machine that it is called on. All that is known of it is
the number that it returns, and what it leaves of the files.
-/

namespace Asm64

/-- A function in executable memory. -/
structure Function where
  block : CodeBlock
  offset : Int
deriving DecidableEq, Repr

/-- What there is when a function has returned. -/
structure Returned where
  value : Int64
  files : FileStore
deriving DecidableEq, Repr

structure Machine where
  /-- Whether it is of the kind that code is assembled for. -/
  runsCode : Bool
  /-- Where a function lies in its memory. -/
  address : Function → Nat
  call : Function → FileStore → Returned

namespace Machine

def idle : Machine := ⟨true, fun _ => 0, fun _ files => ⟨0, files⟩⟩

/-- A machine of another kind. -/
def foreign : Machine := { idle with runsCode := false }

end Machine

end Asm64

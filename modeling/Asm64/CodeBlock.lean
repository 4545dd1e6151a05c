import Asm64.Word

/-!
# Blocks of executable memory

Code is run from a block of memory that is first writable and then executable, and never both.
A block is as large as whole pages, and is closed in the end. What is asked of a block in the
wrong mode is misuse.
-/

namespace Asm64

inductive CodeBlock where
  | closed
  | mapped (code : List UInt8) (capacity : Nat) (isExecutable : Bool)
deriving DecidableEq, Repr

namespace CodeBlock

inductive Error where
  | invalidSize (size : Int)
  | capacity
  | closed
deriving DecidableEq, Repr

def Error.message : Error → Text
  | invalidSize size => ascii "execmem: invalid size " ++ Text.decimalInt size
  | capacity => ascii "execmem: write exceeds block capacity"
  | closed => ascii "execmem: block is closed"

inductive Misuse where
  | writeToExecutable
  | functionInClosed
  | functionInWritable
  | functionOutside (offset : Int) (length : Nat)
deriving DecidableEq, Repr

def Misuse.message : Misuse → Text
  | writeToExecutable => ascii "execmem: write to executable memory"
  | functionInClosed => Error.closed.message
  | functionInWritable => ascii "execmem: function in writable memory"
  | functionOutside offset length =>
    ascii "execmem: function offset " ++ Text.decimalInt offset ++ ascii " outside " ++
      Text.decimal length ++ ascii " bytes of code"

def length : CodeBlock → Nat
  | closed => 0
  | mapped code _ _ => code.length

def capacity : CodeBlock → Nat
  | closed => 0
  | mapped _ capacity _ => capacity

def pageSize : Nat := 4096

/-- The size of the pages for `n` bytes, at least one page. It is computed with signed 64-bit
numbers. -/
def mappedSize (pageSize : Nat) (n : Int) : Int :=
  max pageSize (wrap64 ((wrap64 (n + pageSize - 1)).tdiv pageSize * pageSize))

def allocateIn (pageSize : Nat) (n : Int) : Except Error CodeBlock :=
  if n < 0 then .error (.invalidSize n)
  else .ok (.mapped [] (mappedSize pageSize n).toNat false)

def allocate (n : Int) : Except Error CodeBlock := allocateIn pageSize n

structure WriteOutcome where
  block : CodeBlock
  /-- The number of bytes that were written. -/
  count : Nat
  error : Option Error
deriving DecidableEq, Repr

/-- Appends bytes to the code, as many as there is room for. -/
def write (block : CodeBlock) (bytes : List UInt8) : Except Misuse WriteOutcome :=
  match block with
  | closed => .ok ⟨closed, 0, some .closed⟩
  | mapped _ _ true => .error .writeToExecutable
  | mapped code capacity false =>
    let taken := bytes.take (capacity - code.length)
    .ok ⟨mapped (code ++ taken) capacity false, taken.length,
      if taken.length < bytes.length then some .capacity else none⟩

def makeExecutable : CodeBlock → Except Error CodeBlock
  | closed => .error .closed
  | mapped code capacity _ => .ok (mapped code capacity true)

def function (block : CodeBlock) (offset : Int) : Except Misuse (List UInt8) :=
  match block with
  | closed => .error .functionInClosed
  | mapped _ _ false => .error .functionInWritable
  | mapped code _ true =>
    if offset < 0 ∨ code.length ≤ offset then .error (.functionOutside offset code.length)
    else .ok (code.drop offset.toNat)

def close : CodeBlock → Except Error CodeBlock
  | closed => .error .closed
  | mapped _ _ _ => .ok closed

end CodeBlock

end Asm64

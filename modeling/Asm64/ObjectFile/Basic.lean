import Asm64.Object.Basic
import Asm64.Sha256

/-!
# The object file format

An object file is laid out as follows. Numbers are big endian.

* eight bytes that mark it as an object file, and a version byte;
* the code, the labels and the relocations, each after its length in four bytes;
* the SHA-256 digest of all that.

A label is its name, its offset in four bytes and a flag byte. A relocation is the name of its
label, its offset in four bytes, its size in one, the offset it is relative to in four, and a flag
byte. Names come after their length in two bytes. The low bit of a flag byte says that a label is
public, or that a relocation is external.
-/

namespace Asm64.ObjectFile

def magic : Text := ascii "asmacro\x00"

def version : UInt8 := 1

def minLength : Nat := magic.length + 1 + 4 + 4 + 4 + Sha256.digestLength

def isObject (data : List UInt8) : Bool := magic.isPrefixOf data

def isFieldSize (size : Int) : Bool := size = 1 ∨ size = 2 ∨ size = 4 ∨ size = 8

end Asm64.ObjectFile

import Asm64.Integer

/-!
# Values out of range

A value that does not fit in its field is reported with the range of values that would. A field
that is not sign-extended takes both signed and unsigned values.
-/

namespace Asm64

structure RangeError where
  /-- The directive or mnemonic that the value was given to. -/
  name : Text
  value : Integer
  least : Int
  greatest : Nat
deriving DecidableEq, Repr

namespace RangeError

/-- The ends of a range are those of the 64-bit range of its kind, shifted down to the width. -/
def ofWidth (name : Text) (value : Integer) (width : Width) (signed : Bool) : RangeError :=
  { name
    value
    least := (Int64.minValue >>> Int64.ofNat (64 - width.bits)).toInt
    greatest :=
      ((if signed then 0x7FFFFFFFFFFFFFFF else 0xFFFFFFFFFFFFFFFF) >>>
        UInt64.ofNat (64 - width.bits)).toNat }

def message (e : RangeError) : Text :=
  e.name ++ ascii ": value " ++ e.value.render ++ ascii " out of range [" ++
    Text.decimalInt e.least ++ ascii ", " ++ Text.decimal e.greatest ++ ascii "]"

end RangeError

end Asm64

import Asm64.Integer
import Asm64.Text.Blank

/-!
# Numbers and dates of TOML

Integers are signed 64-bit numbers, floats are in the range of double precision, and dates and
times are those of the calendar. Underscores may stand between two digits.
-/

namespace Asm64.Toml

def isDigit (b : UInt8) : Bool := 48 ≤ b ∧ b ≤ 57

def isSign (b : UInt8) : Bool := b = 43 ∨ b = 45

def isHexDigit (b : UInt8) : Bool := isDigit b ∨ (97 ≤ b ∧ b ≤ 102) ∨ (65 ≤ b ∧ b ≤ 70)

def splitSign (t : Text) : Bool × Text :=
  match t with
  | 45 :: rest => (true, rest)
  | 43 :: rest => (false, rest)
  | _ => (false, t)

/-- The digits of a number without the underscores between them, if there is a digit on both
sides of each underscore. -/
def digits? (t : Text) : Option Text :=
  let pieces := Text.split 95 t
  if pieces.any (·.isEmpty) then none else some pieces.flatten

def hasLeadingZero (digits : Text) : Bool := digits.head? = some 48 && 1 < digits.length

/-- Whether a run of digits is a number without leading zeros. -/
def isDecimal (t : Text) : Bool :=
  match digits? t with
  | some digits => digits.all isDigit && !hasLeadingZero digits
  | none => false

def isInteger (t : Text) : Bool :=
  let (negative, unsigned) := splitSign t
  let (base, written) := Integer.splitBase unsigned
  match digits? written with
  | none => false
  | some digits =>
    (base != 10 || !hasLeadingZero digits) &&
      match Integer.readNumeral? base digits with
      | some n => if negative then n ≤ Nat.pow 2 63 else n < Nat.pow 2 63
      | none => false

/-- Splits a float into the parts before and after the point, and the exponent. -/
def splitFloat (t : Text) : Text × Option Text × Option Text :=
  let isExponentMark (b : UInt8) : Bool := b = 101 ∨ b = 69
  let mantissa := t.takeWhile (!isExponentMark ·)
  let exponent := match t.dropWhile (!isExponentMark ·) with
    | _ :: exponent => some exponent
    | [] => none
  match Text.cut 46 mantissa with
  | some (whole, fraction) => (whole, some fraction, exponent)
  | none => (mantissa, none, exponent)

/-- The least number that is too large for double precision: numbers from half way between the
greatest finite one and the next power of two on are rounded up. -/
def floatLimit : Nat := Nat.pow 2 1024 - Nat.pow 2 970

/-- Whether `n * 10 ^ exponent` is in the range of double precision. -/
def isFloatInRange (n : Nat) (exponent : Int) : Bool :=
  let magnitude := (Text.decimal n).length + exponent
  n = 0 ∨ magnitude < 300 ∨
    (magnitude < 400 ∧
      if exponent < 0 then n < floatLimit * Nat.pow 10 exponent.natAbs
      else n * Nat.pow 10 exponent.toNat < floatLimit)

def isFloat (t : Text) : Bool :=
  let (whole, fraction, exponent) := splitFloat (splitSign t).2
  let read (t : Text) : Option Text := (digits? t).filter (·.all isDigit)
  match digits? whole, (fraction.map read).getD (some []),
      (exponent.map fun e => read (splitSign e).2).getD (some [48]) with
  | some wholeDigits, some fractionDigits, some exponentDigits =>
    isDecimal whole &&
      match Integer.readNumeral? 10 (wholeDigits ++ fractionDigits),
          Integer.readNumeral? 10 exponentDigits with
      | some n, some e =>
        let e : Int := if (splitSign (exponent.getD [])).1 then -e else e
        isFloatInRange n (e - fractionDigits.length)
      | _, _ => false
  | _, _, _ => false

def isTwoDigits (least greatest : Nat) (t : Text) : Bool :=
  match Integer.readNumeral? 10 t with
  | some n => t.length = 2 && t.all isDigit && least ≤ n && n ≤ greatest
  | none => false

def isLeapYear (year : Nat) : Bool := year % 4 = 0 ∧ (year % 100 ≠ 0 ∨ year % 400 = 0)

def daysIn (year month : Nat) : Nat :=
  if month = 2 then (if isLeapYear year then 29 else 28)
  else if month = 4 ∨ month = 6 ∨ month = 9 ∨ month = 11 then 30 else 31

def isDate (t : Text) : Bool :=
  match Text.split 45 t with
  | [year, month, day] =>
    year.length = 4 && year.all isDigit && isTwoDigits 1 12 month &&
      match Integer.readNumeral? 10 year, Integer.readNumeral? 10 month with
      | some year, some month => isTwoDigits 1 (daysIn year month) day
      | _, _ => false
  | _ => false

def isTime (t : Text) : Bool :=
  match Text.split 58 t with
  | [hour, minute, second] =>
    isTwoDigits 0 23 hour && isTwoDigits 0 59 minute && isTwoDigits 0 59 (second.take 2) &&
      match second.drop 2 with
      | [] => true
      | 46 :: fraction => !fraction.isEmpty && fraction.all isDigit
      | _ => false
  | _ => false

/-- An offset from universal time, such as `-07:00`. -/
def isZoneOffset (t : Text) : Bool :=
  match t with
  | sign :: rest =>
    isSign sign &&
      match Text.split 58 rest with
      | [hour, minute] => isTwoDigits 0 24 hour && isTwoDigits 0 60 minute
      | _ => false
  | [] => false

def isZonedTime (t : Text) : Bool :=
  isTime t ||
    if t.getLast? = some 90 then isTime t.dropLast
    else isTime (t.takeWhile (!isSign ·)) && isZoneOffset (t.dropWhile (!isSign ·))

/-- Whether a literal is a date, a time, or both. Between them stands a `T` or a space. -/
def isDateTime (t : Text) : Bool :=
  let t := (Text.trim t).map fun b => if b = 116 ∨ b = 32 then 84 else if b = 122 then 90 else b
  match Text.cut 84 t with
  | some (date, time) => isDate date && isZonedTime time
  | none => isDate t || isTime t

end Asm64.Toml

import Asm64.Toml.Basic
import Asm64.Toml.Quantity

/-!
# Reading TOML

A text is read item by item. All readers take the text from some point on and return what they
have read with the rest, or nothing if the text is not TOML. Values can be nested; each level
takes at least one byte, so the length of the text bounds the depth.
-/

namespace Asm64.Toml

/-- Reads something from the start of a text. -/
abbrev Reader (α : Type) := Text → Option (α × Text)

def isBlank (b : UInt8) : Bool := b = 32 ∨ b = 9

def isNewline (b : UInt8) : Bool := b = 10 ∨ b = 13

def skipBlanks (t : Text) : Text := t.dropWhile isBlank

def skipComment (t : Text) : Text := t.dropWhile (!isNewline ·)

/-- Drops blanks, newlines and comments. -/
def skipSpace (inComment : Bool) : Text → Text
  | [] => []
  | b :: rest =>
    if isNewline b then skipSpace false rest
    else if inComment ∨ isBlank b then skipSpace inComment rest
    else if b = 35 then skipSpace true rest
    else b :: rest

/-! ### Strings -/

def scalarOfHex? (digits : Text) : Option Nat :=
  if !digits.all isHexDigit then none
  else match Integer.readNumeral? 16 digits with
    | some n => if n < 0xD800 ∨ (0xE000 ≤ n ∧ n < 0x110000) then some n else none
    | none => none

def readEscape : Reader Text
  | 98 :: rest => some ([8], rest)
  | 116 :: rest => some ([9], rest)
  | 110 :: rest => some ([10], rest)
  | 102 :: rest => some ([12], rest)
  | 114 :: rest => some ([13], rest)
  | 34 :: rest => some ([34], rest)
  | 92 :: rest => some ([92], rest)
  | 117 :: rest => readScalar 4 rest
  | 85 :: rest => readScalar 8 rest
  | _ => none
where
  readScalar (count : Nat) (t : Text) : Option (Text × Text) :=
    if (t.take count).length = count then
      (scalarOfHex? (t.take count)).map fun code => (Text.encodeScalar code, t.drop count)
    else none

/-- Replaces the escape sequences of a string. A backslash at the end of a line, which only
strings of several lines can have, drops the white space after it. `fuel` bounds the number of
bytes. -/
def unescape (seen : Text) : (fuel : Nat) → Text → Option Text
  | 0, _ => none
  | _, [] => some seen.reverse
  | fuel + 1, b :: rest =>
    if b ≠ 92 then unescape (b :: seen) fuel rest
    else
      let isSpace (b : UInt8) : Bool := isBlank b || isNewline b
      if (rest.takeWhile isSpace).contains 10 then unescape seen fuel (rest.dropWhile isSpace)
      else match readEscape rest with
        | some (bytes, rest) => unescape (bytes.reverse ++ seen) fuel rest
        | none => none

/-- The raw content of a string on one line, up to its closing delimiter. `seen` is in reverse. -/
def readLineString (delimiter : UInt8) (escapes : Bool) (seen : Text) : Reader Text
  | [] => none
  | b :: rest =>
    if b = delimiter then some (seen.reverse, rest)
    else if isNewline b then none
    else if escapes ∧ b = 92 then
      match rest with
      | [] => none
      | escaped :: rest =>
        if isNewline escaped then none
        else readLineString delimiter escapes (escaped :: b :: seen) rest
    else readLineString delimiter escapes (b :: seen) rest

/-- The raw content of a string of several lines, up to its three closing delimiters. Up to two
more may stand in front of those. `seen` is in reverse. -/
def readLongString (delimiter : UInt8) (escapes : Bool) (seen : Text) : Reader Text
  | [] => none
  | b :: rest =>
    if b = delimiter then
      match rest with
      | c :: d :: after =>
        if c = delimiter ∧ d = delimiter then
          if after.head? = some delimiter then
            if hasFive (d :: c :: b :: seen) then none
            else readLongString delimiter escapes (b :: seen) rest
          else some (seen.reverse, after)
        else readLongString delimiter escapes (b :: seen) rest
      | _ => readLongString delimiter escapes (b :: seen) rest
    else if escapes ∧ b = 92 then
      match rest with
      | [] => none
      | escaped :: rest => readLongString delimiter escapes (escaped :: b :: seen) rest
    else readLongString delimiter escapes (b :: seen) rest
where
  /-- Whether the bytes so far end in five delimiters, the first of which has no backslash in front
  of it. -/
  hasFive (seen : Text) : Bool :=
    seen.take 5 = List.replicate 5 delimiter && !(escapes && (seen.drop 5).head? = some 92)

def dropFirstNewline (t : Text) : Text :=
  match t with
  | 10 :: rest => rest
  | 13 :: 10 :: rest => rest
  | _ => t

def unescapeRead : Option (Text × Text) → Option (Text × Text)
  | some (raw, rest) => (unescape [] (raw.length + 1) raw).map fun text => (text, rest)
  | none => none

def readString : Reader Text
  | 34 :: 34 :: 34 :: rest =>
    unescapeRead ((readLongString 34 true [] rest).map fun (raw, rest) => (dropFirstNewline raw, rest))
  | 34 :: rest => unescapeRead (readLineString 34 true [] rest)
  | 39 :: 39 :: 39 :: rest =>
    (readLongString 39 false [] rest).map fun (raw, rest) => (dropFirstNewline raw, rest)
  | 39 :: rest => readLineString 39 false [] rest
  | _ => none

/-! ### Keys -/

/-- Reads a part of a key, which is a bare name or a string on one line. -/
def readPart : Reader Text
  | 34 :: rest => unescapeRead (readLineString 34 true [] rest)
  | 39 :: rest => readLineString 39 false [] rest
  | t =>
    let name := t.takeWhile isBareByte
    if name.isEmpty then none else some (name, t.dropWhile isBareByte)

/-- Reads a dotted key. Blanks may stand around its parts. `seen` holds the parts before in
reverse. `fuel` bounds the number of parts. -/
def readKey (seen : Key) : (fuel : Nat) → Reader Key
  | 0, _ => none
  | fuel + 1, t =>
    match readPart (skipBlanks t) with
    | none => none
    | some (part, rest) =>
      match skipBlanks rest with
      | 46 :: rest => readKey (part :: seen) fuel rest
      | rest => some ((part :: seen).reverse, rest)

/-! ### Numbers, dates and truth values -/

/-- Reads a literal that starts with a digit or sign, as far as its kind reaches. -/
def readQuantity (t : Text) : Option Text :=
  let isDateByte (b : UInt8) : Bool :=
    isDigit b || [45, 58, 84, 116, 32, 46, 90, 122, 43].contains b
  let isNumberByte (b : UInt8) : Bool := isDigit b || b = 95
  let isFloatByte (b : UInt8) : Bool := isNumberByte b || [46, 45, 43, 101, 69].contains b
  let accept (valid : Text → Bool) (belongs : UInt8 → Bool) : Option Text :=
    if valid (t.takeWhile belongs) then some (t.dropWhile belongs) else none
  let based (isBaseDigit : UInt8 → Bool) : Option Text :=
    let digits := (t.drop 2).takeWhile fun b => isBaseDigit b || b = 95
    if isInteger (t.take 2 ++ digits) then some (t.drop (2 + digits.length)) else none
  let decimal : Option Text :=
    let (sign, unsigned) := (t.takeWhile isSign, t.dropWhile isSign)
    let number := unsigned.takeWhile isNumberByte
    let rest := unsigned.drop number.length
    if number.isEmpty ∨ 1 < sign.length then none
    else if rest.head? = some 46 ∨ rest.head? = some 101 ∨ rest.head? = some 69 then
      let float := unsigned.takeWhile isFloatByte
      if isFloat (sign ++ float) then some (unsigned.drop float.length) else none
    else if isInteger (sign ++ number) then some rest else none
  match t with
  | 48 :: 98 :: _ => based fun b => b = 48 ∨ b = 49
  | 48 :: 111 :: _ => based fun b => 48 ≤ b ∧ b ≤ 55
  | 48 :: 120 :: _ => based isHexDigit
  | _ =>
    let digits := t.takeWhile isDigit
    match t.drop digits.length with
    | b :: _ =>
      if (b = 45 ∨ b = 58) ∧ !digits.isEmpty ∧ digits ≠ [48] then accept isDateTime isDateByte
      else decimal
    | [] => decimal

/-- Reads a value that is no string, array or table. -/
def readScalar (t : Text) : Option (Value × Text) :=
  let word (name : String) (value : Value) : Option (Value × Text) :=
    (Text.dropStart? (ascii name) t).map fun rest => (value, rest)
  word "true" (.boolean true) <|> word "false" (.boolean false) <|>
    word "inf" .quantity <|> word "nan" .quantity <|>
    word "+inf" .quantity <|> word "+nan" .quantity <|>
    word "-inf" .quantity <|> word "-nan" .quantity <|>
    (readQuantity t).map fun rest => (.quantity, rest)

/-! ### Values -/

mutual

def readValue : (fuel : Nat) → Reader Value
  | 0, _ => none
  | fuel + 1, t =>
    match skipBlanks t with
    | 91 :: rest => (readElements fuel [] rest).map fun (elements, rest) => (.array elements, rest)
    | 123 :: rest => (readPairs fuel [] rest).map fun (pairs, rest) => (.table pairs, rest)
    | 34 :: rest => (readString (34 :: rest)).map fun (text, rest) => (.text text, rest)
    | 39 :: rest => (readString (39 :: rest)).map fun (text, rest) => (.text text, rest)
    | t => readScalar t

/-- Reads the elements of an array up to its closing bracket. `seen` is in reverse. -/
def readElements : (fuel : Nat) → List Value → Reader (List Value)
  | 0, _, _ => none
  | fuel + 1, seen, t =>
    match skipSpace false t with
    | 93 :: rest => some (seen.reverse, rest)
    | t =>
      match readValue fuel t with
      | none => none
      | some (value, rest) =>
        match skipSpace false rest with
        | 44 :: rest => readElements fuel (value :: seen) rest
        | 93 :: rest => some ((value :: seen).reverse, rest)
        | _ => none

/-- Reads the pairs of an inline table up to its closing brace. `seen` is in reverse. -/
def readPairs : (fuel : Nat) → List (Key × Value) → Reader (List (Key × Value))
  | 0, _, _ => none
  | fuel + 1, seen, t =>
    match skipBlanks t with
    | 125 :: rest => if seen.isEmpty then some ([], rest) else none
    | t =>
      match readKey [] (t.length + 1) t with
      | some (key, 61 :: rest) =>
        match readValue fuel rest with
        | none => none
        | some (value, rest) =>
          match skipBlanks rest with
          | 44 :: rest => readPairs fuel ((key, value) :: seen) rest
          | 125 :: rest => some (((key, value) :: seen).reverse, rest)
          | _ => none
      | _ => none

end

/-! ### Items -/

/-- Drops the rest of a line after an item. Only blanks and a comment may stand there. -/
def endLine? (t : Text) : Option Text :=
  match skipBlanks t with
  | [] => some []
  | 35 :: rest => some (skipComment rest)
  | b :: rest => if isNewline b then some rest else none

def readItem (t : Text) : Option (Item × Text) := do
  match t with
  | 91 :: 91 :: rest =>
    let (key, rest) ← readKey [] (rest.length + 1) rest
    match rest with
    | 93 :: 93 :: rest => return (.arrayTable key, ← endLine? rest)
    | _ => none
  | 91 :: rest =>
    let (key, rest) ← readKey [] (rest.length + 1) rest
    match rest with
    | 93 :: rest => return (.table key, ← endLine? rest)
    | _ => none
  | _ =>
    let (key, rest) ← readKey [] (t.length + 1) t
    match rest with
    | 61 :: rest =>
      let (value, rest) ← readValue (2 * rest.length + 2) rest
      return (.pair key value, ← endLine? rest)
    | _ => none

/-- Reads all items. `seen` is in reverse. `fuel` bounds their number. -/
def readItems (seen : List Item) : (fuel : Nat) → Text → Option (List Item)
  | 0, _ => none
  | fuel + 1, t =>
    match skipSpace false t with
    | [] => some seen.reverse
    | t =>
      match readItem t with
      | some (item, rest) => readItems (item :: seen) fuel rest
      | none => none

def dropByteOrderMark (t : Text) : Text :=
  match t with
  | 0xFF :: 0xFE :: rest => rest
  | 0xFE :: 0xFF :: rest => rest
  | 0xEF :: 0xBB :: 0xBF :: rest => rest
  | _ => t

/-- Whether a carriage return stands before newlines only. -/
def hasPlainNewlines : Text → Bool
  | [] => true
  | b :: rest => (b != 13 || rest.head? = some 10) && hasPlainNewlines rest

/-- Whether a text holds nothing but characters, and of the control characters only tabs and
newlines. -/
def isPlain (t : Text) : Bool :=
  hasPlainNewlines t &&
    (Text.symbols t).all fun
      | .scalar code => (32 ≤ code && code != 127) || code = 9 || code = 10 || code = 13
      | .stray _ => false

def parse (t : Text) : Option (List Item) :=
  let t := dropByteOrderMark t
  if isPlain t then readItems [] (t.length + 1) t else none

end Asm64.Toml

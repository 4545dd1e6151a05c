import Asm64.Text.Quoted

/-!
# Command line flags

A flag is given by its name after two dashes or by its letter after one. A switch needs no value,
and letters of switches can be written together. Any other flag takes its value after an equals
sign, from the rest of its letters, or from the next argument. Two dashes end the flags; what is no
flag is an argument.
-/

namespace Asm64

structure Flag where
  name : String
  letter : Option UInt8
  isSwitch : Bool
  defaultValue : Text
  description : String
deriving DecidableEq, Repr

namespace Flag

def switch (name : String) (letter : Option UInt8) (description : String) : Flag :=
  ⟨name, letter, true, [], description⟩

def option (name : String) (letter : Option UInt8) (defaultValue : Text) (description : String) :
    Flag :=
  ⟨name, letter, false, defaultValue, description⟩

def title (f : Flag) : Text :=
  match f.letter with
  | some letter => [45, letter, 44, 32, 45, 45] ++ ascii f.name
  | none => [45, 45] ++ ascii f.name

inductive Error where
  | malformed (argument : Text)
  | unknown (name : Text)
  | unknownLetter (letter : UInt8) (letters : Text)
  | needsValue (argument : Text)
  | letterNeedsValue (letter : UInt8) (letters : Text)
  | notBoolean (flag : Flag) (value : Text)
deriving DecidableEq, Repr

def Error.message : Error → Text
  | malformed argument => ascii "bad flag syntax: " ++ argument
  | unknown name => ascii "unknown flag: --" ++ name
  | unknownLetter letter letters =>
    ascii "unknown shorthand flag: " ++ Text.quoteByte letter ++ ascii " in -" ++ letters
  | needsValue argument => ascii "flag needs an argument: " ++ argument
  | letterNeedsValue letter letters =>
    ascii "flag needs an argument: " ++ Text.quoteByte letter ++ ascii " in -" ++ letters
  | notBoolean flag value =>
    ascii "invalid argument " ++ Text.quote value ++ ascii " for " ++ Text.quote flag.title ++
      ascii " flag: strconv.ParseBool: parsing " ++ Text.quote value ++ ascii ": invalid syntax"

structure Setting where
  flag : Flag
  value : Text
deriving DecidableEq, Repr

def trueWords : List String := ["1", "t", "T", "true", "TRUE", "True"]
def falseWords : List String := ["0", "f", "F", "false", "FALSE", "False"]

/-- The value of a switch that is given without one. -/
def on : Text := ascii "true"

/-- Gives a flag a value. The value of a switch has to be a truth value. -/
def set (f : Flag) (value : Text) : Except Error Setting :=
  if !f.isSwitch then .ok ⟨f, value⟩
  else if trueWords.any (ascii · == value) then .ok ⟨f, on⟩
  else if falseWords.any (ascii · == value) then .ok ⟨f, ascii "false"⟩
  else .error (.notBoolean f value)

/-- The flags in a group of letters, and whether the last one took the next argument as its
value. -/
def readLetters (flags : List Flag) (next : Option Text) :
    (letters : Text) → Except Error (List Setting × Bool)
  | [] => .ok ([], false)
  | letter :: rest => do
    if Text.startsWith (ascii "test.") (letter :: rest) then return ([], false)
    match flags.find? (·.letter = some letter), rest with
    | none, _ => .error (.unknownLetter letter (letter :: rest))
    | some flag, 61 :: first :: value => return ([← flag.set (first :: value)], false)
    | some flag, _ =>
      if flag.isSwitch then
        let (settings, usesNext) ← readLetters flags next rest
        return (⟨flag, on⟩ :: settings, usesNext)
      else if !rest.isEmpty then return ([← flag.set rest], false)
      else match next with
        | some value => return ([← flag.set value], true)
        | none => .error (.letterNeedsValue letter [letter])

/-- The flag in an argument that starts with two dashes, and whether it took the next argument as its
value. -/
def readLong (flags : List Flag) (next : Option Text) (argument : Text) :
    Except Error (Setting × Bool) := do
  let text := argument.drop 2
  if text.head? = some 45 ∨ text.head? = some 61 then .error (.malformed argument)
  let name := text.takeWhile (· != 61)
  match flags.find? fun flag => ascii flag.name == name with
  | none => .error (.unknown name)
  | some flag =>
    match text.dropWhile (· != 61) with
    | _ :: value => return (← flag.set value, false)
    | [] =>
      if flag.isSwitch then return (⟨flag, on⟩, false)
      else match next with
        | some value => return (← flag.set value, true)
        | none => .error (.needsValue argument)

structure Parsed where
  settings : List Setting
  arguments : List Text
deriving DecidableEq, Repr

namespace Parsed

def empty : Parsed := ⟨[], []⟩

def value? (p : Parsed) (name : String) : Option Text :=
  (p.settings.reverse.find? fun s => s.flag.name = name).map (·.value)

def isOn (p : Parsed) (name : String) : Bool := p.value? name = some on

end Parsed

def isFlag (argument : Text) : Bool := argument.head? = some 45 && 1 < argument.length

/-- Reads arguments. `p` is what was read before them. -/
def parseFrom (flags : List Flag) (p : Parsed) : List Text → Except Error Parsed
  | [] => .ok p
  | argument :: rest =>
    if !isFlag argument then
      parseFrom flags { p with arguments := p.arguments ++ [argument] } rest
    else if argument = ascii "--" then .ok { p with arguments := p.arguments ++ rest }
    else do
      let (settings, usesNext) ←
        if Text.startsWith (ascii "--") argument then
          (readLong flags rest.head? argument).map fun (setting, usesNext) => ([setting], usesNext)
        else readLetters flags rest.head? (argument.drop 1)
      let p := { p with settings := p.settings ++ settings }
      if usesNext then
        match rest with
        | _ :: after => parseFrom flags p after
        | [] => return p
      else parseFrom flags p rest

def parse (flags : List Flag) (arguments : List Text) : Except Error Parsed :=
  parseFrom flags .empty arguments

/-- How a flag is written, for the first column of a description. -/
def usageColumn (f : Flag) : Text :=
  (match f.letter with
   | some _ => ascii "  " ++ f.title
   | none => ascii "      " ++ f.title) ++
  if f.isSwitch then [] else ascii " string"

def usage (flags : List Flag) : Text :=
  let width := (flags.map (·.usageColumn.length)).foldl max 0 + 3
  flags.flatMap fun f =>
    Text.padEnd width 32 f.usageColumn ++ ascii f.description ++
      (if f.defaultValue.isEmpty then []
       else ascii " (default " ++ Text.quote f.defaultValue ++ ascii ")") ++ [10]

end Flag

end Asm64

import Asm64.Text.LowerCase

/-!
# Words of a command line

The first argument that is no flag names the command. A flag that may take a value hides the word
after it. A word that names no command is compared with the names of all commands.
-/

namespace Asm64.Command

/-- Whether a word may be the value of the flag before it. Only the flag for verbosity is known to
take none. -/
def mayTakeValue (argument : Text) : Bool :=
  !argument.contains 61 &&
    ((Text.startsWith (ascii "--") argument && argument != ascii "--verbose") ||
      (argument.head? = some 45 && argument.length = 2 && argument != ascii "-v"))

/-- The words among arguments that are no flags and no values of flags. A flag with a single
argument after it ends the search. -/
def words : List Text → List Text
  | [] => []
  | argument :: rest =>
    if argument = ascii "--" then []
    else if mayTakeValue argument then
      match rest with
      | _ :: next :: after => words (next :: after)
      | _ => []
    else if argument.head? = some 45 || argument.isEmpty then words rest
    else argument :: words rest

/-- The arguments without the first word that is `name`. -/
def withoutWord (name : Text) : List Text → List Text
  | [] => []
  | argument :: rest =>
    if argument = ascii "--" then argument :: rest
    else if mayTakeValue argument then
      match rest with
      | value :: after => argument :: value :: withoutWord name after
      | [] => [argument]
    else if argument = name then rest
    else argument :: withoutWord name rest

/-- The row of edit distances after one more byte of the first text. `diagonal` is the entry above
and before the next one, `left` the one before it. -/
def distanceRow (b : UInt8) (diagonal left : Nat) : Text → List Nat → List Nat
  | c :: text, above :: row =>
    let entry := min (min (left + 1) (above + 1)) (if b = c then diagonal else diagonal + 1)
    entry :: distanceRow b above entry text row
  | _, _ => []

/-- The least number of bytes to insert, delete or replace to turn one text into the other. -/
def editDistance (s t : Text) : Nat :=
  let first := List.range (t.length + 1)
  (s.foldl
    (fun row b =>
      match row with
      | diagonal :: above => (diagonal + 1) :: distanceRow b diagonal (diagonal + 1) t above
      | [] => [])
    first).getLastD 0

/-- The commands that a mistyped word may stand for: those that start with it, and those that are
at most two edits away. Case does not count. -/
def suggestions (known : List Text) (word : Text) : List Text :=
  let word := Text.lowerCase word
  known.filter fun name =>
    let name := Text.lowerCase name
    editDistance word name ≤ 2 || Text.startsWith word name

end Asm64.Command

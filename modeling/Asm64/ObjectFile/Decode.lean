import Asm64.ObjectFile.Basic

/-!
# Reading object files

Every part of a file is checked: the digest, that nothing is missing and nothing is left over,
and that labels and relocations lie in the code.
-/

namespace Asm64.ObjectFile

inductive DecodeError where
  | truncated
  | magic (found : Text)
  | digest
  | version (found : UInt8)
  | trailing (count : Nat)
  | labelTruncated (index : Nat)
  | labelName (index : Nat) (name : Text)
  | labelOffset (name : Text) (offset : Nat)
  | labelFlags (name : Text) (flags : UInt8)
  | relocationTruncated (index : Nat)
  | relocationName (index : Nat) (name : Text)
  | relocationSize (label : Text) (size : Nat)
  | relocationOffset (label : Text) (offset : Nat)
  | relocationFlags (label : Text) (flags : UInt8)
deriving DecidableEq, Repr

namespace DecodeError

def isTruncation : DecodeError → Bool
  | truncated => true
  | labelTruncated _ => true
  | relocationTruncated _ => true
  | _ => false

def message : DecodeError → Text
  | .version found =>
    ascii "unsupported object file: got version " ++ Text.decimal found.toNat ++
      ascii ", but only " ++ Text.decimal ObjectFile.version.toNat ++ ascii " is supported"
  | truncated => invalid (ascii "unexpected EOF")
  | .magic found =>
    invalid (ascii "got magic " ++ Text.quote found ++ ascii ", want " ++
      Text.quote ObjectFile.magic)
  | digest => invalid (ascii "checksum mismatch")
  | trailing count => invalid (Text.decimal count ++ ascii " trailing bytes")
  | labelTruncated index =>
    invalid (ascii "label " ++ Text.decimal index ++ ascii ": unexpected EOF")
  | labelName index name =>
    invalid (ascii "label " ++ Text.decimal index ++ ascii " has invalid name " ++
      Text.quote name)
  | labelOffset name offset =>
    invalid (ascii "label " ++ Text.quote name ++ ascii " has offset " ++ Text.decimal offset ++
      ascii " beyond the code")
  | labelFlags name flags => invalid (ascii "label " ++ Text.quote name ++ unknownFlags flags)
  | relocationTruncated index =>
    invalid (ascii "location " ++ Text.decimal index ++ ascii ": unexpected EOF")
  | relocationName index name =>
    invalid (ascii "location " ++ Text.decimal index ++ ascii " has invalid label " ++
      Text.quote name)
  | relocationSize label size =>
    invalid (reference label ++ ascii " has invalid size " ++ Text.decimal size)
  | relocationOffset label offset =>
    invalid (reference label ++ ascii " at offset " ++ Text.decimal offset ++
      ascii " is beyond the code")
  | relocationFlags label flags => invalid (reference label ++ unknownFlags flags)
where
  invalid (reason : Text) : Text := ascii "invalid object file: " ++ reason
  reference (label : Text) : Text := ascii "reference to " ++ Text.quote label
  unknownFlags (flags : UInt8) : Text := ascii " has unknown flags 0x" ++ Text.hex 1 flags.toNat

end DecodeError

def take? (count : Nat) (bytes : List UInt8) : Option (List UInt8 × List UInt8) :=
  if (bytes.take count).length = count then some (bytes.take count, bytes.drop count) else none

def readNumber? (count : Nat) (bytes : List UInt8) : Option (Nat × List UInt8) :=
  (take? count bytes).map fun (field, rest) => (ofBigEndian field, rest)

/-- Reads bytes that come after their length in `count` bytes. -/
def readCounted? (count : Nat) (bytes : List UInt8) : Option (List UInt8 × List UInt8) := do
  let (length, rest) ← readNumber? count bytes
  take? length rest

structure LabelRecord where
  name : Text
  offset : Nat
  flags : UInt8
deriving DecidableEq, Repr

def readLabel? (bytes : List UInt8) : Option (LabelRecord × List UInt8) := do
  let (name, rest) ← readCounted? 2 bytes
  let (offset, rest) ← readNumber? 4 rest
  let (flags, rest) ← readNumber? 1 rest
  return (⟨name, offset, UInt8.ofNat flags⟩, rest)

structure RelocationRecord where
  label : Text
  offset : Nat
  size : Nat
  relativeTo : Nat
  flags : UInt8
deriving DecidableEq, Repr

def readRelocation? (bytes : List UInt8) : Option (RelocationRecord × List UInt8) := do
  let (label, rest) ← readCounted? 2 bytes
  let (offset, rest) ← readNumber? 4 rest
  let (size, rest) ← readNumber? 1 rest
  let (relativeTo, rest) ← readNumber? 4 rest
  let (flags, rest) ← readNumber? 1 rest
  return (⟨label, offset, size, relativeTo, UInt8.ofNat flags⟩, rest)

/-! Reading shortens the input, which is why reading records one after another ends. -/

theorem length_of_take? {count : Nat} {bytes field rest : List UInt8}
    (h : take? count bytes = some (field, rest)) : rest.length + count = bytes.length := by
  simp only [take?] at h
  split at h
  · rename_i enough
    simp only [Option.some.injEq, Prod.mk.injEq] at h
    obtain ⟨-, rfl⟩ := h
    simp only [List.length_take] at enough
    simp only [List.length_drop]
    omega
  · simp at h

theorem length_of_readNumber? {count n : Nat} {bytes rest : List UInt8}
    (h : readNumber? count bytes = some (n, rest)) : rest.length + count = bytes.length := by
  simp only [readNumber?, Option.map_eq_some_iff, Prod.exists, Prod.mk.injEq] at h
  obtain ⟨field, rest', taken, -, rfl⟩ := h
  exact length_of_take? taken

theorem length_le_of_readCounted? {count : Nat} {bytes field rest : List UInt8}
    (h : readCounted? count bytes = some (field, rest)) :
    rest.length + count ≤ bytes.length := by
  simp only [readCounted?, bind, Option.bind_eq_some_iff, Prod.exists] at h
  obtain ⟨length, rest', number, taken⟩ := h
  have := length_of_readNumber? number
  have := length_of_take? taken
  omega

theorem length_lt_of_readLabel? {bytes rest : List UInt8} {record : LabelRecord}
    (h : readLabel? bytes = some (record, rest)) : rest.length < bytes.length := by
  simp only [readLabel?, bind, Option.bind_eq_some_iff, Prod.exists, pure,
    Option.some.injEq, Prod.mk.injEq] at h
  obtain ⟨_, _, name, _, _, offset, _, _, flags, -, rfl⟩ := h
  have := length_le_of_readCounted? name
  have := length_of_readNumber? offset
  have := length_of_readNumber? flags
  omega

theorem length_lt_of_readRelocation? {bytes rest : List UInt8} {record : RelocationRecord}
    (h : readRelocation? bytes = some (record, rest)) : rest.length < bytes.length := by
  simp only [readRelocation?, bind, Option.bind_eq_some_iff, Prod.exists, pure,
    Option.some.injEq, Prod.mk.injEq] at h
  obtain ⟨_, _, label, _, _, offset, _, _, size, _, _, relativeTo, _, _, flags, -, rfl⟩ := h
  have := length_le_of_readCounted? label
  have := length_of_readNumber? offset
  have := length_of_readNumber? size
  have := length_of_readNumber? relativeTo
  have := length_of_readNumber? flags
  omega

def hasUnknownFlags (flags : UInt8) : Bool := flags &&& 0xFE != 0

def flagOf (flags : UInt8) : Bool := flags &&& 1 != 0

def checkLabel (codeLength index : Nat) (r : LabelRecord) : Except DecodeError Label :=
  if !Text.isIdentifier r.name then .error (.labelName index r.name)
  else if codeLength < r.offset then .error (.labelOffset r.name r.offset)
  else if hasUnknownFlags r.flags then .error (.labelFlags r.name r.flags)
  else .ok ⟨r.name, r.offset, flagOf r.flags⟩

def checkRelocation (codeLength index : Nat) (r : RelocationRecord) :
    Except DecodeError Relocation :=
  if !Text.isIdentifier r.label then .error (.relocationName index r.label)
  else if !isFieldSize r.size then .error (.relocationSize r.label r.size)
  else if codeLength < r.offset + r.size then .error (.relocationOffset r.label r.offset)
  else if hasUnknownFlags r.flags then .error (.relocationFlags r.label r.flags)
  else .ok ⟨r.label, r.offset, r.size, r.relativeTo, flagOf r.flags⟩

/-- Reads labels, the first of which has the given index, until the bytes are used up. -/
def readLabels (codeLength index : Nat) (bytes : List UInt8) : Except DecodeError (List Label) :=
  if bytes.isEmpty then .ok []
  else match _ : readLabel? bytes with
    | none => .error (.labelTruncated index)
    | some (record, rest) => do
      let label ← checkLabel codeLength index record
      let labels ← readLabels codeLength (index + 1) rest
      return label :: labels
termination_by bytes.length
decreasing_by exact length_lt_of_readLabel? (by assumption)

/-- Reads relocations, the first of which has the given index, until the bytes are used up. -/
def readRelocations (codeLength index : Nat) (bytes : List UInt8) :
    Except DecodeError (List Relocation) :=
  if bytes.isEmpty then .ok []
  else match _ : readRelocation? bytes with
    | none => .error (.relocationTruncated index)
    | some (record, rest) => do
      let relocation ← checkRelocation codeLength index record
      let relocations ← readRelocations codeLength (index + 1) rest
      return relocation :: relocations
termination_by bytes.length
decreasing_by exact length_lt_of_readRelocation? (by assumption)

def decodeSections (bytes : List UInt8) : Except DecodeError Object :=
  match readSections? bytes with
  | none => .error .truncated
  | some (code, labelBytes, relocationBytes, trailing) => do
    if !trailing.isEmpty then .error (.trailing trailing.length)
    let labels ← readLabels code.length 0 labelBytes
    let relocations ← readRelocations code.length 0 relocationBytes
    return ⟨code, labels, relocations⟩
where
  readSections? (bytes : List UInt8) :
      Option (List UInt8 × List UInt8 × List UInt8 × List UInt8) := do
    let (code, rest) ← readCounted? 4 bytes
    let (labels, rest) ← readCounted? 4 rest
    let (relocations, rest) ← readCounted? 4 rest
    return (code, labels, relocations, rest)

def decode (data : List UInt8) : Except DecodeError Object :=
  let bodyLength := data.length - Sha256.digestLength
  if data.length < minLength then .error .truncated
  else if !isObject data then .error (.magic (data.take magic.length))
  else if Sha256.digest (data.take bodyLength) ≠ data.drop bodyLength then .error .digest
  else match (data.take bodyLength).drop magic.length with
    | [] => .error .truncated
    | found :: rest =>
      if found ≠ version then .error (.version found) else decodeSections rest

end Asm64.ObjectFile

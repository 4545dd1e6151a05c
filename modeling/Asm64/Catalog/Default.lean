import Asm64.Catalog.Basic

/-!
# The default catalog

The forms of the instructions that the assembler supports. Shorter encodings come before longer
ones that accept the same operands. A memory operand without a size suffix takes the first form
that it fits, so the 32-bit form of a group comes first.
-/

namespace Asm64.Catalog

/-- The parts of an encoding after the opcode, for the families below. -/
structure Tail where
  registerModifier : Option Width := none
  modRM : ModRMRule := .none
  value : Option ValueField := none
  operandSize : Option Width := none

def form (mnemonic : String) (operands : List OperandType) (opcode : List UInt8) (tail : Tail) :
    Form :=
  ⟨ascii mnemonic, operands,
    ⟨opcode, tail.registerModifier, tail.modRM, tail.value, tail.operandSize⟩⟩

/-! ### Parts of encodings -/

def plain : Tail := { }
def slash (digit : Fin 8) : Tail := { modRM := .digit digit }
def slashR : Tail := { modRM := .register }
def plusR (width : Width) : Tail := { registerModifier := some width }

namespace Tail

def imm (tail : Tail) (width : Width) : Tail := { tail with value := some ⟨width, false⟩ }
def offset (tail : Tail) (width : Width) : Tail := { tail with value := some ⟨width, true⟩ }
/-- The operand size is 64 bits without a REX prefix. -/
def wide (tail : Tail) : Tail := { tail with operandSize := some .qword }

end Tail

/-! ### Operand types -/

def al : OperandType := .accumulator .byte
def ax : OperandType := .accumulator .word
def eax : OperandType := .accumulator .dword
def reg (width : Width) : OperandType := .register width
def rm (width : Width) : OperandType := .registerOrMemory width
def imm (width : Width) : OperandType := .immediate width
def rel (width : OffsetWidth) : OperandType := .relative width

/-- The widths above a byte, in the order in which a memory operand without a size tries them. -/
def wideWidths : List Width := [.dword, .qword, .word]

def widths : List Width := wideWidths ++ [.byte]

/-- Most groups have one opcode for bytes and the next one for all other widths. -/
def opcodeFor (byteOpcode : UInt8) (width : Width) : List UInt8 :=
  if width = .byte then [byteOpcode] else [byteOpcode + 1]

/-- The width of an immediate for operands of a width: at most 32 bits. -/
def immediateWidth : Width → Width
  | .qword => .dword
  | width => width

/-! ### Families -/

def withImmediate (mnemonic : String) (byteOpcode : UInt8) (digit : Fin 8) : List Form :=
  widths.map fun w =>
    form mnemonic [rm w, imm (immediateWidth w)] (opcodeFor byteOpcode w)
      ((slash digit).imm (immediateWidth w))

def withAccumulator (mnemonic : String) (byteOpcode : UInt8) : List Form :=
  Width.all.map fun w =>
    form mnemonic [.accumulator w, imm (immediateWidth w)] (opcodeFor byteOpcode w)
      (plain.imm (immediateWidth w))

def storeForms (mnemonic : String) (byteOpcode : UInt8) : List Form :=
  widths.map fun w => form mnemonic [rm w, reg w] (opcodeFor byteOpcode w) slashR

def loadForms (mnemonic : String) (byteOpcode : UInt8) : List Form :=
  widths.map fun w => form mnemonic [reg w, rm w] (opcodeFor byteOpcode w) slashR

def wideLoadForms (mnemonic : String) (opcode : List UInt8) : List Form :=
  wideWidths.map fun w => form mnemonic [reg w, rm w] opcode slashR

/-- The eight operations that differ only in a digit. -/
def arithmetic (mnemonic : String) (digit : Fin 8) : List Form :=
  let base := UInt8.ofNat (8 * digit.val)
  (wideWidths.map fun w => form mnemonic [rm w, imm .byte] [0x83] ((slash digit).imm .byte)) ++
    withAccumulator mnemonic (base + 4) ++
    withImmediate mnemonic 0x80 digit ++
    storeForms mnemonic base ++
    loadForms mnemonic (base + 2)

def unary (mnemonic : String) (byteOpcode : UInt8) (digit : Fin 8) : List Form :=
  widths.map fun w => form mnemonic [rm w] (opcodeFor byteOpcode w) (slash digit)

def shift (mnemonic : String) (digit : Fin 8) : List Form :=
  (widths.map fun w =>
    form mnemonic [rm w, imm .byte] (opcodeFor 0xC0 w) ((slash digit).imm .byte)) ++
  widths.map fun w => form mnemonic [rm w, .count] (opcodeFor 0xD2 w) (slash digit)

/-- A move of a byte or word to a wider register. -/
def extension (mnemonic : String) (byteOpcode : UInt8) : List Form :=
  (wideWidths.map fun w => form mnemonic [reg w, rm .byte] [0x0F, byteOpcode] slashR) ++
  [.dword, .qword].map fun w => form mnemonic [reg w, rm .word] [0x0F, byteOpcode + 1] slashR

/-- The conditions by name, with the number that is added to an opcode. -/
def conditions : List (String × UInt8) :=
  [("O", 0), ("NO", 1), ("B", 2), ("C", 2), ("NAE", 2), ("AE", 3), ("NB", 3), ("NC", 3),
    ("E", 4), ("Z", 4), ("NE", 5), ("NZ", 5), ("BE", 6), ("NA", 6), ("A", 7), ("NBE", 7),
    ("S", 8), ("NS", 9), ("P", 10), ("PE", 10), ("NP", 11), ("PO", 11),
    ("L", 12), ("NGE", 12), ("GE", 13), ("NL", 13), ("LE", 14), ("NG", 14),
    ("G", 15), ("NLE", 15)]

def conditionalMoves : List Form :=
  conditions.flatMap fun (name, number) => wideLoadForms ("CMOV" ++ name) [0x0F, 0x40 + number]

def conditionalSets : List Form :=
  conditions.map fun (name, number) =>
    form ("SET" ++ name) [rm .byte] [0x0F, 0x90 + number] (slash 0)

def conditionalJumps : List Form :=
  conditions.map fun (name, number) =>
    form ("J" ++ name) [rel .dword] [0x0F, 0x80 + number] (plain.offset .dword)

/-- An instruction without operands. -/
def bare (mnemonic : String) (opcode : List UInt8) : Form := form mnemonic [] opcode plain

/-! ### Groups -/

def arithmeticForms : List Form :=
  arithmetic "ADD" 0 ++ arithmetic "OR" 1 ++ arithmetic "ADC" 2 ++ arithmetic "SBB" 3 ++
  arithmetic "AND" 4 ++ arithmetic "SUB" 5 ++ arithmetic "XOR" 6 ++ arithmetic "CMP" 7

def unaryForms : List Form :=
  unary "NOT" 0xF6 2 ++ unary "NEG" 0xF6 3 ++ unary "MUL" 0xF6 4 ++ unary "IMUL" 0xF6 5 ++
  unary "DIV" 0xF6 6 ++ unary "IDIV" 0xF6 7 ++ unary "INC" 0xFE 0 ++ unary "DEC" 0xFE 1 ++
  wideLoadForms "IMUL" [0x0F, 0xAF]

def testForms : List Form :=
  withAccumulator "TEST" 0xA8 ++ withImmediate "TEST" 0xF6 0 ++ storeForms "TEST" 0x84

def shiftForms : List Form :=
  shift "ROL" 0 ++ shift "ROR" 1 ++ shift "RCL" 2 ++ shift "RCR" 3 ++
  shift "SHL" 4 ++ shift "SAL" 4 ++ shift "SHR" 5 ++ shift "SAR" 7

/-- The moves of an immediate are ordered by the length of their encoding. -/
def moveImmediateForms : List Form :=
  [form "MOV" [reg .dword, imm .dword] [0xB8] ((plusR .dword).imm .dword),
    form "MOV" [rm .dword, imm .dword] [0xC7] ((slash 0).imm .dword),
    form "MOV" [rm .qword, imm .dword] [0xC7] ((slash 0).imm .dword),
    form "MOV" [reg .qword, imm .qword] [0xB8] ((plusR .qword).imm .qword),
    form "MOV" [reg .word, imm .word] [0xB8] ((plusR .word).imm .word),
    form "MOV" [reg .byte, imm .byte] [0xB0] ((plusR .byte).imm .byte),
    form "MOV" [rm .word, imm .word] [0xC7] ((slash 0).imm .word),
    form "MOV" [rm .byte, imm .byte] [0xC6] ((slash 0).imm .byte)]

def moveForms : List Form :=
  storeForms "MOV" 0x88 ++ loadForms "MOV" 0x8A ++ moveImmediateForms ++
  extension "MOVZX" 0xB6 ++ extension "MOVSX" 0xBE ++
  [form "MOVSXD" [reg .qword, rm .dword] [0x63] slashR] ++
  ([.qword, .dword, .word].map fun w => form "LEA" [reg w, .memory] [0x8D] slashR) ++
  storeForms "XCHG" 0x86 ++ loadForms "XCHG" 0x86 ++
  ([.dword, .qword].map fun w => form "BSWAP" [reg w] [0x0F, 0xC8] (plusR w)) ++
  wideLoadForms "BSF" [0x0F, 0xBC] ++ wideLoadForms "BSR" [0x0F, 0xBD]

def stackForms : List Form :=
  ([.qword, .word].map fun w => form "PUSH" [reg w] [0x50] (plusR w).wide) ++
  ([.qword, .word].map fun w => form "PUSH" [rm w] [0xFF] (slash 6).wide) ++
  [form "PUSH" [imm .byte] [0x6A] (plain.imm .byte).wide,
    form "PUSH" [imm .dword] [0x68] (plain.imm .dword).wide] ++
  ([.qword, .word].map fun w => form "POP" [reg w] [0x58] (plusR w).wide) ++
  ([.qword, .word].map fun w => form "POP" [rm w] [0x8F] (slash 0).wide) ++
  [bare "LEAVE" [0xC9]]

def controlForms : List Form :=
  [form "CALL" [rel .dword] [0xE8] (plain.offset .dword),
    form "CALL" [rm .qword] [0xFF] (slash 2).wide,
    form "JMP" [rel .dword] [0xE9] (plain.offset .dword),
    form "JMP" [rm .qword] [0xFF] (slash 4).wide] ++
  conditionalJumps ++
  [form "JRCXZ" [rel .byte] [0xE3] (plain.offset .byte),
    form "LOOP" [rel .byte] [0xE2] (plain.offset .byte),
    form "LOOPE" [rel .byte] [0xE1] (plain.offset .byte),
    form "LOOPNE" [rel .byte] [0xE0] (plain.offset .byte),
    bare "RET" [0xC3],
    form "RET" [imm .word] [0xC2] (plain.imm .word)]

/-- An immediate device address goes with al only: next to a wider accumulator it would be taken for
a sign-extended immediate. -/
def deviceForms : List Form :=
  [form "IN" [al, imm .byte] [0xE4] (plain.imm .byte),
    form "IN" [al, .deviceAddress] [0xEC] plain,
    form "IN" [ax, .deviceAddress] [0xED] plain,
    form "IN" [eax, .deviceAddress] [0xED] plain,
    form "OUT" [imm .byte, al] [0xE6] (plain.imm .byte),
    form "OUT" [.deviceAddress, al] [0xEE] plain,
    form "OUT" [.deviceAddress, ax] [0xEF] plain,
    form "OUT" [.deviceAddress, eax] [0xEF] plain]

/-- Forms without operands that have a size hold their prefix in the opcode. -/
def miscellaneousForms : List Form :=
  [bare "NOP" [0x90], bare "HLT" [0xF4], bare "INT3" [0xCC],
    form "INT" [imm .byte] [0xCD] (plain.imm .byte),
    bare "SYSCALL" [0x0F, 0x05], bare "CPUID" [0x0F, 0xA2],
    bare "CWD" [0x66, 0x99], bare "CDQ" [0x99], bare "CQO" [0x48, 0x99],
    bare "CBW" [0x66, 0x98], bare "CWDE" [0x98], bare "CDQE" [0x48, 0x98],
    bare "CLC" [0xF8], bare "STC" [0xF9], bare "CLD" [0xFC], bare "STD" [0xFD],
    bare "PAUSE" [0xF3, 0x90], bare "UD2" [0x0F, 0x0B]]

def defaultForms : List Form :=
  arithmeticForms ++ unaryForms ++ testForms ++ shiftForms ++ moveForms ++
  conditionalMoves ++ conditionalSets ++ stackForms ++ controlForms ++ deviceForms ++
  miscellaneousForms

/-- The catalog that is used unless another one is given. -/
def standard : Catalog := defaultForms.map Entry.ofForm

end Asm64.Catalog

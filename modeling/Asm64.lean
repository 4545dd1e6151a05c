import Asm64.Main
import Asm64.Proofs.Assembler.JointAssembly
import Asm64.Proofs.Assembler.TwoPasses
import Asm64.Proofs.Instruction.Decoding
import Asm64.Proofs.Object.Associativity
import Asm64.Proofs.ObjectFile.Canonical
import Asm64.Proofs.Object.Fields
import Asm64.Proofs.Object.Coherence
import Asm64.Proofs.Object.Resolution
import Asm64.Proofs.Instruction.Consistency
import Asm64.Proofs.Assembler.Consistency
import Asm64.Proofs.Object.Session
import Asm64.Proofs.Object.Privacy
import Asm64.Proofs.Image.Executable
import Asm64.Proofs.Assembler.Accumulation
import Asm64.Proofs.Load
import Asm64.Proofs.Instruction.MemoryReading
import Asm64.Proofs.Instruction.ValueFields
import Asm64.Proofs.Instruction.RexPrefix
import Asm64.Proofs.Instruction.LabelFields
import Asm64.Proofs.Object.Idempotence
import Asm64.Proofs.Object.InPlace
import Asm64.Proofs.Assembler.Visibility
import Asm64.Proofs.Image.FileLayout
import Asm64.Proofs.Image.Writing
import Asm64.Proofs.Catalog.RangeDiagnosis
import Asm64.Proofs.Instruction.Length
import Asm64.Proofs.Catalog.Shortest
import Asm64.Proofs.Catalog.MemoryWidth
import Asm64.Proofs.Image.EntryPoint
import Asm64.Proofs.Integer.Literal
import Asm64.Proofs.Integer.Range
import Asm64.Proofs.Memory.Spelling
import Asm64.Proofs.Catalog.Printing
import Asm64.Proofs.Assembler.StringData
import Asm64.Proofs.Directive.Effects
import Asm64.Proofs.Statement.Lines
import Asm64.Proofs.Assembler.Listing
import Asm64.Proofs.ObjectFile.ReadBack
import Asm64.Proofs.Statement.Operands
import Asm64.Proofs.Command.Effects
import Asm64.Proofs.CodeBlock.Modes
import Asm64.Proofs.CodeBlock.Allocation

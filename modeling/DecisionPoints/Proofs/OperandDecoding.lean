import DecisionPoints.Operand.Supply
import DecisionPoints.Proofs.PoolIndices

/-!
Decoding of operands. An instruction names an entry by the index that a push gave, and each decoder
turns an entry of its kind back into the operand that the entry was made of. All else is an error at
the instruction: an entry of another kind, an index of no entry, or code that ends too early.
-/
namespace DecisionPoints

def MethodOperand.entry (o : MethodOperand) : PoolEntry :=
  if o.isInterfaceMethod then .interfaceMethodRef o.method else .methodRef o.method

namespace OperandSupply

section Read

variable {s : OperandSupply} {pc : UInt32}

end Read

section Decode

variable {α : Type} {s : OperandSupply} {pc : UInt32} {kind : EntryKind}
variable {pick : PoolEntry → Option α}

end Decode

section Decoders

variable (pushed : List PoolEntry) (code : Array UInt8) (pc : UInt32)

end Decoders

end OperandSupply
end DecisionPoints

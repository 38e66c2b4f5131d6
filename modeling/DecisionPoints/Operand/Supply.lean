import DecisionPoints.Fault.Located
import DecisionPoints.Operand.Pool

/-!
Decoding of operands. An instruction carries one index into the constant pool, two bytes high byte
first, right after its opcode.
-/
namespace DecisionPoints

structure MethodOperand where
  method : Signature
  isInterfaceMethod : Bool
deriving DecidableEq, Repr

structure OperandSupply where
  code : Array UInt8
  pool : ConstantPool

namespace OperandSupply

def readIndex (s : OperandSupply) (pc : UInt32) : Except OperandError UInt16 :=
  match s.code[pc.toNat + 1]?, s.code[pc.toNat + 2]? with
  | some high, some low => .ok ((high.toUInt16 <<< 8) ||| low.toUInt16)
  | _, _ => .error (.truncatedImmediate 2)

/-- What `pick` finds in the entry that the instruction names; the entry must be of the expected
kind. -/
def decode {α : Type} (s : OperandSupply) (pc : UInt32) (expected : EntryKind)
    (pick : PoolEntry → Option α) : Except (Located OperandError) α :=
  locate pc do
    let index ← s.readIndex pc
    let entry ← s.pool.get index
    match pick entry with
    | some a => return a
    | none => .error (.unexpectedEntry index expected entry.kind)

def indexAt (s : OperandSupply) (pc : UInt32) : Except (Located OperandError) UInt16 :=
  locate pc (s.readIndex pc)

def methodAt (s : OperandSupply) (pc : UInt32) (isInterfaceMethod : Bool) :
    Except (Located OperandError) MethodOperand :=
  if isInterfaceMethod then
    s.decode pc .interfaceMethodRef fun
      | .interfaceMethodRef method => some ⟨method, true⟩
      | _ => none
  else
    s.decode pc .methodRef fun
      | .methodRef method => some ⟨method, false⟩
      | _ => none

def fieldAt (s : OperandSupply) (pc : UInt32) : Except (Located OperandError) Signature :=
  s.decode pc .fieldRef fun
    | .fieldRef field => some field
    | _ => none

def classAt (s : OperandSupply) (pc : UInt32) : Except (Located OperandError) ClassName :=
  s.decode pc .classRef fun
    | .classRef className => some className
    | _ => none

end OperandSupply

end DecisionPoints

import DecisionPoints.Class.Member

/-!
The constant pool of a class: at most 65535 entries with indices from one. An operand error says why
an instruction's index leads to no entry that it can use.
-/
namespace DecisionPoints

inductive EntryKind where
  | classRef
  | fieldRef
  | methodRef
  | interfaceMethodRef
  | integer
  | utf8
deriving DecidableEq, Repr

namespace EntryKind

def name : EntryKind → String
  | .classRef => "Class"
  | .fieldRef => "Fieldref"
  | .methodRef => "Methodref"
  | .interfaceMethodRef => "InterfaceMethodref"
  | .integer => "Integer"
  | .utf8 => "Utf8"

def all : List EntryKind :=
  [.classRef, .fieldRef, .methodRef, .interfaceMethodRef, .integer, .utf8]

def ofName? (name : String) : Option EntryKind := all.find? (·.name = name)

instance : ToString EntryKind := ⟨name⟩

end EntryKind

inductive PoolEntry where
  | classRef (className : ClassName)
  | fieldRef (field : Signature)
  | methodRef (method : Signature)
  | interfaceMethodRef (method : Signature)
  | integer (value : Int32)
  | utf8 (text : String)
deriving DecidableEq, Repr

def PoolEntry.kind : PoolEntry → EntryKind
  | .classRef _ => .classRef
  | .fieldRef _ => .fieldRef
  | .methodRef _ => .methodRef
  | .interfaceMethodRef _ => .interfaceMethodRef
  | .integer _ => .integer
  | .utf8 _ => .utf8

inductive OperandError where
  /-- The code ends before the immediate of this many bytes does. -/
  | truncatedImmediate (length : Nat)
  | invalidPoolIndex (index : UInt16) (size : Nat)
  | unexpectedEntry (index : UInt16) (expected found : EntryKind)
deriving DecidableEq, Repr

namespace OperandError

def message : OperandError → String
  | .truncatedImmediate length =>
    s!"The instruction needs an immediate of {length} bytes past the end of the code"
  | .invalidPoolIndex index size =>
    s!"Constant pool index {index} is outside of the pool of size {size}"
  | .unexpectedEntry index expected found =>
    s!"Constant pool entry {index} is a {found} but a {expected} was expected"

instance : ToString OperandError := ⟨message⟩

end OperandError

structure ConstantPool where
  entries : Array PoolEntry := #[]
  /-- Every entry has a 16-bit index. -/
  size_lt : entries.size < UInt16.size := by decide

namespace ConstantPool

def size (p : ConstantPool) : Nat := p.entries.size

def isEmpty (p : ConstantPool) : Bool := p.entries.isEmpty

/-- Adds an entry and gives its index. A full pool stays as it is and gives none. -/
def push (p : ConstantPool) (entry : PoolEntry) : Option UInt16 × ConstantPool :=
  if h : p.size + 1 < UInt16.size then
    (some (p.size + 1).toUInt16, ⟨p.entries.push entry, by simpa [size] using h⟩)
  else (none, p)

def get (p : ConstantPool) (index : UInt16) : Except OperandError PoolEntry :=
  match index.toNat with
  | 0 => .error (.invalidPoolIndex index p.size)
  | i + 1 =>
    match p.entries[i]? with
    | some entry => .ok entry
    | none => .error (.invalidPoolIndex index p.size)

end ConstantPool

end DecisionPoints

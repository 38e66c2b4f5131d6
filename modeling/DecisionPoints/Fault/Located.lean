import DecisionPoints.Text.Hex

/-!
Errors at a program counter, and reports that gather them. Adding puts an error at the end;
`addLocated` also sorts the whole report by program counter, errors at one counter in their order.
-/
namespace DecisionPoints

structure Located (ε : Type) where
  pc : UInt32
  payload : ε
deriving DecidableEq, Repr

namespace Located

variable {ε δ : Type}

def map (f : ε → δ) (e : Located ε) : Located δ := ⟨e.pc, f e.payload⟩

def text [ToString ε] (e : Located ε) : String :=
  s!"[pc 0x{Hex.padded 8 e.pc.toNat}]: {e.payload}"

instance [ToString ε] : ToString (Located ε) := ⟨text⟩

end Located

def locate {ε α : Type} (pc : UInt32) (result : Except ε α) : Except (Located ε) α :=
  result.mapError (⟨pc, ·⟩)

structure Report (ε : Type) where
  errors : List (Located ε) := []
deriving DecidableEq, Repr

namespace Report

variable {ε δ : Type}

def size (r : Report ε) : Nat := r.errors.length

def isEmpty (r : Report ε) : Bool := r.errors.isEmpty

def add (r : Report ε) (e : Located ε) : Report ε := ⟨r.errors ++ [e]⟩

def addMany (r : Report ε) (es : List (Located ε)) : Report ε := ⟨r.errors ++ es⟩

def sorted (r : Report ε) : Report ε := ⟨r.errors.mergeSort fun a b => a.pc ≤ b.pc⟩

def addLocated (r : Report ε) (pc : UInt32) (payload : ε) : Report ε :=
  (r.add ⟨pc, payload⟩).sorted

def errorsAt (r : Report ε) (pc : UInt32) : List (Located ε) := r.errors.filter (·.pc = pc)

def map (f : ε → δ) (r : Report ε) : Report δ := ⟨r.errors.map (·.map f)⟩

def text [ToString ε] (r : Report ε) : String :=
  match r.errors with
  | [] => "Encountered no errors"
  | errors =>
    s!"Encountered {errors.length} errors:\n" ++ String.join (errors.map fun e => e.text ++ "\n")

end Report

end DecisionPoints

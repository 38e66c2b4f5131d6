/-!
Lower-case hexadecimal text of natural numbers and of bytes.
-/
namespace DecisionPoints
namespace Hex

def ofNat (n : Nat) : String := String.ofList (Nat.toDigits 16 n)

def padded (width n : Nat) : String :=
  let digits := Nat.toDigits 16 n
  String.ofList (List.replicate (width - digits.length) '0' ++ digits)

def ofBytes (bytes : List UInt8) : String := String.join (bytes.map fun b => padded 2 b.toNat)

end Hex
end DecisionPoints

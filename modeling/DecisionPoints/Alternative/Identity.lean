import DecisionPoints.Digest.Keccak
import DecisionPoints.Text.Hex

/-!
Identities: digests of canonical forms, by which alternatives found independently are recognised as
the same.
-/
namespace DecisionPoints

structure Identity where
  bytes : Vector UInt8 32
deriving DecidableEq

namespace Identity

def ofCanonical (canonical : String) : Identity := ⟨Keccak.digest canonical.toUTF8⟩

def text (i : Identity) : String := Hex.ofBytes i.bytes.toList

def short (i : Identity) : String := Hex.ofBytes (i.bytes.toList.take 6)

def order (i j : Identity) : Ordering :=
  (List.zipWith (fun a b => compare a.toNat b.toNat) i.bytes.toList j.bytes.toList).foldr
    Ordering.then .eq

instance : Ord Identity := ⟨order⟩

end Identity

end DecisionPoints

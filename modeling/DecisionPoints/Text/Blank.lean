import DecisionPoints.Text.CodeRanges

/-!
White space: the 25 characters with the Unicode property White_Space.
-/
namespace DecisionPoints
namespace Blank

def ranges : CodeRanges :=
  [(0x09, 0x0d), (0x20, 0x20), (0x85, 0x85), (0xa0, 0xa0), (0x1680, 0x1680), (0x2000, 0x200a),
   (0x2028, 0x2029), (0x202f, 0x202f), (0x205f, 0x205f), (0x3000, 0x3000)]

def isBlank (c : Char) : Bool := ranges.includes c.toNat

def trim (cs : List Char) : List Char :=
  ((cs.dropWhile isBlank).reverse.dropWhile isBlank).reverse

end Blank
end DecisionPoints

/-!
Sets of characters as closed ranges of code points.
-/
namespace DecisionPoints

abbrev CodeRanges := List (Nat × Nat)

namespace CodeRanges

def includes (ranges : CodeRanges) (point : Nat) : Bool :=
  ranges.any fun (low, high) => low ≤ point && point ≤ high

end CodeRanges
end DecisionPoints

/-!
Cutting texts at separators.
-/
namespace DecisionPoints
namespace Pieces

/-- The pieces between the occurrences of a separator; always at least one. -/
def split (separator : Char) : List Char → List (List Char)
  | [] => [[]]
  | c :: rest =>
    if c = separator then [] :: split separator rest
    else
      match split separator rest with
      | piece :: pieces => (c :: piece) :: pieces
      | [] => [[c]]

def cutFirst? (separator : Char) : List Char → Option (List Char × List Char)
  | [] => none
  | c :: rest =>
    if c = separator then some ([], rest)
    else (cutFirst? separator rest).map fun (before, after) => (c :: before, after)

def cutLast? (separator : Char) (cs : List Char) : Option (List Char × List Char) :=
  (cutFirst? separator cs.reverse).map fun (after, before) => (before.reverse, after.reverse)

/-- What stands after the last occurrence of a marker, or the whole text without one. -/
def afterLast (marker cs : List Char) : List Char :=
  (find cs).getD cs
where
  /-- What stands after the last occurrence, if there is one. -/
  find : List Char → Option (List Char)
    | [] => none
    | c :: rest =>
      match find rest with
      | some after => some after
      | none =>
        if marker.isPrefixOf (c :: rest) then some ((c :: rest).drop marker.length) else none

end Pieces
end DecisionPoints

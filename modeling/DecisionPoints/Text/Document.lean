import DecisionPoints.Text.Written

/-!
A reader of JSON documents. Blanks are the space, the tab and the two line ends; keys may repeat
and are kept in order; numbers and texts are kept as they are written. A document holds one value
and nothing after it.
-/
namespace DecisionPoints

inductive Document where
  | null
  | bool (value : Bool)
  | number (lexeme : String)
  | text (value : Written)
  | list (items : List Document)
  | record (fields : List (Written × Document))

namespace Document

def skipBlank (cs : List Char) : List Char := cs.dropWhile fun c => c ∈ [' ', '\t', '\n', '\r']

def readDigits (cs : List Char) : Option (List Char × List Char) :=
  match cs.takeWhile Char.isDigit with
  | [] => none
  | digits => some (digits, cs.dropWhile Char.isDigit)

def readWhole : List Char → Option (List Char × List Char)
  | '0' :: rest => some (['0'], rest)
  | cs => readDigits cs

def readFraction : List Char → Option (List Char × List Char)
  | '.' :: rest => (readDigits rest).map fun (digits, after) => ('.' :: digits, after)
  | cs => some ([], cs)

def readExponent : List Char → Option (List Char × List Char)
  | [] => some ([], [])
  | e :: rest =>
    if e = 'e' ∨ e = 'E' then
      match rest with
      | [] => none
      | sign :: more =>
        if sign = '+' ∨ sign = '-' then
          (readDigits more).map fun (digits, after) => (e :: sign :: digits, after)
        else (readDigits rest).map fun (digits, after) => (e :: digits, after)
    else some ([], e :: rest)

def readNumber (cs : List Char) : Option (Document × List Char) := do
  let (sign, cs) := match cs with
    | '-' :: rest => (['-'], rest)
    | _ => ([], cs)
  let (whole, cs) ← readWhole cs
  let (fraction, cs) ← readFraction cs
  let (exponent, cs) ← readExponent cs
  return (.number (String.ofList (sign ++ whole ++ fraction ++ exponent)), cs)

mutual

/-- One value. The fuel bounds the nesting and the number of parts. -/
def readValue : Nat → List Char → Option (Document × List Char)
  | 0, _ => none
  | fuel + 1, cs =>
    match skipBlank cs with
    | '"' :: rest => (Written.read? rest).map fun (value, after) => (.text value, after)
    | '[' :: rest =>
      match skipBlank rest with
      | ']' :: after => some (.list [], after)
      | _ => (readItems fuel rest).map fun (items, after) => (.list items, after)
    | '\x7b' :: rest =>
      match skipBlank rest with
      | '\x7d' :: after => some (.record [], after)
      | _ => (readFields fuel rest).map fun (fields, after) => (.record fields, after)
    | 'n' :: 'u' :: 'l' :: 'l' :: after => some (.null, after)
    | 't' :: 'r' :: 'u' :: 'e' :: after => some (.bool true, after)
    | 'f' :: 'a' :: 'l' :: 's' :: 'e' :: after => some (.bool false, after)
    | rest => readNumber rest

def readItems : Nat → List Char → Option (List Document × List Char)
  | 0, _ => none
  | fuel + 1, cs => do
    let (item, rest) ← readValue fuel cs
    match skipBlank rest with
    | ',' :: rest =>
      let (items, after) ← readItems fuel rest
      return (item :: items, after)
    | ']' :: after => return ([item], after)
    | _ => none

def readFields : Nat → List Char → Option (List (Written × Document) × List Char)
  | 0, _ => none
  | fuel + 1, cs => do
    let '"' :: rest := skipBlank cs | none
    let (key, rest) ← Written.read? rest
    let ':' :: rest := skipBlank rest | none
    let (value, rest) ← readValue fuel rest
    match skipBlank rest with
    | ',' :: rest =>
      let (fields, after) ← readFields fuel rest
      return ((key, value) :: fields, after)
    | '\x7d' :: after => return ([(key, value)], after)
    | _ => none

end

/-- The document that a text holds. Every part takes a character or more, so the fuel suffices. -/
def ofString? (s : String) : Option Document :=
  match readValue (2 * s.length + 2) s.toList with
  | some (d, rest) => if (skipBlank rest).isEmpty then some d else none
  | none => none

end Document

end DecisionPoints

/-!
Texts of JSON as they are written between quotes: characters and escapes. A backslash stands before
a quote, a backslash, a slash, one of five letters, or `u` and the four hexadecimal digits of a
16-bit unit. Control characters are refused. An escaped surrogate may be written without its
partner, but then the text stands for no string.
-/
namespace DecisionPoints

/-- A part that stands for one 16-bit unit is kept apart: it may be half of a character. -/
inductive WrittenPart where
  | character (c : Char)
  | unit (n : Nat)

abbrev Written := List WrittenPart

namespace Written

def hexValue? (c : Char) : Option Nat :=
  if c.isDigit then some (c.toNat - '0'.toNat)
  else if 'a' ≤ c ∧ c ≤ 'f' then some (c.toNat - 'a'.toNat + 10)
  else if 'A' ≤ c ∧ c ≤ 'F' then some (c.toNat - 'A'.toNat + 10)
  else none

def unit? (a b c d : Char) : Option Nat := do
  return ((← hexValue? a) * 16 + (← hexValue? b)) * 256 + (← hexValue? c) * 16 + (← hexValue? d)

def escaped? : Char → Option Char
  | '"' => some '"'
  | '\\' => some '\\'
  | '/' => some '/'
  | 'b' => some '\x08'
  | 'f' => some '\x0c'
  | 'n' => some '\n'
  | 'r' => some '\r'
  | 't' => some '\t'
  | _ => none

def read? : List Char → Option (Written × List Char)
  | [] => none
  | '"' :: rest => some ([], rest)
  | '\\' :: 'u' :: a :: b :: c :: d :: rest => do
    let n ← unit? a b c d
    let (parts, after) ← read? rest
    return (.unit n :: parts, after)
  | '\\' :: e :: rest => do
    let c ← escaped? e
    let (parts, after) ← read? rest
    return (.character c :: parts, after)
  | c :: rest => do
    if c.toNat < 0x20 then none
    let (parts, after) ← read? rest
    return (.character c :: parts, after)

def isHighSurrogate (n : Nat) : Bool := 0xd800 ≤ n && n < 0xdc00

def isLowSurrogate (n : Nat) : Bool := 0xdc00 ≤ n && n < 0xe000

/-- The characters that a text stands for. A high unit with the low one after it is a single
character. -/
def characters? : Written → Option (List Char)
  | [] => some []
  | .character c :: rest => (characters? rest).map (c :: ·)
  | .unit high :: .unit low :: rest =>
    if isHighSurrogate high && isLowSurrogate low then
      (characters? rest).map (Char.ofNat (0x10000 + (high - 0xd800) * 0x400 + (low - 0xdc00)) :: ·)
    else if isHighSurrogate high || isLowSurrogate high then none
    else (characters? (.unit low :: rest)).map (Char.ofNat high :: ·)
  | .unit n :: rest =>
    if isHighSurrogate n || isLowSurrogate n then none
    else (characters? rest).map (Char.ofNat n :: ·)

def string? (text : Written) : Option String := (characters? text).map String.ofList

end Written
end DecisionPoints

import DecisionPoints.Text.GraphemeExtend
import DecisionPoints.Text.Hex
import DecisionPoints.Text.Ignorable
import DecisionPoints.Text.Printable

/-!
Free text in double quotes. What a reader could not see in its place is escaped: characters that
cannot be printed, characters that are not drawn, and marks drawn upon the character before them. So
are the quote and the backslash, and all else stands as it is.
-/
namespace DecisionPoints
namespace Quoted

def isPlain (c : Char) : Bool :=
  Printable.isPrintable c && !Ignorable.isIgnorable c && !GraphemeExtend.isCombining c

/-- The written form of one character. A character that is not plain and has no escape of its own is
written as its number in braces. -/
def escape (c : Char) : String :=
  match c with
  | '"' => "\\\""
  | '\\' => "\\\\"
  | '\n' => "\\n"
  | '\t' => "\\t"
  | '\r' => "\\r"
  | '\x00' => "\\0"
  | c => if isPlain c then c.toString else "\\u\x7b" ++ Hex.ofNat c.toNat ++ "\x7d"

def quote (s : String) : String := "\"" ++ String.join (s.toList.map escape) ++ "\""

end Quoted
end DecisionPoints

import Unsugar.Text.GraphemeExtend
import Unsugar.Text.Unprintable

/-!
# Quoted text

Text between double quotes in which every character can be seen: quotes and backslashes are escaped,
and characters that leave no mark, or would change the mark before them, are written by their code
points.
-/

namespace Unsugar.Text

/-- A character by its code point, in lower case hexadecimal digits between braces. -/
def codePoint (c : Char) : List Char :=
  '\\' :: 'u' :: '\x7b' :: Nat.toDigits 16 c.toNat ++ ['\x7d']

/-- One character of a quoted text. -/
def quoteChar (c : Char) : List Char :=
  match c with
  | '"' => ['\\', '"']
  | '\\' => ['\\', '\\']
  | '\n' => ['\\', 'n']
  | '\r' => ['\\', 'r']
  | '\t' => ['\\', 't']
  | '\x00' => ['\\', '0']
  | c => if isPrintable c && !isCombining c then [c] else codePoint c

/-- A text between quotes. -/
def quoted (s : String) : String :=
  String.ofList ('"' :: s.toList.flatMap quoteChar ++ ['"'])

end Unsugar.Text

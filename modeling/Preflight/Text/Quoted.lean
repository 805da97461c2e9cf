import Preflight.Text.Extender
import Preflight.Text.Unprintable

/-!
# Quoted text

Text inside a message stands between double quotes, and whatever would not show as itself
there is spelled out:

| character                    | written           |
|------------------------------|-------------------|
| NUL, tab, return, line feed  | `\0` `\t` `\r` `\n` |
| double quote, backslash      | `\"` `\\`         |
| extender or unprintable      | `\u{` hex `}`     |
| every other                  | itself            |

The hexadecimal digits are lower-case and unpadded.
-/

namespace Preflight
namespace Text

/-- The code point of a character, in hexadecimal between braces. -/
def escapeCodePoint (c : Char) : List Char :=
  '\\' :: 'u' :: '\x7b' :: Nat.toDigits 16 c.toNat ++ ['\x7d']

/-- How one character is written between the quotes. -/
def escapeChar (c : Char) : List Char :=
  match c with
  | '\x00' => ['\\', '0']
  | '\t' => ['\\', 't']
  | '\r' => ['\\', 'r']
  | '\n' => ['\\', 'n']
  | '"' => ['\\', '"']
  | '\\' => ['\\', '\\']
  | c => if isExtender c || isUnprintable c then escapeCodePoint c else [c]

/-- The text between double quotes. -/
def quoted (s : String) : String :=
  String.ofList ('"' :: s.toList.flatMap escapeChar ++ ['"'])

end Text
end Preflight

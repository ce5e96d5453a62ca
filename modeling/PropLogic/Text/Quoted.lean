import PropLogic.Text.DefaultIgnorable
import PropLogic.Text.GraphemeExtend
import PropLogic.Text.Unprintable

/-!
# Quoted texts

Messages quote the texts they speak of. Inside the quotes the quote sign and the backslash are
escaped, the common control characters have short names, and every other character that would not
show by itself is written as its code point.
-/

namespace PropLogic.Text

/-- The voiced and the semi-voiced sound mark of halfwidth katakana. They extend a grapheme, but
take up a place of their own. -/
def halfwidthSoundMarks : List Char := ['\uff9e', '\uff9f']

/-- Whether `c` does not show by itself: it has no visible form, may be displayed as nothing, or
joins the character before it. -/
def isHidden (c : Char) : Bool :=
  isUnprintable c || isDefaultIgnorable c ||
    (isGraphemeExtend c && !halfwidthSoundMarks.contains c)

/-- The escape of a character by its code point in hexadecimal digits. -/
def codePointEscape (c : Char) : List Char :=
  ['\\', 'u', '\x7b'] ++ Nat.toDigits 16 c.toNat ++ ['\x7d']

/-- The form of one character inside quotes. -/
def escape (c : Char) : List Char :=
  match c with
  | '\x00' => ['\\', '0']
  | '\t' => ['\\', 't']
  | '\n' => ['\\', 'n']
  | '\r' => ['\\', 'r']
  | '"' => ['\\', '"']
  | '\\' => ['\\', '\\']
  | _ => if isHidden c then codePointEscape c else [c]

def quotedChars (cs : List Char) : List Char := '"' :: cs.flatMap escape ++ ['"']

def quoted (s : String) : String := String.ofList (quotedChars s.toList)

end PropLogic.Text

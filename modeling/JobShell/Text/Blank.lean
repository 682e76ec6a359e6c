import JobShell.Text.Basic

/-!
# Blank characters

Trimming removes the characters of the Unicode property `White_Space`. The
reader of command lines separates words at ASCII blanks only.
-/
namespace JobShell

/-- The characters of the Unicode property `White_Space`. -/
def isBlank (c : Char) : Bool :=
  let n := c.toNat
  (9 ≤ n && n ≤ 13) || n = 32 || n = 0x85 || n = 0xA0 || n = 0x1680 || (0x2000 ≤ n && n ≤ 0x200A) ||
    n = 0x2028 || n = 0x2029 || n = 0x202F || n = 0x205F || n = 0x3000

/-- Blank, tab, line feed, form feed and carriage return. -/
def isAsciiBlank (c : Char) : Bool :=
  c = ' ' || c = '\t' || c = '\n' || c = '\x0c' || c = '\r'

namespace Text

/-- The text without leading blank characters. -/
def trimStart (s : Text) : Text := s.dropWhile isBlank

/-- The text without trailing blank characters. -/
def trimEnd (s : Text) : Text := dropEndWhile isBlank s

/-- The text without blank characters at its ends. -/
def trim (s : Text) : Text := trimEnd (trimStart s)

end Text
end JobShell

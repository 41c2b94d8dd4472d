import Sexpr.Text.Printable

/-!
# Sexpr.Text.Quoted

Texts between delimiters.

`quoted` is a string as it is displayed; `quotedVisibly` is a string in which every character
can be seen; `guarded` is the form of the unambiguous spelling, where a backslash stands before
the delimiter and before every backslash.
-/

namespace Sexpr

/-- The displayed form of a character in a string. -/
def escapeChar : Char → List Char
  | '\n' => ['\\', 'n']
  | '\t' => ['\\', 't']
  | '\r' => ['\\', 'r']
  | '\\' => ['\\', '\\']
  | '"' => ['\\', '"']
  | c => [c]

/-- A string as it is displayed: in double quotes, with line ends, tabs, quotes and backslashes
marked. -/
def quoted (s : String) : String := "\"" ++ String.ofList (s.toList.flatMap escapeChar) ++ "\""

/-- A character by its code point: `\u{…}` with hexadecimal digits. -/
def codePoint (c : Char) : List Char :=
  ['\\', 'u', '\x7b'] ++ Nat.toDigits 16 c.toNat ++ ['\x7d']

/-- The visible form of a character in a string. -/
def visibleChar (c : Char) : List Char :=
  if c = '\x00' then ['\\', '0']
  else if c = '\n' || c = '\t' || c = '\r' || c = '\\' || c = '"' then escapeChar c
  else if isPrintable c then [c]
  else codePoint c

/-- A string in double quotes in which characters that cannot be shown are given by their code
points. -/
def quotedVisibly (s : String) : String :=
  "\"" ++ String.ofList (s.toList.flatMap visibleChar) ++ "\""

/-- A text between two delimiters, with a backslash before each delimiter and each
backslash inside. -/
def guarded (delimiter : Char) (s : String) : String :=
  let inside := s.toList.flatMap fun c => if c = delimiter || c = '\\' then ['\\', c] else [c]
  String.ofList (delimiter :: inside ++ [delimiter])

end Sexpr

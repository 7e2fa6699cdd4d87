import DomainFactory.Text.Class

/-!
# Quoted text

A quoted text stands between double quotes. The quote and the backslash are escaped, the common
control characters have short names, and a character that is not displayed is written by its
code in hexadecimal.
-/
namespace DomainFactory.Text

/-- The digit of a value below sixteen, letters in lower case. -/
def hexDigit (value : Nat) : Char :=
  if value < 10 then Char.ofNat (48 + value) else Char.ofNat (87 + value)

/-- The hexadecimal digits of a number, without leading zeros. -/
def hexDigits (value : Nat) : List Char :=
  if value < 16 then [hexDigit value]
  else hexDigits (value / 16) ++ [hexDigit (value % 16)]
termination_by value
decreasing_by omega

/-- The value of a hexadecimal digit in either case. -/
def hexValue? (c : Char) : Option Nat :=
  if isDigit c then some (c.toNat - 48)
  else if 'a' ≤ c && c ≤ 'f' then some (c.toNat - 87)
  else if 'A' ≤ c && c ≤ 'F' then some (c.toNat - 55)
  else none

/-- One character inside double quotes. -/
def escaped (c : Char) : List Char :=
  if c == '\x00' then ['\\', '0']
  else if c == '\t' then ['\\', 't']
  else if c == '\r' then ['\\', 'r']
  else if c == '\n' then ['\\', 'n']
  else if c == '"' then ['\\', '"']
  else if c == '\\' then ['\\', '\\']
  else if isDisplayed c then [c]
  else ['\\', 'u', '\x7b'] ++ hexDigits c.toNat ++ ['\x7d']

/-- The characters between the quotes of a displayed text. -/
def escapedChars (text : List Char) : List Char := text.flatMap escaped

/-- A text as a message displays it, in double quotes. -/
def displayed (text : String) : String :=
  String.ofList ('"' :: escapedChars text.toList ++ ['"'])

/-- The characters between the quotes of a source literal. A null character before an octal
digit is written with two hexadecimal digits, so that it is not taken for a longer escape. -/
def literalChars : List Char → List Char
  | [] => []
  | '\x00' :: next :: rest =>
    (if '0' ≤ next && next ≤ '7' then ['\\', 'x', '0', '0'] else ['\\', '0']) ++
      literalChars (next :: rest)
  | c :: rest => escaped c ++ literalChars rest

/-- A text as a string literal of source text. -/
def literal (text : String) : String :=
  String.ofList ('"' :: literalChars text.toList ++ ['"'])

end DomainFactory.Text

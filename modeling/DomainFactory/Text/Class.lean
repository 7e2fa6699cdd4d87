import DomainFactory.Text.Table.Alphanumeric
import DomainFactory.Text.Table.Case
import DomainFactory.Text.Table.Displayed
import DomainFactory.Text.Table.Identifier
import DomainFactory.Text.Table.Word

/-!
# Character classes

The classes of characters the library decides by. Each is a property of the Unicode standard;
the ASCII range is decided first, the tables hold the rest.
-/
namespace DomainFactory.Text

/-- White space: the property `White_Space`. -/
def isBlank (c : Char) : Bool :=
  let n := c.toNat
  (9 ≤ n && n ≤ 13) || n == 32 || n == 0x85 || n == 0xA0 || n == 0x1680 ||
    (0x2000 ≤ n && n ≤ 0x200A) || n == 0x2028 || n == 0x2029 || n == 0x202F || n == 0x205F ||
    n == 0x3000

/-- An ASCII decimal digit. -/
def isDigit (c : Char) : Bool := '0' ≤ c && c ≤ '9'

/-- An ASCII letter. -/
def isAsciiLetter (c : Char) : Bool := ('a' ≤ c && c ≤ 'z') || ('A' ≤ c && c ≤ 'Z')

/-- A letter or a number of any script. -/
def isAlphanumeric (c : Char) : Bool :=
  if c.toNat < 128 then isAsciiLetter c || isDigit c else alphanumericStretches.contains c

/-- A letter, a number or the underscore: what a space must keep apart. -/
def isWord (c : Char) : Bool := isAlphanumeric c || c == '_'

/-- A word character of regular expressions, which counts marks but no fractions. -/
def isPatternWord (c : Char) : Bool :=
  if c.toNat < 128 then isAsciiLetter c || isDigit c || c == '_' else wordStretches.contains c

/-- A character that begins an identifier. -/
def isIdentifierStart (c : Char) : Bool :=
  if c.toNat < 128 then isAsciiLetter c || c == '_' else identifierStartStretches.contains c

/-- A character that follows in an identifier. -/
def isIdentifierPart (c : Char) : Bool :=
  if c.toNat < 128 then isAsciiLetter c || isDigit c || c == '_'
  else identifierPartStretches.contains c

/-- A character a quoted text shows as it is, quotes and the backslash apart. -/
def isDisplayed (c : Char) : Bool :=
  if c.toNat < 128 then 32 ≤ c.toNat && c.toNat < 127 else displayedStretches.contains c

/-- An upper-case letter. -/
def isUppercase (c : Char) : Bool :=
  if c.toNat < 128 then 'A' ≤ c && c ≤ 'Z'
  else uppercaseRuns.any fun (first, count, step) => inRun first count step c.toNat

/-- A lower-case letter. -/
def isLowercase (c : Char) : Bool :=
  if c.toNat < 128 then 'a' ≤ c && c ≤ 'z'
  else lowercaseRuns.any fun (first, count, step) => inRun first count step c.toNat

/-- The lower-case form of a character: one character, save that the dotted capital I leaves its
dot behind as a mark of its own. -/
def toLowercase (c : Char) : List Char :=
  if c.toNat == 0x130 then ['i', '\u0307']
  else
    match lowercaseFormRuns.find? fun (first, count, step, _) => inRun first count step c.toNat with
    | some (first, _, _, form) => [Char.ofNat (form + (c.toNat - first))]
    | none => [c]

/-- The lower-case form of an ASCII letter; every other character stays. -/
def asciiLower (c : Char) : Char :=
  if 'A' ≤ c && c ≤ 'Z' then Char.ofNat (c.toNat + 32) else c

/-- Equality of texts up to the case of ASCII letters. -/
def sameIgnoringAsciiCase (left right : String) : Bool :=
  left.toList.map asciiLower == right.toList.map asciiLower

/-- A text without the white space at its two ends. -/
def trimChars (text : List Char) : List Char :=
  ((text.dropWhile isBlank).reverse.dropWhile isBlank).reverse

/-- A text without the white space at its two ends. -/
def trim (text : String) : String := String.ofList (trimChars text.toList)

end DomainFactory.Text

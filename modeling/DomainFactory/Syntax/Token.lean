import DomainFactory.Text.Quoted

/-!
# Tokens

Source text is a sequence of token trees: words, punctuation characters, literals, and groups
between matching delimiters. A punctuation character remembers whether it is joined to the next
one. The text of tokens puts one space between two tokens that are not joined.
-/
namespace DomainFactory.Syntax

/-- The delimiters of a group. -/
inductive Delimiter where
  /-- Round brackets. -/
  | paren
  /-- Square brackets. -/
  | bracket
  /-- Braces. -/
  | brace
deriving DecidableEq, Repr

/-- A token tree. -/
inductive Token where
  /-- An identifier or a keyword, a raw one with its mark. -/
  | word (text : String)
  /-- A punctuation character, joined to the next character or not. -/
  | punct (char : Char) (joint : Bool)
  /-- A literal as it is written. -/
  | literal (text : String)
  /-- Tokens between delimiters. -/
  | group (delimiter : Delimiter) (tokens : List Token)
deriving Repr, Inhabited

namespace Token

mutual

/-- The number of tokens in a tree, itself included. -/
def size : Token → Nat
  | .group _ tokens => sizeAll tokens + 1
  | _ => 1

/-- The number of tokens in a list of trees. -/
def sizeAll : List Token → Nat
  | [] => 0
  | token :: tokens => size token + sizeAll tokens

end

/-- Whether no space follows a token. -/
def isJoint : Token → Bool
  | .punct _ joint => joint
  | _ => false

mutual

/-- The text of a token tree. -/
def text : Token → String
  | .word text => text
  | .punct char _ => char.toString
  | .literal text => text
  | .group .paren tokens => "(" ++ textAll tokens ++ ")"
  | .group .bracket tokens => "[" ++ textAll tokens ++ "]"
  | .group .brace [] => "\x7b \x7d"
  | .group .brace tokens => "\x7b " ++ textAll tokens ++ " \x7d"

/-- The text of tokens, a space between two that are not joined. -/
def textAll : List Token → String
  | [] => ""
  | [token] => text token
  | token :: tokens => text token ++ (if token.isJoint then "" else " ") ++ textAll tokens

end

/-- The characters of an operator: each joined to the next, the last to none. -/
def operatorOf : List Char → List Token
  | [] => []
  | [char] => [.punct char false]
  | char :: chars => .punct char true :: operatorOf chars

/-- An operator of one or more punctuation characters. -/
def operator (text : String) : List Token := operatorOf text.toList

end Token

end DomainFactory.Syntax

import DomainFactory.Text.Class

/-!
# Snake case

An upper-case letter starts a word when a lower-case letter or a digit stands before it; words
are parted by underscores and written in lower case.
-/
namespace DomainFactory.Text

/-- The words of a name in lower case, parted by underscores, given whether the character before
could end a word. -/
def snakeFrom (endsWord : Bool) : List Char → List Char
  | [] => []
  | c :: rest =>
    if isUppercase c then
      (if endsWord then ['_'] else []) ++ toLowercase c ++ snakeFrom false rest
    else c :: snakeFrom (isLowercase c || isDigit c) rest

/-- The words of a name in lower case, parted by underscores. -/
def snakeCase (name : String) : String := String.ofList (snakeFrom false name.toList)

end DomainFactory.Text

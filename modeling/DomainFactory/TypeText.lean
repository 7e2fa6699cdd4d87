import DomainFactory.Text.Affix

/-!
# Type texts

Types are compared by their text. The canonical text of a type keeps a space only where it parts
two words, so two spellings of one type have one text. `stripReferences` removes the reference
marks in front of a type: ampersands, lifetimes and the word that permits mutation.
-/
namespace DomainFactory.TypeText

open Text

/-- Removes the spaces that part nothing, given the character before and whether a space stands
between it and the rest. -/
def normalizeFrom (previous : Option Char) (spaced : Bool) : List Char → List Char
  | [] => []
  | c :: rest =>
    if isBlank c then normalizeFrom previous true rest
    else if spaced && previous.any isWord && isWord c then
      ' ' :: c :: normalizeFrom (some c) false rest
    else c :: normalizeFrom (some c) false rest

/-- The canonical text of a type: a space stays only between two word characters. -/
def normalize (text : String) : String := String.ofList (normalizeFrom none false text.toList)

/-- Removes one layer of reference marks, when the text begins with one. A lifetime is removed
with the space behind it, and takes the whole text along when no space follows. -/
def stripLayer? : List Char → Option (List Char)
  | '&' :: rest => some (rest.dropWhile isBlank)
  | '\'' :: rest => some ((afterFirst? [' '] rest).getD [])
  | text => after? ['m', 'u', 't', ' '] text

/-- Removes layers of reference marks, at most as many as given. -/
def stripLayers : Nat → List Char → List Char
  | 0, text => text
  | fuel + 1, text =>
    match stripLayer? text with
    | some rest => stripLayers fuel rest
    | none => text

/-- The type behind its reference marks. Each layer is at least one character, so the length of
the text bounds their number. -/
def stripReferences (text : String) : String :=
  let trimmed := trimChars text.toList
  String.ofList (stripLayers trimmed.length trimmed)

/-- The last segment of the path a type is, without its reference marks. -/
def lastSegment (type : String) : String :=
  String.ofList (afterLast [':', ':'] (stripReferences type).toList)

end DomainFactory.TypeText

import DomainFactory.Text.Class

/-!
# Reading off the front of a text

Small readers over characters: an exact beginning, a part up to a separator, and the pieces
between separators.
-/
namespace DomainFactory.Text

/-- What follows an exact beginning, when the text has it. -/
def after? : (start text : List Char) → Option (List Char)
  | [], text => some text
  | _ :: _, [] => none
  | expected :: start, c :: text => if expected == c then after? start text else none

/-- A text that has an exact beginning is that beginning and what follows it. -/
theorem after?_eq_some_iff {start text rest : List Char} :
    after? start text = some rest ↔ text = start ++ rest := by
  induction start generalizing text with
  | nil => simp [after?]
  | cons expected start ih =>
    cases text with
    | nil => simp [after?]
    | cons c text =>
      by_cases same : expected = c
      · simp [after?, same, ih]
      · simp [after?, same, Ne.symm same]

/-- What follows the first separator, when there is one. -/
def afterFirst? (separator : List Char) : List Char → Option (List Char)
  | [] => after? separator []
  | c :: text =>
    match after? separator (c :: text) with
    | some rest => some rest
    | none => afterFirst? separator text

/-- What follows the last occurrence of a separator; the whole text when it does not occur. -/
def afterLast (separator : List Char) (text : List Char) : List Char :=
  go text text
where
  /-- Keeps the longest candidate so far while walking the text. -/
  go (kept : List Char) : List Char → List Char
    | [] => (after? separator []).getD kept
    | c :: rest =>
      match after? separator (c :: rest) with
      | some tail => go tail rest
      | none => go kept rest

/-- The pieces between the occurrences of one character; a text without it is one piece. -/
def splitAt (separator : Char) : List Char → List (List Char)
  | [] => [[]]
  | c :: text =>
    match splitAt separator text with
    | [] => [[c]]
    | piece :: pieces => if c == separator then [] :: piece :: pieces else (c :: piece) :: pieces

end DomainFactory.Text

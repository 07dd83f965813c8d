/-!
# Blank characters

Words, trimming and line folding all speak of the same class of characters: the
spaces, tabulators and breaks of Unicode, together with the four information
separators. Text is handled as a list of characters, so that every operation is
a recursion on the text itself.
-/

namespace SlashBot.Text

/-- A blank character separates words and is removed at the ends of a text. -/
def isBlank (c : Char) : Bool :=
  let code := c.toNat
  (9 ≤ code && code ≤ 13) || (28 ≤ code && code ≤ 32) || code == 0x85 || code == 0xa0 ||
    code == 0x1680 || (0x2000 ≤ code && code ≤ 0x200a) || code == 0x2028 || code == 0x2029 ||
    code == 0x202f || code == 0x205f || code == 0x3000

/-- A text of blank characters only; the empty text is one. -/
def allBlank (text : List Char) : Bool :=
  text.all isBlank

/-- The text without the characters at its end that satisfy the test. -/
def dropTailWhile (test : Char → Bool) (text : List Char) : List Char :=
  (text.reverse.dropWhile test).reverse

/-- The text without blanks at its start and its end. -/
def trim (text : List Char) : List Char :=
  dropTailWhile isBlank (text.dropWhile isBlank)

/-- The pieces between the characters that satisfy the test. There is one piece
more than there are such characters, and pieces may be empty. -/
def splitWhere (test : Char → Bool) (text : List Char) : List (List Char) :=
  text.foldr
    (fun c pieces =>
      if test c then [] :: pieces
      else
        match pieces with
        | [] => [[c]]
        | piece :: more => (c :: piece) :: more)
    [[]]

/-- The maximal stretches of characters that are not blank, in order. -/
def words (text : List Char) : List (List Char) :=
  (splitWhere isBlank text).filter fun piece => !piece.isEmpty

/-- Cuts at the first place where the mark occurs, and gives the text before and
after it. An empty mark occurs nowhere. -/
def cutAt (mark : List Char) : (text : List Char) → Option (List Char × List Char)
  | [] => none
  | c :: rest =>
      if !mark.isEmpty && mark.isPrefixOf (c :: rest) then
        some ([], (c :: rest).drop mark.length)
      else
        (cutAt mark rest).map fun (before, after) => (c :: before, after)

end SlashBot.Text

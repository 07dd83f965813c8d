import SlashBot.Text.Blank

/-!
# Lines

A comment is read line by line. A carriage return that stands before a line feed
belongs to the same break, and a break at the end of a text opens no further
line.
-/

namespace SlashBot.Text

/-- The characters at which a line ends. -/
def isLineBreak (c : Char) : Bool :=
  let code := c.toNat
  (10 ≤ code && code ≤ 13) || (28 ≤ code && code ≤ 30) || code == 0x85 || code == 0x2028 ||
    code == 0x2029

/-- The lines of a text, without their breaks. -/
def lines : (text : List Char) → List (List Char)
  | [] => []
  | '\r' :: '\n' :: rest => [] :: lines rest
  | c :: rest =>
      if isLineBreak c then [] :: lines rest
      else
        match lines rest with
        | [] => [[c]]
        | line :: more => (c :: line) :: more

/-- The first line of a text, empty if the text is. It is found without reading
the lines that follow. -/
def firstLine (text : List Char) : List Char :=
  text.takeWhile fun c => !isLineBreak c

/-- The first line is the first of all lines. -/
theorem firstLine_eq_head_lines (text : List Char) :
    firstLine text = (lines text).headD [] := by
  fun_induction lines text with
  | case1 => rfl
  | case2 rest ih => rfl
  | case3 c rest notPair isBreak ih => simp [firstLine, isBreak]
  | case4 c rest notPair notBreak none ih =>
      simp [firstLine, notBreak]
      simpa [firstLine, none] using ih
  | case5 c rest notPair notBreak line more some ih =>
      simp [firstLine, notBreak]
      simpa [firstLine, some] using ih

end SlashBot.Text

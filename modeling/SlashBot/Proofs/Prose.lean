import Mathlib.Data.List.Forall2
import SlashBot.Proofs.Path
import SlashBot.Proofs.Token
import SlashBot.Template.Render

/-!
# Templates of text and variables

A template that holds nothing but text without braces and tags for variables is rendered to its
text with the values in their places. What a value says does not matter: it is not read as a
template, and the characters that mean something in markup are replaced once at most. The one
exception to the obvious reading is an index with too many digits, which names no argument even
if most of them are leading zeros.
-/

namespace SlashBot

open Text Number

namespace Text

/-- The printable characters of ASCII are not blank, but for the space. -/
theorem isBlank_eq_false_of_toNat {c : Char} (low : 33 ≤ c.toNat) (high : c.toNat ≤ 126) :
    isBlank c = false := by
  simp only [isBlank, Bool.or_eq_false_iff, Bool.and_eq_false_iff, decide_eq_false_iff_not,
    beq_eq_false_iff_ne]
  omega

end Text

/-! ## Reading an index -/

namespace Number

variable {digits : List Char} {c : Char}

theorem digitInBase?_of_isDigit (digit : c.isDigit = true) :
    digitInBase? 10 c = some (c.toNat - '0'.toNat) := by
  have digit := Char.isDigit_iff_toNat.mp digit
  simp only [Char.reduceToNat] at digit
  have small : c.toNat - 48 < 10 := by omega
  have found : decimalDigit? c = some (c.toNat - 48) := by
    simp [decimalDigit?, decimalZeros, digit.1, digit.2]
  simp [digitInBase?, found, small]

theorem readDigits_of_isDigit (decimal : ∀ c ∈ digits, c.isDigit = true)
    (total count : Nat) (afterDigit : Bool) (ends : digits ≠ [] ∨ afterDigit = true) :
    readDigits 10 total count afterDigit digits =
      some (Nat.ofDigitChars 10 digits total, count + digits.length) := by
  induction digits generalizing total count afterDigit with
  | nil =>
      rw [readDigits, if_pos (ends.resolve_left (by simp))]
      rfl
  | cons c digits ih =>
      have digit := decimal c List.mem_cons_self
      have notScore : (c == '_') = false := by
        rw [beq_eq_false_iff_ne]
        rintro rfl
        revert digit
        decide
      rw [readDigits, notScore, digitInBase?_of_isDigit digit]
      simp only [Bool.false_eq_true, if_false]
      rw [ih (fun c member => decimal c (List.mem_cons_of_mem _ member)) _ _ _ (.inr rfl),
        Nat.ofDigitChars_cons, Nat.mul_comm, List.length_cons, Nat.add_right_comm, Nat.add_assoc]

theorem isNumberBlank_of_isDigit (digit : c.isDigit = true) : isNumberBlank c = false := by
  have digit := Char.isDigit_iff_toNat.mp digit
  simp only [Char.reduceToNat] at digit
  rw [isNumberBlank, isBlank_eq_false_of_toNat (by omega) (by omega), Bool.false_and]

theorem dropWhile_isNumberBlank (decimal : ∀ c ∈ digits, c.isDigit = true) :
    digits.dropWhile isNumberBlank = digits := by
  cases digits with
  | nil => rfl
  | cons c rest =>
      rw [List.dropWhile_cons, isNumberBlank_of_isDigit (decimal c List.mem_cons_self)]
      rfl

theorem trimNumber_of_isDigit (decimal : ∀ c ∈ digits, c.isDigit = true) :
    trimNumber digits = digits := by
  have back : ∀ c ∈ digits.reverse, c.isDigit = true := by
    simpa using decimal
  rw [trimNumber, dropWhile_isNumberBlank decimal, dropTailWhile, dropWhile_isNumberBlank back,
    List.reverse_reverse]

theorem takeSign_of_isDigit (digit : c.isDigit = true) :
    takeSign (c :: digits) = (false, c :: digits) := by
  rw [takeSign]
  · rintro rest ⟨⟩
    revert digit
    decide
  · rintro rest ⟨⟩
    revert digit
    decide

theorem takeBaseName_ten (text : List Char) : takeBaseName 10 text = text := by
  simp [takeBaseName]

/-- Decimal digits denote a number, unless there are too many of them. -/
theorem readInteger?_of_isDigit (filled : digits ≠ [])
    (decimal : ∀ c ∈ digits, c.isDigit = true) :
    readInteger? 10 digits =
      if digits.length ≤ maxDecimalDigits then some (Nat.ofDigitChars 10 digits 0 : Int)
      else none := by
  have sign : takeSign digits = (false, digits) := by
    cases digits with
    | nil => rfl
    | cons c rest => exact takeSign_of_isDigit (decimal c List.mem_cons_self)
  simp only [readInteger?, trimNumber_of_isDigit decimal, sign, takeBaseName_ten,
    readDigits_of_isDigit decimal 0 0 false (.inl filled), Option.bind_eq_bind,
    Option.bind_some, Nat.zero_add]
  by_cases long : digits.length > maxDecimalDigits
  · simp [long, Nat.not_le.mpr long]
  · simp [long, Nat.not_lt.mp long]

end Number

namespace Template

/-! ## Templates of text and variables -/

/-- A text without braces. -/
structure Literal where
  text : List Char
  noBrace : ∀ c ∈ text, c ≠ '{' ∧ c ≠ '}'

/-- What a tag can name: the arguments in one of two forms, one of them, the author, or
something that is not known. -/
inductive Variable where
  | input
  | args
  | argument (digits : List Char) (filled : digits ≠ [])
      (decimal : ∀ c ∈ digits, c.isDigit = true)
  | author
  | other (name : List Char) (filled : name ≠ []) (letters : ∀ c ∈ name, c.isAlpha = true)
      (unknown : String.ofList name ∉ ["args", "input", "author"])

/-- A tag for a variable, with three braces if it is verbatim, and the text behind it. -/
structure Slot where
  held : Variable
  verbatim : Bool
  behind : Literal

/-- A template that consists of text and tags for variables. -/
structure Prose where
  start : Literal
  slots : List Slot

/-- The key by which a tag names a variable. -/
def Variable.key : Variable → List Char
  | input => "input".toList
  | args => "args".toList
  | argument digits _ _ => "args".toList ++ '.' :: digits
  | author => "author".toList
  | other name _ _ _ => name

theorem Variable.key_argument {digits : List Char} (filled : digits ≠ [])
    (decimal : ∀ c ∈ digits, c.isDigit = true) :
    (argument digits filled decimal).key = "args".toList ++ '.' :: digits :=
  rfl

theorem Variable.key_other {name : List Char} (filled : name ≠ [])
    (letters : ∀ c ∈ name, c.isAlpha = true)
    (unknown : String.ofList name ∉ ["args", "input", "author"]) :
    (other name filled letters unknown).key = name :=
  rfl

/-- The text that stands for a variable. An index is read if it has few enough digits. -/
def Variable.value (args : List String) (author : Option String) : Variable → String
  | input => " ".intercalate args
  | .args => ",".intercalate args
  | argument digits _ _ =>
      if digits.length ≤ maxDecimalDigits then args[Nat.ofDigitChars 10 digits 0]?.getD "" else ""
  | .author => author.getD ""
  | other _ _ _ _ => ""

/-- The characters that mean something in markup, and what is written for them. -/
def entities : List (Char × String) :=
  [('&', "&amp;"), ('<', "&lt;"), ('>', "&gt;"), ('"', "&quot;")]

/-- The text with what is written for each of its characters. -/
def withEntities (text : List Char) : List Char :=
  text.flatMap fun c => ((entities.lookup c).map String.toList).getD [c]

namespace Slot

/-- The tag and the text behind it. -/
def text (slot : Slot) : List Char :=
  (if slot.verbatim then ['{', '{', '{'] ++ slot.held.key ++ ['}', '}', '}']
    else ['{', '{'] ++ slot.held.key ++ ['}', '}']) ++ slot.behind.text

/-- The value in place of the tag, and the text behind it. -/
def shown (args : List String) (author : Option String) (slot : Slot) : List Char :=
  let value := (slot.held.value args author).toList
  (if slot.verbatim then value else withEntities value) ++ slot.behind.text

end Slot

namespace Prose

/-- The template itself. -/
def text (prose : Prose) : List Char :=
  prose.start.text ++ prose.slots.flatMap Slot.text

/-- The template with the values in place of the tags. -/
def shown (args : List String) (author : Option String) (prose : Prose) : List Char :=
  prose.start.text ++ prose.slots.flatMap (Slot.shown args author)

end Prose

/-! ## Looking up a variable -/

variable {args : List String} {author : Option String} {key digits : List Char}

theorem escapeMarkup_eq_withEntities (text : List Char) :
    escapeMarkup text = withEntities text := by
  rw [escapeMarkup, withEntities]
  congr 1
  funext c
  simp only [escapeChar, entities, List.lookup_cons, List.lookup_nil]
  by_cases ampersand : c = '&'
  · subst ampersand
    rfl
  by_cases quote : c = '"'
  · subst quote
    rfl
  by_cases less : c = '<'
  · subst less
    rfl
  by_cases greater : c = '>'
  · subst greater
    rfl
  simp [beq_eq_false_iff_ne.mpr ampersand, beq_eq_false_iff_ne.mpr quote,
    beq_eq_false_iff_ne.mpr less, beq_eq_false_iff_ne.mpr greater]

namespace Scope

theorem display_settle_str (text : String) : (value (.str text)).settle.display = text := by
  by_cases empty : text = ""
  · subst empty
    rfl
  · simp [settle, truthy, Value.truthy, empty, display, Value.display]

theorem lookup_eq_search (key : List Char) (scopes : List Scope) (notPoint : key ≠ ['.']) :
    lookup key scopes = search (splitWhere (· == '.') key) scopes := by
  rw [lookup]
  rintro scope outer rfl
  exact absurd rfl notPoint

theorem splitWhere_point (single : '.' ∉ key) : splitWhere (· == '.') key = [key] := by
  rw [splitWhere_eq]
  apply List.splitOnP_eq_singleton
  intro c member
  rw [beq_eq_false_iff_ne]
  rintro rfl
  exact single member

theorem display_settle_arguments (args : List String) :
    (arguments args).settle.display = ",".intercalate args := by
  cases args with
  | nil => rfl
  | cons arg rest => rfl

theorem walk_singleton (scope : Scope) (name : List Char) :
    walk scope [name] = scope.part? name := by
  rw [walk]
  rcases scope.part? name with _ | _ | _ <;> rfl

theorem search_singleton {scope : Scope} {names : List (List Char)} {found : Option Scope}
    (walked : scope.walk names = .ok found) :
    search names [scope] = .ok ((found.map settle).getD nothing) := by
  rw [search, walked]
  cases found <;> rfl

/-- The item that an index names, if there is one. -/
theorem part?_arguments (filled : digits ≠ []) (decimal : ∀ c ∈ digits, c.isDigit = true) :
    part? (arguments args) digits =
      .ok ((if digits.length ≤ maxDecimalDigits then args[Nat.ofDigitChars 10 digits 0]?
        else none).map fun arg => value (.str arg)) := by
  rw [part?]
  simp only [readInteger?_of_isDigit filled decimal]
  split
  · have notNegative : ¬ (Nat.ofDigitChars 10 digits 0 : Int) < 0 := by omega
    simp only [Option.bind_some, itemAt?, if_neg notNegative, Int.toNat_natCast]
  · rfl

theorem part?_context_of_unknown (context : Context)
    (unknown : String.ofList key ∉ ["args", "input", "author"]) :
    part? (.context context) key = .ok none := by
  simp only [List.mem_cons, List.not_mem_nil, or_false, not_or] at unknown
  simp [part?, unknown]

/-- A variable is found, with the text that stands for it. -/
theorem exists_lookup (held : Variable) (args : List String) (author : Option String) :
    ∃ found, lookup held.key [.context ⟨args, author.map .str⟩] = .ok found ∧
      found.display = held.value args author := by
  cases held with
  | input => exact ⟨_, rfl, display_settle_str _⟩
  | args => exact ⟨_, rfl, display_settle_arguments _⟩
  | argument digits filled decimal =>
      have single : '.' ∉ digits := by
        intro member
        exact absurd (decimal _ member) (by decide)
      have names : splitWhere (· == '.') (Variable.argument digits filled decimal).key =
          ["args".toList, digits] := by
        rw [Variable.key_argument, splitWhere_eq, List.splitOnP_append_cons _ _ (by rfl),
          ← splitWhere_eq, ← splitWhere_eq, splitWhere_point single]
        rfl
      have notPoint : (Variable.argument digits filled decimal).key ≠ ['.'] := by
        simp [Variable.key_argument]
      have inside : walk (.context ⟨args, author.map .str⟩) ["args".toList, digits] =
          walk (arguments args) [digits] := rfl
      rw [walk_singleton, part?_arguments filled decimal] at inside
      rw [lookup_eq_search _ _ notPoint, names, search_singleton inside]
      refine ⟨_, rfl, ?_⟩
      rw [Variable.value]
      split
      · cases args[Nat.ofDigitChars 10 digits 0]? with
        | none => rfl
        | some arg => exact display_settle_str arg
      · rfl
  | author =>
      cases author with
      | none => exact ⟨_, rfl, rfl⟩
      | some author => exact ⟨_, rfl, display_settle_str _⟩
  | other name filled letters unknown =>
      have single : '.' ∉ name := by
        intro member
        exact absurd (letters _ member) (by decide)
      have notPoint : name ≠ ['.'] := by
        rintro rfl
        exact single List.mem_cons_self
      have walked := part?_context_of_unknown ⟨args, author.map .str⟩ unknown
      rw [← walk_singleton] at walked
      refine ⟨nothing, ?_, rfl⟩
      rw [Variable.key_other, lookup_eq_search _ _ notPoint, splitWhere_point single,
        search_singleton walked]
      rfl

end Scope

/-! ## Finding the tags -/

/-- A character that the key of a variable may have. -/
def isKeyChar (c : Char) : Bool :=
  c.isAlphanum || c == '.'

variable {c d : Char}

theorem toNat_of_isKeyChar (fits : isKeyChar c = true) : 46 ≤ c.toNat ∧ c.toNat ≤ 122 := by
  rw [isKeyChar, Bool.or_eq_true, beq_iff_eq] at fits
  rcases fits with alphanumeric | rfl
  · have ranges : c.isAlphanum = (decide (65 ≤ c.val ∧ c.val ≤ 90) ||
        (97 ≤ c.val && c.val ≤ 122) || (48 ≤ c.val && c.val ≤ 57)) := rfl
    simp only [ranges, Bool.or_eq_true, Bool.and_eq_true, decide_eq_true_eq,
      UInt32.le_iff_toNat_le, UInt32.reduceToNat] at alphanumeric
    have code : c.val.toNat = c.toNat := rfl
    omega
  · decide

theorem ne_of_isKeyChar (fits : isKeyChar c = true) (other : isKeyChar d = false) : c ≠ d := by
  rintro rfl
  rw [fits] at other
  cases other

theorem isBlank_eq_false_of_isKeyChar (fits : isKeyChar c = true) : isBlank c = false := by
  have bounds := toNat_of_isKeyChar fits
  exact isBlank_eq_false_of_toNat (by omega) (by omega)

theorem of?_eq_none_of_isKeyChar (fits : isKeyChar c = true) : TagKind.of? c = none := by
  have apart (d : Char) (other : isKeyChar d = false) : (c == d) = false :=
    beq_eq_false_iff_ne.mpr (ne_of_isKeyChar fits other)
  have notBrace : (c.toNat == 123) = false := by
    have bounds := toNat_of_isKeyChar fits
    rw [beq_eq_false_iff_ne]
    omega
  rw [TagKind.of?, apart '!' (by decide), apart '#' (by decide), apart '^' (by decide),
    apart '/' (by decide), apart '>' (by decide), apart '&' (by decide), apart '=' (by decide),
    notBrace]
  rfl

/-- A key has letters, digits and points only. -/
theorem Variable.isKeyChar_of_mem_key {held : Variable} (member : c ∈ held.key) :
    isKeyChar c = true := by
  have ofWord {word : List Char} (fits : word.all isKeyChar = true) (inside : c ∈ word) :
      isKeyChar c = true := List.all_eq_true.mp fits c inside
  cases held with
  | input => exact ofWord (by decide) member
  | args => exact ofWord (by decide) member
  | author => exact ofWord (by decide) member
  | argument digits filled decimal =>
      rcases List.mem_append.mp member with front | back
      · exact ofWord (by decide) front
      · rcases List.mem_cons.mp back with rfl | inside
        · decide
        · simp [isKeyChar, Char.isAlphanum, decimal c inside]
  | other name filled letters unknown => simp [isKeyChar, Char.isAlphanum, letters c member]

theorem Variable.key_ne_nil (held : Variable) : held.key ≠ [] := by
  cases held with
  | argument digits filled decimal => simp [key_argument]
  | other name filled letters unknown => exact filled
  | _ => decide

theorem Variable.not_mem_key (held : Variable) : '}' ∉ held.key := by
  intro member
  exact absurd (isKeyChar_of_mem_key member) (by decide)

theorem Variable.trim_key (held : Variable) : trim held.key = held.key := by
  apply IsTrimmed.trim_eq
  constructor
  · intro c first
    exact isBlank_eq_false_of_isKeyChar (isKeyChar_of_mem_key (List.mem_of_mem_head? first))
  · intro c last
    exact isBlank_eq_false_of_isKeyChar (isKeyChar_of_mem_key (List.mem_of_mem_getLast? last))

/-- A mark is found behind a text in which its first character does not occur. -/
theorem cutAt_append {mark before : List Char} (absent : c ∉ before) (after : List Char) :
    cutAt (c :: mark) (before ++ (c :: mark ++ after)) = some (before, after) := by
  induction before with
  | nil => simp [cutAt]
  | cons d before ih =>
      simp only [List.mem_cons, not_or] at absent
      have other : (c == d) = false := beq_eq_false_iff_ne.mpr absent.1
      rw [List.cons_append, cutAt, ih absent.2]
      simp [List.isPrefixOf, other]

theorem cutAt_eq_none {mark text : List Char} (absent : c ∉ text) :
    cutAt (c :: mark) text = none := by
  induction text with
  | nil => rfl
  | cons d text ih =>
      simp only [List.mem_cons, not_or] at absent
      have other : (c == d) = false := beq_eq_false_iff_ne.mpr absent.1
      rw [cutAt, ih absent.2]
      simp [List.isPrefixOf, other]

/-- What a slot asks for. -/
def Slot.piece (slot : Slot) : Piece :=
  if slot.verbatim then .verbatim slot.held.key else .escaped slot.held.key

/-- A tag with two braces. -/
theorem takeTag_escaped (held : Variable) (rest : List Char) :
    takeTag .braces (held.key ++ (['}', '}'] ++ rest)) =
      .ok ⟨some (.escaped held.key), .braces, rest⟩ := by
  have cut : cutAt Delimiters.braces.right (held.key ++ (['}', '}'] ++ rest)) =
      some (held.key, rest) := cutAt_append held.not_mem_key rest
  obtain ⟨c, key, shape⟩ := List.exists_cons_of_ne_nil held.key_ne_nil
  have kind : TagKind.of? c = none :=
    of?_eq_none_of_isKeyChar (Variable.isKeyChar_of_mem_key (shape ▸ List.mem_cons_self))
  rw [takeTag, cut, shape]
  simp only [kind]
  rw [← shape, held.trim_key]

/-- A tag with three braces. -/
theorem takeTag_verbatim (held : Variable) (rest : List Char) :
    takeTag .braces ('{' :: held.key ++ (['}', '}', '}'] ++ rest)) =
      .ok ⟨some (.verbatim held.key), .braces, rest⟩ := by
  have cut : cutAt Delimiters.braces.right ('{' :: held.key ++ (['}', '}', '}'] ++ rest)) =
      some ('{' :: held.key, '}' :: rest) := by
    apply cutAt_append
    simpa using held.not_mem_key
  have kind : TagKind.of? '{' = some .braced := rfl
  rw [takeTag, cut]
  simp only [kind]
  rw [held.trim_key]
  rfl

theorem Slot.printsValue_piece (slot : Slot) : slot.piece.printsValue = true := by
  rw [piece]
  split <;> rfl

theorem Slot.track_piece (slot : Slot) (finding : Finding) :
    finding.track (some slot.piece) = .ok finding.openKeys := by
  rw [piece]
  split <;> rfl

/-- Behind its first two braces, a slot is read as its piece and the text behind it. -/
theorem Slot.exists_takeTag (slot : Slot) (rest : List Char) :
    ∃ body, body ≠ [] ∧ slot.text ++ rest = ['{', '{'] ++ body ∧
      takeTag .braces body = .ok ⟨some slot.piece, .braces, slot.behind.text ++ rest⟩ := by
  rw [text, piece]
  cases slot.verbatim with
  | true => exact ⟨_, by simp, by simp, takeTag_verbatim slot.held _⟩
  | false => exact ⟨_, by simp, by simp, takeTag_escaped slot.held _⟩

/-- Finding goes on behind a slot as if it began there. -/
theorem Finding.exists_run_slot {finding : Finding} (braces : finding.delimiters = .braces)
    (closed : finding.openKeys = []) (fuel : Nat) (literal : Literal) (slot : Slot)
    (rest : List Char) :
    ∃ (mark : Mark) (next : Finding), next.delimiters = .braces ∧ next.openKeys = [] ∧
      finding.run (fuel + 1) (literal.text ++ (slot.text ++ rest)) =
        Pieces.after (locate mark (literalPieces literal.text ++ [slot.piece]))
          (next.run fuel (slot.behind.text ++ rest)) := by
  obtain ⟨body, filled, shape, taken⟩ := slot.exists_takeTag rest
  have cut : cutAt finding.delimiters.left (literal.text ++ (slot.text ++ rest)) =
      some (literal.text, body) := by
    rw [braces, shape]
    exact cutAt_append (fun member => (literal.noBrace _ member).1 rfl) body
  have notEmpty : (literal.text ++ (slot.text ++ rest)).isEmpty = false := by
    rw [shape]
    simp
  have bodyNotEmpty : body.isEmpty = false := by
    simpa using filled
  rw [Finding.run, notEmpty, cut]
  -- A tag that prints a value never stands alone, so nothing around it is dropped.
  simp only [bodyNotEmpty, braces, taken, slot.track_piece, slot.printsValue_piece, Option.any_some,
    Option.toList_some, Bool.not_true, Bool.and_false, Bool.false_and, Bool.false_eq_true, if_false,
    bind, Except.bind, pure, Except.pure]
  refine ⟨_, _, ?_, ?_, rfl⟩
  · rfl
  · exact closed

/-- The pieces of the text and of the slots behind it. -/
def Prose.pieces (prose : Prose) : List Piece :=
  literalPieces prose.start.text ++
    prose.slots.flatMap fun slot => slot.piece :: literalPieces slot.behind.text

theorem map_piece_locate (mark : Mark) (pieces : List Piece) :
    (locate mark pieces).map Located.piece = pieces := by
  induction pieces generalizing mark with
  | nil => rfl
  | cons piece pieces ih => simp [locate, ih]

theorem Finding.run_literal {finding : Finding} (braces : finding.delimiters = .braces)
    (closed : finding.openKeys = []) (fuel : Nat) (literal : Literal) :
    ∃ found, finding.run (fuel + 1) literal.text = ⟨found, .complete⟩ ∧
      found.map Located.piece = literalPieces literal.text := by
  have ending : finding.atEnd = .complete := by
    rw [atEnd, closed]
  rw [run, literalPieces]
  cases literal.text.isEmpty with
  | true => exact ⟨_, by rw [ending]; rfl, rfl⟩
  | false =>
      have cut : cutAt finding.delimiters.left literal.text = none := by
        rw [braces]
        exact cutAt_eq_none fun member => (literal.noBrace _ member).1 rfl
      rw [cut]
      exact ⟨_, by rw [ending]; rfl, map_piece_locate _ _⟩

/-- The pieces that are found are those of the text and of the slots, in order. -/
theorem Finding.exists_run_prose {finding : Finding} (braces : finding.delimiters = .braces)
    (closed : finding.openKeys = []) (prose : Prose) {fuel : Nat}
    (enough : prose.slots.length < fuel) :
    ∃ found, finding.run fuel prose.text = ⟨found, .complete⟩ ∧
      found.map Located.piece = prose.pieces := by
  obtain ⟨start, slots⟩ := prose
  obtain _ | fuel := fuel
  · exact absurd enough (Nat.not_lt_zero _)
  -- Behind its first slot a template goes on as one that starts with the text behind the slot.
  induction slots generalizing start finding fuel with
  | nil => simpa [Prose.text, Prose.pieces] using run_literal braces closed fuel start
  | cons slot slots ih =>
      obtain _ | fuel := fuel
      · exact absurd (Nat.lt_of_succ_lt_succ enough) (Nat.not_lt_zero _)
      obtain ⟨mark, next, nextBraces, nextClosed, ran⟩ :=
        exists_run_slot braces closed (fuel + 1) start slot (slots.flatMap Slot.text)
      obtain ⟨found, rest, pieces⟩ :=
        ih nextBraces nextClosed slot.behind fuel (Nat.lt_of_succ_lt_succ enough)
      refine ⟨locate mark (literalPieces start.text ++ [slot.piece]) ++ found, ?_, ?_⟩
      · rw [Prose.text, List.flatMap_cons, ran]
        rw [Prose.text] at rest
        rw [rest]
        rfl
      · rw [List.map_append, map_piece_locate, pieces]
        simp [Prose.pieces]

theorem Prose.length_slots_le (prose : Prose) : prose.slots.length ≤ prose.text.length := by
  obtain ⟨start, slots⟩ := prose
  induction slots with
  | nil => exact Nat.zero_le _
  | cons slot slots ih =>
      have filled : 0 < slot.text.length := by
        rw [Slot.text]
        split <;> simp
      simp only [Prose.text, List.flatMap_cons, List.length_append, List.length_cons] at ih ⊢
      omega

theorem exists_piecesOf (prose : Prose) :
    ∃ found, piecesOf prose.text = ⟨found, .complete⟩ ∧
      found.map Located.piece = prose.pieces :=
  Finding.exists_run_prose rfl rfl prose (Nat.lt_succ_of_le prose.length_slots_le)

/-! ## Rendering the pieces -/

/-- A piece prints a text in a context. -/
inductive Prints (context : Context) : (piece : Piece) → (text : List Char) → Prop
  | literal (text : List Char) : Prints context (.literal text) text
  | escaped {key : List Char} {found : Scope}
      (looked : Scope.lookup key [.context context] = .ok found) :
      Prints context (.escaped key) (withEntities found.display.toList)
  | verbatim {key : List Char} {found : Scope}
      (looked : Scope.lookup key [.context context] = .ok found) :
      Prints context (.verbatim key) found.display.toList

theorem printedText_of_lookup {context : Context} {found : Scope}
    (looked : Scope.lookup key [.context context] = .ok found) :
    printedText key [.context context] = .ok found.display.toList := by
  rw [printedText, looked]
  simp only [bind, Except.bind]
  rfl

/-- A piece that prints a text puts it in front of the others. -/
theorem renderPieces_cons {context : Context} {reset readUpTo : Option Mark} {located : Located}
    {text : List Char} (prints : Prints context located.piece text) (fuel : Nat)
    (rest : List Located) (ending : Ending) :
    renderPieces (fuel + 1) ⟨[.context context], reset, readUpTo⟩ ⟨located :: rest, ending⟩ =
      prependTo text (renderPieces fuel ⟨[.context context], reset, readUpTo⟩ ⟨rest, ending⟩) := by
  obtain ⟨piece, mark⟩ := located
  cases prints with
  | literal text => rfl
  | escaped looked =>
      rw [renderPieces]
      simp only [printedText_of_lookup looked]
      rw [← escapeMarkup_eq_withEntities]
      rfl
  | verbatim looked =>
      rw [renderPieces]
      simp only [looked]
      rfl

/-- Pieces that print texts are rendered to these texts in a row. -/
theorem renderPieces_of_prints {context : Context} {reset readUpTo : Option Mark}
    {found : List Located} {texts : List (List Char)}
    (prints : List.Forall₂ (Prints context) (found.map Located.piece) texts) {fuel : Nat}
    (enough : found.length < fuel) :
    renderPieces fuel ⟨[.context context], reset, readUpTo⟩ ⟨found, .complete⟩ =
      .ok (texts.flatten, reset) := by
  obtain _ | fuel := fuel
  · exact absurd enough (Nat.not_lt_zero _)
  induction found generalizing texts fuel with
  | nil =>
      cases prints
      rfl
  | cons located rest ih =>
      obtain _ | fuel := fuel
      · exact absurd (Nat.lt_of_succ_lt_succ enough) (Nat.not_lt_zero _)
      cases prints with
      | cons first others =>
          rw [renderPieces_cons first, ih others fuel (Nat.lt_of_succ_lt_succ enough)]
          rfl

theorem exists_prints_literal (context : Context) (text : List Char) :
    ∃ texts, List.Forall₂ (Prints context) (literalPieces text) texts ∧ texts.flatten = text := by
  rw [literalPieces]
  cases text with
  | nil => exact ⟨[], .nil, rfl⟩
  | cons c rest => exact ⟨[c :: rest], .cons (.literal _) .nil, List.flatten_singleton⟩

/-- The pieces of a slot print the value of its variable and the text behind it. -/
theorem Slot.exists_prints (slot : Slot) (args : List String) (author : Option String) :
    ∃ texts, List.Forall₂ (Prints ⟨args, author.map .str⟩)
        (slot.piece :: literalPieces slot.behind.text) texts ∧
      texts.flatten = slot.shown args author := by
  obtain ⟨found, looked, display⟩ := Scope.exists_lookup slot.held args author
  obtain ⟨texts, prints, behind⟩ := exists_prints_literal ⟨args, author.map .str⟩ slot.behind.text
  rw [piece, shown, ← display]
  cases slot.verbatim with
  | true => exact ⟨_, .cons (.verbatim looked) prints, congrArg (_ ++ ·) behind⟩
  | false => exact ⟨_, .cons (.escaped looked) prints, congrArg (_ ++ ·) behind⟩

theorem exists_prints_slots (slots : List Slot) (args : List String) (author : Option String) :
    ∃ texts, List.Forall₂ (Prints ⟨args, author.map .str⟩)
        (slots.flatMap fun slot => slot.piece :: literalPieces slot.behind.text) texts ∧
      texts.flatten = slots.flatMap (Slot.shown args author) := by
  induction slots with
  | nil => exact ⟨[], .nil, rfl⟩
  | cons slot slots ih =>
      obtain ⟨first, firstPrints, firstShown⟩ := slot.exists_prints args author
      obtain ⟨others, othersPrint, othersShown⟩ := ih
      refine ⟨first ++ others, List.rel_append firstPrints othersPrint, ?_⟩
      rw [List.flatten_append, firstShown, othersShown, List.flatMap_cons]

theorem Prose.exists_prints (prose : Prose) (args : List String) (author : Option String) :
    ∃ texts, List.Forall₂ (Prints ⟨args, author.map .str⟩) prose.pieces texts ∧
      texts.flatten = prose.shown args author := by
  obtain ⟨before, beforePrints, beforeShown⟩ :=
    exists_prints_literal ⟨args, author.map .str⟩ prose.start.text
  obtain ⟨behind, behindPrints, behindShown⟩ := exists_prints_slots prose.slots args author
  refine ⟨before ++ behind, List.rel_append beforePrints behindPrints, ?_⟩
  rw [List.flatten_append, beforeShown, behindShown, shown]

/-- A template whose pieces print texts is rendered to these texts in a row. -/
theorem render_of_prints {context : Context} {text : List Char} {found : List Located}
    {texts : List (List Char)} (pieces : piecesOf text = ⟨found, .complete⟩)
    (prints : List.Forall₂ (Prints context) (found.map Located.piece) texts) :
    render (String.ofList text) context = .ok (String.ofList texts.flatten) := by
  rw [render, String.toList_ofList, pieces]
  simp only [renderPieces_of_prints prints (Nat.lt_succ_self _)]
  rfl

/-- A template of text and variables is rendered to its text with the values in place of the
tags, whatever the values say. -/
theorem Prose.render_eq_shown (prose : Prose) (args : List String) (author : Option String) :
    render (String.ofList prose.text) ⟨args, author.map .str⟩ =
      .ok (String.ofList (prose.shown args author)) := by
  obtain ⟨found, pieces, shape⟩ := exists_piecesOf prose
  obtain ⟨texts, prints, shown⟩ := prose.exists_prints args author
  rw [render_of_prints pieces (shape ▸ prints), shown]

example : render "<\x7b\x7bargs.0\x7d\x7d> \x7b\x7b\x7binput\x7d\x7d\x7d \x7b\x7bargs.2\x7d\x7d"
    ⟨["\x7b\x7bargs.1\x7d\x7d", "<b>&"], none⟩ =
      .ok "<\x7b\x7bargs.1\x7d\x7d> \x7b\x7bargs.1\x7d\x7d <b>& " := by
  rfl

/-- A tag for the first argument, with zeros in front of the index. -/
def zeroTag (zeros : Nat) : Prose where
  start := ⟨[], by simp⟩
  slots := [⟨.argument (List.replicate (zeros + 1) '0') (by simp) (by simp), false, ⟨[], by simp⟩⟩]

theorem text_zeroTag (zeros : Nat) :
    (zeroTag zeros).text =
      "\x7b\x7bargs.".toList ++ List.replicate (zeros + 1) '0' ++ "\x7d\x7d".toList := by
  simp [zeroTag, Prose.text, Slot.text, Variable.key_argument]

theorem ofDigitChars_zeros (zeros : Nat) :
    Nat.ofDigitChars 10 (List.replicate zeros '0') 0 = 0 := by
  rw [Nat.ofDigitChars_replicate_zero, Nat.mul_zero]

theorem shown_zeroTag {zeros : Nat} (tooMany : maxDecimalDigits ≤ zeros) (args : List String) :
    (zeroTag zeros).shown args none = [] := by
  have unread : ¬ zeros + 1 ≤ maxDecimalDigits := by omega
  simp [Prose.shown, zeroTag, Slot.shown, Variable.value, unread, withEntities]

/-- With too many zeros, the tag prints nothing, although its index is zero and there is a first
argument. -/
theorem render_zeroTag :
    (zeroTag 4300).text =
        "\x7b\x7bargs.".toList ++ List.replicate 4301 '0' ++ "\x7d\x7d".toList ∧
      Nat.ofDigitChars 10 (List.replicate 4301 '0') 0 = 0 ∧ ["x"][0]? = some "x" ∧
      render (String.ofList (zeroTag 4300).text) ⟨["x"], none⟩ = .ok "" := by
  obtain ⟨found, pieces, shape⟩ := exists_piecesOf (zeroTag 4300)
  obtain ⟨texts, prints, shown⟩ := (zeroTag 4300).exists_prints ["x"] none
  have rendered := render_of_prints pieces (shape ▸ prints)
  rw [shown, shown_zeroTag (Nat.le_refl 4300)] at rendered
  exact ⟨text_zeroTag 4300, ofDigitChars_zeros 4301, rfl, rendered⟩

end Template

end SlashBot

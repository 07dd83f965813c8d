import SlashBot.Proofs.Path
import SlashBot.Text.Line
import SlashBot.Value.Display

/-!
# Texts on one line

A text is on one line if it has none of the characters at which a line ends. Texts that are put
together from such texts are on one line. So is every literal, whatever the value is, because a
quoted text shows the breaks as escapes. A value that is displayed is on one line unless it is a
text that is not: this is the one way in which a break gets from a value into a message.
-/

namespace SlashBot

open SlashBot.Number

namespace Text

/-! ## Texts without breaks -/

/-- The text has no character at which a line ends. -/
def OneLine (text : String) : Prop :=
  ∀ c ∈ text.toList, isLineBreak c = false

instance (text : String) : Decidable (OneLine text) :=
  List.decidableBAll (fun c => isLineBreak c = false) text.toList

@[simp] theorem oneLine_append {text more : String} :
    OneLine (text ++ more) ↔ OneLine text ∧ OneLine more := by
  rw [OneLine, String.toList_append, List.forall_mem_append]
  rfl

theorem oneLine_ofList {text : List Char} :
    OneLine (String.ofList text) ↔ ∀ c ∈ text, isLineBreak c = false := by
  rw [OneLine, String.toList_ofList]

theorem oneLine_intercalate {separator : String} {pieces : List String}
    (between : OneLine separator) (each : ∀ piece ∈ pieces, OneLine piece) :
    OneLine (separator.intercalate pieces) := by
  rw [OneLine, String.toList_intercalate]
  induction pieces with
  | nil => exact nofun
  | cons piece pieces ih =>
      have others := ih fun other member => each other (List.mem_cons_of_mem piece member)
      cases pieces with
      | nil =>
          rw [List.map_cons, List.map_nil, List.intercalate_singleton]
          exact each piece List.mem_cons_self
      | cons next pieces =>
          rw [List.map_cons, List.map_cons, List.intercalate_cons_cons, List.forall_mem_append,
            List.forall_mem_append]
          exact ⟨⟨each piece List.mem_cons_self, between⟩, others⟩

/-- The codes at which a line ends. -/
def breakCodes : List Nat := [10, 11, 12, 13, 28, 29, 30, 0x85, 0x2028, 0x2029]

theorem mem_breakCodes {c : Char} (breaks : isLineBreak c = true) : c.toNat ∈ breakCodes := by
  simp only [isLineBreak, Bool.or_eq_true, Bool.and_eq_true, decide_eq_true_eq, beq_iff_eq]
    at breaks
  simp only [breakCodes, List.mem_cons, List.not_mem_nil, or_false]
  omega

/-- A line ends at no character that a quoted text shows as itself. -/
theorem isLineBreak_of_isPrintable {c : Char} (printable : isPrintable c = true) :
    isLineBreak c = false := by
  rw [Bool.eq_false_iff]
  intro breaks
  have hidden : ∀ code ∈ breakCodes, isPrintable (Char.ofNat code) = false := by decide
  rw [← Char.ofNat_toNat c, hidden _ (mem_breakCodes breaks)] at printable
  cases printable

/-- A line ends at no blank of ASCII but the breaks, and at no visible character of ASCII. -/
theorem isLineBreak_of_visible {c : Char} (visible : 32 ≤ c.toNat ∧ c.toNat < 127) :
    isLineBreak c = false := by
  rw [Bool.eq_false_iff]
  intro breaks
  have found := mem_breakCodes breaks
  simp only [breakCodes, List.mem_cons, List.not_mem_nil, or_false] at found
  omega

theorem isLineBreak_of_isDigit {c : Char} (digit : c.isDigit = true) : isLineBreak c = false := by
  have coded : 48 ≤ c.toNat ∧ c.toNat ≤ 57 := Char.isDigit_iff_toNat.mp digit
  exact isLineBreak_of_visible (by omega)

theorem isLineBreak_of_mem_lowerHex {width n : Nat} {c : Char} (member : c ∈ lowerHex width n) :
    isLineBreak c = false := by
  induction width generalizing n with
  | zero => cases member
  | succ width ih =>
      rcases List.mem_append.mp member with leading | last
      · exact ih leading
      · have every : ∀ m < 16, isLineBreak (lowerHexDigit m) = false := by decide
        rw [List.mem_singleton.mp last]
        exact every _ (Nat.mod_lt n (by decide))

/-! ## Quoted texts -/

/-- The marks of an escape, which are followed by hexadecimal digits or by nothing. -/
theorem isLineBreak_of_mem_marked {mark : Char} {digits : List Char} {d : Char}
    (known : mark ∈ ['n', 'r', 't', 'x', 'u', 'U'])
    (hexadecimal : ∀ c ∈ digits, isLineBreak c = false) (member : d ∈ '\\' :: mark :: digits) :
    isLineBreak d = false := by
  have plain : ['n', 'r', 't', 'x', 'u', 'U'].all (fun c => !isLineBreak c) = true := by decide
  rcases List.mem_cons.mp member with rfl | later
  · rfl
  · rcases List.mem_cons.mp later with rfl | inDigits
    · simpa using List.all_eq_true.mp plain _ known
    · exact hexadecimal d inDigits

/-- A character is quoted as itself only if it is printable. -/
theorem isLineBreak_of_mem_escaped {quote c d : Char} (plain : isLineBreak quote = false)
    (member : d ∈ escaped quote c) : isLineBreak d = false := by
  simp only [escaped] at member
  split at member
  · rename_i special
    rw [Bool.or_eq_true, beq_iff_eq, beq_iff_eq] at special
    simp only [List.mem_cons, List.not_mem_nil, or_false] at member
    rcases member with rfl | rfl
    · rfl
    · rcases special with rfl | rfl
      · exact plain
      · rfl
  · split at member
    · exact isLineBreak_of_mem_marked (by simp) (List.forall_mem_nil _) member
    · split at member
      · exact isLineBreak_of_mem_marked (by simp) (List.forall_mem_nil _) member
      · split at member
        · exact isLineBreak_of_mem_marked (by simp) (List.forall_mem_nil _) member
        · split at member
          · rename_i printable
            rw [List.mem_singleton.mp member]
            exact isLineBreak_of_isPrintable printable
          · have numbered (width : Nat) : ∀ e ∈ lowerHex width c.toNat, isLineBreak e = false :=
              fun _ => isLineBreak_of_mem_lowerHex
            split at member
            · exact isLineBreak_of_mem_marked (by simp) (numbered 2) member
            · split at member
              · exact isLineBreak_of_mem_marked (by simp) (numbered 4) member
              · exact isLineBreak_of_mem_marked (by simp) (numbered 8) member

theorem isLineBreak_preferredQuote (single double : Bool) :
    isLineBreak (preferredQuote single double) = false := by
  cases single <;> cases double <;> rfl

/-- A quoted text is on one line, whatever the text is. -/
theorem isLineBreak_of_mem_quoted {text : List Char} {c : Char} (member : c ∈ quoted text) :
    isLineBreak c = false := by
  have quote := isLineBreak_preferredQuote (text.contains '\'') (text.contains '"')
  simp only [quoted, List.cons_append, List.mem_cons, List.mem_append, List.not_mem_nil, or_false]
    at member
  rcases member with rfl | inText | rfl
  · exact quote
  · rcases List.mem_flatMap.mp inText with ⟨d, -, inEscape⟩
    exact isLineBreak_of_mem_escaped quote inEscape
  · exact quote

theorem isLineBreak_of_mem_quotedOctets {octets : List UInt8} {c : Char}
    (member : c ∈ quotedOctets octets) : isLineBreak c = false := by
  have quote := isLineBreak_preferredQuote (octets.contains 39) (octets.contains 34)
  have numbered (octet : UInt8) : ∀ e ∈ lowerHex 2 octet.toNat, isLineBreak e = false :=
    fun _ => isLineBreak_of_mem_lowerHex
  simp only [quotedOctets, List.cons_append, List.mem_cons, List.mem_append, List.not_mem_nil,
    or_false] at member
  rcases member with rfl | rfl | inText | rfl
  · rfl
  · exact quote
  · rcases List.mem_flatMap.mp inText with ⟨octet, -, inEscape⟩
    simp only [escapedOctet] at inEscape
    split at inEscape
    · split at inEscape
      · exact isLineBreak_of_mem_escaped quote inEscape
      · exact isLineBreak_of_mem_marked (by simp) (numbered octet) inEscape
    · exact isLineBreak_of_mem_marked (by simp) (numbered octet) inEscape
  · exact quote

/-! ## Numbers -/

theorem oneLine_int (number : Int) : OneLine (toString number) := by
  intro c member
  rcases Url.of_mem_toString member with digit | rfl
  · exact isLineBreak_of_isDigit digit
  · rfl

theorem oneLine_nat (n : Nat) : OneLine (toString n) :=
  oneLine_int n

theorem oneLine_zeroFilled (width n : Nat) : OneLine (zeroFilled width n) := by
  rw [zeroFilled]
  simp only [oneLine_append, oneLine_ofList]
  constructor
  · intro c member
    rw [(List.mem_replicate.mp member).2]
    rfl
  · exact oneLine_nat n

end Text

open SlashBot.Text

namespace Date

theorem oneLine_text (date : Date) : OneLine date.text := by
  have hyphen : OneLine "-" := by decide
  simp [text, oneLine_zeroFilled, hyphen]

theorem oneLine_literal (date : Date) : OneLine date.literal := by
  have first : OneLine "datetime.date(" := by decide
  have comma : OneLine ", " := by decide
  have last : OneLine ")" := by decide
  have whole : date.literal = "datetime.date(" ++ toString date.year ++ ", " ++
      toString date.month ++ ", " ++ toString date.day ++ ")" := rfl
  simp only [whole, oneLine_append, oneLine_nat, first, comma, last, and_self]

end Date

namespace Timestamp

theorem oneLine_offsetText (seconds : Int) : OneLine (offsetText seconds) := by
  have sign : OneLine (if seconds < 0 then "-" else "+") := by split <;> decide
  have colon : OneLine ":" := by decide
  simp only [offsetText, oneLine_append, oneLine_zeroFilled, sign, colon, and_self]

theorem oneLine_text (time : Timestamp) : OneLine time.text := by
  have fraction : OneLine (if time.microsecond == 0 then "" else
      "." ++ zeroFilled 6 time.microsecond) := by
    split
    · decide
    · exact oneLine_append.mpr ⟨by decide, oneLine_zeroFilled 6 _⟩
  have space : OneLine " " := by decide
  have colon : OneLine ":" := by decide
  simp only [text, oneLine_append, oneLine_zeroFilled, Date.oneLine_text, fraction, space, colon,
    and_self, true_and]
  split
  · decide
  · exact oneLine_offsetText _

theorem oneLine_spanLiteral (seconds : Int) : OneLine (spanLiteral seconds) := by
  have named (label : String) (plain : OneLine label) (n : Int) :
      OneLine (label ++ toString n) :=
    oneLine_append.mpr ⟨plain, oneLine_int n⟩
  have first : OneLine "datetime.timedelta(" := by decide
  have last : OneLine ")" := by decide
  unfold spanLiteral
  simp only [oneLine_append, first, last, true_and, and_true]
  apply oneLine_intercalate (by decide)
  intro piece member
  rcases List.mem_append.mp member with inDays | inRest
  · split at inDays
    · cases inDays
    · rw [List.mem_singleton.mp inDays]
      exact named "days=" (by decide) _
  · split at inRest
    · cases inRest
    · rw [List.mem_singleton.mp inRest]
      exact named "seconds=" (by decide) _

theorem oneLine_literal (time : Timestamp) : OneLine time.literal := by
  have first : OneLine "datetime.datetime(" := by decide
  have last : OneLine ")" := by decide
  have zone : OneLine "tzinfo=datetime.timezone(" := by decide
  unfold literal
  simp only [oneLine_append, first, last, true_and, and_true]
  apply oneLine_intercalate (by decide)
  intro piece member
  rcases List.mem_append.mp member with inNumbers | inZone
  · rcases List.mem_map.mp inNumbers with ⟨n, -, rfl⟩
    exact oneLine_nat n
  · split at inZone
    · cases inZone
    · rw [List.mem_singleton.mp inZone]
      decide
    · rw [List.mem_singleton.mp inZone]
      simp only [oneLine_append, oneLine_spanLiteral, zone, last, and_self]

end Timestamp

/-! ## Floating-point numbers -/

namespace Number

theorem isDigit_of_mem_digitsOf {n : Nat} {c : Char} (member : c ∈ digitsOf n) :
    c.isDigit = true := by
  rw [digitsOf] at member
  split at member
  · cases member
  · exact Nat.isDigit_of_mem_toDigits (by decide) (by decide) member

theorem Double.isDigit_of_mem_shortest {significand : Nat} {exponent : Int} {c : Char}
    (member : c ∈ (shortest significand exponent).digits) : c.isDigit = true := by
  have each (count : Nat) (decimal : Decimal)
      (chosen : withDigits? significand exponent count = some decimal)
      (inDigits : c ∈ decimal.digits) :
      c.isDigit = true := by
    simp only [withDigits?, Option.map_eq_some_iff] at chosen
    obtain ⟨digits, -, rfl⟩ := chosen
    exact isDigit_of_mem_digitsOf inDigits
  rw [shortest] at member
  cases found : (List.range 17).findSome? fun i => withDigits? significand exponent (i + 1) with
  | none =>
      rw [found] at member
      cases member
  | some decimal =>
      rw [found] at member
      rcases List.exists_of_findSome?_eq_some found with ⟨i, -, chosen⟩
      exact each _ _ chosen member

/-- A decimal number is laid out on one line. -/
theorem Decimal.oneLine_layout {decimal : Decimal}
    (digits : ∀ c ∈ decimal.digits, c.isDigit = true) : OneLine decimal.layout := by
  have zeros (n : Nat) : ∀ c ∈ List.replicate n '0', isLineBreak c = false := by
    intro c member
    rw [(List.mem_replicate.mp member).2]
    rfl
  unfold layout
  extract_lets kept filled point whole fraction power mantissa
  have significant : ∀ c ∈ kept, isLineBreak c = false := by
    intro c member
    rw [List.mem_reverse] at member
    exact isLineBreak_of_isDigit
      (digits c (List.mem_reverse.mp ((List.dropWhile_sublist _).subset member)))
  clear_value kept
  have digit : isLineBreak '0' = false := rfl
  have mark : isLineBreak '.' = false := rfl
  split
  · split
    · rw [oneLine_ofList, List.forall_mem_append, List.forall_mem_cons, List.forall_mem_cons]
      exact ⟨⟨digit, mark, zeros _⟩, significant⟩
    · have behind : ∀ c ∈ (if fraction.isEmpty then ['0'] else fraction),
          isLineBreak c = false := by
        split
        · simpa using digit
        · exact fun c member => significant c (List.mem_of_mem_drop member)
      rw [oneLine_ofList, List.forall_mem_append, List.forall_mem_append, List.forall_mem_cons]
      exact ⟨⟨fun c member => significant c (List.mem_of_mem_take member), zeros _⟩, mark, behind⟩
  · have leading : ∀ c ∈ mantissa, isLineBreak c = false := by
      intro c member
      simp only [mantissa] at member
      split at member
      · rename_i first second rest pointed
        rw [List.forall_mem_cons] at significant
        rcases List.mem_cons.mp member with rfl | later
        · exact significant.1
        · rcases List.mem_cons.mp later with rfl | behind
          · exact mark
          · exact significant.2 c behind
      · exact significant c member
    simp only [oneLine_append, oneLine_ofList]
    refine ⟨⟨⟨leading, ?_⟩, ?_⟩, oneLine_nat power⟩
    · split <;> decide
    · split <;> decide

theorem Double.oneLine_text (number : Double) : OneLine number.text := by
  cases number with
  | nan => decide
  | infinite negative => cases negative <;> decide
  | finite negative significand exponent =>
      have sign : OneLine (if negative then "-" else "") := by cases negative <;> decide
      rw [text]
      rw [oneLine_append]
      refine ⟨sign, ?_⟩
      split
      · decide
      · exact Decimal.oneLine_layout fun _ => isDigit_of_mem_shortest

end Number

/-! ## Values -/

namespace Value

theorem oneLine_quotedText (text : String) : OneLine (quotedText text) :=
  oneLine_ofList.mpr fun _ => isLineBreak_of_mem_quoted

/-- Literals between two marks, with commas between them. -/
theorem oneLine_enclosed {left right : String} {pieces : List String} (first : OneLine left)
    (last : OneLine right) (each : ∀ piece ∈ pieces, OneLine piece) :
    OneLine (left ++ ", ".intercalate pieces ++ right) := by
  rw [oneLine_append, oneLine_append]
  exact ⟨⟨first, oneLine_intercalate (by decide) each⟩, last⟩

mutual

/-- A literal is on one line, whatever the value is. -/
theorem oneLine_literal : (value : Value) → OneLine value.literal
  | .null => by decide
  | .bool truth => by cases truth <;> decide
  | .int number => oneLine_int number
  | .float number => number.oneLine_text
  | .str text => oneLine_quotedText text
  | .list items => by
      rw [literal]
      exact oneLine_enclosed (by decide) (by decide) (oneLine_literals items)
  | .map entries => by
      rw [literal]
      exact oneLine_enclosed (by decide) (by decide) (oneLine_entryLiterals entries)
  | .bytes octets => oneLine_ofList.mpr fun _ => isLineBreak_of_mem_quotedOctets
  | .date day => day.oneLine_literal
  | .timestamp time => time.oneLine_literal
  | .pair first second => by
      have opening : OneLine "(" := by decide
      have comma : OneLine ", " := by decide
      have closing : OneLine ")" := by decide
      unfold literal
      simp only [oneLine_append, oneLine_literal first, oneLine_literal second, opening, comma,
        closing, and_self]
  | .set [] => by decide
  | .set (item :: items) => by
      rw [literal]
      refine oneLine_enclosed (by decide) (by decide) ?_
      rw [List.forall_mem_cons]
      exact ⟨oneLine_literal item, oneLine_literals items⟩

theorem oneLine_literals : (values : List Value) → ∀ text ∈ literals values, OneLine text
  | [] => nofun
  | value :: rest => by
      rw [literals, List.forall_mem_cons]
      exact ⟨oneLine_literal value, oneLine_literals rest⟩

theorem oneLine_entryLiterals :
    (entries : List (Value × Value)) → ∀ text ∈ entryLiterals entries, OneLine text
  | [] => nofun
  | (key, value) :: rest => by
      have colon : OneLine ": " := by decide
      rw [entryLiterals, List.forall_mem_cons, oneLine_append, oneLine_append]
      exact ⟨⟨⟨oneLine_literal key, colon⟩, oneLine_literal value⟩, oneLine_entryLiterals rest⟩

end

/-- A value is displayed on one line unless it is a text that is not on one line. -/
theorem oneLine_display {value : Value} (texts : ∀ text, value = .str text → OneLine text) :
    OneLine value.display := by
  cases value with
  | str text => exact texts text rfl
  | date day => exact day.oneLine_text
  | timestamp time => exact time.oneLine_text
  | _ => exact oneLine_literal _

end Value

end SlashBot

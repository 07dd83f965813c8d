import SlashBot.Json.Writer
import SlashBot.Proofs.Octets
import SlashBot.Proofs.Reading
import SlashBot.Text.Base64

/-!
# Contents of files

A file is sent in base64, with line breaks or other characters in between that mean nothing.
However they are scattered over its text, the file is read back as it was, down to a byte order
mark, and an empty file is read as the empty text and not as a file that is missing.
-/

namespace SlashBot

namespace Text

/-! ## Encoding in base64 -/

/-- The characters of base64, in the order of the numbers that they stand for: capital letters,
small letters, digits, and two signs. -/
def base64Alphabet : List Char :=
  let stretch (first : Char) (count : Nat) : List Char :=
    (List.range count).map fun n => Char.ofNat (first.toNat + n)
  stretch 'A' 26 ++ stretch 'a' 26 ++ stretch '0' 10 ++ ['+', '/']

example : String.ofList base64Alphabet =
    "ABCDEFGHIJKLMNOPQRSTUVWXYZabcdefghijklmnopqrstuvwxyz0123456789+/" := by
  rfl

/-- The character for a number below 64. -/
def base64Char (n : Nat) : Char :=
  base64Alphabet.getD n '='

/-- Octets in base64: four characters for three octets, and padding in the last four if there
are less. -/
def encodeBase64 : (octets : List UInt8) → List Char
  | [] => []
  | [a] => [base64Char (a.toNat / 4), base64Char (a.toNat % 4 * 16), '=', '=']
  | [a, b] =>
      [base64Char (a.toNat / 4), base64Char (a.toNat % 4 * 16 + b.toNat / 16),
        base64Char (b.toNat % 16 * 4), '=']
  | a :: b :: c :: rest =>
      base64Char (a.toNat / 4) :: base64Char (a.toNat % 4 * 16 + b.toNat / 16) ::
        base64Char (b.toNat % 16 * 4 + c.toNat / 64) :: base64Char (c.toNat % 64) ::
          encodeBase64 rest

/-- A character of ASCII that means nothing in base64. -/
def IsForeign (c : Char) : Prop :=
  c.toNat < 128 ∧ c ∉ base64Alphabet ∧ c ≠ '='

instance (c : Char) : Decidable (IsForeign c) :=
  inferInstanceAs (Decidable (_ ∧ _ ∧ _))

/-- A text with characters inserted at any places that mean nothing in base64. -/
inductive Scattered : (text scattered : List Char) → Prop
  | nil : Scattered [] []
  | keep (c : Char) {text scattered : List Char} (more : Scattered text scattered) :
      Scattered (c :: text) (c :: scattered)
  | insert {c : Char} {text scattered : List Char} (foreign : IsForeign c)
      (more : Scattered text scattered) : Scattered text (c :: scattered)

/-! ## Decoding -/

variable {text scattered rest : List Char} {c : Char} {group : Base64Group} {n : Nat}

theorem base64Digit?_base64Char (small : n < 64) : base64Digit? (base64Char n) = some n := by
  have every : ∀ n < 64, base64Digit? (base64Char n) = some n := by
    decide
  exact every n small

theorem base64Char_ne_pad (small : n < 64) : (base64Char n == '=') = false := by
  have every : ∀ n < 64, (base64Char n == '=') = false := by decide
  exact every n small

/-- What is outside the alphabet is no digit. -/
theorem IsForeign.base64Digit?_eq (foreign : IsForeign c) : base64Digit? c = none := by
  have every : ∀ code < 128, Char.ofNat code ∉ base64Alphabet →
      base64Digit? (Char.ofNat code) = none := by decide +kernel
  have outside : Char.ofNat c.toNat ∉ base64Alphabet := by
    rw [Char.ofNat_toNat]
    exact foreign.2.1
  have digit := every c.toNat foreign.1 outside
  rwa [Char.ofNat_toNat] at digit

namespace Base64Group

theorem decode_cons : group.decode (c :: rest) =
    if c == '=' then
      match group.pad with
      | some group => group.decode rest
      | none => some []
    else
      match base64Digit? c with
      | none => group.decode rest
      | some digit => ((group.push digit).2.decode rest).map ((group.push digit).1 ++ ·) := by
  cases group <;> rfl

theorem decode_digit (small : n < 64) : group.decode (base64Char n :: rest) =
    ((group.push n).2.decode rest).map ((group.push n).1 ++ ·) := by
  simp only [decode_cons, base64Char_ne_pad small, Bool.false_eq_true, if_false,
    base64Digit?_base64Char small]

theorem decode_empty (small : n < 64) :
    empty.decode (base64Char n :: rest) = (one n).decode rest := by
  rw [decode_digit small]
  exact Option.map_id'

theorem decode_one {bits : Nat} (octet : UInt8) (small : n < 64)
    (whole : bits * 4 + n / 16 = octet.toNat) :
    (one bits).decode (base64Char n :: rest) =
      ((two (n % 16) false).decode rest).map (octet :: ·) := by
  simp only [decode_digit small, push, whole, UInt8.ofNat_toNat, List.singleton_append]

theorem decode_two {bits : Nat} (octet : UInt8) (small : n < 64)
    (whole : bits * 16 + n / 4 = octet.toNat) :
    (two bits false).decode (base64Char n :: rest) =
      ((three (n % 4)).decode rest).map (octet :: ·) := by
  simp only [decode_digit small, push, whole, UInt8.ofNat_toNat, List.singleton_append]

theorem decode_three {bits : Nat} (octet : UInt8) (small : n < 64)
    (whole : bits * 64 + n = octet.toNat) :
    (three bits).decode (base64Char n :: rest) = (empty.decode rest).map (octet :: ·) := by
  simp only [decode_digit small, push, whole, UInt8.ofNat_toNat, List.singleton_append]

theorem decode_foreign (foreign : IsForeign c) : group.decode (c :: rest) = group.decode rest := by
  simp only [decode_cons, beq_iff_eq, foreign.2.2, if_false, foreign.base64Digit?_eq]

/-- Characters that mean nothing have no influence, wherever they stand. -/
theorem decode_scattered (spread : Scattered text scattered) :
    group.decode scattered = group.decode text := by
  induction spread generalizing group with
  | nil => rfl
  | keep c more ih => simp only [decode_cons, ih]
  | insert foreign more ih => rw [decode_foreign foreign, ih]

end Base64Group

open Base64Group

/-- Octets are read back from base64. -/
theorem decodeBase64?_encodeBase64 (octets : List UInt8) :
    decodeBase64? (encodeBase64 octets) = some octets := by
  rw [decodeBase64?]
  induction octets using encodeBase64.induct with
  | case1 => rfl
  | case2 a =>
      have first := a.toNat_lt
      rw [encodeBase64, decode_empty (by omega), decode_one a (by omega) (by omega)]
      rfl
  | case3 a b =>
      have first := a.toNat_lt
      have second := b.toNat_lt
      rw [encodeBase64, decode_empty (by omega), decode_one a (by omega) (by omega),
        decode_two b (by omega) (by omega)]
      rfl
  | case4 a b c rest ih =>
      have first := a.toNat_lt
      have second := b.toNat_lt
      have third := c.toNat_lt
      rw [encodeBase64, decode_empty (by omega), decode_one a (by omega) (by omega),
        decode_two b (by omega) (by omega),
        decode_three c (by omega) (by omega), ih]
      rfl

/-! ## Characters of ASCII -/

theorem ascii_base64Char (n : Nat) : (base64Char n).toNat < 128 := by
  have every : base64Alphabet.all (fun c => c.toNat < 128) = true := by decide
  rw [base64Char, List.getD_eq_getElem?_getD]
  cases found : base64Alphabet[n]? with
  | none => decide
  | some c => exact of_decide_eq_true (List.all_eq_true.mp every c (List.mem_of_getElem? found))

theorem ascii_encodeBase64 (octets : List UInt8) : ∀ c ∈ encodeBase64 octets, c.toNat < 128 := by
  induction octets using encodeBase64.induct with
  | case1 => simp [encodeBase64]
  | case2 a => simp [encodeBase64, ascii_base64Char]
  | case3 a b => simp [encodeBase64, ascii_base64Char]
  | case4 a b c rest ih =>
      simp only [encodeBase64, List.forall_mem_cons]
      exact ⟨ascii_base64Char _, ascii_base64Char _, ascii_base64Char _, ascii_base64Char _, ih⟩

theorem Scattered.ascii (spread : Scattered text scattered) (ascii : ∀ c ∈ text, c.toNat < 128) :
    ∀ c ∈ scattered, c.toNat < 128 := by
  induction spread with
  | nil => exact ascii
  | keep c more ih =>
      rw [List.forall_mem_cons] at ascii ⊢
      exact ⟨ascii.1, ih ascii.2⟩
  | insert foreign more ih =>
      rw [List.forall_mem_cons]
      exact ⟨foreign.1, ih ascii⟩

end Text

namespace Json

open Text

/-! ## Texts in replies -/

variable {reversed rest : List Char} {fuel : Nat}

/-- A control character that was written by its number is read as it was. -/
theorem readEscapedChar?_lowerHex {c : Char} (small : c.toNat < 32) :
    readEscapedChar? (lowerHex 4 c.toNat ++ rest) = some (c, rest) := by
  have every : ∀ code < 32, hexNumber? (lowerHex 4 code) = some code := by decide
  have unit := every c.toNat small
  have high : isHighSurrogate c.toNat = false := by
    simp only [isHighSurrogate, Bool.and_eq_false_iff, decide_eq_false_iff_not]
    omega
  have low : isLowSurrogate c.toNat = false := by
    simp only [isLowSurrogate, Bool.and_eq_false_iff, decide_eq_false_iff_not]
    omega
  simp only [lowerHex, List.nil_append, List.cons_append] at unit ⊢
  simp [readEscapedChar?, readUnit?, unit, high, low]

/-- A character that was written is read as it was. -/
theorem readString?_writeChar (c : Char) :
    readString? reversed (fuel + 1) (writeChar c ++ rest) =
      readString? (c :: reversed) fuel rest := by
  rw [writeChar]
  split
  · rename_i quoted
    rw [Bool.or_eq_true, beq_iff_eq, beq_iff_eq] at quoted
    rcases quoted with rfl | rfl <;> rfl
  · rename_i plain
    rw [Bool.or_eq_true, beq_iff_eq, beq_iff_eq, not_or] at plain
    split
    · rename_i same
      rw [eq_of_beq same]
      rfl
    · split
      · rename_i same
        rw [eq_of_beq same]
        rfl
      · split
        · rename_i same
          rw [eq_of_beq same]
          rfl
        · split
          · rename_i small
            have read : readEscapedChar? (lowerHex 4 c.toNat ++ rest) = some (c, rest) :=
              readEscapedChar?_lowerHex small
            rw [List.cons_append, List.cons_append, readString?]
            simp only [read]
            rfl
          · rename_i large
            simp [readString?, plain, large]

/-- A text that was written is read up to the quote behind it. -/
theorem readString?_flatMap (text : List Char) (enough : text.length < fuel) :
    readString? reversed fuel (text.flatMap writeChar ++ '"' :: rest) =
      some (String.ofList (reversed.reverse ++ text), rest) := by
  induction text generalizing reversed fuel with
  | nil =>
      cases fuel with
      | zero => cases enough
      | succ fuel => simp [readString?]
  | cons c text ih =>
      cases fuel with
      | zero => cases enough
      | succ fuel =>
          rw [List.flatMap_cons, List.append_assoc, readString?_writeChar,
            ih (Nat.lt_of_succ_lt_succ enough)]
          simp

/-- No character is left out when a text is written. -/
theorem length_le_flatMap_writeChar (text : List Char) :
    text.length ≤ (text.flatMap writeChar).length := by
  have filled (c : Char) : 1 ≤ (writeChar c).length := by
    rw [writeChar]
    repeat' split
    all_goals simp
  induction text with
  | nil => exact Nat.le_refl _
  | cons c text ih =>
      rw [List.flatMap_cons, List.length_append, List.length_cons]
      have := filled c
      omega

theorem toList_writeText (text : String) :
    (writeText text).toList = '"' :: (text.toList.flatMap writeChar ++ ['"']) := by
  simp [writeText]

/-- A text between quotes is read with the quotes around it. -/
theorem readString?_whole (text : List Char) :
    readString? [] ((text.flatMap writeChar ++ '"' :: rest).length + 1)
      (text.flatMap writeChar ++ '"' :: rest) = some (String.ofList text, rest) := by
  have length := length_le_flatMap_writeChar text
  rw [readString?_flatMap text]
  · rfl
  · rw [List.length_append]
    omega

theorem readAtom_text (text : List Char) :
    readAtom ('"' :: (text.flatMap writeChar ++ '"' :: rest)) =
      .ok (.str (String.ofList text), rest) := by
  rw [readAtom]
  simp only [readString?_whole]
  rfl

/-- The last entry of a record is read as it was written. -/
theorem readEntries_last (key text : List Char) : readEntries (fuel + 2) []
    ('"' :: (key.flatMap writeChar ++ '"' :: ':' :: '"' ::
      (text.flatMap writeChar ++ '"' :: '\x7d' :: rest))) =
      .ok (Call.single (String.ofList key) (.str (String.ofList text)), rest) := by
  have value : readValue (fuel + 1) ('"' :: (text.flatMap writeChar ++ '"' :: '\x7d' :: rest)) =
      .ok (.str (String.ofList text), '\x7d' :: rest) :=
    readAtom_text text
  rw [readEntries.eq_def]
  simp only [readString?_whole]
  have colon (rest : List Char) : skipSpace (':' :: rest) = ':' :: rest := rfl
  have quote (rest : List Char) : skipSpace ('"' :: rest) = '"' :: rest := rfl
  have close : skipSpace ('\x7d' :: rest) = '\x7d' :: rest := rfl
  simp only [colon, quote, value, close]
  rfl

/-- A record of one text is read as it was written. -/
theorem ofText_write (key text : String) :
    ofText (write (Call.single key (.str text))) = .ok (Call.single key (.str text)) := by
  have written : (write (Call.single key (.str text))).toList =
      '\x7b' :: '"' :: (key.toList.flatMap writeChar ++ '"' :: ':' :: '"' ::
        (text.toList.flatMap writeChar ++ ['"', '\x7d'])) := by
    simp [Call.single, write, writeEntries, toList_writeText, Value.display]
  have record (fuel : Nat) (rest : List Char) :
      readValue (fuel + 1) ('\x7b' :: '"' :: rest) = readEntries fuel [] ('"' :: rest) := rfl
  have brace (rest : List Char) : skipSpace ('\x7b' :: rest) = '\x7b' :: rest := rfl
  have enough (length : Nat) : 2 * (length + 1) + 2 = 2 * length + 1 + 2 + 1 := by omega
  rw [ofText, written]
  simp only [ofDocument, List.length_cons, enough, brace, record, readEntries_last,
    String.ofList_toList]
  rfl

end Json

open Text

namespace Client

/-! ## Files -/

/-- A reply whose content is the scattered base64 of a text describes this text. -/
theorem fileText_eq {octets : List UInt8} {content text : String}
    (held : (Json.ofOctets octets).bind (Value.entry "content") = .ok (.str content))
    (spread : Scattered (encodeBase64 (encodeUtf8 text.toList)) content.toList) :
    fileText octets = .ok text := by
  have decoded : decodeBase64? content.toList = some (encodeUtf8 text.toList) := by
    rw [← decodeBase64?_encodeBase64, decodeBase64?, decodeBase64?,
      Base64Group.decode_scattered spread]
  have ascii : (content.toList.any fun c => c.toNat > 127) = false := by
    rw [List.any_eq_false]
    intro c member
    have small := spread.ascii (ascii_encodeBase64 _) c member
    simp only [gt_iff_lt, decide_eq_true_eq]
    omega
  cases read : Json.ofOctets octets with
  | error fault =>
      rw [read] at held
      cases held
  | ok record =>
      rw [read] at held
      have entry : record.entry "content" = .ok (.str content) := held
      simp only [fileText, read, entry, bind, Except.bind]
      by_cases empty : content = ""
      · -- Nothing is encoded in an empty content, so the text is empty.
        subst empty
        have nothing : decodeUtf8? [] = some text.toList := by
          rw [← decodeUtf8?_encodeUtf8, ← Option.some.inj decoded]
        have same : text = "" := String.toList_inj.mp (Option.some.inj nothing).symm
        rw [same]
        rfl
      · simp [Value.truthy, empty, ascii, decoded, decodeUtf8?_encodeUtf8, pure, Except.pure]

/-- A content can be sent in a reply whatever its text is. -/
theorem held_write (content : String) :
    (Json.ofOctets (encodeUtf8 (Json.write (Call.single "content" (.str content))).toList)).bind
      (Value.entry "content") = .ok (.str content) := by
  rw [Json.ofOctets_encodeUtf8 (Json.ofText_write "content" content)]
  rfl

/-- A file is read as the text whose octets the content of the reply holds in base64, however
many characters are scattered over it that mean nothing, and the configuration in the file is
that of this text. Every content can be held by a reply. -/
theorem fetchFile_scattered (client : Client) (server : Server) (earlier : List Request)
    (path text content : String) (request : Request) (octets : List UInt8)
    (spread : Scattered (encodeBase64 (encodeUtf8 text.toList)) content.toList)
    (made : client.request (.fetchFile path) = .ok request)
    (answered : server earlier request = .response 200 octets)
    (held : (Json.ofOctets octets).bind (Value.entry "content") = .ok (.str content)) :
    (client.fetchFile path).run server earlier =
        (.ok (some text), [.sent request (.response 200 octets)]) ∧
      (path ≠ "" → (Event.readConfig client (some path)).run server earlier =
        (Config.ofText text, [.sent request (.response 200 octets)])) ∧
      ∃ octets, (Json.ofOctets octets).bind (Value.entry "content") = .ok (.str content) := by
  have file : fileOf path (.response 200 octets) = .ok (some text) := by
    have success : isRefusal 200 = false := rfl
    simp [fileOf, accepted, success, Except.bind, fileText_eq held spread, Except.map]
  have fetched : (client.fetchFile path).run server earlier =
      (.ok (some text), [.sent request (.response 200 octets)]) := by
    simp only [run_fetchFile, made, answered, file]
  refine ⟨fetched, ?_, _, held_write content⟩
  intro filled
  have named : (some path).filter (· != "") = some path := by simp [filled]
  simp [Event.readConfig, named, fetched]

/-- The base64 of a byte order mark and a letter, with line breaks and a hyphen in it, also inside
and behind its padding. -/
def scatteredMark : String := "77u/\nY-Q\n=\n=\n"

theorem scattered_scatteredMark :
    Scattered (encodeBase64 (encodeUtf8 "\uFEFFa".toList)) scatteredMark.toList := by
  have encoded : encodeBase64 (encodeUtf8 "\uFEFFa".toList) = "77u/YQ==".toList := by decide
  rw [encoded]
  exact .keep _ <| .keep _ <| .keep _ <| .keep _ <| .insert (by decide) <| .keep _ <|
    .insert (by decide) <| .keep _ <| .insert (by decide) <| .keep _ <|
    .insert (by decide) <| .keep _ <| .insert (by decide) .nil

/-- The reply that holds this content. -/
def markReply : Reply :=
  .response 200
    (encodeUtf8 (Json.write (Call.single "content" (.str scatteredMark))).toList)

theorem fetchFile_scattered_mark :
    Scattered (encodeBase64 (encodeUtf8 "\uFEFFa".toList)) scatteredMark.toList ∧
      ∃ request, sampleClient.request (.fetchFile "a.yml") = .ok request ∧
        request.path = "/repos/octo/garden/contents/a.yml" ∧
        (sampleClient.fetchFile "a.yml").run (fun _ _ => markReply) [] =
          (.ok (some "\uFEFFa"), [.sent request markReply]) ∧
        (Event.readConfig sampleClient (some "a.yml")).run (fun _ _ => markReply) [] =
          (Config.ofText "\uFEFFa", [.sent request markReply]) := by
  obtain ⟨request, made, path⟩ : ∃ request,
      sampleClient.request (.fetchFile "a.yml") = .ok request ∧
        request.path = "/repos/octo/garden/contents/a.yml" := ⟨_, rfl, by decide⟩
  obtain ⟨fetched, configured, -⟩ :=
    sampleClient.fetchFile_scattered (fun _ _ => markReply) [] "a.yml" "\uFEFFa" scatteredMark
      request _ scattered_scatteredMark made rfl (held_write scatteredMark)
  exact ⟨scattered_scatteredMark, request, made, path, fetched, configured (by decide)⟩

end Client

end SlashBot

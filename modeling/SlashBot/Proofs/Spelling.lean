import SlashBot.LockReason
import SlashBot.Proofs.Path
import SlashBot.Proofs.Token

/-!
# Spellings of lock reasons

A lock reason is compared in lower case, by a table of all capitals of Unicode. For the five
spellings that are known the capitals of ASCII would be enough: every other capital becomes a
small letter that none of them has. So a configured value names a reason just if it is one of the
spellings apart from blanks around it and the case of its ASCII letters.
-/

namespace SlashBot

open Text

namespace Text

variable {c d : Char} {text : List Char}

theorem lowerChar_of_ascii (ascii : c.toNat < 128) : lowerChar c = [c.toLower] := by
  have all : ∀ code < 128, lowerChar (Char.ofNat code) = [(Char.ofNat code).toLower] := by decide
  simpa using all c.toNat ascii

theorem toLower_of_not_ascii (foreign : 128 ≤ c.toNat) : c.toLower = c := by
  apply dif_neg
  rintro ⟨-, small⟩
  have bound : c.toNat ≤ 90 := small
  omega

theorem lower_of_ascii (ascii : ∀ c ∈ text, c.toNat < 128) : lower text = text.map Char.toLower := by
  induction text with
  | nil => rfl
  | cons c text ih =>
      have others : ∀ d ∈ text, d.toNat < 128 := fun d member =>
        ascii d (List.mem_cons_of_mem c member)
      rw [lower, List.flatMap_cons, lowerChar_of_ascii (ascii c List.mem_cons_self), ← lower,
        ih others]
      rfl

/-- Beyond ASCII, a capital has a small letter beyond ASCII, too, but for the sign of the unit
kelvin. -/
theorem capitalRuns_foreign :
    ∀ run ∈ capitalRuns, run.2.1 < 128 ∨ 128 ≤ (run.1 : Int) + run.2.2.2 ∨
      run.1 = run.2.1 ∧ (run.1 : Int) + run.2.2.2 = 107 := by
  decide +kernel

theorem toNat_ofNat (code : Nat) : (Char.ofNat code).toNat = code ∨ (Char.ofNat code).toNat = 0 := by
  by_cases valid : code.isValidChar
  · have kept : Char.ofNat code = Char.ofNatAux code valid := dif_pos valid
    exact .inl (congrArg Char.toNat kept)
  · have lost : Char.ofNat code = Char.ofNat 0 := dif_neg valid
    exact .inr (congrArg Char.toNat lost)

theorem exists_mem_lowerChar (foreign : 128 ≤ c.toNat) :
    ∃ d ∈ lowerChar c, d.toNat = 0 ∨ d.toNat = 107 ∨ 128 ≤ d.toNat := by
  rw [lowerChar]
  dsimp only
  rw [if_neg (Nat.not_lt.mpr foreign)]
  split
  · exact ⟨Char.ofNat 0x307, by simp, by decide⟩
  · split
    · rename_i first last step shift found
      have listed := capitalRuns_foreign _ (List.mem_of_find?_eq_some found)
      have fits := List.find?_some found
      simp only [Bool.and_eq_true, decide_eq_true_eq] at fits
      refine ⟨_, List.mem_singleton_self _, ?_⟩
      rcases toNat_ofNat (c.toNat + shift).toNat with kept | lost
      · rw [kept]
        simp only at listed
        omega
      · exact .inl lost
    · exact ⟨c, List.mem_singleton_self c, .inr (.inr foreign)⟩

end Text

namespace LockReason

variable {text : List Char} {spelling : String} {value : Value} {reason : LockReason}

/-- The spellings that name a reason. -/
def spellings : List String := ["off-topic", "too-heated", "too heated", "resolved", "spam"]

theorem ofSpelling?_eq_none_iff : ofSpelling? spelling = none ↔ spelling ∉ spellings := by
  rw [ofSpelling?.eq_def]
  split <;> simp_all [spellings]

theorem of_mem_spellings {c : Char} (known : spelling ∈ spellings) (member : c ∈ spelling.toList) :
    c.toNat ≠ 0 ∧ c.toNat ≠ 107 ∧ c.toNat < 128 := by
  have usual : (spellings.all fun spelling => spelling.toList.all fun c =>
      c.toNat != 0 && c.toNat != 107 && c.toNat < 128) = true := by
    decide
  simpa [and_assoc] using List.all_eq_true.mp (List.all_eq_true.mp usual spelling known) c member

/-- For the spellings, the capitals of ASCII are enough. -/
theorem lower_mem_spellings_iff :
    String.ofList (lower text) ∈ spellings ↔ String.ofList (text.map Char.toLower) ∈ spellings := by
  by_cases ascii : ∀ c ∈ text, c.toNat < 128
  · rw [lower_of_ascii ascii]
  · obtain ⟨c, outside⟩ := Classical.not_forall.mp ascii
    obtain ⟨member, foreign⟩ := Classical.not_imp.mp outside
    rw [Nat.not_lt] at foreign
    obtain ⟨d, small, odd⟩ := exists_mem_lowerChar foreign
    have lowered : d ∈ (String.ofList (lower text)).toList := by
      rw [String.toList_ofList]
      exact List.mem_flatMap.mpr ⟨c, member, small⟩
    have kept : c ∈ (String.ofList (text.map Char.toLower)).toList := by
      rw [String.toList_ofList]
      exact List.mem_map.mpr ⟨c, member, toLower_of_not_ascii foreign⟩
    constructor
    · intro known
      have usual := of_mem_spellings known lowered
      omega
    · intro known
      have usual := of_mem_spellings known kept
      omega

/-- A value that names a reason: its text is one of the spellings apart from blanks around it and
the case of its ASCII letters. -/
def IsNamedBy (value : Value) : Prop :=
  String.ofList ((trim value.display.toList).map Char.toLower) ∈ spellings

/-- The text of a value as it is looked up. -/
def lookedUp (value : Value) : String :=
  String.ofList (lower (trim value.display.toList))

theorem ofSpelling?_lookedUp_eq_none_iff :
    ofSpelling? (lookedUp value) = none ↔ ¬ IsNamedBy value := by
  rw [ofSpelling?_eq_none_iff, lookedUp, lower_mem_spellings_iff, IsNamedBy]

section Present

variable (present : value.isNull = false)

include present

theorem ofValue_of_not_writable (unwritable : value.isWritable = false) :
    ofValue value = .error .badValue := by
  rw [ofValue, Value.shown, unwritable, present]
  rfl

variable (writable : value.isWritable = true)

include writable

/-- A value that can be written down is the reason under whose spellings its text is found. -/
theorem ofValue_of_found (found : ofSpelling? (lookedUp value) = some reason) :
    ofValue value = .ok (some reason) := by
  rw [lookedUp] at found
  simp only [ofValue, Value.shown, writable, present, found, if_true, Bool.false_eq_true, if_false,
    bind, Except.bind]

theorem ofValue_of_not_named (other : ¬ IsNamedBy value) :
    ofValue value = .error (.invalidLockReason value) := by
  have missing := ofSpelling?_lookedUp_eq_none_iff.mpr other
  rw [lookedUp] at missing
  simp only [ofValue, Value.shown, writable, present, missing, if_true, Bool.false_eq_true,
    if_false, bind, Except.bind]

theorem exists_ofValue_of_named (named : IsNamedBy value) :
    ∃ reason, ofValue value = .ok (some reason) := by
  cases found : ofSpelling? (lookedUp value) with
  | some reason => exact ⟨reason, ofValue_of_found present writable found⟩
  | none => exact absurd named (ofSpelling?_lookedUp_eq_none_iff.mp found)

end Present

/-- A lock reason can be left out, and otherwise it must be one. -/
theorem exists_ofValue_iff :
    (∃ reason?, ofValue value = .ok reason?) ↔
      (value.isNull = true ∨ IsNamedBy value) ∧ value.isWritable = true := by
  cases null : value.isNull with
  | true =>
      cases value with
      | null => simp [ofValue, Value.isNull, Value.isWritable]
      | _ => cases null
  | false =>
      cases writable : value.isWritable with
      | false => simp [ofValue_of_not_writable null writable]
      | true =>
          by_cases named : IsNamedBy value
          · obtain ⟨reason, made⟩ := exists_ofValue_of_named null writable named
            simp [made, named]
          · simp [ofValue_of_not_named null writable named, named]

/-- A reason is named by the text with which the service knows it. -/
theorem ofValue_text (reason : LockReason) : ofValue (.str reason.text) = .ok (some reason) := by
  apply ofValue_of_found rfl (by rw [Value.isWritable])
  rw [lookedUp, Value.display]
  cases reason <;> decide

theorem exists_letter_of_mem_spellings (known : spelling ∈ spellings) :
    ∃ c ∈ spelling.toList, c.isDigit = false ∧ c ≠ '-' := by
  have lettered : (spellings.all fun spelling => spelling.toList.any fun c =>
      !c.isDigit && c != '-') = true := by
    decide
  simpa using List.any_eq_true.mp (List.all_eq_true.mp lettered spelling known)

theorem toLower_of_isDigit {c : Char} (digit : c.isDigit = true) : c.toLower = c := by
  apply dif_neg
  rintro ⟨large, -⟩
  rw [Char.isDigit, Bool.and_eq_true, decide_eq_true_eq, decide_eq_true_eq] at digit
  exact absurd (UInt32.le_trans large digit.2) (by decide)

/-- No number names a reason. -/
theorem not_isNamedBy_int (number : Int) : ¬ IsNamedBy (.int number) := by
  intro named
  obtain ⟨c, member, notDigit, notSign⟩ := exists_letter_of_mem_spellings named
  rw [String.toList_ofList] at member
  obtain ⟨d, shown, rfl⟩ := List.mem_map.mp member
  rcases Url.of_mem_toString (mem_of_mem_trim shown) with digit | rfl
  · rw [toLower_of_isDigit digit, digit] at notDigit
    cases notDigit
  · exact notSign rfl

end LockReason

end SlashBot

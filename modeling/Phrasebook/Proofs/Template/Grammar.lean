import Mathlib.Data.List.TakeWhile
import Phrasebook.Template.Segment

/-!
# The grammar of placeholders and formatting codes

This module writes the grammar of a template's marks down without reading anything: a placeholder, a
formatting code and a literal text are *well formed* when their parts are as the grammar wants
them, and a mark *begins* a text when the text is its characters and something more.

The readers are then held to the grammar, in both directions at once:

* `Code.read?_eq_some_iff`, `Slot.read?_eq_some_iff` and `Segment.read?_eq_some_iff`: a reader
  answers a mark and a rest exactly when the mark is well formed and the two make up the text;
* `Segment.read?_eq_none_iff`: it answers nothing exactly when no mark begins the text.

Together they say that at most one mark begins a text.
-/

namespace Phrasebook.Template

/-! ## Classes of characters -/

/-- The letters of decorations, in both cases. -/
def decorationLetters : List Char := "klmnoKLMNO".toList

/-- The hexadecimal digits, in both cases. -/
def hexDigits : List Char := "0123456789abcdefABCDEF".toList

/-- A class of ASCII characters is a list if both agree on all of these.  A character is its number,
so 128 numbers are left to be looked at. -/
theorem accepted_iff_mem {accepts : Char → Bool} {listed : List Char}
    (small : ∀ c, accepts c = true → c.toNat < 128)
    (complete : ∀ n < 128, accepts (Char.ofNat n) = true → Char.ofNat n ∈ listed)
    (sound : listed.all accepts = true) {c : Char} : accepts c = true ↔ c ∈ listed := by
  constructor
  · intro accepted
    have same : Char.ofNat c.toNat = c := Char.ofNat_toNat c
    have mem := complete c.toNat (small c accepted) (by rwa [same])
    rwa [same] at mem
  · exact List.all_eq_true.1 sound c

theorem isDecorationLetter_iff {c : Char} :
    isDecorationLetter c = true ↔ c ∈ decorationLetters := by
  refine accepted_iff_mem (fun c accepted => ?_) (by decide) (by decide)
  have bounds : 107 ≤ c.toNat ∧ c.toNat ≤ 111 ∨ 75 ≤ c.toNat ∧ c.toNat ≤ 79 := by
    simpa [isDecorationLetter, Char.le_def, UInt32.le_iff_toNat_le] using accepted
  omega

theorem isHexDigit_iff {c : Char} : isHexDigit c = true ↔ c ∈ hexDigits := by
  refine accepted_iff_mem (fun c accepted => ?_) (by decide) (by decide)
  have bounds : (48 ≤ c.toNat ∧ c.toNat ≤ 57 ∨ 97 ≤ c.toNat ∧ c.toNat ≤ 102) ∨
      65 ≤ c.toNat ∧ c.toNat ≤ 70 := by
    simpa [isHexDigit, Char.le_def, UInt32.le_iff_toNat_le] using accepted
  omega

/-! ## Formatting codes -/

namespace Code

/-- A formatting code as the grammar wants it, without its introducer: a decoration letter, `r`, a
hexadecimal digit, or `#` and six hexadecimal digits. -/
def WellFormed : Code → Prop
  | decoration letter => letter ∈ decorationLetters
  | reset letter => letter = 'r' ∨ letter = 'R'
  | color digit => digit ∈ hexDigits
  | hex digits => digits.length = 6 ∧ ∀ digit ∈ digits, digit ∈ hexDigits

/-- A code that is read is well formed. -/
theorem wellFormed_of_read? {text after : List Char} {code : Code}
    (h : read? text = some (code, after)) : code.WellFormed := by
  cases text with
  | nil => cases h
  | cons c rest =>
    simp only [read?] at h
    split at h
    · rename_i letter
      cases h
      exact isDecorationLetter_iff.1 letter
    · split at h
      · rename_i letter
        cases h
        simpa [WellFormed, isResetLetter] using letter
      · split at h
        · rename_i digit
          cases h
          exact isHexDigit_iff.1 digit
        · split at h
          · rename_i hash
            cases h
            refine ⟨hash.2.1, fun digit mem => isHexDigit_iff.1 ?_⟩
            exact List.all_eq_true.1 hash.2.2 digit mem
          · cases h

/-- The classes of characters that begin a code do not meet, so a code is read back. -/
theorem read?_source_append {code : Code} (wellFormed : code.WellFormed) (after : List Char) :
    read? (code.source ++ after) = some (code, after) := by
  cases code with
  | decoration letter =>
    rw [source, List.singleton_append, read?, if_pos (isDecorationLetter_iff.2 wellFormed)]
  | reset letter =>
    rcases wellFormed with rfl | rfl <;> rfl
  | color digit =>
    have neither : hexDigits.all (fun c => !isDecorationLetter c && !isResetLetter c) = true := by
      decide
    obtain ⟨notDecoration, notReset⟩ :
        isDecorationLetter digit = false ∧ isResetLetter digit = false := by
      simpa using List.all_eq_true.1 neither digit wellFormed
    rw [source, List.singleton_append, read?, if_neg (by simp [notDecoration]),
      if_neg (by simp [notReset]), if_pos (isHexDigit_iff.2 wellFormed)]
  | hex digits =>
    obtain ⟨length, hex⟩ := wellFormed
    have front : (digits ++ after).take hexLength = digits := List.take_left' length
    have back : (digits ++ after).drop hexLength = after := List.drop_left' length
    have taken : '#' = '#' ∧ ((digits ++ after).take hexLength).length = hexLength ∧
        ((digits ++ after).take hexLength).all isHexDigit = true := by
      rw [front]
      refine ⟨rfl, length, List.all_eq_true.2 fun digit mem => ?_⟩
      exact isHexDigit_iff.2 (hex digit mem)
    rw [source, List.cons_append, read?, if_neg (by decide), if_neg (by decide),
      if_neg (by decide), if_pos taken, front, back]

/-- **Codes are read as the grammar says.** -/
theorem read?_eq_some_iff {text after : List Char} {code : Code} :
    read? text = some (code, after) ↔ code.WellFormed ∧ code.source ++ after = text := by
  constructor
  · intro h
    exact ⟨wellFormed_of_read? h, source_append_of_read? h⟩
  · rintro ⟨wellFormed, rfl⟩
    exact read?_source_append wellFormed after

end Code

/-! ## Placeholders -/

namespace Slot

/-- A placeholder as the grammar wants it: a key that is not empty and holds neither `}` nor `:`,
and after a colon, if there is one, anything without `}`. -/
structure WellFormed (slot : Slot) : Prop where
  key_ne_nil : slot.key ≠ []
  key_plain : ∀ c ∈ slot.key, c ≠ '}' ∧ c ≠ ':'
  suffix_plain : ∀ suffix, slot.suffix = some suffix → ∀ c ∈ suffix, c ≠ '}'

theorem isKeyChar_iff {c : Char} : isKeyChar c = true ↔ c ≠ '}' ∧ c ≠ ':' := by
  simp [isKeyChar]

theorem isParameterChar_iff {c : Char} : isParameterChar c = true ↔ c ≠ '}' := by
  simp [isParameterChar]

/-- What follows a key is read as nothing or as a text without `}`. -/
theorem suffix_plain_of_readSuffix? {text after suffix : List Char}
    (h : readSuffix? text = some (some suffix, after)) : ∀ c ∈ suffix, c ≠ '}' := by
  cases text with
  | nil => cases h
  | cons c rest =>
    rw [readSuffix?] at h
    split at h
    · split at h
      · cases h
      · cases h
        exact fun c mem => isParameterChar_iff.1 (List.mem_takeWhile_imp mem)
    · cases h

/-- A placeholder that is read is well formed. -/
theorem wellFormed_of_read? {text after : List Char} {slot : Slot}
    (h : read? text = some (slot, after)) : slot.WellFormed := by
  cases text with
  | nil => cases h
  | cons c rest =>
    rw [read?] at h
    split at h
    · rename_i opening
      obtain ⟨⟨suffix, last⟩, suffixRead, eq⟩ := Option.map_eq_some_iff.1 h
      obtain ⟨rfl, rfl⟩ : (⟨rest.takeWhile isKeyChar, suffix⟩ : Slot) = slot ∧ last = after := by
        simpa using eq
      refine ⟨opening.2, fun c mem => isKeyChar_iff.1 (List.mem_takeWhile_imp mem), ?_⟩
      intro suffix isSuffix
      exact suffix_plain_of_readSuffix? (suffixRead.trans (by rw [← isSuffix]))
    · cases h

/-- A run of a class of characters ends at the first character outside of it. -/
theorem takeWhile_append_cons {p : Char → Bool} {run : List Char} {stop : Char}
    (inside : ∀ c ∈ run, p c = true) (outside : p stop = false) (rest : List Char) :
    (run ++ stop :: rest).takeWhile p = run ∧
      (run ++ stop :: rest).dropWhile p = stop :: rest := by
  rw [List.takeWhile_append_of_pos inside, List.dropWhile_append_of_pos inside,
    List.takeWhile_cons_of_neg (by simp [outside]), List.dropWhile_cons_of_neg (by simp [outside]),
    List.append_nil]
  exact ⟨rfl, rfl⟩

/-- A well formed placeholder is read back. -/
theorem read?_source_append {slot : Slot} (wellFormed : slot.WellFormed) (after : List Char) :
    read? (slot.source ++ after) = some (slot, after) := by
  obtain ⟨key, suffix⟩ := slot
  have keyRun : ∀ c ∈ key, isKeyChar c = true := fun c mem =>
    isKeyChar_iff.2 (wellFormed.key_plain c mem)
  cases suffix with
  | none =>
    have text : source ⟨key, none⟩ ++ after = '{' :: (key ++ '}' :: after) := by
      simp [source]
    obtain ⟨taken, dropped⟩ := takeWhile_append_cons keyRun
      (show isKeyChar '}' = false by decide) after
    rw [text, read?, taken, dropped, if_pos ⟨rfl, wellFormed.key_ne_nil⟩]
    rfl
  | some suffix =>
    have text : source ⟨key, some suffix⟩ ++ after =
        '{' :: (key ++ ':' :: (suffix ++ '}' :: after)) := by
      simp [source]
    obtain ⟨taken, dropped⟩ := takeWhile_append_cons keyRun
      (show isKeyChar ':' = false by decide) (suffix ++ '}' :: after)
    have suffixRun : ∀ c ∈ suffix, isParameterChar c = true := fun c mem =>
      isParameterChar_iff.2 (wellFormed.suffix_plain suffix rfl c mem)
    obtain ⟨suffixTaken, suffixDropped⟩ := takeWhile_append_cons suffixRun
      (show isParameterChar '}' = false by decide) after
    rw [text, read?, taken, dropped, if_pos ⟨rfl, wellFormed.key_ne_nil⟩, readSuffix?,
      if_pos rfl, suffixDropped, suffixTaken]
    rfl

/-- **Placeholders are read as the grammar says.** -/
theorem read?_eq_some_iff {text after : List Char} {slot : Slot} :
    read? text = some (slot, after) ↔ slot.WellFormed ∧ slot.source ++ after = text := by
  constructor
  · intro h
    exact ⟨wellFormed_of_read? h, source_append_of_read? h⟩
  · rintro ⟨wellFormed, rfl⟩
    exact read?_source_append wellFormed after

end Slot

/-! ## Segments -/

namespace Segment

/-- A segment as the grammar wants it: a literal text is not empty, a placeholder is well formed,
and a formatting code is one of the two introducers and a well formed code. -/
def WellFormed : Segment → Prop
  | literal text => text ≠ []
  | placeholder slot => slot.WellFormed
  | style introducer code => (introducer = '&' ∨ introducer = '§') ∧ code.WellFormed

/-- Whether a segment is literal text. -/
def IsLiteral : Segment → Prop
  | literal _ => True
  | _ => False

/-- A placeholder or a formatting code **begins** a text: the text is its characters and a rest. -/
def Begins (segment : Segment) (text : List Char) : Prop :=
  segment.WellFormed ∧ ¬ segment.IsLiteral ∧ segment.source <+: text

/-- What is read is a placeholder, or a formatting code after an introducer. -/
theorem read?_cases {text after : List Char} {segment : Segment}
    (h : read? text = some (segment, after)) :
    (∃ slot, segment = placeholder slot ∧ Slot.read? text = some (slot, after)) ∨
      ∃ introducer code rest, segment = style introducer code ∧ text = introducer :: rest ∧
        isIntroducer introducer = true ∧ Code.read? rest = some (code, after) := by
  simp only [read?] at h
  split at h
  · rename_i slotRead
    cases h
    exact Or.inl ⟨_, rfl, slotRead⟩
  · cases text with
    | nil => cases h
    | cons c rest =>
      simp only at h
      split at h
      · rename_i introducer
        obtain ⟨⟨code, _⟩, codeRead, eq⟩ := Option.map_eq_some_iff.1 h
        cases eq
        exact Or.inr ⟨c, code, rest, rfl, rfl, introducer, codeRead⟩
      · cases h

/-- A well formed mark is read back.  Placeholders and formatting codes begin with different
characters, so the order in which they are tried does not matter. -/
theorem read?_source_append {segment : Segment} (wellFormed : segment.WellFormed)
    (notLiteral : ¬ segment.IsLiteral) (after : List Char) :
    read? (segment.source ++ after) = some (segment, after) := by
  cases segment with
  | literal text => exact absurd trivial notLiteral
  | placeholder slot =>
    have slotRead := Slot.read?_source_append wellFormed after
    simp only [read?, source, slotRead]
  | style introducer code =>
    obtain ⟨introducer, wellFormed⟩ := wellFormed
    -- Neither introducer is a brace, so no placeholder is read in its place.
    have codeRead := Code.read?_source_append wellFormed after
    rcases introducer with rfl | rfl <;>
      simp [read?, source, Slot.read?, isIntroducer, codeRead]

/-- **Marks are read as the grammar says.** -/
theorem read?_eq_some_iff {text after : List Char} {segment : Segment} :
    read? text = some (segment, after) ↔
      segment.WellFormed ∧ ¬ segment.IsLiteral ∧ segment.source ++ after = text := by
  constructor
  · intro h
    refine ⟨?_, ?_, source_append_of_read? h⟩
    · rcases read?_cases h with
        ⟨slot, rfl, slotRead⟩ | ⟨c, code, rest, rfl, -, introducer, codeRead⟩
      · exact (Slot.read?_eq_some_iff.1 slotRead).1
      · exact ⟨by simpa [isIntroducer] using introducer, (Code.read?_eq_some_iff.1 codeRead).1⟩
    · rcases read?_cases h with ⟨slot, rfl, -⟩ | ⟨c, code, rest, rfl, -⟩ <;> exact not_false
  · rintro ⟨wellFormed, notLiteral, rfl⟩
    exact read?_source_append wellFormed notLiteral after

/-- Nothing is read exactly where no mark begins. -/
theorem read?_eq_none_iff {text : List Char} :
    read? text = none ↔ ∀ segment : Segment, ¬ segment.Begins text := by
  constructor
  · rintro notRead segment ⟨wellFormed, notLiteral, after, rfl⟩
    rw [read?_eq_some_iff.2 ⟨wellFormed, notLiteral, rfl⟩] at notRead
    cases notRead
  · intro none
    cases found : read? text with
    | none => rfl
    | some pair =>
      obtain ⟨segment, after⟩ := pair
      obtain ⟨wellFormed, notLiteral, text⟩ := read?_eq_some_iff.1 found
      exact absurd ⟨wellFormed, notLiteral, after, text⟩ (none segment)

end Segment

end Phrasebook.Template

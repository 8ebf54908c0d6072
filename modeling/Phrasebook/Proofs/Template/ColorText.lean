import Phrasebook.Proofs.Template.Styling

/-!
# Colors by number, written and read

A color by number is seen in three ways: its value, which is its low 24 bits; its text, `#` and
hexadecimal digits; and the formatting code that its text is after an introducer.  The value drops
the higher bits of the number, the code has exactly six digits, and the text has as many digits as
the number needs, though no fewer than six.

So all depends on whether the number fits into 24 bits.  If it does, its text has the six digits of
its value and is read back as that color (`hasSixDigits_iff`, `LeavesDigits.readsBack_iff`).  If it
does not, the text has seven or eight digits.  The first six make a color that is another one, and
the others are left over as literal text (`leavesDigits`).

## Main statement

`rgb_agrees_iff`: value, text and code of a color agree exactly for numbers below 2^24.
-/

namespace Phrasebook.Template

/-! ## Digits of a number -/

/-- The hexadecimal digits, in lower case. -/
def lowerHexDigits : List Char := "0123456789abcdef".toList

theorem mem_hexDigits_of_mem_lower {digit : Char} (mem : digit ∈ lowerHexDigits) :
    digit ∈ hexDigits :=
  List.mem_of_mem_take (i := 16) mem

theorem digitChar_mem : ∀ place < 16, Nat.digitChar place ∈ lowerHexDigits := by decide

theorem hexPlace_digitChar : ∀ place < 16, hexPlace (Nat.digitChar place) = place := by decide

theorem mem_lower_of_mem_toDigits (number : Nat) :
    ∀ digit ∈ Nat.toDigits 16 number, digit ∈ lowerHexDigits := by
  induction number using Nat.strongRecOn with
  | ind number ih =>
    intro digit mem
    rw [Nat.toDigits_eq_if (by decide)] at mem
    split at mem
    · rename_i small
      obtain rfl := List.mem_singleton.1 mem
      exact digitChar_mem number small
    · rename_i large
      rcases List.mem_append.1 mem with mem | mem
      · exact ih (number / 16) (by omega) digit mem
      · obtain rfl := List.mem_singleton.1 mem
        exact digitChar_mem _ (Nat.mod_lt _ (by decide))

/-- The digits of a number write that number. -/
theorem hexNumber_toDigits (number : Nat) : hexNumber (Nat.toDigits 16 number) = number := by
  induction number using Nat.strongRecOn with
  | ind number ih =>
    rw [Nat.toDigits_eq_if (by decide)]
    split
    · rename_i small
      have single := hexNumber_concat [] (Nat.digitChar number)
      rw [List.nil_append] at single
      rw [single, hexPlace_digitChar number small]
      simp [hexNumber]
    · rw [hexNumber_concat, ih (number / 16) (by omega),
        hexPlace_digitChar _ (Nat.mod_lt _ (by decide))]
      exact Nat.div_add_mod number 16

/-- Zeros in front change nothing. -/
theorem hexNumber_replicate_append (count : Nat) (digits : List Char) :
    hexNumber (List.replicate count '0' ++ digits) = hexNumber digits := by
  induction digits using List.reverseRecOn with
  | nil =>
    induction count with
    | zero => rfl
    | succ count ih =>
      rw [List.append_nil] at ih ⊢
      rw [List.replicate_succ', hexNumber_concat, ih]
      rfl
  | append_singleton digits digit ih =>
    rw [← List.append_assoc, hexNumber_concat, ih, hexNumber_concat]

theorem mem_lower_of_mem_hexDigits {width number : Nat} {digit : Char}
    (mem : digit ∈ TextColor.hexDigits width number) : digit ∈ lowerHexDigits := by
  rcases List.mem_append.1 mem with mem | mem
  · rw [List.eq_of_mem_replicate mem]
    decide
  · exact mem_lower_of_mem_toDigits number digit mem

theorem hexNumber_hexDigits (width number : Nat) :
    hexNumber (TextColor.hexDigits width number) = number := by
  rw [TextColor.hexDigits, hexNumber_replicate_append, hexNumber_toDigits]

theorem le_length_hexDigits (width number : Nat) :
    width ≤ (TextColor.hexDigits width number).length := by
  rw [TextColor.hexDigits, List.length_append, List.length_replicate]
  omega

/-- A number is written with the given width exactly if it fits, and with more digits if not. -/
theorem length_hexDigits_eq_iff {width number : Nat} (positive : 0 < width) :
    (TextColor.hexDigits width number).length = width ↔ number < 16 ^ width := by
  rw [← Nat.length_toDigits_le_iff (b := 16) (by decide) positive, TextColor.hexDigits,
    List.length_append, List.length_replicate]
  omega

/-- Six digits are enough exactly for numbers that fit into 24 bits. -/
theorem length_sixDigits_iff (number : Nat) :
    (TextColor.hexDigits 6 number).length = 6 ↔ number < 0x1000000 :=
  length_hexDigits_eq_iff (by decide)

/-! ## Reading a color -/

/-- Text without braces and introducers is one literal. -/
theorem segments_unmarked {text : List Char} (nonempty : text ≠ [])
    (unmarked : ∀ c ∈ text, c ≠ '{' ∧ isIntroducer c = false) :
    segments text = [.literal text] := by
  have quiet : ∀ i < text.length, Segment.read? ((text ++ []).drop i) = none := by
    intro i inside
    obtain ⟨notBrace, notIntroducer⟩ := unmarked _ (List.getElem_mem inside)
    rw [List.append_nil, List.drop_eq_getElem_cons inside]
    simp [Segment.read?, Slot.read?, notBrace, notIntroducer]
  have cut := segments_literal_append nonempty quiet (by simp [segments_nil])
  rwa [List.append_nil, segments_nil] at cut

/-- Six digits after `&#` set the color of the text that follows. -/
theorem compile_hex {six following : List Char} (length : six.length = 6)
    (digits : ∀ digit ∈ six, digit ∈ hexDigits) (nonempty : following ≠ [])
    (unmarked : ∀ c ∈ following, c ≠ '{' ∧ isIntroducer c = false) :
    ∃ read : UInt32, read.toNat = hexNumber six ∧
      compile (String.ofList ('&' :: '#' :: six ++ following)) =
        [.literal (RichText.styled (String.ofList following)
          (Style.colored (some (.rgb read)) {}))] := by
  have wellFormed : (Segment.style '&' (.hex six)).WellFormed := ⟨Or.inl rfl, length, digits⟩
  have found : Segment.read? ('&' :: '#' :: six ++ following) =
      some (.style '&' (.hex six), following) :=
    Segment.read?_eq_some_iff.2 ⟨wellFormed, not_false, rfl⟩
  obtain ⟨color, selects, applied⟩ :=
    Pen.apply_of_not_isDecoration (show (Code.hex six).WellFormed from ⟨length, digits⟩)
      not_false {}
  cases selects with
  | @rgb _ read written =>
    refine ⟨read, written, ?_⟩
    rw [compile, String.toList_ofList, segments_of_read?_eq_some found,
      segments_unmarked nonempty unmarked, tokensOf, applied]
    rfl

/-! ## The three views -/

/-- The text of a color **has six digits** if it is `#` and six digits in lower case, and these
write the value of the color. -/
def HasSixDigits (color : TextColor) : Prop :=
  ∃ digits, color.text.toList = '#' :: digits ∧ digits.length = 6 ∧
    (∀ digit ∈ digits, digit ∈ lowerHexDigits) ∧ hexNumber digits = color.value

/-- The text of a color **is read back** if as a code before some text it leaves one literal, with
exactly that text and a color of the same value. -/
def ReadsBack (color : TextColor) (following : String) : Prop :=
  ∃ text read, compile ("&" ++ color.text ++ following) = [.literal text] ∧
    text.content = following ∧ text.style.color = some read ∧ read.value = color.value

/-- The text of a color by number, after an introducer and before other text, **leaves its seventh
and eighth digit behind** as literal text, in the color of the first six. -/
def LeavesDigits (number : UInt32) (following : String) : Prop :=
  ∃ (six more : List Char) (read : UInt32),
    (TextColor.rgb number).text.toList = '#' :: six ++ more ∧ six.length = 6 ∧
      read.toNat = hexNumber six ∧
      compile ("&" ++ (TextColor.rgb number).text ++ following) =
        [.literal (RichText.styled (String.ofList more ++ following)
          (Style.colored (some (.rgb read)) {}))]

theorem toList_text_rgb (number : UInt32) :
    (TextColor.rgb number).text.toList = '#' :: TextColor.hexDigits 6 number.toNat := by
  rw [TextColor.text, String.toList_ofList]

variable {number : UInt32} {following : String}

/-- Digits are no marks. -/
theorem unmarked_append {digits : List Char} (lower : ∀ digit ∈ digits, digit ∈ lowerHexDigits)
    (unmarked : ∀ c ∈ following.toList, c ≠ '{' ∧ c ≠ '&' ∧ c ≠ '§') :
    ∀ c ∈ digits ++ following.toList, c ≠ '{' ∧ isIntroducer c = false := by
  have digitsUnmarked :
      lowerHexDigits.all (fun digit => digit ≠ '{' && !isIntroducer digit) = true := by
    decide
  intro c mem
  rcases List.mem_append.1 mem with mem | mem
  · simpa using List.all_eq_true.1 digitsUnmarked c (lower c mem)
  · obtain ⟨notBrace, notIntroducers⟩ := unmarked c mem
    exact ⟨notBrace, by simpa [isIntroducer] using notIntroducers⟩

/-- What becomes of the text of a color: six of its digits are a code, the others are not. -/
theorem leavesDigits (number : UInt32) (nonempty : following ≠ "")
    (unmarked : ∀ c ∈ following.toList, c ≠ '{' ∧ c ≠ '&' ∧ c ≠ '§') :
    LeavesDigits number following := by
  obtain ⟨six, more, length, digits⟩ : ∃ six more : List Char, six.length = 6 ∧
      TextColor.hexDigits 6 number.toNat = six ++ more :=
    ⟨_, _, List.length_take_of_le (le_length_hexDigits 6 number.toNat),
      (List.take_append_drop 6 _).symm⟩
  have text := toList_text_rgb number
  rw [digits] at text
  have lower : ∀ digit ∈ six ++ more, digit ∈ lowerHexDigits := fun digit mem =>
    mem_lower_of_mem_hexDigits (digits ▸ mem)
  have isCode : ∀ digit ∈ six, digit ∈ hexDigits := fun digit mem =>
    mem_hexDigits_of_mem_lower (lower digit (List.mem_append_left _ mem))
  have isLiteral := unmarked_append (fun digit mem => lower digit (List.mem_append_right _ mem))
    unmarked
  have someLiteral : more ++ following.toList ≠ [] := by
    simpa using fun _ => nonempty
  obtain ⟨read, written, compiled⟩ := compile_hex length isCode someLiteral isLiteral
  refine ⟨six, more, read, text, length, written, ?_⟩
  have source : "&" ++ (TextColor.rgb number).text ++ following =
      String.ofList ('&' :: '#' :: six ++ (more ++ following.toList)) := by
    rw [← String.toList_inj, String.toList_append, String.toList_append, text,
      String.toList_ofList]
    simp
  rw [source, compiled, String.ofList_append, String.ofList_toList]

/-- A number that fits into 24 bits is its own value. -/
theorem value_rgb_of_lt (small : number.toNat < 0x1000000) :
    (TextColor.rgb number).value = number.toNat :=
  Nat.mod_eq_of_lt small

/-- The text of a color has six digits exactly if its number fits into 24 bits. -/
theorem hasSixDigits_iff (number : UInt32) :
    HasSixDigits (.rgb number) ↔ number.toNat < 0x1000000 := by
  have fits := length_sixDigits_iff number.toNat
  constructor
  · rintro ⟨digits, text, length, -, -⟩
    obtain rfl := (List.cons.inj ((toList_text_rgb number).symm.trans text)).2
    exact fits.1 length
  · intro small
    refine ⟨_, toList_text_rgb number, fits.2 small, fun _ => mem_lower_of_mem_hexDigits, ?_⟩
    rw [hexNumber_hexDigits, value_rgb_of_lt small]

/-- The text of a color is read back exactly if its number fits into 24 bits, whatever text
follows. -/
theorem LeavesDigits.readsBack_iff (leaves : LeavesDigits number following) :
    ReadsBack (.rgb number) following ↔ number.toNat < 0x1000000 := by
  obtain ⟨six, more, read, text, length, written, compiled⟩ := leaves
  have digits : TextColor.hexDigits 6 number.toNat = six ++ more :=
    (List.cons.inj ((toList_text_rgb number).symm.trans text)).2
  have fits : more = [] ↔ number.toNat < 0x1000000 := by
    have width := length_sixDigits_iff number.toNat
    rw [digits, List.length_append, length] at width
    rw [← List.length_eq_zero_iff]
    exact (by omega : more.length = 0 ↔ 6 + more.length = 6).trans width
  rw [← fits]
  constructor
  · rintro ⟨other, -, compiledToo, content, -, -⟩
    have same := compiled.symm.trans compiledToo
    obtain rfl : RichText.styled _ _ = other := by simpa using same
    have kept : more ++ following.toList = following.toList := by
      have content := congrArg String.toList content
      simpa [RichText.styled] using content
    exact List.append_left_eq_self.1 kept
  · rintro rfl
    have small : number.toNat < 0x1000000 := fits.1 rfl
    have whole : read.toNat = number.toNat := by
      rw [written, ← List.append_nil six, ← digits, hexNumber_hexDigits]
    refine ⟨_, _, compiled, by simp [RichText.styled], rfl, ?_⟩
    rw [value_rgb_of_lt small, value_rgb_of_lt (by rwa [whole]), whole]

/-- **Value, text and code of a color agree for numbers that fit into 24 bits, and for no others.**
The text of a color by number is `#` and the six digits of its value exactly if the number is below
2^24.  So it is that the text is read back, before whatever text without marks.  In any case one
literal is left, in the color of the first six digits of the text and with the other digits, of
which there are none if the number is below 2^24, in front of what follows. -/
theorem rgb_agrees_iff (number : UInt32) :
    (HasSixDigits (.rgb number) ↔ number.toNat < 0x1000000) ∧
      ∀ following : String, following ≠ "" →
        (∀ c ∈ following.toList, c ≠ '{' ∧ c ≠ '&' ∧ c ≠ '§') →
          (ReadsBack (.rgb number) following ↔ number.toNat < 0x1000000) ∧
            LeavesDigits number following := by
  refine ⟨hasSixDigits_iff number, fun following nonempty unmarked => ?_⟩
  have leaves := leavesDigits number nonempty unmarked
  exact ⟨leaves.readsBack_iff, leaves⟩

/-- The text of a color by number that is just too large, and the two ways in which it goes
astray. -/
theorem rgb_astray :
    (TextColor.rgb 0x1000000).value = 0 ∧ (TextColor.rgb 0x1000000).text = "#1000000" ∧
      ¬ HasSixDigits (.rgb 0x1000000) ∧ ¬ ReadsBack (.rgb 0x1000000) "x" := by
  have large : ¬ (0x1000000 : UInt32).toNat < 0x1000000 := by decide
  have leaves : LeavesDigits 0x1000000 "x" := leavesDigits 0x1000000 (by decide) (by simp)
  exact ⟨by decide, by decide +kernel, fun six => large ((hasSixDigits_iff _).1 six),
    fun back => large (leaves.readsBack_iff.1 back)⟩

theorem rgb_agrees_iff_navy :
    HasSixDigits (.rgb 0x80) ∧ ReadsBack (.rgb 0x80) "face" ∧
      (TextColor.rgb 0x80).text = "#000080" ∧ LeavesDigits 0xABCDEF01 "face" := by
  have small : (0x80 : UInt32).toNat < 0x1000000 := by decide
  have nonempty : "face" ≠ "" := by decide
  have unmarked : ∀ c ∈ "face".toList, c ≠ '{' ∧ c ≠ '&' ∧ c ≠ '§' := by simp
  exact ⟨(rgb_agrees_iff 0x80).1.2 small,
    ((rgb_agrees_iff 0x80).2 "face" nonempty unmarked).1.2 small, by decide +kernel,
    ((rgb_agrees_iff 0xABCDEF01).2 "face" nonempty unmarked).2⟩

end Phrasebook.Template

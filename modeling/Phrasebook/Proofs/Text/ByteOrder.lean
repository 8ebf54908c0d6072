import Mathlib.Order.Basic
import Mathlib.Tactic.SplitIfs

/-!
# The order of texts and the order of their bytes

Texts are ordered by their characters.  Written in UTF-8 they are also ordered by their bytes, and
this is the same order: of two characters, the one with the smaller number has a smaller byte at the
first place where their bytes differ, and the bytes of neither begin those of the other.

## Main statement

`precedes_iff_lt`: a text precedes another by bytes exactly when it does by characters.
-/

namespace Phrasebook.Text

/-- The bytes of a text in UTF-8. -/
def utf8Bytes (text : String) : List UInt8 := text.toUTF8.data.toList

/-- A text **precedes** another when its bytes do, compared one by one from the front. -/
def Precedes (text other : String) : Prop := utf8Bytes text < utf8Bytes other

theorem utf8Bytes_eq_flatMap (text : String) :
    utf8Bytes text = text.toList.flatMap String.utf8EncodeChar := by
  rw [utf8Bytes, String.toUTF8_eq_toByteArray, ← String.utf8Encode_toList, List.utf8Encode]
  simp

/-! ## One character -/

theorem toNat_byte {number : Nat} (small : number < 256) :
    (UInt8.ofNat number).toNat = number := by
  rw [UInt8.toNat_ofNat']
  exact Nat.mod_eq_of_lt small

/-- Numbers are ordered by their digits to the base 64, of which the bytes of a character are
made. -/
theorem digits_lt {low high : Nat} (less : low < high) :
    low / 262144 < high / 262144 ∨ low / 262144 = high / 262144 ∧
      (low / 4096 % 64 < high / 4096 % 64 ∨ low / 4096 % 64 = high / 4096 % 64 ∧
        (low / 64 % 64 < high / 64 % 64 ∨ low / 64 % 64 = high / 64 % 64 ∧
          low % 64 < high % 64)) := by
  omega

/-- A smaller character has smaller bytes, whatever follows. -/
theorem utf8EncodeChar_append_lt {c d : Char} (less : c < d) (after others : List UInt8) :
    String.utf8EncodeChar c ++ after < String.utf8EncodeChar d ++ others := by
  have less : c.val.toNat < d.val.toNat := less
  have bound : d.val.toNat < 0x110000 := by
    have valid := d.valid
    simp only [UInt32.isValidChar, Nat.isValidChar] at valid
    omega
  simp only [String.utf8EncodeChar]
  generalize c.val.toNat = low at less
  generalize d.val.toNat = high at less bound
  have digits := digits_lt less
  -- One case for each two lengths; the smaller number does not have the greater length.
  split_ifs <;> try omega
  all_goals
    simp (disch := omega) only [List.cons_append, List.nil_append, List.cons_lt_cons_iff,
      UInt8.lt_iff_toNat_lt, ← UInt8.toNat_inj, toNat_byte, Nat.mod_eq_of_lt]
    omega

/-! ## Whole texts -/

theorem flatMap_utf8EncodeChar_lt :
    {text other : List Char} → text < other →
      text.flatMap String.utf8EncodeChar < other.flatMap String.utf8EncodeChar
  | [], [], less => absurd less (List.lt_irrefl [])
  | c :: text, [], less => absurd less (List.not_lt_nil _)
  | [], d :: other, _ => by
    have nonempty : String.utf8EncodeChar d ≠ [] := String.utf8EncodeChar_ne_nil
    obtain ⟨byte, bytes, isCons⟩ := List.exists_cons_of_ne_nil nonempty
    rw [List.flatMap_cons, isCons]
    exact List.nil_lt_cons byte _
  | c :: text, d :: other, less => by
    rw [List.flatMap_cons, List.flatMap_cons]
    rcases List.cons_lt_cons_iff.1 less with here | ⟨rfl, onward⟩
    · exact utf8EncodeChar_append_lt here _ _
    · exact List.append_left_lt (flatMap_utf8EncodeChar_lt onward)

/-- **Bytes and characters order texts in the same way.** -/
theorem precedes_iff_lt {text other : String} : Precedes text other ↔ text < other := by
  have forth {text other : String} (less : text < other) : Precedes text other := by
    rw [Precedes, utf8Bytes_eq_flatMap, utf8Bytes_eq_flatMap]
    exact flatMap_utf8EncodeChar_lt (String.lt_iff.1 less)
  refine ⟨fun precedes => ?_, forth⟩
  by_contra notLess
  by_cases same : text = other
  · exact List.lt_irrefl _ (same ▸ precedes)
  · have greater : other < text := by
      by_contra notGreater
      exact same (String.le_antisymm (String.not_lt.1 notGreater) (String.not_lt.1 notLess))
    exact List.lt_asymm precedes (forth greater)

/-! ## Sorting -/

/-- Sorted texts do not depend on how they were listed. -/
theorem mergeSort_eq_of_perm {first second : List String} (same : first.Perm second) :
    (first.mergeSort fun a b => a ≤ b) = second.mergeSort fun a b => a ≤ b := by
  have trans (a b c : String) (le : decide (a ≤ b) = true) (leToo : decide (b ≤ c) = true) :
      decide (a ≤ c) = true :=
    decide_eq_true (String.le_trans (of_decide_eq_true le) (of_decide_eq_true leToo))
  have total (a b : String) : (decide (a ≤ b) || decide (b ≤ a)) = true := by
    simpa using String.le_total a b
  have sorted (texts : List String) :
      (texts.mergeSort fun a b => a ≤ b).Pairwise fun a b => decide (a ≤ b) = true :=
    List.pairwise_mergeSort trans total texts
  refine List.Perm.eq_of_pairwise (fun a b _ _ le ge => ?_) (sorted first) (sorted second)
    ((List.mergeSort_perm _ _).trans (same.trans (List.mergeSort_perm _ _).symm))
  exact String.le_antisymm (of_decide_eq_true le) (of_decide_eq_true ge)

end Phrasebook.Text

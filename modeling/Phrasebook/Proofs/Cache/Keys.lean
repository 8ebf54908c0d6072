import Mathlib.Data.List.Infix
import Phrasebook.Cache.Options
import Phrasebook.Proofs.Text.Drain

/-!
# Keys tell bundles and kinds apart

A key is made from a form by putting the bundle and the kind into their places.  Any text may be
the form and any text the bundle: the bundle may look like a place, it may be empty, and it may run
into what stands beside it.  Two bundles have different keys all the same, as soon as the form has
a place for the bundle, and the two keys of a bundle differ, as soon as it has one for the kind.

The form is read once, from left to right, without looking at the bundle.  So it comes apart into
parts (`KeyPart`) that are the same for all bundles and kinds, and a key is what is written for the
parts one after the other.  Two keys of one kind and one length hold bundles of one length, and then
the first place of a bundle is at the same position in both.  The two keys of one bundle do not even
have one length, as the words for the kinds have not.

## Main statements

- `CacheOptions.eq_of_key_eq`: bundles with the same key are the same.
- `CacheOptions.keys_apart`: with both places in the form, different bundles have different keys of
  a kind, and the two keys of a bundle are different.
-/

namespace Phrasebook

open Text

/-- A part of the form of a key: a character that is copied, or a place. -/
inductive KeyPart where
  | letter (c : Char)
  | bundle
  | kind
  deriving DecidableEq

namespace KeyPart

/-- What is written for a part. -/
def write (bundle kind : List Char) : KeyPart → List Char
  | .letter c => [c]
  | .bundle => bundle
  | .kind => kind

/-- The length of a key, by the parts of its form. -/
theorem length_flatMap_write (bundle kind : List Char) (parts : List KeyPart) :
    (parts.flatMap (write bundle kind)).length + parts.count .bundle + parts.count .kind =
      parts.length + parts.count .bundle * bundle.length + parts.count .kind * kind.length := by
  induction parts with
  | nil => simp
  | cons part rest ih =>
    rw [List.flatMap_cons, List.length_append]
    generalize (rest.flatMap (write bundle kind)).length = length at ih ⊢
    cases part <;> simp [write, Nat.add_mul] <;> omega

/-- Bundles of one length that are written alike are the same. -/
theorem eq_of_flatMap_write_eq {bundle other kind : List Char}
    (sameLength : bundle.length = other.length) {parts : List KeyPart} (place : .bundle ∈ parts)
    (same : parts.flatMap (write bundle kind) = parts.flatMap (write other kind)) :
    bundle = other := by
  induction parts with
  | nil => cases place
  | cons part rest ih =>
    rw [List.flatMap_cons, List.flatMap_cons] at same
    cases part with
    | bundle => exact (List.append_inj same sameLength).1
    | letter c => exact ih (by simpa using place) (List.append_inj same rfl).2
    | kind => exact ih (by simpa using place) (List.append_inj same rfl).2

end KeyPart

namespace CacheOptions

/-- What is put into the places of a form. -/
def fillings (bundle kind : List Char) : List (List Char × List Char) :=
  [(bundlePlace.toList, bundle), (kindPlace.toList, kind)]

/-- What comes of a text that begins with a character depends on the place it begins with, if it
begins with one. -/
theorem matchAt?_fillings (bundle kind text : List Char) :
    matchAt? text (fillings bundle kind) =
      if bundlePlace.toList <+: text then some (bundlePlace.toList, bundle)
      else if kindPlace.toList <+: text then some (kindPlace.toList, kind) else none := by
  have bundleNonempty : bundlePlace.toList ≠ [] := by decide
  have kindNonempty : kindPlace.toList ≠ [] := by decide
  simp [fillings, matchAt?, bundleNonempty, kindNonempty]

/-- No place begins inside a place of the other sort. -/
theorem infix_place_append_iff {rest : List Char} :
    (bundlePlace.toList <:+: kindPlace.toList ++ rest ↔ bundlePlace.toList <:+: rest) ∧
      (kindPlace.toList <:+: bundlePlace.toList ++ rest ↔ kindPlace.toList <:+: rest) := by
  have bundle : bundlePlace.toList = ['{', 'b', 'u', 'n', 'd', 'l', 'e', '}'] := by decide
  have kind : kindPlace.toList = ['{', 'k', 'i', 'n', 'd', '}'] := by decide
  simp [bundle, kind, List.infix_cons_iff, List.cons_prefix_cons]

/-- **A form comes apart into parts that are the same for all bundles and kinds.**  By induction on
the form, along the scan that fills it. -/
theorem exists_parts (form : List Char) :
    ∃ parts : List KeyPart,
      (∀ bundle kind, scan (fillings bundle kind) form =
        parts.flatMap (KeyPart.write bundle kind)) ∧
      (bundlePlace.toList <:+: form → .bundle ∈ parts) ∧
      (kindPlace.toList <:+: form → .kind ∈ parts) := by
  match form with
  | [] =>
    refine ⟨[], fun bundle kind => by simp, fun place => ?_, fun place => ?_⟩
    · exact absurd (List.infix_nil.1 place) (by decide)
    · exact absurd (List.infix_nil.1 place) (by decide)
  | c :: rest =>
    by_cases bundleHere : bundlePlace.toList <+: c :: rest
    · obtain ⟨parts, writes, -, kinds⟩ :=
        exists_parts ((c :: rest).drop bundlePlace.toList.length)
      refine ⟨.bundle :: parts, fun bundle kind => ?_, fun _ => List.mem_cons_self, fun place => ?_⟩
      · have found : matchAt? (c :: rest) (fillings bundle kind) =
            some (bundlePlace.toList, bundle) := by
          rw [matchAt?_fillings, if_pos bundleHere]
        rw [scan_of_matchAt?_eq_some found, writes]
        rfl
      · obtain ⟨after, split⟩ := bundleHere
        rw [← split, List.drop_left] at kinds
        rw [← split, infix_place_append_iff.2] at place
        exact List.mem_cons_of_mem _ (kinds place)
    · by_cases kindHere : kindPlace.toList <+: c :: rest
      · obtain ⟨parts, writes, bundles, -⟩ :=
          exists_parts ((c :: rest).drop kindPlace.toList.length)
        refine ⟨.kind :: parts, fun bundle kind => ?_, fun place => ?_, fun _ => List.mem_cons_self⟩
        · have found : matchAt? (c :: rest) (fillings bundle kind) =
              some (kindPlace.toList, kind) := by
            rw [matchAt?_fillings, if_neg bundleHere, if_pos kindHere]
          rw [scan_of_matchAt?_eq_some found, writes]
          rfl
        · obtain ⟨after, split⟩ := kindHere
          rw [← split, List.drop_left] at bundles
          rw [← split, infix_place_append_iff.1] at place
          exact List.mem_cons_of_mem _ (bundles place)
      · obtain ⟨parts, writes, bundles, kinds⟩ := exists_parts rest
        refine ⟨.letter c :: parts, fun bundle kind => ?_, fun place => ?_, fun place => ?_⟩
        · have notFound : matchAt? (c :: rest) (fillings bundle kind) = none := by
            rw [matchAt?_fillings, if_neg bundleHere, if_neg kindHere]
          rw [scan_cons_of_matchAt?_eq_none notFound, writes]
          rfl
        · have later := (List.infix_cons_iff.1 place).resolve_left bundleHere
          exact List.mem_cons_of_mem _ (bundles later)
        · have later := (List.infix_cons_iff.1 place).resolve_left kindHere
          exact List.mem_cons_of_mem _ (kinds later)
termination_by form.length
decreasing_by
  · have : 0 < bundlePlace.toList.length := by decide
    simp only [List.length_drop, List.length_cons]
    omega
  · have : 0 < kindPlace.toList.length := by decide
    simp only [List.length_drop, List.length_cons]
    omega
  · simp

theorem toList_key (options : CacheOptions) (bundle : String) (kind : KeyKind) :
    (options.key bundle kind).toList =
      scan (fillings bundle.toList kind.text.toList) options.keyFormat.toList := by
  simp [key, replaceAll, substitute_eq_scan, fillings]

/-- **Keys tell bundles apart**, whatever the bundles are called: with a place for the bundle in the
form, bundles with the same key of a kind are the same. -/
theorem eq_of_key_eq {options : CacheOptions}
    (place : bundlePlace.toList <:+: options.keyFormat.toList) {bundle other : String}
    {kind : KeyKind} (same : options.key bundle kind = options.key other kind) :
    bundle = other := by
  obtain ⟨parts, writes, places, -⟩ := exists_parts options.keyFormat.toList
  have written := congrArg String.toList same
  rw [toList_key, toList_key, writes, writes] at written
  have placed : KeyPart.bundle ∈ parts := places place
  -- Both keys have one length, and there is a place at which their bundles account for it.
  have sameLength : bundle.toList.length = other.toList.length := by
    have here := KeyPart.length_flatMap_write bundle.toList kind.text.toList parts
    have there := KeyPart.length_flatMap_write other.toList kind.text.toList parts
    rw [written] at here
    have product : parts.count .bundle * bundle.toList.length =
        parts.count .bundle * other.toList.length := by omega
    exact Nat.eq_of_mul_eq_mul_left (List.count_pos_iff.2 placed) product
  exact String.toList_inj.1 (KeyPart.eq_of_flatMap_write_eq sameLength placed written)

/-- **The two keys of a bundle are different**: the longer word makes the longer key. -/
theorem key_lock_ne_key_messages {options : CacheOptions}
    (place : kindPlace.toList <:+: options.keyFormat.toList) (bundle : String) :
    options.key bundle .lock ≠ options.key bundle .messages := by
  intro same
  obtain ⟨parts, writes, -, places⟩ := exists_parts options.keyFormat.toList
  have written := congrArg String.toList same
  rw [toList_key, toList_key, writes, writes] at written
  have placed : 0 < parts.count .kind := List.count_pos_iff.2 (places place)
  have lock := KeyPart.length_flatMap_write bundle.toList KeyKind.lock.text.toList parts
  have messages := KeyPart.length_flatMap_write bundle.toList KeyKind.messages.text.toList parts
  have lockLength : KeyKind.lock.text.toList.length = 4 := by decide
  have messagesLength : KeyKind.messages.text.toList.length = 8 := by decide
  rw [written] at lock
  rw [lockLength] at lock
  rw [messagesLength] at messages
  omega

/-- **Keys tell bundles and kinds apart**, when the form has a place for the bundle and one for the
kind: bundles share a key of a kind only if they are the same, and no bundle has one key for both
kinds. -/
theorem keys_apart {options : CacheOptions}
    (bundlePlaced : bundlePlace.toList <:+: options.keyFormat.toList)
    (kindPlaced : kindPlace.toList <:+: options.keyFormat.toList) (bundle other : String) :
    (∀ kind, options.key bundle kind = options.key other kind ↔ bundle = other) ∧
      options.key bundle .lock ≠ options.key bundle .messages := by
  refine ⟨fun kind => ⟨eq_of_key_eq bundlePlaced, ?_⟩, key_lock_ne_key_messages kindPlaced bundle⟩
  rintro rfl
  rfl

/-- A form with two places for the bundle, and bundles that look like places. -/
theorem keys_apart_nested :
    let options : CacheOptions :=
      { keyFormat := "{kind}{bundle}" ++ Text.openBrace ++ "{bundle}" }
    bundlePlace.toList <:+: options.keyFormat.toList ∧
      kindPlace.toList <:+: options.keyFormat.toList ∧
      options.key "{kind}" .lock ≠ options.key "{bundle}" .lock ∧
      options.key "{kind}" .lock ≠ options.key "{kind}" .messages := by
  intro options
  have bundlePlaced : bundlePlace.toList <:+: options.keyFormat.toList := by decide +kernel
  have kindPlaced : kindPlace.toList <:+: options.keyFormat.toList := by decide +kernel
  have apart := keys_apart bundlePlaced kindPlaced "{kind}" "{bundle}"
  exact ⟨bundlePlaced, kindPlaced, mt (apart.1 .lock).1 (by decide), apart.2⟩

end CacheOptions

end Phrasebook

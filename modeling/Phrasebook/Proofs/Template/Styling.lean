import Mathlib.Data.Nat.Digits.Defs
import Phrasebook.Proofs.Template.Segmentation

/-!
# What formatting codes make of a text

While a template is compiled, a pen is carried along that every formatting code changes.  This
module says what the pen has become at a token without following it: of all codes before the token
only the last one that selects a color counts, and the decorations after it.

* `Code.Selects` and `Code.Adds` are what a code is for, told from its characters;
* `IsSetBy` finds the last color among codes, and the codes since then.

Both are about codes only.  What lies between them, literal text or placeholders, does not matter,
so a template enters through the codes of its segments (`codesOf`).

## Main statement

`style_compile`: the style of a token is that of the codes before it.
-/

namespace Phrasebook.Template

/-! ## What a code is for -/

/-- The value of a hexadecimal digit in either case: its place among the digits. -/
def hexPlace (digit : Char) : Nat := "0123456789abcdef".toList.idxOf digit.toLower

/-- The number that hexadecimal digits write, the first one being the most significant. -/
def hexNumber (digits : List Char) : Nat := Nat.ofDigits 16 (digits.reverse.map hexPlace)

namespace Code

/-- A code **selects** a color: a reset selects white, a digit the named color with that digit, and
six digits the color with that number. -/
inductive Selects : Code → TextColor → Prop
  | reset {letter : Char} : Selects (reset letter) (.named .white)
  | named {digit : Char} {selected : NamedColor} (spelled : selected.code = digit.toLower) :
      Selects (color digit) (.named selected)
  | rgb {digits : List Char} {value : UInt32} (written : value.toNat = hexNumber digits) :
      Selects (hex digits) (.rgb value)

/-- A code **adds** a decoration: the one with that letter. -/
inductive Adds : Code → Decoration → Prop
  | intro {letter : Char} {added : Decoration} (spelled : added.code = letter.toLower) :
      Adds (decoration letter) added

/-- A code is one of those that add a decoration, and not one of those that select a color. -/
def IsDecoration : Code → Prop
  | decoration _ => True
  | _ => False

end Code

/-- **The last color among codes, and the codes since then.**  If no color is selected, that is none
and all of them. -/
inductive IsSetBy (codes : List Code) : Option TextColor → List Code → Prop
  | never (all : ∀ code ∈ codes, code.IsDecoration) : IsSetBy codes none codes
  | last {earlier since : List Code} {code : Code} {color : TextColor}
      (split : codes = earlier ++ code :: since) (selects : code.Selects color)
      (kept : ∀ later ∈ since, later.IsDecoration) : IsSetBy codes (some color) since

/-- The formatting codes among segments, in order. -/
def codesOf (parts : List Segment) : List Code :=
  parts.filterMap fun
    | .style _ code => some code
    | _ => none

/-- The style of a token. -/
def Token.style : Token → Style
  | literal text => text.style
  | placeholder bound => bound.style

/-! ## Letters and digits -/

theorem hexDigitValue?_eq_hexPlace {digit : Char} (mem : digit ∈ hexDigits) :
    hexDigitValue? digit = some (hexPlace digit) := by
  have all : hexDigits.all (fun digit => hexDigitValue? digit = some (hexPlace digit)) = true := by
    decide
  exact of_decide_eq_true (List.all_eq_true.1 all digit mem)

theorem hexPlace_lt {digit : Char} (mem : digit ∈ hexDigits) : hexPlace digit < 16 := by
  have all : hexDigits.all (fun digit => hexPlace digit < 16) = true := by decide
  exact of_decide_eq_true (List.all_eq_true.1 all digit mem)

/-- A digit has a named color, whose code is that digit. -/
theorem exists_ofCode?_color {digit : Char} (mem : digit ∈ hexDigits) :
    ∃ color, NamedColor.ofCode? digit = some color ∧ color.code = digit.toLower := by
  have all : hexDigits.all (fun digit =>
      (NamedColor.ofCode? digit).map NamedColor.code = some digit.toLower) = true := by decide
  exact Option.map_eq_some_iff.1 (of_decide_eq_true (List.all_eq_true.1 all digit mem))

/-- A letter has a decoration, whose code is that letter. -/
theorem exists_ofCode?_decoration {letter : Char} (mem : letter ∈ decorationLetters) :
    ∃ added, Decoration.ofCode? letter = some added ∧ added.code = letter.toLower := by
  have all : decorationLetters.all (fun letter =>
      (Decoration.ofCode? letter).map Decoration.code = some letter.toLower) = true := by decide
  exact Option.map_eq_some_iff.1 (of_decide_eq_true (List.all_eq_true.1 all letter mem))

theorem hexNumber_concat (digits : List Char) (digit : Char) :
    hexNumber (digits ++ [digit]) = 16 * hexNumber digits + hexPlace digit := by
  rw [hexNumber, List.reverse_concat, List.map_cons, Nat.ofDigits_cons, hexNumber,
    Nat.add_comm]

/-- Digits are read as the number that they write. -/
theorem hexValue?_eq_hexNumber {digits : List Char} (all : ∀ digit ∈ digits, digit ∈ hexDigits) :
    hexValue? digits = some (hexNumber digits) := by
  induction digits using List.reverseRecOn with
  | nil => rfl
  | append_singleton digits digit ih =>
    have before : hexValue? digits = some (hexNumber digits) :=
      ih fun other mem => all other (List.mem_append_left _ mem)
    have last := hexDigitValue?_eq_hexPlace (all digit (by simp))
    rw [hexValue?] at before
    rw [hexNumber_concat, hexValue?, List.foldl_append, before, List.foldl_cons, List.foldl_nil,
      last]
    rfl

/-- Six digits write a number that fits into 24 bits. -/
theorem hexNumber_lt {digits : List Char} (all : ∀ digit ∈ digits, digit ∈ hexDigits) :
    hexNumber digits < 16 ^ digits.length := by
  have small : ∀ place ∈ digits.reverse.map hexPlace, place < 16 := by
    intro place mem
    obtain ⟨digit, digitMem, rfl⟩ := List.mem_map.1 mem
    exact hexPlace_lt (all digit (List.mem_reverse.1 digitMem))
  have bound := Nat.ofDigits_lt_base_pow_length (by decide : 1 < 16) small
  rwa [List.length_map, List.length_reverse] at bound

/-! ## What the pen becomes -/

/-- The decorations that a pen begins with, and that a color leaves, are none. -/
theorem Pen.contains_cleared (decoration : Decoration) :
    ({} : Decorations).contains decoration = false :=
  Decorations.contains_empty decoration

/-- A code of a decoration adds that one decoration and leaves the color alone. -/
theorem Pen.apply_decoration {letter : Char} (wellFormed : (Code.decoration letter).WellFormed)
    (pen : Pen) :
    (pen.apply (.decoration letter)).color = pen.color ∧
      ∀ other, (pen.apply (.decoration letter)).decorations.contains other = true ↔
        pen.decorations.contains other = true ∨ (Code.decoration letter).Adds other := by
  obtain ⟨added, found, spelled⟩ := exists_ofCode?_decoration wellFormed
  have applied : pen.apply (.decoration letter) =
      { pen with decorations := pen.decorations.insert added } := by
    rw [Pen.apply, Pen.after?, found]
    rfl
  have adds : ∀ other, (Code.decoration letter).Adds other ↔ other = added := by
    intro other
    constructor
    · rintro ⟨spelledToo⟩
      -- Decorations with the same letter are the same.
      have same := congrArg Decoration.ofCode? (spelledToo.trans spelled.symm)
      rw [Decoration.ofCode?_code, Decoration.ofCode?_code] at same
      exact Option.some.inj same
    · rintro rfl
      exact ⟨spelled⟩
  refine ⟨by rw [applied], fun other => ?_⟩
  rw [applied, Decorations.contains_insert, Bool.or_eq_true, decide_eq_true_iff, adds, or_comm]

/-- Every other code selects a color and clears the decorations. -/
theorem Pen.apply_of_not_isDecoration {code : Code} (wellFormed : code.WellFormed)
    (colors : ¬ code.IsDecoration) (pen : Pen) :
    ∃ color, code.Selects color ∧ pen.apply code = { color := some color } := by
  cases code with
  | decoration letter => exact absurd trivial colors
  | reset letter => exact ⟨_, .reset, rfl⟩
  | color digit =>
    obtain ⟨color, found, spelled⟩ := exists_ofCode?_color wellFormed
    refine ⟨.named color, .named spelled, ?_⟩
    rw [Pen.apply, Pen.after?, found]
    rfl
  | hex digits =>
    obtain ⟨six, all⟩ := wellFormed
    have fits : hexNumber digits < UInt32.size := by
      have small := hexNumber_lt all
      rw [six] at small
      exact small.trans (by decide)
    refine ⟨.rgb (hexNumber digits).toUInt32, .rgb ?_, ?_⟩
    · exact UInt32.toNat_ofNat_of_lt' fits
    · rw [Pen.apply, Pen.after?, hexValue?_eq_hexNumber all]
      rfl

/-! ## What many codes make of the pen -/

/-- A decoration after codes comes after their last color, too. -/
theorem IsSetBy.concat_decoration {codes since : List Code} {color? : Option TextColor}
    {code : Code} (set : IsSetBy codes color? since) (adds : code.IsDecoration) :
    IsSetBy (codes ++ [code]) color? (since ++ [code]) := by
  have withLast : ∀ {earlier : List Code}, (∀ other ∈ earlier, other.IsDecoration) →
      ∀ other ∈ earlier ++ [code], other.IsDecoration := by
    intro earlier all other mem
    rcases List.mem_append.1 mem with mem | mem
    · exact all other mem
    · obtain rfl := List.mem_singleton.1 mem
      exact adds
  cases set with
  | never all => exact .never (withLast all)
  | last split selects kept =>
    exact .last (by rw [split, List.append_assoc, List.cons_append]) selects (withLast kept)

/-- A color after codes is the last one, and nothing comes after it. -/
theorem IsSetBy.concat_color {code : Code} {color : TextColor} (codes : List Code)
    (selects : code.Selects color) : IsSetBy (codes ++ [code]) (some color) [] :=
  .last rfl selects (by simp)

/-- **What codes make of the pen that a template is begun with.**  The color is that of the last
code with one, and the decorations are those of the codes after it. -/
theorem Pen.isSetBy_foldl (codes : List Code) (wellFormed : ∀ code ∈ codes, code.WellFormed) :
    ∃ since, IsSetBy codes (codes.foldl Pen.apply {}).color since ∧
      ∀ decoration, (codes.foldl Pen.apply {}).decorations.contains decoration = true ↔
        ∃ code ∈ since, code.Adds decoration := by
  -- The pen follows the codes from the front, so the induction is on their end.
  induction codes using List.reverseRecOn with
  | nil =>
    refine ⟨[], .never (by simp), fun decoration => ?_⟩
    simp [Pen.contains_cleared]
  | append_singleton codes code ih =>
    obtain ⟨since, set, decorated⟩ :=
      ih fun other mem => wellFormed other (List.mem_append_left _ mem)
    have last := wellFormed code (by simp)
    rw [List.foldl_append, List.foldl_cons, List.foldl_nil]
    by_cases adds : code.IsDecoration
    · cases code with
      | decoration letter =>
        obtain ⟨color, decorations⟩ := Pen.apply_decoration last (codes.foldl Pen.apply {})
        refine ⟨since ++ [.decoration letter], ?_, fun decoration => ?_⟩
        · rw [color]
          exact set.concat_decoration adds
        · rw [decorations, decorated]
          simp only [List.mem_append, List.mem_singleton, or_and_right, exists_or, exists_eq_left]
      | reset letter => exact absurd adds not_false
      | color digit => exact absurd adds not_false
      | hex digits => exact absurd adds not_false
    · obtain ⟨color, selects, applied⟩ :=
        Pen.apply_of_not_isDecoration last adds (codes.foldl Pen.apply {})
      rw [applied]
      refine ⟨[], IsSetBy.concat_color codes selects, fun decoration => ?_⟩
      simp [Pen.contains_cleared]

/-! ## From segments to tokens -/

/-- The codes of a template are well formed. -/
theorem IsSegmentation.wellFormed_codesOf {raw : List Char} {front rest : List Segment}
    (cut : IsSegmentation raw (front ++ rest)) : ∀ code ∈ codesOf front, code.WellFormed := by
  intro code mem
  obtain ⟨part, partMem, isCode⟩ := List.mem_filterMap.1 mem
  have wellFormed := cut.wellFormed part (List.mem_append_left _ partMem)
  cases part with
  | literal text => cases isCode
  | placeholder slot => cases isCode
  | style introducer other =>
    cases isCode
    exact wellFormed.2

/-- **Where a token comes from.**  A token is yielded by one segment, the tokens before it by the
segments before that one, and its style is that of the pen after their codes. -/
theorem exists_segment_of_token :
    {parts : List Segment} → {pen : Pen} → {before after : List Token} → {token : Token} →
      tokensOf pen parts = before ++ token :: after →
        ∃ front part rest, parts = front ++ part :: rest ∧
          List.Forall₂ Segment.Yields (front.filter fun part => !part.isCode) before ∧
            part.Yields token ∧ token.style = ((codesOf front).foldl Pen.apply pen).style
  | [], pen, before, after, token, split => by
    cases before <;> cases split
  | .style introducer code :: parts, pen, before, after, token, split => by
    -- The code leaves no token, but it changes the pen.
    have onward : tokensOf (pen.apply code) parts = before ++ token :: after := split
    obtain ⟨front, part, rest, rfl, yielded, yields, style⟩ := exists_segment_of_token onward
    exact ⟨.style introducer code :: front, part, rest, rfl, yielded, yields, style⟩
  | .literal text :: parts, pen, before, after, token, split => by
    cases before with
    | nil =>
      obtain ⟨rfl, -⟩ := List.cons.inj split
      exact ⟨[], .literal text, parts, rfl, .nil, .literal rfl rfl, rfl⟩
    | cons first before =>
      obtain ⟨rfl, later⟩ := List.cons.inj split
      obtain ⟨front, part, rest, rfl, yielded, yields, style⟩ := exists_segment_of_token later
      exact ⟨.literal text :: front, part, rest, rfl, .cons (.literal rfl rfl) yielded, yields,
        style⟩
  | .placeholder slot :: parts, pen, before, after, token, split => by
    have mapped := slot.map_parameter?
    cases before with
    | nil =>
      obtain ⟨rfl, -⟩ := List.cons.inj split
      exact ⟨[], .placeholder slot, parts, rfl, .nil, .placeholder rfl mapped, rfl⟩
    | cons first before =>
      obtain ⟨rfl, later⟩ := List.cons.inj split
      obtain ⟨front, part, rest, rfl, yielded, yields, style⟩ := exists_segment_of_token later
      exact ⟨.placeholder slot :: front, part, rest, rfl, .cons (.placeholder rfl mapped) yielded,
        yields, style⟩

/-- **The style of a token is that of the codes before it.**  For every template and every token of
it, there is the segment that yields the token, in the one segmentation of the template, and the
style reacts to nothing.  Its color is the one that the last code with a color before the segment
selects, or none if there is no such code; its decorations are exactly those of the codes between
that one, or the start of the template, and the segment. -/
theorem style_compile {raw : String} {before after : List Token} {token : Token}
    (split : compile raw = before ++ token :: after) :
    ∃ front part rest, IsSegmentation raw.toList (front ++ part :: rest) ∧
      List.Forall₂ Segment.Yields (front.filter fun part => !part.isCode) before ∧
        part.Yields token ∧ token.style.hover = none ∧ token.style.click = none ∧
          ∃ since, IsSetBy (codesOf front) token.style.color since ∧
            ∀ decoration, token.style.decorations.contains decoration = true ↔
              ∃ code ∈ since, code.Adds decoration := by
  obtain ⟨front, part, rest, parts, yielded, yields, style⟩ := exists_segment_of_token split
  have cut := isSegmentation_segments raw.toList
  rw [parts] at cut
  have set := Pen.isSetBy_foldl (codesOf front) cut.wellFormed_codesOf
  rw [style]
  exact ⟨front, part, rest, cut, yielded, yields, rfl, rfl, set⟩

/-- In `&cHello &l{who}&r!` the placeholder between two codes is red and bold. -/
theorem style_compile_hello :
    compile "&cHello &l{who}&r!" =
        [.literal (RichText.styled "Hello " { color := some (.named .red) })] ++
          .placeholder
            { key := "who", parameter := none,
              style := { color := some (.named .red), decorations := { bold := true } } } ::
            [.literal (RichText.styled "!" { color := some (.named .white) })] ∧
      ∃ front part rest,
        IsSegmentation "&cHello &l{who}&r!".toList (front ++ part :: rest) ∧
          ∃ since, IsSetBy (codesOf front) (some (.named .red)) since ∧
            ∀ decoration, ({ bold := true } : Decorations).contains decoration = true ↔
              ∃ code ∈ since, code.Adds decoration := by
  have parts : segments "&cHello &l{who}&r!".toList =
      [.style '&' (.color 'c'), .literal "Hello ".toList, .style '&' (.decoration 'l'),
        .placeholder ⟨"who".toList, none⟩, .style '&' (.reset 'r'), .literal ['!']] := by
    cbv
  refine (and_iff_left_of_imp fun split => ?_).2 (by rw [compile, parts]; rfl)
  obtain ⟨front, part, rest, cut, -, -, -, -, set⟩ := style_compile split
  exact ⟨front, part, rest, cut, set⟩

end Phrasebook.Template

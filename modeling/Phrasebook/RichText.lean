import Phrasebook.Style.Color
import Phrasebook.Style.Decoration

/-!
# Styled text

A `RichText` is a tree: each node has a text of its own, a style, and children that follow the text.
Children inherit nothing; what a parent's style means for them is up to whoever shows the tree.

## Main definitions

- `Style` is a color, decorations, and what happens on hovering and clicking.
- `RichText` with its constructors `text`, `styled`, `colored` and `join`.
- `RichText.plainText` is the text of a tree, without any style.

## Design notes

The text shown on hovering is itself styled, so a style speaks about rich texts and a rich text
about styles.  `StyleOf` takes the type of hover texts as a parameter; `Style` closes the circle.
-/

namespace Phrasebook

/-- What a click does. -/
inductive ClickEvent where
  | openUrl (url : String)
  | runCommand (command : String)
  | suggestCommand (command : String)
  | copyToClipboard (value : String)
  deriving DecidableEq, Repr

/-- A style whose hover text is a `τ`.  A missing color is that of the surroundings. -/
structure StyleOf (τ : Type) where
  color : Option TextColor := none
  decorations : Decorations := {}
  hover : Option τ := none
  click : Option ClickEvent := none

instance {τ : Type} : Inhabited (StyleOf τ) := ⟨{}⟩

/-- A node of styled text: its own text, its style, and the nodes that follow the text. -/
structure RichText where
  content : String := ""
  style : StyleOf RichText := {}
  children : List RichText := []

/-- The style of a rich text. -/
abbrev Style := StyleOf RichText

namespace Style

/-- A style with a color and decorations that reacts to nothing. -/
def colored (color : Option TextColor) (decorations : Decorations) : Style := { color, decorations }

end Style

/-- Whether a style says nothing. -/
def StyleOf.isPlain {τ : Type} (style : StyleOf τ) : Bool :=
  style.color.isNone && style.decorations.isEmpty && style.hover.isNone && style.click.isNone

namespace RichText

instance : Inhabited RichText := ⟨{}⟩

/-- The node without text, style and children. -/
def empty : RichText := {}

/-- Text without a style. -/
def text (content : String) : RichText := { content }

/-- Text with a style. -/
def styled (content : String) (style : Style) : RichText := { content, style }

/-- Text in a named color. -/
def colored (content : String) (color : NamedColor) : RichText :=
  styled content { color := some (.named color) }

/-- A node without text and style that holds the given parts. -/
def join (parts : List RichText) : RichText := { children := parts }

/-- Adds a last child. -/
def append (node child : RichText) : RichText := { node with children := node.children ++ [child] }

/-- Replaces the style of a node; its children keep theirs. -/
def withStyle (node : RichText) (style : Style) : RichText := { node with style }

/-- Replaces the text shown on hovering over a node. -/
def withHover (node hover : RichText) : RichText :=
  { node with style := { node.style with hover := some hover } }

/-- Replaces what a click on a node does. -/
def withClick (node : RichText) (click : ClickEvent) : RichText :=
  { node with style := { node.style with click := some click } }

mutual

/-- The characters of a node's text and of its children's, in order; hover texts are left out. -/
def chars : RichText → List Char
  | ⟨content, _, children⟩ => content.toList ++ charsOfAll children

/-- The characters of the nodes of a list, in order. -/
def charsOfAll : List RichText → List Char
  | [] => []
  | node :: rest => chars node ++ charsOfAll rest

end

/-- The text of a tree without any style. -/
def plainText (node : RichText) : String := String.ofList node.chars

/-- Whether a node has no text, no style and no children. -/
def isEmpty (node : RichText) : Bool :=
  node.content == "" && node.style.isPlain && node.children.isEmpty

theorem chars_eq (node : RichText) :
    node.chars = node.content.toList ++ charsOfAll node.children := by
  cases node
  rw [chars]

@[simp]
theorem charsOfAll_nil : charsOfAll [] = [] := by
  rw [charsOfAll]

@[simp]
theorem charsOfAll_cons (node : RichText) (rest : List RichText) :
    charsOfAll (node :: rest) = node.chars ++ charsOfAll rest := by
  rw [charsOfAll]

@[simp]
theorem chars_join (parts : List RichText) : (join parts).chars = charsOfAll parts := by
  simp [chars_eq, join]

@[simp]
theorem chars_styled (content : String) (style : Style) :
    (styled content style).chars = content.toList := by
  simp [chars_eq, styled]

end RichText

end Phrasebook

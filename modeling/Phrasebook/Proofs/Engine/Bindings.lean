import Phrasebook.Engine.Render
import Phrasebook.Proofs.Text.Needles

/-!
# What a message takes from its arguments

Arguments are bindings in an order.  This module says how little of that reaches a message.

As plain text, a message is a scan for the needles of all names at once.  Needles can be in each
other's way, and then the order of the bindings decides.  It decides nothing if no name holds a
closing brace, even if names hold opening braces and needles are found inside one another
(`plain_eq_of_perm`).

As rich text, a message is one child for each of its tokens, and there is no order to speak of: a
literal takes nothing from the arguments, and a placeholder takes the binding of its own key and no
more.  `Engine.ShowsTokens` says this of any two lists of arguments, and says for each thing that a
key may be bound to what the child is then.  The parts of a child have different owners: of a rich
argument, its text, its children and what it does on hovering and clicking are its own, while its
color and decorations are those of the place where it stands.

## Main statements

- `plain_eq_of_perm`: without closing braces in names, the order of bindings does not matter.
- `showsTokens`: the children of a rich message are its tokens, each with its own binding.
-/

namespace Phrasebook.Engine

open Template

variable {ε : Type} {language : Language} {key : String}

/-! ## Plain text -/

/-- **The order of bindings does not matter** to a message as plain text, if no name holds a closing
brace. -/
theorem plain_eq_of_perm [MessageEntry ε] (engine : Engine ε) (key : String) (language : Language)
    {arguments others : Arguments} (perm : arguments.entries.Perm others.entries)
    (closed : ∀ name ∈ arguments.keys, '}' ∉ name.toList) :
    engine.plain key language arguments = engine.plain key language others := by
  cases resolved : engine.entry key language with
  | none => rw [plain, plain, resolved]
  | some entry =>
    rw [plain_eq_replaceAll resolved, plain_eq_replaceAll resolved]
    have names : (arguments.entries.map fun binding =>
        (binding.1, engine.argumentPlain language binding.2)).map Prod.fst = arguments.keys := by
      rw [List.map_map]
      rfl
    refine Text.replaceAll_eq_of_perm (perm.map _) (names ▸ arguments.nodup_keys) ?_ _
    intro binding mem
    exact closed binding.1 (names ▸ List.mem_map_of_mem mem)

/-- The language of the messages of `reception`. -/
def german : Language := { identifier := "de", name := "Deutsch" }

/-- A raw message in which two placeholders are styled differently. -/
def welcome : String := "&c&l{guest}&r and {host}"

/-- An engine with the message `welcome`, and one in which a needle is found inside another. -/
def reception : Engine CompiledEntry where
  registry := LanguageRegistry.ofLanguages LocaleTable.empty [german]
  store := Store.empty.replaceBundle "reception"
    (Dict.ofList
      [("de", Dict.ofList
        [("welcome", welcome), ("badge", Text.openBrace ++ "{guest} of {guest}")])])

/-- The bindings of a badge.  One name begins with a brace. -/
def badge : Arguments :=
  Dict.ofList [("guest", .value ⟨.text, "Ada"⟩), (Text.openBrace ++ "guest", .null)]

/-- The bindings of a badge in the other order. -/
def reversedBadge : Arguments :=
  Dict.ofList [(Text.openBrace ++ "guest", .null), ("guest", .value ⟨.text, "Ada"⟩)]

theorem plain_eq_of_perm_badge :
    badge.entries.Perm reversedBadge.entries ∧
      (∀ name ∈ badge.keys, '}' ∉ name.toList) ∧
      reception.plain "badge" german badge = reception.plain "badge" german reversedBadge ∧
      reception.plain "badge" german badge = "null of Ada" := by
  have perm : badge.entries.Perm reversedBadge.entries := List.Perm.swap _ _ _
  have closed : ∀ name ∈ badge.keys, '}' ∉ name.toList := by decide +kernel
  exact ⟨perm, closed, plain_eq_of_perm reception "badge" german perm closed, by decide +kernel⟩

/-! ## Rich text -/

variable {engine : Engine CompiledEntry} {entry : CompiledEntry}

/-- The child that stands for a token. -/
def child (engine : Engine CompiledEntry) (language : Language) (arguments : Arguments) :
    Token → RichText
  | .literal text => text
  | .placeholder placeholder => engine.fill language arguments placeholder

theorem children_rich (joined : engine.joiner = RichText.join)
    (resolved : engine.entry key language = some entry) (arguments : Arguments) :
    (engine.rich key language arguments).children =
      entry.tokens.map (engine.child language arguments) := by
  rw [rich, richWith, resolved, joined]
  show entry.tokens.map _ = _
  refine List.map_congr_left fun token _ => ?_
  cases token <;> rfl

/-- **The children of a message as rich text**, of whatever arguments: one for each token. -/
structure ShowsTokens (engine : Engine CompiledEntry) (key : String) (language : Language)
    (tokens : List Token) : Prop where
  /-- There is one child for each token. -/
  length_eq : ∀ arguments, (engine.rich key language arguments).children.length = tokens.length
  /-- A literal is shown as it is, whatever the arguments. -/
  literal : ∀ {i : Nat} {text : RichText}, tokens[i]? = some (.literal text) → ∀ arguments,
    (engine.rich key language arguments).children[i]? = some text
  /-- A placeholder is shown the same with any two lists of arguments that agree on its key. -/
  placeholder_congr : ∀ {i : Nat} {placeholder : Placeholder},
    tokens[i]? = some (.placeholder placeholder) → ∀ arguments others : Arguments,
      arguments.get? placeholder.key = others.get? placeholder.key →
        (engine.rich key language arguments).children[i]? =
          (engine.rich key language others).children[i]?
  /-- Without a binding, or with null, a placeholder is the text `null` without a style. -/
  unbound : ∀ {i : Nat} {placeholder : Placeholder},
    tokens[i]? = some (.placeholder placeholder) → ∀ arguments : Arguments,
      (arguments.get? placeholder.key = none ∨ arguments.get? placeholder.key = some .null) →
        (engine.rich key language arguments).children[i]? = some { content := "null" }
  /-- A rich text keeps its text, its children and what it does on hovering and clicking; its color
  and decorations are those of the placeholder. -/
  rich : ∀ {i : Nat} {placeholder : Placeholder},
    tokens[i]? = some (.placeholder placeholder) → ∀ (arguments : Arguments) (text : RichText),
      arguments.get? placeholder.key = some (.rich text) →
        (engine.rich key language arguments).children[i]? = some
          { content := text.content
            children := text.children
            style :=
              { color := placeholder.style.color
                decorations := placeholder.style.decorations
                hover := text.style.hover
                click := text.style.click } }
  /-- A value is shown as the message that its formatter names, without arguments, or else as its
  text in the style of the placeholder. -/
  value : ∀ {i : Nat} {placeholder : Placeholder},
    tokens[i]? = some (.placeholder placeholder) → ∀ (arguments : Arguments) (value : Value),
      arguments.get? placeholder.key = some (.value value) →
        (engine.rich key language arguments).children[i]? = some
          (match engine.formatters.redirect? value placeholder.parameter with
          | some target => engine.rich target language Dict.empty
          | none => { content := value.text, style := placeholder.style })

section Fill

variable {arguments : Arguments} {placeholder : Placeholder}

/-- A placeholder takes from the arguments what its key is bound to. -/
theorem fill_congr {others : Arguments}
    (agree : arguments.get? placeholder.key = others.get? placeholder.key) :
    engine.fill language arguments placeholder = engine.fill language others placeholder := by
  unfold fill
  rw [agree]

theorem fill_of_missing (missing : arguments.get? placeholder.key = none ∨
      arguments.get? placeholder.key = some .null) :
    engine.fill language arguments placeholder = { content := "null" } := by
  unfold fill
  rcases missing with missing | missing
  · rw [missing]
    rfl
  · rw [missing]
    rfl

theorem fill_of_value {value : Value}
    (bound : arguments.get? placeholder.key = some (.value value)) :
    engine.fill language arguments placeholder =
      match engine.formatters.redirect? value placeholder.parameter with
      | some target => engine.rich target language Dict.empty
      | none => { content := value.text, style := placeholder.style } := by
  simp only [fill, bound]
  cases engine.formatters.redirect? value placeholder.parameter with
  | none => rfl
  | some target => rfl

end Fill

/-- **A rich message is its tokens, each with its own binding**, for every compiled message and the
usual way of joining parts. -/
theorem showsTokens (joined : engine.joiner = RichText.join)
    (resolved : engine.entry key language = some entry) :
    ShowsTokens engine key language entry.tokens := by
  have children := children_rich joined resolved
  have shown : ∀ {i : Nat} {token : Token}, entry.tokens[i]? = some token → ∀ arguments,
      (engine.rich key language arguments).children[i]? =
        some (engine.child language arguments token) := by
    intro i token at_i arguments
    rw [children, List.getElem?_map, at_i]
    rfl
  exact {
    length_eq := fun arguments => by rw [children, List.length_map]
    literal := shown
    placeholder_congr := by
      intro i placeholder at_i arguments others agree
      rw [shown at_i, shown at_i, child, child, fill_congr agree]
    unbound := by
      intro i placeholder at_i arguments missing
      rw [shown at_i, child, fill_of_missing missing]
    rich := by
      intro i placeholder at_i arguments text bound
      rw [shown at_i, child, fill, bound]
      rfl
    value := by
      intro i placeholder at_i arguments value bound
      rw [shown at_i, child, fill_of_value bound] }

/-- A guest that can be clicked on. -/
def guest : RichText :=
  { content := "Ada"
    style := { color := some (.named .gold), click := some (.runCommand "/who Ada") }
    children := [RichText.text "!"] }

theorem showsTokens_welcome :
    reception.entry "welcome" german = some (MessageEntry.compile welcome) ∧
      ShowsTokens reception "welcome" german (compile welcome) ∧
      (∀ arguments : Arguments, arguments.get? "guest" = some (.rich guest) →
        (reception.rich "welcome" german arguments).children[0]? = some
          { content := "Ada"
            children := [RichText.text "!"]
            style :=
              { color := some (.named .red)
                decorations := { bold := true }
                click := some (.runCommand "/who Ada") } }) := by
  have resolved : reception.entry "welcome" german = some (MessageEntry.compile welcome) := rfl
  have shows : ShowsTokens reception "welcome" german (compile welcome) := showsTokens rfl resolved
  have cut : segments welcome.toList =
      [.style '&' (.color 'c'), .style '&' (.decoration 'l'), .placeholder ⟨"guest".toList, none⟩,
        .style '&' (.reset 'r'), .literal " and ".toList, .placeholder ⟨"host".toList, none⟩] := by
    cbv
  have first : (compile welcome)[0]? = some (.placeholder
      { key := "guest"
        parameter := none
        style := { color := some (.named .red), decorations := { bold := true } } }) := by
    rw [compile, cut]
    rfl
  exact ⟨resolved, shows, fun arguments bound => shows.rich first arguments guest bound⟩

end Phrasebook.Engine

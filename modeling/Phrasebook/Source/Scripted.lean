import Phrasebook.Source.Basic

/-!
# Scripted sources

A scripted source answers what it was told to answer, whatever languages it is asked for, and
keeps a record of the loads it was asked for.
-/

namespace Phrasebook

/-- What loading a bundle leads to. -/
inductive Outcome where
  | answer (result : Except LoadError Messages)
  | never

/-- A source with an outcome for each bundle and the record of its loads, the first one first. -/
structure ScriptedSource where
  outcomes : Dict String Outcome
  calls : List (String × List String) := []

namespace ScriptedSource

/-- The outcome of loading a bundle; a bundle without one has no messages. -/
def outcome (source : ScriptedSource) (bundle : String) : Outcome :=
  (source.outcomes.get? bundle).getD (.answer (.ok Dict.empty))

/-- Sets the outcome of loading a bundle. -/
def script (source : ScriptedSource) (bundle : String) (outcome : Outcome) : ScriptedSource :=
  { source with outcomes := source.outcomes.insert bundle outcome }

/-- Loads a bundle. -/
def load (bundle : String) (languages : List Language) :
    Loading ScriptedSource (Except LoadError Messages) := do
  modify fun source =>
    { source with calls := source.calls ++ [(bundle, languages.map Language.identifier)] }
  let source ← get
  match source.outcome bundle with
  | .answer result => pure result
  | .never => failure

instance : MessageSource ScriptedSource where
  load := load
  pauses _ := true

theorem load_of_outcome {source : ScriptedSource} {bundle : String}
    {result : Except LoadError Messages} (set : source.outcome bundle = .answer result)
    (languages : List Language) :
    (MessageSource.load bundle languages : Loading ScriptedSource _) source =
      (some result, { source with
        calls := source.calls ++ [(bundle, languages.map Language.identifier)] }) := by
  show (match source.outcome bundle with
    | .answer result => (pure result : Loading ScriptedSource _)
    | .never => failure) { source with calls := _ } = _
  rw [set]
  rfl

end ScriptedSource

end Phrasebook

import Schemata.Definition
import Schemata.Schema.Edit
import Schemata.Schema.Inference
import Schemata.Script.Reading
import Schemata.Workspace.Listeners

/-!
# Workspaces

A workspace holds a schema that is edited, and tells its listeners about every change. What an
operation does to the schema and which events it emits does not depend on the listeners.
-/
namespace Schemata.Workspace

inductive Operation where
  /-- Reads a script, whatever its issues, in the dialect of a name. -/
  | load (script : String) (dialect : Option String)
  | replace (schema : Schema)
  | addTable (table : Table)
  | removeTable (name : String)
  | clear
  /-- Adds the relationships that can be inferred. -/
  | infer
  /-- Writes the schema in the dialect of a name. -/
  | export (dialect : Option String)

/-- What an operation answers. -/
inductive Answer where
  | done
  | removed (found : Bool)
  | inferred (relationships : List Relationship)
  | script (text : String)
  /-- The script cannot be written. -/
  | refused (length : Text.LongNumber)
deriving DecidableEq

/-- What an operation leaves behind. -/
structure Effect where
  schema : Schema
  answer : Answer := .done
  events : List Event := []

/-- The script of a schema, if it can be written; a schema without tables has an empty one. -/
def exported (s : Schema) (d : Dialect) : Answer :=
  if s.tables = [] then .script ""
  else match s.checkedScript d with
    | .ok text => .script text
    | .error length => .refused length

/-- What an operation does to a schema, given the tokenizer of each dialect. -/
def Operation.effect (lexing : Dialect → Tokenizer) (settings : Settings) (s : Schema) :
    Operation → Effect
  | .load script dialect =>
    { schema := Script.readSchema (lexing (Dialect.forReading settings dialect)) script
      events := [.reset, .changed] }
  | .replace schema => { schema := schema, events := [.changed] }
  | .addTable t => { schema := s.addTable t, events := [.changed] }
  | .removeTable name =>
    match s.removeTable? name with
    | none => { schema := s, answer := .removed false }
    | some rest => { schema := rest, answer := .removed true, events := [.changed] }
  | .clear => { schema := {}, events := [.reset] }
  | .infer => { schema := s.infer, answer := .inferred s.inferred }
  | .export dialect =>
    { schema := s, answer := exported s (Dialect.resolve settings dialect) }

end Workspace

/-- A schema that is edited, with those who hear of its changes. -/
structure Workspace (Memory Listener : Type) where
  schema : Schema := {}
  registry : Workspace.Registry Memory Listener

namespace Workspace

variable {Memory Listener : Type} [DecidableEq Listener]

/-- Carries out an operation, given the tokenizer of each dialect, and delivers its events with the
schema after it. -/
def performWith (lexing : Dialect → Tokenizer) (settings : Settings)
    (behaviour : Behaviour Memory Listener) (w : Workspace Memory Listener) (op : Operation) :
    Workspace Memory Listener × Answer × List (Delivery Listener) :=
  let effect := op.effect lexing settings w.schema
  let (registry, heard) := w.registry.notifyAll behaviour effect.schema effect.events
  (⟨effect.schema, registry⟩, effect.answer, heard)

def perform (settings : Settings) (behaviour : Behaviour Memory Listener)
    (w : Workspace Memory Listener) (op : Operation) :
    Workspace Memory Listener × Answer × List (Delivery Listener) :=
  performWith Dialect.lexemes settings behaviour w op

end Schemata.Workspace

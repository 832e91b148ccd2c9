import Schemata.Schema.Basic

/-!
# Listeners

Listeners are registered in a list, where one listener may stand several times. An event is
delivered to the registrations that are there when it starts; what listeners register or cancel on
the way counts from the next event on.
-/
namespace Schemata.Workspace

inductive Event where
  | changed
  | reset
deriving DecidableEq

def Event.name : Event → String
  | .changed => "schema_changed"
  | .reset => "schema_reset"

/-- A change of the registrations. -/
inductive RegistryChange (Listener : Type) where
  | subscribe (l : Listener)
  /-- Cancels the first registration of a listener, if there is one. -/
  | unsubscribe (l : Listener)

namespace RegistryChange

variable {Listener : Type} [DecidableEq Listener]

def apply (registered : List Listener) : RegistryChange Listener → List Listener
  | .subscribe l => registered ++ [l]
  | .unsubscribe l => registered.erase l

end RegistryChange

/-- What a listener does when it hears of an event: it may change its memory and the registrations.
Whether it fails in the end makes no difference to anyone else. -/
structure Reaction (Memory Listener : Type) where
  memory : Memory
  changes : List (RegistryChange Listener)

/-- How listeners react to an event with the schema after it. -/
abbrev Behaviour (Memory Listener : Type) :=
  Memory → Listener → Event → Schema → Reaction Memory Listener

/-- An event as one registration hears of it. -/
structure Delivery (Listener : Type) where
  listener : Listener
  event : Event
  schema : Schema
deriving DecidableEq

/-- The registrations with what the listeners remember. -/
structure Registry (Memory Listener : Type) where
  memory : Memory
  registered : List Listener

namespace Registry

variable {Memory Listener : Type} [DecidableEq Listener]

def apply (r : Registry Memory Listener) (changes : List (RegistryChange Listener)) :
    Registry Memory Listener :=
  { r with registered := changes.foldl RegistryChange.apply r.registered }

/-- Lets one listener hear of an event. -/
def hear (behaviour : Behaviour Memory Listener) (event : Event) (schema : Schema)
    (r : Registry Memory Listener) (l : Listener) : Registry Memory Listener :=
  let reaction := behaviour r.memory l event schema
  { r with memory := reaction.memory }.apply reaction.changes

/-- Delivers an event to the registrations that are there at its start, in order. -/
def notify (behaviour : Behaviour Memory Listener) (event : Event) (schema : Schema)
    (r : Registry Memory Listener) : Registry Memory Listener × List (Delivery Listener) :=
  (r.registered.foldl (hear behaviour event schema) r,
   r.registered.map (⟨·, event, schema⟩))

/-- Delivers several events one after the other. -/
def notifyAll (behaviour : Behaviour Memory Listener) (schema : Schema)
    (r : Registry Memory Listener) : List Event →
    Registry Memory Listener × List (Delivery Listener)
  | [] => (r, [])
  | event :: events =>
    let (r, heard) := r.notify behaviour event schema
    let (r, later) := r.notifyAll behaviour schema events
    (r, heard ++ later)

end Registry

end Schemata.Workspace

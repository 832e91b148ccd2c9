import Mathlib.Logic.Relation
import Mathlib.Tactic
import Schemata.Workspace.Basic

/-!
# Deliveries

An event reaches its listeners call by call, and while a call lasts the listener may remember
something, subscribe, cancel registrations, and fail. Taken action by action, a delivery comes to an
end, and to one end only: those who were registered when it started have been called once each, in
order, whatever they did to the registrations on the way. What an operation does to the schema and
what it answers is the same as if nobody listened.
-/
namespace Schemata.Workspace

variable {Memory Listener : Type}

/-! ## Calls -/

/-- One thing that a listener does while it is called. -/
inductive Action (Memory Listener : Type) where
  | remember (memory : Memory)
  | change (c : RegistryChange Listener)
  /-- Fails, so that nothing else is done in this call. -/
  | fail

/-- What listeners do, in order, when they hear of an event with the schema after it. -/
abbrev Conduct (Memory Listener : Type) :=
  Memory → Listener → Event → Schema → List (Action Memory Listener)

/-- What some actions come to, up to the first failure. -/
def Reaction.ofActions (memory : Memory) :
    List (Action Memory Listener) → Reaction Memory Listener
  | [] => ⟨memory, []⟩
  | .remember memory :: actions => ofActions memory actions
  | .change c :: actions =>
    let later := ofActions memory actions
    ⟨later.memory, c :: later.changes⟩
  | .fail :: _ => ⟨memory, []⟩

/-- The reactions that a conduct comes to. -/
def Conduct.behaviour (conduct : Conduct Memory Listener) : Behaviour Memory Listener :=
  fun memory l event schema => Reaction.ofActions memory (conduct memory l event schema)

/-! ## One event -/

/-- A delivery under way. -/
structure Round (Memory Listener : Type) where
  registry : Registry Memory Listener
  /-- What the listener that was called last has still to do. -/
  actions : List (Action Memory Listener)
  /-- The registrations that are still to be called. -/
  due : List Listener
  heard : List (Delivery Listener)

namespace Round

/-- The calls are due to those who are registered when the delivery starts. -/
def start (r : Registry Memory Listener) : Round Memory Listener := ⟨r, [], r.registered, []⟩

def Over (d : Round Memory Listener) : Prop := d.actions = [] ∧ d.due = []

variable [DecidableEq Listener]

/-- One action of the listener that is being called, or the next call. A failure ends the call and
nothing else. -/
inductive Step (conduct : Conduct Memory Listener) (event : Event) (schema : Schema) :
    Round Memory Listener → Round Memory Listener → Prop
  | remember {r memory actions due heard} :
    Step conduct event schema ⟨r, .remember memory :: actions, due, heard⟩
      ⟨{ r with memory := memory }, actions, due, heard⟩
  | change {r c actions due heard} :
    Step conduct event schema ⟨r, .change c :: actions, due, heard⟩
      ⟨r.apply [c], actions, due, heard⟩
  | fail {r actions due heard} :
    Step conduct event schema ⟨r, .fail :: actions, due, heard⟩ ⟨r, [], due, heard⟩
  | call {r l due heard} :
    Step conduct event schema ⟨r, [], l :: due, heard⟩
      ⟨r, conduct r.memory l event schema, due, heard ++ [⟨l, event, schema⟩]⟩

abbrev Steps (conduct : Conduct Memory Listener) (event : Event) (schema : Schema) :
    Round Memory Listener → Round Memory Listener → Prop :=
  Relation.ReflTransGen (Step conduct event schema)

variable {conduct : Conduct Memory Listener} {event : Event} {schema : Schema}
  {d d' e : Round Memory Listener}

theorem Step.unique (h : Step conduct event schema d d') (h' : Step conduct event schema d e) :
    d' = e := by
  cases h <;> cases h' <;> rfl

theorem Step.not_over (h : Step conduct event schema d d') : ¬d.Over := by
  rintro ⟨hactions, hdue⟩
  cases h with
  | call => cases hdue
  | _ => cases hactions

/-- A call that is made is no longer due, and no other call is lost or added. -/
theorem Step.calls (h : Step conduct event schema d d') :
    d'.heard ++ d'.due.map (⟨·, event, schema⟩) = d.heard ++ d.due.map (⟨·, event, schema⟩) := by
  cases h with
  | call => simp
  | _ => rfl

theorem Steps.calls (h : Steps conduct event schema d d') :
    d'.heard ++ d'.due.map (⟨·, event, schema⟩) = d.heard ++ d.due.map (⟨·, event, schema⟩) := by
  induction h with
  | refl => rfl
  | tail _ hstep ih => exact hstep.calls.trans ih

/-- A call does to the registry what its actions come to. -/
theorem steps_actions (r : Registry Memory Listener) (actions : List (Action Memory Listener))
    (due : List Listener) (heard : List (Delivery Listener)) :
    Steps conduct event schema ⟨r, actions, due, heard⟩
      ⟨{ r with memory := (Reaction.ofActions r.memory actions).memory }.apply
        (Reaction.ofActions r.memory actions).changes, [], due, heard⟩ := by
  induction actions generalizing r with
  | nil => exact Relation.ReflTransGen.refl
  | cons action actions ih =>
    cases action with
    | remember memory =>
      exact Relation.ReflTransGen.head Step.remember (ih { r with memory := memory })
    | change c => exact Relation.ReflTransGen.head Step.change (ih (r.apply [c]))
    | fail => exact Relation.ReflTransGen.single Step.fail

/-- One call after the other, all that are due are made. -/
theorem steps_due (r : Registry Memory Listener) (due : List Listener)
    (heard : List (Delivery Listener)) :
    Steps conduct event schema ⟨r, [], due, heard⟩
      ⟨due.foldl (Registry.hear conduct.behaviour event schema) r, [], [],
        heard ++ due.map (⟨·, event, schema⟩)⟩ := by
  induction due generalizing r heard with
  | nil => simpa using Relation.ReflTransGen.refl
  | cons l due ih =>
    have hcall : Steps conduct event schema ⟨r, [], l :: due, heard⟩
        ⟨r.hear conduct.behaviour event schema l, [], due, heard ++ [⟨l, event, schema⟩]⟩ :=
      Relation.ReflTransGen.head Step.call (steps_actions r _ _ _)
    have hrest := ih (r.hear conduct.behaviour event schema l) (heard ++ [⟨l, event, schema⟩])
    rw [List.append_assoc] at hrest
    exact hcall.trans hrest

/-- A delivery comes to an end, which is the same however it is reached. -/
theorem steps_over_iff (r : Registry Memory Listener) :
    Steps conduct event schema (start r) d ∧ d.Over ↔
      d = ⟨(r.notify conduct.behaviour event schema).1, [], [],
        (r.notify conduct.behaviour event schema).2⟩ := by
  have hend : Steps conduct event schema (start r)
      ⟨(r.notify conduct.behaviour event schema).1, [], [],
        (r.notify conduct.behaviour event schema).2⟩ := steps_due r r.registered []
  constructor
  · rintro ⟨hsteps, hover⟩
    have hunique : Relator.RightUnique (Step conduct event schema) := fun _ _ _ h h' => h.unique h'
    rcases Relation.ReflTransGen.total_of_right_unique hunique hsteps hend with h | h
    · rcases Relation.ReflTransGen.cases_head h with h | ⟨_, hstep, -⟩
      · exact h
      · exact absurd hover hstep.not_over
    · rcases Relation.ReflTransGen.cases_head h with h | ⟨_, hstep, -⟩
      · exact h.symm
      · exact absurd ⟨rfl, rfl⟩ hstep.not_over
  · rintro rfl
    exact ⟨hend, rfl, rfl⟩

end Round

/-! ## Events one after the other -/

/-- An event with the registrations when it starts and when all calls have been made. -/
structure Notice (Memory Listener : Type) where
  event : Event
  before : Registry Memory Listener
  after : Registry Memory Listener

namespace Notice

/-- One call for each registration that is there when the event starts. -/
def calls (schema : Schema) (n : Notice Memory Listener) : List (Delivery Listener) :=
  n.before.registered.map (⟨·, n.event, schema⟩)

/-- At every moment the calls that have been made and those that are due are these, and the delivery
comes to an end in one way. -/
structure Delivered [DecidableEq Listener] (conduct : Conduct Memory Listener) (schema : Schema)
    (n : Notice Memory Listener) : Prop where
  meanwhile : ∀ d, Round.Steps conduct n.event schema (Round.start n.before) d →
    d.heard ++ d.due.map (⟨·, n.event, schema⟩) = n.calls schema
  ended : ∀ d, Round.Steps conduct n.event schema (Round.start n.before) d ∧ d.Over ↔
    d = ⟨n.after, [], [], n.calls schema⟩

/-- Each notice begins where the one before it ends. -/
inductive Chain : Registry Memory Listener → List (Notice Memory Listener) →
    Registry Memory Listener → Prop
  | nil (r : Registry Memory Listener) : Chain r [] r
  | cons {r : Registry Memory Listener} (n : Notice Memory Listener)
    {notices : List (Notice Memory Listener)} (h : Chain n.after notices r) :
    Chain n.before (n :: notices) r

end Notice

/-! ## Commands -/

/-- What is done to a workspace from outside. -/
inductive Command (Memory Listener : Type) where
  | operate (op : Operation)
  /-- Subscribes listeners and cancels registrations. -/
  | register (react : Memory → Reaction Memory Listener)

namespace Command

def operation? : Command Memory Listener → Option Operation
  | operate op => some op
  | register _ => none

def isOperation (c : Command Memory Listener) : Bool := c.operation?.isSome

end Command

theorem filterMap_operation?_filter (commands : List (Command Memory Listener)) :
    (commands.filter Command.isOperation).filterMap Command.operation? =
      commands.filterMap Command.operation? := by
  rw [List.filterMap_filter]
  refine List.filterMap_congr fun command _ => ?_
  cases command <;> rfl

section

variable [DecidableEq Listener]

theorem exists_notices (conduct : Conduct Memory Listener) (schema : Schema)
    (r : Registry Memory Listener) (events : List Event) :
    ∃ notices, Notice.Chain r notices (r.notifyAll conduct.behaviour schema events).1 ∧
      notices.map (·.event) = events ∧ (∀ n ∈ notices, n.Delivered conduct schema) ∧
        (r.notifyAll conduct.behaviour schema events).2 = notices.flatMap (·.calls schema) := by
  induction events generalizing r with
  | nil => exact ⟨[], Notice.Chain.nil r, rfl, by simp, rfl⟩
  | cons event events ih =>
    let n : Notice Memory Listener := ⟨event, r, (r.notify conduct.behaviour event schema).1⟩
    obtain ⟨notices, hchain, hevents, hdelivered, hheard⟩ := ih n.after
    have hn : n.Delivered conduct schema := ⟨fun _ h => h.calls, fun _ => Round.steps_over_iff r⟩
    refine ⟨n :: notices, Notice.Chain.cons n hchain, ?_, ?_, ?_⟩
    · rw [List.map_cons, hevents]
    · exact List.forall_mem_cons.mpr ⟨hn, hdelivered⟩
    · rw [List.flatMap_cons, ← hheard]
      rfl

/-! ## Sessions -/

/-- The events of an operation, which its answer decides. -/
def Operation.announced : Operation → Answer → List Event
  | .load _ _, _ => [.reset, .changed]
  | .replace _, _ => [.changed]
  | .addTable _, _ => [.changed]
  | .removeTable _, .removed true => [.changed]
  | .clear, _ => [.reset]
  | _, _ => []

theorem Operation.events_effect (lexing : Dialect → Tokenizer) (settings : Settings) (s : Schema)
    (op : Operation) :
    (op.effect lexing settings s).events =
      op.announced (op.effect lexing settings s).answer := by
  cases op with
  | removeTable name =>
    rw [Operation.effect]
    split <;> rfl
  | _ => rfl

/-- An operation as it went. -/
structure Entry (Memory Listener : Type) where
  before : Workspace Memory Listener
  operation : Operation
  after : Workspace Memory Listener
  answer : Answer
  heard : List (Delivery Listener)

/-- What is left of an operation when nobody listens. -/
def Entry.outcome (entry : Entry Memory Listener) : Schema × Answer :=
  (entry.after.schema, entry.answer)

/-- The operations of a session, in order. Registrations in between emit nothing. -/
def session (lexing : Dialect → Tokenizer) (settings : Settings)
    (behaviour : Behaviour Memory Listener) (w : Workspace Memory Listener) :
    List (Command Memory Listener) → List (Entry Memory Listener)
  | [] => []
  | .operate op :: commands =>
    let (next, answer, heard) := performWith lexing settings behaviour w op
    ⟨w, op, next, answer, heard⟩ :: session lexing settings behaviour next commands
  | .register react :: commands =>
    let reaction := react w.registry.memory
    let registry := { w.registry with memory := reaction.memory }.apply reaction.changes
    session lexing settings behaviour { w with registry := registry } commands

/-- The workspace with all registrations cancelled. -/
def unheard (w : Workspace Memory Listener) : Workspace Memory Listener :=
  { w with registry := { w.registry with registered := [] } }

/-- The outcomes of some operations on a schema alone. -/
def outcomes (lexing : Dialect → Tokenizer) (settings : Settings) (s : Schema) :
    List Operation → List (Schema × Answer)
  | [] => []
  | op :: ops =>
    let effect := op.effect lexing settings s
    (effect.schema, effect.answer) :: outcomes lexing settings effect.schema ops

/-- Schemas and answers do not depend on who listens. -/
theorem map_outcome_session (lexing : Dialect → Tokenizer) (settings : Settings)
    (behaviour : Behaviour Memory Listener) (w : Workspace Memory Listener)
    (commands : List (Command Memory Listener)) :
    (session lexing settings behaviour w commands).map Entry.outcome =
      outcomes lexing settings w.schema (commands.filterMap Command.operation?) := by
  induction commands generalizing w with
  | nil => rfl
  | cons command commands ih =>
    cases command with
    | operate op => exact congrArg (List.cons _) (ih _)
    | register react => exact ih _

/-- Each operation announces its events and no others. Each event reaches those who are registered
when it starts, once each and in order, with the schema after the change, whatever they do
meanwhile; and schemas and answers are those of the session in which nobody listens. -/
theorem session_delivered (lexing : Dialect → Tokenizer) (settings : Settings)
    (conduct : Conduct Memory Listener) (w : Workspace Memory Listener)
    (commands : List (Command Memory Listener)) :
    (∀ entry ∈ session lexing settings conduct.behaviour w commands,
      ∃ notices, Notice.Chain entry.before.registry notices entry.after.registry ∧
        notices.map (·.event) = entry.operation.announced entry.answer ∧
        (∀ n ∈ notices, n.Delivered conduct entry.after.schema) ∧
        entry.heard = notices.flatMap (·.calls entry.after.schema)) ∧
      (session lexing settings conduct.behaviour w commands).map Entry.outcome =
        (session lexing settings conduct.behaviour (unheard w)
          (commands.filter Command.isOperation)).map Entry.outcome := by
  constructor
  · induction commands generalizing w with
    | nil =>
      intro entry hentry
      cases hentry
    | cons command commands ih =>
      cases command with
      | register react => exact ih _
      | operate op =>
        refine List.forall_mem_cons.mpr ⟨?_, ih _⟩
        rw [← Operation.events_effect lexing settings w.schema op]
        exact exists_notices conduct _ w.registry _
  · rw [map_outcome_session, map_outcome_session, filterMap_operation?_filter]
    rfl

/-- One listener cancels itself and fails, another subscribes a third: both count from the next
event on. -/
example :
    let conduct : Conduct Unit String := fun _ l _ _ =>
      if l = "once" then [.change (.unsubscribe "once"), .fail, .change (.unsubscribe "view")]
      else if l = "parent" then [.change (.subscribe "child")] else []
    (session Dialect.lexemes {} conduct.behaviour ⟨{}, ⟨(), ["once", "parent", "view"]⟩⟩
      [.operate .clear, .operate (.replace {})]).map (·.heard.map (·.listener)) =
        [["once", "parent", "view"], ["parent", "view", "child"]] := by
  decide

end

end Schemata.Workspace

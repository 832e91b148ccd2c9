import Schemata.Proofs.Schema.Editing
import Schemata.Proofs.Script.Resolution
import Schemata.Workspace.Basic

/-!
# Runs of a workspace

A workspace that starts empty keeps the names of its schema apart and its references in step with
the relationships, whatever operations are carried out and in whatever order. Callers promise no
more than that of the schemas and tables that they hand over.
-/
namespace Schemata

/-- The invariant of a workspace. -/
structure Schema.Sound (s : Schema) : Prop where
  names : s.DistinctNames
  consistent : s.inconsistencies = []

theorem Schema.sound_empty : ({} : Schema).Sound :=
  ⟨⟨List.nodup_nil, by simp⟩, rfl⟩

namespace Workspace

/-- What callers promise of what they hand over. -/
def Operation.Admissible : Operation → Prop
  | .replace schema => schema.Sound
  | .addTable t => (t.fields.map (·.name)).Nodup
  | _ => True

section Step

variable (lexing : Dialect → Tokenizer) (settings : Settings)

theorem Operation.effect_sound {s : Schema} (h : s.Sound) {op : Operation} (hop : op.Admissible) :
    (op.effect lexing settings s).schema.Sound := by
  cases op with
  | load script dialect =>
    have hread :
        (Script.readSchema (lexing (Dialect.forReading settings dialect)) script).WellFormed :=
      Script.readScript_wellFormed _ _
    exact ⟨hread.distinctNames, hread.consistent⟩
  | replace schema => exact hop
  | addTable t =>
    exact ⟨h.names.addTable hop, Schema.inconsistencies_addTable h.names h.consistent hop⟩
  | removeTable name =>
    simp only [Operation.effect]
    split
    · exact h
    · next rest hrest =>
      exact ⟨h.names.removeTable? hrest,
        Schema.inconsistencies_removeTable? h.names h.consistent hrest⟩
  | clear => exact Schema.sound_empty
  | infer => exact ⟨h.names.infer, Schema.inconsistencies_infer h.consistent⟩
  | «export» dialect => exact h

end Step

section Run

variable {Memory Listener : Type} [DecidableEq Listener]

/-- The workspaces after each operation of a run, in order. -/
def states (lexing : Dialect → Tokenizer) (settings : Settings)
    (behaviour : Behaviour Memory Listener) (w : Workspace Memory Listener) :
    List Operation → List (Workspace Memory Listener)
  | [] => []
  | op :: ops =>
    let next := (performWith lexing settings behaviour w op).1
    next :: states lexing settings behaviour next ops

theorem states_sound (lexing : Dialect → Tokenizer) (settings : Settings)
    (behaviour : Behaviour Memory Listener) {w : Workspace Memory Listener} (hw : w.schema.Sound)
    {ops : List Operation} (hops : ∀ op ∈ ops, op.Admissible) :
    ∀ v ∈ states lexing settings behaviour w ops, v.schema.Sound := by
  induction ops generalizing w with
  | nil => intro v hv; cases hv
  | cons op ops ih =>
    have hnext : (performWith lexing settings behaviour w op).1.schema.Sound :=
      op.effect_sound lexing settings hw (hops op List.mem_cons_self)
    intro v hv
    rcases List.mem_cons.mp hv with rfl | hv
    · exact hnext
    · exact ih hnext (fun o ho => hops o (List.mem_cons_of_mem op ho)) v hv

/-- No order of operations brings an empty workspace out of step. -/
theorem states_empty_consistent (lexing : Dialect → Tokenizer) (settings : Settings)
    (behaviour : Behaviour Memory Listener) (registry : Registry Memory Listener)
    (ops : List Operation) (hops : ∀ op ∈ ops, op.Admissible) :
    ∀ w ∈ states lexing settings behaviour ⟨{}, registry⟩ ops,
      (w.schema.tables.map (·.name)).Nodup ∧
        (∀ t ∈ w.schema.tables, (t.fields.map (·.name)).Nodup) ∧
          w.schema.inconsistencies = [] := by
  intro w hw
  have h := states_sound lexing settings behaviour Schema.sound_empty hops w hw
  exact ⟨h.names.tables, h.names.fields, h.consistent⟩

/-- A table that refers to itself and to a missing table is added, replaced and removed, with other
operations in between. -/
theorem states_empty_consistent_orders :
    let orders : Table :=
      ⟨"orders", [{ name := "id", type := "int8", nullable := false, primaryKey := true },
        { name := "parent_id", foreignKey := some ⟨"orders", "id"⟩ },
        { name := "user_id", foreignKey := some ⟨"users", "id"⟩ }]⟩
    let users : Table := ⟨"users", [{ name := "id", nullable := false, primaryKey := true }]⟩
    let ops : List Operation :=
      [.addTable orders, .infer, .addTable users, .addTable { orders with fields := users.fields },
        .removeTable "users", .load "CREATE TABLE t (id SERIAL);" none, .replace ⟨[users], []⟩,
        .addTable orders, .removeTable "orders", .clear]
    (∀ op ∈ ops, op.Admissible) ∧
      ∀ w ∈ states Dialect.lexemes {} (fun (_ : Unit) (_ : String) _ _ => ⟨(), []⟩)
        ⟨{}, ⟨(), ["view"]⟩⟩ ops,
        (w.schema.tables.map (·.name)).Nodup ∧
          (∀ t ∈ w.schema.tables, (t.fields.map (·.name)).Nodup) ∧
            w.schema.inconsistencies = [] := by
  intro orders users ops
  have hops : ∀ op ∈ ops, op.Admissible := by
    simp only [ops, List.forall_mem_cons, Operation.Admissible]
    refine ⟨by decide, trivial, by decide, by decide, trivial, trivial, ⟨⟨?_, ?_⟩, ?_⟩, by decide,
      trivial, trivial, by simp⟩ <;> decide
  exact ⟨hops, states_empty_consistent _ _ _ _ ops hops⟩

end Run

end Workspace

end Schemata

import Mathlib.Tactic
import Schemata.CommandLine.Run
import Schemata.Proofs.Conversion
import Schemata.Proofs.Json.Printable
import Schemata.Proofs.Schema.Saved

/-!
# Exporting schemas

What one command prints can be the input of another one. A schema that is exported by parsing a
script is generated from as if it had never been a document.
-/
namespace Schemata

open Json (Textual)

/-! ## Documents of schemas -/

theorem Reference.textual (r : Reference) : Textual r.toJson :=
  .object (by simp [Textual.string])

theorem Field.textual (f : Field) : Textual f.toJson := by
  refine .object fun m hm => ?_
  simp only [List.mem_append, List.mem_cons, List.not_mem_nil, or_false, Option.mem_toList,
    Option.map_eq_some_iff] at hm
  rcases hm with ((rfl | rfl | rfl | rfl) | ⟨r, -, rfl⟩) | ⟨v, -, rfl⟩
  · exact .string f.name
  · exact .string f.type
  · exact .bool f.nullable
  · exact .bool f.primaryKey
  · exact r.textual
  · exact .string v

theorem Json.Textual.array_map {α : Type} {toJson : α → Json} (h : ∀ a, Textual (toJson a))
    (as : List α) : Textual (.array (as.map toJson)) := by
  refine .array fun json hjson => ?_
  obtain ⟨a, -, rfl⟩ := List.mem_map.mp hjson
  exact h a

theorem Table.textual (t : Table) : Textual t.toJson :=
  .object (by simp [Textual.string, Textual.array_map Field.textual])

theorem Relationship.textual (r : Relationship) : Textual r.toJson :=
  .object (by simp [Textual.string])

theorem Schema.textual (s : Schema) : Textual s.toJson :=
  .object (by simp [Textual.array_map Table.textual, Textual.array_map Relationship.textual])

/-- Of a column, what is missing is left out of its document, and nothing else. -/
theorem Field.member?_toJson (f : Field) :
    f.toJson.member? "foreignKey" = f.foreignKey.map Reference.toJson ∧
      f.toJson.member? "defaultValue" = f.defaultValue.map Json.string := by
  rw [Field.toJson]
  cases f.foreignKey <;> cases f.defaultValue <;>
    simp [Json.member?, Json.lookup]

namespace CommandLine

variable {settings : Settings} {stamp : Stamp} {inputs : Inputs} {arguments : List String}
  {name text : String} {dialect : Option String}

/-! ## Inputs -/

/-- Whether an input holds a text. -/
def Inputs.Holds (i : Inputs) (name text : String) : Prop :=
  (if name = standardInput then some i.standard else i.file name) = some text.toUTF8

theorem decode?_toUTF8 (h : '\r' ∉ text.toList) : decode? text.toUTF8 = some text := by
  have hutf8 : String.fromUTF8? text.toUTF8 = some text := by
    rw [String.fromUTF8?, String.toUTF8_eq_toByteArray, dif_pos text.isValidUTF8]
    rfl
  rw [decode?, hutf8, Option.map_some, unifyLineBreaks_eq_self h, String.ofList_toList]

/-- A text without carriage returns is read as it is. -/
theorem Inputs.Holds.exists_text (h : inputs.Holds name text) (hreturn : '\r' ∉ text.toList) :
    ∃ left, inputs.text name = .ok (text, left) := by
  rw [Inputs.Holds] at h
  split_ifs at h with hname
  · refine ⟨{ inputs with standard := .empty }, ?_⟩
    rw [Inputs.text, Inputs.read?, if_pos hname, Option.some.inj h, decode?_toUTF8 hreturn]
    rfl
  · refine ⟨inputs, ?_⟩
    rw [Inputs.text, Inputs.read?, if_neg hname, h, Option.bind_some, decode?_toUTF8 hreturn]
    rfl

/-! ## Single commands -/

/-- The document of a schema, as it is exported. -/
def exported (s : Schema) : String := line (s.toJson.write .ascii)

/-- A lenient reading is never refused. -/
theorem parse_lenient (h : settings.strict = false) (dialect : Option String) (text : String) :
    parse settings dialect false false text =
      .ok { output := exported ((Dialect.forReading settings dialect).readSchema text) } := by
  have hmode : Script.Mode.ofSettings settings = .lenient := by simp [Script.Mode.ofSettings, h]
  simp [parse, hmode, Script.Report.accept, Dialect.readSchema, Script.readSchema, exported]

/-- The script of a schema is generated from its document. -/
theorem generate_exported {s : Schema} (h : s.WellFormed) (d : Dialect) :
    generate d (exported s) = .ok { output := line (s.script d) } := by
  have hloaded : Document.schema s.toJson = .ok s := Document.schema_respelled (.refl _)
  have hscript : s.checkedScript d = .ok (s.script d) := by
    rw [Schema.checkedScript, h.longLength?_eq_none]
    rfl
  rw [generate, exported, line, s.textual.read?_write]
  simp only [hloaded, hscript]

theorem return_not_mem_exported (s : Schema) : '\r' ∉ (exported s).toList := by
  intro hmem
  rw [exported, line, Json.write, String.toList_append, String.toList_ofList, List.mem_append]
    at hmem
  rcases hmem with hmem | hmem
  · have hprints := s.textual.prints .ascii 0 '\r' hmem
    revert hprints
    simp [Json.Style.Prints]
  · revert hmem
    decide

/-! ## Commands in a row -/

theorem run_parse (hstrict : settings.strict = false) {input : String}
    (hcommand : Command.ofLine arguments = .ok (.parse input dialect false false))
    (hreturn : '\r' ∉ text.toList) (hinput : inputs.Holds input text) :
    run settings stamp inputs arguments = .finished
      { output := exported ((Dialect.forReading settings dialect).readSchema text) } := by
  obtain ⟨left, hread⟩ := hinput.exists_text hreturn
  have hrun : (Command.parse input dialect false false).run settings stamp inputs =
      .ok { output := exported ((Dialect.forReading settings dialect).readSchema text) } := by
    simp only [Command.run, hread, Bind.bind, Except.bind, parse_lenient hstrict]
  rw [run, hcommand]
  simp only [hrun]

theorem run_generate {s : Schema} (h : s.WellFormed) {input : String}
    (hcommand : Command.ofLine arguments = .ok (.generate input dialect))
    (hinput : inputs.Holds input (exported s)) :
    run settings stamp inputs arguments = .finished
      { output := line (s.script (Dialect.resolve settings dialect)) } := by
  obtain ⟨left, hread⟩ := hinput.exists_text (return_not_mem_exported s)
  have hrun : (Command.generate input dialect).run settings stamp inputs =
      .ok { output := line (s.script (Dialect.resolve settings dialect)) } := by
    simp only [Command.run, hread, Bind.bind, Except.bind, generate_exported h]
  rw [run, hcommand]
  simp only [hrun]

end CommandLine

/-- Exporting a schema loses nothing. Its document leaves out what is missing in the schema and
nothing else, and is loaded as the schema, whichever names the members are spelled with. Parsing a
script in one dialect and generating from what was printed prints the script of its schema in
another one. -/
theorem schema_export_lossless :
    (∀ s : Schema, Document.schema s.toJson = .ok s ∧
      ∀ json, Json.Respelled s.toJson json → Document.schema json = .ok s) ∧
    (∀ f : Field, f.toJson.member? "foreignKey" = f.foreignKey.map Reference.toJson ∧
      f.toJson.member? "defaultValue" = f.defaultValue.map Json.string) ∧
    ∀ (settings : Settings) (parsing generating : List String) (input input' : String)
      (dialect dialect' : Option String) (text : String), settings.strict = false →
      CommandLine.Command.ofLine parsing = .ok (.parse input dialect false false) →
      CommandLine.Command.ofLine generating = .ok (.generate input' dialect') →
      '\r' ∉ text.toList → ∃ document,
        (∀ stamp inputs, CommandLine.Inputs.Holds inputs input text →
          CommandLine.run settings stamp inputs parsing = .finished { output := document }) ∧
        ∀ stamp inputs, CommandLine.Inputs.Holds inputs input' document →
          CommandLine.run settings stamp inputs generating = .finished
            { output :=
                CommandLine.line (((Dialect.forReading settings dialect).readSchema text).script
                  (Dialect.resolve settings dialect')) } := by
  refine ⟨fun s => ⟨Document.schema_respelled (.refl _), fun _ => Document.schema_respelled⟩,
    Field.member?_toJson, ?_⟩
  intro settings parsing generating input input' dialect dialect' text hstrict hparse hgenerate
    hreturn
  let s := (Dialect.forReading settings dialect).readSchema text
  have hwell : s.WellFormed := Script.readSchema_wellFormed _ text
  exact ⟨CommandLine.exported s,
    fun stamp inputs => CommandLine.run_parse hstrict hparse hreturn,
    fun stamp inputs => CommandLine.run_generate hwell hgenerate⟩

/-- A relationship with names of both kinds, and a script that is parsed from a file and generated
from the standard input. -/
theorem schema_export_lossless_shop :
    Document.schema (.object [("tables", .array []), ("relationships", .array [.object
      [("from_table", .string "orders"), ("fromField", .string "buyer"),
       ("to_table", .string "users"), ("toField", .string "id")]])]) =
        .ok ⟨[], [⟨"orders", "buyer", "users", "id"⟩]⟩ ∧
    ∃ document, ∀ stamp,
      CommandLine.run {} stamp ⟨.empty, fun _ => some "CREATE TABLE users (id INT)".toUTF8⟩
          ["parse", "--dialect", "mysql", "shop.sql"] = .finished { output := document } ∧
      CommandLine.run {} stamp ⟨document.toUTF8, fun _ => none⟩ ["generate", "--dialect=sqlite"] =
        .finished
          { output :=
              CommandLine.line (((Dialect.forReading {} (some "mysql")).readSchema
                "CREATE TABLE users (id INT)").script (Dialect.resolve {} (some "sqlite"))) } := by
  have hspelled : Json.Respelled
      (Schema.toJson ⟨[], [⟨"orders", "buyer", "users", "id"⟩]⟩)
      (.object [("tables", .array []), ("relationships", .array [.object
        [("from_table", .string "orders"), ("fromField", .string "buyer"),
         ("to_table", .string "users"), ("toField", .string "id")]])]) := by
    refine .object (.cons ⟨by decide, .refl _⟩ (.cons ⟨by decide, .array (.cons (.object ?_) .nil)⟩
      .nil))
    exact .cons ⟨by decide, .refl _⟩ (.cons ⟨by decide, .refl _⟩
      (.cons ⟨by decide, .refl _⟩ (.cons ⟨by decide, .refl _⟩ .nil)))
  obtain ⟨hload, -, hrun⟩ := schema_export_lossless
  obtain ⟨document, hparse, hgenerate⟩ := hrun {} ["parse", "--dialect", "mysql", "shop.sql"]
    ["generate", "--dialect=sqlite"] "shop.sql" "-" (some "mysql") (some "sqlite")
    "CREATE TABLE users (id INT)" rfl (by rfl) (by rfl) (by decide)
  exact ⟨(hload _).2 _ hspelled, document, fun stamp =>
    ⟨hparse stamp _ rfl, hgenerate stamp _ rfl⟩⟩

end Schemata

import Schemata.Definition

/-!
# Instructions for a dialect

A text that tells a writer of scripts which spellings to use, with rules in order, the particulars
of the dialect and an example.
-/
namespace Schemata.Prompt

def generalRules : List String :=
  ["Include appropriate data types",
   "Add PRIMARY KEY constraints where appropriate",
   "Include FOREIGN KEY relationships when tables are related",
   "Use meaningful column names",
   "Add NOT NULL constraints where appropriate",
   "Only return the SQL statements, no explanations",
   "Separate multiple tables with semicolons",
   "Use proper indentation and formatting"]

/-- The kinds of types that the text names. -/
def typeKinds : List TypeKind := [.integer, .text, .boolean, .timestamp, .decimal]

/-- Two tables, one of which refers to the other. -/
def exampleSchema : Schema where
  tables :=
    [{ name := "users",
       fields :=
         [{ name := "id", type := "int8", nullable := false, primaryKey := true },
          { name := "email", nullable := false },
          { name := "name", nullable := false },
          { name := "created_at", type := "timestamp" }] },
     { name := "posts",
       fields :=
         [{ name := "id", type := "int8", nullable := false, primaryKey := true },
          { name := "user_id", type := "int8", foreignKey := some ⟨"users", "id"⟩ },
          { name := "title", nullable := false },
          { name := "content" },
          { name := "published", type := "boolean" }] }]
  relationships := [⟨"posts", "user_id", "users", "id"⟩]

def numberedFrom (n : Nat) : List String → List String
  | [] => []
  | rule :: rules => (toString n ++ ". " ++ rule) :: numberedFrom (n + 1) rules

/-- What holds for one dialect only. -/
def particulars (s : Spelling) : List String :=
  ["Use " ++ s.autoIncrement ++ " for auto-incrementing primary keys",
   "Data types: " ++ ", ".intercalate ((typeKinds.map s.typeName).eraseDups),
   "Current time default: DEFAULT " ++ s.now,
   "UUID default: DEFAULT " ++ s.uuid,
   "Foreign keys: column_name " ++ s.typeName .integer ++ " " ++ s.foreignKey "table" "id"] ++
  s.notes

def text (d : Dialect) : String :=
  let s := d.spelling
  let rules := ("Use " ++ s.displayName ++ " syntax specifically") :: generalRules
  "You are a SQL database schema expert. Generate clean, production-ready SQL CREATE TABLE " ++
    "statements based on user requirements.\n\nRules:\n" ++
    "\n".intercalate (numberedFrom 1 rules) ++ "\n\n" ++
    s.displayName ++ " Specific Rules:\n" ++
    "\n".intercalate ((particulars s).map ("- " ++ ·)) ++ "\n\n" ++
    "Example output:\n" ++ exampleSchema.script d

end Schemata.Prompt

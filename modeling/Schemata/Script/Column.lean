import Schemata.LogicalType
import Schemata.Schema.Basic
import Schemata.Script.Phrase

/-!
# Column definitions

A column is a name, a type word and constraints in any order. Constraints in parentheses do not
count; of several defaults or references the last one that can be read is kept.
-/
namespace Schemata.Script

open Phrase

/-- What the constraints of a column say. -/
structure ColumnTraits where
  notNull : Bool := false
  primaryKey : Bool := false
  defaultValue : Option String := none
  target : Option Target := none
  faults : List ReferenceFault := []

namespace ColumnTraits

/-- Keeps a reference that can be read, and the fault of one that cannot. -/
def addReference (traits : ColumnTraits) : Except ReferenceFault Target → ColumnTraits
  | .ok target => { traits with target := some target }
  | .error fault => { traits with faults := traits.faults ++ [fault] }

end ColumnTraits

/-- Reads constraints at a depth of parentheses onto what has been read so far. -/
def columnTraits (source : List Char) (depth : Int) (traits : ColumnTraits) (us : List Lexeme) :
    ColumnTraits :=
  match us with
  | [] => traits
  | u :: rest =>
    if u.isOpening then columnTraits source (depth + 1) traits rest
    else if u.isClosing then columnTraits source (depth - 1) traits rest
    else if 0 < depth then columnTraits source depth traits rest
    else if u.isWord ["NOT"] && nextIs "NULL" rest then
      columnTraits source depth { traits with notNull := true } (rest.drop 1)
    else if u.isWord ["PRIMARY"] && nextIs "KEY" rest then
      columnTraits source depth { traits with primaryKey := true } (rest.drop 1)
    else if u.isWord ["REFERENCES"] then
      columnTraits source depth (traits.addReference (reference rest).1) (reference rest).2
    else if u.isWord ["DEFAULT"] then
      columnTraits source depth { traits with defaultValue := (default? source rest).1 }
        (default? source rest).2
    else columnTraits source depth traits rest
termination_by us.length
decreasing_by
  all_goals simp only [List.length_cons, List.length_drop]
  all_goals first
    | omega
    | exact Nat.lt_succ_of_le (reference_suffix rest).length_le
    | exact Nat.lt_succ_of_le (default?_suffix source rest).length_le

/-- The type word of a column: the text of its second lexeme, if that is a word or a name. -/
def typeText (u : Lexeme) : String := if u.isName then u.text else ""

/-- The field of a column. Types that number their rows make a primary key, and a primary key is
never null. -/
def columnField (name type : String) (traits : ColumnTraits) : Field :=
  let key := traits.primaryKey || TypeWord.isAutoIncrement type
  { name := name
    type := (TypeWord.logical type).name
    nullable := !key && !traits.notNull
    primaryKey := key
    defaultValue := traits.defaultValue }

end Schemata.Script

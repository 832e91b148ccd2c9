import Schemata.CommandLine.Arguments
import Schemata.CommandLine.Inputs

/-!
# Commands

A command line names one of six commands, after options that apply to all of them. The arguments
after the name belong to the command. An input is a file, or the standard input for a dash.
-/
namespace Schemata.CommandLine

inductive Command where
  /-- Reads a script and writes its schema as a document. -/
  | parse (input : String) (dialect : Option String) (strict report : Bool)
  /-- Reads a document and writes the script of its schema. -/
  | generate (input : String) (dialect : Option String)
  /-- Turns a script into one of another dialect. -/
  | convert (input : String) (source target : Option String)
  /-- Checks a script. -/
  | validate (input : String) (dialect : Option String)
  /-- Writes the instructions for writing scripts of a dialect. -/
  | prompt (dialect : Option String)
  /-- Plans the migration from one script to another. -/
  | migrate (previous current : String) (name dialect : Option String)
deriving DecidableEq

/-- The value at a position; without one the standard input is meant. -/
def Arguments.input (a : Arguments) (position : Nat) : String :=
  (a.values[position]?).getD standardInput

/-- A way to give a command: its name, what it accepts, and the command that its arguments make. -/
structure CommandForm where
  name : String
  grammar : Grammar
  command : Arguments → Command

def helpOptions : List (String × OptionKind) := [("-h", .help), ("--help", .help)]

/-- What is accepted before the name of a command. -/
def commonGrammar : Grammar := { options := helpOptions ++ [("--verbose", .flag)] }

namespace CommandForm

/-- A command with one input, which may be left out. -/
def reader (name : String) (options : List (String × OptionKind)) (command : Arguments → Command) :
    CommandForm :=
  ⟨name, { options := helpOptions ++ options, most := 1 }, command⟩

def all : List CommandForm :=
  [reader "parse" [("--dialect", .valued), ("--strict", .flag), ("--report", .flag)] fun a =>
     .parse (a.input 0) (a.text? "--dialect") (a.hasFlag "--strict") (a.hasFlag "--report"),
   reader "generate" [("--dialect", .valued)] fun a =>
     .generate (a.input 0) (a.option? "--dialect"),
   reader "convert" [("--from", .valued), ("--to", .valued)] fun a =>
     .convert (a.input 0) (a.option? "--from") (a.option? "--to"),
   reader "validate" [("--dialect", .valued)] fun a =>
     .validate (a.input 0) (a.option? "--dialect"),
   ⟨"prompt", { options := helpOptions ++ [("--dialect", .valued)] }, fun a =>
     .prompt (a.option? "--dialect")⟩,
   ⟨"migrate",
     { options := helpOptions ++ [("--name", .valued), ("--dialect", .valued)]
       fewest := 2
       most := 2 },
     fun a => .migrate (a.input 0) (a.input 1) (a.text? "--name") (a.option? "--dialect")⟩]

end CommandForm

namespace Command

/-- The command of a given name with the arguments after it. -/
def ofArguments (name : String) (line : List String) : Except Stop Command :=
  match CommandForm.all.find? (·.name = name) with
  | none => .error .misuse
  | some form => form.command <$> form.grammar.read line

/-- The command that a command line gives. The first value names the command, and unknown options in
front of it are misuse only after all that is wrong with the command itself. -/
def ofLine (line : List String) : Except Stop Command :=
  match commonGrammar.arguments? line with
  | none => .error .misuse
  | some arguments => do
    let opening := arguments.takeWhile fun a => a matches .option .. | .unknown
    let found ← commonGrammar.collect .other {} opening
    match arguments.drop opening.length, line.drop opening.length with
    | .value _ :: _, name :: rest =>
      let command ← ofArguments name rest
      if found.surplus then throw .misuse
      pure command
    | [], _ => throw (if found.surplus then .misuse else .usage)
    | _, _ => throw .misuse

/-- The inputs that a command reads, in order. -/
def inputs : Command → List String
  | .parse input .. => [input]
  | .generate input _ => [input]
  | .convert input .. => [input]
  | .validate input _ => [input]
  | .prompt _ => []
  | .migrate previous current .. => [previous, current]

end Command

end Schemata.CommandLine

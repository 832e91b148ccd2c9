import Schemata.Text.Affix
import Schemata.Text.Alphabet

/-!
# Arguments

A command line holds values and options, and everything after a separator is a value. A long option
may be shortened to an opening that no other option has. The value of an option is attached to it
with an equals sign or follows as the next argument.
-/
namespace Schemata.CommandLine

inductive OptionKind where
  /-- Asks for the usage text. -/
  | help
  | flag
  /-- Has a value. -/
  | valued
deriving DecidableEq

/-- What a command accepts: options by name, and between `fewest` and `most` values. -/
structure Grammar where
  options : List (String × OptionKind)
  fewest : Nat := 0
  most : Nat := 0

inductive Argument where
  | value (text : String)
  | separator
  /-- An option, with the text that is attached to it with an equals sign or, if it is short,
  without one. -/
  | option (name : String) (kind : OptionKind) (attached : Option String)
  | unknown
deriving DecidableEq

/-- Why a command line is not carried out. -/
inductive Stop where
  | usage
  | misuse
deriving DecidableEq

def separatorText : String := "--"

/-! ## Single arguments -/

/-- The text before the first equals sign, with the text after it if there is one. -/
def splitAtEquals : List Char → List Char × Option (List Char)
  | [] => ([], none)
  | c :: cs =>
    if c = '=' then ([], some cs)
    else
      let (opening, attached) := splitAtEquals cs
      (c :: opening, attached)

def isDigits (cs : List Char) : Bool := cs.all fun c => (Text.decimalDigit? c).isSome

/-- Whether a minus sign makes a number of a text: digits, or a fraction of which the whole part may
be missing. A final line break does not count. -/
def isNumberText (cs : List Char) : Bool :=
  let body := (Text.before? ['\n'] cs).getD cs
  let whole := body.takeWhile (· ≠ '.')
  match body.drop whole.length with
  | [] => !whole.isEmpty && isDigits whole
  | _ :: fraction => isDigits whole && !fraction.isEmpty && isDigits fraction

namespace Grammar

def kind? (g : Grammar) (name : List Char) : Option OptionKind :=
  g.options.lookup (String.ofList name)

/-- The options that an argument can stand for: the one that it names in full, else the long ones
that it shortens or the short one that it attaches letters to. -/
def readings (g : Grammar) (cs : List Char) : List Argument :=
  let (opening, attached) := splitAtEquals cs
  match g.kind? opening, cs with
  | some kind, _ => [.option (String.ofList opening) kind (attached.map String.ofList)]
  | none, '-' :: '-' :: _ =>
    (g.options.filter fun (name, _) => Text.startsWith opening name.toList).map fun (name, kind) =>
      .option name kind (attached.map String.ofList)
  | none, '-' :: c :: letters =>
    match g.kind? ['-', c] with
    | some kind => [.option (String.ofList ['-', c]) kind (some (String.ofList letters))]
    | none => []
  | none, _ => []

/-- What an argument in front of the separator stands for; an ambiguous one stands for nothing. -/
def argument? (g : Grammar) (text : String) : Option Argument :=
  match text.toList with
  | '-' :: c :: cs =>
    match g.readings ('-' :: c :: cs) with
    | [] => some (if isNumberText (c :: cs) || ' ' ∈ c :: cs then .value text else .unknown)
    | [reading] => some reading
    | _ => none
  | _ => some (.value text)

def arguments? (g : Grammar) : List String → Option (List Argument)
  | [] => some []
  | text :: line =>
    if text = separatorText then some (.separator :: line.map .value)
    else do
      let argument ← g.argument? text
      let arguments ← g.arguments? line
      pure (argument :: arguments)

end Grammar

/-! ## Whole lines -/

/-- What a command is given. -/
structure Arguments where
  values : List String := []
  /-- The options in order, with an empty value for flags. -/
  options : List (String × String) := []
  /-- Whether there are unknown options, or values or separators that have no place. -/
  surplus : Bool := false

namespace Arguments

def addOption (a : Arguments) (name value : String) : Arguments :=
  { a with options := a.options ++ [(name, value)] }

/-- The value of an option; the last one counts. -/
def option? (a : Arguments) (name : String) : Option String := a.options.reverse.lookup name

/-- The value of an option; a separator is no value. -/
def text? (a : Arguments) (name : String) : Option String :=
  (a.option? name).filter (· ≠ separatorText)

def hasFlag (a : Arguments) (name : String) : Bool := (a.option? name).isSome

end Arguments

/-- What stands right in front of an argument. -/
inductive Neighbour where
  | value
  /-- A separator that does not stand right after a value. -/
  | separator
  | other
deriving DecidableEq

namespace Grammar

/-- Whether an option asks for the usage text: it has nothing attached, or it is short and all the
letters attached to it are such options too. -/
def asksForUsage (g : Grammar) (name : String) : Option String → Bool
  | none => true
  | some letters =>
    name.length = 2 && letters ≠ "" && letters.toList.all fun c => g.kind? ['-', c] = some .help

/-- Collects arguments from left to right. A request for the usage text and an option that lacks its
value or has one too many end the collection at once. A separator has a place where a value is still
accepted and right after a value. A second separator is a value as it stands only after a first one
that has no value in front of it; elsewhere it is an empty value. -/
def collect (g : Grammar) (before : Neighbour) (found : Arguments) :
    List Argument → Except Stop Arguments
  | [] => .ok found
  | .value text :: rest =>
    if found.values.length < g.most then
      let text := if text = separatorText && before ≠ .separator then "" else text
      g.collect .value { found with values := found.values ++ [text] } rest
    else g.collect .other { found with surplus := true } rest
  | .separator :: rest =>
    let placed := before = .value || found.values.length < g.most
    g.collect (if before = .value then .other else .separator)
      { found with surplus := found.surplus || !placed } rest
  | .unknown :: rest => g.collect .other { found with surplus := true } rest
  | .option name .valued (some text) :: rest => g.collect .other (found.addOption name text) rest
  | .option name .valued none :: .value text :: rest =>
    g.collect .other (found.addOption name text) rest
  | .option _ .valued none :: _ => .error .misuse
  | .option name .flag none :: rest => g.collect .other (found.addOption name "") rest
  | .option _ .flag (some _) :: _ => .error .misuse
  | .option name .help attached :: _ =>
    .error (if g.asksForUsage name attached then .usage else .misuse)

/-- Reads the arguments of a command. -/
def read (g : Grammar) (line : List String) : Except Stop Arguments :=
  match g.arguments? line with
  | none => .error .misuse
  | some arguments => do
    let found ← g.collect .other {} arguments
    if found.surplus || found.values.length < g.fewest then throw .misuse
    pure found

end Grammar

end Schemata.CommandLine

import Parlance.Text.Digit

/-!
# Command lines

A command line is a list of words: switches that every command takes, a command, and the command's own
switches and expression. `Arguments.parse` reads one, together with the environment, which supplies the
values of switches that are not given. Words are taken one by one: a switch that needs a value waits for
the next word, and its value is checked when the word after that is taken. After `--` every word is
plain. Asking for help or for the version ends the reading, as an error does.
-/

namespace Parlance.CommandLine

/-! ## Switches and commands -/

/-- The commands by name. -/
inductive CommandName where
  | eval | tokens | filter | tree
  deriving DecidableEq, Repr

namespace CommandName

/-- All commands. -/
def all : List CommandName := [eval, tokens, filter, tree]

/-- The word for a command. -/
def word : CommandName → String
  | eval => "eval"
  | tokens => "tokens"
  | filter => "filter"
  | tree => "tree"

/-- The command that a word stands for. -/
def ofWord? (text : String) : Option CommandName := all.find? (·.word == text)

end CommandName

/-- The word that asks for help like a command. -/
def helpWord : String := "help"

/-- Whether a word may stand in the place of a command. -/
def isCommandWord (text : String) : Bool :=
  text == helpWord || (CommandName.ofWord? text).isSome

/-- What can be switched by words that start with a dash. -/
inductive Switch where
  | maxInputLength | verbose | json | filter | data | help | version
  deriving DecidableEq, Repr

namespace Switch

/-- The name after two dashes. -/
def long : Switch → String
  | maxInputLength => "max-input-len"
  | verbose => "verbose"
  | json => "json"
  | filter => "filter"
  | data => "data"
  | help => "help"
  | version => "version"

/-- The letter after one dash. -/
def short? : Switch → Option Char
  | verbose => some 'v'
  | help => some 'h'
  | version => some 'V'
  | _ => none

/-- Whether a switch needs a value. -/
def takesValue (s : Switch) : Bool := s matches maxInputLength | data

/-- The switches of every command. -/
def shared : List Switch := [maxInputLength, verbose, help]

/-- The switches before the command. -/
def front : List Switch := shared ++ [version]

/-- The switches after a command. -/
def after : CommandName → List Switch
  | .eval => shared
  | .tokens => json :: shared
  | .filter => data :: shared
  | .tree => filter :: data :: shared

end Switch

/-! ## Values -/

/-- Why a command line is not carried out: it asks for advice, or it is not well formed. -/
inductive Halt where
  | help
  | version
  | emptyLine
  | missingCommand
  | unknownCommand
  | unknownArgument
  | missingArgument
  | repeatedSwitch
  | surplusValue
  | invalidValue
  | invalidNumber
  deriving DecidableEq, Repr

/-- A number of 64 bits in decimal digits, after an optional plus sign. -/
def sizeValue? (text : String) : Option Nat :=
  let digits := match text.toList with
    | '+' :: rest => rest
    | rest => rest
  if digits.isEmpty || !digits.all Char.isDigit then none
  else
    let n := Text.decimalValue digits
    if n < Nat.pow 2 64 then some n else none

/-- What is wrong with the value of a switch, if anything. -/
def Switch.complaint? (s : Switch) (value : String) : Option Halt :=
  match s with
  | maxInputLength => if (sizeValue? value).isNone then some .invalidNumber else none
  | data => if value.isEmpty then some .invalidValue else none
  | verbose => if value == "true" || value == "false" then none else some .invalidValue
  | _ => none

/-! ## Words -/

/-- A word by its form. -/
inductive Word where
  | escape
  | long (name : String) (value : Option String)
  | short (letters : List Char)
  | plain (text : String)
  deriving DecidableEq, Repr

/-- The form of a word: a single dash is plain, and an equals sign starts the value of a long name. -/
def Word.ofText (text : String) : Word :=
  match text.toList with
  | ['-', '-'] => .escape
  | '-' :: '-' :: rest =>
    let name := rest.takeWhile (· != '=')
    .long (String.ofList name)
      (if name.length < rest.length then some (String.ofList (rest.drop (name.length + 1))) else none)
  | '-' :: letter :: letters => .short (letter :: letters)
  | _ => .plain text

/-! ## Reading -/

/-- What has been read on one side of the command: switches with their values, a switch that has not
been settled yet, with its value if that has been read, the expression, and whether `--` has passed. -/
structure Given where
  values : List (Switch × String) := []
  unsettled : Option (Switch × Option String) := none
  expression : Option String := none
  escaped : Bool := false
  deriving Repr

namespace Given

/-- Whether a switch has been given. -/
def has (g : Given) (s : Switch) : Bool := (g.values.lookup s).isSome

/-- Adds a switch with its value; none may be given twice. -/
def add (g : Given) (s : Switch) (value : String) : Except Halt Given :=
  if g.has s then .error .repeatedSwitch
  else
    match s.complaint? value with
    | some halt => .error halt
    | none => .ok { g with values := (s, value) :: g.values }

/-- Adds the switch that has not been settled. -/
def settle (g : Given) : Except Halt Given :=
  match g.unsettled with
  | none => .ok g
  | some (_, none) => .error .invalidValue
  | some (s, some value) => { g with unsettled := none }.add s value

/-- Whether the next word is the value of a switch, unless it looks like a switch itself. -/
def awaitsValue (g : Given) : Bool := g.unsettled.any (·.2.isNone)

/-- Switches on what takes no value. -/
def switchOn (g : Given) (s : Switch) : Except Halt Given := do
  let g ← g.settle
  match s with
  | .help => throw .help
  | .version => throw .version
  | s => g.add s "true"

/-- Takes a switch by its long name. -/
def takeLong (switches : List Switch) (g : Given) (name : String) (value : Option String) :
    Except Halt Given :=
  match switches.find? (·.long == name), value with
  | none, _ => .error .unknownArgument
  | some s, some value =>
    if s.takesValue then do (← g.settle).add s value else .error .surplusValue
  | some s, none =>
    if s.takesValue then do return { ← g.settle with unsettled := some (s, none) }
    else g.switchOn s

/-- Takes a switch by its letter. -/
def takeShort (switches : List Switch) (g : Given) (letter : Char) : Except Halt Given :=
  match switches.find? (·.short? == some letter) with
  | some s => g.switchOn s
  | none => .error .unknownArgument

/-- Takes a plain word where an expression may stand. -/
def takeExpression (g : Given) (text : String) : Except Halt Given :=
  if g.expression.isSome then .error .unknownArgument
  else do return { ← g.settle with expression := some text }

/-- Takes a plain word where a command should stand. -/
def refuseCommand (g : Given) (text : String) : Except Halt Given :=
  .error (if g.escaped && isCommandWord text then .unknownArgument else .unknownCommand)

/-- Takes a word where some switches may stand; `plain` takes what is neither a switch nor a value. -/
def take (switches : List Switch) (plain : Given → String → Except Halt Given) (g : Given)
    (text : String) : Except Halt Given :=
  if g.escaped then plain g text
  else
    match Word.ofText text with
    | .escape => .ok { g with escaped := true }
    | .long name value => g.takeLong switches name value
    | .short letters => letters.foldlM (takeShort switches) g
    | .plain text =>
      match g.unsettled with
      | some (s, none) => .ok { g with unsettled := some (s, some text) }
      | _ => plain g text

end Given

/-- The answer to a request for help about the commands of some words. -/
def helpAbout : List String → Halt
  | [] => .help
  | [text] => if isCommandWord text then .help else .unknownCommand
  | _ => .unknownCommand

/-- Reads up to the command: what stands before it, the command and the words after it. -/
def readFront : Given → List String → Except Halt (Given × Option (CommandName × List String))
  | g, [] => .ok (g, none)
  | g, text :: texts =>
    if g.escaped || g.awaitsValue then do
      readFront (← g.take Switch.front Given.refuseCommand text) texts
    else if text == helpWord then .error (helpAbout texts)
    else
      match CommandName.ofWord? text with
      | some command => .ok (g, some (command, texts))
      | none => do readFront (← g.take Switch.front Given.refuseCommand text) texts

/-! ## The environment -/

/-- The values of the environment for switches that are not given. -/
structure Environment where
  maxInputLength : Option String := none
  verbose : Option String := none

namespace Environment

/-- The value for a switch. -/
def get? (env : Environment) : Switch → Option String
  | .maxInputLength => env.maxInputLength
  | .verbose => env.verbose
  | _ => none

/-- Whether the environment has no value for any switch. -/
def isEmpty (env : Environment) : Bool := env.maxInputLength.isNone && env.verbose.isNone

/-- Settles what has been read; the values of the environment that it lacks must be well formed. -/
def settle (env : Environment) (g : Given) : Except Halt Given := do
  let g ← g.settle
  let missing := Switch.shared.filter (!g.has ·)
  match missing.findSome? fun s => (env.get? s).bind s.complaint? with
  | some halt => throw halt
  | none => return g

end Environment

/-! ## Arguments -/

/-- What to do. -/
inductive Command where
  | eval (expression : String)
  | tokens (expression : String) (json : Bool)
  | filter (expression : String) (data : String)
  | tree (expression : String)
  | filterTree (expression : String) (data : String)
  deriving DecidableEq, Repr

namespace Command

/-- The text that the command works on. -/
def expression : Command → String
  | eval e | tokens e _ | filter e _ | tree e | filterTree e _ => e

/-- The file that the command reads rows from. -/
def data? : Command → Option String
  | filter _ data | filterTree _ data => some data
  | _ => none

/-- The command with what was given after its name. -/
def ofGiven (name : CommandName) (g : Given) : Except Halt Command :=
  match name, g.expression, g.values.lookup .data with
  | _, none, _ => .error .missingArgument
  | .eval, some e, _ => .ok (eval e)
  | .tokens, some e, _ => .ok (tokens e (g.has .json))
  | .filter, some e, some data => .ok (filter e data)
  | .filter, some _, none => .error .missingArgument
  | .tree, some e, data =>
    if g.has .filter then
      match data with
      | some data => .ok (filterTree e data)
      | none => .error .missingArgument
    else .ok (tree e)

end Command

/-- A command with what holds for every command. -/
structure Arguments where
  maxInputLength : Nat
  verbose : Bool
  command : Command
  deriving DecidableEq, Repr

namespace Arguments

/-- The longest expression in bytes, unless the command line says otherwise. -/
def defaultMaxInputLength : Nat := 4096

/-- The value of a switch: the one after the command wins over the one before it, and that over the one
of the environment. -/
def valueOf (env : Environment) (front after : Given) (s : Switch) : Option String :=
  (after.values.lookup s).or ((front.values.lookup s).or (env.get? s))

/-- Why a line without a command is not carried out. -/
def withoutCommand (env : Environment) (front : Given) : Halt :=
  if front.values.isEmpty && env.isEmpty then .emptyLine else .missingCommand

/-- Reads the words of a command line. -/
def parse (env : Environment) (texts : List String) : Except Halt Arguments := do
  match ← readFront {} texts with
  | (front, none) => throw (withoutCommand env (← env.settle front))
  | (front, some (name, texts)) =>
    let after ← texts.foldlM (Given.take (Switch.after name) Given.takeExpression) {}
    let after ← env.settle after
    let command ← Command.ofGiven name after
    let front ← env.settle front
    let limit := ((valueOf env front after .maxInputLength).bind sizeValue?).getD
      defaultMaxInputLength
    return ⟨limit, valueOf env front after .verbose == some "true", command⟩

end Arguments

end Parlance.CommandLine

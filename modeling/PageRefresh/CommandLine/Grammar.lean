import PageRefresh.Broadcast.Kind
import PageRefresh.Event
import PageRefresh.Text.Digit

/-!
The grammar of the command line.

There are two commands, `simulate` and `config`, and what may be given to each are options, and to
`simulate` steps. Options may stand anywhere among the steps, long ones may have their value
attached with `=`, short ones may be bundled, and after `--` everything is a step. An option that
stands for a value takes the next argument unless that looks like an option itself; its value is
only looked at when the next option or the next step begins, so of two faults in a row it can be
the second one that is reported.
-/

namespace PageRefresh.CommandLine

/-- Why there is nothing to run. -/
inductive UsageError where
  | displayHelp
  | displayVersion
  /-- Nothing at all was asked for, which is answered with help. -/
  | displayHelpOnMissing
  | missingSubcommand
  | invalidSubcommand
  | missingRequired
  | unknownArgument
  | invalidValue
  | valueValidation
  | tooManyValues
  | argumentConflict
deriving DecidableEq, Repr

/-- The exit code: help and version that were asked for are no failure. -/
def UsageError.exitCode : UsageError → Nat
  | displayHelp => 0
  | displayVersion => 0
  | _ => 2

/-- How the program is called. -/
def usage : String :=
  "Usage: pagepulse [-v] simulate [-p POLICY] [--interval SECS] [--json] STEP...\n" ++
    "       pagepulse [-v] config [--json]"

def UsageError.message : UsageError → String
  | displayHelp => usage
  | displayVersion => "pagepulse " ++ version
  | displayHelpOnMissing => usage
  | missingSubcommand => "error: a command is required"
  | invalidSubcommand => "error: unknown command"
  | missingRequired => "error: at least one step is required"
  | unknownArgument => "error: unexpected argument"
  | invalidValue => "error: the value of an option is missing or unknown"
  | valueValidation => "error: the value of an option is out of bounds"
  | tooManyValues => "error: an option that takes no value was given one"
  | argumentConflict => "error: an option was given twice"

/-- What can take options. -/
inductive Scope where
  /-- The program, before a command is named. -/
  | program
  | simulate
  | config
deriving DecidableEq, Repr

inductive OptionName where
  | help
  | version
  | verbose
  | json
  | policy
  | interval
deriving DecidableEq, Repr

namespace OptionName

def long : OptionName → String
  | help => "help"
  | version => "version"
  | verbose => "verbose"
  | json => "json"
  | policy => "policy"
  | interval => "interval"

/-- The letter of an option that has one. -/
def short? : OptionName → Option Char
  | help => some 'h'
  | version => some 'V'
  | verbose => some 'v'
  | json => none
  | policy => some 'p'
  | interval => none

def takesValue : OptionName → Bool
  | policy => true
  | interval => true
  | _ => false

end OptionName

def Scope.options : Scope → List OptionName
  | program => [.help, .version, .verbose]
  | simulate => [.help, .verbose, .json, .policy, .interval]
  | config => [.help, .verbose, .json]

def Scope.long? (scope : Scope) (name : String) : Option OptionName :=
  scope.options.find? fun option => option.long == name

def Scope.short? (scope : Scope) (letter : Char) : Option OptionName :=
  scope.options.find? fun option => option.short? == some letter

/-- An argument by its form. -/
inductive Word where
  /-- Two dashes. -/
  | escape
  /-- Two dashes and a name, perhaps with a value after the first `=`. -/
  | long (name : String) (value : Option String)
  /-- A dash and letters. -/
  | short (letters : List Char)
  | plain
deriving DecidableEq, Repr

def Word.of (arg : String) : Word :=
  match arg.toList with
  | ['-', '-'] => .escape
  | '-' :: '-' :: cs =>
      let name := cs.takeWhile (· != '=')
      .long (String.ofList name)
        (match cs.dropWhile (· != '=') with
        | [] => none
        | _ :: value => some (String.ofList value))
  | '-' :: c :: cs => .short (c :: cs)
  | _ => .plain

/-- An option that awaits its value, or has one that was not looked at yet. -/
structure Pending where
  option : OptionName
  value : Option String
deriving DecidableEq, Repr

/-- What has been given so far. -/
structure Given where
  verbose : Bool
  json : Bool
  policy : Option BroadcastPolicy
  interval : Option Nat
  steps : List String
  pending : Option Pending
  /-- Whether `--` has been seen. -/
  escaped : Bool
deriving DecidableEq, Repr

def Given.nothing : Given :=
  ⟨false, false, none, none, [], none, false⟩

/-- Read a whole number of 64 bits: decimal digits, perhaps with a plus sign. -/
def readWord? (text : String) : Option Nat :=
  let digits := match text.toList with
    | '+' :: cs => cs
    | cs => cs
  if digits.isEmpty || !digits.all Char.isDigit then none
  else
    let n := Text.numeral 10 digits
    if n < UInt64.size then some n else none

namespace Given

/-- Set an option that stands for no value. -/
def setFlag (g : Given) : OptionName → Except UsageError Given
  | .help => .error .displayHelp
  | .version => .error .displayVersion
  | .verbose => if g.verbose then .error .argumentConflict else .ok { g with verbose := true }
  | .json => if g.json then .error .argumentConflict else .ok { g with json := true }
  | .policy => .ok g
  | .interval => .ok g

def setValue (g : Given) (option : OptionName) (value : String) : Except UsageError Given :=
  match option with
  | .policy =>
      if g.policy.isSome then .error .argumentConflict
      else
        match BroadcastPolicy.ofName? value with
        | some policy => .ok { g with policy := some policy }
        | none => .error .invalidValue
  | .interval =>
      if g.interval.isSome then .error .argumentConflict
      else
        match readWord? value with
        | some secs =>
            if 1 ≤ secs ∧ secs ≤ maxIntervalSecs then .ok { g with interval := some secs }
            else .error .valueValidation
        | none => .error .valueValidation
  | _ => .ok g

/-- Look at the value of the option that is pending. -/
def settle (g : Given) : Except UsageError Given :=
  match g.pending with
  | none => .ok g
  | some ⟨_, none⟩ => .error .invalidValue
  | some ⟨option, some value⟩ => setValue { g with pending := none } option value

/-- Take in an option, with the value attached to it if there is one. -/
def takeOption (g : Given) (option : OptionName) (attached : Option String) :
    Except UsageError Given :=
  match g.settle with
  | .error e => .error e
  | .ok g =>
      if option.takesValue then
        match attached with
        | some value => g.setValue option value
        | none => .ok { g with pending := some ⟨option, none⟩ }
      else g.setFlag option

def takeLong (g : Given) (scope : Scope) (name : String) (value : Option String) :
    Except UsageError Given :=
  match scope.long? name with
  | none => .error .unknownArgument
  | some option =>
      if value.isSome && !option.takesValue then .error .tooManyValues
      else g.takeOption option value

/-- The value attached to a letter: what follows it, less the `=` it may begin with. -/
def attachedValue : List Char → Option String
  | [] => none
  | '=' :: cs => some (String.ofList cs)
  | cs => some (String.ofList cs)

def takeShort (g : Given) (scope : Scope) : List Char → Except UsageError Given
  | [] => .ok g
  | letter :: rest =>
      match scope.short? letter with
      | none => .error .unknownArgument
      | some option =>
          if option.takesValue then g.takeOption option (attachedValue rest)
          else
            match g.takeOption option none with
            | .error e => .error e
            | .ok g => takeShort g scope rest

def takeStep (g : Given) (arg : String) : Except UsageError Given :=
  match g.settle with
  | .error e => .error e
  | .ok g => .ok { g with steps := g.steps ++ [arg] }

/-- Take in an argument that is no option, in a command. -/
def takePlain (g : Given) (scope : Scope) (arg : String) : Except UsageError Given :=
  match g.pending with
  | some ⟨option, none⟩ =>
      if g.escaped then .error .invalidValue
      else .ok { g with pending := some ⟨option, some arg⟩ }
  | _ => if scope = .simulate then g.takeStep arg else .error .unknownArgument

def take (g : Given) (scope : Scope) (arg : String) : Except UsageError Given :=
  if g.escaped then g.takePlain scope arg
  else
    match Word.of arg with
    | .escape => .ok { g with escaped := true }
    | .long name value => g.takeLong scope name value
    | .short letters => g.takeShort scope letters
    | .plain => g.takePlain scope arg

/-- Take in the arguments of a command, to the end. -/
def takeAll (g : Given) (scope : Scope) : List String → Except UsageError Given
  | [] => g.settle
  | arg :: rest =>
      match g.take scope arg with
      | .error e => .error e
      | .ok g => takeAll g scope rest

end Given

/-- A command with all that it needs. -/
inductive Command where
  | simulate (json : Bool) (policy : Option BroadcastPolicy) (interval : Option Nat)
      (steps : List String)
  | config (json : Bool)
deriving DecidableEq, Repr

structure Invocation where
  verbose : Bool
  command : Command
deriving DecidableEq, Repr

def readSimulate (verbose : Bool) (args : List String) : Except UsageError Invocation :=
  match Given.nothing.takeAll .simulate args with
  | .error e => .error e
  | .ok g =>
      if g.steps.isEmpty then .error .missingRequired
      else .ok ⟨verbose || g.verbose, .simulate g.json g.policy g.interval g.steps⟩

def readConfig (verbose : Bool) (args : List String) : Except UsageError Invocation :=
  match Given.nothing.takeAll .config args with
  | .error e => .error e
  | .ok g => .ok ⟨verbose || g.verbose, .config g.json⟩

/-- The names that `help` can be asked about. -/
def commandNames : List String :=
  ["simulate", "config", "help"]

/-- What `help` answers: no command has commands of its own. -/
def readHelp : List String → UsageError
  | [] => .displayHelp
  | [name] => if commandNames.contains name then .displayHelp else .invalidSubcommand
  | _ => .invalidSubcommand

/-- The end of the arguments before a command was named. -/
def noCommand (g : Given) : UsageError :=
  if g.verbose then .missingSubcommand else .displayHelpOnMissing

/-- Read the arguments, of which some may have been taken in before the command. -/
def readArgs (g : Given) : List String → Except UsageError Invocation
  | [] => .error (noCommand g)
  | arg :: rest =>
      if g.escaped then
        .error (if commandNames.contains arg then .unknownArgument else .invalidSubcommand)
      else if arg = "simulate" then readSimulate g.verbose rest
      else if arg = "config" then readConfig g.verbose rest
      else if arg = "help" then .error (readHelp rest)
      else if Word.of arg = .plain then .error .invalidSubcommand
      else
        match g.take .program arg with
        | .error e => .error e
        | .ok g => readArgs g rest

def Invocation.read (args : List String) : Except UsageError Invocation :=
  readArgs .nothing args

end PageRefresh.CommandLine

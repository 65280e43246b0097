import PageRefresh.Text.Blank

/-!
The steps of a script and their written form.

A step is a verb, or a verb, a colon and a name. White space around the verb and around the name
does not count; a name may hold further colons. Which verbs take a name is a matter of the verb
alone, so a step that is refused is refused for one of three reasons.
-/

namespace PageRefresh.Script

/-- The verbs that take a name. -/
inductive NamedVerb where
  | page
  | add
  | main
  | fail
  | after
  | cycle
deriving DecidableEq, Repr

/-- The verbs that stand alone. -/
inductive BareVerb where
  | disable
  | enable
  | modalOpen
  | modalClose
  | clear
deriving DecidableEq, Repr

def NamedVerb.word : NamedVerb → String
  | page => "page"
  | add => "add"
  | main => "main"
  | fail => "fail"
  | after => "after"
  | cycle => "cycle"

def BareVerb.word : BareVerb → String
  | disable => "disable"
  | enable => "enable"
  | modalOpen => "modal-open"
  | modalClose => "modal-close"
  | clear => "clear"

def NamedVerb.all : List NamedVerb :=
  [page, add, main, fail, after, cycle]

def BareVerb.all : List BareVerb :=
  [disable, enable, modalOpen, modalClose, clear]

def NamedVerb.ofWord? (word : String) : Option NamedVerb :=
  all.find? (·.word == word)

def BareVerb.ofWord? (word : String) : Option BareVerb :=
  all.find? (·.word == word)

/-- One step of a script. -/
inductive Step where
  | named (verb : NamedVerb) (name : String)
  | bare (verb : BareVerb)
deriving DecidableEq, Repr

/-- The shortest written form of a step. -/
def Step.write : Step → String
  | named verb name => verb.word ++ ":" ++ name
  | bare verb => verb.word

/-- Why a text is not a step. -/
inductive StepFault where
  | nameMissing
  | nameUnexpected
  | unknownVerb
deriving DecidableEq, Repr

def StepFault.message : StepFault → String
  | nameMissing => "expected a name after ':'"
  | nameUnexpected => "step takes no argument"
  | unknownVerb => "unknown step"

structure StepError where
  input : String
  fault : StepFault
deriving DecidableEq, Repr

def StepError.message (e : StepError) : String :=
  "Invalid step '" ++ e.input ++ "': " ++ e.fault.message

/-- What stands before the first colon, and what stands after it if there is one. -/
def splitColon : List Char → List Char × Option (List Char)
  | [] => ([], none)
  | c :: cs =>
      if c = ':' then ([], some cs)
      else
        let (head, rest) := splitColon cs
        (c :: head, rest)

/-- The step made of a verb's word and, if there was a colon, the name after it. -/
def Step.ofParts (word : String) (name : Option String) : Except StepFault Step :=
  match NamedVerb.ofWord? word, BareVerb.ofWord? word with
  | some verb, _ =>
      match name with
      | none => .error .nameMissing
      | some name => if name = "" then .error .nameMissing else .ok (.named verb name)
  | none, some verb =>
      match name with
      | none => .ok (.bare verb)
      | some _ => .error .nameUnexpected
  | none, none => .error .unknownVerb

def Step.read (input : String) : Except StepError Step :=
  let (word, name) := splitColon input.toList
  match Step.ofParts (String.ofList (Text.trimBlanks word))
      (name.map fun n => String.ofList (Text.trimBlanks n)) with
  | .ok step => .ok step
  | .error fault => .error ⟨input, fault⟩

/-- Read the steps of a script; the first that cannot be read is the error. -/
def readSteps : List String → Except StepError (List Step)
  | [] => .ok []
  | input :: rest =>
      match Step.read input with
      | .error e => .error e
      | .ok step =>
          match readSteps rest with
          | .error e => .error e
          | .ok steps => .ok (step :: steps)

end PageRefresh.Script

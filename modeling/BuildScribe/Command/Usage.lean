/-!
# Options of a command line

An `OptionSpec` says how an option is written and how many values it takes. The words
of a command line are taken in order; an option that waits for values is settled when
the next option comes or the words end, and all checks on it are made then.
-/

namespace BuildScribe

/-- Why a command line is not carried out. The first two answer a question, all others
are mistakes. -/
inductive UsageFault where
  | helpAsked
  | versionAsked
  | nothingAsked
  | missingCommand
  | unknownCommand
  | unknownWord
  | missingOption
  | emptyValue
  | invalidValue
  | conflict
  | needlessValue
deriving DecidableEq

namespace UsageFault

def isAnswer (fault : UsageFault) : Bool :=
  fault = helpAsked || fault = versionAsked

def message : UsageFault → String
  | helpAsked => "usage: polydsl [-v] render|languages [options]"
  | versionAsked => "polydsl 0.1.0"
  | nothingAsked => "nothing to do; ask for --help"
  | missingCommand => "a command is missing"
  | unknownCommand => "there is no such command"
  | unknownWord => "a word of the command line is unknown"
  | missingOption => "a required option is missing"
  | emptyValue => "an option lacks its value"
  | invalidValue => "the value of an option is invalid"
  | conflict => "options exclude one another, or one is repeated"
  | needlessValue => "a value is given to an option that takes none"

end UsageFault

inductive OptionShape where
  | flag
  | single
  /-- All words up to the next option, and it may be repeated. -/
  | several
  /-- No value; the option is answered at once. -/
  | question (answer : UsageFault)
deriving DecidableEq

structure OptionSpec where
  name : String
  letter : Option Char := none
  shape : OptionShape
  /-- What is wrong with a value. -/
  check : String → Option UsageFault := fun _ => none

structure GivenOptions where
  settled : List (String × List String) := []
  /-- The option that waits for values, with those it has. -/
  waiting : Option (OptionSpec × List String) := none

namespace GivenOptions

def has (given : GivenOptions) (name : String) : Bool :=
  given.settled.any (·.1 == name)

def values (given : GivenOptions) (name : String) : List String :=
  (given.settled.filter (·.1 == name)).flatMap (·.2)

def value? (given : GivenOptions) (name : String) : Option String :=
  (given.values name).head?

def record (given : GivenOptions) (option : OptionSpec) (values : List String) :
    Except UsageFault GivenOptions :=
  let done : Except UsageFault GivenOptions :=
    match values.findSome? option.check with
    | some fault => .error fault
    | none => .ok { given with settled := given.settled ++ [(option.name, values)] }
  match option.shape with
  | .question answer => .error answer
  | .flag => if given.has option.name then .error .conflict else done
  | .single =>
      if values.isEmpty then .error .emptyValue
      else if given.has option.name then .error .conflict
      else done
  | .several => if values.isEmpty then .error .emptyValue else done

def settle (given : GivenOptions) : Except UsageFault GivenOptions :=
  match given.waiting with
  | none => .ok given
  | some (option, values) => { given with waiting := none }.record option values

/-- Takes an option without the values behind it: a flag is complete, any other option
waits. -/
def begin (given : GivenOptions) (option : OptionSpec) :
    Except UsageFault GivenOptions := do
  let settled ← given.settle
  match option.shape with
  | .flag | .question _ => settled.record option []
  | .single | .several => pure { settled with waiting := some (option, []) }

def attach (given : GivenOptions) (option : OptionSpec) (value : String) :
    Except UsageFault GivenOptions := do
  (← given.settle).record option [value]

/-- Gives a word to the option that waits for values, if one does. -/
def offer? (given : GivenOptions) (word : String) : Option GivenOptions :=
  match given.waiting with
  | none => none
  | some (option, values) =>
      if option.shape = .single && !values.isEmpty then none
      else some { given with waiting := some (option, values ++ [word]) }

/-- Takes an option by its long name, perhaps with a value behind an equals sign. -/
def takeLong (given : GivenOptions) (options : List OptionSpec) (word : List Char) :
    Except UsageFault GivenOptions :=
  let name := String.ofList (word.takeWhile (· != '='))
  match options.find? (·.name == name) with
  | none => .error .unknownWord
  | some option =>
      match word.dropWhile (· != '=') with
      | [] => given.begin option
      | _ :: value =>
          match option.shape with
          | .flag | .question _ => .error .needlessValue
          | .single | .several => given.attach option (String.ofList value)

/-- Takes options by their letters. The first one that takes values has the remaining
letters as its value, after an equals sign if there is one. -/
def takeLetters (options : List OptionSpec) :
    List Char → GivenOptions → Except UsageFault GivenOptions
  | [], given => .ok given
  | letter :: rest, given =>
      match options.find? (·.letter == some letter) with
      | none => .error .unknownWord
      | some option =>
          match option.shape with
          | .flag | .question _ => do takeLetters options rest (← given.begin option)
          | .single | .several =>
              match rest with
              | [] => given.begin option
              | '=' :: value => given.attach option (String.ofList value)
              | value => given.attach option (String.ofList value)

/-- Takes a word that is an option or a value. No other words are allowed. -/
def takeWord (given : GivenOptions) (options : List OptionSpec) (word : String) :
    Except UsageFault GivenOptions :=
  match word.toList with
  | '-' :: '-' :: name => given.takeLong options name
  | '-' :: letter :: rest => takeLetters options (letter :: rest) given
  | _ =>
      match given.offer? word with
      | some taken => .ok taken
      | none => .error .unknownWord

/-- Takes all words of a command. Behind `--` no option and no value may follow. -/
def takeWords (options : List OptionSpec) :
    List String → GivenOptions → Except UsageFault GivenOptions
  | [], given => given.settle
  | "--" :: rest, given => if rest.isEmpty then given.settle else .error .unknownWord
  | word :: rest, given => do takeWords options rest (← given.takeWord options word)

end GivenOptions

end BuildScribe

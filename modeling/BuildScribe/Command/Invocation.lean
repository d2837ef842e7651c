import BuildScribe.Command.Usage
import BuildScribe.Layout.Options

/-!
# Command lines

The program renders descriptions, or lists what it knows. A command line names the
command; options stand behind it, and a few also before it.
-/

namespace BuildScribe

structure InputSettings where
  /-- Whether every line of a file is a document of its own. -/
  linewise : Bool
  pointer : Option String
  filter : Option String
  /-- Paths, or patterns of paths. -/
  inputs : List String
deriving DecidableEq

structure FormatSettings where
  indent : Nat := 4
  tabs : Bool
  crlf : Bool
  noComments : Bool
deriving DecidableEq

def FormatSettings.options (settings : FormatSettings) : LayoutOptions :=
  let indented : LayoutOptions :=
    if settings.tabs then .tabs else .spaces settings.indent
  { indented with
    lineEnding := if settings.crlf then "\r\n" else indented.lineEnding
    comments := !settings.noComments }

structure RenderSettings where
  input : InputSettings
  format : FormatSettings
  language : String
  /-- The directory for the scripts. Without it they are printed. -/
  outDirectory : Option String
  /-- Whether only the command line is shown. -/
  dryRun : Bool
deriving DecidableEq

inductive Task where
  | render (settings : RenderSettings)
  | languages
deriving DecidableEq

/-- A command line that can be carried out. -/
structure Invocation where
  verbose : Bool
  task : Task
deriving DecidableEq

namespace Invocation

/-- The number that a word stands for: digits, perhaps behind a plus sign, below
2^64. -/
def number? (word : String) : Option Nat :=
  let digits :=
    match word.toList with
    | '+' :: rest => rest
    | cs => cs
  if digits.isEmpty || !digits.all isDigit then
    none
  else
    let value := digits.foldl (fun value digit => value * 10 + digitValue digit) 0
    if value < Nat.pow 2 64 then some value else none

def verboseOption : OptionSpec :=
  { name := "verbose", letter := some 'v', shape := .flag }

def helpOption : OptionSpec :=
  { name := "help", letter := some 'h', shape := .question .helpAsked }

def versionOption : OptionSpec :=
  { name := "version", letter := some 'V', shape := .question .versionAsked }

def leadingOptions : List OptionSpec :=
  [verboseOption, versionOption, helpOption]

def commonOptions : List OptionSpec :=
  [verboseOption, helpOption]

def renderOptions : List OptionSpec :=
  [{ name := "ndjson", shape := .flag },
    { name := "json-pointer", shape := .single },
    { name := "jq-expr", shape := .single },
    { name := "input", letter := some 'i', shape := .several },
    { name := "indent"
      shape := .single
      check := fun word => if (number? word).isSome then none else some .invalidValue },
    { name := "tabs", shape := .flag },
    { name := "crlf", shape := .flag },
    { name := "no-comments", shape := .flag },
    { name := "language", letter := some 'l', shape := .single },
    { name := "out-dir"
      shape := .single
      check := fun word => if word.isEmpty then some .emptyValue else none },
    { name := "no-op", shape := .flag }] ++ commonOptions

def renderSettings (given : GivenOptions) : Except UsageFault RenderSettings :=
  if given.has "tabs" && given.has "indent" then .error .conflict
  else if !given.has "input" then .error .missingOption
  else
    .ok
      { input :=
          { linewise := given.has "ndjson"
            pointer := given.value? "json-pointer"
            filter := given.value? "jq-expr"
            inputs := given.values "input" }
        format :=
          { indent := ((given.value? "indent").bind number?).getD 4
            tabs := given.has "tabs"
            crlf := given.has "crlf"
            noComments := given.has "no-comments" }
        language := (given.value? "language").getD "kotlin"
        outDirectory := given.value? "out-dir"
        dryRun := given.has "no-op" }

def commandNames : List String :=
  ["render", "languages", "help"]

/-- The answer to a call for help, which may name one command. -/
def helpAnswer : List String → UsageFault
  | [] => .helpAsked
  | [command] => if commandNames.contains command then .helpAsked else .unknownCommand
  | _ => .unknownCommand

def ofCommand (verbose : Bool) (command : String) (words : List String) :
    Except UsageFault Invocation :=
  match command with
  | "render" => do
      let given ← GivenOptions.takeWords renderOptions words {}
      let settings ← renderSettings given
      pure ⟨verbose || given.has "verbose", .render settings⟩
  | "languages" => do
      let given ← GivenOptions.takeWords commonOptions words {}
      pure ⟨verbose || given.has "verbose", .languages⟩
  | "help" => .error (helpAnswer words)
  | _ => .error .unknownCommand

/-- Reads the words of a command line, with the options already given before the
command. -/
def ofWordsAfter (given : GivenOptions) : List String → Except UsageFault Invocation
  | [] => .error (if given.settled.isEmpty then .nothingAsked else .missingCommand)
  | "--" :: [] =>
      .error (if given.settled.isEmpty then .nothingAsked else .missingCommand)
  | "--" :: word :: _ =>
      .error (if commandNames.contains word then .unknownWord else .unknownCommand)
  | word :: rest =>
      match word.toList with
      | '-' :: _ :: _ => do
          ofWordsAfter (← given.takeWord leadingOptions word) rest
      | _ => ofCommand (given.has "verbose") word rest

/-- Reads a command line without the name of the program. -/
def ofWords (words : List String) : Except UsageFault Invocation :=
  ofWordsAfter {} words

end Invocation

end BuildScribe

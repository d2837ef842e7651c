import BuildScribe.Json.Reader

/-!
# Engines of filters

A filter makes any number of values out of one. How the text of a filter is understood
and what comes out of it is up to an engine. No more is assumed of an engine than that
it does the same with one filter and one value throughout a run, and that it comes to
an end with them. The outputs of an engine are texts, and every text has to be a
document again.
-/

namespace BuildScribe

/-- The words that an engine has for a fault, if it has any. -/
abbrev Report := Option String

namespace Report

def behind (text : String) : Report → String
  | none => text
  | some words => text ++ ": " ++ words

end Report

/-- A name that a filter uses and nobody defined, and what it was taken for. -/
structure UndefinedName where
  name : String
  sort : String
deriving DecidableEq

/-- Why an engine can do nothing with the text of a filter. -/
inductive SourceFault where
  /-- Every text that makes no sense, with the report on it. -/
  | unparsable (reports : List (String × Report))
  | undefinedNames (names : List UndefinedName)
deriving DecidableEq

/-- A text that comes out of a filter, or the report on what went wrong instead. -/
abbrev FilterOutput := Except Report String

/-- An engine makes sense of the text of a filter first. Then all outputs for a value
follow, in order; what stands behind a report is never looked at. -/
structure FilterEngine where
  compile : (source : String) → Except SourceFault ((input : Json) → List FilterOutput)

/-- What is wrong with the output that has the number, counted from zero. -/
inductive OutputFault where
  | failed (number : Nat) (report : Report)
  | notJson (number : Nat) (text cause : String)
deriving DecidableEq

namespace OutputFault

def message : OutputFault → String
  | failed number report => report.behind ("jq output #" ++ toString number)
  | notJson number text cause =>
      "jq output #" ++ toString number ++ " is not JSON: " ++ text ++ ": " ++ cause

end OutputFault

inductive FilterFault where
  | unparsable (reports : List (String × Report))
  | undefinedNames (source : String) (names : List UndefinedName)
  | failedOutput (fault : OutputFault)
deriving DecidableEq

namespace FilterFault

def message : FilterFault → String
  | unparsable reports =>
      String.intercalate "\n" (reports.map fun (source, report) =>
        report.behind ("cannot parse jq filter `" ++ source ++ "`"))
  | undefinedNames source names =>
      String.intercalate "\n" (names.map fun undefined =>
        "jq filter `" ++ source ++ "` uses undefined `" ++ undefined.name ++ "` (" ++
          undefined.sort ++ ")")
  | failedOutput fault => fault.message

end FilterFault

namespace FilterEngine

/-- The document that the output with a number stands for. -/
def readOutput : FilterOutput × Nat → Except OutputFault Json
  | (.error report, number) => .error (.failed number report)
  | (.ok text, number) =>
      (Json.parse text).mapError fun fault =>
        .notJson number text (fault.causeText text.toList)

/-- All documents that a filter makes of a value. One output that is no document takes
all others with it. -/
def documents (engine : FilterEngine) (source : String) (input : Json) :
    Except FilterFault (List Json) :=
  match engine.compile source with
  | .error (.unparsable reports) => .error (.unparsable reports)
  | .error (.undefinedNames names) => .error (.undefinedNames source names)
  | .ok outputs => ((outputs input).zipIdx.mapM readOutput).mapError .failedOutput

end FilterEngine

end BuildScribe

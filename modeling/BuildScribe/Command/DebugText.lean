import BuildScribe.Command.Invocation
import BuildScribe.Text.Quoted

/-!
# The command line shown back

A dry run shows the command line as a tree of its settings, one to a line.
-/

namespace BuildScribe

inductive ShownTree where
  | leaf (text : String)
  | record (title : String) (fields : List (String × ShownTree))
  | wrapped (title : String) (inner : ShownTree)
  | list (items : List ShownTree)

namespace ShownTree

mutual

/-- The text of a tree whose first line is already indented, with `margin` before all
others. -/
def render (margin : String) : ShownTree → String
  | leaf text => text
  | record title fields =>
      title ++ " \x7b\n" ++ renderFields (margin ++ "    ") fields ++ margin ++ "\x7d"
  | wrapped title inner =>
      title ++ "(\n" ++ margin ++ "    " ++ inner.render (margin ++ "    ") ++ ",\n" ++
        margin ++ ")"
  | list items => "[\n" ++ renderItems (margin ++ "    ") items ++ margin ++ "]"

def renderFields (margin : String) : List (String × ShownTree) → String
  | [] => ""
  | (name, value) :: rest =>
      margin ++ name ++ ": " ++ value.render margin ++ ",\n" ++
        renderFields margin rest

def renderItems (margin : String) : List ShownTree → String
  | [] => ""
  | item :: rest => margin ++ item.render margin ++ ",\n" ++ renderItems margin rest

end

def flag (value : Bool) : ShownTree :=
  leaf (toString value)

def optional (value : Option String) : ShownTree :=
  match value with
  | none => leaf "None"
  | some text => wrapped "Some" (leaf text)

end ShownTree

namespace InputSettings

def shownTree (settings : InputSettings) : ShownTree :=
  .record "InputSettings"
    [("ndjson", .flag settings.linewise),
      ("json_pointer", .optional (settings.pointer.map quoted)),
      ("jq_expr", .optional (settings.filter.map quoted)),
      ("input", .list (settings.inputs.map fun input => .leaf (quoted input)))]

end InputSettings

namespace FormatSettings

def shownTree (settings : FormatSettings) : ShownTree :=
  .record "FormatSettings"
    [("indent", .leaf (toString settings.indent)), ("tabs", .flag settings.tabs),
      ("crlf", .flag settings.crlf), ("no_comments", .flag settings.noComments)]

end FormatSettings

namespace RenderSettings

def shownTree (settings : RenderSettings) : ShownTree :=
  .record "RenderOut"
    [("input_settings", settings.input.shownTree),
      ("format_settings", settings.format.shownTree),
      ("language", .leaf (quoted settings.language)),
      ("out_dir", .optional (settings.outDirectory.map quotedPath)),
      ("no_op", .flag settings.dryRun)]

end RenderSettings

namespace Invocation

def shownTree (invocation : Invocation) : ShownTree :=
  .record "CommandLineInterface"
    [("verbose", .flag invocation.verbose),
      ("cmd",
        match invocation.task with
        | .render settings => .wrapped "Render" settings.shownTree
        | .languages => .leaf "Languages")]

def debugText (invocation : Invocation) : String :=
  invocation.shownTree.render ""

end Invocation

end BuildScribe

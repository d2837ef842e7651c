import BuildScribe.Json.Codec

/-!
# Layout options

What the caller decides about the look of a script. Indent and line ending may be
any strings.
-/

namespace BuildScribe

structure LayoutOptions where
  /-- What one level of nesting puts in front of a line. -/
  indent : String := "    "
  lineEnding : String := "\n"
  /-- Whether comments are written. -/
  comments : Bool := true
  /-- Whether the places of located nodes are recorded. -/
  sourceMap : Bool := false
deriving DecidableEq

namespace LayoutOptions

def tabs : LayoutOptions :=
  { indent := "\t" }

def spaces (count : Nat) : LayoutOptions :=
  { indent := String.ofList (List.replicate count ' ') }

/-- How options are read and written. Unknown fields are skipped. -/
def record : Record LayoutOptions :=
  { title := "struct GenerationOptions"
    strict := false
    blank := {}
    fields := [
      .of "indent" false .text (·.indent)
        fun value options => { options with indent := value },
      .of "line_ending" false .text (·.lineEnding)
        fun value options => { options with lineEnding := value },
      .of "include_comments" false .flag (·.comments)
        fun value options => { options with comments := value },
      .of "include_source_map" false .flag (·.sourceMap)
        fun value options => { options with sourceMap := value }] }

end LayoutOptions

end BuildScribe

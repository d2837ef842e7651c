import BuildScribe.Building.Catalogue
import BuildScribe.Description.Section

/-!
# Descriptions of scripts

A description says what a Gradle script holds, not how it is written. It is replayed
as the steps of a build, always in the same order of sections, and rendered in one of
the target languages.
-/

namespace BuildScribe

structure ScriptDescription where
  imports : List String := []
  comment : Option String := none
  plugins : List PluginDescription := []
  group : Option String := none
  version : Option String := none
  vals : OrderedMap String DescribedValue := .empty
  properties : OrderedMap String DescribedValue := .empty
  repositories : List Repository := []
  publishing : Option PublishingDescription := none
  signing : Option SigningDescription := none
deriving DecidableEq

namespace ScriptDescription

def record : Record ScriptDescription :=
  { title := "struct BuildScript"
    strict := true
    blank := {}
    fields := [
      .of "imports" false (.list .text) (·.imports)
        fun value script => { script with imports := value },
      .of "comment" false (.optional .text) (·.comment)
        fun value script => { script with comment := value },
      .of "plugins" false (.list PluginDescription.codec) (·.plugins)
        fun value script => { script with plugins := value },
      .of "group" false (.optional .text) (·.group)
        fun value script => { script with group := value },
      .of "version" false (.optional .text) (·.version)
        fun value script => { script with version := value },
      .of "vals" false (.dictionary DescribedValue.codec) (·.vals)
        fun value script => { script with vals := value },
      .of "properties" false (.dictionary DescribedValue.codec) (·.properties)
        fun value script => { script with properties := value },
      .of "repositories" false (.list Repository.codec) (·.repositories)
        fun value script => { script with repositories := value },
      .of "publishing" false (.optional PublishingDescription.record.codec)
        (·.publishing)
        fun value script => { script with publishing := value },
      .of "signing" false (.optional SigningDescription.record.codec) (·.signing)
        fun value script => { script with signing := value }] }

def codec : Codec ScriptDescription :=
  record.codec

/-- Reads a description from the beginning of a text. What follows it is not looked
at. -/
def ofText (text : String) : Except Failure ScriptDescription :=
  (codec.readText text).mapError fun fault => .input (.ofText text fault)

def ofJson (json : Json) : Except Failure ScriptDescription :=
  (codec.fromJson json).mapError fun fault => .input (.ofJson fault)

def declaration (entry : String × DescribedValue) : Except Failure RootStep := do
  pure (.within (.declare entry.1 none (← entry.2.toNode)))

def assignment (entry : String × DescribedValue) : Except Failure RootStep := do
  pure (.within (.property entry.1 (← entry.2.toNode)))

def signingSteps : Option SigningDescription → Except Failure (List RootStep)
  | none => .ok []
  | some signing => do pure [.signing (← signing.parts)]

/-- The steps before the values of a description. -/
def headSteps (script : ScriptDescription) : List RootStep :=
  script.imports.map .addImport ++
    (script.comment.map fun text => .within (.comment text)).toList ++
    (if script.plugins.isEmpty then []
      else [.plugins (script.plugins.map (·.spec))]) ++
    (script.group.map .group).toList ++
    (script.version.map .version).toList

def publishingSteps (script : ScriptDescription) : List RootStep :=
  (if script.repositories.isEmpty then [] else [.repositories script.repositories]) ++
    (script.publishing.map fun publishing => .publishing publishing.parts).toList

/-- The steps that build the script. They fail for the first value that no script can
hold. -/
def steps (script : ScriptDescription) : Except Failure (List RootStep) := do
  let declarations ← script.vals.entries.mapM declaration
  let assignments ← script.properties.entries.mapM assignment
  let signing ← signingSteps script.signing
  pure (script.headSteps ++ declarations ++ assignments ++ script.publishingSteps ++
    signing)

def tree (script : ScriptDescription) (workshop : Workshop) : Except Failure Node := do
  let steps ← script.steps
  (workshop.build true steps).2.result

def render (script : ScriptDescription) (catalogue : Catalogue) (language : String)
    (options : LayoutOptions) : Except Failure String := do
  let workshop ← catalogue.createGradle .gradle language
  let node ← script.tree workshop
  let rendering ← workshop.render node options
  pure rendering.text

end ScriptDescription

end BuildScribe

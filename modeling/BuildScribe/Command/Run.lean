import BuildScribe.Command.DebugText
import BuildScribe.Command.Documents
import BuildScribe.Description.Script
import BuildScribe.Query.Outputs

/-!
# Runs

A run prints text and messages and writes files, until it is finished or a fault ends
it. What was printed and written before a fault stays.
-/

namespace BuildScribe

structure Session where
  store : FileStore
  printed : String := ""
  messages : String := ""

structure RunResult where
  session : Session
  fault : Option RunFault

namespace Session

def print (session : Session) (text : String) : Session :=
  { session with printed := session.printed ++ text }

def report (session : Session) (message : String) : Session :=
  { session with messages := session.messages ++ message ++ "\n" }

end Session

namespace Language

def fileExtension : Language → String
  | kotlin => "gradle.kts"
  | groovy => "gradle"

end Language

namespace RenderSettings

def renderDocument (settings : RenderSettings) (document : Document) :
    Except Failure String := do
  let script ← ScriptDescription.ofJson document.value
  script.render .standard settings.language settings.format.options

/-- Prints the script of a document, or writes it to its file. -/
def emit (settings : RenderSettings) (language : Language) (session : Session)
    (document : Document) (text : String) : Except RunFault Session :=
  match settings.outDirectory with
  | none => .ok (session.print text)
  | some directory => do
      let made ←
        (session.store.ensureDirectory directory).mapError (.noDirectory directory)
      let path := joinPath directory (document.outputName language.fileExtension)
      let written ← (made.write path text).mapError (.unwritable path)
      pure ({ session with store := written }.report
        ("wrote " ++ document.label ++ " → " ++ path))

/-- Hands out the scripts of all documents in order. Failing documents are reported and
counted. -/
def emitAll (settings : RenderSettings) (language : Language) (total : Nat) :
    (failures : Nat) → Session → List Document → RunResult
  | 0, session, [] => ⟨session, none⟩
  | failures, session, [] => ⟨session, some (.failed failures total)⟩
  | failures, session, document :: rest =>
      match settings.renderDocument document with
      | .error failure =>
          settings.emitAll language total (failures + 1)
            (session.report
              ("error: " ++ document.label ++ ": " ++ failure.message)) rest
      | .ok text =>
          match settings.emit language session document text with
          | .ok next => settings.emitAll language total failures next rest
          | .error fault => ⟨session, some fault⟩

/-- Renders all documents. The language is looked at before any file is. -/
def run (settings : RenderSettings) (engine : FilterEngine) (session : Session) :
    RunResult :=
  match Language.ofName? settings.language with
  | none => ⟨session, some (.language settings.language)⟩
  | some language =>
      match settings.input.load engine session.store with
      | .error fault => ⟨session, some fault⟩
      | .ok documents =>
          settings.emitAll language documents.length 0 session documents

end RenderSettings

namespace Catalogue

/-- The kinds and languages of a catalogue, one language to a line. -/
def listing (catalogue : Catalogue) : String :=
  let kinds := "kinds: " ++ String.intercalate ", " (catalogue.kinds.map (·.name))
  let languages :=
    (catalogue.moduleNames.zip catalogue.languages).map fun (name, language) =>
      name ++ " (" ++ language.title ++ ") " ++
        String.intercalate ", " (language.features.map (·.name))
  String.join ((kinds :: languages).map (· ++ "\n"))

end Catalogue

namespace Invocation

def runWith (invocation : Invocation) (engine : FilterEngine) (session : Session) :
    RunResult :=
  match invocation.task with
  | .languages => ⟨session.print Catalogue.standard.listing, none⟩
  | .render settings =>
      if settings.dryRun then ⟨session.report invocation.debugText, none⟩
      else settings.run engine session

/-- The program knows basic filters. -/
def run (invocation : Invocation) (session : Session) : RunResult :=
  invocation.runWith .basic session

end Invocation

end BuildScribe

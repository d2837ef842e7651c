import BuildScribe.Building.Draft
import BuildScribe.Target.Generator

/-!
# Workshops

A workshop builds scripts of one kind for one target language. Every build works in
a layer of its own on top of the workshop's layer, with a fresh scope and no imports,
so what one script declares is not seen by the next.
-/

namespace BuildScribe

/-- What a workshop is set up from. Any of it may be missing. -/
structure Ground where
  language : Option LanguageProfile := none
  types : Option TypeRegistry := none
  generator : Option Generator := none
  layer : Layer := {}

/-- A configured instance of a build language. -/
structure Workshop where
  kind : BuildKind
  gradle : Bool
  ground : Ground
  generator : Generator

namespace Workshop

def environment (workshop : Workshop) : Environment :=
  ⟨workshop.kind, workshop.ground.layer, []⟩

/-- The layer that a build starts with: a scope inside that of the workshop, if
there is one, and no imports. -/
def buildLayer (workshop : Workshop) : Layer :=
  { scope := workshop.ground.layer.scope.map fun _ => .fresh "script"
    imports := some [] }

def newDraft (workshop : Workshop) : Draft :=
  ⟨workshop.environment.push workshop.buildLayer, []⟩

/-- The workshop with what is left of its own layer after a build. -/
def after (workshop : Workshop) (run : DraftRun) : Workshop :=
  { workshop with
    ground :=
      { workshop.ground with layer := run.draft.environment.leave.own } }

/-- Runs the steps of one build and hands back the workshop. -/
def build (workshop : Workshop) (strict : Bool) (steps : List RootStep) :
    Workshop × DraftRun :=
  let run := RootStep.runAll strict workshop.newDraft steps
  (workshop.after run, run)

def buildAll (workshop : Workshop) (strict : Bool) :
    List (List RootStep) → Workshop × List DraftRun
  | [] => (workshop, [])
  | steps :: rest =>
      let (next, run) := workshop.build strict steps
      let (last, runs) := next.buildAll strict rest
      (last, run :: runs)

def render (workshop : Workshop) (node : Node) (options : LayoutOptions) :
    Except Failure Rendering :=
  workshop.generator.generate node options

end Workshop

def DraftRun.result (run : DraftRun) : Except Failure Node :=
  match run.failure with
  | some failure => .error failure
  | none => .ok run.draft.script

structure Factory where
  kind : BuildKind
  assemble : Ground → Except Failure Workshop

namespace Factory

/-- Makes Gradle workshops, which know the publishing section and the software
components. -/
def gradle : Factory :=
  { kind := .gradle
    assemble := fun ground =>
      match ground.language, ground.generator with
      | none, _ => .error (.configuration .language)
      | some _, none => .error (.configuration .generator)
      | some language, some base =>
          let handles :=
            HandleMap.register
              (HandleMap.register ground.layer.handles
                ⟨"publishing", "PublishingExtension"⟩)
              ⟨"components", "SoftwareComponentContainer"⟩
          .ok
            { kind := .gradle
              gradle := true
              ground :=
                { ground with layer := { ground.layer with handles := handles } }
              generator := .gradle language.family base } }

end Factory

end BuildScribe

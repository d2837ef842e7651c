import BuildScribe.Building.Environment
import BuildScribe.Building.Section

/-!
# Drafts

A script is drafted step by step. Every step may add a statement to the draft and
a declaration to the current scope, or fail; a failing step adds neither. The run of
a program of steps keeps a log of the steps in the order in which they finish.
-/

namespace BuildScribe

inductive BlockStep where
  | statement (node : Node)
  | property (path : String) (value : Node)
  | call (name : String) (arguments : List Node)
  | comment (text : String)
  | declare (name : String) (type : Option ScriptType) (initial : Node)
  /-- A block with a scope of its own. The first failing step inside makes it
  fail. -/
  | block (name : String) (body : List BlockStep)
  /-- A step whose failure does not end the block around it. -/
  | attempt (step : BlockStep)
  | askScope
  | askSymbol (name : String)
  | askHandle (name : String)

inductive RootStep where
  | within (step : BlockStep)
  | addImport (path : String)
  | group (value : String)
  | version (value : String)
  | plugins (specs : List PluginSpec)
  | repositories (repositories : List Repository)
  | publishing (parts : List PublishingPart)
  | signing (parts : List SigningPart)

inductive StepAnswer where
  | done
  | scope (path : String) (names : List String)
  | symbol (found : Option Symbol)
  | handle (found : Option Handle)

abbrev StepLog := List (RootStep × Except Failure StepAnswer)

/-- The statements collected so far, and the environment they are collected in. -/
structure Draft where
  environment : Environment
  statements : List Node := []

namespace Draft

def add (draft : Draft) (node : Node) : Draft :=
  { draft with statements := draft.statements ++ [node] }

/-- Declares a read-only name with an initial value, and defines its symbol. The
symbol knows the value of a literal. -/
def declare (draft : Draft) (name : String) (type : Option ScriptType)
    (initial : Node) : Except Failure Draft := do
  let readOnly := ModifierSet.ofList [.val]
  let value :=
    match initial with
    | .literal _ literal => some literal.toJson
    | _ => none
  let environment ← draft.environment.define
    { name := name
      type := type.getD (.simple "Any" ScriptType.anyName [])
      kind := .binding
      modifiers := readOnly
      value := value }
  let declaration : Node :=
    .declaration ⟨.declaration, none, .empty⟩ name readOnly (type.map .of)
      (some initial)
  pure ({ draft with environment := environment }.add declaration)

def askScope (draft : Draft) : Except Failure StepAnswer := do
  let scope ← draft.environment.currentScope
  pure (.scope (Scope.path draft.environment.scopes) scope.localNames)

def askSymbol (draft : Draft) (name : String) : Except Failure StepAnswer := do
  let _ ← draft.environment.currentScope
  pure (.symbol (draft.environment.resolveSymbol? name))

/-- The script of all statements, with the imports at its top. -/
def script (draft : Draft) : Node :=
  .ofStatements draft.environment.imports draft.statements

end Draft

/-- What is left behind by a run: a draft, the log, and the failure that ended the
run early. -/
structure DraftRun where
  draft : Draft
  log : StepLog
  failure : Option Failure

namespace DraftRun

def ofResult (step : RootStep) (draft : Draft) :
    Except Failure StepAnswer → DraftRun
  | .ok answer => ⟨draft, [(step, .ok answer)], none⟩
  | .error failure => ⟨draft, [(step, .error failure)], some failure⟩

/-- The run of a step that changes the draft unless it fails. -/
def ofChange (step : RootStep) (draft : Draft) : Except Failure Draft → DraftRun
  | .ok changed => ofResult step changed (.ok .done)
  | .error failure => ofResult step draft (.error failure)

/-- The run after which a failure does not count. -/
def forgiven (run : DraftRun) : DraftRun :=
  { run with failure := none }

end DraftRun

mutual

def BlockStep.run (draft : Draft) : BlockStep → DraftRun
  | .statement node =>
      .ofChange (.within (.statement node)) draft (.ok (draft.add node))
  | .property path value =>
      .ofChange (.within (.property path value)) draft
        (.ok (draft.add (.assign path value)))
  | .call name arguments =>
      .ofChange (.within (.call name arguments)) draft
        (.ok (draft.add (.invoke name arguments)))
  | .comment text =>
      .ofChange (.within (.comment text)) draft
        (.ok (draft.add (.ofComment text)))
  | .declare name type initial =>
      .ofChange (.within (.declare name type initial)) draft
        (draft.declare name type initial)
  | .block name body =>
      match draft.environment.enter name with
      | .error failure =>
          .ofResult (.within (.block name body)) draft (.error failure)
      | .ok inside =>
          let inner := BlockStep.runAll ⟨inside, []⟩ body
          let back : Draft :=
            { draft with environment := inner.draft.environment.leave }
          let outcome : Except Failure Draft :=
            match inner.failure with
            | some failure => .error failure
            | none => .ok (back.add (.named name inner.draft.statements))
          let own := DraftRun.ofChange (.within (.block name body)) back outcome
          { own with log := inner.log ++ own.log }
  | .attempt step => (step.run draft).forgiven
  | .askScope => .ofResult (.within .askScope) draft draft.askScope
  | .askSymbol name =>
      .ofResult (.within (.askSymbol name)) draft (draft.askSymbol name)
  | .askHandle name =>
      .ofResult (.within (.askHandle name)) draft
        (.ok (.handle (draft.environment.resolveHandle? name)))

def BlockStep.runAll (draft : Draft) : List BlockStep → DraftRun
  | [] => ⟨draft, [], none⟩
  | step :: rest =>
      let first := step.run draft
      match first.failure with
      | some failure => ⟨first.draft, first.log, some failure⟩
      | none =>
          let others := BlockStep.runAll first.draft rest
          { others with log := first.log ++ others.log }

end

namespace RootStep

/-- The signing section, which needs the handle of the publishing section. -/
def signingBlock (draft : Draft) (parts : List SigningPart) :
    Except Failure Draft :=
  match draft.environment.resolveHandle? "publishing" with
  | some handle => .ok (draft.add (SigningPart.block handle parts))
  | none => .error (.configuration .publishing)

def run (draft : Draft) : RootStep → DraftRun
  | within step => step.run draft
  | addImport path =>
      .ofChange (addImport path) draft
        (.ok { draft with environment := draft.environment.addImport path })
  | group value =>
      .ofChange (group value) draft
        (.ok (draft.add (.assign "group" (.ofString value))))
  | version value =>
      .ofChange (version value) draft
        (.ok (draft.add (.assign "version" (.ofString value))))
  | plugins specs =>
      .ofChange (plugins specs) draft (.ok (draft.add (PluginSpec.block specs)))
  | repositories listed =>
      .ofChange (repositories listed) draft
        (.ok (draft.add (Repository.block listed)))
  | publishing parts =>
      .ofChange (publishing parts) draft
        (.ok (draft.add (PublishingPart.block parts)))
  | signing parts =>
      .ofChange (signing parts) draft (signingBlock draft parts)

/-- Runs steps in order. A strict run ends at the first failure, any other run goes
on. -/
def runAll (strict : Bool) (draft : Draft) : List RootStep → DraftRun
  | [] => ⟨draft, [], none⟩
  | step :: rest =>
      let first := step.run draft
      match strict, first.failure with
      | true, some failure => ⟨first.draft, first.log, some failure⟩
      | _, _ =>
          let others := runAll strict first.draft rest
          { others with log := first.log ++ others.log }

end RootStep

end BuildScribe

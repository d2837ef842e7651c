import BuildScribe.Layout.Emission
import BuildScribe.Target.Generator

/-!
# Emissions of generators

A generator emits a tree node by node, with the indentation of blocks done and undone by
hand on every way out of them. Each rule for fragments has its counterpart here.
-/

namespace BuildScribe

namespace Emission

def braces (statements : List Emission) : Emission := do
  append "\x7b"
  endLine
  indented statements
  append "\x7d"

def script (imports : List String) (statements : List Emission) : Emission := do
  imports.forM fun path => appendLine ("import " ++ path)
  onlyIf (!(imports.isEmpty || statements.isEmpty)) (appendLine "")
  lines statements

/-- One line for every line of the text, unless comments are left out. -/
def comment (written : String) : Emission := do
  let buffer ← get
  onlyIf buffer.options.comments
    (between endLine ((textLines written).map fun line => append (commentLine line)))

def declaration (language : Language) (name : String) (modifiers : ModifierSet)
    (type initial : Option Emission) : Emission :=
  let value : Emission := initial.elim (pure ()) fun written => do
    append " = "
    written
  match language with
  | .kotlin => do
      append (Language.kotlin.modifierText modifiers)
      append (if modifiers.contains .var then "var " else "val ")
      append (Language.backtickedName name)
      type.elim (pure ()) fun written => do
        append ": "
        written
      value
  | .groovy => do
      append (Language.groovy.modifierText modifiers)
      type.elim (append "def ") fun written => do
        written
        append " "
      append name
      value

def delimited (opening closing : String) (parts : List Emission) : Emission := do
  append opening
  separated ", " parts
  append closing

def call (language : Language) (receiver : Option Emission) (name : String)
    (typeArguments arguments : List Emission) (trailing : Option Emission) : Emission := do
  let listed :=
    match language with
    | .kotlin => arguments
    | .groovy => arguments ++ typeArguments
  receiver.elim (pure ()) fun written => do
    written
    append "."
  append name
  onlyIf (language = .kotlin && !typeArguments.isEmpty) (delimited "<" ">" typeArguments)
  onlyIf (!(listed.isEmpty && trailing.isSome)) (delimited "(" ")" listed)
  trailing.elim (pure ()) fun written => do
    append " "
    written

def mavenRepository (language : Language) (url : String) : Emission :=
  match language with
  | .kotlin => append ("maven(" ++ Language.kotlin.stringLiteral url ++ ")")
  | .groovy => do
      append "maven \x7b"
      endLine
      deeper do
        append ("url " ++ Language.groovy.stringLiteral url)
        endLine
      append "\x7d"

end Emission

namespace Generator

open Emission

def refuse (emitter : Generator) (kind : String) : Emission :=
  fail (.unrenderable emitter.core.name kind)

def emitGradleNode (emitter : Generator) (kind : String) (rule : Language → Emission) :
    Emission :=
  match emitter.gradleLanguage? with
  | some target => rule target
  | none => emitter.refuse kind

def emitReference (emitter : Generator) (target : Reference) : Emission := do
  mark target.info.location
  append (emitter.core.referenceText target)

def emitTypeMention (emitter : Generator) (mention : TypeMention) : Emission := do
  mark mention.info.location
  append (emitter.core.typeText mention.type)

mutual

/-- Has `emitter` write a node, and `dispatch` the children of the node. -/
def emit (dispatch emitter : Generator) : Node → Emission
  | .literal info value => do
      mark info.location
      append (emitter.core.literalText value)
  | .reference target => emitter.emitReference target
  | .block body => emitBlock dispatch body
  | .typeMention mention => emitter.emitTypeMention mention
  | .declaration info name modifiers type initial => do
      mark info.location
      declaration emitter.core name modifiers (type.map dispatch.emitTypeMention)
        (emitOption dispatch initial)
  | .comment info written => do
      mark info.location
      comment written
  | .script info imports statements => do
      mark info.location
      emitter.emitGradleNode "GradleScript" fun _ =>
        script imports (emitList dispatch statements)
  | .assignment info target value => do
      mark info.location
      emitter.emitGradleNode "PropertyAssignment" fun _ => do
        dispatch.emitReference target
        append " = "
        emit dispatch dispatch value
  | .namedBlock info name body => do
      mark info.location
      emitter.emitGradleNode "ScriptBlock" fun _ => do
        append name
        append " "
        emitBlock dispatch body
  | .call info receiver name typeArguments arguments trailing => do
      mark info.location
      emitter.emitGradleNode "MethodCall" fun language =>
        call language (emitOption dispatch receiver) name
          (typeArguments.map dispatch.emitTypeMention) (emitList dispatch arguments)
          (emitOptionBlock dispatch trailing)
  | .plugin info spec => do
      mark info.location
      emitter.emitGradleNode "PluginSpec" fun language => append (language.pluginText spec)
  | .component info name => do
      mark info.location
      emitter.emitGradleNode "ComponentAccess" fun language =>
        append (language.componentText name)
  | .mavenRepository info url => do
      mark info.location
      emitter.emitGradleNode "MavenRepository" fun language =>
        mavenRepository language url
  | .foreign info kind _ => do
      mark info.location
      emitter.refuse kind

def emitList (dispatch : Generator) : List Node → List Emission
  | [] => []
  | node :: rest => emit dispatch dispatch node :: emitList dispatch rest

def emitOption (dispatch : Generator) : Option Node → Option Emission
  | none => none
  | some node => some (emit dispatch dispatch node)

def emitBlock (dispatch : Generator) : Block Node → Emission
  | ⟨info, statements⟩ => do
      mark info.location
      braces (emitList dispatch statements)

def emitOptionBlock (dispatch : Generator) : Option (Block Node) → Option Emission
  | none => none
  | some body => some (emitBlock dispatch body)

end

end Generator

end BuildScribe

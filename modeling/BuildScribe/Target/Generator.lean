import BuildScribe.Target.Comment
import BuildScribe.Target.Spelling

/-!
# Generators

A language generator writes the nodes that exist in every language. A Gradle
generator writes the nodes of Gradle scripts in the manner of one language and
leaves all others to the generator below it. The children of a node always go to
the generator that the whole tree was given to, so Gradle nodes inside the blocks
of a language are written too.

Where a node ends up on its way down is read off the stack of generators: nodes of
Gradle at the top, all others at the bottom. That this is the way from one generator
to the next is shown by `Generator.fragment_gradle_of_not_isGradle` (a Gradle generator
writes what the one below it writes) and `Generator.fragment_gradle_of_isGradle` (it
asks nothing of the one below it).
-/

namespace BuildScribe

inductive Generator where
  | language (language : Language)
  | gradle (language : Language) (base : Generator)
deriving DecidableEq

namespace Generator

/-- The usual Gradle generator of a language. -/
def standard (target : Language) : Generator :=
  .gradle target (.language target)

def name : Generator → String
  | language target => target.name
  | gradle target _ => "gradle-" ++ target.name

/-- The language generator below all Gradle generators, which is where nodes that are not
of Gradle are handed down to. -/
def core : Generator → Language
  | language target => target
  | gradle _ base => base.core

/-- The language whose manner Gradle nodes are written in, if they are written at
all. -/
def gradleLanguage? : Generator → Option Language
  | language _ => none
  | gradle target _ => some target

def debugText : Generator → String
  | language target => target.title ++ "Generator"
  | gradle target base =>
      "GradleGenerator \x7b family: " ++ target.title ++ ", base: " ++
        quoted base.name ++ " \x7d"

end Generator

namespace Fragment

/-- The body of a block, with its statements already rendered. -/
def braces (statements : List Fragment) : Fragment :=
  text "\x7b" ++ finish ++ nested (lines statements) ++ text "\x7d"

/-- A script with its statements already rendered. Between its imports and its
statements stands a blank line. -/
def script (imports : List String) (statements : List Fragment) : Fragment :=
  let gap :=
    if imports.isEmpty || statements.isEmpty then empty else line ""
  sequence (imports.map fun path => line ("import " ++ path)) ++ gap ++
    lines statements

end Fragment

namespace Language

open Fragment

/-- A declaration with its type and its initial value already rendered. A variable
that may change is told apart in Kotlin only; a missing type has a word of its own
in Groovy only. -/
def declaration (language : Language) (name : String) (modifiers : ModifierSet)
    (type initial : Option Fragment) : Fragment :=
  let value :=
    match initial with
    | none => empty
    | some written => text " = " ++ written
  match language with
  | kotlin =>
      let keyword := if modifiers.contains .var then "var " else "val "
      let typed :=
        match type with
        | none => empty
        | some written => text ": " ++ written
      text (kotlin.modifierText modifiers) ++ text keyword ++
        text (backtickedName name) ++ typed ++ value
  | groovy =>
      let typed :=
        match type with
        | none => text "def "
        | some written => written ++ text " "
      text (groovy.modifierText modifiers) ++ typed ++ text name ++ value

/-- A call with its parts already rendered. Groovy has no type arguments and takes
the types behind the arguments. The parentheses are left out when there is nothing
to put in them and a block follows. -/
def call (language : Language) (receiver : Option Fragment) (name : String)
    (typeArguments arguments : List Fragment) (trailing : Option Fragment) :
    Fragment :=
  let target :=
    match receiver with
    | none => empty
    | some written => written ++ text "."
  let types :=
    if language = kotlin && !typeArguments.isEmpty then
      text "<" ++ separated ", " typeArguments ++ text ">"
    else
      empty
  let listed :=
    match language with
    | kotlin => arguments
    | groovy => arguments ++ typeArguments
  let parenthesized :=
    if listed.isEmpty && trailing.isSome then
      empty
    else
      text "(" ++ separated ", " listed ++ text ")"
  let block :=
    match trailing with
    | none => empty
    | some written => text " " ++ written
  target ++ text name ++ types ++ parenthesized ++ block

def pluginId (language : Language) (spec : PluginSpec) : String :=
  match language, spec.core with
  | kotlin, true => backtickedName spec.id
  | kotlin, false => "id(" ++ kotlin.stringLiteral spec.id ++ ")"
  | groovy, _ => "id " ++ groovy.stringLiteral spec.id

/-- The text of a plugin: its address, its version and whether it is applied. -/
def pluginText (language : Language) (spec : PluginSpec) : String :=
  let version :=
    match spec.version with
    | none => ""
    | some version => " version " ++ language.stringLiteral version
  let applied :=
    match spec.apply with
    | none => ""
    | some applied => " apply " ++ toString applied
  language.pluginId spec ++ version ++ applied

def componentText (language : Language) (name : String) : String :=
  if language = groovy && isIdentifier name then
    "components." ++ name
  else
    "components[" ++ language.stringLiteral name ++ "]"

def mavenRepository (language : Language) (url : String) : Fragment :=
  match language with
  | kotlin => text ("maven(" ++ kotlin.stringLiteral url ++ ")")
  | groovy =>
      text "maven \x7b" ++ finish ++
        nested (text ("url " ++ groovy.stringLiteral url) ++ finish) ++
        text "\x7d"

end Language

namespace Generator

open Fragment

/-- The failure of a generator that has no rule for a node. -/
def refusal (emitter : Generator) (kind : String) : Fragment :=
  fail (.unrenderable emitter.core.name kind)

/-- What the emitter writes for a Gradle node: by the rule of its own language, or
nothing if it is a language generator. -/
def gradleNode (emitter : Generator) (kind : String)
    (rule : Language → Fragment) : Fragment :=
  match emitter.gradleLanguage? with
  | some target => rule target
  | none => emitter.refusal kind

def reference (emitter : Generator) (target : Reference) : Fragment :=
  mark target.info.location ++ text (emitter.core.referenceText target)

def typeMention (emitter : Generator) (mention : TypeMention) : Fragment :=
  mark mention.info.location ++ text (emitter.core.typeText mention.type)

mutual

/-- What a node contributes when `emitter` writes it and `dispatch` writes its
children. -/
def fragment (comments : Bool) (dispatch emitter : Generator) : Node → Fragment
  | .literal info value =>
      mark info.location ++ text (emitter.core.literalText value)
  | .reference target => emitter.reference target
  | .block body => blockFragment comments dispatch body
  | .typeMention mention => emitter.typeMention mention
  | .declaration info name modifiers type initial =>
      mark info.location ++
        emitter.core.declaration name modifiers (type.map dispatch.typeMention)
          (optionFragment comments dispatch initial)
  | .comment info written =>
      mark info.location ++ if comments then comment written else empty
  | .script info imports statements =>
      let parts := listFragment comments dispatch statements
      mark info.location ++
        emitter.gradleNode "GradleScript" fun _ => script imports parts
  | .assignment info target value =>
      let valuePart := fragment comments dispatch dispatch value
      mark info.location ++
        emitter.gradleNode "PropertyAssignment" fun _ =>
          dispatch.reference target ++ text " = " ++ valuePart
  | .namedBlock info name body =>
      let part := blockFragment comments dispatch body
      mark info.location ++
        emitter.gradleNode "ScriptBlock" fun _ => text name ++ text " " ++ part
  | .call info receiver name typeArguments arguments trailing =>
      let receiverPart := optionFragment comments dispatch receiver
      let parts := listFragment comments dispatch arguments
      let block := optionBlockFragment comments dispatch trailing
      mark info.location ++
        emitter.gradleNode "MethodCall" fun language =>
          language.call receiverPart name
            (typeArguments.map dispatch.typeMention) parts block
  | .plugin info spec =>
      mark info.location ++
        emitter.gradleNode "PluginSpec" fun language =>
          text (language.pluginText spec)
  | .component info name =>
      mark info.location ++
        emitter.gradleNode "ComponentAccess" fun language =>
          text (language.componentText name)
  | .mavenRepository info url =>
      mark info.location ++
        emitter.gradleNode "MavenRepository" fun language =>
          language.mavenRepository url
  | .foreign info kind _ => mark info.location ++ emitter.refusal kind

def listFragment (comments : Bool) (dispatch : Generator) :
    List Node → List Fragment
  | [] => []
  | node :: rest =>
      fragment comments dispatch dispatch node ::
        listFragment comments dispatch rest

def optionFragment (comments : Bool) (dispatch : Generator) :
    Option Node → Option Fragment
  | none => none
  | some node => some (fragment comments dispatch dispatch node)

def blockFragment (comments : Bool) (dispatch : Generator) :
    Block Node → Fragment
  | ⟨info, statements⟩ =>
      mark info.location ++
        braces (listFragment comments dispatch statements)

def optionBlockFragment (comments : Bool) (dispatch : Generator) :
    Option (Block Node) → Option Fragment
  | none => none
  | some body => some (blockFragment comments dispatch body)

end

/-- The text of a tree under the given options. A tree with a node that the
generator has no rule for has none. -/
def generate (generator : Generator) (node : Node) (options : LayoutOptions) :
    Except Failure Rendering :=
  (generator.fragment options.comments generator node).render options

end Generator

namespace Buffer

def emit (buffer : Buffer) (fragment : Fragment) : Buffer × Option Failure :=
  (buffer.writeFragment fragment, fragment.failure)

end Buffer

end BuildScribe

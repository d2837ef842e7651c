import BuildScribe.Number.Numeral
import BuildScribe.Scoping.Symbol

/-!
# Script trees

A script is a tree of nodes. The first six kinds exist in every target
language, the next seven belong to Gradle scripts, and `foreign` stands for any
kind that this library knows nothing about but its name, category and children.
-/

namespace BuildScribe

/-- A position in the file a node was made from. -/
structure SourceLocation where
  file : String
  line : Nat
  column : Nat
deriving DecidableEq

/-- The location as `file:line:column`. -/
def SourceLocation.text (location : SourceLocation) : String :=
  location.file ++ ":" ++ toString location.line ++ ":" ++ toString location.column

/-- The syntactic role a node is tagged with. -/
inductive Category where
  | expression
  | statement
  | declaration
  | block
  | literal
  | reference
  | type
deriving DecidableEq

namespace Category

def all : List Category :=
  [expression, statement, declaration, block, literal, reference, type]

def name : Category → String
  | expression => "expression"
  | statement => "statement"
  | declaration => "declaration"
  | block => "block"
  | literal => "literal"
  | reference => "reference"
  | type => "type"

def ofName? (word : String) : Option Category :=
  all.find? fun category => category.name == word

end Category

/-- What a node carries beside its content. None of it is ever rendered. -/
structure Metadata where
  category : Category
  location : Option SourceLocation := none
  attributes : OrderedMap String Json := .empty

inductive LiteralValue where
  | string (value : String)
  | integer (value : Int)
  | double (value : Binary64)
  | boolean (value : Bool)
  | null
deriving DecidableEq

namespace LiteralValue

/-- The kind of value; integers and doubles are both numbers. -/
def kindName : LiteralValue → String
  | string _ => "string"
  | integer _ => "number"
  | double _ => "number"
  | boolean _ => "boolean"
  | null => "null"

/-- The text of the value without quotes. Whole doubles are written in full and
keep `.0`, so that they stay doubles. -/
def plainText : LiteralValue → String
  | string value => value
  | integer value => toString value
  | double value =>
      if value.isWhole then value.wholeText else NumeralStyle.script.text value
  | boolean value => toString value
  | null => "null"

def toJson : LiteralValue → Json
  | string value => .string value
  | integer value => .integer value
  | double value => .ofBinary64 value
  | boolean value => .bool value
  | null => .null

end LiteralValue

/-- A name, or a member of what another reference names. -/
inductive Reference where
  | root (info : Metadata) (name : String)
  | member (info : Metadata) (qualifier : Reference) (name : String)

/-- The pieces of a path between its points. There is always one, which may be
empty. -/
def pathSegments (path : String) : List String :=
  (path.toList.splitOn '.').map String.ofList

namespace Reference

def info : Reference → Metadata
  | root info _ => info
  | member info _ _ => info

def name : Reference → String
  | root _ name => name
  | member _ _ name => name

def qualifier? : Reference → Option Reference
  | root _ _ => none
  | member _ qualifier _ => some qualifier

/-- The names from the root to the last one. -/
def segments : Reference → List String
  | root _ name => [name]
  | member _ qualifier name => qualifier.segments ++ [name]

def dottedPath (reference : Reference) : String :=
  String.intercalate "." reference.segments

def single (name : String) : Reference :=
  .root ⟨.reference, none, .empty⟩ name

def through (start : Reference) (names : List String) : Reference :=
  names.foldl (fun qualifier name => .member ⟨.reference, none, .empty⟩ qualifier name)
    start

def ofSegments : List String → Reference
  | [] => single ""
  | first :: rest => (single first).through rest

/-- The reference of a dotted path; there is none when a name would be empty. -/
def ofPath? (path : String) : Option Reference :=
  let names := pathSegments path
  if names.any String.isEmpty then none else some (ofSegments names)

/-- The reference of a dotted path. A malformed path is kept as one name. -/
def ofPath (path : String) : Reference :=
  (ofPath? path).getD (single path)

def withInfo (reference : Reference) (info : Metadata) : Reference :=
  match reference with
  | root _ name => .root info name
  | member _ qualifier name => .member info qualifier name

end Reference

/-- A type where a script mentions it, as the type of a declaration or as an
argument. -/
structure TypeMention where
  info : Metadata
  type : ScriptType

def TypeMention.of (type : ScriptType) : TypeMention :=
  ⟨⟨.type, none, .empty⟩, type⟩

structure Block (α : Type) where
  info : Metadata
  statements : List α

def Block.of {α : Type} (statements : List α) : Block α :=
  ⟨⟨.block, none, .empty⟩, statements⟩

/-- An entry of the plugins of a script. A core plugin is addressed by its bare
name where the target language allows it. -/
structure PluginSpec where
  id : String
  core : Bool
  version : Option String
  apply : Option Bool
deriving DecidableEq

inductive Node where
  | literal (info : Metadata) (value : LiteralValue)
  | reference (target : Reference)
  | block (body : Block Node)
  | typeMention (mention : TypeMention)
  | declaration (info : Metadata) (name : String) (modifiers : ModifierSet)
      (type : Option TypeMention) (initial : Option Node)
  | comment (info : Metadata) (text : String)
  /-- A whole script: imports, then statements without braces. -/
  | script (info : Metadata) (imports : List String) (statements : List Node)
  | assignment (info : Metadata) (target : Reference) (value : Node)
  | namedBlock (info : Metadata) (name : String) (body : Block Node)
  | call (info : Metadata) (receiver : Option Node) (name : String)
      (typeArguments : List TypeMention) (arguments : List Node)
      (trailing : Option (Block Node))
  | plugin (info : Metadata) (spec : PluginSpec)
  | component (info : Metadata) (name : String)
  | mavenRepository (info : Metadata) (url : String)
  | foreign (info : Metadata) (kind : String) (children : List Node)

namespace Node

def info : Node → Metadata
  | literal info _ => info
  | reference target => target.info
  | block body => body.info
  | typeMention mention => mention.info
  | declaration info _ _ _ _ => info
  | comment info _ => info
  | script info _ _ => info
  | assignment info _ _ => info
  | namedBlock info _ _ => info
  | call info _ _ _ _ _ => info
  | plugin info _ => info
  | component info _ => info
  | mavenRepository info _ => info
  | foreign info _ _ => info

def kindName : Node → String
  | literal _ _ => "Literal"
  | reference _ => "Reference"
  | block _ => "Block"
  | typeMention _ => "TypeNode"
  | declaration _ _ _ _ _ => "VariableDeclaration"
  | comment _ _ => "Comment"
  | script _ _ _ => "GradleScript"
  | assignment _ _ _ => "PropertyAssignment"
  | namedBlock _ _ _ => "ScriptBlock"
  | call _ _ _ _ _ _ => "MethodCall"
  | plugin _ _ => "PluginSpec"
  | component _ _ => "ComponentAccess"
  | mavenRepository _ _ => "MavenRepository"
  | foreign _ kind _ => kind

/-- The parts of a node that are nodes themselves, in the order of rendering. -/
def children : Node → List Node
  | literal _ _ => []
  | reference target => target.qualifier?.toList.map reference
  | block body => body.statements
  | typeMention _ => []
  | declaration _ _ _ type initial => type.toList.map typeMention ++ initial.toList
  | comment _ _ => []
  | script _ _ statements => statements
  | assignment _ target value => [reference target, value]
  | namedBlock _ _ body => [block body]
  | call _ receiver _ typeArguments arguments trailing =>
      receiver.toList ++ typeArguments.map typeMention ++ arguments ++
        trailing.toList.map block
  | plugin _ _ => []
  | component _ _ => []
  | mavenRepository _ _ => []
  | foreign _ _ children => children

/-- What identifies a node of some kinds in a listing. -/
def label? : Node → Option String
  | literal _ value => some value.plainText
  | reference target => some target.dottedPath
  | typeMention mention => some mention.type.qualifiedName
  | declaration _ name modifiers _ _ =>
      some (String.intercalate " " modifiers.keywords ++ " " ++ name)
  | comment _ text => some text
  | _ => none

def isGradle : Node → Bool
  | script _ _ _ | assignment _ _ _ | namedBlock _ _ _ | call _ _ _ _ _ _
  | plugin _ _ | component _ _ | mavenRepository _ _ => true
  | _ => false

/-- Whether the node exists in every target language. -/
def isCore : Node → Bool
  | literal _ _ | reference _ | block _ | typeMention _
  | declaration _ _ _ _ _ | comment _ _ => true
  | _ => false

def ofLiteral (value : LiteralValue) : Node :=
  .literal ⟨.literal, none, .empty⟩ value

def ofString (value : String) : Node :=
  ofLiteral (.string value)

def ofPath (path : String) : Node :=
  .reference (.ofPath path)

def ofComment (text : String) : Node :=
  .comment ⟨.statement, none, .empty⟩ text

def assign (path : String) (value : Node) : Node :=
  .assignment ⟨.statement, none, .empty⟩ (.ofPath path) value

def named (name : String) (statements : List Node) : Node :=
  .namedBlock ⟨.statement, none, .empty⟩ name (.of statements)

def invoke (name : String) (arguments : List Node) : Node :=
  .call ⟨.expression, none, .empty⟩ none name [] arguments none

def ofStatements (imports : List String) (statements : List Node) : Node :=
  .script ⟨.block, none, .empty⟩ imports statements

end Node

end BuildScribe

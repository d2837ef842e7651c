/-!
# Types of scripts

Types are nominal: a simple type is its qualified name, whatever it is called
for short and whatever parameters it declares. `accepts` is the assignability
relation: generic types are covariant in every argument, the top type accepts
every type that is not nullable, and a nullable type accepts what its inner
type accepts, with or without nullability.
-/

namespace BuildScribe

mutual

inductive ScriptType where
  | simple (name qualifiedName : String) (parameters : List TypeParameter)
  | generic (base : ScriptType) (arguments : List ScriptType)
  | nullable (inner : ScriptType)

/-- A parameter that a simple type declares. -/
inductive TypeParameter where
  | mk (name : String) (bounds : List TypeBound)

inductive TypeBound where
  | upper (type : ScriptType)
  | lower (type : ScriptType)

end

namespace ScriptType

/-- A simple type without parameters whose two names agree. -/
def named (name : String) : ScriptType :=
  .simple name name []

def anyName : String := "kotlin.Any"

def nothingName : String := "kotlin.Nothing"

def isNullable : ScriptType → Bool
  | nullable _ => true
  | _ => false

/-- Makes a type nullable, unless it is so already. -/
def orNull : ScriptType → ScriptType
  | nullable inner => nullable inner
  | type => nullable type

/-- The type below one level of nullability. -/
def nonNull : ScriptType → ScriptType
  | nullable inner => inner
  | type => type

def joinArguments (names : List String) : String :=
  String.intercalate ", " names

mutual

/-- The text of a type under a naming of its simple types; a nullable type is
marked behind its inner type. -/
def textBy (simpleName : String → String → String) (mark : String) :
    ScriptType → String
  | simple name qualifiedName _ => simpleName name qualifiedName
  | generic base arguments =>
      base.textBy simpleName mark ++ "<" ++
        joinArguments (textByList simpleName mark arguments) ++ ">"
  | nullable inner => inner.textBy simpleName mark ++ mark

def textByList (simpleName : String → String → String) (mark : String) :
    List ScriptType → List String
  | [] => []
  | type :: rest => type.textBy simpleName mark :: textByList simpleName mark rest

end

/-- The short name, with arguments and question marks. -/
def name (type : ScriptType) : String :=
  type.textBy (fun short _ => short) "?"

def qualifiedName (type : ScriptType) : String :=
  type.textBy (fun _ qualified => qualified) "?"

/-- The parameters a type declares; a generic type has used them up. -/
def parameters : ScriptType → List TypeParameter
  | simple _ _ declared => declared
  | generic _ _ => []
  | nullable inner => inner.parameters

mutual

/-- Equality of types: simple types agree in their qualified names, all others in
their structure. -/
def same : ScriptType → ScriptType → Bool
  | simple _ left _, simple _ right _ => left == right
  | generic leftBase leftArguments, generic rightBase rightArguments =>
      same leftBase rightBase && sameList leftArguments rightArguments
  | nullable left, nullable right => same left right
  | _, _ => false

def sameList : List ScriptType → List ScriptType → Bool
  | [], [] => true
  | left :: lefts, right :: rights => same left right && sameList lefts rights
  | _, _ => false

end

mutual

/-- Whether a value of the second type may stand where the first is expected. -/
def accepts : ScriptType → ScriptType → Bool
  | simple _ target _, source =>
      match source with
      | nullable _ => false
      | simple _ name _ => target == anyName || target == name
      | generic _ _ => target == anyName
  | generic targetBase targetArguments, source =>
      match source with
      | generic base arguments =>
          same targetBase base && acceptsList targetArguments arguments
      | _ => false
  | nullable target, source => accepts target source.nonNull

def acceptsList : List ScriptType → List ScriptType → Bool
  | [], [] => true
  | target :: targets, source :: sources =>
      accepts target source && acceptsList targets sources
  | _, _ => false

end

end ScriptType

end BuildScribe

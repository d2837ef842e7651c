import BuildScribe.Json.Basic

/-!
# JSON pointers

A pointer leads from a document to one of its parts. It is empty, or a sequence of
steps that each start with a slash; inside a step `~1` is a slash and `~0` a tilde.
-/

namespace BuildScribe

namespace Pointer

def unescaped : List Char → List Char
  | '~' :: '1' :: rest => '/' :: unescaped rest
  | '~' :: '0' :: rest => '~' :: unescaped rest
  | c :: rest => c :: unescaped rest
  | [] => []

/-- The steps of a pointer, unless it starts with something else than a slash. -/
def steps? (text : String) : Option (List String) :=
  match text.toList with
  | [] => some []
  | '/' :: rest => some ((rest.splitOn '/').map fun step => String.ofList (unescaped step))
  | _ => none

/-- The position that a step stands for in a list: digits without needless zeros. -/
def index? (step : String) : Option Nat :=
  match step.toList with
  | [] => none
  | ['0'] => some 0
  | '0' :: _ => none
  | digits =>
      if digits.all fun c => '0' ≤ c && c ≤ '9' then
        some (digits.foldl (fun value c => value * 10 + (c.toNat - '0'.toNat)) 0)
      else
        none

end Pointer

namespace Json

def child? (step : String) : Json → Option Json
  | array items => (Pointer.index? step).bind fun position => items[position]?
  | object members => field? step (object members)
  | _ => none

def pointed? (pointer : String) (value : Json) : Option Json := do
  let steps ← Pointer.steps? pointer
  steps.foldlM (fun current step => current.child? step) value

end Json

end BuildScribe

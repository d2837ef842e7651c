import BuildScribe.Proofs.Rendering.Coverage

/-!
# Fragments without marks

Leaving the marks out of a fragment changes neither its lines nor its failure, and it makes no
difference whether they are left out of the whole or of the parts it is put together from.
-/

namespace BuildScribe

theorem Page.writeAll_filter_unmarked (page : Page) (level : Nat) (pieces : List Piece) :
    page.writeAll level (pieces.filter fun piece => piece.stroke.location?.isNone) =
      page.writeAll level pieces := by
  induction pieces generalizing page with
  | nil => rfl
  | cons piece rest ih =>
      obtain ⟨depth, stroke⟩ := piece
      cases stroke with
      | mark location => exact ih page
      | _ => exact ih (page.write level _)

namespace Fragment

/-- The fragment without the marks in it. -/
def unmarked (fragment : Fragment) : Fragment :=
  ⟨fragment.pieces.filter fun piece => piece.stroke.location?.isNone, fragment.failure⟩

theorem layout_unmarked (fragment : Fragment) : fragment.unmarked.layout = fragment.layout := by
  rw [layout, unmarked, Page.writeAll_filter_unmarked, layout]

/-- What is rendered, apart from the places: the failure if there is one, and otherwise the
text of the lines. -/
theorem map_text_render (fragment : Fragment) (options : LayoutOptions) :
    (fragment.render options).map Rendering.text =
      match fragment.failure with
      | some failure => .error failure
      | none => .ok (linesText options fragment.layout) := by
  cases fails : fragment.failure with
  | some failure =>
      rw [render, fails]
      rfl
  | none =>
      obtain ⟨rendering, succeeds, text⟩ := fragment.render_eq_linesText options fails
      rw [succeeds, ← text]
      rfl

theorem empty_append (fragment : Fragment) : empty ++ fragment = fragment := rfl

@[simp] theorem unmarked_empty : empty.unmarked = empty := rfl

@[simp] theorem unmarked_text (written : String) : (text written).unmarked = text written := rfl

@[simp] theorem unmarked_line (written : String) : (line written).unmarked = line written := rfl

@[simp] theorem unmarked_finish : finish.unmarked = finish := rfl

@[simp] theorem unmarked_fail (failure : Failure) : (fail failure).unmarked = fail failure := rfl

@[simp] theorem unmarked_mark (location : Option SourceLocation) :
    (mark location).unmarked = empty := by
  cases location <;> rfl

@[simp] theorem unmarked_append (first second : Fragment) :
    (first ++ second).unmarked = first.unmarked ++ second.unmarked := by
  change (first.andThen second).unmarked = first.unmarked.andThen second.unmarked
  unfold andThen unmarked
  cases first.failure <;> simp

@[simp] theorem unmarked_nested (fragment : Fragment) :
    fragment.nested.unmarked = fragment.unmarked.nested := by
  rw [nested, unmarked, unmarked, nested, List.filter_map]
  rfl

@[simp] theorem unmarked_sequence (parts : List Fragment) :
    (sequence parts).unmarked = sequence (parts.map unmarked) := by
  induction parts with
  | nil => rfl
  | cons first rest ih => rw [sequence, unmarked_append, ih, List.map_cons, sequence]

@[simp] theorem unmarked_lines (parts : List Fragment) :
    (lines parts).unmarked = lines (parts.map unmarked) := by
  induction parts with
  | nil => rfl
  | cons first rest ih =>
      rw [lines, unmarked_append, unmarked_append, unmarked_finish, ih, List.map_cons, lines]

@[simp] theorem unmarked_separated (separator : String) (parts : List Fragment) :
    (separated separator parts).unmarked = separated separator (parts.map unmarked) := by
  induction parts with
  | nil => rfl
  | cons first rest ih =>
      cases rest with
      | nil => rfl
      | cons second others =>
          rw [separated, unmarked_append, unmarked_append, unmarked_text, ih, List.map_cons,
            List.map_cons, List.map_cons, separated]

@[simp] theorem unmarked_onLines (parts : List Fragment) :
    (onLines parts).unmarked = onLines (parts.map unmarked) := by
  induction parts with
  | nil => rfl
  | cons first rest ih =>
      cases rest with
      | nil => rfl
      | cons second others =>
          rw [onLines, unmarked_append, unmarked_append, unmarked_finish, ih, List.map_cons,
            List.map_cons, List.map_cons, onLines]

theorem unmarked_comment (written : String) :
    (comment written).unmarked = comment written := by
  rw [comment, unmarked_onLines, List.map_map]
  rfl

theorem unmarked_braces (statements : List Fragment) :
    (braces statements).unmarked = braces (statements.map unmarked) := by
  simp [braces]

theorem unmarked_script (imports : List String) (statements : List Fragment) :
    (script imports statements).unmarked = script imports (statements.map unmarked) := by
  have gap (absent : Bool) : (if absent then empty else line "").unmarked =
      if absent then empty else line "" := by
    cases absent <;> rfl
  have importLines : (imports.map fun path => line ("import " ++ path)).map unmarked =
      imports.map fun path => line ("import " ++ path) := by
    rw [List.map_map]
    rfl
  simp only [script, unmarked_append, unmarked_sequence, unmarked_lines, importLines, gap,
    List.isEmpty_map]

end Fragment

namespace Language

open Fragment

theorem unmarked_declaration (language : Language) (name : String) (modifiers : ModifierSet)
    (type initial : Option Fragment) :
    (language.declaration name modifiers type initial).unmarked =
      language.declaration name modifiers (type.map unmarked) (initial.map unmarked) := by
  cases language <;> cases type <;> cases initial <;> simp [declaration]

theorem unmarked_call (language : Language) (receiver : Option Fragment) (name : String)
    (typeArguments arguments : List Fragment) (trailing : Option Fragment) :
    (language.call receiver name typeArguments arguments trailing).unmarked =
      language.call (receiver.map unmarked) name (typeArguments.map unmarked)
        (arguments.map unmarked) (trailing.map unmarked) := by
  have chosen (condition : Prop) [Decidable condition] (part : Fragment) :
      (if condition then empty else part).unmarked =
        if condition then empty else part.unmarked := by
    split <;> rfl
  have target : (receiver.elim empty fun written => written ++ text ".").unmarked =
      (receiver.map unmarked).elim empty fun written => written ++ text "." := by
    cases receiver <;> simp
  have block : (trailing.elim empty fun written => text " " ++ written).unmarked =
      (trailing.map unmarked).elim empty fun written => text " " ++ written := by
    cases trailing <;> simp
  have listed : (language.listed typeArguments arguments).map unmarked =
      language.listed (typeArguments.map unmarked) (arguments.map unmarked) := by
    cases language <;> simp [Language.listed]
  have types : (if language = kotlin && !typeArguments.isEmpty then
        text "<" ++ separated ", " typeArguments ++ text ">" else empty).unmarked =
      if language = kotlin && !(typeArguments.map unmarked).isEmpty then
        text "<" ++ separated ", " (typeArguments.map unmarked) ++ text ">" else empty := by
    rw [List.isEmpty_map]
    split <;> simp
  rw [call_eq, call_eq]
  simp only [unmarked_append, unmarked_text, target, types, chosen, unmarked_separated, block,
    ← listed, List.isEmpty_map, Option.isSome_map]

theorem unmarked_mavenRepository (language : Language) (url : String) :
    (language.mavenRepository url).unmarked = language.mavenRepository url := by
  cases language <;> rfl

end Language

end BuildScribe

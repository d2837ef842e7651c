import BuildScribe.Proofs.Layout.Nesting
import Mathlib.Data.List.Forall2

/-!
# Fragments that write the same

Two fragments agree if they write the same, on every page or at least where a line starts.
Agreement passes through everything that fragments are put together with. A fragment that
writes nothing may be left out where every part ends its line.
-/

namespace BuildScribe

theorem Page.eq_ofLines {page : Page} (starts : page.current = none) :
    page = ofLines page.closed := by
  obtain ⟨closed, current⟩ := page
  exact congrArg (Page.mk closed) starts

namespace Fragment

/-- Two fragments that both succeed and write the same. If they are to agree at the start of
a line only, pages with something on the current line do not matter. -/
structure Agrees (atStart : Bool) (first second : Fragment) : Prop where
  firstSucceeds : first.failure = none
  secondSucceeds : second.failure = none
  writes : ∀ (page : Page) (level : Nat), (atStart = true → page.current = none) →
    page.writeAll level first.pieces = page.writeAll level second.pieces

/-- Lists of fragments that have the same lines, if each fragment ends its line. -/
structure SameLines (first second : List Fragment) : Prop where
  firstSucceed : ∀ fragment ∈ first, fragment.failure = none
  secondSucceed : ∀ fragment ∈ second, fragment.failure = none
  lines : first.flatMap layout = second.flatMap layout

namespace Agrees

variable {atStart : Bool} {first second third fourth fragment : Fragment}
  {before after : List Fragment}

theorem refl (succeeds : fragment.failure = none) : Agrees atStart fragment fragment :=
  ⟨succeeds, succeeds, fun _ _ _ => rfl⟩

theorem text (written : String) :
    Agrees atStart (Fragment.text written) (Fragment.text written) :=
  refl rfl

theorem empty : Agrees atStart Fragment.empty Fragment.empty :=
  refl rfl

theorem append (onFirst : Agrees atStart first second) (onSecond : Agrees false third fourth) :
    Agrees atStart (first ++ third) (second ++ fourth) := by
  refine ⟨?_, ?_, ?_⟩
  · rw [failure_append, onFirst.firstSucceeds, onSecond.firstSucceeds]
    rfl
  · rw [failure_append, onFirst.secondSucceeds, onSecond.secondSucceeds]
    rfl
  · intro page level starts
    rw [pieces_append onFirst.firstSucceeds, pieces_append onFirst.secondSucceeds,
      Page.writeAll_append, Page.writeAll_append, onFirst.writes page level starts,
      onSecond.writes _ level (by simp)]

/-- Behind a line that has ended it is enough to agree at the start of a line. -/
theorem append_ended (onFirst : Agrees atStart first second)
    (onSecond : Agrees true third fourth) :
    Agrees atStart (first ++ finish ++ third) (second ++ finish ++ fourth) := by
  have ended : Agrees atStart (first ++ finish) (second ++ finish) :=
    onFirst.append (refl rfl)
  refine ⟨?_, ?_, ?_⟩
  · rw [failure_append, ended.firstSucceeds, onSecond.firstSucceeds]
    rfl
  · rw [failure_append, ended.secondSucceeds, onSecond.secondSucceeds]
    rfl
  · intro page level starts
    have settled : ((page.writeAll level (second ++ finish).pieces)).current = none := by
      rw [pieces_append onFirst.secondSucceeds, Page.writeAll_append, Page.writeAll_finish,
        Page.current_settle]
    rw [pieces_append ended.firstSucceeds, pieces_append ended.secondSucceeds,
      Page.writeAll_append, Page.writeAll_append, ended.writes page level starts,
      onSecond.writes _ level fun _ => settled]

theorem marked (agrees : Agrees atStart first second) (location : Option SourceLocation) :
    Agrees atStart (mark location ++ first) (mark location ++ second) := by
  refine ⟨?_, ?_, ?_⟩
  · rw [failure_append, agrees.firstSucceeds]
    rfl
  · rw [failure_append, agrees.secondSucceeds]
    rfl
  · intro page level starts
    rw [pieces_append rfl, pieces_append rfl, Page.writeAll_append, Page.writeAll_append,
      Page.writeAll_mark, agrees.writes page level starts]

theorem nested (agrees : Agrees atStart first second) :
    Agrees atStart first.nested second.nested := by
  refine ⟨agrees.firstSucceeds, agrees.secondSucceeds, ?_⟩
  intro page level starts
  rw [Page.writeAll_nested, Page.writeAll_nested, agrees.writes page (level + 1) starts]

theorem layout (agrees : Agrees true first second) : first.layout = second.layout := by
  rw [Fragment.layout, agrees.writes Page.blank 0 fun _ => rfl, Fragment.layout]

/-- An optional part with some text around it. -/
theorem option {missing : Fragment} (absent : missing.failure = none)
    {present : Fragment → Fragment} {part changed : Option Fragment}
    {partAtStart : Bool} (onPart : Option.Rel (Agrees partAtStart) part changed)
    (surrounds : ∀ {first second}, Agrees partAtStart first second →
      Agrees atStart (present first) (present second)) :
    Agrees atStart (part.elim missing present) (changed.elim missing present) := by
  cases onPart with
  | none => exact refl absent
  | some agrees => exact surrounds agrees

theorem separated {parts changed : List Fragment}
    (onParts : List.Forall₂ (Agrees false) parts changed) (separator : String) :
    Agrees false (Fragment.separated separator parts)
      (Fragment.separated separator changed) := by
  induction onParts with
  | nil => exact empty
  | cons onFirst onRest ih =>
      cases onRest with
      | nil => exact onFirst
      | cons _ _ => exact (onFirst.append (text separator)).append ih

theorem lines (same : SameLines before after) :
    Agrees true (Fragment.lines before) (Fragment.lines after) := by
  refine ⟨?_, ?_, ?_⟩
  · simpa [List.findSome?_eq_none_iff] using same.firstSucceed
  · simpa [List.findSome?_eq_none_iff] using same.secondSucceed
  · intro page level starts
    rw [Page.eq_ofLines (starts rfl), Page.writeAll_lines _ _ _ same.firstSucceed,
      Page.writeAll_lines _ _ _ same.secondSucceed, same.lines]

theorem braces (same : SameLines before after) :
    Agrees atStart (Fragment.braces before) (Fragment.braces after) :=
  (append_ended (text _) (lines same).nested).append (text _)

/-- Only the first statement of a script without imports may stand in the middle of a
line. -/
theorem script_nil (onFirst : Agrees atStart first second)
    (same : SameLines before after) :
    Agrees atStart (Fragment.script [] (first :: before))
      (Fragment.script [] (second :: after)) :=
  append_ended onFirst (lines same)

theorem script_nil_atStart (same : SameLines before after) :
    Agrees true (Fragment.script [] before) (Fragment.script [] after) :=
  lines same

/-- The lines of imports, and the blank line behind them, end on a fresh line. -/
theorem script_cons (same : SameLines before after)
    (together : before.isEmpty = after.isEmpty) (path : String) (rest : List String) :
    Agrees atStart (Fragment.script (path :: rest) before)
      (Fragment.script (path :: rest) after) := by
  have gapSucceeds (absent : Bool) :
      (if absent then Fragment.empty else line "").failure = none := by
    cases absent <;> rfl
  have importsSucceed (paths : List String) :
      (sequence (paths.map fun path => line ("import " ++ path))).failure = none := by
    simp [List.findSome?_eq_none_iff]
  have headSucceeds (absent : Bool) :
      (sequence ((path :: rest).map fun path => line ("import " ++ path)) ++
        if absent then Fragment.empty else line "").failure = none := by
    rw [failure_append, importsSucceed, gapSucceeds]
    rfl
  have gapEnds (above : List Line) (level : Nat) (absent : Bool) :
      ((Page.ofLines above).writeAll level
        (if absent then Fragment.empty else line "").pieces).current = none := by
    cases absent with
    | true => rfl
    | false => exact congrArg Page.current (Page.writeAll_line above level "")
  have headEnds (page : Page) (level : Nat) (absent : Bool) :
      (page.writeAll level
        (sequence ((path :: rest).map fun path => line ("import " ++ path)) ++
          if absent then Fragment.empty else line "").pieces).current = none := by
    have firstEnds : page.writeAll level (line ("import " ++ path)).pieces =
        Page.ofLines ((page.put level ("import " ++ path)).close level).closed := rfl
    rw [pieces_append (importsSucceed _), Page.writeAll_append, List.map_cons, sequence,
      pieces_append rfl, Page.writeAll_append, firstEnds,
      Page.writeAll_sequence_line (fun path => "import " ++ path), gapEnds]
  have onLines := lines same
  unfold Fragment.script
  rw [together]
  refine ⟨?_, ?_, ?_⟩
  · rw [failure_append, headSucceeds, onLines.firstSucceeds]
    rfl
  · rw [failure_append, headSucceeds, onLines.secondSucceeds]
    rfl
  · intro page level _
    rw [pieces_append (headSucceeds _), pieces_append (headSucceeds _),
      Page.writeAll_append, Page.writeAll_append,
      onLines.writes _ level fun _ => headEnds page level _]

end Agrees

namespace SameLines

variable {first second : Fragment} {before after : List Fragment}

theorem nil : SameLines [] [] :=
  ⟨by simp, by simp, rfl⟩

theorem cons (onFirst : Agrees true first second) (same : SameLines before after) :
    SameLines (first :: before) (second :: after) := by
  refine ⟨?_, ?_, ?_⟩
  · exact List.forall_mem_cons.mpr ⟨onFirst.firstSucceeds, same.firstSucceed⟩
  · exact List.forall_mem_cons.mpr ⟨onFirst.secondSucceeds, same.secondSucceed⟩
  · rw [List.flatMap_cons, List.flatMap_cons, onFirst.layout, same.lines]

/-- A fragment without lines may be left out. -/
theorem skip (succeeds : first.failure = none) (silent : first.layout = [])
    (same : SameLines before after) : SameLines (first :: before) after := by
  refine ⟨?_, same.secondSucceed, ?_⟩
  · exact List.forall_mem_cons.mpr ⟨succeeds, same.firstSucceed⟩
  · rw [List.flatMap_cons, silent, List.nil_append, same.lines]

end SameLines

end Fragment

namespace Language

open Fragment

variable {atStart : Bool}

/-- Only the initial value of a declaration can differ; its other parts are texts. -/
theorem agrees_declaration (language : Language) (name : String) (modifiers : ModifierSet)
    {type : Option Fragment} (typeSucceeds : ∀ written ∈ type, written.failure = none)
    {initial changed : Option Fragment}
    (onInitial : Option.Rel (Agrees false) initial changed) :
    Agrees atStart (language.declaration name modifiers type initial)
      (language.declaration name modifiers type changed) := by
  have value : Agrees false
      (initial.elim empty fun written => text " = " ++ written)
      (changed.elim empty fun written => text " = " ++ written) :=
    .option rfl onInitial fun agrees => (Agrees.text " = ").append agrees
  cases language with
  | kotlin =>
      have typed : Agrees false (type.elim empty fun written => text ": " ++ written)
          (type.elim empty fun written => text ": " ++ written) := by
        cases type with
        | none => exact .empty
        | some written =>
            exact (Agrees.text ": ").append (.refl (typeSucceeds written rfl))
      rw [kotlin_declaration_eq, kotlin_declaration_eq]
      exact ((((Agrees.text _).append (.text _)).append (.text _)).append typed).append value
  | groovy =>
      have typed : Agrees false
          (type.elim (text "def ") fun written => written ++ text " ")
          (type.elim (text "def ") fun written => written ++ text " ") := by
        cases type with
        | none => exact .text "def "
        | some written =>
            exact Agrees.append (.refl (typeSucceeds written rfl)) (.text " ")
      rw [groovy_declaration_eq, groovy_declaration_eq]
      exact (((Agrees.text _).append typed).append (.text name)).append value

/-- The receiver of a call stands where the call does, all other parts stand behind
something. -/
theorem agrees_call (language : Language) {receiver otherReceiver : Option Fragment}
    (onReceiver : Option.Rel (Agrees atStart) receiver otherReceiver) (name : String)
    {types : List Fragment} (typesSucceed : ∀ written ∈ types, written.failure = none)
    {arguments otherArguments : List Fragment}
    (onArguments : List.Forall₂ (Agrees false) arguments otherArguments)
    {trailing otherTrailing : Option Fragment}
    (onTrailing : Option.Rel (Agrees false) trailing otherTrailing) :
    Agrees atStart (language.call receiver name types arguments trailing)
      (language.call otherReceiver name types otherArguments otherTrailing) := by
  have onTypes : List.Forall₂ (Agrees false) types types :=
    List.forall₂_same.mpr fun written isType => .refl (typesSucceed written isType)
  have delimited {parts changed : List Fragment} (opening closing : String)
      (onParts : List.Forall₂ (Agrees false) parts changed) :
      Agrees false (text opening ++ separated ", " parts ++ text closing)
        (text opening ++ separated ", " changed ++ text closing) :=
    ((Agrees.text opening).append (.separated onParts ", ")).append (.text closing)
  have target : Agrees atStart
      (receiver.elim empty fun written => written ++ text ".")
      (otherReceiver.elim empty fun written => written ++ text ".") :=
    .option rfl onReceiver fun agrees => agrees.append (.text ".")
  have shownTypes (shown : Bool) : Agrees false
      (if shown then text "<" ++ separated ", " types ++ text ">" else empty)
      (if shown then text "<" ++ separated ", " types ++ text ">" else empty) := by
    cases shown with
    | true => exact delimited "<" ">" onTypes
    | false => exact .empty
  have onListed : List.Forall₂ (Agrees false) (language.listed types arguments)
      (language.listed types otherArguments) := by
    cases language with
    | kotlin => exact onArguments
    | groovy => exact List.rel_append onArguments onTypes
  have sameBlock : trailing.isSome = otherTrailing.isSome := by
    cases onTrailing <;> rfl
  have parenthesized {parts changed : List Fragment}
      (onParts : List.Forall₂ (Agrees false) parts changed) (blockFollows : Bool) :
      Agrees false
        (if parts.isEmpty && blockFollows then empty
          else text "(" ++ separated ", " parts ++ text ")")
        (if changed.isEmpty && blockFollows then empty
          else text "(" ++ separated ", " changed ++ text ")") := by
    have sameEmpty : parts.isEmpty = changed.isEmpty := by
      cases onParts <;> rfl
    rw [sameEmpty]
    split
    · exact .empty
    · exact delimited "(" ")" onParts
  have block : Agrees false (trailing.elim empty fun written => text " " ++ written)
      (otherTrailing.elim empty fun written => text " " ++ written) :=
    .option rfl onTrailing fun agrees => (Agrees.text " ").append agrees
  rw [call_eq, call_eq, sameBlock]
  exact (((target.append (.text name)).append (shownTypes _)).append
    (parenthesized onListed _)).append block

end Language

end BuildScribe

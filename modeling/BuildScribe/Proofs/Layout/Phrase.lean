import BuildScribe.Proofs.Layout.Nesting
import BuildScribe.Proofs.Layout.Opening
import BuildScribe.Target.Comment

/-!
# Phrases

A phrase is a fragment that puts a text on the current line and does not end the line. On
its own it is one line; in front of a block it begins the first line of the block.
-/

namespace BuildScribe

namespace Page

@[simp] theorem put_empty (page : Page) (depth : Nat) : page.put depth "" = page := rfl

/-- Texts that follow one another on a line are one text. -/
theorem put_put (page : Page) (depth : Nat) (first second : String) :
    (page.put depth first).put depth second = page.put depth (first ++ second) := by
  cases nothing : first.isEmpty with
  | true => rw [String.isEmpty_iff.mp nothing, put_empty, String.empty_append]
  | false =>
      cases absent : second.isEmpty with
      | true => rw [String.isEmpty_iff.mp absent, put_empty, String.append_empty]
      | false =>
          have grows : (first ++ second).isEmpty = false := by simp_all
          cases current : page.current <;>
            simp [put, nothing, absent, grows, current, String.append_assoc]

end Page

namespace Fragment

/-- The fragment puts the text on the current line. -/
structure IsPhrase (fragment : Fragment) (written : String) : Prop where
  succeeds : fragment.failure = none
  puts : ∀ (page : Page) (level : Nat),
    page.writeAll level fragment.pieces = page.put level written

namespace IsPhrase

theorem empty : Fragment.empty.IsPhrase "" :=
  ⟨rfl, fun _ _ => rfl⟩

theorem text (written : String) : (Fragment.text written).IsPhrase written :=
  ⟨rfl, fun _ _ => rfl⟩

variable {first second fragment : Fragment} {written other : String}

theorem append (onFirst : first.IsPhrase written) (onSecond : second.IsPhrase other) :
    (first ++ second).IsPhrase (written ++ other) := by
  constructor
  · rw [failure_append, onFirst.succeeds, onSecond.succeeds]
    rfl
  · intro page level
    rw [pieces_append onFirst.succeeds, Page.writeAll_append, onFirst.puts, onSecond.puts,
      Page.put_put]

/-- Marks put nothing on the line. -/
theorem marked (onFragment : fragment.IsPhrase written)
    (location : Option SourceLocation) : (mark location ++ fragment).IsPhrase written := by
  constructor
  · rw [failure_append, onFragment.succeeds]
    rfl
  · intro page level
    rw [pieces_append rfl, Page.writeAll_append, Page.writeAll_mark, onFragment.puts]

theorem separated {α : Type} {part : α → Fragment} {spelled : α → String} {items : List α}
    (onParts : ∀ item ∈ items, (part item).IsPhrase (spelled item)) (separator : String) :
    (Fragment.separated separator (items.map part)).IsPhrase
      (separator.intercalate (items.map spelled)) := by
  induction items with
  | nil => exact empty
  | cons first rest ih =>
      rw [List.forall_mem_cons] at onParts
      cases rest with
      | nil => simpa [Fragment.separated] using onParts.1
      | cons second others =>
          simp only [List.map_cons, String.intercalate_cons_cons]
          exact (onParts.1.append (text separator)).append (ih onParts.2)

theorem layout (onFragment : fragment.IsPhrase written) (something : written ≠ "") :
    fragment.layout = [⟨0, written⟩] := by
  have shown : written.isEmpty = false := by simpa using something
  rw [Fragment.layout, onFragment.puts]
  simp [Page.put, shown, Page.blank, Page.settle]

theorem layout_of_empty (onFragment : fragment.IsPhrase "") : fragment.layout = [] := by
  rw [Fragment.layout, onFragment.puts]
  rfl

/-- In front of a block a phrase begins the line of the opening brace. -/
theorem layout_braces (onFragment : fragment.IsPhrase written) {statements : List Fragment}
    (succeed : ∀ statement ∈ statements, statement.failure = none) :
    (fragment ++ braces statements).layout =
      ⟨0, written ++ "\x7b"⟩ :: (statements.flatMap Fragment.layout).map (Line.deeper 1) ++
        [⟨0, "\x7d"⟩] := by
  have opening := onFragment.append (text "\x7b")
  have opened : Page.blank.writeAll 0 (fragment ++ Fragment.text "\x7b" ++ finish).pieces =
      Page.ofLines [⟨0, written ++ "\x7b"⟩] := by
    rw [pieces_append opening.succeeds, Page.writeAll_append, opening.puts,
      Page.writeAll_finish]
    simp [Page.put, Page.blank, Page.settle, Page.ofLines]
  have headSucceeds : (fragment ++ Fragment.text "\x7b" ++ finish).failure = none := by
    rw [failure_append, opening.succeeds]
    rfl
  have bodySucceeds : (fragment ++ Fragment.text "\x7b" ++ finish ++
      nested (lines statements)).failure = none := by
    rw [failure_append, headSucceeds]
    simpa [List.findSome?_eq_none_iff] using succeed
  have closed (above : List Line) :
      ((Page.ofLines above).writeAll 0 (Fragment.text "\x7d").pieces).settle =
        Page.ofLines (above ++ [⟨0, "\x7d"⟩]) := rfl
  rw [braces, ← append_assoc, ← append_assoc, ← append_assoc, Fragment.layout,
    pieces_append bodySucceeds, pieces_append headSucceeds, Page.writeAll_append,
    Page.writeAll_append, opened, Page.writeAll_nested, Page.writeAll_lines _ _ _ succeed,
    closed]
  rfl

end IsPhrase

/-- Texts with line ends between them are one line each. -/
theorem layout_onLines {texts : List String} (something : ∀ written ∈ texts, written ≠ "") :
    (onLines (texts.map text)).layout = texts.map fun written => ⟨0, written⟩ := by
  have adds (above : List Line) :
      ((Page.ofLines above).writeAll 0 (onLines (texts.map text)).pieces).settle =
        Page.ofLines (above ++ texts.map fun written => ⟨0, written⟩) := by
    induction texts generalizing above with
    | nil => simp [onLines, empty, Page.writeAll, Page.ofLines, Page.settle]
    | cons first rest ih =>
        rw [List.forall_mem_cons] at something
        have alone := (IsPhrase.text first).layout something.1
        cases rest with
        | nil => simpa [onLines, alone] using Page.settle_writeAll_ofLines above 0 (text first)
        | cons second others =>
            have ended := Page.settle_writeAll_ofLines above 0 (text first)
            have continued := ih something.2 (above ++ [⟨0, first⟩])
            rw [List.map_cons, List.map_cons, onLines, pieces_append rfl,
              pieces_append rfl, Page.writeAll_append, Page.writeAll_append,
              Page.writeAll_finish, ended, alone]
            simpa using continued
  have written := adds []
  simp only [List.nil_append] at written
  exact congrArg Page.closed written

theorem commentLine_ne_empty (line : String) : commentLine line ≠ "" := by
  unfold commentLine
  split <;> simp

/-- A comment has one line for every line of its text. -/
theorem layout_comment (written : String) :
    (comment written).layout = (textLines written).map fun line => ⟨0, commentLine line⟩ := by
  have lines := @layout_onLines ((textLines written).map commentLine)
    (List.forall_mem_map.mpr fun line _ => commentLine_ne_empty line)
  rw [List.map_map, List.map_map] at lines
  exact lines

end Fragment

end BuildScribe

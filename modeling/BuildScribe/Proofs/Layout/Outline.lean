import BuildScribe.Proofs.Layout.Nesting
import BuildScribe.Proofs.Layout.Place

/-!
# Outlines of lines

How many line feeds a text has is decided by the outline of its lines, which says how deep
they stand and which of them are blank, and by the line feeds in their contents.
-/

namespace BuildScribe

def lineFeeds (text : String) : Nat :=
  text.toList.count '\n'

@[simp] theorem lineFeeds_empty : lineFeeds "" = 0 := rfl

@[simp] theorem lineFeeds_append (first second : String) :
    lineFeeds (first ++ second) = lineFeeds first + lineFeeds second := by
  simp [lineFeeds]

@[simp] theorem lineFeeds_join_cons (first : String) (rest : List String) :
    lineFeeds (String.join (first :: rest)) =
      lineFeeds first + lineFeeds (String.join rest) := by
  rw [String.join_cons, lineFeeds_append]

theorem lineFeeds_join_append (first second : List String) :
    lineFeeds (String.join (first ++ second)) =
      lineFeeds (String.join first) + lineFeeds (String.join second) := by
  rw [String.join_append, lineFeeds_append]

theorem IsInline.lineFeeds_eq {text : String} (inline : IsInline text) : lineFeeds text = 0 :=
  List.count_eq_zero.mpr inline

/-- A line without its content. -/
structure LineOutline where
  depth : Nat
  blank : Bool
deriving DecidableEq

namespace LineOutline

/-- A line with something on it, at the level where it is written. -/
def inked : LineOutline := ⟨0, false⟩

def deeper (outline : LineOutline) : LineOutline :=
  { outline with depth := outline.depth + 1 }

/-- The lines of a block: those of its braces and deeper ones between them. -/
def block (inside : List LineOutline) : List LineOutline :=
  inked :: inside.map deeper ++ [inked]

end LineOutline

def Line.outline (line : Line) : LineOutline :=
  ⟨line.depth, line.content.isEmpty⟩

/-- The line feeds of the indents and line endings. -/
def outlineFeeds (options : LayoutOptions) : List LineOutline → Nat
  | [] => 0
  | line :: rest =>
      (if line.blank then 0 else line.depth * lineFeeds options.indent) +
        lineFeeds options.lineEnding + outlineFeeds options rest

theorem lineFeeds_indent (options : LayoutOptions) (level : Nat) :
    lineFeeds (String.ofList (Buffer.indentChars options level)) =
      level * lineFeeds options.indent := by
  unfold lineFeeds Buffer.indentChars
  rw [String.toList_ofList]
  induction level with
  | zero => simp
  | succ level ih =>
      rw [List.replicate_succ, List.flatten_cons, List.count_append, ih, Nat.succ_mul,
        Nat.add_comm]

theorem lineFeeds_linesText (options : LayoutOptions) (lines : List Line) :
    lineFeeds (linesText options lines) =
      outlineFeeds options (lines.map Line.outline) +
        lineFeeds (String.join (lines.map Line.content)) := by
  induction lines with
  | nil => rfl
  | cons line rest ih =>
      have shown : lineFeeds (line.shown options) =
          (if line.content.isEmpty then 0 else line.depth * lineFeeds options.indent) +
            lineFeeds line.content := by
        unfold Line.shown
        split
        · next nothing => rw [String.isEmpty_iff.mp nothing, lineFeeds_empty]
        · rw [lineFeeds_append, lineFeeds_indent]
      have split := linesText_append options [line] rest
      rw [List.singleton_append, linesText_singleton] at split
      have counted : outlineFeeds options ((line :: rest).map Line.outline) =
          (if line.content.isEmpty then 0 else line.depth * lineFeeds options.indent) +
            lineFeeds options.lineEnding + outlineFeeds options (rest.map Line.outline) := rfl
      rw [split, lineFeeds_append, lineFeeds_append, ih, shown, counted, List.map_cons,
        lineFeeds_join_cons]
      omega

/-- The lines have the outline, and in their contents there are as many line feeds as in
the text. -/
structure Outlined (lines : List Line) (outline : List LineOutline) (bare : String) :
    Prop where
  outline : lines.map Line.outline = outline
  feeds : lineFeeds (String.join (lines.map Line.content)) = lineFeeds bare

namespace Outlined

theorem nil : Outlined [] [] "" :=
  ⟨rfl, rfl⟩

theorem line {content bare : String} (something : content ≠ "")
    (feeds : lineFeeds content = lineFeeds bare) :
    Outlined [⟨0, content⟩] [.inked] bare := by
  constructor
  · simp [Line.outline, LineOutline.inked, something]
  · simpa using feeds

theorem inlineLine {content : String} (something : content ≠ "")
    (inline : IsInline content) : Outlined [⟨0, content⟩] [.inked] "" :=
  line something inline.lineFeeds_eq

variable {first second lines : List Line} {outline other : List LineOutline}
  {bare otherBare : String}

theorem congr (outlined : Outlined lines outline bare)
    (same : lineFeeds bare = lineFeeds otherBare) : Outlined lines outline otherBare :=
  ⟨outlined.outline, outlined.feeds.trans same⟩

theorem append (onFirst : Outlined first outline bare)
    (onSecond : Outlined second other otherBare) :
    Outlined (first ++ second) (outline ++ other) (bare ++ otherBare) := by
  constructor
  · rw [List.map_append, onFirst.outline, onSecond.outline]
  · rw [List.map_append, lineFeeds_join_append, onFirst.feeds, onSecond.feeds,
      lineFeeds_append]

/-- Lines that bring no line feeds along, in front of others. -/
theorem inline_append (onFirst : Outlined first outline "")
    (onSecond : Outlined second other bare) :
    Outlined (first ++ second) (outline ++ other) bare := by
  have both := onFirst.append onSecond
  rwa [String.empty_append] at both

theorem append_inline (onFirst : Outlined first outline bare)
    (onSecond : Outlined second other "") :
    Outlined (first ++ second) (outline ++ other) bare := by
  have both := onFirst.append onSecond
  rwa [String.append_empty] at both

theorem flatMap {α : Type} {items : List α} {linesOf : α → List Line}
    {outlineOf : α → List LineOutline} {bareOf : α → String}
    (onItems : ∀ item ∈ items, Outlined (linesOf item) (outlineOf item) (bareOf item)) :
    Outlined (items.flatMap linesOf) (items.flatMap outlineOf)
      (String.join (items.map bareOf)) := by
  induction items with
  | nil => exact nil
  | cons item rest ih =>
      rw [List.forall_mem_cons] at onItems
      rw [List.flatMap_cons, List.flatMap_cons, List.map_cons, String.join_cons]
      exact onItems.1.append (ih onItems.2)

/-- Items that bring no line feeds along. -/
theorem flatMap_inline {α : Type} {items : List α} {linesOf : α → List Line}
    {outlineOf : α → List LineOutline}
    (onItems : ∀ item ∈ items, Outlined (linesOf item) (outlineOf item) "") :
    Outlined (items.flatMap linesOf) (items.flatMap outlineOf) "" := by
  apply (flatMap onItems).congr
  induction items with
  | nil => rfl
  | cons item rest ih =>
      rw [List.forall_mem_cons] at onItems
      rw [List.map_cons, lineFeeds_join_cons, ih onItems.2, lineFeeds_empty]

/-- A part that is left out if there is nothing to put in it. -/
theorem unlessEmpty {α β : Type} (items : List β) {part : α} {linesOf : α → List Line}
    (onPart : Outlined (linesOf part) outline bare)
    (nothing : items = [] → lineFeeds bare = 0) :
    Outlined ((if items.isEmpty then [] else [part]).flatMap linesOf)
      (if items.isEmpty then [] else outline) bare := by
  cases items with
  | nil => exact nil.congr (nothing rfl).symm
  | cons first rest =>
      simp only [List.isEmpty_cons, Bool.false_eq_true, if_false, List.flatMap_singleton]
      exact onPart

theorem deeper (onLines : Outlined lines outline bare) :
    Outlined (lines.map (Line.deeper 1)) (outline.map LineOutline.deeper) bare := by
  constructor
  · rw [← onLines.outline, List.map_map, List.map_map]
    rfl
  · rw [← onLines.feeds, List.map_map]
    rfl

theorem block {head headBare : String} (headFeeds : lineFeeds head = lineFeeds headBare)
    (inside : Outlined lines outline bare) :
    Outlined (⟨0, head ++ "\x7b"⟩ :: lines.map (Line.deeper 1) ++ [⟨0, "\x7d"⟩])
      (LineOutline.block outline) (headBare ++ bare) := by
  have brace : lineFeeds "\x7b" = 0 := rfl
  have opening : Outlined [⟨0, head ++ "\x7b"⟩] [.inked] headBare :=
    line (by simp) (by rw [lineFeeds_append, headFeeds, brace, Nat.add_zero])
  have closing : Outlined [⟨0, "\x7d"⟩] [.inked] "" := line (by decide) rfl
  have whole := (opening.append inside.deeper).append closing
  rw [String.append_empty] at whole
  exact whole

end Outlined

end BuildScribe

import BuildScribe.Layout.Fragment

/-!
# Comments

A comment is written as one `//` line for every line of its text. A line feed, a
carriage return and the two together each end a line, so no part of a comment can
leave it.
-/

namespace BuildScribe

/-- The lines of a text, without their line breaks. There is always one. -/
def lineChars : List Char → List (List Char)
  | [] => [[]]
  | '\r' :: '\n' :: rest => [] :: lineChars rest
  | c :: rest =>
      if c == '\n' || c == '\r' then
        [] :: lineChars rest
      else
        match lineChars rest with
        | [] => [[c]]
        | first :: others => (c :: first) :: others

def textLines (text : String) : List String :=
  (lineChars text.toList).map String.ofList

/-- One line of a comment; an empty line has no blank behind the slashes. -/
def commentLine (line : String) : String :=
  if line.isEmpty then "//" else "// " ++ line

namespace Fragment

/-- Fragments with line ends between them. -/
def onLines : List Fragment → Fragment
  | [] => empty
  | [only] => only
  | first :: second :: rest => first ++ finish ++ onLines (second :: rest)

def comment (written : String) : Fragment :=
  onLines ((textLines written).map fun line => text (commentLine line))

end Fragment

end BuildScribe

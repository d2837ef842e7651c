import BuildScribe.Text.Shown

/-!
# Quoted text in diagnostics

Diagnostics show strings between double quotes, with quotes, backslashes and
everything that has no shape of its own escaped.
-/

namespace BuildScribe

/-- The escape `\u{…}` with the code point in lowercase hexadecimal. -/
def codePointEscape (c : Char) : List Char :=
  '\\' :: 'u' :: '\x7b' :: (Nat.toDigits 16 c.toNat ++ ['\x7d'])

def quotedChar (quote : Char → Bool) (c : Char) : List Char :=
  if quote c || c == '\\' then ['\\', c]
  else if c == '\t' then ['\\', 't']
  else if c == '\r' then ['\\', 'r']
  else if c == '\n' then ['\\', 'n']
  else if c == '\x00' then ['\\', '0']
  else if Shown.isShown c then [c]
  else codePointEscape c

/-- Text between double quotes; only double quotes count as quotes inside. -/
def quoted (text : String) : String :=
  String.ofList ('"' :: (text.toList.flatMap (quotedChar (· == '"')) ++ ['"']))

/-- A file path between double quotes; quotes of both kinds are escaped. -/
def quotedPath (text : String) : String :=
  String.ofList
    ('"' :: (text.toList.flatMap (quotedChar fun c => c == '"' || c == '\'') ++
      ['"']))

end BuildScribe

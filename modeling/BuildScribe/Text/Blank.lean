/-!
# Blanks and letter case

Trimming goes by the Unicode property White_Space; case folding is confined to
ASCII letters, so every other letter stays as it is.
-/

namespace BuildScribe

/-- The characters with the property White_Space. -/
def isBlank (c : Char) : Bool :=
  let n := c.toNat
  (0x09 ≤ n && n ≤ 0x0d) || n == 0x20 || n == 0x85 || n == 0xa0 ||
    n == 0x1680 || (0x2000 ≤ n && n ≤ 0x200a) || n == 0x2028 || n == 0x2029 ||
    n == 0x202f || n == 0x205f || n == 0x3000

def trimmedChars (cs : List Char) : List Char :=
  ((cs.dropWhile isBlank).reverse.dropWhile isBlank).reverse

/-- An ASCII capital becomes its small letter; any other character is kept. -/
def lowerAscii (c : Char) : Char :=
  if 'A' ≤ c ∧ c ≤ 'Z' then Char.ofNat (c.toNat + 32) else c

/-- The form under which names of languages and kinds are looked up: trimmed,
with ASCII capitals made small. -/
def foldedName (name : String) : String :=
  String.ofList ((trimmedChars name.toList).map lowerAscii)

end BuildScribe

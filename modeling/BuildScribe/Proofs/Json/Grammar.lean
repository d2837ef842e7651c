import BuildScribe.Json.Token

/-!
# Texts of values

The grammar of JSON over lists of characters. The text of a value is taken together with
the blanks before it, so that it ends where the value ends. `ListTail` and `ObjectTail` are
what follows the opening bracket, or an element, up to and with the closing bracket.
-/

namespace BuildScribe

def IsBlankText (text : List Char) : Prop :=
  ∀ c ∈ text, isJsonBlank c = true

def IsDigitText (text : List Char) : Prop :=
  text ≠ [] ∧ ∀ c ∈ text, isDigit c = true

/-- The digits before the point. A zero stands alone. -/
inductive WholeText : List Char → Prop where
  | zero : WholeText ['0']
  | digits {digits : List Char} :
      IsDigitText digits → digits.head? ≠ some '0' → WholeText digits

inductive FractionText : List Char → Prop where
  | none : FractionText []
  | some {digits : List Char} : IsDigitText digits → FractionText ('.' :: digits)

inductive ExponentText : List Char → Prop where
  | none : ExponentText []
  | some {letter : Char} {sign digits : List Char} :
      letter ∈ ['e', 'E'] → sign ∈ [[], ['+'], ['-']] → IsDigitText digits →
      ExponentText (letter :: (sign ++ digits))

inductive NumberText : List Char → Prop where
  | number {sign whole fraction exponent : List Char} :
      sign ∈ [[], ['-']] → WholeText whole → FractionText fraction →
      ExponentText exponent → NumberText (sign ++ (whole ++ (fraction ++ exponent)))

def FourHexText (text : List Char) : Prop :=
  text.length = 4 ∧ ∀ digit ∈ text, (hexValue? digit).isSome

/-- What follows the opening quote of a string, the closing one included. -/
inductive StringTail : List Char → Prop where
  | close : StringTail ['"']
  | plain {c : Char} {rest : List Char} :
      c ≠ '"' → c ≠ '\\' → 0x20 ≤ c.toNat → StringTail rest → StringTail (c :: rest)
  | escaped {c : Char} {rest : List Char} :
      (simpleEscape? c).isSome → StringTail rest → StringTail ('\\' :: c :: rest)
  | unicode {digits rest : List Char} :
      FourHexText digits → StringTail rest →
      StringTail ('\\' :: 'u' :: (digits ++ rest))

mutual

inductive ValueText : List Char → Prop where
  | blank {c : Char} {value : List Char} :
      isJsonBlank c = true → ValueText value → ValueText (c :: value)
  | null : ValueText ['n', 'u', 'l', 'l']
  | true : ValueText ['t', 'r', 'u', 'e']
  | false : ValueText ['f', 'a', 'l', 's', 'e']
  | number {number : List Char} : NumberText number → ValueText number
  | string {rest : List Char} : StringTail rest → ValueText ('"' :: rest)
  | list {rest : List Char} : ListTail .true rest → ValueText ('[' :: rest)
  | object {rest : List Char} : ObjectTail .true rest → ValueText ('\x7b' :: rest)

inductive ListTail : (first : Bool) → List Char → Prop where
  | close {first : Bool} {blanks : List Char} :
      IsBlankText blanks → ListTail first (blanks ++ [']'])
  | first {value rest : List Char} :
      ValueText value → ListTail .false rest → ListTail .true (value ++ rest)
  | next {blanks value rest : List Char} :
      IsBlankText blanks → ValueText value → ListTail .false rest →
      ListTail .false (blanks ++ ',' :: (value ++ rest))

inductive ObjectTail : (first : Bool) → List Char → Prop where
  | close {first : Bool} {blanks : List Char} :
      IsBlankText blanks → ObjectTail first (blanks ++ ['\x7d'])
  | first {member rest : List Char} :
      MemberText member → ObjectTail .false rest → ObjectTail .true (member ++ rest)
  | next {blanks member rest : List Char} :
      IsBlankText blanks → MemberText member → ObjectTail .false rest →
      ObjectTail .false (blanks ++ ',' :: (member ++ rest))

inductive MemberText : List Char → Prop where
  | member {before key between value : List Char} :
      IsBlankText before → StringTail key → IsBlankText between → ValueText value →
      MemberText (before ++ '"' :: (key ++ (between ++ ':' :: value)))

end

/-- The text of one value with nothing but blanks around it. -/
def IsDocumentText (text : List Char) : Prop :=
  ∃ value blanks, text = value ++ blanks ∧ ValueText value ∧ IsBlankText blanks

theorem IsBlankText.nil : IsBlankText [] :=
  fun _ isBlank => (List.not_mem_nil isBlank).elim

theorem IsBlankText.append {first second : List Char} (onFirst : IsBlankText first)
    (onSecond : IsBlankText second) : IsBlankText (first ++ second) := by
  intro c isChar
  rcases List.mem_append.mp isChar with inFirst | inSecond
  · exact onFirst c inFirst
  · exact onSecond c inSecond

theorem ValueText.behindBlanks {blanks value : List Char} (onBlanks : IsBlankText blanks)
    (onValue : ValueText value) : ValueText (blanks ++ value) := by
  induction blanks with
  | nil => exact onValue
  | cons c rest ih =>
      exact .blank (onBlanks c List.mem_cons_self)
        (ih fun other inRest => onBlanks other (List.mem_cons_of_mem c inRest))

theorem MemberText.behindBlanks {blanks member : List Char} (onBlanks : IsBlankText blanks)
    (onMember : MemberText member) : MemberText (blanks ++ member) := by
  cases onMember with
  | member onBefore isKey onBetween isValue =>
      rw [← List.append_assoc]
      exact .member (onBlanks.append onBefore) isKey onBetween isValue

theorem WholeText.ne_nil {text : List Char} (whole : WholeText text) : text ≠ [] := by
  cases whole with
  | zero => simp
  | digits onDigits _ => exact onDigits.1

theorem ValueText.ne_nil {text : List Char} (value : ValueText text) : text ≠ [] := by
  cases value with
  | number number =>
      cases number with
      | number _ whole _ _ => simp [whole.ne_nil]
  | _ => simp

end BuildScribe

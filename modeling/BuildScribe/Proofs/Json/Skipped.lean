import BuildScribe.Proofs.Json.Values

/-!
# What is taken for a skipped value

The skipper is a machine with a stack of open containers. What it has still to see is
written down as `Closes`: every step passes on to the next state what is left of it, and a
run to the end therefore takes the text of a value.
-/

namespace BuildScribe

/-- Where the skipper stands: before a value, or behind an element or an opening bracket. -/
inductive SkipState where
  | before (enclosures : List Enclosure)
  | behind (enclosures : List Enclosure) (afterElement : Bool)

namespace Enclosure

/-- What stands between two commas. -/
def ItemText : Enclosure → List Char → Prop
  | list => ValueText
  | object => MemberText

def TailText : Enclosure → (first : Bool) → List Char → Prop
  | list => ListTail
  | object => ObjectTail

theorem TailText.close (enclosure : Enclosure) (first : Bool) {blanks : List Char}
    (onBlanks : IsBlankText blanks) :
    enclosure.TailText first (blanks ++ [enclosure.closing]) := by
  cases enclosure with
  | list => exact ListTail.close onBlanks
  | object => exact ObjectTail.close onBlanks

theorem TailText.first {enclosure : Enclosure} {item rest : List Char}
    (isItem : enclosure.ItemText item) (isRest : enclosure.TailText false rest) :
    enclosure.TailText true (item ++ rest) := by
  cases enclosure with
  | list => exact ListTail.first isItem isRest
  | object => exact ObjectTail.first isItem isRest

theorem TailText.next {enclosure : Enclosure} {blanks item rest : List Char}
    (onBlanks : IsBlankText blanks) (isItem : enclosure.ItemText item)
    (isRest : enclosure.TailText false rest) :
    enclosure.TailText false (blanks ++ ',' :: (item ++ rest)) := by
  cases enclosure with
  | list => exact ListTail.next onBlanks isItem isRest
  | object => exact ObjectTail.next onBlanks isItem isRest

theorem ItemText.behindBlanks {enclosure : Enclosure} {blanks item : List Char}
    (onBlanks : IsBlankText blanks) (isItem : enclosure.ItemText item) :
    enclosure.ItemText (blanks ++ item) := by
  cases enclosure with
  | list => exact ValueText.behindBlanks onBlanks isItem
  | object => exact MemberText.behindBlanks onBlanks isItem

end Enclosure

/-- The text closes all the containers, the innermost one first. -/
def ClosesAll (first : Bool) : List Enclosure → List Char → Prop
  | [], text => text = []
  | enclosure :: outer, text =>
      ∃ tail rest, text = tail ++ rest ∧ enclosure.TailText first tail ∧
        ClosesAll false outer rest

namespace SkipState

/-- What the skipper has still to see. -/
def Closes : SkipState → List Char → Prop
  | before enclosures, text =>
      ∃ value rest, text = value ++ rest ∧ ValueText value ∧
        ClosesAll false enclosures rest
  | behind enclosures afterElement, text => ClosesAll (!afterElement) enclosures text

/-- A number of steps in which the text is passed. -/
def cost : SkipState → List Char → Nat
  | before _, text => 2 * text.length
  | behind _ _, text => 2 * text.length + 1

def resume (steps : Nat) : SkipState → Reading Unit
  | before enclosures => Reading.skipInside steps enclosures
  | behind enclosures afterElement => Reading.skipBehind steps enclosures afterElement

end SkipState

namespace Reading

/-- One step before a value. -/
def stepBefore (enclosures : List Enclosure) : Reading SkipState := do
  skipBlanks
  match ← peek with
  | none => failNext .endInValue
  | some c =>
      match skipScalar? c with
      | some scalar =>
          scalar
          pure (.behind enclosures true)
      | none =>
          if c == '[' then
            advance
            pure (.behind (.list :: enclosures) false)
          else if c == '\x7b' then
            advance
            pure (.behind (.object :: enclosures) false)
          else
            failNext .expectedValue

/-- One step behind an element or an opening bracket. -/
def stepBehind (enclosure : Enclosure) (outer : List Enclosure) (afterElement : Bool) :
    Reading SkipState := do
  skipBlanks
  match ← peek with
  | none => failNext enclosure.endFault
  | some c =>
      if c == enclosure.closing then
        advance
        pure (.behind outer true)
      else if afterElement then
        if c == ',' then
          advance
          skipKey enclosure
          pure (.before (enclosure :: outer))
        else
          failNext enclosure.separatorFault
      else
        skipKey enclosure
        pure (.before (enclosure :: outer))

theorem failNext_bind {α β : Type} (fault : TextFault) (second : α → Reading β) :
    (failNext fault >>= second) = failNext fault := by
  funext cursor
  rfl

theorem skipInside_succ (steps : Nat) (enclosures : List Enclosure) :
    skipInside (steps + 1) enclosures =
      (do (← stepBefore enclosures).resume steps) := by
  rw [skipInside, stepBefore]
  simp only [bind_assoc]
  congr
  funext _
  congr
  funext head
  cases head with
  | none => exact (failNext_bind _ _).symm
  | some c =>
      dsimp only
      cases skipScalar? c with
      | some scalar => simp [SkipState.resume]
      | none =>
          dsimp only
          split
          · simp [SkipState.resume]
          split
          · simp [SkipState.resume]
          · exact (failNext_bind _ _).symm

theorem skipBehind_succ (steps : Nat) (enclosure : Enclosure) (outer : List Enclosure)
    (afterElement : Bool) :
    skipBehind (steps + 1) (enclosure :: outer) afterElement =
      (do (← stepBehind enclosure outer afterElement).resume steps) := by
  rw [skipBehind, stepBehind]
  simp only [bind_assoc]
  congr
  funext _
  congr
  funext head
  cases head with
  | none => exact (failNext_bind _ _).symm
  | some c =>
      dsimp only
      split
      · simp [SkipState.resume]
      split
      · split
        · simp [SkipState.resume]
        · exact (failNext_bind _ _).symm
      · simp [SkipState.resume]

/-- What one step takes: behind it, the text that the next state has still to see is left of
the text of this one. -/
def PassesTo (state next : SkipState) (taken : List Char) : Prop :=
  ∀ rest, next.Closes rest →
    state.Closes (taken ++ rest) ∧ next.cost rest < state.cost (taken ++ rest)

theorem stepBefore_takes (enclosures : List Enclosure) :
    (stepBefore enclosures).Takes (PassesTo (.before enclosures)) := by
  intro cursor
  apply TakesAt.skipBlanks
  intro blanks middle onBlanks
  have opened {c : Char} (enclosure : Enclosure)
      (isOpening : ∀ tail, enclosure.TailText true tail → ValueText (c :: tail)) :
      PassesTo (.before enclosures) (.behind (enclosure :: enclosures) false)
        (blanks ++ [c]) := by
    rintro _ ⟨tail, rest, rfl, isTail, closes⟩
    constructor
    · exact ⟨blanks ++ c :: tail, rest, by simp, (isOpening tail isTail).behindBlanks onBlanks,
        closes⟩
    · simp only [SkipState.cost, List.length_append, List.length_cons, List.length_nil]
      omega
  apply TakesAt.peek
  cases head : middle.rest.head? with
  | none => exact .failNext _
  | some c =>
      dsimp only
      cases known : skipScalar? c with
      | some scalar =>
          apply (skipScalar?_takes head known).bind
          intro _ value place isValue _
          apply TakesAt.pure
          intro rest closes
          have positive := List.length_pos_iff.mpr isValue.ne_nil
          constructor
          · exact ⟨blanks ++ value, rest, by simp, isValue.behindBlanks onBlanks, closes⟩
          · simp only [SkipState.cost, List.length_append, List.append_nil]
            omega
      | none =>
          dsimp only
          split
          · next isList =>
            rw [beq_iff_eq.mp isList] at head
            apply TakesAt.advance head
            intro place
            exact .pure (opened .list fun _ => .list)
          split
          · next isObject =>
            rw [beq_iff_eq.mp isObject] at head
            apply TakesAt.advance head
            intro place
            exact .pure (opened .object fun _ => .object)
          · exact .failNext _

theorem skipKey_takes (enclosure : Enclosure) :
    (skipKey enclosure).Takes fun _ taken =>
      ∀ value, ValueText value → enclosure.ItemText (taken ++ value) := by
  intro cursor
  cases enclosure with
  | list => exact .pure fun value isValue => isValue
  | object =>
      apply TakesAt.skipBlanks
      intro blanks middle onBlanks
      apply TakesAt.peek
      cases head : middle.rest.head? with
      | none => exact .failNext _
      | some c =>
          dsimp only
          split
          · next isQuote =>
            rw [beq_iff_eq.mp isQuote] at head
            apply (skipString_takes head).bind
            rintro _ _ place ⟨tail, rfl, isTail⟩ _
            apply (colon_takes place).mono
            rintro _ _ ⟨between, onBetween, rfl⟩ value isValue
            have isMember := MemberText.member onBlanks isTail onBetween isValue
            simpa [Enclosure.ItemText] using isMember
          · exact .failNext _

theorem stepBehind_takes (enclosure : Enclosure) (outer : List Enclosure)
    (afterElement : Bool) :
    (stepBehind enclosure outer afterElement).Takes
      (PassesTo (.behind (enclosure :: outer) afterElement)) := by
  intro cursor
  apply TakesAt.skipBlanks
  intro blanks middle onBlanks
  apply TakesAt.peek
  cases head : middle.rest.head? with
  | none => exact .failNext _
  | some c =>
      dsimp only
      split
      · next isClosing =>
        rw [beq_iff_eq.mp isClosing] at head
        apply TakesAt.advance head
        intro place
        apply TakesAt.pure
        intro rest closes
        constructor
        · exact ⟨_, rest, rfl, .close enclosure _ onBlanks, closes⟩
        · simp only [SkipState.cost, List.length_append, List.length_cons, List.length_nil]
          omega
      split
      · next isAfter =>
        split
        · next isComma =>
          rw [beq_iff_eq.mp isComma] at head
          apply TakesAt.advance head
          intro place
          apply (skipKey_takes enclosure place).bind
          intro _ key behindKey isKey _
          apply TakesAt.pure
          rintro _ ⟨value, _, rfl, isValue, tail, rest, rfl, isTail, closes⟩
          constructor
          · refine ⟨blanks ++ ',' :: (key ++ value ++ tail), rest, by simp, ?_, closes⟩
            rw [isAfter]
            exact .next onBlanks (isKey value isValue) isTail
          · simp only [SkipState.cost, List.length_append, List.length_cons, List.length_nil]
            omega
        · exact .failNext _
      · next isFirst =>
        apply (skipKey_takes enclosure middle).bind
        intro _ key behindKey isKey _
        apply TakesAt.pure
        rintro _ ⟨value, _, rfl, isValue, tail, rest, rfl, isTail, closes⟩
        constructor
        · refine ⟨(blanks ++ (key ++ value)) ++ tail, rest, by simp, ?_, closes⟩
          rw [Bool.not_eq_true _ |>.mp isFirst]
          exact .first (.behindBlanks onBlanks (isKey value isValue)) isTail
        · simp only [SkipState.cost, List.length_append, List.length_nil]
          omega

/-- The run is over when there is nothing left to close; from every other state a step leads
on. -/
theorem resume_succ (state : SkipState) :
    ((∀ more, state.resume (more + 1) = pure ()) ∧ state.Closes [] ∧ 0 < state.cost []) ∨
      ∃ step : Reading SkipState, step.Takes (PassesTo state) ∧
        ∀ more, state.resume (more + 1) = (do (← step).resume more) := by
  match state with
  | .before enclosures =>
      exact .inr ⟨_, stepBefore_takes enclosures, fun more => skipInside_succ more enclosures⟩
  | .behind (enclosure :: outer) afterElement =>
      exact .inr ⟨_, stepBehind_takes enclosure outer afterElement,
        fun more => skipBehind_succ more enclosure outer afterElement⟩
  | .behind [] afterElement =>
      exact .inl ⟨fun _ => rfl, rfl, Nat.one_pos⟩

/-- A run to the end takes what the state has still to see, in as many steps as that
costs. -/
theorem resume_takes {steps : Nat} (state : SkipState) {cursor next : Cursor}
    (read : state.resume steps cursor = .ok () next) :
    ∃ taken, state.Closes taken ∧ cursor.rest = taken ++ next.rest ∧
      ∀ behind more, behind.head? = next.rest.head? → state.cost taken ≤ more →
        state.resume more ⟨taken ++ behind, cursor.offset⟩ =
          .ok () ⟨behind, next.offset⟩ := by
  induction steps generalizing state cursor with
  | zero => cases state <;> exact (failNext_ne_ok read).elim
  | succ steps ih =>
      rcases resume_succ state with ⟨finished, closes, positive⟩ | ⟨step, onStep, unfolds⟩
      · rw [finished] at read
        obtain ⟨_, rfl⟩ := pure_eq_ok.mp read
        refine ⟨[], closes, rfl, ?_⟩
        rintro behind (_ | more) same enough
        · omega
        · rw [finished]
          rfl
      · rw [unfolds] at read
        obtain ⟨reached, middle, stepped, resumed⟩ := bind_eq_ok.mp read
        obtain ⟨first, passes, split, again⟩ := onStep cursor reached middle stepped
        obtain ⟨rest, closes, remaining, anew⟩ := ih reached resumed
        obtain ⟨closesAll, cheaper⟩ := passes rest closes
        refine ⟨first ++ rest, closesAll, by rw [split, remaining, List.append_assoc], ?_⟩
        rintro behind (_ | more) same enough
        · omega
        · have behindFirst : (rest ++ behind).head? = middle.rest.head? := by
            rw [remaining]
            exact head?_append_congr rest same
          rw [unfolds, List.append_assoc, bind_of_ok (again _ behindFirst)]
          exact anew behind more same (by omega)

theorem skipValue_takes : skipValue.Takes fun _ => ValueText := by
  intro cursor _ next read
  obtain ⟨_, ⟨value, _, rfl, isValue, rfl⟩, split, again⟩ :=
    resume_takes (.before []) read
  refine ⟨value ++ [], by rwa [List.append_nil], split, fun behind same => ?_⟩
  exact again behind _ same (by simp [SkipState.cost]; omega)

end Reading

end BuildScribe

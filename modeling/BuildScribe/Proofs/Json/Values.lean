import BuildScribe.Proofs.Json.Numbers
import BuildScribe.Proofs.Json.Strings

/-!
# What is taken for a value

A value that is read and a value that is skipped are both texts of values. The separators
of lists and objects are the same for all that is read inside them.
-/

namespace BuildScribe.Reading

variable {α : Type}

theorem word_takes (expected : List Char) :
    (word expected).Takes fun _ taken => taken = expected := by
  induction expected with
  | nil => exact fun _ => .pure rfl
  | cons c rest ih =>
      intro cursor
      apply TakesAt.peek
      cases head : cursor.rest.head? with
      | none => exact .failHere _
      | some found =>
          dsimp only
          split
          · next same =>
            apply TakesAt.advance (c := c) (by simpa [head] using same)
            intro middle
            exact (ih middle).mono fun _ _ same => congrArg (c :: ·) same
          · exact .failAfter _ _

theorem wholeWord_takes {cursor : Cursor} {c : Char} (head : cursor.rest.head? = some c)
    (rest : List Char) :
    (wholeWord rest).TakesAt (fun _ taken => taken = c :: rest) cursor := by
  apply TakesAt.advance head
  intro middle
  exact (word_takes rest middle).mono fun _ _ same => congrArg (c :: ·) same

theorem scalar?_takes {cursor : Cursor} {c : Char} (head : cursor.rest.head? = some c)
    {scalar : Reading Json} (known : scalar? c = some scalar) :
    scalar.TakesAt (fun _ => ValueText) cursor := by
  have spelled {rest : List Char} (value : Json) (isText : ValueText (c :: rest)) :
      (do wholeWord rest; pure value).TakesAt (fun _ => ValueText) cursor := by
    apply (wholeWord_takes head rest).bind
    rintro _ _ middle rfl _
    exact .pure (by rwa [List.append_nil])
  unfold scalar? at known
  split at known
  · next isN =>
    cases known
    exact spelled .null (by rw [beq_iff_eq.mp isN]; exact .null)
  split at known
  · next isT =>
    cases known
    exact spelled (.bool true) (by rw [beq_iff_eq.mp isT]; exact .true)
  split at known
  · next isF =>
    cases known
    exact spelled (.bool false) (by rw [beq_iff_eq.mp isF]; exact .false)
  split at known
  · cases known
    exact ((number_takes cursor).mono fun _ _ => .number).map
  split at known
  · next isQuote =>
    cases known
    rw [beq_iff_eq.mp isQuote] at head
    apply ((string_takes head).mono _).map
    rintro _ _ ⟨tail, rfl, isTail⟩
    exact .string isTail
  · cases known

theorem skipScalar?_takes {cursor : Cursor} {c : Char} (head : cursor.rest.head? = some c)
    {scalar : Reading Unit} (known : skipScalar? c = some scalar) :
    scalar.TakesAt (fun _ => ValueText) cursor := by
  have spelled {rest : List Char} (isText : ValueText (c :: rest)) :
      (wholeWord rest).TakesAt (fun _ => ValueText) cursor :=
    (wholeWord_takes head rest).mono fun _ _ same => same ▸ isText
  unfold skipScalar? at known
  split at known
  · next isN =>
    cases known
    exact spelled (by rw [beq_iff_eq.mp isN]; exact .null)
  split at known
  · next isT =>
    cases known
    exact spelled (by rw [beq_iff_eq.mp isT]; exact .true)
  split at known
  · next isF =>
    cases known
    exact spelled (by rw [beq_iff_eq.mp isF]; exact .false)
  split at known
  · cases known
    exact (skipNumber_takes cursor).mono fun _ _ => .number
  split at known
  · next isQuote =>
    cases known
    rw [beq_iff_eq.mp isQuote] at head
    apply (skipString_takes head).mono
    rintro _ _ ⟨tail, rfl, isTail⟩
    exact .string isTail
  · cases known

theorem finishList_takesWhole : finishList.TakesWhole fun _ taken =>
    ∃ blanks, IsBlankText blanks ∧ taken = blanks ++ [']'] := by
  apply closing_takesWhole ']' (by decide) rfl
  intro head notClosing cursor value next read
  cases head with
  | none => exact failNext_ne_ok read
  | some c =>
      have notClosing : ¬(c == ']') = true := by simpa using notClosing
      dsimp only at read
      rw [if_neg notClosing] at read
      split at read
      · obtain ⟨_, first, _, read⟩ := bind_eq_ok.mp read
        obtain ⟨_, second, _, read⟩ := bind_eq_ok.mp read
        rw [peek_bind] at read
        split at read
        · exact failNext_ne_ok read
        · exact failNext_ne_ok read
      · exact failNext_ne_ok read

theorem finishObject_takesWhole : finishObject.TakesWhole fun _ taken =>
    ∃ blanks, IsBlankText blanks ∧ taken = blanks ++ ['\x7d'] := by
  apply closing_takesWhole '\x7d' (by decide) rfl
  intro head notClosing cursor value next read
  cases head with
  | none => exact failNext_ne_ok read
  | some c =>
      have notClosing : ¬(c == '\x7d') = true := by simpa using notClosing
      dsimp only at read
      rw [if_neg notClosing] at read
      split at read
      · exact failNext_ne_ok read
      · exact failNext_ne_ok read

/-- What is taken before the next element: behind it, an element and the rest of the list
may stand. -/
def LeadsToElement (first more : Bool) (taken : List Char) : Prop :=
  if more then
    ∀ value rest, ValueText value → ListTail false rest →
      ListTail first (taken ++ (value ++ rest))
  else
    IsBlankText taken

theorem hasElement_takes (first : Bool) :
    (hasElement first).Takes (LeadsToElement first) := by
  intro cursor
  apply TakesAt.skipBlanks
  intro blanks middle onBlanks
  apply TakesAt.peek
  cases head : middle.rest.head? with
  | none => exact .failNext _
  | some c =>
      dsimp only
      split
      · apply TakesAt.pure
        rw [List.append_nil]
        exact onBlanks
      split
      · next isFirst =>
        apply TakesAt.pure
        intro value rest isValue isRest
        rw [List.append_nil, isFirst, ← List.append_assoc]
        exact .first (isValue.behindBlanks onBlanks) isRest
      · next notFirst =>
        have notFirst : first = false := by simpa using notFirst
        split
        · next isComma =>
          rw [beq_iff_eq.mp isComma] at head
          apply TakesAt.advance head
          intro behindComma
          apply TakesAt.skipBlanks
          intro more place onMore
          apply TakesAt.peek
          split
          · exact .failNext _
          · split
            · exact .failNext _
            · apply TakesAt.pure
              intro value rest isValue isRest
              have isText := ListTail.next onBlanks (isValue.behindBlanks onMore) isRest
              simpa [notFirst] using isText
        · exact .failNext _

/-- An element is taken together with the separator before it. -/
theorem element_takes {first : Bool} {value : α} {part : Reading α}
    (onPart : part.Takes fun _ => ValueText) {step : PathStep} {cursor middle next : Cursor}
    (decided : hasElement first cursor = .ok true middle)
    (read : under step part middle = .ok value next) :
    ∃ taken, taken ≠ [] ∧ (∀ rest, ListTail false rest → ListTail first (taken ++ rest)) ∧
      cursor.rest = taken ++ next.rest ∧
      ∀ behind, behind.head? = next.rest.head? →
        ∃ place, hasElement first ⟨taken ++ behind, cursor.offset⟩ = .ok true place ∧
          under step part place = .ok value ⟨behind, next.offset⟩ := by
  obtain ⟨separator, leads, split, again⟩ := hasElement_takes first cursor _ middle decided
  obtain ⟨text, isValue, remaining, anew⟩ := (onPart middle).under step value next read
  refine ⟨separator ++ text, by simp [isValue.ne_nil], ?_, ?_, ?_⟩
  · intro rest isRest
    rw [List.append_assoc]
    exact leads text rest isValue isRest
  · rw [split, remaining, List.append_assoc]
  · intro behind same
    refine ⟨_, ?_, anew behind same⟩
    rw [List.append_assoc]
    apply again
    rw [remaining]
    exact head?_append_congr _ same

/-- What is taken of a list before the blanks at its end and its closing bracket. -/
def IsListInside (first : Bool) (taken : List Char) : Prop :=
  ∀ blanks, IsBlankText blanks → ListTail first (taken ++ (blanks ++ [']']))

theorem IsListInside.ofBlanks {first : Bool} {taken : List Char}
    (onTaken : IsBlankText taken) : IsListInside first taken := by
  intro blanks onBlanks
  rw [← List.append_assoc]
  exact .close (IsBlankText.append onTaken onBlanks)

/-- An element in front of what is taken for the others. -/
theorem IsListInside.element {first : Bool} {value : α} {part : Reading α}
    (onPart : part.Takes fun _ => ValueText) {step : PathStep}
    {cursor middle place next : Cursor} (decided : hasElement first cursor = .ok true middle)
    (begun : under step part middle = .ok value place) {others : List Char}
    (inside : IsListInside false others) (remaining : place.rest = others ++ next.rest) :
    ∃ taken, IsListInside first taken ∧ cursor.rest = taken ++ next.rest ∧
      others.length < taken.length ∧
      ∀ behind, behind.head? = next.rest.head? →
        ∃ start, hasElement first ⟨taken ++ behind, cursor.offset⟩ = .ok true start ∧
          under step part start = .ok value ⟨others ++ behind, place.offset⟩ := by
  obtain ⟨element, nonempty, leads, split, again⟩ := element_takes onPart decided begun
  have positive := List.length_pos_iff.mpr nonempty
  refine ⟨element ++ others, ?_, ?_, by rw [List.length_append]; omega, ?_⟩
  · intro blanks onBlanks
    rw [List.append_assoc]
    exact leads _ (inside blanks onBlanks)
  · rw [split, remaining, List.append_assoc]
  · intro behind same
    rw [List.append_assoc]
    apply again
    rw [remaining]
    exact head?_append_congr others same

/-- Every element takes at least one character, so a list is read in as many steps as its
text has characters. -/
theorem elements_takes {item : Reading α} (onItem : item.Takes fun _ => ValueText)
    {steps index : Nat} {cursor next : Cursor} {values : List α}
    (read : elements item steps index cursor = .ok values next) :
    ∃ taken, IsListInside (index == 0) taken ∧ cursor.rest = taken ++ next.rest ∧
      ∀ behind more, behind.head? = next.rest.head? → taken.length < more →
        elements item more index ⟨taken ++ behind, cursor.offset⟩ =
          .ok values ⟨behind, next.offset⟩ := by
  induction steps generalizing index cursor values with
  | zero => exact (failNext_ne_ok read).elim
  | succ steps ih =>
      obtain ⟨more, middle, decided, read⟩ := bind_eq_ok.mp read
      cases more with
      | false =>
          obtain ⟨rfl, rfl⟩ := pure_eq_ok.mp read
          obtain ⟨taken, onBlanks, split, again⟩ :=
            hasElement_takes _ cursor false middle decided
          refine ⟨taken, .ofBlanks onBlanks, split, ?_⟩
          rintro behind (_ | more) same enough
          · cases enough
          · exact (bind_of_ok (again behind same) _).trans rfl
      | true =>
          obtain ⟨value, place, begun, read⟩ := bind_eq_ok.mp read
          obtain ⟨others, last, continued, read⟩ := bind_eq_ok.mp read
          obtain ⟨rfl, rfl⟩ := pure_eq_ok.mp read
          obtain ⟨rest, inside, remaining, onward⟩ := ih continued
          obtain ⟨taken, onTaken, split, longer, again⟩ :=
            IsListInside.element onItem decided begun inside remaining
          refine ⟨taken, onTaken, split, ?_⟩
          rintro behind (_ | more) same enough
          · cases enough
          · obtain ⟨start, decidedAgain, begunAgain⟩ := again behind same
            have enough : rest.length < more := by omega
            rw [elements, bind_of_ok decidedAgain, if_pos rfl, bind_of_ok begunAgain,
              bind_of_ok (onward behind more same enough)]
            rfl

theorem enclosed_list_takesWhole {inside : Reading α}
    (onInside : inside.Takes fun _ => IsListInside true) :
    (enclosed inside finishList).TakesWhole fun _ => ListTail true := by
  have whole := enclosed_takesWhole onInside finishList_takesWhole
    (by rintro _ ⟨blanks, _, rfl⟩; simp)
  intro cursor value next read
  obtain ⟨_, ⟨first, last, rfl, isInside, blanks, onBlanks, rfl⟩, split, again⟩ :=
    whole cursor value next read
  exact ⟨_, isInside blanks onBlanks, split, again⟩

theorem listTail_takesWhole {item : Reading α} (onItem : item.Takes fun _ => ValueText) :
    (listTail item).TakesWhole fun _ => ListTail true := by
  apply enclosed_list_takesWhole
  intro cursor values next read
  obtain ⟨taken, inside, split, again⟩ := elements_takes onItem read
  refine ⟨taken, inside, split, fun behind same => ?_⟩
  exact again behind _ same (by rw [List.length_append]; omega)

/-- What is taken before the next member: behind it, a member and the rest of the object
may stand. -/
def LeadsToMember (first more : Bool) (taken : List Char) : Prop :=
  if more then
    ∀ member rest, MemberText member → ObjectTail false rest →
      ObjectTail first (taken ++ (member ++ rest))
  else
    IsBlankText taken

theorem hasMember_takes (first : Bool) :
    (hasMember first).Takes (LeadsToMember first) := by
  intro cursor
  apply TakesAt.skipBlanks
  intro blanks middle onBlanks
  apply TakesAt.peek
  cases head : middle.rest.head? with
  | none => exact .failNext _
  | some c =>
      dsimp only
      split
      · apply TakesAt.pure
        rw [List.append_nil]
        exact onBlanks
      split
      · next isFirst =>
        split
        · apply TakesAt.pure
          intro member rest isMember isRest
          rw [List.append_nil, isFirst, ← List.append_assoc]
          exact .first (MemberText.behindBlanks onBlanks isMember) isRest
        · exact .failNext _
      · next notFirst =>
        have notFirst : first = false := by simpa using notFirst
        split
        · next isComma =>
          rw [beq_iff_eq.mp isComma] at head
          apply TakesAt.advance head
          intro behindComma
          apply TakesAt.skipBlanks
          intro more place onMore
          apply TakesAt.peek
          split
          · exact .failNext _
          · split
            · apply TakesAt.pure
              intro member rest isMember isRest
              have isText :=
                ObjectTail.next onBlanks (MemberText.behindBlanks onMore isMember) isRest
              simpa [notFirst] using isText
            · split
              · exact .failNext _
              · exact .failNext _
        · exact .failNext _

/-- What is taken for the key of the next member: behind it, a colon, a value and the rest
of the object may stand. -/
def LeadsToColon (first : Bool) (key : Option String) (taken : List Char) : Prop :=
  match key with
  | none => IsBlankText taken
  | some _ =>
      ∀ between value rest, IsBlankText between → ValueText value →
        ObjectTail false rest →
        ObjectTail first (taken ++ (between ++ ':' :: (value ++ rest)))

theorem nextKey_takes (first : Bool) : (nextKey first).Takes (LeadsToColon first) := by
  intro cursor
  apply TakesAt.under
  apply (hasMember_takes first cursor).bind
  intro more taken middle leads decided
  cases more with
  | false =>
      apply TakesAt.pure
      rw [List.append_nil]
      exact leads
  | true =>
      have quote := (hasMember_eq_true decided).2
      apply TakesAt.map
      apply (string_takes quote).mono
      rintro _ _ ⟨tail, rfl, isTail⟩ between value rest onBetween isValue isRest
      have member := MemberText.member IsBlankText.nil isTail onBetween isValue
      simpa using leads _ rest member isRest

theorem colon_takes : colon.Takes fun _ taken =>
    ∃ blanks, IsBlankText blanks ∧ taken = blanks ++ [':'] := by
  intro cursor
  apply TakesAt.skipBlanks
  intro blanks middle onBlanks
  apply TakesAt.peek
  cases head : middle.rest.head? with
  | none => exact .failNext _
  | some c =>
      dsimp only
      split
      · next isColon =>
        rw [beq_iff_eq.mp isColon] at head
        rw [← bind_pure advance]
        apply TakesAt.advance head
        intro place
        exact .pure ⟨blanks, onBlanks, rfl⟩
      · exact .failNext _

/-- A member with its value is taken together with the separator before it. -/
theorem member_takes {first : Bool} {key : String} {value : α} {part : Reading α}
    (onPart : part.Takes fun _ => ValueText) {step : PathStep} {cursor middle next : Cursor}
    (keyed : nextKey first cursor = .ok (some key) middle)
    (read : (do colon; under step part) middle = .ok value next) :
    ∃ taken, taken ≠ [] ∧
      (∀ rest, ObjectTail false rest → ObjectTail first (taken ++ rest)) ∧
      cursor.rest = taken ++ next.rest ∧
      ∀ behind, behind.head? = next.rest.head? →
        ∃ place, nextKey first ⟨taken ++ behind, cursor.offset⟩ = .ok (some key) place ∧
          (do colon; under step part) place = .ok value ⟨behind, next.offset⟩ := by
  have behindKey : (do colon; under step part).Takes fun _ taken =>
      ∃ between text, taken = between ++ ':' :: text ∧ IsBlankText between ∧
        ValueText text := by
    intro place
    apply (colon_takes place).bind
    rintro _ _ behind ⟨between, onBetween, rfl⟩ _
    apply ((onPart behind).under step).mono
    intro _ text isValue
    exact ⟨between, text, by simp, onBetween, isValue⟩
  obtain ⟨front, leads, split, again⟩ := nextKey_takes first cursor _ middle keyed
  obtain ⟨_, ⟨between, text, rfl, onBetween, isValue⟩, remaining, anew⟩ :=
    behindKey middle value next read
  refine ⟨front ++ (between ++ ':' :: text), by simp, ?_, ?_, ?_⟩
  · intro rest isRest
    simpa using leads between text rest onBetween isValue isRest
  · simp [split, remaining]
  · intro behind same
    refine ⟨_, ?_, anew behind same⟩
    rw [List.append_assoc]
    apply again
    rw [remaining]
    exact head?_append_congr _ same

/-- What is taken of an object before the blanks at its end and its closing brace. -/
def IsObjectInside (first : Bool) (taken : List Char) : Prop :=
  ∀ blanks, IsBlankText blanks → ObjectTail first (taken ++ (blanks ++ ['\x7d']))

theorem IsObjectInside.ofBlanks {first : Bool} {taken : List Char}
    (onTaken : IsBlankText taken) : IsObjectInside first taken := by
  intro blanks onBlanks
  rw [← List.append_assoc]
  exact .close (IsBlankText.append onTaken onBlanks)

/-- A member in front of what is taken for the others. -/
theorem IsObjectInside.member {first : Bool} {key : String} {value : α} {part : Reading α}
    (onPart : part.Takes fun _ => ValueText) {step : PathStep}
    {cursor middle place next : Cursor}
    (keyed : nextKey first cursor = .ok (some key) middle)
    (begun : (do colon; under step part) middle = .ok value place) {others : List Char}
    (inside : IsObjectInside false others) (remaining : place.rest = others ++ next.rest) :
    ∃ taken, IsObjectInside first taken ∧ cursor.rest = taken ++ next.rest ∧
      others.length < taken.length ∧
      ∀ behind, behind.head? = next.rest.head? →
        ∃ start, nextKey first ⟨taken ++ behind, cursor.offset⟩ = .ok (some key) start ∧
          (do colon; under step part) start = .ok value ⟨others ++ behind, place.offset⟩ := by
  obtain ⟨member, nonempty, leads, split, again⟩ := member_takes onPart keyed begun
  have positive := List.length_pos_iff.mpr nonempty
  refine ⟨member ++ others, ?_, ?_, by rw [List.length_append]; omega, ?_⟩
  · intro blanks onBlanks
    rw [List.append_assoc]
    exact leads _ (inside blanks onBlanks)
  · rw [split, remaining, List.append_assoc]
  · intro behind same
    rw [List.append_assoc]
    apply again
    rw [remaining]
    exact head?_append_congr others same

/-- Every member takes at least one character, so an object is read in as many steps as its
text has characters. -/
theorem members_takes {value : Reading α} (onValue : value.Takes fun _ => ValueText)
    {steps : Nat} {first : Bool} {cursor next : Cursor} {entries : List (String × α)}
    (read : members value steps first cursor = .ok entries next) :
    ∃ taken, IsObjectInside first taken ∧ cursor.rest = taken ++ next.rest ∧
      ∀ behind more, behind.head? = next.rest.head? → taken.length < more →
        members value more first ⟨taken ++ behind, cursor.offset⟩ =
          .ok entries ⟨behind, next.offset⟩ := by
  induction steps generalizing first cursor entries with
  | zero => exact (failNext_ne_ok read).elim
  | succ steps ih =>
      obtain ⟨key, middle, keyed, read⟩ := bind_eq_ok.mp read
      cases key with
      | none =>
          obtain ⟨rfl, rfl⟩ := pure_eq_ok.mp read
          obtain ⟨taken, onBlanks, split, again⟩ := nextKey_takes first cursor _ middle keyed
          refine ⟨taken, .ofBlanks onBlanks, split, ?_⟩
          rintro behind (_ | more) same enough
          · cases enough
          · exact (bind_of_ok (again behind same) _).trans rfl
      | some key =>
          dsimp only at read
          rw [← bind_assoc] at read
          obtain ⟨current, place, begun, read⟩ := bind_eq_ok.mp read
          obtain ⟨others, last, continued, read⟩ := bind_eq_ok.mp read
          obtain ⟨rfl, rfl⟩ := pure_eq_ok.mp read
          obtain ⟨rest, inside, remaining, onward⟩ := ih continued
          obtain ⟨taken, onTaken, split, longer, again⟩ :=
            IsObjectInside.member onValue keyed begun inside remaining
          refine ⟨taken, onTaken, split, ?_⟩
          rintro behind (_ | more) same enough
          · cases enough
          · obtain ⟨start, keyedAgain, begunAgain⟩ := again behind same
            have enough : rest.length < more := by omega
            rw [members, bind_of_ok keyedAgain]
            dsimp only
            rw [← bind_assoc, bind_of_ok begunAgain,
              bind_of_ok (onward behind more same enough)]
            rfl

theorem enclosed_object_takesWhole {inside : Reading α}
    (onInside : inside.Takes fun _ => IsObjectInside true) :
    (enclosed inside finishObject).TakesWhole fun _ => ObjectTail true := by
  have whole := enclosed_takesWhole onInside finishObject_takesWhole
    (by rintro _ ⟨blanks, _, rfl⟩; simp)
  intro cursor value next read
  obtain ⟨_, ⟨first, last, rfl, isInside, blanks, onBlanks, rfl⟩, split, again⟩ :=
    whole cursor value next read
  exact ⟨_, isInside blanks onBlanks, split, again⟩

theorem objectTail_takesWhole {value : Reading α} (onValue : value.Takes fun _ => ValueText) :
    (objectTail value).TakesWhole fun _ => ObjectTail true := by
  apply enclosed_object_takesWhole
  intro cursor entries next read
  obtain ⟨taken, inside, split, again⟩ := members_takes onValue read
  refine ⟨taken, inside, split, fun behind same => ?_⟩
  exact again behind _ same (by rw [List.length_append]; omega)

theorem valueOver_takes {inner : Option (Reading Json)}
    (onInner : ∀ reading ∈ inner, reading.Takes fun _ => ValueText) :
    (valueOver inner).Takes fun _ => ValueText := by
  intro cursor
  apply TakesAt.skipBlanks
  intro blanks middle onBlanks
  refine TakesAt.mono ?_ fun _ _ (isValue : ValueText _) => isValue.behindBlanks onBlanks
  apply TakesAt.peek
  cases head : middle.rest.head? with
  | none => exact .failNext _
  | some c =>
      dsimp only
      cases known : scalar? c with
      | some scalar => exact scalar?_takes head known
      | none =>
          dsimp only
          split
          · next opening =>
            cases inner with
            | none => exact .failNext _
            | some item =>
                have onItem := onInner item rfl
                apply TakesAt.advance head
                intro place
                split
                · next isList =>
                  apply TakesAt.map
                  apply ((listTail_takesWhole onItem).takes place).mono
                  intro _ _ isTail
                  rw [beq_iff_eq.mp isList]
                  exact .list isTail
                · next notList =>
                  have isObject : c = '\x7b' := by simpa [notList] using opening
                  apply TakesAt.map
                  apply ((objectTail_takesWhole onItem).takes place).mono
                  intro _ _ isTail
                  rw [isObject]
                  exact .object isTail
          · exact .failNext _

theorem value_takes (room : Nat) : (value room).Takes fun _ => ValueText := by
  induction room with
  | zero => exact valueOver_takes (by simp)
  | succ room ih => exact valueOver_takes (by simpa using ih)

end BuildScribe.Reading

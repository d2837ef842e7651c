import BuildScribe.Json.Codec
import BuildScribe.Proofs.Json.Skipped

/-!
# What is taken for the data of a form

Whatever the form, the data read from a text is the text of one value. A record ends with
its own bracket, so it is read the same whatever is left behind it.
-/

namespace BuildScribe

open Reading

/-- The codec reads its data from the text of one value. -/
def Codec.TakesValue {α : Type} (codec : Codec α) : Prop :=
  ∀ room, (codec.fromText room).Takes fun _ => ValueText

/-- The field is read from the text of one value. -/
def Field.TakesValue {σ : Type} (field : Field σ) : Prop :=
  ∀ room, (field.fromText room).Takes fun _ => ValueText

/-- The variant reads its body from the text of one value. -/
def Variant.TakesValue {α : Type} (variant : Variant α) : Prop :=
  ∀ room, (variant.fromText room).Takes fun _ => ValueText

namespace Reading

variable {α : Type} {cursor : Cursor}

/-- What accepts words, numbers and strings only. -/
def RefusesContainers (accept : Json → Except ReadCause α) : Prop :=
  (∀ items, ∃ cause, accept (.array items) = .error cause) ∧
    ∀ members, ∃ cause, accept (.object members) = .error cause

theorem TakesAt.settle {result : Except ReadCause α} {shape : α → List Char → Prop}
    (shaped : ∀ value, result = .ok value → shape value []) :
    (Reading.settle result).TakesAt shape cursor := by
  cases result with
  | ok value => exact .pure (shaped value rfl)
  | error cause => exact .refuseHere cause

/-- What follows a settled result is read only if it is a value. -/
theorem TakesAt.settle_bind {β : Type} {result : Except ReadCause α} {second : α → Reading β}
    {shape : β → List Char → Prop}
    (onSecond : ∀ value, result = .ok value → (second value).TakesAt shape cursor) :
    (Reading.settle result >>= second).TakesAt shape cursor := by
  cases result with
  | ok value => exact onSecond value rfl
  | error cause => exact .ofFails fun _ _ read => nomatch read

theorem scalarValue_takes {accept : Json → Except ReadCause α}
    (refuses : RefusesContainers accept) :
    (scalarValue accept).Takes fun _ => ValueText := by
  intro cursor
  apply TakesAt.skipBlanks
  intro blanks middle onBlanks
  apply TakesAt.peek
  cases head : middle.rest.head? with
  | none => exact .failNext _
  | some c =>
      dsimp only
      cases known : scalar? c with
      | some scalar =>
          apply (scalar?_takes head known).bind
          intro json text place isValue _
          apply TakesAt.settle
          intro value _
          rw [List.append_nil]
          exact isValue.behindBlanks onBlanks
      | none =>
          dsimp only
          split
          · obtain ⟨cause, refused⟩ := refuses.1 []
            rw [refused]
            exact .refuseHere cause
          split
          · obtain ⟨cause, refused⟩ := refuses.2 []
            rw [refused]
            exact .refuseHere cause
          · exact .failNext _

/-- A name is the text of a string. -/
theorem nameValue_takes (refusal : Json → ReadCause) :
    (scalarValue fun
      | .string name => .ok name
      | json => .error (refusal json)).Takes fun _ taken =>
        ∃ blanks tail, taken = blanks ++ '"' :: tail ∧ IsBlankText blanks ∧
          StringTail tail := by
  intro cursor
  apply TakesAt.skipBlanks
  intro blanks middle onBlanks
  apply TakesAt.peek
  cases head : middle.rest.head? with
  | none => exact .failNext _
  | some c =>
      dsimp only
      cases known : scalar? c with
      | some scalar =>
          by_cases isQuote : c = '"'
          · subst isQuote
            cases known
            have onString : (Json.string <$> string).TakesAt (fun _ => QuotedText) middle :=
              (string_takes head).map
            apply onString.bind
            rintro json _ place ⟨tail, rfl, isTail⟩ _
            apply TakesAt.settle
            exact fun _ _ => ⟨blanks, tail, by simp, onBlanks, isTail⟩
          · apply TakesAt.ofFails
            intro name next read
            obtain ⟨json, place, spelled, settled⟩ := bind_eq_ok.mp read
            cases json with
            | string text =>
                cases ScalarRun.of_scalar? known spelled
                exact isQuote rfl
            | _ => exact refuseHere_ne_ok settled
      | none =>
          dsimp only
          split
          · exact .refuseHere _
          split
          · exact .refuseHere _
          · exact .failNext _

theorem refuseValue_takes (expected : String) :
    (refuseValue expected : Reading α).Takes fun _ => ValueText :=
  scalarValue_takes ⟨fun _ => ⟨_, rfl⟩, fun _ => ⟨_, rfl⟩⟩

theorem TakesAt.descend {room : Nat} {inside : Nat → Reading α} {shape : α → List Char → Prop}
    {c : Char} (head : cursor.rest.head? = some c)
    (onInside : ∀ room, (inside room).Takes fun value taken => shape value (c :: taken)) :
    (Reading.descend room inside).TakesAt shape cursor := by
  cases room with
  | zero => exact .failNext _
  | succ room => exact .advance head fun middle => onInside room middle

theorem TakesWholeAt.descend {room : Nat} {inside : Nat → Reading α}
    {shape : α → List Char → Prop} {c : Char} (head : cursor.rest.head? = some c)
    (onInside : ∀ room,
      (inside room).TakesWhole fun value taken => shape value (c :: taken)) :
    (Reading.descend room inside).TakesWholeAt shape cursor := by
  intro value next read
  cases room with
  | zero => exact (failNext_ne_ok read).elim
  | succ room =>
      obtain ⟨_ | ⟨_, rest⟩, offset⟩ := cursor
      · cases head
      cases head
      obtain ⟨taken, shaped, split, again⟩ := onInside room _ value next read
      exact ⟨c :: taken, shaped, congrArg (c :: ·) split, again⟩

theorem refuseValue_ne_ok {expected : String} {value : α} {next : Cursor} :
    ¬refuseValue expected cursor = .ok value next := by
  intro read
  obtain ⟨_, middle, _, read⟩ := bind_eq_ok.mp read
  obtain ⟨c, _, read⟩ := peek_eq_ok read
  cases known : scalar? c with
  | some scalar =>
      rw [known] at read
      obtain ⟨_, _, _, settled⟩ := bind_eq_ok.mp read
      exact refuseHere_ne_ok settled
  | none =>
      rw [known] at read
      dsimp only at read
      split at read
      · exact refuseHere_ne_ok read
      split at read
      · exact refuseHere_ne_ok read
      · exact failNext_ne_ok read

end Reading

namespace Codec

variable {α : Type}

theorem scalar_takesValue {accept : Json → Except ReadCause α}
    (refuses : RefusesContainers accept) (toJson : α → Json) :
    (scalar accept toJson).TakesValue :=
  fun _ => scalarValue_takes refuses

theorem text_takesValue : text.TakesValue :=
  scalar_takesValue ⟨fun _ => ⟨_, rfl⟩, fun _ => ⟨_, rfl⟩⟩ _

theorem flag_takesValue : flag.TakesValue :=
  scalar_takesValue ⟨fun _ => ⟨_, rfl⟩, fun _ => ⟨_, rfl⟩⟩ _

theorem optional_takesValue {codec : Codec α} (onCodec : codec.TakesValue) :
    codec.optional.TakesValue := by
  intro room cursor
  apply TakesAt.skipBlanks
  intro blanks middle onBlanks
  apply TakesAt.peek
  split
  · next isN =>
    apply (wholeWord_takes (beq_iff_eq.mp isN) _).bind
    rintro _ _ place rfl _
    apply TakesAt.pure
    rw [List.append_nil]
    exact ValueText.null.behindBlanks onBlanks
  · apply TakesAt.map
    exact (onCodec room middle).mono fun _ _ isValue => isValue.behindBlanks onBlanks

theorem list_takesValue {codec : Codec α} (onCodec : codec.TakesValue) :
    codec.list.TakesValue := by
  intro room cursor
  apply TakesAt.skipBlanks
  intro blanks middle onBlanks
  apply TakesAt.peek
  split
  · next opening =>
    apply TakesAt.descend (beq_iff_eq.mp opening)
    intro inner place
    apply ((listTail_takesWhole (onCodec inner)).takes place).mono
    exact fun _ _ isTail => (ValueText.list isTail).behindBlanks onBlanks
  · exact (refuseValue_takes _ middle).mono fun _ _ isValue => isValue.behindBlanks onBlanks

theorem dictionary_takesValue {codec : Codec α} (onCodec : codec.TakesValue) :
    codec.dictionary.TakesValue := by
  intro room cursor
  apply TakesAt.skipBlanks
  intro blanks middle onBlanks
  apply TakesAt.peek
  split
  · next opening =>
    apply TakesAt.descend (beq_iff_eq.mp opening)
    intro inner place
    apply ((objectTail_takesWhole (onCodec inner)).takes place).bind
    intro entries tail behind isTail _
    apply TakesAt.pure
    rw [List.append_nil]
    exact (ValueText.object isTail).behindBlanks onBlanks
  · exact (refuseValue_takes _ middle).mono fun _ _ isValue => isValue.behindBlanks onBlanks

theorem oneOf_takesValue (name : String) (select : Json → Option α) (toJson : α → Json) :
    (oneOf name select toJson).TakesValue := by
  intro room cursor
  apply (value_takes room cursor).bind
  intro json text middle isValue _
  cases select json with
  | some chosen => exact .pure (by rwa [List.append_nil])
  | none => exact .refuse _

end Codec

theorem Field.of_takesValue {α σ : Type} {codec : Codec α} (onCodec : codec.TakesValue)
    (name : String) (required : Bool) (get : σ → α) (set : α → σ → σ) :
    (Field.of name required codec get set).TakesValue :=
  fun room cursor => (onCodec room cursor).map

namespace Record

variable {σ : Type} {record : Record σ}

theorem textMembers_takes (onFields : ∀ field ∈ record.fields, field.TakesValue)
    {room steps : Nat} {first : Bool} {seen : List String} {current result : σ}
    {cursor next : Cursor}
    (read : record.textMembers room steps first seen current cursor = .ok result next) :
    ∃ taken, IsObjectInside first taken ∧ cursor.rest = taken ++ next.rest ∧
      ∀ behind more, behind.head? = next.rest.head? → taken.length < more →
        record.textMembers room more first seen current ⟨taken ++ behind, cursor.offset⟩ =
          .ok result ⟨behind, next.offset⟩ := by
  induction steps generalizing first seen current cursor with
  | zero => exact (failNext_ne_ok read).elim
  | succ steps ih =>
      -- A member with any part behind its colon, and then the members behind it.
      have onward {β : Type} {key : String} {part : Reading β} {middle : Cursor}
          (known : List String) (change : β → σ) (onPart : part.Takes fun _ => ValueText)
          (keyed : nextKey first cursor = .ok (some key) middle)
          (unfolds : ∀ more start place, nextKey first start = .ok (some key) place →
            record.textMembers room (more + 1) first seen current start =
              (do
                let value ← (do colon; under (.key key) part)
                record.textMembers room more false known (change value)) place) :
          ∃ taken, IsObjectInside first taken ∧ cursor.rest = taken ++ next.rest ∧
            ∀ behind more, behind.head? = next.rest.head? → taken.length < more →
              record.textMembers room more first seen current
                  ⟨taken ++ behind, cursor.offset⟩ =
                .ok result ⟨behind, next.offset⟩ := by
        rw [unfolds steps cursor middle keyed] at read
        obtain ⟨value, place, begun, continued⟩ := bind_eq_ok.mp read
        obtain ⟨others, inside, remaining, rerun⟩ := ih continued
        obtain ⟨taken, onTaken, split, longer, again⟩ :=
          IsObjectInside.member onPart keyed begun inside remaining
        refine ⟨taken, onTaken, split, ?_⟩
        rintro behind (_ | more) same enough
        · cases enough
        · obtain ⟨start, keyedAgain, begunAgain⟩ := again behind same
          rw [unfolds more _ start keyedAgain, bind_of_ok begunAgain]
          exact rerun behind more same (by omega)
      obtain ⟨key, middle, keyed, read⟩ := bind_eq_ok.mp read
      cases key with
      | none =>
          cases absent : record.missing? seen with
          | some name =>
              simp only [absent] at read
              exact (refuse_ne_ok read).elim
          | none =>
              simp only [absent] at read
              obtain ⟨rfl, rfl⟩ := pure_eq_ok.mp read
              obtain ⟨taken, onBlanks, split, again⟩ :=
                nextKey_takes first cursor _ middle keyed
              refine ⟨taken, .ofBlanks onBlanks, split, ?_⟩
              rintro behind (_ | more) same enough
              · cases enough
              · rw [textMembers, bind_of_ok (again behind same)]
                simp only [absent]
                rfl
      | some key =>
          cases known : record.field? key with
          | none =>
              simp only [known] at read
              split at read
              · exact (refuse_ne_ok (under_eq_ok.mp read)).elim
              · next lenient =>
                refine onward seen (fun _ => current) skipValue_takes keyed ?_
                intro more start place keyedAgain
                rw [textMembers, bind_of_ok keyedAgain]
                simp only [known, lenient, bind_assoc]
                rfl
          | some field =>
              simp only [known] at read
              split at read
              · exact (refuse_ne_ok read).elim
              · next fresh =>
                have isField := List.mem_of_find?_eq_some known
                refine onward (key :: seen) (fun update => update current)
                  (onFields field isField room) keyed ?_
                intro more start place keyedAgain
                rw [textMembers, bind_of_ok keyedAgain]
                simp only [known, fresh, bind_assoc]
                rfl

/-- At the end of a list the fields that are left keep the record as it is, unless one of
them is required. -/
theorem textElements_of_closing (record : Record σ) {cursor : Cursor}
    (closing : cursor.rest.head? = some ']')
    (room index : Nat) (fields : List (Field σ)) (current : σ) :
    if fields.any (·.required) then
      ∃ fault stop, record.textElements room index fields current cursor = .error fault stop
    else
      record.textElements room index fields current cursor = .ok current cursor := by
  induction fields generalizing index with
  | nil => rfl
  | cons field rest ih =>
      rw [textElements, bind_of_ok (hasElement_of_closing closing _)]
      cases required : field.required with
      | true => simpa [required] using ⟨_, _, rfl⟩
      | false => simpa [required] using ih (index + 1)

theorem textElements_of_closing_takesAt {cursor : Cursor}
    (closing : cursor.rest.head? = some ']') (room index : Nat) (fields : List (Field σ))
    (current : σ) :
    (record.textElements room index fields current).TakesAt (fun _ taken => taken = [])
      cursor := by
  intro value next read
  have ended {place : Cursor} (closing : place.rest.head? = some ']') :=
    record.textElements_of_closing closing room index fields current
  cases left : fields.any (·.required) with
  | true =>
      simp only [left, if_true] at ended
      obtain ⟨fault, stop, refused⟩ := ended closing
      cases read.symm.trans refused
  | false =>
      simp only [left, Bool.false_eq_true, if_false] at ended
      cases read.symm.trans (ended closing)
      refine ⟨[], rfl, rfl, fun behind same => ?_⟩
      exact ended (same.trans closing)

theorem textElements_takes (room index : Nat) {fields : List (Field σ)}
    (onFields : ∀ field ∈ fields, field.TakesValue) (current : σ) :
    (record.textElements room index fields current).Takes fun _ =>
      IsListInside (index == 0) := by
  induction fields generalizing index current with
  | nil => exact fun _ => .pure (.ofBlanks .nil)
  | cons field rest ih =>
      rw [List.forall_mem_cons] at onFields
      intro cursor
      apply (hasElement_takes _ cursor).bind
      intro more separator middle leads decided
      split
      · next isMore =>
        subst isMore
        apply ((onFields.1 room middle).under _).bind
        intro update text place isValue _
        apply (ih (index + 1) onFields.2 _ place).mono
        intro _ taken inside blanks onBlanks
        have isTail := leads text _ isValue (inside blanks onBlanks)
        simpa using isTail
      · next noMore =>
        rw [Bool.not_eq_true] at noMore
        subst noMore
        split
        · exact .refuse _
        · have closing := (hasElement_eq_false decided).2
          apply (textElements_of_closing_takesAt closing room (index + 1) rest current).mono
          rintro _ _ rfl
          rw [List.append_nil]
          exact .ofBlanks leads

theorem enclosed_textMembers_takesWhole
    (onFields : ∀ field ∈ record.fields, field.TakesValue) (room : Nat) :
    (enclosed (do record.textMembers room (← remainingSteps) true [] record.blank)
      finishObject).TakesWhole fun _ => ObjectTail true := by
  apply enclosed_object_takesWhole
  intro cursor result next read
  obtain ⟨taken, inside, split, again⟩ := textMembers_takes onFields read
  refine ⟨taken, inside, split, fun behind same => ?_⟩
  exact again behind _ same (by rw [List.length_append]; omega)

theorem enclosed_textElements_takesWhole
    (onFields : ∀ field ∈ record.fields, field.TakesValue) (room : Nat) :
    (enclosed (record.textElements room 0 record.fields record.blank)
      finishList).TakesWhole fun _ => ListTail true :=
  enclosed_list_takesWhole (textElements_takes room 0 onFields record.blank)

/-- A record ends with its own bracket, so it is read the same whatever is left behind
it. -/
theorem fromText_takesWhole (onFields : ∀ field ∈ record.fields, field.TakesValue)
    (room : Nat) : (record.fromText room).TakesWhole fun _ => ValueText := by
  apply blanks_takesWhole (fun c => c = '\x7b' ∨ c = '[')
    (by rintro c (rfl | rfl) <;> decide)
  · rintro c cursor (rfl | rfl) head
    · apply TakesWholeAt.descend head
      intro inner place value next read
      obtain ⟨taken, isTail, split, again⟩ :=
        enclosed_textMembers_takesWhole onFields inner place value next read
      exact ⟨taken, ⟨rfl, fun _ => (ValueText.object isTail).behindBlanks⟩, split, again⟩
    · apply TakesWholeAt.descend head
      intro inner place value next read
      obtain ⟨taken, isTail, split, again⟩ :=
        enclosed_textElements_takesWhole onFields inner place value next read
      exact ⟨taken, ⟨rfl, fun _ => (ValueText.list isTail).behindBlanks⟩, split, again⟩
  · intro head neither cursor value next read
    split at read
    · exact neither _ rfl (.inl rfl)
    · exact neither _ rfl (.inr rfl)
    · exact refuseValue_ne_ok read

theorem codec_takesValue (onFields : ∀ field ∈ record.fields, field.TakesValue) :
    record.codec.TakesValue :=
  fun room => (fromText_takesWhole onFields room).takes

end Record

namespace Variant

variable {α σ : Type}

theorem plain_takesValue (name : String) (value : α) : (plain name value).TakesValue :=
  fun _ => scalarValue_takes ⟨fun _ => ⟨_, rfl⟩, fun _ => ⟨_, rfl⟩⟩

theorem withBody_takesValue (name : String) {record : Record σ} (make : σ → α)
    (onRecord : record.codec.TakesValue) : (withBody name record make).TakesValue :=
  fun room cursor => (onRecord room cursor).map

theorem orRefuse_takes (result : Except ReadCause α) :
    (orRefuse result).Takes fun _ taken => taken = [] := by
  intro cursor
  cases result with
  | ok value => exact .pure rfl
  | error cause => exact .refuse cause

theorem mem_of_select {variants : List (Variant α)} {name : String} {variant : Variant α}
    (selected : select variants name = .ok variant) : variant ∈ variants := by
  unfold select at selected
  split at selected
  · next found =>
    cases selected
    exact List.mem_of_find?_eq_some found
  · cases selected

theorem codec_takesValue {variants : List (Variant α)}
    (onVariants : ∀ variant ∈ variants, variant.TakesValue) (toJson : α → Json) :
    (codec variants toJson).TakesValue := by
  intro room cursor
  apply TakesAt.skipBlanks
  intro blanks middle onBlanks
  apply TakesAt.peek
  split
  · exact .failNext _
  · next quote =>
    apply (string_takes quote).bind
    rintro name _ place ⟨tail, rfl, isTail⟩ _
    apply TakesAt.settle_bind
    intro variant _
    apply ((orRefuse_takes variant.bareValue place).under _).mono
    rintro _ _ rfl
    rw [List.append_nil]
    exact (ValueText.string isTail).behindBlanks onBlanks
  · next opening =>
    apply TakesAt.descend opening
    intro inner place
    apply (nameValue_takes _ place).bind
    rintro name _ behindName ⟨before, tail, rfl, onBefore, isTail⟩ _
    apply TakesAt.settle_bind
    intro variant selected
    apply (colon_takes behindName).bind
    rintro _ _ behindColon ⟨between, onBetween, rfl⟩ _
    apply ((onVariants variant (mem_of_select selected) inner behindColon).under _).bind
    intro value text behindBody isValue _
    apply TakesAt.skipBlanks
    intro after last onAfter
    apply TakesAt.peek
    split
    · next closing =>
      apply TakesAt.advance closing
      intro place
      apply TakesAt.pure
      have isMember := MemberText.member onBefore isTail onBetween isValue
      have isObject := ValueText.object (.first isMember (.close onAfter))
      simpa using isObject.behindBlanks onBlanks
    · exact .failHere _
    · exact .failHere _
  · exact .failNext _

end Variant

end BuildScribe

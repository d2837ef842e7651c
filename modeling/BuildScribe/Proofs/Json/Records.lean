import BuildScribe.Proofs.Json.Accepted
import BuildScribe.Proofs.Json.Agreement

/-!
# Records and variants in both readers

A record may be given as an object or as a list in either reader. A text shows repeated
keys, values that nobody asks for and elements behind the last field; none of them makes a
difference for a value without repeated keys. Only the body of a variant may be a list in a
text and may not be one in a value.
-/

namespace BuildScribe

open Reading

namespace Record

variable {σ : Type} {exempt : Prop} {record : Record σ} {json : Json}

theorem textMembers_follow {room steps : Nat} {first : Bool} {cursor next : Cursor}
    {members : List (String × Json)}
    (agrees : ∀ member ∈ members, ∀ field, record.field? member.1 = some field →
      field.AgreesOn exempt member.2)
    (keys : (members.map (·.1)).Nodup) (distinct : ∀ member ∈ members, member.2.DistinctKeys)
    (seen : List String) (unseen : ∀ member ∈ members, member.1 ∉ seen) (current : σ)
    (read : Reading.members (value room) steps first cursor = .ok members next) :
    Follows exempt (record.jsonMembers seen members current)
      (record.textMembers room steps first seen current) cursor next := by
  induction steps generalizing first cursor members seen current with
  | zero => exact (failNext_ne_ok read).elim
  | succ steps ih =>
      obtain ⟨key, middle, keyed, read⟩ := bind_eq_ok.mp read
      apply Follows.step keyed
      cases key with
      | none =>
          obtain ⟨rfl, rfl⟩ := pure_eq_ok.mp read
          unfold jsonMembers
          dsimp only
          cases record.missing? seen with
          | some name => exact .fails fun _ _ => refuse_ne_ok
          | none => exact .pure current
      | some key =>
          obtain ⟨_, behind, passed, read⟩ := bind_eq_ok.mp read
          obtain ⟨member, place, begun, read⟩ := bind_eq_ok.mp read
          obtain ⟨others, last, continued, read⟩ := bind_eq_ok.mp read
          obtain ⟨rfl, rfl⟩ := pure_eq_ok.mp read
          have begun := under_eq_ok.mp begun
          rw [List.forall_mem_cons] at agrees distinct unseen
          rw [List.map_cons, List.nodup_cons] at keys
          unfold jsonMembers
          dsimp only at agrees unseen ⊢
          cases known : record.field? key with
          | none =>
              dsimp only
              by_cases strict : record.strict = true
              · rw [if_pos strict, if_pos strict]
                exact .fails fun _ _ read => refuse_ne_ok (under_eq_ok.mp read)
              · rw [if_neg strict, if_neg strict]
                apply Follows.step passed
                apply Follows.step (under_eq_ok.mpr (skipValue_passes room _ _ _ begun))
                exact ih agrees.2 keys.2 distinct.2 seen unseen.2 current continued
          | some field =>
              dsimp only
              have new : ¬seen.contains key = true := by simpa using unseen.1
              rw [if_neg new]
              apply Follows.step passed
              have onField := agrees.1 field known distinct.1 room behind place begun
              apply (onField.under (.key key)).bind
              intro update _
              apply ih agrees.2 keys.2 distinct.2 (key :: seen) _ (update current) continued
              intro other isOther
              have isKey : other.1 ∈ others.map (·.1) := List.mem_map_of_mem isOther
              have different : other.1 ≠ key := by
                intro same
                exact keys.1 (same ▸ isKey)
              exact List.not_mem_cons_of_ne_of_not_mem different (unseen.2 other isOther)

/-- A list does not end where an element follows. -/
theorem finishList_of_element {index : Nat} {cursor middle stop : Cursor} {value : Unit}
    (decided : hasElement (index == 0) cursor = .ok true middle) :
    ¬finishList cursor = .ok value stop := by
  intro ended
  obtain ⟨arrives, c, head, notClosing⟩ := hasElement_eq_true decided
  obtain ⟨_, place, skipped, ended⟩ := bind_eq_ok.mp ended
  obtain ⟨found, isNext, ended⟩ := peek_eq_ok ended
  split at ended
  · next closing =>
    have isClosing : place.rest.head? = some ']' := by rw [isNext, beq_iff_eq.mp closing]
    unfold Arrives at arrives
    split at arrives
    · cases skipped.symm.trans arrives
      cases head.symm.trans isClosing
      exact notClosing rfl
    · obtain ⟨comma, _, skipped', isComma, _⟩ := arrives
      cases skipped.symm.trans skipped'
      cases isComma.symm.trans isClosing
  split at ended
  · obtain ⟨_, _, _, ended⟩ := bind_eq_ok.mp ended
    obtain ⟨_, _, _, ended⟩ := bind_eq_ok.mp ended
    obtain ⟨_, _, _, ended⟩ := bind_eq_ok.mp ended
    split at ended
    · exact failNext_ne_ok ended
    · exact failNext_ne_ok ended
  · exact failNext_ne_ok ended

theorem textElements_follow {room steps count index : Nat} {cursor middle next : Cursor}
    {fields : List (Field σ)} {items : List Json}
    (agrees : ∀ pair ∈ fields.zip items, pair.1.AgreesOn exempt pair.2)
    (distinct : ∀ item ∈ items, item.DistinctKeys) (current : σ)
    (read : elements (value room) steps index cursor = .ok items middle)
    (ended : finishList middle = .ok () next) :
    Follows exempt (record.jsonElements count index fields items current)
      (do
        let result ← record.textElements room index fields current
        finishList
        pure result) cursor next := by
  induction fields generalizing index cursor items steps current with
  | nil =>
      unfold textElements
      apply Follows.step (pure_eq_ok.mpr ⟨rfl, rfl⟩)
      obtain _ | steps := steps
      · exact (failNext_ne_ok read).elim
      obtain ⟨more, place, decided, read⟩ := bind_eq_ok.mp read
      cases more with
      | false =>
          obtain ⟨rfl, rfl⟩ := pure_eq_ok.mp read
          have skipped := (hasElement_eq_false decided).1
          apply Follows.step ((skipBlanks_bind_congr skipped _).trans ended)
          exact .pure current
      | true =>
          obtain ⟨item, _, _, read⟩ := bind_eq_ok.mp read
          obtain ⟨others, _, _, read⟩ := bind_eq_ok.mp read
          obtain ⟨rfl, rfl⟩ := pure_eq_ok.mp read
          refine .fails fun value stop read => ?_
          obtain ⟨_, _, finished, _⟩ := bind_eq_ok.mp read
          exact finishList_of_element decided finished
  | cons field rest ih =>
      unfold textElements
      obtain _ | steps := steps
      · exact (failNext_ne_ok read).elim
      obtain ⟨more, place, decided, read⟩ := bind_eq_ok.mp read
      rw [bind_assoc]
      apply Follows.step decided
      cases more with
      | false =>
          obtain ⟨rfl, rfl⟩ := pure_eq_ok.mp read
          have closing := (hasElement_eq_false decided).2
          rw [if_neg Bool.false_ne_true]
          unfold jsonElements
          by_cases required : field.required = true
          · rw [if_pos required, if_pos required]
            refine .fails fun value stop read => ?_
            obtain ⟨_, _, refused, _⟩ := bind_eq_ok.mp read
            exact refuse_ne_ok refused
          · rw [if_neg required, if_neg required]
            have noMore : elements (value room) 1 (index + 1) place = .ok [] place :=
              bind_of_ok (hasElement_of_closing closing _) _
            exact ih (fun _ isPair => by simp at isPair) distinct current noMore
      | true =>
          obtain ⟨item, behind, begun, read⟩ := bind_eq_ok.mp read
          obtain ⟨others, last, continued, read⟩ := bind_eq_ok.mp read
          obtain ⟨rfl, rfl⟩ := pure_eq_ok.mp read
          rw [List.zip_cons_cons, List.forall_mem_cons] at agrees
          rw [List.forall_mem_cons] at distinct
          rw [if_pos rfl, bind_assoc]
          have onItem := agrees.1 distinct.1 room place behind (under_eq_ok.mp begun)
          apply (onItem.under (.index index)).bind
          intro update _
          exact ih agrees.2 distinct.2 (update current) continued

/-- The readers of a record agree where those of its fields do. -/
theorem codec_agreesOn (names : record.names.Nodup)
    (agrees : ∀ part ∈ record.parts json, ∀ field, record.field? part.1 = some field →
      field.AgreesOn exempt part.2) :
    record.codec.AgreesOn exempt json := by
  intro distinct room cursor next read
  change Follows exempt (record.fromJson json) (record.fromText room) cursor next
  unfold fromText
  cases ValueRun.of_value read with
  | @object room _ middle behind _ members skipped head advanced listed =>
      obtain ⟨place, listed, ended⟩ := enclosed_eq_ok.mp listed
      rw [Json.distinctKeys_object] at distinct
      apply Follows.step skipped
      apply Follows.peek
      rw [head]
      apply Follows.descend advanced
      have inside := textMembers_follow agrees distinct.1 distinct.2 []
        (fun _ _ => List.not_mem_nil) record.blank listed
      exact Follows.ended inside ended
  | @list room _ middle behind _ items skipped head advanced listed =>
      obtain ⟨place, listed, ended⟩ := enclosed_eq_ok.mp listed
      rw [Json.distinctKeys_array] at distinct
      have onFields : ∀ pair ∈ record.fields.zip items, pair.1.AgreesOn exempt pair.2 := by
        intro pair isPair
        have isField := (List.of_mem_zip isPair).1
        exact agrees _ (mem_parts_of_zip isPair) pair.1 (field?_of_mem names isField)
      apply Follows.step skipped
      apply Follows.peek
      rw [head]
      apply Follows.descend advanced
      exact Follows.enclosed (textElements_follow onFields distinct record.blank listed ended)
  | @scalar _ _ middle _ c _ _ skipped head known read =>
      have refused : Follows exempt (record.fromJson json) (refuseValue record.title)
          middle next := by
        cases ScalarRun.of_scalar? known read with
        | _ => exact .fails fun _ _ => refuseValue_ne_ok
      apply Follows.step skipped
      apply Follows.peek
      rw [head]
      split
      · next opening =>
        cases opening
        cases known
      · next opening =>
        cases opening
        cases known
      · exact refused

/-- The readers of a record agree where those of its fields always do. -/
theorem codec_agreesOn_of_fields (names : record.names.Nodup)
    (agrees : ∀ field ∈ record.fields, ∀ part, field.AgreesOn exempt part) :
    record.codec.AgreesOn exempt json :=
  codec_agreesOn names fun part _ field isField =>
    agrees field (List.mem_of_find?_eq_some isField) part.2

end Record

namespace Variant

variable {α σ : Type} {exempt : Prop} {json body : Json}

/-- Over the text of the body, the reader of texts follows the reader of values. Even with
an exemption it reads just that text. -/
structure AgreesOn (exempt : Prop) (variant : Variant α) (body : Json) : Prop where
  follows : body.DistinctKeys → ∀ room cursor next, value room cursor = .ok body next →
    Follows exempt (variant.fromJson body) (variant.fromText room) cursor next
  stops : body.DistinctKeys → ∀ room cursor next, value room cursor = .ok body next →
    ∀ read stop, variant.fromText room cursor = .ok read stop → stop = next

theorem AgreesOn.mono {variant : Variant α} {wider : Prop}
    (agrees : variant.AgreesOn exempt body) (widens : exempt → wider) :
    variant.AgreesOn wider body :=
  ⟨fun distinct room cursor next read =>
    (agrees.follows distinct room cursor next read).mono widens, agrees.stops⟩

theorem name_of_select {variants : List (Variant α)} {name : String} {variant : Variant α}
    (selected : select variants name = .ok variant) : variant.name = name := by
  unfold select at selected
  split at selected
  · next found =>
    cases selected
    simpa using List.find?_some found
  · cases selected

/-- What may stand in the place of the body of a variant that has none. -/
def acceptNull (value : α) : Json → Except ReadCause α
  | .null => .ok value
  | json => .error (.wrongType (.ofJson json) "unit")

theorem plain_agreesOn (name : String) (value : α) :
    (plain name value).AgreesOn exempt body := by
  have agrees : (Codec.scalar (acceptNull value) fun _ => .null).AgreesOn False body :=
    Codec.scalar_agreesOn ⟨fun _ => ⟨_, rfl⟩, fun _ => ⟨_, rfl⟩⟩ _
  constructor
  · intro distinct room cursor next read
    exact (agrees distinct room cursor next read).mono False.elim
  · intro distinct room cursor next read _ stop accepted
    exact (agrees distinct room cursor next read).stops accepted

/-- The body may be a list in a text only. -/
theorem withBody_agreesOn {record : Record σ} (agrees : record.codec.AgreesOn False body)
    (name : String) (make : σ → α) :
    (withBody name record make).AgreesOn (∃ items, body = .array items) body := by
  have mapped (distinct : body.DistinctKeys) (room : Nat) (cursor next : Cursor)
      (read : Reading.value room cursor = .ok body next) :=
    (agrees distinct room cursor next read).map make
  constructor
  · intro distinct room cursor next read
    have follows := mapped distinct room cursor next read
    cases body with
    | object members => exact follows.mono False.elim
    | array items => exact .inl ⟨items, rfl⟩
    | _ => exact .inr (follows.resolve_left id)
  · intro distinct room cursor next read _ stop accepted
    exact (mapped distinct room cursor next read).stops accepted

theorem scalarValue_of_string {cursor quote next : Cursor} {text : String}
    (skipped : skipBlanks cursor = .ok () quote) (isQuote : quote.rest.head? = some '"')
    (spelled : string quote = .ok text next) (accept : Json → Except ReadCause α) :
    scalarValue accept cursor = settle (accept (.string text)) next := by
  unfold scalarValue
  rw [bind_of_ok skipped, peek_bind, isQuote]
  exact bind_of_ok (map_eq_ok.mpr ⟨text, spelled, rfl⟩) _

/-- Behind a member an object ends, or it goes on with a comma. -/
theorem object_continues {room steps : Nat} {cursor next : Cursor}
    {members : List (String × Json)}
    (read : Reading.members (value room) steps false cursor = .ok members next) :
    (members = [] ∧ skipBlanks cursor = .ok () next ∧ next.rest.head? = some '\x7d') ∨
      (members ≠ [] ∧ ∃ comma, skipBlanks cursor = .ok () comma ∧
        comma.rest.head? = some ',') := by
  obtain _ | steps := steps
  · exact (failNext_ne_ok read).elim
  obtain ⟨key, middle, keyed, read⟩ := bind_eq_ok.mp read
  cases key with
  | none =>
      obtain ⟨rfl, rfl⟩ := pure_eq_ok.mp read
      exact .inl ⟨rfl, hasMember_eq_false (nextKey_eq_none.mp keyed)⟩
  | some key =>
      obtain ⟨_, _, _, read⟩ := bind_eq_ok.mp read
      obtain ⟨_, _, _, read⟩ := bind_eq_ok.mp read
      obtain ⟨_, _, _, read⟩ := bind_eq_ok.mp read
      obtain ⟨rfl, rfl⟩ := pure_eq_ok.mp read
      obtain ⟨_, decided, _⟩ := nextKey_eq_some.mp keyed
      obtain ⟨comma, _, skipped, isComma, _⟩ := (hasMember_eq_true decided).1
      exact .inr ⟨List.cons_ne_nil _ _, comma, skipped, isComma⟩

/-- How a choice is read from a text behind the name that opens its object. -/
def bodyFromText (variants : List (Variant α)) (room : Nat) (name : String) : Reading α := do
  let variant ← settle (select variants name)
  colon
  let value ← under (.key name) (variant.fromText room)
  skipBlanks
  match ← peek with
  | some '\x7d' =>
      advance
      pure value
  | some _ => failHere .expectedValue
  | none => failHere .endInObject

section Body

variable {variants : List (Variant α)} {room : Nat} {name : String}
  {cursor behind place next : Cursor}

/-- The single member of an object. -/
theorem bodyFromText_follows (distinct : body.DistinctKeys)
    (passed : colon cursor = .ok () behind) (begun : value room behind = .ok body place)
    {closing : Cursor} (skipped : skipBlanks place = .ok () closing)
    (closes : closing.rest.head? = some '\x7d') (ended : finishObject closing = .ok () next)
    (agrees : ∀ variant, select variants name = .ok variant →
      variant.AgreesOn exempt body) :
    Follows exempt (choiceFromJson variants (.object [(name, body)]))
      (bodyFromText variants room name) cursor next := by
  apply (Follows.settle (select variants name)).bind
  intro variant selected
  have onBody := (agrees variant (except_mapError_eq_ok.mp selected)).follows distinct room behind
    place begun
  apply Follows.step passed
  apply (onBody.under (.key name)).before
  intro value
  rw [bind_of_ok skipped, peek_bind, closes]
  exact bind_of_ok (finishObject_of_closing closes ended) _

/-- A member with others behind it. -/
theorem bodyFromText_fails (distinct : body.DistinctKeys)
    (passed : colon cursor = .ok () behind) (begun : value room behind = .ok body place)
    {comma : Cursor} (skipped : skipBlanks place = .ok () comma)
    (isComma : comma.rest.head? = some ',')
    (agrees : ∀ variant, select variants name = .ok variant →
      variant.AgreesOn exempt body) (result : α) :
    bodyFromText variants room name cursor ≠ .ok result next := by
  intro read
  obtain ⟨variant, _, settled, read⟩ := bind_eq_ok.mp read
  obtain ⟨selected, rfl⟩ := settle_eq_ok.mp settled
  obtain ⟨_, _, passed', read⟩ := bind_eq_ok.mp read
  cases passed.symm.trans passed'
  obtain ⟨known, stop, accepted, read⟩ := bind_eq_ok.mp read
  cases (agrees variant selected).stops distinct room behind place begun known stop
    (under_eq_ok.mp accepted)
  rw [bind_of_ok skipped, peek_bind, isComma] at read
  exact failHere_ne_ok read

end Body

/-- The readers of a choice agree where those of the chosen variant do. An exemption
counts only for the body of a single member. -/
theorem codec_agreesOn {variants : List (Variant α)} (toJson : α → Json)
    (agrees : ∀ name body rest, json = .object ((name, body) :: rest) →
      ∀ variant, select variants name = .ok variant →
        variant.AgreesOn (rest = [] → exempt) body) :
    (codec variants toJson).AgreesOn exempt json := by
  intro distinct room cursor next read
  change Follows exempt (choiceFromJson variants json) (choiceFromText variants room) cursor
    next
  unfold choiceFromText
  cases ValueRun.of_value read with
  | @object room _ middle behindOpening _ members skipped head advanced listed =>
      obtain ⟨place, listed, ended⟩ := enclosed_eq_ok.mp listed
      apply Follows.step skipped
      apply Follows.peek
      rw [head]
      apply Follows.descend advanced
      obtain ⟨_, _, ⟨⟩, listed⟩ := bind_eq_ok.mp listed
      obtain ⟨key, middle, keyed, listed⟩ := bind_eq_ok.mp listed
      cases key with
      | none =>
          obtain ⟨rfl, rfl⟩ := pure_eq_ok.mp listed
          obtain ⟨skipped, closing⟩ := hasMember_eq_false (nextKey_eq_none.mp keyed)
          refine .fails fun _ _ read => ?_
          obtain ⟨_, _, named, _⟩ := bind_eq_ok.mp read
          obtain ⟨_, place, skipped', named⟩ := bind_eq_ok.mp named
          cases skipped.symm.trans skipped'
          rw [peek_bind, closing] at named
          exact failNext_ne_ok named
      | some name =>
          obtain ⟨_, behind, passed, listed⟩ := bind_eq_ok.mp listed
          obtain ⟨body, place, begun, listed⟩ := bind_eq_ok.mp listed
          obtain ⟨rest, last, continued, listed⟩ := bind_eq_ok.mp listed
          obtain ⟨rfl, rfl⟩ := pure_eq_ok.mp listed
          obtain ⟨quote, decided, spelled⟩ := nextKey_eq_some.mp keyed
          obtain ⟨skipped, isQuote⟩ := hasMember_eq_true decided
          have begun := under_eq_ok.mp begun
          rw [Json.distinctKeys_object, List.forall_mem_cons] at distinct
          apply Follows.step (scalarValue_of_string skipped isQuote spelled _)
          have onBody := agrees name body rest rfl
          rcases object_continues continued with
            ⟨rfl, skipped, closes⟩ | ⟨isMore, comma, skipped, isComma⟩
          · exact bodyFromText_follows distinct.2.1 passed begun skipped closes ended
              fun variant selected =>
                (onBody variant selected).mono fun exempts => exempts rfl
          · obtain ⟨second, others, rfl⟩ := List.exists_cons_of_ne_nil isMore
            exact .fails fun value stop =>
              bodyFromText_fails distinct.2.1 passed begun skipped isComma onBody value
  | list skipped head advanced listed =>
      apply Follows.step skipped
      apply Follows.peek
      rw [head]
      exact .fails fun _ _ => failNext_ne_ok
  | @scalar _ _ middle _ c _ _ skipped head known read =>
      apply Follows.step skipped
      apply Follows.peek
      rw [head]
      cases ScalarRun.of_scalar? known read with
      | @string _ name spelled =>
          apply Follows.step spelled
          apply (Follows.settle (select variants name)).bind
          intro variant _
          exact (Follows.orRefuse variant.bareValue).under (.key name)
      | number isNumber =>
          split
          · next absent => cases absent
          · next quote =>
            cases quote
            cases isNumber
          · next opening =>
            cases opening
            cases isNumber
          · exact .fails fun _ _ => failNext_ne_ok
      | _ => exact .fails fun _ _ => failNext_ne_ok

end Variant

end BuildScribe

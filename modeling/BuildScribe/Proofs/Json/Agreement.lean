import BuildScribe.Json.Codec
import BuildScribe.Proofs.Json.Distinct
import BuildScribe.Proofs.Json.Forms
import BuildScribe.Proofs.Json.Passing
import BuildScribe.Proofs.Traversal

/-!
# The two readers of a codec

The reader of texts follows the reader of values over the text of a value: what one reads
the other reads, and it reads just that text. There is one exemption, the body of a variant:
a text may give it as a list. Forms pass an exemption of their parts on.
-/

namespace BuildScribe

namespace Reading

variable {α β : Type}

theorem settle_eq_ok {result : Except ReadCause α} {value : α} {cursor next : Cursor} :
    settle result cursor = .ok value next ↔ result = .ok value ∧ cursor = next := by
  cases result with
  | ok known => simp [settle]
  | error cause => simp [settle]

/-- Over the text between the cursors the reading yields what the result holds. If the
result is a fault the reading fails, unless there is an exemption. -/
def Follows (exempt : Prop) (result : Except ReadFault α) (reading : Reading α)
    (cursor next : Cursor) : Prop :=
  match result with
  | .ok value => reading cursor = .ok value next
  | .error _ => exempt ∨ ∀ value stop, ¬reading cursor = .ok value stop

namespace Follows

variable {exempt : Prop} {cursor middle next : Cursor}

theorem fails {fault : ReadFault} {reading : Reading α}
    (refuses : ∀ value stop, ¬reading cursor = .ok value stop) :
    Follows exempt (.error fault) reading cursor next :=
  .inr refuses

theorem mono {wider : Prop} {result : Except ReadFault α} {reading : Reading α}
    (follows : Follows exempt result reading cursor next) (widens : exempt → wider) :
    Follows wider result reading cursor next := by
  cases result with
  | ok value => exact follows
  | error fault => exact follows.imp_left widens

/-- What is read without an exemption ends where the text ends. -/
theorem stops {result : Except ReadFault α} {reading : Reading α}
    (follows : Follows False result reading cursor next) {value : α} {stop : Cursor}
    (read : reading cursor = .ok value stop) : stop = next := by
  cases result with
  | ok known =>
      cases read.symm.trans follows
      rfl
  | error fault => exact (follows.resolve_left id value stop read).elim

theorem bind {first : Reading α} {second : α → Reading β} {begun : Except ReadFault α}
    {ended : α → Except ReadFault β} (onFirst : Follows exempt begun first cursor middle)
    (onSecond : ∀ value, begun = .ok value →
      Follows exempt (ended value) (second value) middle next) :
    Follows exempt (begun >>= ended) (first >>= second) cursor next := by
  cases begun with
  | ok value =>
      have read : first cursor = .ok value middle := onFirst
      have follows := onSecond value rfl
      unfold Follows at follows ⊢
      rw [bind_of_ok read]
      exact follows
  | error fault =>
      refine onFirst.imp_right fun refuses value stop read => ?_
      obtain ⟨known, place, begun, _⟩ := bind_eq_ok.mp read
      exact refuses known place begun

/-- The reading first passes something that the value does not show. -/
theorem step {first : Reading α} {second : α → Reading β} {result : Except ReadFault β}
    {value : α} (begun : first cursor = .ok value middle)
    (onSecond : Follows exempt result (second value) middle next) :
    Follows exempt result (first >>= second) cursor next := by
  unfold Follows at onSecond ⊢
  rw [bind_of_ok begun]
  exact onSecond

theorem peek {second : Option Char → Reading β} {result : Except ReadFault β}
    (onSecond : Follows exempt result (second cursor.rest.head?) cursor next) :
    Follows exempt result (Reading.peek >>= second) cursor next :=
  onSecond

theorem map {reading : Reading α} {result : Except ReadFault α}
    (onReading : Follows exempt result reading cursor next) (change : α → β) :
    Follows exempt (change <$> result) (change <$> reading) cursor next := by
  cases result with
  | ok value => exact map_eq_ok.mpr ⟨value, onReading, rfl⟩
  | error fault =>
      refine onReading.imp_right fun refuses value stop read => ?_
      obtain ⟨known, read, _⟩ := map_eq_ok.mp read
      exact refuses known stop read

theorem under {part : Reading α} {result : Except ReadFault α}
    (onPart : Follows exempt result part cursor next) (step : PathStep) :
    Follows exempt (underStep step result) (Reading.under step part) cursor next := by
  cases result with
  | ok value => exact under_eq_ok.mpr onPart
  | error fault =>
      exact onPart.imp_right fun refuses value stop read =>
        refuses value stop (under_eq_ok.mp read)

theorem pure (value : α) :
    Follows exempt (.ok value) (Pure.pure value : Reading α) cursor cursor := rfl

theorem settle (result : Except ReadCause α) :
    Follows exempt (result.mapError .of) (Reading.settle result) cursor cursor := by
  cases result with
  | ok value => exact pure value
  | error cause => exact fails fun _ _ => refuseHere_ne_ok

theorem orRefuse (result : Except ReadCause α) :
    Follows exempt (result.mapError .of) (Variant.orRefuse result) cursor cursor := by
  cases result with
  | ok value => exact pure value
  | error cause => exact fails fun _ _ => refuse_ne_ok

theorem descend {room : Nat} {inside : Nat → Reading α} {result : Except ReadFault α}
    (advanced : advance cursor = .ok () middle)
    (onInside : Follows exempt result (inside room) middle next) :
    Follows exempt result (Reading.descend (room + 1) inside) cursor next :=
  step advanced onInside

/-- The reading passes its end when it has the value. -/
theorem before {first : Reading α} {second : α → Reading α} {result : Except ReadFault α}
    (onFirst : Follows exempt result first cursor middle)
    (ends : ∀ value, second value middle = .ok value next) :
    Follows exempt result (first >>= second) cursor next := by
  cases result with
  | ok value => exact bind_eq_ok.mpr ⟨value, middle, onFirst, ends value⟩
  | error fault =>
      refine onFirst.imp_right fun refuses value stop read => ?_
      obtain ⟨known, place, begun, _⟩ := bind_eq_ok.mp read
      exact refuses known place begun

theorem ended {inside : Reading α} {finish : Reading Unit} {result : Except ReadFault α}
    (onInside : Follows exempt result inside cursor middle)
    (ended : finish middle = .ok () next) :
    Follows exempt result (Reading.enclosed inside finish) cursor next := by
  cases result with
  | ok value => exact enclosed_eq_ok.mpr ⟨middle, onInside, ended⟩
  | error fault =>
      refine onInside.imp_right fun refuses value stop read => ?_
      obtain ⟨place, begun, _⟩ := enclosed_eq_ok.mp read
      exact refuses value place begun

/-- A container is followed by its inside together with its end. -/
theorem enclosed {inside : Reading α} {finish : Reading Unit} {result : Except ReadFault α}
    (onInside : Follows exempt result
      (do
        let value ← inside
        finish
        Pure.pure value) cursor next) :
    Follows exempt result (Reading.enclosed inside finish) cursor next := by
  have sequel {value : α} {stop : Cursor} :
      (do
        let value ← inside
        finish
        Pure.pure value : Reading α) cursor = .ok value stop ↔
        Reading.enclosed inside finish cursor = .ok value stop := by
    rw [enclosed_eq_ok]
    constructor
    · intro read
      obtain ⟨known, place, begun, read⟩ := bind_eq_ok.mp read
      obtain ⟨_, last, ended, read⟩ := bind_eq_ok.mp read
      obtain ⟨rfl, rfl⟩ := pure_eq_ok.mp read
      exact ⟨place, begun, ended⟩
    · rintro ⟨place, begun, ended⟩
      rw [bind_of_ok begun, bind_of_ok ended]
      rfl
  cases result with
  | ok value => exact sequel.mp onInside
  | error fault =>
      exact onInside.imp_right fun refuses value stop read =>
        refuses value stop (sequel.mpr read)

end Follows

end Reading

open Reading

/-- Over the text of the value, the reader of texts follows the reader of values. -/
def Codec.AgreesOn {α : Type} (exempt : Prop) (codec : Codec α) (json : Json) : Prop :=
  json.DistinctKeys → ∀ room cursor next, value room cursor = .ok json next →
    Follows exempt (codec.fromJson json) (codec.fromText room) cursor next

def Field.AgreesOn {σ : Type} (exempt : Prop) (field : Field σ) (json : Json) : Prop :=
  json.DistinctKeys → ∀ room cursor next, value room cursor = .ok json next →
    Follows exempt (field.fromJson json) (field.fromText room) cursor next

theorem Field.of_agreesOn {α σ : Type} {exempt : Prop} {codec : Codec α} {json : Json}
    (agrees : codec.AgreesOn exempt json) (name : String) (required : Bool) (get : σ → α)
    (set : α → σ → σ) : (Field.of name required codec get set).AgreesOn exempt json :=
  fun distinct room cursor next read => (agrees distinct room cursor next read).map set

namespace Codec

variable {α : Type} {exempt : Prop} {json : Json}

theorem AgreesOn.mono {codec : Codec α} {wider : Prop} (agrees : codec.AgreesOn exempt json)
    (widens : exempt → wider) : codec.AgreesOn wider json :=
  fun distinct room cursor next read => (agrees distinct room cursor next read).mono widens

theorem scalarValue_follows {accept : Json → Except ReadCause α}
    (refuses : RefusesContainers accept) {room : Nat} {cursor next : Cursor}
    (read : value room cursor = .ok json next) :
    Follows exempt ((accept json).mapError .of) (scalarValue accept) cursor next := by
  cases ValueRun.of_value read with
  | scalar skipped head known read =>
      apply Follows.step skipped
      apply Follows.peek
      rw [head]
      simp only [known]
      exact .step read (.settle (accept json))
  | @list _ _ _ _ _ items skipped head _ _ =>
      have noScalar : scalar? '[' = none := rfl
      obtain ⟨cause, refused⟩ := refuses.1 items
      obtain ⟨judged, refusedEmpty⟩ := refuses.1 []
      rw [refused]
      apply Follows.step skipped
      apply Follows.peek
      rw [head]
      simp only [noScalar, beq_self_eq_true, if_true, refusedEmpty]
      exact .fails fun _ _ => refuseHere_ne_ok
  | @object _ _ _ _ _ members skipped head _ _ =>
      have noScalar : scalar? '\x7b' = none := rfl
      have notList : ('\x7b' == '[') = false := rfl
      obtain ⟨cause, refused⟩ := refuses.2 members
      obtain ⟨judged, refusedEmpty⟩ := refuses.2 []
      rw [refused]
      apply Follows.step skipped
      apply Follows.peek
      rw [head]
      simp only [noScalar, notList, beq_self_eq_true, if_true, refusedEmpty]
      exact .fails fun _ _ => refuseHere_ne_ok

theorem scalar_agreesOn {accept : Json → Except ReadCause α}
    (refuses : RefusesContainers accept) (toJson : α → Json) :
    (scalar accept toJson).AgreesOn exempt json :=
  fun _ _ _ _ read => scalarValue_follows refuses read

theorem text_agreesOn : text.AgreesOn exempt json :=
  scalar_agreesOn ⟨fun _ => ⟨_, rfl⟩, fun _ => ⟨_, rfl⟩⟩ _

theorem flag_agreesOn : flag.AgreesOn exempt json :=
  scalar_agreesOn ⟨fun _ => ⟨_, rfl⟩, fun _ => ⟨_, rfl⟩⟩ _

theorem oneOf_agreesOn (name : String) (select : Json → Option α) (toJson : α → Json) :
    (oneOf name select toJson).AgreesOn exempt json := by
  intro _ room cursor next read
  apply Follows.step read
  unfold oneOf
  dsimp only
  cases select json with
  | some chosen => exact .pure chosen
  | none => exact .fails fun _ _ => refuse_ne_ok

theorem optional_agreesOn {codec : Codec α} (agrees : codec.AgreesOn exempt json) :
    codec.optional.AgreesOn exempt json := by
  intro distinct room cursor next read
  have present {middle : Cursor} {c : Char} (skipped : skipBlanks cursor = .ok () middle)
      (head : middle.rest.head? = some c) (notN : c ≠ 'n') (notNull : json ≠ .null) :
      Follows exempt (codec.optional.fromJson json) (codec.optional.fromText room) cursor
        next := by
    have someJson : codec.optional.fromJson json = some <$> codec.fromJson json := by
      cases json <;> first | rfl | exact (notNull rfl).elim
    rw [value_congr skipped] at read
    rw [someJson]
    apply Follows.step skipped
    apply Follows.peek
    rw [head, if_neg (by simpa using notN)]
    exact (agrees distinct room middle next read).map some
  cases ValueRun.of_value read with
  | scalar skipped head known read =>
      cases ScalarRun.of_scalar? known read with
      | null spelled =>
          apply Follows.step skipped
          apply Follows.peek
          rw [head]
          exact .step spelled (.pure none)
      | true => exact present skipped head (by decide) (by simp)
      | false => exact present skipped head (by decide) (by simp)
      | number isNumber =>
          refine present skipped head ?_ (by simp)
          rintro rfl
          cases isNumber
      | string spelled => exact present skipped head (by decide) (by simp)
  | list skipped head advanced listed => exact present skipped head (by decide) (by simp)
  | object skipped head advanced listed => exact present skipped head (by decide) (by simp)

/-- The elements of a list are followed one by one. -/
theorem elements_follow {codec : Codec α} {room steps index : Nat} {cursor next : Cursor}
    {items : List Json} (agrees : ∀ item ∈ items, codec.AgreesOn exempt item)
    (distinct : ∀ item ∈ items, item.DistinctKeys)
    (read : elements (value room) steps index cursor = .ok items next) :
    Follows exempt (codec.itemsFromJson index items)
      (elements (codec.fromText room) steps index) cursor next := by
  induction steps generalizing index cursor items with
  | zero => exact (failNext_ne_ok read).elim
  | succ steps ih =>
      obtain ⟨more, middle, decided, read⟩ := bind_eq_ok.mp read
      apply Follows.step decided
      cases more with
      | false =>
          obtain ⟨rfl, rfl⟩ := pure_eq_ok.mp read
          exact .pure []
      | true =>
          obtain ⟨item, place, begun, read⟩ := bind_eq_ok.mp read
          obtain ⟨others, last, continued, read⟩ := bind_eq_ok.mp read
          obtain ⟨rfl, rfl⟩ := pure_eq_ok.mp read
          rw [List.forall_mem_cons] at agrees distinct
          have onItem := agrees.1 distinct.1 room middle place (under_eq_ok.mp begun)
          apply (onItem.under (.index index)).bind
          intro known _
          apply (ih agrees.2 distinct.2 continued).bind
          intro values _
          exact .pure (known :: values)

theorem list_agreesOn {codec : Codec α}
    (agrees : ∀ items, json = .array items → ∀ item ∈ items, codec.AgreesOn exempt item) :
    codec.list.AgreesOn exempt json := by
  intro distinct room cursor next read
  have refused {middle : Cursor} {c : Char} {fault : ReadFault}
      (skipped : skipBlanks cursor = .ok () middle) (head : middle.rest.head? = some c)
      (notOpening : c ≠ '[') (judged : codec.list.fromJson json = .error fault) :
      Follows exempt (codec.list.fromJson json) (codec.list.fromText room) cursor next := by
    rw [judged]
    apply Follows.step skipped
    apply Follows.peek
    rw [head, if_neg (by simpa using notOpening)]
    exact .fails fun _ _ => refuseValue_ne_ok
  cases ValueRun.of_value read with
  | @list room _ middle behind _ items skipped head advanced listed =>
      obtain ⟨place, listed, ended⟩ := enclosed_eq_ok.mp listed
      rw [Json.distinctKeys_array] at distinct
      apply Follows.step skipped
      apply Follows.peek
      rw [head, if_pos (beq_self_eq_true _)]
      apply Follows.descend advanced
      exact Follows.ended (elements_follow (agrees items rfl) distinct listed) ended
  | @scalar _ _ _ _ c _ _ skipped head known read =>
      have notOpening : c ≠ '[' := by
        rintro rfl
        cases known
      cases ScalarRun.of_scalar? known read with
      | _ => exact refused skipped head notOpening rfl
  | object skipped head advanced listed => exact refused skipped head (by decide) rfl

theorem members_follow {codec : Codec α} {room steps : Nat} {first : Bool}
    {cursor next : Cursor} {members : List (String × Json)}
    (agrees : ∀ member ∈ members, codec.AgreesOn exempt member.2)
    (distinct : ∀ member ∈ members, member.2.DistinctKeys)
    (read : Reading.members (value room) steps first cursor = .ok members next) :
    Follows exempt (codec.membersFromJson members)
      (Reading.members (codec.fromText room) steps first) cursor next := by
  induction steps generalizing first cursor members with
  | zero => exact (failNext_ne_ok read).elim
  | succ steps ih =>
      obtain ⟨key, middle, keyed, read⟩ := bind_eq_ok.mp read
      apply Follows.step keyed
      cases key with
      | none =>
          obtain ⟨rfl, rfl⟩ := pure_eq_ok.mp read
          exact .pure []
      | some key =>
          obtain ⟨_, behind, passed, read⟩ := bind_eq_ok.mp read
          obtain ⟨member, place, begun, read⟩ := bind_eq_ok.mp read
          obtain ⟨others, last, continued, read⟩ := bind_eq_ok.mp read
          obtain ⟨rfl, rfl⟩ := pure_eq_ok.mp read
          rw [List.forall_mem_cons] at agrees distinct
          have onMember := agrees.1 distinct.1 room behind place (under_eq_ok.mp begun)
          apply Follows.step passed
          apply (onMember.under (.key key)).bind
          intro known _
          apply (ih agrees.2 distinct.2 continued).bind
          intro values _
          exact .pure ((key, known) :: values)

theorem dictionary_agreesOn {codec : Codec α}
    (agrees : ∀ members, json = .object members →
      ∀ member ∈ members, codec.AgreesOn exempt member.2) :
    codec.dictionary.AgreesOn exempt json := by
  intro distinct room cursor next read
  have refused {middle : Cursor} {c : Char} {fault : ReadFault}
      (skipped : skipBlanks cursor = .ok () middle) (head : middle.rest.head? = some c)
      (notOpening : c ≠ '\x7b') (judged : codec.dictionary.fromJson json = .error fault) :
      Follows exempt (codec.dictionary.fromJson json) (codec.dictionary.fromText room) cursor
        next := by
    rw [judged]
    apply Follows.step skipped
    apply Follows.peek
    rw [head, if_neg (by simpa using notOpening)]
    exact .fails fun _ _ => refuseValue_ne_ok
  cases ValueRun.of_value read with
  | @object room _ middle behind _ members skipped head advanced listed =>
      obtain ⟨place, listed, ended⟩ := enclosed_eq_ok.mp listed
      rw [Json.distinctKeys_object] at distinct
      apply Follows.step skipped
      apply Follows.peek
      rw [head, if_pos (beq_self_eq_true _)]
      apply Follows.descend advanced
      have inside := members_follow (agrees members rfl) distinct.2 listed
      exact (Follows.ended inside ended).map OrderedMap.ofList
  | @scalar _ _ _ _ c _ _ skipped head known read =>
      have notOpening : c ≠ '\x7b' := by
        rintro rfl
        cases known
      cases ScalarRun.of_scalar? known read with
      | _ => exact refused skipped head notOpening rfl
  | list skipped head advanced listed => exact refused skipped head (by decide) rfl

end Codec

end BuildScribe

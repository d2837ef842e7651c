import BuildScribe.Json.Skip
import BuildScribe.Proofs.Traversal

/-!
# Readings that yield a value

What a reading that yields a value has done, one equation for each combinator. A reading
that fails yields nothing.
-/

namespace BuildScribe.Reading

variable {α β : Type} {cursor next : Cursor}

@[simp] theorem pure_eq_ok {value yielded : α} :
    (pure value : Reading α) cursor = .ok yielded next ↔
      value = yielded ∧ cursor = next := by
  constructor
  · intro equality
    cases equality
    exact ⟨rfl, rfl⟩
  · rintro ⟨rfl, rfl⟩
    rfl

theorem bind_of_ok {first : Reading α} {value : α} (begun : first cursor = .ok value next)
    (second : α → Reading β) : (first >>= second) cursor = second value next :=
  stateful_bind_of_ok begun second

theorem bind_of_error {first : Reading α} {fault : ReadFault}
    (refused : first cursor = .error fault next) (second : α → Reading β) :
    (first >>= second) cursor = .error fault next :=
  stateful_bind_of_error refused second

theorem bind_eq_ok {first : Reading α} {second : α → Reading β} {result : β} :
    (first >>= second) cursor = .ok result next ↔
      ∃ value middle, first cursor = .ok value middle ∧
        second value middle = .ok result next := by
  constructor
  · intro equality
    cases begun : first cursor with
    | ok value middle =>
        rw [bind_of_ok begun] at equality
        exact ⟨value, middle, rfl, equality⟩
    | error fault middle =>
        rw [bind_of_error begun] at equality
        cases equality
  · rintro ⟨value, middle, begun, ended⟩
    rw [bind_of_ok begun, ended]

theorem map_eq_ok {change : α → β} {reading : Reading α} {result : β} :
    (change <$> reading) cursor = .ok result next ↔
      ∃ value, reading cursor = .ok value next ∧ change value = result := by
  rw [← bind_pure_comp, bind_eq_ok]
  constructor
  · rintro ⟨value, middle, read, changed⟩
    obtain ⟨rfl, rfl⟩ := pure_eq_ok.mp changed
    exact ⟨value, read, rfl⟩
  · rintro ⟨value, read, rfl⟩
    exact ⟨value, next, read, rfl⟩

theorem under_eq_ok {step : PathStep} {part : Reading α} {value : α} :
    under step part cursor = .ok value next ↔ part cursor = .ok value next := by
  unfold under
  cases part cursor <;> simp

theorem enclosed_eq_ok {inside : Reading α} {finish : Reading Unit} {value : α} :
    enclosed inside finish cursor = .ok value next ↔
      ∃ middle, inside cursor = .ok value middle ∧ finish middle = .ok () next := by
  constructor
  · intro equality
    unfold enclosed at equality
    cases begun : inside cursor with
    | ok read middle =>
        rw [begun] at equality
        dsimp only at equality
        cases ended : finish middle with
        | ok done last =>
            rw [ended] at equality
            cases equality
            exact ⟨middle, rfl, ended⟩
        | error fault last =>
            rw [ended] at equality
            cases equality
    | error fault middle =>
        rw [begun] at equality
        cases equality
  · rintro ⟨middle, begun, ended⟩
    unfold enclosed
    rw [begun]
    dsimp only
    rw [ended]

@[simp] theorem failAfter_ne_ok {bytes : Nat} {fault : TextFault} {value : α} :
    ¬failAfter bytes fault cursor = .ok value next := by
  intro equality
  cases equality

@[simp] theorem failHere_ne_ok {fault : TextFault} {value : α} :
    ¬failHere fault cursor = .ok value next := by
  intro equality
  cases equality

@[simp] theorem failNext_ne_ok {fault : TextFault} {value : α} :
    ¬failNext fault cursor = .ok value next := by
  intro equality
  cases equality

@[simp] theorem refuse_ne_ok {cause : ReadCause} {value : α} :
    ¬refuse cause cursor = .ok value next := by
  intro equality
  cases equality

@[simp] theorem refuseHere_ne_ok {cause : ReadCause} {value : α} :
    ¬refuseHere cause cursor = .ok value next := by
  intro equality
  cases equality

theorem peek_bind (second : Option Char → Reading β) (cursor : Cursor) :
    (peek >>= second) cursor = second cursor.rest.head? cursor := rfl

/-- A reading that goes on only before a character. -/
theorem peek_eq_ok {fault : TextFault} {second : Char → Reading β} {result : β}
    (read : (do
      match ← peek with
      | none => failNext fault
      | some c => second c) cursor = .ok result next) :
    ∃ c, cursor.rest.head? = some c ∧ second c cursor = .ok result next := by
  rw [peek_bind] at read
  cases head : cursor.rest.head? with
  | none =>
      rw [head] at read
      exact (failNext_ne_ok read).elim
  | some c =>
      rw [head] at read
      exact ⟨c, rfl, read⟩

theorem takeAscii_append {test : Char → Bool} {taken behind : List Char}
    (passes : ∀ c ∈ taken, test c = true) (stops : ∀ c ∈ behind.head?, test c = false)
    (offset : Nat) :
    takeAscii test ⟨taken ++ behind, offset⟩ = .ok taken ⟨behind, offset + taken.length⟩ := by
  have none : behind.takeWhile test = [] ∧ behind.dropWhile test = behind := by
    cases behind with
    | nil => exact ⟨rfl, rfl⟩
    | cons c rest => simp [stops c rfl]
  unfold takeAscii
  simp [List.takeWhile_append_of_pos passes, List.dropWhile_append_of_pos passes, none]

theorem passes_takeWhile (test : Char → Bool) (text : List Char) :
    ∀ c ∈ text.takeWhile test, test c = true :=
  List.all_eq_true.mp List.all_takeWhile

theorem stops_dropWhile (test : Char → Bool) (text : List Char) :
    ∀ c ∈ (text.dropWhile test).head?, test c = false := by
  intro c isNext
  have stop := List.head?_dropWhile_not test text
  rw [Option.mem_def.mp isNext] at stop
  simpa using stop

theorem skipBlanks_of_stops (stops : ∀ c ∈ cursor.rest.head?, isJsonBlank c = false) :
    skipBlanks cursor = .ok () cursor := by
  have nothing : ∀ c ∈ ([] : List Char), isJsonBlank c = true := by simp
  exact bind_of_ok (takeAscii_append nothing stops cursor.offset) _

theorem length_of_skipBlanks (skipped : skipBlanks cursor = .ok () next) :
    next.rest.length ≤ cursor.rest.length := by
  cases skipped
  exact (List.dropWhile_sublist _).length_le

theorem skipBlanks_of_skipBlanks (skipped : skipBlanks cursor = .ok () next) :
    skipBlanks next = .ok () next := by
  cases skipped
  exact skipBlanks_of_stops (stops_dropWhile isJsonBlank cursor.rest)

/-- Blanks before a reading that skips them make no difference. -/
theorem skipBlanks_bind_congr (skipped : skipBlanks cursor = .ok () next)
    (second : Unit → Reading β) :
    (skipBlanks >>= second) cursor = (skipBlanks >>= second) next := by
  rw [bind_of_ok skipped, bind_of_ok (skipBlanks_of_skipBlanks skipped)]

theorem length_of_advance {c : Char} (head : cursor.rest.head? = some c)
    (advanced : advance cursor = .ok () next) :
    next.rest.length + 1 = cursor.rest.length := by
  obtain ⟨_ | ⟨_, rest⟩, offset⟩ := cursor
  · cases head
  cases advanced
  rfl

/-- How a reading comes to the next element or member: over the blanks before it and,
unless it is the first one, over a comma. -/
def Arrives (first : Bool) (cursor next : Cursor) : Prop :=
  if first then
    skipBlanks cursor = .ok () next
  else
    ∃ comma behind, skipBlanks cursor = .ok () comma ∧ comma.rest.head? = some ',' ∧
      advance comma = .ok () behind ∧ skipBlanks behind = .ok () next

theorem hasElement_eq_true {first : Bool} (read : hasElement first cursor = .ok true next) :
    Arrives first cursor next ∧ ∃ c, next.rest.head? = some c ∧ c ≠ ']' := by
  obtain ⟨_, blanks, skipped, read⟩ := bind_eq_ok.mp read
  obtain ⟨c, head, read⟩ := peek_eq_ok read
  split at read
  · cases read
  next notClosing =>
  cases first with
  | true =>
      cases read
      exact ⟨skipped, c, head, by simpa using notClosing⟩
  | false =>
      rw [if_neg Bool.false_ne_true] at read
      split at read
      · next isComma =>
        rw [beq_iff_eq.mp isComma] at head
        obtain ⟨_, behind, advanced, read⟩ := bind_eq_ok.mp read
        obtain ⟨_, place, again, read⟩ := bind_eq_ok.mp read
        obtain ⟨found, isNext, read⟩ := peek_eq_ok read
        split at read
        · exact (failNext_ne_ok read).elim
        · next notEnd =>
          cases read
          exact ⟨⟨blanks, behind, skipped, head, advanced, again⟩, found, isNext,
            by simpa using notEnd⟩
      · exact (failNext_ne_ok read).elim

theorem hasElement_eq_false {first : Bool} (read : hasElement first cursor = .ok false next) :
    skipBlanks cursor = .ok () next ∧ next.rest.head? = some ']' := by
  obtain ⟨_, blanks, skipped, read⟩ := bind_eq_ok.mp read
  obtain ⟨c, head, read⟩ := peek_eq_ok read
  split at read
  · next closing =>
    cases read
    exact ⟨skipped, by rw [head, beq_iff_eq.mp closing]⟩
  split at read
  · cases read
  split at read
  · obtain ⟨_, behind, advanced, read⟩ := bind_eq_ok.mp read
    obtain ⟨_, place, again, read⟩ := bind_eq_ok.mp read
    obtain ⟨_, _, read⟩ := peek_eq_ok read
    split at read
    · exact (failNext_ne_ok read).elim
    · cases read
  · exact (failNext_ne_ok read).elim

/-- At the closing bracket there is no element, however often one asks. -/
theorem hasElement_of_closing (closing : cursor.rest.head? = some ']') (first : Bool) :
    hasElement first cursor = .ok false cursor := by
  unfold hasElement
  rw [bind_of_ok (skipBlanks_of_stops (by rw [closing]; simp [isJsonBlank])), peek_bind,
    closing]
  rfl

theorem hasMember_eq_true {first : Bool} (read : hasMember first cursor = .ok true next) :
    Arrives first cursor next ∧ next.rest.head? = some '"' := by
  obtain ⟨_, blanks, skipped, read⟩ := bind_eq_ok.mp read
  obtain ⟨c, head, read⟩ := peek_eq_ok read
  split at read
  · cases read
  cases first with
  | true =>
      rw [if_pos rfl] at read
      split at read
      · next isQuote =>
        cases read
        exact ⟨skipped, by rw [head, beq_iff_eq.mp isQuote]⟩
      · exact (failNext_ne_ok read).elim
  | false =>
      rw [if_neg Bool.false_ne_true] at read
      split at read
      · next isComma =>
        rw [beq_iff_eq.mp isComma] at head
        obtain ⟨_, behind, advanced, read⟩ := bind_eq_ok.mp read
        obtain ⟨_, place, again, read⟩ := bind_eq_ok.mp read
        obtain ⟨found, isNext, read⟩ := peek_eq_ok read
        split at read
        · next isQuote =>
          cases read
          exact ⟨⟨blanks, behind, skipped, head, advanced, again⟩,
            by rw [isNext, beq_iff_eq.mp isQuote]⟩
        · split at read
          · exact (failNext_ne_ok read).elim
          · exact (failNext_ne_ok read).elim
      · exact (failNext_ne_ok read).elim

theorem hasMember_eq_false {first : Bool} (read : hasMember first cursor = .ok false next) :
    skipBlanks cursor = .ok () next ∧ next.rest.head? = some '\x7d' := by
  obtain ⟨_, blanks, skipped, read⟩ := bind_eq_ok.mp read
  obtain ⟨c, head, read⟩ := peek_eq_ok read
  split at read
  · next closing =>
    cases read
    exact ⟨skipped, by rw [head, beq_iff_eq.mp closing]⟩
  split at read
  · split at read
    · cases read
    · exact (failNext_ne_ok read).elim
  split at read
  · obtain ⟨_, behind, advanced, read⟩ := bind_eq_ok.mp read
    obtain ⟨_, place, again, read⟩ := bind_eq_ok.mp read
    obtain ⟨_, _, read⟩ := peek_eq_ok read
    split at read
    · cases read
    · split at read
      · exact (failNext_ne_ok read).elim
      · exact (failNext_ne_ok read).elim
  · exact (failNext_ne_ok read).elim

theorem nextKey_eq_some {first : Bool} {key : String} :
    nextKey first cursor = .ok (some key) next ↔
      ∃ middle, hasMember first cursor = .ok true middle ∧
        string middle = .ok key next := by
  unfold nextKey
  rw [under_eq_ok, bind_eq_ok]
  constructor
  · rintro ⟨more, middle, decided, read⟩
    split at read
    · next more =>
      subst more
      obtain ⟨_, spelled, same⟩ := map_eq_ok.mp read
      cases same
      exact ⟨middle, decided, spelled⟩
    · cases read
  · rintro ⟨middle, decided, spelled⟩
    exact ⟨true, middle, decided, map_eq_ok.mpr ⟨key, spelled, rfl⟩⟩

theorem nextKey_eq_none {first : Bool} :
    nextKey first cursor = .ok none next ↔ hasMember first cursor = .ok false next := by
  unfold nextKey
  rw [under_eq_ok, bind_eq_ok]
  constructor
  · rintro ⟨more, middle, decided, read⟩
    split at read
    · obtain ⟨_, _, same⟩ := map_eq_ok.mp read
      cases same
    · next noMore =>
      cases read
      rwa [Bool.eq_false_iff.mpr noMore] at decided
  · intro decided
    exact ⟨false, next, decided, rfl⟩

/-- The runs that read a word, a number or a string, by the character they begin with. -/
inductive ScalarRun (cursor : Cursor) : Char → Json → Cursor → Prop where
  | null {next : Cursor} :
      wholeWord ['u', 'l', 'l'] cursor = .ok () next → ScalarRun cursor 'n' .null next
  | true {next : Cursor} : ScalarRun cursor 't' (.bool true) next
  | false {next : Cursor} : ScalarRun cursor 'f' (.bool false) next
  | number {next : Cursor} {c : Char} {found : JsonNumber} :
      (c == '-' || isDigit c) = .true → ScalarRun cursor c (.number found) next
  | string {next : Cursor} {text : String} :
      Reading.string cursor = .ok text next → ScalarRun cursor '"' (.string text) next

theorem ScalarRun.of_scalar? {c : Char} {scalar : Reading Json} {json : Json}
    (known : scalar? c = some scalar) (read : scalar cursor = .ok json next) :
    ScalarRun cursor c json next := by
  unfold scalar? at known
  split at known
  · next isN =>
    cases known
    obtain ⟨_, _, begun, ended⟩ := bind_eq_ok.mp read
    obtain ⟨rfl, rfl⟩ := pure_eq_ok.mp ended
    rw [beq_iff_eq.mp isN]
    exact .null begun
  split at known
  · next isT =>
    cases known
    obtain ⟨_, _, _, ended⟩ := bind_eq_ok.mp read
    obtain ⟨rfl, rfl⟩ := pure_eq_ok.mp ended
    rw [beq_iff_eq.mp isT]
    exact .true
  split at known
  · next isF =>
    cases known
    obtain ⟨_, _, _, ended⟩ := bind_eq_ok.mp read
    obtain ⟨rfl, rfl⟩ := pure_eq_ok.mp ended
    rw [beq_iff_eq.mp isF]
    exact .false
  split at known
  · next isNumber =>
    cases known
    obtain ⟨found, _, rfl⟩ := map_eq_ok.mp read
    exact .number isNumber
  split at known
  · next isQuote =>
    cases known
    obtain ⟨text, spelled, rfl⟩ := map_eq_ok.mp read
    rw [beq_iff_eq.mp isQuote]
    exact .string spelled
  · cases known

/-- The runs of the reader of any value that yield one. -/
inductive ValueRun : (room : Nat) → Cursor → Json → Cursor → Prop where
  | scalar {room : Nat} {cursor middle next : Cursor} {c : Char} {scalar : Reading Json}
      {json : Json} :
      skipBlanks cursor = .ok () middle → middle.rest.head? = some c →
      scalar? c = some scalar → scalar middle = .ok json next →
      ValueRun room cursor json next
  | list {room : Nat} {cursor middle behind next : Cursor} {items : List Json} :
      skipBlanks cursor = .ok () middle → middle.rest.head? = some '[' →
      advance middle = .ok () behind → listTail (value room) behind = .ok items next →
      ValueRun (room + 1) cursor (.array items) next
  | object {room : Nat} {cursor middle behind next : Cursor}
      {entries : List (String × Json)} :
      skipBlanks cursor = .ok () middle → middle.rest.head? = some '\x7b' →
      advance middle = .ok () behind → objectTail (value room) behind = .ok entries next →
      ValueRun (room + 1) cursor (.object entries) next

theorem value_eq_valueOver (room : Nat) :
    value room = valueOver (if room = 0 then none else some (value (room - 1))) := by
  cases room <;> rfl

theorem value_congr (skipped : skipBlanks cursor = .ok () next) (room : Nat) :
    value room cursor = value room next := by
  rw [value_eq_valueOver]
  exact skipBlanks_bind_congr skipped _

theorem ValueRun.of_value {room : Nat} {json : Json}
    (read : value room cursor = .ok json next) :
    ValueRun room cursor json next := by
  rw [value_eq_valueOver] at read
  obtain ⟨_, middle, skipped, read⟩ := bind_eq_ok.mp read
  obtain ⟨c, head, read⟩ := peek_eq_ok read
  cases known : scalar? c with
  | some scalar =>
      simp only [known] at read
      exact .scalar skipped head known read
  | none =>
      simp only [known] at read
      split at read
      · next opening =>
        cases room with
        | zero => exact (failNext_ne_ok read).elim
        | succ room =>
            obtain ⟨_, behind, advanced, read⟩ := bind_eq_ok.mp read
            split at read
            · next isList =>
              rw [beq_iff_eq.mp isList] at head
              obtain ⟨items, listed, rfl⟩ := map_eq_ok.mp read
              exact .list skipped head advanced listed
            · next notList =>
              have isObject : c = '\x7b' := by simpa [notList] using opening
              rw [isObject] at head
              obtain ⟨entries, listed, rfl⟩ := map_eq_ok.mp read
              exact .object skipped head advanced listed
      · exact (failNext_ne_ok read).elim

end BuildScribe.Reading

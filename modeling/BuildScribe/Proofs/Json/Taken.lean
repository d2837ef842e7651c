import BuildScribe.Proofs.Json.Grammar
import BuildScribe.Proofs.Json.Run

/-!
# What a reading takes from the text

A reading that yields a value has taken a part of the text and left the rest. It looks at
most at the next character of the rest, and a container not even at that: before any other
rest that begins in the same way, the same part yields the same value.
-/

namespace BuildScribe.Reading

variable {α β : Type}

/-- From the cursor, the reading takes only parts of the shape, and it takes the same part
before every text that begins like the one left. -/
def TakesAt (shape : α → List Char → Prop) (reading : Reading α) (cursor : Cursor) : Prop :=
  ∀ value next, reading cursor = .ok value next →
    ∃ taken, shape value taken ∧ cursor.rest = taken ++ next.rest ∧
      ∀ behind, behind.head? = next.rest.head? →
        reading ⟨taken ++ behind, cursor.offset⟩ = .ok value ⟨behind, next.offset⟩

/-- From wherever it starts, the reading takes only parts of the shape, and it takes the
same part before every text that begins like the one left. -/
def Takes (shape : α → List Char → Prop) (reading : Reading α) : Prop :=
  ∀ cursor, reading.TakesAt shape cursor

/-- From the cursor, the reading takes only parts of the shape, and it takes the same part
whatever is left behind it. -/
def TakesWholeAt (shape : α → List Char → Prop) (reading : Reading α) (cursor : Cursor) :
    Prop :=
  ∀ value next, reading cursor = .ok value next →
    ∃ taken, shape value taken ∧ cursor.rest = taken ++ next.rest ∧
      ∀ behind, reading ⟨taken ++ behind, cursor.offset⟩ = .ok value ⟨behind, next.offset⟩

/-- From wherever it starts, the reading takes only parts of the shape, and it takes the
same part whatever is left behind it. -/
def TakesWhole (shape : α → List Char → Prop) (reading : Reading α) : Prop :=
  ∀ cursor, reading.TakesWholeAt shape cursor

variable {shape : α → List Char → Prop} {result : β → List Char → Prop} {cursor : Cursor}

theorem TakesWhole.takes {reading : Reading α} (onReading : reading.TakesWhole shape) :
    reading.Takes shape := by
  intro cursor value next read
  obtain ⟨taken, shaped, split, again⟩ := onReading cursor value next read
  exact ⟨taken, shaped, split, fun behind _ => again behind⟩

theorem TakesAt.length_le {reading : Reading α} {value : α} {next : Cursor}
    (onReading : reading.TakesAt shape cursor) (read : reading cursor = .ok value next) :
    next.rest.length ≤ cursor.rest.length := by
  obtain ⟨taken, _, split, _⟩ := onReading value next read
  simp [split]

theorem head?_append_congr (taken : List Char) {behind rest : List Char}
    (same : behind.head? = rest.head?) :
    (taken ++ behind).head? = (taken ++ rest).head? := by
  cases taken with
  | nil => exact same
  | cons c others => rfl

theorem skipBlanks_append {blanks behind : List Char} (onBlanks : IsBlankText blanks)
    (stops : ∀ c ∈ behind.head?, isJsonBlank c = false) (offset : Nat) :
    skipBlanks ⟨blanks ++ behind, offset⟩ = .ok () ⟨behind, offset + blanks.length⟩ :=
  bind_of_ok (takeAscii_append onBlanks stops offset) _

/-- What begins with a certain character is read the same behind blanks, whatever is left
behind it. -/
theorem blanks_takesWhole {second : Option Char → Reading α} (begins : Char → Prop)
    (notBlank : ∀ c, begins c → isJsonBlank c = false)
    (onSecond : ∀ c cursor, begins c → cursor.rest.head? = some c →
      (second (some c)).TakesWholeAt
        (fun value taken => taken.head? = some c ∧
          ∀ blanks, IsBlankText blanks → shape value (blanks ++ taken)) cursor)
    (others : ∀ head, (∀ c ∈ head, ¬begins c) → ∀ cursor value next,
      ¬second head cursor = .ok value next) :
    (do skipBlanks; second (← peek)).TakesWhole shape := by
  intro cursor value next read
  obtain ⟨_, middle, skipped, read⟩ := bind_eq_ok.mp read
  cases skipped
  rw [peek_bind] at read
  dsimp only at read
  by_cases isBegin : ∃ c, (cursor.rest.dropWhile isJsonBlank).head? = some c ∧ begins c
  · obtain ⟨c, head, isBegin⟩ := isBegin
    rw [head] at read
    obtain ⟨taken, ⟨first, shaped⟩, split, again⟩ :=
      onSecond c _ isBegin head value next read
    have onBlanks := passes_takeWhile isJsonBlank cursor.rest
    refine ⟨cursor.rest.takeWhile isJsonBlank ++ taken, shaped _ onBlanks, ?_, ?_⟩
    · rw [List.append_assoc, ← split]
      exact List.takeWhile_append_dropWhile.symm
    · intro behind
      have stays : (taken ++ behind).head? = some c := by simp [first]
      have stops : ∀ c ∈ (taken ++ behind).head?, isJsonBlank c = false := by
        simpa [stays] using notBlank c isBegin
      rw [List.append_assoc, bind_of_ok (skipBlanks_append onBlanks stops _), peek_bind]
      dsimp only
      rw [stays]
      exact again behind
  · refine (others _ ?_ _ _ _ read).elim
    exact fun c isNext isThis => isBegin ⟨c, isNext, isThis⟩

/-- An end that no text behind it can change: blanks and a closing bracket. -/
theorem closing_takesWhole (closing : Char) {second : Option Char → Reading Unit}
    (notBlank : isJsonBlank closing = false) (closes : second (some closing) = advance)
    (others : ∀ head, head ≠ some closing → ∀ cursor value next,
      ¬second head cursor = .ok value next) :
    (do skipBlanks; second (← peek)).TakesWhole fun _ taken =>
      ∃ blanks, IsBlankText blanks ∧ taken = blanks ++ [closing] := by
  apply blanks_takesWhole (· = closing) (by rintro c rfl; exact notBlank)
  · rintro c ⟨_ | ⟨_, rest⟩, offset⟩ rfl head
    · cases head
    cases head
    rw [closes]
    intro value next read
    cases read
    exact ⟨[c], ⟨rfl, fun blanks onBlanks => ⟨blanks, onBlanks, rfl⟩⟩, rfl, fun _ => rfl⟩
  · intro head others' cursor value next
    apply others
    rintro rfl
    exact others' closing rfl rfl

theorem enclosed_takesWhole {inside : Reading α} {finish : Reading Unit}
    {ending : Unit → List Char → Prop} (onInside : inside.Takes shape)
    (onFinish : finish.TakesWhole ending) (nonempty : ∀ taken, ending () taken → taken ≠ []) :
    (enclosed inside finish).TakesWhole fun value taken =>
      ∃ first last, taken = first ++ last ∧ shape value first ∧ ending () last := by
  intro cursor value next read
  obtain ⟨middle, begun, ended⟩ := enclosed_eq_ok.mp read
  obtain ⟨first, shaped, split, again⟩ := onInside cursor value middle begun
  obtain ⟨last, closes, remaining, anew⟩ := onFinish middle () next ended
  refine ⟨first ++ last, ⟨first, last, rfl, shaped, closes⟩, ?_, ?_⟩
  · rw [split, remaining, List.append_assoc]
  · intro behind
    have head : (last ++ behind).head? = middle.rest.head? := by
      rw [remaining]
      cases last with
      | nil => exact (nonempty [] closes rfl).elim
      | cons c others => rfl
    rw [List.append_assoc]
    exact enclosed_eq_ok.mpr ⟨_, again (last ++ behind) head, anew behind⟩

namespace TakesAt

theorem mono {reading : Reading α} {wider : α → List Char → Prop}
    (onReading : reading.TakesAt shape cursor)
    (widens : ∀ value taken, shape value taken → wider value taken) :
    reading.TakesAt wider cursor := by
  intro value next read
  obtain ⟨taken, shaped, split, again⟩ := onReading value next read
  exact ⟨taken, widens value taken shaped, split, again⟩

/-- A reading that fails takes nothing. -/
theorem ofFails {reading : Reading α}
    (fails : ∀ value next, ¬reading cursor = .ok value next) :
    reading.TakesAt shape cursor :=
  fun value next read => (fails value next read).elim

theorem failNext (fault : TextFault) :
    (Reading.failNext fault : Reading α).TakesAt shape cursor :=
  .ofFails fun _ _ => failNext_ne_ok

theorem failHere (fault : TextFault) :
    (Reading.failHere fault : Reading α).TakesAt shape cursor :=
  .ofFails fun _ _ => failHere_ne_ok

theorem failAfter (bytes : Nat) (fault : TextFault) :
    (Reading.failAfter bytes fault : Reading α).TakesAt shape cursor :=
  .ofFails fun _ _ => failAfter_ne_ok

theorem refuse (cause : ReadCause) :
    (Reading.refuse cause : Reading α).TakesAt shape cursor :=
  .ofFails fun _ _ => refuse_ne_ok

theorem refuseHere (cause : ReadCause) :
    (Reading.refuseHere cause : Reading α).TakesAt shape cursor :=
  .ofFails fun _ _ => refuseHere_ne_ok

theorem pure {value : α} (shaped : shape value []) :
    (Pure.pure value : Reading α).TakesAt shape cursor := by
  intro yielded next read
  obtain ⟨rfl, rfl⟩ := pure_eq_ok.mp read
  exact ⟨[], shaped, rfl, fun _ _ => rfl⟩

theorem bind {first : Reading α} {second : α → Reading β}
    (onFirst : first.TakesAt shape cursor)
    (onSecond : ∀ value taken middle, shape value taken →
      first cursor = .ok value middle →
      (second value).TakesAt (fun last more => result last (taken ++ more)) middle) :
    (first >>= second).TakesAt result cursor := by
  intro last next read
  obtain ⟨value, middle, begun, ended⟩ := bind_eq_ok.mp read
  obtain ⟨taken, shaped, split, again⟩ := onFirst value middle begun
  obtain ⟨more, whole, rest, anew⟩ := onSecond value taken middle shaped begun last next ended
  refine ⟨taken ++ more, whole, by rw [split, rest, List.append_assoc], ?_⟩
  intro behind same
  have head : (more ++ behind).head? = middle.rest.head? := by
    rw [rest]
    exact head?_append_congr more same
  rw [List.append_assoc, bind_of_ok (again (more ++ behind) head)]
  exact anew behind same

theorem map {reading : Reading α} {change : α → β}
    (onReading : reading.TakesAt (fun value taken => result (change value) taken) cursor) :
    (change <$> reading).TakesAt result cursor := by
  rw [← bind_pure_comp]
  apply onReading.bind
  intro value taken middle shaped _
  exact .pure (by rwa [List.append_nil])

/-- What is done next depends on the next character. -/
theorem peek {second : Option Char → Reading β}
    (onSecond : (second cursor.rest.head?).TakesAt result cursor) :
    (Reading.peek >>= second).TakesAt result cursor := by
  intro value next read
  obtain ⟨taken, shaped, split, again⟩ := onSecond value next read
  refine ⟨taken, shaped, split, ?_⟩
  intro behind same
  have head : (taken ++ behind).head? = cursor.rest.head? := by
    rw [split]
    exact head?_append_congr taken same
  rw [peek_bind]
  dsimp only
  rw [head]
  exact again behind same

/-- A reading may note where it stands as long as it yields nothing that depends on it. -/
theorem get {second : Cursor → Reading β}
    (onSecond : (second cursor).TakesAt result cursor)
    (regardless : ∀ noted other place value next,
      second noted place = .ok value next → second other place = .ok value next) :
    (MonadState.get >>= second).TakesAt result cursor := by
  intro value next read
  obtain ⟨taken, shaped, split, again⟩ := onSecond value next read
  exact ⟨taken, shaped, split, fun behind same =>
    regardless cursor _ _ value _ (again behind same)⟩

theorem advance {second : Unit → Reading β} {c : Char} (head : cursor.rest.head? = some c)
    (onSecond : ∀ middle, (second ()).TakesAt
      (fun value taken => result value (c :: taken)) middle) :
    (Reading.advance >>= second).TakesAt result cursor := by
  obtain ⟨_ | ⟨_, rest⟩, offset⟩ := cursor
  · cases head
  cases head
  intro value next read
  obtain ⟨taken, shaped, split, again⟩ := onSecond _ value next read
  exact ⟨c :: taken, shaped, congrArg (c :: ·) split, again⟩

theorem under {part : Reading α} (onPart : part.TakesAt shape cursor) (step : PathStep) :
    (Reading.under step part).TakesAt shape cursor := by
  intro value next read
  obtain ⟨taken, shaped, split, again⟩ := onPart value next (under_eq_ok.mp read)
  exact ⟨taken, shaped, split, fun behind same => under_eq_ok.mpr (again behind same)⟩

/-- Characters are taken up to the first one that fails the test. -/
theorem takeAscii {test : Char → Bool} {second : List Char → Reading β}
    (onSecond : ∀ taken middle, taken = cursor.rest.takeWhile test →
      (second taken).TakesAt (fun value more => result value (taken ++ more)) middle) :
    (Reading.takeAscii test >>= second).TakesAt result cursor := by
  have gathers : (Reading.takeAscii test).TakesAt
      (fun taken all => taken = cursor.rest.takeWhile test ∧ taken = all) cursor := by
    intro taken next read
    cases read
    refine ⟨_, ⟨rfl, rfl⟩, List.takeWhile_append_dropWhile.symm, ?_⟩
    intro behind same
    exact takeAscii_append (passes_takeWhile test cursor.rest)
      (same ▸ stops_dropWhile test cursor.rest) cursor.offset
  apply gathers.bind
  rintro taken _ middle ⟨gathered, rfl⟩ _
  exact onSecond taken middle gathered

theorem skipBlanks {second : Unit → Reading β}
    (onSecond : ∀ blanks middle, IsBlankText blanks →
      (second ()).TakesAt (fun value more => result value (blanks ++ more)) middle) :
    (Reading.skipBlanks >>= second).TakesAt result cursor := by
  unfold Reading.skipBlanks
  rw [bind_assoc]
  apply takeAscii
  rintro _ middle rfl
  exact onSecond _ middle (passes_takeWhile isJsonBlank cursor.rest)

end TakesAt

end BuildScribe.Reading

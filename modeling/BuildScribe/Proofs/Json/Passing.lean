import BuildScribe.Proofs.Json.Skipped

/-!
# Values that can be read can be skipped

Where a reader yields a value, the skipper passes just the text that was read.
-/

namespace BuildScribe.Reading

variable {α β γ : Type}

/-- Wherever the reading yields a value, the skipper ends where it ends. -/
def PassedBy (skipper : Reading Unit) (reading : Reading α) : Prop :=
  ∀ cursor value next, reading cursor = .ok value next → skipper cursor = .ok () next

namespace PassedBy

theorem ofFails {reading : Reading α} {skipper : Reading Unit}
    (fails : ∀ cursor value next, ¬reading cursor = .ok value next) :
    skipper.PassedBy reading :=
  fun cursor value next read => (fails cursor value next read).elim

/-- A reading that stays where it is. -/
theorem pure {reading : Reading α}
    (stays : ∀ cursor value next, reading cursor = .ok value next → next = cursor) :
    (Pure.pure () : Reading Unit).PassedBy reading := by
  intro cursor value next read
  rw [stays cursor value next read]
  rfl

/-- Both begin in the same way. -/
theorem bind {first : Reading α} {second : α → Reading β} {skipper : α → Reading Unit}
    (onSecond : ∀ value, (skipper value).PassedBy (second value)) :
    (first >>= skipper).PassedBy (first >>= second) := by
  intro cursor value next read
  obtain ⟨begun, middle, first, read⟩ := bind_eq_ok.mp read
  rw [bind_of_ok first]
  exact onSecond begun middle value next read

theorem get {second : Cursor → Reading β} {skipper : Reading Unit}
    (onSecond : ∀ noted, skipper.PassedBy (second noted)) :
    skipper.PassedBy (MonadState.get >>= second) :=
  fun cursor value next read => onSecond cursor cursor value next read

theorem map {reading : Reading α} {skipper : Reading Unit} {change : α → β}
    (onReading : skipper.PassedBy reading) : skipper.PassedBy (change <$> reading) := by
  intro cursor value next read
  obtain ⟨inner, read, _⟩ := map_eq_ok.mp read
  exact onReading cursor inner next read

theorem settled {finish : Cursor → Reading β} (settles : Settles finish) (noted : Cursor) :
    (Pure.pure () : Reading Unit).PassedBy (finish noted) := by
  apply pure
  intro cursor value next read
  rcases settles with ⟨known, isPure⟩ | fails
  · rw [isPure] at read
    exact (pure_eq_ok.mp read).2.symm
  · exact (fails noted cursor value next read).elim

end PassedBy

/-- What is skipped of an exponent behind its sign. -/
def skipExponentDigits : Reading Unit := do
  match ← peek with
  | none => failHere .invalidNumber
  | some c =>
      if isDigit c then
        let _ ← takeAscii isDigit
      else
        failAfter 1 .invalidNumber

/-- How the digits of an exponent are read, and what is made of them at their beginning. -/
def exponentDigits (finish : Cursor → List Char → Reading β) : Reading β := do
  match ← peek with
  | none => failHere .endInValue
  | some c =>
      if !isDigit c then
        failAfter 1 .invalidNumber
      else
        let noted ← get
        let digits ← takeAscii isDigit
        finish noted digits

theorem skipExponentDigits_passes {finish : Cursor → List Char → Reading β}
    (settles : ∀ digits, Settles fun noted => finish noted digits) :
    skipExponentDigits.PassedBy (exponentDigits finish) := by
  apply PassedBy.bind
  intro next
  cases next with
  | none => exact .ofFails fun _ _ _ => failHere_ne_ok
  | some c =>
      dsimp only
      by_cases digit : isDigit c = true
      · rw [if_pos digit, if_neg (by simp [digit])]
        apply PassedBy.get
        intro noted
        apply PassedBy.bind
        intro gathered
        exact .settled (settles gathered) noted
      · rw [if_neg digit, if_pos (by simpa using digit)]
        exact .ofFails fun _ _ _ => failAfter_ne_ok

theorem skipExponent_passes (negative : Bool) (significand : Nat) (scale : Int) :
    skipExponent.PassedBy (exponentPart negative significand scale) := by
  apply PassedBy.bind
  intro _
  apply PassedBy.bind
  intro sign
  dsimp only
  split
  · apply PassedBy.bind
    intro _
    apply skipExponentDigits_passes
    exact fun digits => .ite (.scaledNumber _ _ _) (.ite (.failFrom _ _) (.value _))
  · apply skipExponentDigits_passes
    exact fun digits => .ite (.scaledNumber _ _ _) (.ite (.failFrom _ _) (.value _))

/-- An exponent, or what stays behind the digits. -/
theorem skipExponent_or_passes (negative : Bool) (significand : Nat) (scale : Int)
    {other : Reading JsonNumber} (stays : (pure () : Reading Unit).PassedBy other) :
    PassedBy
      (do
        let next ← peek
        if next == some 'e' || next == some 'E' then
          skipExponent)
      (do
        let next ← peek
        if next == some 'e' || next == some 'E' then
          exponentPart negative significand scale
        else
          other) := by
  apply PassedBy.bind
  intro next
  split
  · exact skipExponent_passes negative significand scale
  · exact stays

theorem skipFraction_passes (negative : Bool) (significand : Nat) (scale : Int) :
    PassedBy
      (do
        advance
        let digits ← takeAscii isDigit
        if digits.isEmpty then
          failNext .invalidNumber
        let next ← peek
        if next == some 'e' || next == some 'E' then
          skipExponent)
      (fractionPart negative significand scale) := by
  apply PassedBy.bind
  intro _
  apply PassedBy.bind
  intro digits
  by_cases absent : digits.isEmpty = true
  · apply PassedBy.ofFails
    intro cursor value next read
    rw [if_pos absent] at read
    obtain ⟨head, middle, _, read⟩ := bind_eq_ok.mp read
    cases head with
    | none => exact failNext_ne_ok read
    | some c => exact failNext_ne_ok read
  · simp only [absent]
    exact skipExponent_or_passes _ _ _ (.settled (.scaledNumber _ _ _) (.start []))

theorem skipNumberTail_passes (negative : Bool) (significand left : Nat) :
    skipNumberTail.PassedBy (numberTail negative significand left) := by
  intro cursor value next read
  unfold numberTail at read
  unfold skipNumberTail
  rw [peek_bind] at read ⊢
  dsimp only at read ⊢
  by_cases point : (cursor.rest.head? == some '.') = true
  · rw [if_pos point] at read ⊢
    exact skipFraction_passes _ _ _ cursor value next read
  · rw [if_neg point] at read ⊢
    refine skipExponent_or_passes negative significand left ?_ cursor value next read
    exact .settled (.ite (.scaledNumber _ _ _) (.ite (.value _) (.ite (.value _) (.value _))))
      cursor

theorem skipUnsigned_passes (negative : Bool) :
    skipUnsigned.PassedBy (unsignedNumber negative) := by
  apply PassedBy.bind
  intro next
  cases next with
  | none => exact .ofFails fun _ _ _ => failHere_ne_ok
  | some c =>
      dsimp only
      split
      · apply PassedBy.bind
        intro _ cursor value next read
        rw [peek_bind] at read ⊢
        cases head : cursor.rest.head? with
        | none =>
            -- At the end of the text nothing of the number can follow its zero.
            simp only [head] at read ⊢
            have passed := skipNumberTail_passes negative 0 0 cursor value next read
            simpa [skipNumberTail, peek_bind, head] using passed
        | some c =>
            simp only [head] at read ⊢
            split at read
            · exact (failNext_ne_ok read).elim
            · next notDigit =>
              rw [if_neg notDigit]
              exact skipNumberTail_passes negative 0 0 cursor value next read
      split
      · apply PassedBy.bind
        intro digits
        exact skipNumberTail_passes negative _ _
      · exact .ofFails fun _ _ _ => failAfter_ne_ok

theorem skipNumber_passes : skipNumber.PassedBy number := by
  unfold skipNumber number
  apply PassedBy.bind
  intro sign
  dsimp only
  split
  · apply PassedBy.bind
    exact fun _ => skipUnsigned_passes true
  · exact skipUnsigned_passes false

/-- An escape that is read is one that is skipped, or two: a surrogate pair. -/
theorem skipEscape_of_escapeTail {cursor next : Cursor} {plain : Char}
    (read : escapeTail cursor = .ok (plain, next)) :
    skipEscape cursor = .ok next ∨
      ∃ middle rest, skipEscape cursor = .ok middle ∧ middle.rest = '\\' :: rest ∧
        skipEscape ⟨rest, middle.offset + 1⟩ = .ok next := by
  rcases escapeTail_eq_ok.mp read with ⟨c, rest, known, simple, rfl⟩ | ⟨rest, known, unicode⟩
  · exact .inl (skipEscape_eq_ok.mpr (.inl ⟨c, rest, known, by simp [simple], rfl⟩))
  · rcases unicodeEscape_eq_ok.mp unicode with ⟨unit, hex, _⟩ |
      ⟨unit, middle, others, second, hex, _, _, pair, more, _⟩
    · exact .inl (skipEscape_eq_ok.mpr (.inr ⟨rest, unit, known, hex⟩))
    · refine .inr ⟨middle, _, skipEscape_eq_ok.mpr (.inr ⟨rest, unit, known, hex⟩), pair, ?_⟩
      exact skipEscape_eq_ok.mpr (.inr ⟨others, second, rfl, more⟩)

theorem length_of_skipEscape {cursor next : Cursor} (read : skipEscape cursor = .ok next) :
    next.rest.length ≤ cursor.rest.length := by
  obtain ⟨taken, _, split, _⟩ := skipEscape_takes read
  simp [split]

/-- The skipper may need more steps than the reader, but no more than there are
characters. -/
theorem skipStringTail_of_stringTail {steps more : Nat} {done text : List Char}
    {cursor next : Cursor} (read : stringTail steps done cursor = .ok (text, next))
    (enough : cursor.rest.length < more) : skipStringTail more cursor = .ok next := by
  induction steps generalizing done cursor more with
  | zero => cases read
  | succ steps ih =>
      obtain _ | more := more
      · cases enough
      obtain ⟨rest, offset⟩ := cursor
      rcases stringTail_succ_eq_ok.mp read with ⟨rest, rfl, _, rfl⟩ |
        ⟨rest, plain, middle, rfl, escape, onward⟩ | ⟨c, rest, rfl, plain, onward⟩
      · rfl
      · simp only [List.length_cons] at enough
        rcases skipEscape_of_escapeTail escape with once | ⟨place, others, once, pair, twice⟩
        · have shorter : middle.rest.length ≤ rest.length := length_of_skipEscape once
          have skipped := ih onward (show middle.rest.length < more by omega)
          exact skipStringTail_succ_eq_ok.mpr (.inr (.inl ⟨rest, middle, rfl, once, skipped⟩))
        · -- The two escapes of a surrogate pair are two steps of the skipper.
          have shorter : place.rest.length ≤ rest.length := length_of_skipEscape once
          have shortest : middle.rest.length ≤ others.length := length_of_skipEscape twice
          rw [pair, List.length_cons] at shorter
          obtain _ | more := more
          · omega
          have skipped := ih onward (show middle.rest.length < more by omega)
          have second : skipStringTail (more + 1) place = .ok next :=
            skipStringTail_succ_eq_ok.mpr (.inr (.inl ⟨others, middle, pair, twice, skipped⟩))
          exact skipStringTail_succ_eq_ok.mpr (.inr (.inl ⟨rest, place, rfl, once, second⟩))
      · have skipped := ih onward (Nat.lt_of_succ_lt_succ enough)
        exact skipStringTail_succ_eq_ok.mpr (.inr (.inr ⟨c, rest, rfl, plain, skipped⟩))

theorem skipString_passes : skipString.PassedBy string := by
  apply PassedBy.bind
  intro _ cursor value next read
  dsimp only at read ⊢
  cases found : stringTail (cursor.rest.length + 1) [] cursor with
  | error fault =>
      rw [found] at read
      cases read
  | ok known =>
      obtain ⟨text, last⟩ := known
      rw [found] at read
      cases read
      rw [skipStringTail_of_stringTail found (Nat.lt_succ_self _)]

theorem skipScalar?_passes {c : Char} {scalar : Reading Json}
    (known : scalar? c = some scalar) :
    ∃ skipper, skipScalar? c = some skipper ∧ skipper.PassedBy scalar := by
  have spelled (rest : List Char) (value : Json) :
      (wholeWord rest).PassedBy (do wholeWord rest; pure value) := by
    intro cursor _ next read
    obtain ⟨_, middle, begun, ended⟩ := bind_eq_ok.mp read
    obtain ⟨_, rfl⟩ := pure_eq_ok.mp ended
    exact begun
  unfold scalar? at known
  unfold skipScalar?
  split at known
  · next isN =>
    cases known
    exact ⟨_, if_pos isN, spelled _ _⟩
  next notN =>
  rw [if_neg notN]
  split at known
  · next isT =>
    cases known
    exact ⟨_, if_pos isT, spelled _ _⟩
  next notT =>
  rw [if_neg notT]
  split at known
  · next isF =>
    cases known
    exact ⟨_, if_pos isF, spelled _ _⟩
  next notF =>
  rw [if_neg notF]
  split at known
  · next isNumber =>
    cases known
    exact ⟨_, if_pos isNumber, skipNumber_passes.map⟩
  next notNumber =>
  rw [if_neg notNumber]
  split at known
  · next isQuote =>
    cases known
    exact ⟨_, if_pos isQuote, skipString_passes.map⟩
  · cases known

/-- The skipper comes from one state to another in some number of steps, of which what it
costs to pass the text in between is a bound. -/
def Leads (state : SkipState) (cursor : Cursor) (reached : SkipState) (next : Cursor) :
    Prop :=
  ∃ steps, steps + reached.cost next.rest ≤ state.cost cursor.rest ∧
    ∀ more, state.resume (steps + more) cursor = reached.resume more next

namespace Leads

variable {cursor middle next : Cursor} {enclosures outer : List Enclosure}

theorem trans {state between reached : SkipState} (first : Leads state cursor between middle)
    (second : Leads between middle reached next) : Leads state cursor reached next := by
  obtain ⟨steps, cheaper, resumes⟩ := first
  obtain ⟨others, cheapest, onward⟩ := second
  refine ⟨steps + others, by omega, fun more => ?_⟩
  rw [Nat.add_assoc, resumes, onward]

theorem stepBefore {reached : SkipState}
    (stepped : Reading.stepBefore enclosures cursor = .ok reached next)
    (cheaper : reached.cost next.rest < SkipState.cost (.before enclosures) cursor.rest) :
    Leads (.before enclosures) cursor reached next := by
  refine ⟨1, by omega, fun more => ?_⟩
  rw [Nat.add_comm]
  change skipInside (more + 1) enclosures cursor = _
  rw [skipInside_succ, bind_of_ok stepped]

theorem stepBehind {enclosure : Enclosure} {afterElement : Bool} {reached : SkipState}
    (stepped : Reading.stepBehind enclosure outer afterElement cursor = .ok reached next)
    (cheaper : reached.cost next.rest <
      SkipState.cost (.behind (enclosure :: outer) afterElement) cursor.rest) :
    Leads (.behind (enclosure :: outer) afterElement) cursor reached next := by
  refine ⟨1, by omega, fun more => ?_⟩
  rw [Nat.add_comm]
  change skipBehind (more + 1) (enclosure :: outer) afterElement cursor = _
  rw [skipBehind_succ, bind_of_ok stepped]

/-- Over the closing bracket of a container. -/
theorem close {enclosure : Enclosure} {afterElement : Bool}
    (skipped : skipBlanks cursor = .ok () middle)
    (closing : middle.rest.head? = some enclosure.closing)
    (advanced : advance middle = .ok () next) :
    Leads (.behind (enclosure :: outer) afterElement) cursor (.behind outer true) next := by
  have notLonger := length_of_skipBlanks skipped
  have shorter := length_of_advance closing advanced
  apply stepBehind
  · rw [Reading.stepBehind, bind_of_ok skipped, peek_bind, closing]
    dsimp only
    rw [if_pos (beq_self_eq_true _), bind_of_ok advanced]
    rfl
  · simp only [SkipState.cost]
    omega

/-- Over the separator before an element and, in an object, over its key. -/
theorem item (enclosure : Enclosure) {first : Bool} {start : Cursor}
    (arrives : Arrives first cursor start) {c : Char} (head : start.rest.head? = some c)
    (notClosing : c ≠ enclosure.closing) (reaches : Cursor → Prop)
    (keyed : ∀ before, skipBlanks before = .ok () start →
      ∃ place, skipKey enclosure before = .ok () place ∧ reaches place) :
    ∃ place, reaches place ∧
      Leads (.behind (enclosure :: outer) (!first)) cursor (.before (enclosure :: outer))
        place := by
  cases first with
  | true =>
      have skipped : skipBlanks cursor = .ok () start := arrives
      obtain ⟨place, passed, isReached⟩ := keyed start (skipBlanks_of_skipBlanks skipped)
      have notLonger := (skipKey_takes enclosure start).length_le passed
      have shorter := length_of_skipBlanks skipped
      refine ⟨place, isReached, stepBehind ?_ ?_⟩
      · rw [Reading.stepBehind, bind_of_ok skipped, peek_bind, head]
        dsimp only
        rw [if_neg (by simpa using notClosing)]
        exact bind_of_ok passed _
      · simp only [SkipState.cost]
        omega
  | false =>
      obtain ⟨comma, behind, skipped, isComma, advanced, again⟩ := arrives
      obtain ⟨place, passed, isReached⟩ := keyed behind again
      have notLonger := (skipKey_takes enclosure behind).length_le passed
      have shorter := length_of_skipBlanks skipped
      have shortest := length_of_advance isComma advanced
      have notEnd : ¬(',' == enclosure.closing) = true := by cases enclosure <;> decide
      refine ⟨place, isReached, stepBehind ?_ ?_⟩
      · rw [Reading.stepBehind, bind_of_ok skipped, peek_bind, isComma]
        dsimp only
        rw [if_neg notEnd]
        exact (bind_of_ok advanced _).trans (bind_of_ok passed _)
      · simp only [SkipState.cost]
        omega

end Leads

/-- What the skipper makes of every value that the reader reads. -/
def PassesValues (inner : Reading Json) : Prop :=
  ∀ enclosures cursor json next, inner cursor = .ok json next →
    Leads (.before enclosures) cursor (.behind enclosures true) next

theorem finishList_of_closing {cursor next : Cursor} (closing : cursor.rest.head? = some ']')
    (ended : finishList cursor = .ok () next) : advance cursor = .ok () next := by
  unfold finishList at ended
  rw [bind_of_ok (skipBlanks_of_stops (by rw [closing]; simp [isJsonBlank])), peek_bind,
    closing] at ended
  exact ended

theorem finishObject_of_closing {cursor next : Cursor}
    (closing : cursor.rest.head? = some '\x7d') (ended : finishObject cursor = .ok () next) :
    advance cursor = .ok () next := by
  unfold finishObject at ended
  rw [bind_of_ok (skipBlanks_of_stops (by rw [closing]; simp [isJsonBlank])), peek_bind,
    closing] at ended
  exact ended

theorem elements_leads {room steps index : Nat} (onItem : PassesValues (value room))
    {cursor middle next : Cursor} {items : List Json}
    (read : elements (value room) steps index cursor = .ok items middle)
    (ended : finishList middle = .ok () next) (outer : List Enclosure) :
    Leads (.behind (.list :: outer) (index != 0)) cursor (.behind outer true) next := by
  induction steps generalizing index cursor items with
  | zero => exact (failNext_ne_ok read).elim
  | succ steps ih =>
      obtain ⟨more, start, decided, read⟩ := bind_eq_ok.mp read
      cases more with
      | false =>
          obtain ⟨_, rfl⟩ := pure_eq_ok.mp read
          obtain ⟨skipped, closing⟩ := hasElement_eq_false decided
          exact .close skipped closing (finishList_of_closing closing ended)
      | true =>
          obtain ⟨item, place, begun, read⟩ := bind_eq_ok.mp read
          obtain ⟨others, last, continued, read⟩ := bind_eq_ok.mp read
          obtain ⟨_, rfl⟩ := pure_eq_ok.mp read
          obtain ⟨arrives, c, head, notClosing⟩ := hasElement_eq_true decided
          have begun := under_eq_ok.mp begun
          obtain ⟨before, reread, toItem⟩ :=
            Leads.item .list arrives head notClosing
              (fun before => value room before = .ok item place)
              fun before skipped => ⟨before, rfl, by rw [value_congr skipped, begun]⟩
          exact toItem.trans ((onItem _ _ _ _ reread).trans (ih continued))

theorem members_leads {room steps : Nat} {first : Bool} (onValue : PassesValues (value room))
    {cursor middle next : Cursor} {entries : List (String × Json)}
    (read : members (value room) steps first cursor = .ok entries middle)
    (ended : finishObject middle = .ok () next) (outer : List Enclosure) :
    Leads (.behind (.object :: outer) (!first)) cursor (.behind outer true) next := by
  induction steps generalizing first cursor entries with
  | zero => exact (failNext_ne_ok read).elim
  | succ steps ih =>
      obtain ⟨key, start, keyed, read⟩ := bind_eq_ok.mp read
      cases key with
      | none =>
          obtain ⟨_, rfl⟩ := pure_eq_ok.mp read
          obtain ⟨skipped, closing⟩ := hasMember_eq_false (nextKey_eq_none.mp keyed)
          exact .close skipped closing (finishObject_of_closing closing ended)
      | some key =>
          obtain ⟨_, behindColon, parted, read⟩ := bind_eq_ok.mp read
          obtain ⟨current, place, begun, read⟩ := bind_eq_ok.mp read
          obtain ⟨others, last, continued, read⟩ := bind_eq_ok.mp read
          obtain ⟨_, rfl⟩ := pure_eq_ok.mp read
          obtain ⟨quote, decided, spelled⟩ := nextKey_eq_some.mp keyed
          obtain ⟨arrives, head⟩ := hasMember_eq_true decided
          have passesKey (before : Cursor) (skipped : skipBlanks before = .ok () quote) :
              skipKey .object before = .ok () behindColon := by
            rw [skipKey, bind_of_ok skipped, peek_bind, head]
            exact (bind_of_ok (skipString_passes _ _ _ spelled) _).trans parted
          obtain ⟨_, rfl, toValue⟩ :=
            Leads.item .object arrives head (by decide) (behindColon = ·)
              fun before skipped => ⟨behindColon, passesKey before skipped, rfl⟩
          exact toValue.trans
            ((onValue _ _ _ _ (under_eq_ok.mp begun)).trans (ih continued))

theorem scalar_leads {cursor middle next : Cursor} {c : Char} {scalar : Reading Json}
    {json : Json} (skipped : skipBlanks cursor = .ok () middle)
    (head : middle.rest.head? = some c) (known : scalar? c = some scalar)
    (read : scalar middle = .ok json next) (enclosures : List Enclosure) :
    Leads (.before enclosures) cursor (.behind enclosures true) next := by
  obtain ⟨skipper, isSkipper, passes⟩ := skipScalar?_passes known
  obtain ⟨taken, isValue, split, _⟩ := scalar?_takes head known json next read
  apply Leads.stepBefore
  · rw [stepBefore, bind_of_ok skipped, peek_bind, head]
    simp only [isSkipper]
    rw [bind_of_ok (passes middle json next read)]
    rfl
  · have notLonger := length_of_skipBlanks skipped
    have positive := List.length_pos_iff.mpr isValue.ne_nil
    simp only [split, List.length_append] at notLonger
    simp only [SkipState.cost]
    omega

/-- Behind its opening bracket the skipper stands inside a container. -/
theorem opening_leads {cursor middle behind : Cursor} {enclosure : Enclosure} {opening : Char}
    (skipped : skipBlanks cursor = .ok () middle) (head : middle.rest.head? = some opening)
    (advanced : advance middle = .ok () behind)
    (opens : ∀ enclosures, stepBefore enclosures middle =
      .ok (.behind (enclosure :: enclosures) false) behind) (enclosures : List Enclosure) :
    Leads (.before enclosures) cursor (.behind (enclosure :: enclosures) false) behind := by
  apply Leads.stepBefore
  · rw [stepBefore, skipBlanks_bind_congr skipped]
    exact opens enclosures
  · have notLonger := length_of_skipBlanks skipped
    have shorter := length_of_advance head advanced
    simp only [SkipState.cost]
    omega

theorem value_passes (room : Nat) : PassesValues (value room) := by
  induction room with
  | zero =>
      intro enclosures cursor json next read
      cases ValueRun.of_value read with
      | scalar skipped head known read => exact scalar_leads skipped head known read enclosures
  | succ room ih =>
      intro enclosures cursor json next read
      cases ValueRun.of_value read with
      | scalar skipped head known read => exact scalar_leads skipped head known read enclosures
      | list skipped head advanced listed =>
          obtain ⟨middle, read, ended⟩ := enclosed_eq_ok.mp listed
          refine Leads.trans (opening_leads skipped head advanced ?_ enclosures)
            (elements_leads ih read ended enclosures)
          intro outer
          rw [stepBefore, bind_of_ok (skipBlanks_of_skipBlanks skipped), peek_bind, head]
          exact (bind_of_ok advanced _).trans rfl
      | object skipped head advanced listed =>
          obtain ⟨middle, read, ended⟩ := enclosed_eq_ok.mp listed
          refine Leads.trans (opening_leads skipped head advanced ?_ enclosures)
            (members_leads ih read ended enclosures)
          intro outer
          rw [stepBefore, bind_of_ok (skipBlanks_of_skipBlanks skipped), peek_bind, head]
          exact (bind_of_ok advanced _).trans rfl

/-- Any value that can be read can be skipped, and then just its text is passed. -/
theorem skipValue_passes (room : Nat) : skipValue.PassedBy (value room) := by
  intro cursor json next read
  obtain ⟨steps, cheaper, resumes⟩ := value_passes room [] cursor json next read
  simp only [SkipState.cost] at cheaper
  have enough : 2 * cursor.rest.length + 2 =
      steps + ((2 * cursor.rest.length + 1 - steps) + 1) := by omega
  unfold skipValue
  rw [enough]
  exact (resumes (2 * cursor.rest.length + 1 - steps + 1)).trans rfl

end BuildScribe.Reading

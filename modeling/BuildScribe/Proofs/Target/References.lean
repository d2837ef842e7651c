import Mathlib.Data.List.Infix
import Mathlib.Data.List.TakeWhile
import BuildScribe.Proofs.Target.Literals
import BuildScribe.Proofs.Target.Names

/-!
# Reading references

A reference is written as its names with points between them, and a name that is no
identifier is quoted. Groovy quotes it as a string literal, so the text tells the names
but for the receiver in front. Kotlin escapes nothing between backticks, so the text
tells the names only up to what stands between the first backtick and the last.
-/

namespace BuildScribe

/-- The parts of a path, each behind a point. -/
def pathTail (parts : List String) : List Char :=
  parts.flatMap fun part => '.' :: part.toList

theorem pathTail_cons (part : String) (rest : List String) :
    pathTail (part :: rest) = '.' :: (part.toList ++ pathTail rest) := by
  rw [pathTail, List.flatMap_cons]
  rfl

theorem pathTail_append (front rest : List String) :
    pathTail (front ++ rest) = pathTail front ++ pathTail rest :=
  List.flatMap_append

theorem toList_intercalate_cons (first : String) (rest : List String) :
    (".".intercalate (first :: rest)).toList = first.toList ++ pathTail rest := by
  induction rest generalizing first with
  | nil => simp [pathTail]
  | cons second others ih =>
      rw [String.intercalate_cons_cons, String.toList_append, String.toList_append, ih second,
        pathTail_cons, List.append_assoc]
      rfl

theorem toList_intercalate_append {front : List String} (nonempty : front ≠ [])
    (rest : List String) :
    (".".intercalate (front ++ rest)).toList =
      (".".intercalate front).toList ++ pathTail rest := by
  cases front with
  | nil => exact absurd rfl nonempty
  | cons first others =>
      rw [List.cons_append, toList_intercalate_cons, toList_intercalate_cons, pathTail_append,
        List.append_assoc]

/-- Paths are the same texts if their parts behind points are. -/
theorem intercalate_eq_iff {parts others : List String} (nonempty : parts ≠ [])
    (othersNonempty : others ≠ []) :
    ".".intercalate parts = ".".intercalate others ↔ pathTail parts = pathTail others := by
  cases parts with
  | nil => exact absurd rfl nonempty
  | cons first rest =>
      cases others with
      | nil => exact absurd rfl othersNonempty
      | cons second further =>
          rw [pathTail_cons, pathTail_cons, ← toList_intercalate_cons,
            ← toList_intercalate_cons]
          constructor
          · intro same
            rw [same]
          · intro same
            exact String.toList_injective (List.cons.inj same).2

/-- Two ways to cut a text are the same if neither front goes on where the other ends. -/
theorem append_inj_of_overlap {a b x y : List Char}
    (overlap : ∀ further, b = a ++ further → x = further ++ y → further = [])
    (otherOverlap : ∀ further, a = b ++ further → y = further ++ x → further = [])
    (same : a ++ x = b ++ y) : a = b ∧ x = y := by
  rcases List.append_eq_append_iff.mp same with ⟨further, onFront, onRest⟩ |
    ⟨further, onFront, onRest⟩
  · obtain rfl := overlap further onFront onRest
    exact ⟨by rw [onFront, List.append_nil], onRest⟩
  · obtain rfl := otherOverlap further onFront onRest
    exact ⟨by rw [onFront, List.append_nil], onRest.symm⟩

/-- What may stand behind a name of a path: nothing, or a point. -/
def EndsName (text : List Char) : Prop :=
  ∀ c, text.head? = some c → c = '.'

theorem endsName_pathTail (parts : List String) : EndsName (pathTail parts) := by
  intro c first
  cases parts with
  | nil => cases first
  | cons part rest =>
      rw [pathTail_cons] at first
      cases first
      rfl

/-- An identifier is read up to the next point. -/
theorem isIdentifier_append_inj {name other : String} (plain : isIdentifier name = true)
    (otherPlain : isIdentifier other = true) {x y : List Char} (ends : EndsName x)
    (otherEnds : EndsName y) (same : name.toList ++ x = other.toList ++ y) :
    name = other ∧ x = y := by
  have overlap {longer : String} (longerPlain : isIdentifier longer = true)
      {a front rest : List Char} (front_ends : EndsName front) :
      ∀ further, longer.toList = a ++ further → front = further ++ rest → further = [] := by
    intro further onName onFront
    cases further with
    | nil => rfl
    | cons c others =>
        obtain rfl := front_ends c (by rw [onFront]; rfl)
        have point : isIdentifierPart '.' = false := by decide
        exact absurd (by simp [onName]) (notMem_of_isIdentifier longerPlain point)
  obtain ⟨sameName, sameRest⟩ :=
    append_inj_of_overlap (overlap otherPlain ends) (overlap plain otherEnds) same
  exact ⟨String.toList_injective sameName, sameRest⟩

/-- A spelling and a form of lists of names which tails have too. The first name of such a
list can be read off the path that is written from it. -/
structure ReadsOff (spell : String → String) (form : List String → Prop) : Prop where
  tail : ∀ {name : String} {rest : List String}, form (name :: rest) → form rest
  first : ∀ {name other : String} {rest further : List String},
    form (name :: rest) → form (other :: further) →
      (spell name).toList ++ pathTail (rest.map spell) =
        (spell other).toList ++ pathTail (further.map spell) →
      name = other ∧ pathTail (rest.map spell) = pathTail (further.map spell)

/-- Names are read off a path one after the other. -/
theorem ReadsOff.pathTail_inj {spell : String → String} {form : List String → Prop}
    (reads : ReadsOff spell form) {names others : List String} (ofForm : form names)
    (othersOfForm : form others)
    (same : pathTail (names.map spell) = pathTail (others.map spell)) : names = others := by
  induction names generalizing others with
  | nil =>
      cases others with
      | nil => rfl
      | cons other further => cases same
  | cons name rest ih =>
      cases others with
      | nil => cases same
      | cons other further =>
          rw [List.map_cons, List.map_cons, pathTail_cons, pathTail_cons] at same
          obtain ⟨rfl, sameRest⟩ := reads.first ofForm othersOfForm (List.cons.inj same).2
          rw [ih (reads.tail ofForm) (reads.tail othersOfForm) sameRest]

namespace Language

/-! ### Groovy -/

/-- The names of a reference with the receiver that is written in front of a quoted first
name. -/
def withReceiver : List String → List String
  | [] => []
  | first :: rest => if isIdentifier first then first :: rest else "this" :: first :: rest

theorem withReceiver_eq_cons {names : List String} (nonempty : names ≠ []) :
    ∃ first rest, withReceiver names = first :: rest ∧ isIdentifier first = true := by
  cases names with
  | nil => exact absurd rfl nonempty
  | cons first rest =>
      by_cases plain : isIdentifier first = true
      · exact ⟨first, rest, if_pos plain, plain⟩
      · exact ⟨"this", first :: rest, if_neg plain, by decide⟩

theorem groovy_referenceText_eq (reference : Reference) :
    groovy.referenceText reference =
      ".".intercalate ((withReceiver reference.segments).map propertyName) := by
  rw [referenceText]
  cases reference.segments with
  | nil => rfl
  | cons first rest =>
      by_cases plain : isIdentifier first = true
      · simp [referenceParts, withReceiver, plain]
      · simp only [referenceParts, withReceiver, plain]
        rfl

theorem readsOff_propertyName : ReadsOff propertyName fun _ => True := by
  constructor
  · exact fun _ => trivial
  · intro name other rest further _ _ same
    have quote : isIdentifierPart groovy.quote = false := by decide
    have ends := endsName_pathTail (rest.map propertyName)
    have otherEnds := endsName_pathTail (further.map propertyName)
    generalize pathTail (rest.map propertyName) = x at same ends
    generalize pathTail (further.map propertyName) = y at same otherEnds
    unfold propertyName at same
    by_cases plain : isIdentifier name = true
    · by_cases otherPlain : isIdentifier other = true
      · rw [if_pos plain, if_pos otherPlain] at same
        exact isIdentifier_append_inj plain otherPlain ends otherEnds same
      · rw [if_pos plain, if_neg otherPlain, stringLiteral, String.toList_ofList] at same
        exact absurd same (isIdentifier_append_ne plain quote _ _)
    · by_cases otherPlain : isIdentifier other = true
      · rw [if_neg plain, if_pos otherPlain, stringLiteral, String.toList_ofList] at same
        exact absurd same.symm (isIdentifier_append_ne otherPlain quote _ _)
      · simp only [if_neg plain, if_neg otherPlain, stringLiteral, String.toList_ofList] at same
        obtain ⟨sameName, sameRest⟩ := groovy.literalChars_append_inj same
        exact ⟨String.toList_injective sameName, sameRest⟩

theorem groovy_referenceText_eq_iff (first second : Reference) :
    groovy.referenceText first = groovy.referenceText second ↔
      withReceiver first.segments = withReceiver second.segments := by
  have written (reference : Reference) :
      (withReceiver reference.segments).map propertyName ≠ [] := by
    obtain ⟨name, rest, known, _⟩ := withReceiver_eq_cons reference.segments_ne_nil
    simp [known]
  rw [groovy_referenceText_eq, groovy_referenceText_eq,
    intercalate_eq_iff (written first) (written second)]
  constructor
  · exact readsOff_propertyName.pathTail_inj trivial trivial
  · intro same
    rw [same]

/-- What a quoted name is read off: the reference of the names before it, or `this` if
there are none. -/
def receiver : List String → String
  | [] => "this"
  | names => groovy.referenceText (.ofSegments names)

/-- The names that the receiver of a quoted name is written from. -/
theorem exists_receiver (before after : List String) {odd : String}
    (quoted : isIdentifier odd = false) :
    ∃ first rest, isIdentifier first = true ∧
      withReceiver (before ++ odd :: after) = first :: rest ++ odd :: after ∧
      receiver before = ".".intercalate ((first :: rest).map propertyName) := by
  cases before with
  | nil =>
      refine ⟨"this", [], by decide, ?_, rfl⟩
      rw [List.nil_append, withReceiver, quoted]
      rfl
  | cons name others =>
      have nonempty := List.cons_ne_nil name others
      obtain ⟨first, rest, known, plain⟩ := withReceiver_eq_cons nonempty
      refine ⟨first, rest, plain, ?_, ?_⟩
      · rw [← known]
        by_cases namePlain : isIdentifier name = true <;> simp [withReceiver, namePlain]
      · rw [← known, receiver, groovy_referenceText_eq, Reference.segments_ofSegments nonempty]
        exact nofun

/-- A Groovy reference tells its names but for the receiver in front of a quoted first
name. Every name that is no identifier is quoted, and read off what stands before it. -/
theorem groovy_reference_tells_names (reference : Reference) :
    (∀ other : Reference,
      groovy.referenceText reference = groovy.referenceText other ↔
        withReceiver reference.segments = withReceiver other.segments) ∧
    ∀ (before : List String) (odd : String) (after : List String),
      reference.segments = before ++ odd :: after → isIdentifier odd = false →
        (∃ first, isIdentifier first = true ∧
          first.toList <+: (receiver before).toList) ∧
        (groovy.referenceText reference).toList =
          (receiver before ++ "." ++ groovy.stringLiteral odd).toList ++
            pathTail (after.map propertyName) := by
  refine ⟨groovy_referenceText_eq_iff reference, ?_⟩
  intro before odd after here quoted
  obtain ⟨first, rest, plain, names, text⟩ := exists_receiver before after quoted
  have spelled : propertyName odd = groovy.stringLiteral odd := by
    simp [propertyName, quoted]
  constructor
  · refine ⟨first, plain, ?_⟩
    rw [text, List.map_cons, toList_intercalate_cons, propertyName, if_pos plain]
    exact List.prefix_append _ _
  · rw [groovy_referenceText_eq, here, names, List.map_append,
      toList_intercalate_append (by simp), ← text, List.map_cons, pathTail_cons, spelled]
    simp

/-- A quoted name in the middle is read off the name before it, and a quoted first name
off `this`. -/
theorem groovy_reference_of_quoted_names :
    (groovy.referenceText (.ofSegments ["my-task", "a.b", "c"])).toList =
      (receiver ["my-task"] ++ "." ++ groovy.stringLiteral "a.b").toList ++
        pathTail (["c"].map propertyName) ∧
    groovy.referenceText (.ofSegments ["my-task", "a.b", "c"]) = "this.'my-task'.'a.b'.c" := by
  have reads := (groovy_reference_tells_names (.ofSegments ["my-task", "a.b", "c"])).2
    ["my-task"] "a.b" ["c"] (by decide) (by decide)
  exact ⟨reads.2, by decide⟩

/-! ### Kotlin -/

/-- A quoted name together with the names behind it up to the next quoted one. Where there
is a next one, the inner backticks and points become part of the name. -/
def mergeQuoted (name : String) (behind : List String) : List String :=
  match behind.dropWhile isIdentifier with
  | [] => name :: behind
  | quoted :: others =>
      ".".intercalate ((name ++ "`") :: (behind.takeWhile isIdentifier ++ ["`" ++ quoted])) ::
        others

/-- The names of a reference with all from the first quoted name to the last one taken for
a single name. -/
def mergedNames : List String → List String
  | [] => []
  | name :: rest =>
      if isIdentifier name then name :: mergedNames rest
      else mergeQuoted name (mergedNames rest)

/-- Of any two of the names, one is an identifier. -/
def QuotesOnce (names : List String) : Prop :=
  names.Pairwise fun name later => isIdentifier name = true ∨ isIdentifier later = true

theorem QuotesOnce.isIdentifier_of_mem {name : String} {rest : List String}
    (once : QuotesOnce (name :: rest)) (odd : isIdentifier name = false) :
    ∀ later ∈ rest, isIdentifier later = true :=
  fun later member =>
    ((List.pairwise_cons.mp once).1 later member).resolve_left (by simp [odd])

theorem toList_backtickedName {name : String} (odd : isIdentifier name = false) :
    (backtickedName name).toList = '`' :: (name.toList ++ ['`']) := by
  simp [backtickedName, odd]

theorem map_backtickedName {names : List String}
    (plain : ∀ name ∈ names, isIdentifier name = true) : names.map backtickedName = names := by
  have own : ∀ name ∈ names, backtickedName name = id name :=
    fun name member => if_pos (plain name member)
  rw [List.map_congr_left own, List.map_id]

theorem backtick_notMem_pathTail {names : List String}
    (plain : ∀ name ∈ names, isIdentifier name = true) :
    '`' ∉ pathTail (names.map backtickedName) := by
  rw [map_backtickedName plain, pathTail, List.mem_flatMap]
  rintro ⟨name, member, onName⟩
  rcases List.mem_cons.mp onName with impossible | onName
  · exact absurd impossible (by decide)
  · exact notMem_of_isIdentifier (plain name member) (by decide) onName

/-- A text is cut at its last backtick in one way. -/
theorem append_backtick_inj {a b x y : List Char} (onRest : '`' ∉ x) (onOther : '`' ∉ y)
    (same : a ++ '`' :: x = b ++ '`' :: y) : a = b ∧ x = y := by
  have overlap {rest front : List Char} (plain : '`' ∉ rest) {a b : List Char} :
      ∀ further, b = a ++ further → '`' :: rest = further ++ '`' :: front → further = [] := by
    intro further _ onBacktick
    cases further with
    | nil => rfl
    | cons c others =>
        obtain ⟨_, rfl⟩ := List.cons.inj onBacktick
        simp at plain
  obtain ⟨sameFront, sameRest⟩ := append_inj_of_overlap (overlap onRest) (overlap onOther) same
  exact ⟨sameFront, (List.cons.inj sameRest).2⟩

/-- A text is cut in one way at the first backtick behind which a name may end. -/
theorem append_backtick_inj_of_endsName {a b x y : List Char} (inside : ¬ ['`', '.'] <:+: a)
    (otherInside : ¬ ['`', '.'] <:+: b) (ends : EndsName x) (otherEnds : EndsName y)
    (same : a ++ '`' :: x = b ++ '`' :: y) : a = b ∧ x = y := by
  have overlap {rest front : List Char} (rest_ends : EndsName rest) {a b : List Char}
      (within : ¬ ['`', '.'] <:+: b) :
      ∀ further, b = a ++ further → '`' :: rest = further ++ '`' :: front → further = [] := by
    intro further onFront onBacktick
    cases further with
    | nil => rfl
    | cons c others =>
        obtain ⟨rfl, onRest⟩ := List.cons.inj onBacktick
        cases others with
        | nil => exact absurd (rest_ends '`' (by rw [onRest]; rfl)) (by decide)
        | cons d more =>
            obtain rfl := rest_ends d (by rw [onRest]; rfl)
            exact absurd ⟨a, more, by simp [onFront]⟩ within
  obtain ⟨sameFront, sameRest⟩ :=
    append_inj_of_overlap (overlap ends otherInside) (overlap otherEnds inside) same
  exact ⟨sameFront, (List.cons.inj sameRest).2⟩

/-- The first name of a path is read off if it is found between backticks as soon as it
has some. -/
theorem backtickedName_append_inj {name other : String} {x y : List Char}
    (ends : EndsName x) (otherEnds : EndsName y)
    (enclosed : isIdentifier name = false → isIdentifier other = false →
      name.toList ++ '`' :: x = other.toList ++ '`' :: y → name.toList = other.toList ∧ x = y)
    (same : (backtickedName name).toList ++ x = (backtickedName other).toList ++ y) :
    name = other ∧ x = y := by
  have backtick : isIdentifierPart '`' = false := by decide
  cases plain : isIdentifier name with
  | true =>
      rw [backtickedName, if_pos plain] at same
      cases otherPlain : isIdentifier other with
      | true =>
          rw [backtickedName, if_pos otherPlain] at same
          exact isIdentifier_append_inj plain otherPlain ends otherEnds same
      | false =>
          rw [toList_backtickedName otherPlain] at same
          exact absurd same (isIdentifier_append_ne plain backtick _ _)
  | false =>
      rw [toList_backtickedName plain] at same
      cases otherPlain : isIdentifier other with
      | true =>
          rw [backtickedName, if_pos otherPlain] at same
          exact absurd same.symm (isIdentifier_append_ne otherPlain backtick _ _)
      | false =>
          rw [toList_backtickedName otherPlain] at same
          obtain ⟨sameName, sameRest⟩ := enclosed plain otherPlain (by simpa using same)
          exact ⟨String.toList_injective sameName, sameRest⟩

theorem readsOff_backtickedName :
    ReadsOff backtickedName fun names => ∀ name ∈ names, ¬ ['`', '.'] <:+: name.toList := by
  constructor
  · exact fun inside => (List.forall_mem_cons.mp inside).2
  · intro name other rest further inside otherInside same
    have ends := endsName_pathTail (rest.map backtickedName)
    have otherEnds := endsName_pathTail (further.map backtickedName)
    have enclosed := @append_backtick_inj_of_endsName _ _ _ _
      (inside name List.mem_cons_self) (otherInside other List.mem_cons_self) ends otherEnds
    exact backtickedName_append_inj ends otherEnds (fun _ _ => enclosed) same

theorem readsOff_quotesOnce : ReadsOff backtickedName QuotesOnce := by
  constructor
  · exact fun once => (List.pairwise_cons.mp once).2
  · intro name other rest further once otherOnce same
    have enclosed (odd : isIdentifier name = false) (otherOdd : isIdentifier other = false) :=
      @append_backtick_inj name.toList other.toList _ _
        (backtick_notMem_pathTail (once.isIdentifier_of_mem odd))
        (backtick_notMem_pathTail (otherOnce.isIdentifier_of_mem otherOdd))
    exact backtickedName_append_inj (endsName_pathTail _) (endsName_pathTail _) enclosed same

theorem quotesOnce_mergeQuoted (name : String) {behind : List String}
    (once : QuotesOnce behind) : QuotesOnce (mergeQuoted name behind) := by
  unfold mergeQuoted
  cases known : behind.dropWhile isIdentifier with
  | nil =>
      have plain := List.dropWhile_eq_nil_iff.mp known
      exact List.pairwise_cons.mpr ⟨fun later member => .inr (plain later member), once⟩
  | cons quoted others =>
      have odd := List.head?_dropWhile_not isIdentifier behind
      have further : QuotesOnce (behind.dropWhile isIdentifier) :=
        once.sublist (List.dropWhile_sublist isIdentifier)
      rw [known] at odd further
      exact List.pairwise_cons.mpr
        ⟨fun later member => .inr (further.isIdentifier_of_mem odd later member),
          (List.pairwise_cons.mp further).2⟩

theorem pathTail_mergeQuoted {name : String} (odd : isIdentifier name = false)
    (behind : List String) :
    pathTail ((mergeQuoted name behind).map backtickedName) =
      pathTail ((name :: behind).map backtickedName) := by
  unfold mergeQuoted
  cases known : behind.dropWhile isIdentifier with
  | nil => rfl
  | cons quoted others =>
      have quotedOdd := List.head?_dropWhile_not isIdentifier behind
      have parts : behind.takeWhile isIdentifier ++ behind.dropWhile isIdentifier = behind :=
        List.takeWhile_append_dropWhile
      rw [known] at quotedOdd parts
      have plain : ∀ inner ∈ behind.takeWhile isIdentifier, isIdentifier inner = true :=
        fun inner member => List.mem_takeWhile_imp member
      have mergedOdd : isIdentifier (".".intercalate ((name ++ "`") ::
          (behind.takeWhile isIdentifier ++ ["`" ++ quoted]))) = false := by
        apply isIdentifier_eq_false _ (show isIdentifierPart '`' = false by decide)
        rw [toList_intercalate_cons]
        simp
      conv_rhs => rw [← parts]
      simp only [List.map_cons, List.map_append, pathTail_cons, pathTail_append,
        toList_backtickedName mergedOdd, toList_backtickedName odd,
        toList_backtickedName quotedOdd, map_backtickedName plain, toList_intercalate_cons]
      simp [pathTail]

theorem quotesOnce_mergedNames (names : List String) : QuotesOnce (mergedNames names) := by
  induction names with
  | nil => exact .nil
  | cons name rest ih =>
      unfold mergedNames
      split
      · exact List.pairwise_cons.mpr ⟨fun _ _ => .inl ‹_›, ih⟩
      · exact quotesOnce_mergeQuoted name ih

/-- Merging changes nothing of the text. -/
theorem pathTail_mergedNames (names : List String) :
    pathTail ((mergedNames names).map backtickedName) =
      pathTail (names.map backtickedName) := by
  induction names with
  | nil => rfl
  | cons name rest ih =>
      have behind : pathTail ((name :: mergedNames rest).map backtickedName) =
          pathTail ((name :: rest).map backtickedName) := by
        rw [List.map_cons, List.map_cons, pathTail_cons, pathTail_cons, ih]
      cases plain : isIdentifier name with
      | true => rw [mergedNames, if_pos plain, behind]
      | false =>
          rw [mergedNames, plain]
          exact (pathTail_mergeQuoted plain _).trans behind

theorem kotlin_referenceText_eq_iff (first second : Reference) :
    kotlin.referenceText first = kotlin.referenceText second ↔
      pathTail (first.segments.map backtickedName) =
        pathTail (second.segments.map backtickedName) :=
  intercalate_eq_iff (by simpa [referenceParts] using first.segments_ne_nil)
    (by simpa [referenceParts] using second.segments_ne_nil)

/-- Two Kotlin references are written alike exactly if their names agree up to what stands
between the first backtick and the last. If in no name a backtick stands before a point,
they are written alike only if they have the same names. -/
theorem kotlin_reference_tells_names (first second : Reference) :
    (kotlin.referenceText first = kotlin.referenceText second ↔
      mergedNames first.segments = mergedNames second.segments) ∧
    ((∀ name ∈ first.segments ++ second.segments, ¬ ['`', '.'] <:+: name.toList) →
      (kotlin.referenceText first = kotlin.referenceText second ↔
        first.segments = second.segments)) := by
  rw [kotlin_referenceText_eq_iff]
  constructor
  · rw [← pathTail_mergedNames first.segments, ← pathTail_mergedNames second.segments]
    constructor
    · exact readsOff_quotesOnce.pathTail_inj (quotesOnce_mergedNames first.segments)
        (quotesOnce_mergedNames second.segments)
    · intro same
      rw [same]
  · intro inside
    obtain ⟨onFirst, onSecond⟩ := List.forall_mem_append.mp inside
    constructor
    · exact readsOff_backtickedName.pathTail_inj onFirst onSecond
    · intro same
      rw [same]

/-- Backticks within the names do no harm where no point stands behind them. -/
theorem kotlin_reference_of_inner_backticks :
    (∀ name ∈ ["my-task", "a`b", "c`"] ++ ["my-task", "a`b`c"],
      ¬ ['`', '.'] <:+: name.toList) ∧
    kotlin.referenceText (.ofSegments ["my-task", "a`b", "c`"]) ≠
      kotlin.referenceText (.ofSegments ["my-task", "a`b`c"]) := by
  have inside : ∀ name ∈ ["my-task", "a`b", "c`"] ++ ["my-task", "a`b`c"],
      ¬ ['`', '.'] <:+: name.toList := by decide
  have tells := (kotlin_reference_tells_names (.ofSegments ["my-task", "a`b", "c`"])
    (.ofSegments ["my-task", "a`b`c"])).2 inside
  exact ⟨inside, fun same => absurd (tells.mp same) (by decide)⟩

/-- A single name reads as two if it closes the backticks and opens them again. -/
theorem name_breaks_out_of_backticks :
    kotlin.referenceText (.ofSegments ["a-b`.`c-d"]) =
        kotlin.referenceText (.ofSegments ["a-b", "c-d"]) ∧
      (Reference.ofSegments ["a-b`.`c-d"]).segments ≠
        (Reference.ofSegments ["a-b", "c-d"]).segments := by
  decide

end Language

end BuildScribe

/-!
# Answers of steps and traversals

A chain of steps that may fail answers with its last result or with its first fault, and so
does a traversal that checks the items of a list in order.
-/

namespace BuildScribe

variable {ε ζ σ α β γ : Type}

theorem except_bind_eq_ok {first : Except ε α} {second : α → Except ε β} {result : β} :
    (first >>= second) = .ok result ↔
      ∃ value, first = .ok value ∧ second value = .ok result := by
  cases first <;> simp [bind, Except.bind]

theorem except_mapError_eq_ok {change : ε → ζ} {answer : Except ε α} {value : α} :
    answer.mapError change = .ok value ↔ answer = .ok value := by
  cases answer with
  | error fault => constructor <;> rintro ⟨⟩
  | ok known =>
      constructor
      · rintro ⟨⟩
        rfl
      · rintro ⟨⟩
        rfl

theorem except_mapError_eq_error {change : ε → ζ} {answer : Except ε α} {fault : ζ} :
    answer.mapError change = .error fault ↔
      ∃ cause, answer = .error cause ∧ change cause = fault := by
  cases answer with
  | error cause =>
      constructor
      · rintro ⟨⟩
        exact ⟨cause, rfl, rfl⟩
      · rintro ⟨_, ⟨⟩, rfl⟩
        rfl
  | ok known =>
      constructor
      · rintro ⟨⟩
      · rintro ⟨_, ⟨⟩, _⟩

theorem except_bind_eq_error {first : Except ε α} {second : α → Except ε β} {fault : ε} :
    (first >>= second) = .error fault ↔
      first = .error fault ∨ ∃ value, first = .ok value ∧ second value = .error fault := by
  cases first <;> simp [bind, Except.bind]

theorem stateful_bind_of_ok {first : EStateM ε σ α} {state next : σ} {value : α}
    (succeeds : first state = .ok value next) (second : α → EStateM ε σ β) :
    (first >>= second) state = second value next := by
  change EStateM.bind first second state = _
  unfold EStateM.bind
  rw [succeeds]

theorem stateful_bind_of_error {first : EStateM ε σ α} {state next : σ} {fault : ε}
    (fails : first state = .error fault next) (second : α → EStateM ε σ β) :
    (first >>= second) state = .error fault next := by
  change EStateM.bind first second state = _
  unfold EStateM.bind
  rw [fails]

/-- A traversal that succeeds has found a content for every item, in order. -/
theorem mapM_eq_ok_iff {check : α → Except ε β} {holds : α → γ → Prop} {make : α → γ → β}
    (checked : ∀ item result, check item = .ok result ↔
      ∃ content, holds item content ∧ result = make item content)
    {items : List α} {results : List β} :
    items.mapM check = .ok results ↔
      ∃ pairs : List (α × γ), pairs.map (·.1) = items ∧
        (∀ pair ∈ pairs, holds pair.1 pair.2) ∧
        results = pairs.map fun pair => make pair.1 pair.2 := by
  constructor
  · intro traversed
    induction items generalizing results with
    | nil =>
        cases traversed
        exact ⟨[], rfl, nofun, rfl⟩
    | cons item rest ih =>
        rw [List.mapM_cons] at traversed
        obtain ⟨first, begun, traversed⟩ := except_bind_eq_ok.mp traversed
        obtain ⟨others, continued, traversed⟩ := except_bind_eq_ok.mp traversed
        cases traversed
        obtain ⟨content, onItem, rfl⟩ := (checked item first).mp begun
        obtain ⟨pairs, rfl, onRest, rfl⟩ := ih continued
        exact ⟨(item, content) :: pairs, rfl, List.forall_mem_cons.mpr ⟨onItem, onRest⟩, rfl⟩
  · rintro ⟨pairs, rfl, onPairs, rfl⟩
    induction pairs with
    | nil => rfl
    | cons pair rest ih =>
        rw [List.forall_mem_cons] at onPairs
        have onFirst := (checked pair.1 _).mpr ⟨pair.2, onPairs.1, rfl⟩
        rw [List.map_cons, List.mapM_cons, onFirst, ih onPairs.2]
        rfl

/-- A traversal that fails does so at the first item that is refused. -/
theorem mapM_eq_error_iff {check : α → Except ε β} {items : List α} {fault : ε} :
    items.mapM check = .error fault ↔
      ∃ front item back, items = front ++ item :: back ∧
        (∃ results, front.mapM check = .ok results) ∧ check item = .error fault := by
  constructor
  · intro failed
    induction items with
    | nil => cases failed
    | cons item rest ih =>
        rw [List.mapM_cons] at failed
        rcases except_bind_eq_error.mp failed with refused | ⟨first, accepted, failed⟩
        · exact ⟨[], item, rest, rfl, ⟨[], rfl⟩, refused⟩
        rcases except_bind_eq_error.mp failed with failed | ⟨others, _, impossible⟩
        · obtain ⟨front, other, back, rfl, ⟨results, passed⟩, refused⟩ := ih failed
          refine ⟨item :: front, other, back, rfl, ⟨first :: results, ?_⟩, refused⟩
          rw [List.mapM_cons, accepted, passed]
          rfl
        · cases impossible
  · rintro ⟨front, item, back, rfl, ⟨results, passed⟩, refused⟩
    rw [List.mapM_append, passed, List.mapM_cons, refused]
    rfl

theorem mapM_eq_error {check : α → Except ε β} {items : List α} {fault : ε}
    (failed : items.mapM check = .error fault) :
    ∃ item ∈ items, check item = .error fault := by
  obtain ⟨front, item, back, rfl, _, refused⟩ := mapM_eq_error_iff.mp failed
  exact ⟨item, List.mem_append_right front List.mem_cons_self, refused⟩

end BuildScribe

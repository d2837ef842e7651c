/-!
# Histories

A run leads from one state to another, and its history lists what happened on the way. What
holds at the start and is kept by every step, whatever has happened before it, holds after
every run. A history is also read backwards, for the most recent event of some form.
-/

namespace BuildScribe

variable {σ τ ε φ α : Type}

/-- A run between two states, with its history. -/
inductive Run (next : σ → ε → σ → Prop) : σ → List ε → σ → Prop where
  | done (state : σ) : Run next state [] state
  | step {first second last : σ} {event : ε} {later : List ε} :
      next first event second → Run next second later last →
        Run next first (event :: later) last

namespace Run

variable {next : σ → ε → σ → Prop} {start state : σ} {past later : List ε}

/-- What every step keeps, a run keeps behind any earlier history. -/
theorem keeps {holds : List ε → σ → Prop} (run : Run next start later state)
    (kept : ∀ {past before event after},
      holds past before → next before event after → holds (past ++ [event]) after)
    (begun : holds past start) : holds (past ++ later) state := by
  induction run generalizing past with
  | done => simpa using begun
  | step steps _ ih =>
      have grown := ih (kept begun steps)
      simpa using grown

/-- What holds at the start and is kept by every step holds after every run. -/
theorem invariant {holds : List ε → σ → Prop} (run : Run next start past state)
    (begun : holds [] start)
    (kept : ∀ {past before event after},
      holds past before → next before event after → holds (past ++ [event]) after) :
    holds past state :=
  run.keeps kept begun

/-- A part of the state runs by itself, with the events that concern it as its history. -/
theorem project {follows : τ → φ → τ → Prop} (view : σ → τ) (record : ε → Option φ)
    (unseen : ∀ {before event after},
      next before event after → record event = none → view after = view before)
    (seen : ∀ {before event after recorded}, next before event after →
      record event = some recorded → follows (view before) recorded (view after))
    (run : Run next start past state) :
    Run follows (view start) (past.filterMap record) (view state) := by
  induction run with
  | done state => exact .done (view state)
  | @step first second last event later steps _ ih =>
      cases recording : record event with
      | none =>
          rw [List.filterMap_cons_none recording, ← unseen steps recording]
          exact ih
      | some recorded =>
          rw [List.filterMap_cons_some recording]
          exact .step (seen steps recording) ih

/-- Events that leave the state as it is can be left out. -/
theorem without (idle : ε → Bool)
    (unchanged : ∀ {before event after},
      next before event after → idle event = true → after = before)
    (run : Run next start past state) : Run next start (past.filter (!idle ·)) state := by
  rw [← List.filterMap_eq_filter]
  refine run.project id _ ?_ ?_
  · intro before event after steps unseen
    rw [Option.guard_eq_none_iff, Bool.not_eq_false'] at unseen
    exact unchanged steps unseen
  · intro before event after recorded steps seen
    rw [Option.guard_eq_some_iff] at seen
    exact seen.1 ▸ steps

end Run

/-- One more event adds what is read from it. -/
theorem filterMap_concat (reading : ε → Option α) (past : List ε) (event : ε) :
    (past ++ [event]).filterMap reading = past.filterMap reading ++ (reading event).toList := by
  rw [List.filterMap_append]
  cases read : reading event with
  | none => rw [List.filterMap_cons_none read]; rfl
  | some value => rw [List.filterMap_cons_some read]; rfl

theorem filterMap_concat_of_none {reading : ε → Option α} {event : ε}
    (unread : reading event = none) (past : List ε) :
    (past ++ [event]).filterMap reading = past.filterMap reading := by
  rw [filterMap_concat, unread, Option.toList_none, List.append_nil]

/-- What the last event of a certain form says. -/
def mostRecent? (reading : ε → Option α) (past : List ε) : Option α :=
  past.reverse.findSome? reading

theorem mostRecent?_cons (reading : ε → Option α) (event : ε) (later : List ε) :
    mostRecent? reading (event :: later) =
      (mostRecent? reading later).or (reading event) := by
  rw [mostRecent?, List.reverse_cons, List.findSome?_append, List.findSome?_singleton]
  rfl

theorem mostRecent?_concat (reading : ε → Option α) (past : List ε) (event : ε) :
    mostRecent? reading (past ++ [event]) =
      (reading event).or (mostRecent? reading past) := by
  rw [mostRecent?, List.reverse_concat, List.findSome?_cons]
  cases reading event <;> rfl

theorem findSome?_filterMap (reading : φ → Option α) (record : ε → Option φ) (past : List ε) :
    (past.filterMap record).findSome? reading =
      past.findSome? fun event => (record event).bind reading := by
  rw [← List.head?_filterMap, List.filterMap_filterMap, List.head?_filterMap]

theorem mostRecent?_filterMap (reading : φ → Option α) (record : ε → Option φ)
    (past : List ε) :
    mostRecent? reading (past.filterMap record) =
      mostRecent? (fun event => (record event).bind reading) past := by
  rw [mostRecent?, ← List.filterMap_reverse, findSome?_filterMap]
  rfl

end BuildScribe

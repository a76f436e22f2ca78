import Mathlib

namespace AiFirewall

/-!
# Runs of a deterministic machine

A run is a start state and a list of events.  A condition on a run speaks of
each event together with the events before it, so that it can mention both
the history and the state the event meets.  The one rule here carries a
property along such a run, event by event.
-/

namespace Runs

variable {State Event : Type*}

/-- The state after a list of events. -/
def run
    (step : State → Event → State)
    (start : State)
    (events : List Event) : State :=
  events.foldl step start

@[simp] theorem run_nil
    (step : State → Event → State)
    (start : State) :
    run step start [] = start :=
  rfl

@[simp] theorem run_concat
    (step : State → Event → State)
    (start : State)
    (past : List Event)
    (event : Event) :
    run step start (past ++ [event]) =
      step (run step start past) event := by
  simp [run]

theorem run_append
    (step : State → Event → State)
    (start : State)
    (past later : List Event) :
    run step start (past ++ later) =
      run step (run step start past) later := by
  simp [run]

/-- Every event of a run meets a condition on the events before it. -/
def Stepwise
    (condition : List Event → Event → Prop)
    (events : List Event) : Prop :=
  ∀ past event rest,
    events = past ++ event :: rest → condition past event

namespace Stepwise

variable {condition : List Event → Event → Prop}

theorem nil : Stepwise condition [] := by
  intro past event rest shape
  simp at shape

/-- The events before a point of a run meet the condition as well. -/
theorem before
    {past later : List Event}
    (met : Stepwise condition (past ++ later)) :
    Stepwise condition past := by
  intro earlier event rest shape
  exact met earlier event (rest ++ later) (by simp [shape])

theorem last
    {past : List Event}
    {event : Event}
    (met : Stepwise condition (past ++ [event])) :
    condition past event :=
  met past event [] rfl

theorem concat
    {past : List Event}
    {event : Event}
    (met : Stepwise condition past)
    (holds : condition past event) :
    Stepwise condition (past ++ [event]) := by
  intro earlier next rest shape
  rcases List.eq_nil_or_concat rest with isLast | ⟨front, final, isLonger⟩
  · subst isLast
    obtain ⟨samePast, sameEvent⟩ := List.append_inj' shape rfl
    injection sameEvent with sameEvent _
    subst samePast
    subst sameEvent
    exact holds
  · subst isLonger
    have regrouped :
        past ++ [event] = (earlier ++ next :: front) ++ [final] := by
      simpa using shape
    exact met earlier next front (List.append_inj' regrouped rfl).1

/-- A condition that holds at every position of the list of events. -/
theorem of_positions
    {events : List Event}
    (met :
      ∀ position : Fin events.length,
        condition (events.take position) (events.get position)) :
    Stepwise condition events := by
  intro past event rest shape
  subst shape
  have inBounds : past.length < (past ++ event :: rest).length := by
    simp
  simpa using met ⟨past.length, inBounds⟩

theorem and
    {other : List Event → Event → Prop}
    {events : List Event}
    (met : Stepwise condition events)
    (otherMet : Stepwise other events) :
    Stepwise (fun past event => condition past event ∧ other past event)
      events :=
  fun past event rest shape =>
    ⟨met past event rest shape, otherMet past event rest shape⟩

/-- A property that every conditioned step preserves holds after the run. -/
theorem invariant
    {step : State → Event → State}
    {start : State}
    (holds : List Event → State → Prop)
    (initially : holds [] start)
    (preserved :
      ∀ past event,
        condition past event →
        holds past (run step start past) →
        holds (past ++ [event])
          (step (run step start past) event))
    {events : List Event}
    (met : Stepwise condition events) :
    holds events (run step start events) := by
  induction events using List.reverseRecOn with
  | nil =>
      exact initially
  | append_singleton past event inductionHypothesis =>
      rw [run_concat]
      exact preserved past event met.last
        (inductionHypothesis met.before)

end Stepwise

end Runs

end AiFirewall

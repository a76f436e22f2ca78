import AiFirewall.Runs

namespace AiFirewall

/-!
# What a run gives out

Each step of a machine may put out some items.  The outputs of a run are
those of its steps, in order.  Where every step takes from the front of a
queue what one machine puts out and adds at its end what another one does,
nothing is lost, invented or overtaken over a whole run.
-/

namespace Runs

variable {State Event Item : Type*}

/-- The items that the steps of a run put out. -/
def outputs
    (step : State → Event → State)
    (emit : State → Event → List Item) :
    State → List Event → List Item
  | _, [] => []
  | state, event :: rest =>
      emit state event ++ outputs step emit (step state event) rest

section

variable
  {step : State → Event → State}
  {emit : State → Event → List Item}

@[simp] theorem outputs_nil (start : State) :
    outputs step emit start [] = [] :=
  rfl

theorem outputs_append
    (start : State)
    (past later : List Event) :
    outputs step emit start (past ++ later) =
      outputs step emit start past ++
        outputs step emit (run step start past) later := by
  induction past generalizing start with
  | nil =>
      rfl
  | cons event rest inductionHypothesis =>
      rw [List.cons_append, outputs, inductionHypothesis, outputs,
        List.append_assoc]
      rfl

@[simp] theorem outputs_concat
    (start : State)
    (past : List Event)
    (event : Event) :
    outputs step emit start (past ++ [event]) =
      outputs step emit start past ++
        emit (run step start past) event := by
  rw [outputs_append, outputs, outputs_nil, List.append_nil]

/-- What has left a queue and what is in it is what was put into it. -/
theorem outputs_conserved
    {takes puts : State → Event → List Item}
    (queue : State → List Item)
    (conserved :
      ∀ state event,
        takes state event ++ queue (step state event) =
          queue state ++ puts state event)
    (start : State)
    (events : List Event) :
    outputs step takes start events ++ queue (run step start events) =
      queue start ++ outputs step puts start events := by
  induction events using List.reverseRecOn with
  | nil =>
      rw [outputs_nil, outputs_nil, run_nil, List.nil_append, List.append_nil]
  | append_singleton past event inductionHypothesis =>
      rw [outputs_concat, outputs_concat, run_concat, List.append_assoc,
        conserved, ← List.append_assoc, inductionHypothesis,
        List.append_assoc]

end

end Runs

end AiFirewall

import Mathlib

namespace AiFirewall

/-!
# Writes that may be refused, without roll back

A procedure writes item after item to a device.  The device may refuse any
write; a refused write changes nothing, ends the procedure with an error and
leaves the writes before it in place.  `EStateM` has this reading already:
an error keeps the state it was raised in.  This module names the loop of
such writes and says what it leaves behind in both outcomes.

Many procedures look at the state first and write what is missing.  Where one
part does not disturb what another looks at, the writes of the whole can be
told in advance; `Planned` says so and composes.

`HashSet` and `IterOrder` are the collections such loops run over: a set
remembers its elements in some order, and an iteration may visit them in any
other one.
-/

namespace FallibleWrites

variable {Item State Failure Component : Type}

/-- One write: accepted with the changed state, or refused. -/
def write
    (accept? : State → Option State)
    (reason : Failure) :
    EStateM Failure State Unit :=
  fun state =>
    match accept? state with
    | some changed => .ok () changed
    | none => .error reason state

/-- The accepted writes of a list, in order, from one state to another. -/
inductive Written
    (accept? : Item → State → Option State) :
    List Item → State → State → Prop where
  | nil (state : State) :
      Written accept? [] state state
  | cons
      {item : Item}
      {rest : List Item}
      {before middle after : State} :
      accept? item before = some middle →
      Written accept? rest middle after →
      Written accept? (item :: rest) before after

/-- A list of writes comes to an end at a refused one. -/
def Stopped
    (accept? : Item → State → Option State)
    (items : List Item)
    (before after : State) : Prop :=
  ∃ done item rest,
    items = done ++ item :: rest ∧
      Written accept? done before after ∧
      accept? item after = none

/-- The items of a list up to the first refused one. -/
def accepted
    (accept? : Item → State → Option State) :
    List Item → State → List Item
  | [], _ => []
  | item :: rest, state =>
      match accept? item state with
      | some changed => item :: accepted accept? rest changed
      | none => []

theorem mem_of_mem_accepted
    {accept? : Item → State → Option State}
    {items : List Item}
    {item : Item}
    {state : State}
    (member : item ∈ accepted accept? items state) :
    item ∈ items := by
  induction items generalizing state with
  | nil =>
      cases member
  | cons head rest inductionHypothesis =>
      rw [accepted] at member
      split at member
      · rcases List.mem_cons.mp member with isHead | inRest
        · exact isHead ▸ List.mem_cons_self
        · exact List.mem_cons_of_mem _ (inductionHypothesis inRest)
      · cases member

namespace Written

variable {accept? : Item → State → Option State}

/-- A property that every accepted write keeps holds after all of them. -/
theorem preserves
    {items : List Item}
    {before after : State}
    (written : Written accept? items before after)
    (property : State → Prop)
    (step :
      ∀ item ∈ items, ∀ first second,
        property first →
        accept? item first = some second →
        property second)
    (holds : property before) :
    property after := by
  induction written with
  | nil state =>
      exact holds
  | cons accepted _ inductionHypothesis =>
      obtain ⟨head, tail⟩ := List.forall_mem_cons.mp step
      exact inductionHypothesis tail (head _ _ holds accepted)

/-- What no write of the list touches stays as it was. -/
theorem frame
    {items : List Item}
    {before after : State}
    (written : Written accept? items before after)
    (get : State → Component)
    (foreign :
      ∀ item ∈ items, ∀ first second,
        accept? item first = some second → get second = get first) :
    get after = get before :=
  written.preserves (fun state => get state = get before)
    (fun item member first second same accepted =>
      (foreign item member first second accepted).trans same)
    rfl

theorem append_iff
    {first second : List Item}
    {before after : State} :
    Written accept? (first ++ second) before after ↔
      ∃ middle,
        Written accept? first before middle ∧
          Written accept? second middle after := by
  induction first generalizing before with
  | nil =>
      constructor
      · intro written
        exact ⟨before, .nil before, written⟩
      · rintro ⟨middle, nothing, written⟩
        cases nothing
        exact written
  | cons item rest inductionHypothesis =>
      constructor
      · intro written
        cases written with
        | cons accepted restWritten =>
            obtain ⟨middle, firstWritten, secondWritten⟩ :=
              inductionHypothesis.mp restWritten
            exact ⟨middle, .cons accepted firstWritten, secondWritten⟩
      · rintro ⟨middle, firstWritten, secondWritten⟩
        cases firstWritten with
        | cons accepted restWritten =>
            exact .cons accepted
              (inductionHypothesis.mpr ⟨middle, restWritten, secondWritten⟩)

/-- The last write of a list leads to the state after the list. -/
theorem last
    {items : List Item}
    {item : Item}
    {before after : State}
    (written : Written accept? (items ++ [item]) before after) :
    ∃ middle,
      Written accept? items before middle ∧
        accept? item middle = some after := by
  obtain ⟨middle, front, final⟩ := append_iff.mp written
  cases final with
  | cons accepted nothing =>
      cases nothing
      exact ⟨middle, front, accepted⟩

/-- Accepted writes lead to one state only. -/
theorem unique
    {items : List Item}
    {before first second : State}
    (written : Written accept? items before first)
    (other : Written accept? items before second) :
    first = second := by
  induction written with
  | nil state =>
      cases other
      rfl
  | cons accepted _ inductionHypothesis =>
      cases other with
      | cons otherAccepted otherRest =>
          rw [accepted] at otherAccepted
          cases otherAccepted
          exact inductionHypothesis otherRest

/-- A list that is written is accepted as a whole. -/
theorem accepted_eq
    {items : List Item}
    {before after : State}
    (written : Written accept? items before after) :
    accepted accept? items before = items := by
  induction written with
  | nil state =>
      rfl
  | cons isAccepted _ inductionHypothesis =>
      rw [accepted, isAccepted]
      exact congrArg _ inductionHypothesis

end Written

namespace Stopped

variable {accept? : Item → State → Option State}

theorem append_iff
    {first second : List Item}
    {before after : State} :
    Stopped accept? (first ++ second) before after ↔
      Stopped accept? first before after ∨
        ∃ middle,
          Written accept? first before middle ∧
            Stopped accept? second middle after := by
  constructor
  · rintro ⟨done, item, rest, shape, written, refused⟩
    rcases List.append_eq_append_iff.mp shape with
      ⟨more, isDone, isSecond⟩ | ⟨more, isFirst, isRest⟩
    · subst isDone
      obtain ⟨middle, firstWritten, moreWritten⟩ :=
        Written.append_iff.mp written
      exact .inr ⟨middle, firstWritten,
        more, item, rest, isSecond, moreWritten, refused⟩
    · cases more with
      | nil =>
          rw [List.append_nil] at isFirst
          subst isFirst
          exact .inr ⟨after, written,
            [], item, rest, isRest.symm, .nil after, refused⟩
      | cons head tail =>
          injection isRest with isHead _
          subst isHead
          exact .inl ⟨done, item, tail, isFirst, written, refused⟩
  · rintro (⟨done, item, rest, shape, written, refused⟩ |
      ⟨middle, firstWritten, done, item, rest, shape, written, refused⟩)
    · exact ⟨done, item, rest ++ second, by simp [shape], written, refused⟩
    · exact ⟨first ++ done, item, rest, by simp [shape],
        Written.append_iff.mpr ⟨middle, firstWritten, written⟩, refused⟩

/-- A list does not come to an end at a write that is always accepted. -/
theorem of_accepted_last
    {items : List Item}
    {item : Item}
    {before after : State}
    (accepted : ∀ state, accept? item state ≠ none)
    (stopped : Stopped accept? (items ++ [item]) before after) :
    Stopped accept? items before after := by
  rcases append_iff.mp stopped with
    early | ⟨middle, _, done, refused, rest, shape, _, isRefused⟩
  · exact early
  · rcases List.append_eq_singleton_iff.mp shape.symm with
      ⟨_, isLast⟩ | ⟨_, isNil⟩
    · injection isLast with isItem _
      subst isItem
      exact absurd isRefused (accepted after)
    · cases isNil

/-- Up to the refused item, a list is written. -/
theorem written_accepted
    {items : List Item}
    {before after : State}
    (stopped : Stopped accept? items before after) :
    Written accept? (accepted accept? items before) before after := by
  obtain ⟨done, item, rest, shape, written, refused⟩ := stopped
  subst shape
  induction written with
  | nil state =>
      rw [List.nil_append, accepted, refused]
      exact .nil state
  | cons isAccepted _ inductionHypothesis =>
      rw [List.cons_append, accepted, isAccepted]
      exact .cons isAccepted (inductionHypothesis refused)

/-- What no write of the list touches stays as it was. -/
theorem frame
    {items : List Item}
    {before after : State}
    (stopped : Stopped accept? items before after)
    (get : State → Component)
    (foreign :
      ∀ item ∈ items, ∀ first second,
        accept? item first = some second → get second = get first) :
    get after = get before := by
  obtain ⟨done, item, rest, shape, written, _⟩ := stopped
  refine written.frame get fun earlier member => foreign earlier ?_
  rw [shape]
  exact List.mem_append_left _ member

/-- No accepted writes go on where a refused one ends a list. -/
private theorem not_written_beyond
    {done rest : List Item}
    {item : Item}
    {before here after : State}
    (written : Written accept? done before here)
    (refused : accept? item here = none) :
    ¬Written accept? (done ++ item :: rest) before after := by
  intro longer
  obtain ⟨middle, toMiddle, fromMiddle⟩ := Written.append_iff.mp longer
  rw [toMiddle.unique written] at fromMiddle
  cases fromMiddle with
  | cons accepted _ =>
      rw [refused] at accepted
      cases accepted

/-- A list of writes comes to an end at one write only. -/
theorem unique
    {done otherDone rest otherRest : List Item}
    {item other : Item}
    {before after otherAfter : State}
    (shape : done ++ item :: rest = otherDone ++ other :: otherRest)
    (written : Written accept? done before after)
    (refused : accept? item after = none)
    (otherWritten : Written accept? otherDone before otherAfter)
    (otherRefused : accept? other otherAfter = none) :
    done = otherDone ∧ after = otherAfter := by
  rcases List.append_eq_append_iff.mp shape with
    ⟨more, isOther, isRest⟩ | ⟨more, isDone, isRest⟩
  · cases more with
    | nil =>
        rw [List.append_nil] at isOther
        subst isOther
        exact ⟨rfl, written.unique otherWritten⟩
    | cons head tail =>
        injection isRest with isHead _
        subst isHead
        subst isOther
        exact absurd otherWritten (not_written_beyond written refused)
  · cases more with
    | nil =>
        rw [List.append_nil] at isDone
        subst isDone
        exact ⟨rfl, written.unique otherWritten⟩
    | cons head tail =>
        injection isRest with isHead _
        subst isHead
        subst isDone
        exact absurd written (not_written_beyond otherWritten otherRefused)

end Stopped

section

variable
  {accept? : Item → State → Option State}
  {reason : Item → Failure}

/-- A loop of writes succeeds exactly when every write is accepted. -/
theorem forM_write_ok
    {items : List Item}
    {before after : State} :
    (forM items fun item =>
        write (accept? item) (reason item)).run before =
        .ok () after ↔
      Written accept? items before after := by
  induction items generalizing before with
  | nil =>
      constructor
      · intro finished
        injection finished with _ same
        subst same
        exact .nil before
      · rintro ⟨_⟩
        rfl
  | cons item rest inductionHypothesis =>
      rw [List.forM_cons, EStateM.run_bind]
      cases accepted : accept? item before with
      | none =>
          constructor
          · intro finished
            simp [EStateM.run, write, accepted] at finished
          · intro written
            cases written with
            | cons headAccepted _ =>
                rw [accepted] at headAccepted
                cases headAccepted
      | some middle =>
          have head :
              (write (accept? item) (reason item)).run before =
                .ok () middle := by
            simp [EStateM.run, write, accepted]
          rw [head]
          constructor
          · intro finished
            exact .cons accepted (inductionHypothesis.mp finished)
          · intro written
            cases written with
            | cons headAccepted restWritten =>
                rw [accepted] at headAccepted
                injection headAccepted with same
                subst same
                exact inductionHypothesis.mpr restWritten

/-- A loop of writes fails exactly when it comes to a refused one. -/
theorem forM_write_error
    {items : List Item}
    {before after : State} :
    (∃ failure,
        (forM items fun item =>
          write (accept? item) (reason item)).run before =
          .error failure after) ↔
      Stopped accept? items before after := by
  induction items generalizing before with
  | nil =>
      constructor
      · rintro ⟨failure, failed⟩
        simp [pure, EStateM.pure, EStateM.run] at failed
      · rintro ⟨done, item, rest, shape, _⟩
        simp at shape
  | cons first rest inductionHypothesis =>
      rw [List.forM_cons, EStateM.run_bind]
      cases accepted : accept? first before with
      | none =>
          have head :
              (write (accept? first) (reason first)).run before =
                .error (reason first) before := by
            simp [EStateM.run, write, accepted]
          rw [head]
          constructor
          · rintro ⟨failure, failed⟩
            injection failed with _ sameState
            subst sameState
            exact ⟨[], first, rest, rfl, .nil _, accepted⟩
          · rintro ⟨done, item, later, shape, written, refused⟩
            cases written with
            | nil => exact ⟨reason first, rfl⟩
            | cons headAccepted _ =>
                injection shape with sameItem _
                subst sameItem
                rw [accepted] at headAccepted
                cases headAccepted
      | some middle =>
          have head :
              (write (accept? first) (reason first)).run before =
                .ok () middle := by
            simp [EStateM.run, write, accepted]
          rw [head]
          constructor
          · intro failed
            obtain ⟨done, item, later, shape, written, refused⟩ :=
              inductionHypothesis.mp failed
            exact ⟨first :: done, item, later, by rw [shape]; rfl,
              .cons accepted written, refused⟩
          · rintro ⟨done, item, later, shape, written, refused⟩
            cases written with
            | nil =>
                injection shape with sameItem _
                subst sameItem
                rw [accepted] at refused
                cases refused
            | cons headAccepted restWritten =>
                injection shape with sameItem restShape
                subst sameItem
                rw [accepted] at headAccepted
                injection headAccepted with same
                subst same
                exact inductionHypothesis.mpr
                  ⟨_, item, later, restShape, restWritten, refused⟩

end

/--
A procedure whose writes can be told in advance from the state it starts in:
it performs the planned writes, one after the other.
-/
def Planned
    (accept? : Item → State → Option State)
    (reason : Item → Failure)
    (body : EStateM Failure State Unit)
    (plan : State → List Item) : Prop :=
  ∀ state,
    body.run state =
      (forM (plan state) fun item =>
        write (accept? item) (reason item)).run state

namespace Planned

variable
  {accept? : Item → State → Option State}
  {reason : Item → Failure}
  {body next : EStateM Failure State Unit}
  {plan nextPlan : State → List Item}

theorem loop (items : List Item) :
    Planned accept? reason
      (forM items fun item => write (accept? item) (reason item))
      (fun _ => items) :=
  fun _ => rfl

theorem single (item : Item) :
    Planned accept? reason (write (accept? item) (reason item))
      (fun _ => [item]) := by
  intro state
  rw [List.forM_cons, EStateM.run_bind]
  cases (write (accept? item) (reason item)).run state <;> rfl

/-- A procedure that looks at the state before it writes. -/
theorem read
    {body : State → EStateM Failure State Unit}
    {plan : State → State → List Item}
    (planned : ∀ seen, Planned accept? reason (body seen) (plan seen)) :
    Planned accept? reason (get >>= body) (fun state => plan state state) :=
  fun state => planned state state

/-- A sequence, if the first part does not change the second one's plan. -/
theorem seq
    (first : Planned accept? reason body plan)
    (second : Planned accept? reason next nextPlan)
    (stable :
      ∀ before after,
        Written accept? (plan before) before after →
        nextPlan after = nextPlan before) :
    Planned accept? reason (body >>= fun _ => next)
      (fun state => plan state ++ nextPlan state) := by
  intro state
  rw [List.forM_append, EStateM.run_bind, EStateM.run_bind, ← first state]
  cases ran : body.run state with
  | error failure after => rfl
  | ok result after =>
      rw [first state] at ran
      have written := forM_write_ok.mp ran
      dsimp only
      rw [second after, stable state after written]

/-- A planned procedure succeeds exactly when its plan is written. -/
theorem ok_iff
    (planned : Planned accept? reason body plan)
    {before after : State} :
    body.run before = .ok () after ↔
      Written accept? (plan before) before after := by
  rw [planned before, forM_write_ok]

/-- A planned procedure fails exactly when its plan is stopped. -/
theorem error_iff
    (planned : Planned accept? reason body plan)
    {before after : State} :
    (∃ failure, body.run before = .error failure after) ↔
      Stopped accept? (plan before) before after := by
  rw [planned before, forM_write_error]

end Planned

end FallibleWrites

/-- A hash set, with its elements in the order they went in. -/
structure HashSet (Element : Type) where
  elems : List Element
  nodup : elems.Nodup
  deriving Repr

namespace HashSet

variable {Element : Type}

instance : Membership Element (HashSet Element) where
  mem set element := element ∈ set.elems

theorem mem_iff {set : HashSet Element} {element : Element} :
    element ∈ set ↔ element ∈ set.elems :=
  Iff.rfl

/-- The set without elements. -/
def empty : HashSet Element :=
  ⟨[], List.nodup_nil⟩

@[simp] theorem notMem_empty (element : Element) :
    element ∉ (empty : HashSet Element) :=
  List.not_mem_nil

variable [DecidableEq Element]

instance (element : Element) (set : HashSet Element) :
    Decidable (element ∈ set) :=
  inferInstanceAs (Decidable (element ∈ set.elems))

/-- Add an element unless it is there already. -/
def insert (set : HashSet Element) (element : Element) :
    HashSet Element where
  elems := set.elems.insert element
  nodup := set.nodup.insert

@[simp] theorem mem_insert
    {set : HashSet Element}
    {added element : Element} :
    element ∈ set.insert added ↔ element = added ∨ element ∈ set := by
  simp [mem_iff, insert]

/-- The set of the elements of a list. -/
def ofList (items : List Element) : HashSet Element :=
  items.foldl insert empty

private theorem mem_foldl_insert
    (items : List Element)
    (set : HashSet Element)
    (element : Element) :
    element ∈ items.foldl insert set ↔
      element ∈ items ∨ element ∈ set := by
  induction items generalizing set with
  | nil =>
      simp
  | cons item rest inductionHypothesis =>
      rw [List.foldl_cons, inductionHypothesis, mem_insert,
        List.mem_cons]
      tauto

@[simp] theorem mem_ofList
    {items : List Element}
    {element : Element} :
    element ∈ ofList items ↔ element ∈ items := by
  simp [ofList, mem_foldl_insert]

omit [DecidableEq Element] in
/-- The number of elements of a set. -/
theorem length_elems (set : HashSet Element) :
    set.elems.length = Set.ncard {element | element ∈ set} := by
  classical
  have sameSet :
      {element | element ∈ set} = (set.elems.toFinset : Set Element) := by
    ext element
    simp [mem_iff]
  rw [sameSet, Set.ncard_coe_finset, List.toFinset_card_of_nodup set.nodup]

/-- The elements of a set that another one lacks. -/
def difference (set other : HashSet Element) : List Element :=
  set.elems.filter fun element => element ∉ other

@[simp] theorem mem_difference
    {set other : HashSet Element}
    {element : Element} :
    element ∈ set.difference other ↔ element ∈ set ∧ element ∉ other := by
  simp [difference, mem_iff]

theorem nodup_difference (set other : HashSet Element) :
    (set.difference other).Nodup :=
  set.nodup.filter _

end HashSet

/-- The order in which an iteration visits a collection: any permutation. -/
structure IterOrder where
  visit : {Element : Type} → List Element → List Element
  perm : ∀ {Element : Type} (items : List Element),
    (visit items).Perm items

namespace IterOrder

/-- The order in which the elements went in. -/
def insertion : IterOrder where
  visit := id
  perm := fun items => List.Perm.refl items

@[simp] theorem mem_visit
    (order : IterOrder)
    {Element : Type}
    {items : List Element}
    {element : Element} :
    element ∈ order.visit items ↔ element ∈ items :=
  (order.perm items).mem_iff

theorem nodup_visit
    (order : IterOrder)
    {Element : Type}
    {items : List Element} :
    (order.visit items).Nodup ↔ items.Nodup :=
  (order.perm items).nodup_iff

@[simp] theorem visit_nil
    (order : IterOrder)
    {Element : Type} :
    order.visit ([] : List Element) = [] :=
  List.Perm.eq_nil (order.perm [])

end IterOrder

end AiFirewall

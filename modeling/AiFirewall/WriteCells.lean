import AiFirewall.FallibleWrites

namespace AiFirewall

/-!
# Writes to cells

A device seen as cells, each of which holds a value.  A write concerns one
cell at most, and it is settled in a state whose cell holds already what the
write would put there.  Writes to distinct cells do not undo each other: all
of them are settled once all are written, and together they leave a cell as
it was exactly when those that concern it were settled before.
-/

namespace FallibleWrites

/-- How the writes of a device concern its cells. -/
structure Cells
    {Item State : Type}
    (accept? : Item → State → Option State) where
  Place : Type
  Value : Place → Type
  value : State → (place : Place) → Value place
  /-- The cell a write concerns. -/
  place? : Item → Option Place
  /-- The cell holds what the write would put there. -/
  Settled : Item → State → Prop
  frame :
    ∀ {item first second place},
      accept? item first = some second →
      place? item ≠ some place →
      value second place = value first place
  settles :
    ∀ {item first second},
      accept? item first = some second → Settled item second
  idle :
    ∀ {item first second place},
      accept? item first = some second →
      place? item = some place →
      Settled item first →
      value second place = value first place
  /-- Whether a write is settled can be told from its cell. -/
  settled_congr :
    ∀ {item first second place},
      place? item = some place →
      value first place = value second place →
      Settled item first →
      Settled item second

namespace Cells

variable
  {Item State : Type}
  {accept? : Item → State → Option State}
  (cells : Cells accept?)
  {items : List Item}
  {before after : State}
  {place : cells.Place}

/-- No two writes of a list concern one cell. -/
def Distinct (items : List Item) : Prop :=
  (items.filterMap cells.place?).Nodup

/-- A cell that no write concerns stays as it was. -/
theorem value_of_foreign
    (written : Written accept? items before after)
    (foreign : ∀ item ∈ items, cells.place? item ≠ some place) :
    cells.value after place = cells.value before place :=
  written.frame (fun state => cells.value state place)
    fun item member _ _ accepted =>
      cells.frame accepted (foreign item member)

/-- Settled writes leave their cell as it was. -/
theorem value_of_settled
    (written : Written accept? items before after)
    (settled :
      ∀ item ∈ items, cells.place? item = some place →
        cells.Settled item before) :
    cells.value after place = cells.value before place := by
  induction written with
  | nil state =>
      rfl
  | @cons item rest before middle after accepted _ inductionHypothesis =>
      obtain ⟨head, tail⟩ := List.forall_mem_cons.mp settled
      have first :
          cells.value middle place = cells.value before place := by
        by_cases here : cells.place? item = some place
        · exact cells.idle accepted here (head here)
        · exact cells.frame accepted here
      have later :=
        inductionHypothesis fun next member isHere =>
          cells.settled_congr isHere first.symm (tail next member isHere)
      exact later.trans first

/-- Once writes to distinct cells are made, each of them is settled. -/
theorem settled_of_written
    (written : Written accept? items before after)
    (distinct : cells.Distinct items)
    {item : Item}
    (member : item ∈ items)
    (concerns : cells.place? item = some place) :
    cells.Settled item after := by
  induction written with
  | nil state =>
      cases member
  | @cons head rest before middle after accepted restWritten
      inductionHypothesis =>
      have restDistinct : cells.Distinct rest :=
        distinct.sublist ((List.sublist_cons_self head rest).filterMap _)
      rcases List.mem_cons.mp member with isHead | inRest
      · subst isHead
        have notLater : ∀ next ∈ rest, cells.place? next ≠ some place := by
          intro next inRest same
          rw [Cells.Distinct, List.filterMap_cons_some concerns,
            List.nodup_cons] at distinct
          exact distinct.1 (List.mem_filterMap.mpr ⟨next, inRest, same⟩)
        exact cells.settled_congr concerns
          (cells.value_of_foreign restWritten notLater).symm
          (cells.settles accepted)
      · exact inductionHypothesis restDistinct inRest

/-- Writes to distinct cells keep a cell exactly when they were settled. -/
theorem value_eq_iff
    (written : Written accept? items before after)
    (distinct : cells.Distinct items) :
    cells.value after place = cells.value before place ↔
      ∀ item ∈ items, cells.place? item = some place →
        cells.Settled item before := by
  constructor
  · intro same item member concerns
    exact cells.settled_congr concerns same
      (cells.settled_of_written written distinct member concerns)
  · exact cells.value_of_settled written

end Cells

end FallibleWrites

end AiFirewall

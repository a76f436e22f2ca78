import AiFirewall.FallibleWrites

namespace AiFirewall

/-!
# Writes that take room

A device with several bounded tables.  A write of something new takes one
place in its table and is refused only when the table is full; the other
writes are always accepted.  A list of writes of different things then goes
through exactly when each table has room for those that go into it.
-/

namespace FallibleWrites

/-- How the writes of a device take room in its tables. -/
structure Bins
    {Item State : Type}
    (accept? : Item → State → Option State) where
  Bin : Type
  /-- The writes that the facts below are about. -/
  Usual : Item → Prop
  /-- The table in which a write takes room. -/
  bin? : Item → Option Bin
  size : State → Bin → Nat
  capacity : Bin → Nat
  /-- The table does not hold yet what the write is about. -/
  Vacant : Item → State → Prop
  fits : ∀ state bin, size state bin ≤ capacity bin
  free :
    ∀ {item state},
      Usual item →
      bin? item = none →
      ∃ after, accept? item state = some after
  room :
    ∀ {item state bin},
      Usual item →
      Vacant item state →
      bin? item = some bin →
      ((∃ after, accept? item state = some after) ↔
        size state bin < capacity bin)
  /-- A write into another table takes no room in this one. -/
  still :
    ∀ {item first second bin},
      Usual item →
      Vacant item first →
      accept? item first = some second →
      bin? item ≠ some bin →
      size second bin = size first bin
  grows :
    ∀ {item first second bin},
      Usual item →
      Vacant item first →
      accept? item first = some second →
      bin? item = some bin →
      size second bin = size first bin + 1

namespace Bins

variable
  {Item State : Type}
  {accept? : Item → State → Option State}
  (bins : Bins accept?)

/-- The number of writes that go into a table. -/
def load
    [DecidableEq bins.Bin]
    (items : List Item)
    (bin : bins.Bin) : Nat :=
  items.countP fun item => bins.bin? item = some bin

/-- The second write stays vacant when the first one is made. -/
def Apart (first second : Item) : Prop :=
  ∀ {before after},
    accept? first before = some after →
    bins.Vacant second before →
    bins.Vacant second after

variable
  [DecidableEq bins.Bin]
  {items : List Item}

/-- What an accepted write adds to a table is its share of the load. -/
theorem size_add_load
    {item : Item}
    {rest : List Item}
    {before after : State}
    (usual : bins.Usual item)
    (vacant : bins.Vacant item before)
    (accepted : accept? item before = some after)
    (bin : bins.Bin) :
    bins.size after bin + bins.load rest bin =
      bins.size before bin + bins.load (item :: rest) bin := by
  by_cases here : bins.bin? item = some bin
  · rw [bins.grows usual vacant accepted here, load, load,
      List.countP_cons_of_pos (by simpa using here)]
    omega
  · rw [bins.still usual vacant accepted here, load, load,
      List.countP_cons_of_neg (by simpa using here)]

/-- Writes of different new things go through when there is room for all. -/
theorem exists_written_iff
    {before : State}
    (usual : ∀ item ∈ items, bins.Usual item)
    (apart : items.Pairwise bins.Apart)
    (vacant : ∀ item ∈ items, bins.Vacant item before) :
    (∃ after, Written accept? items before after) ↔
      ∀ bin,
        bins.size before bin + bins.load items bin ≤ bins.capacity bin := by
  induction items generalizing before with
  | nil =>
      exact ⟨fun _ bin => bins.fits before bin,
        fun _ => ⟨before, .nil before⟩⟩
  | cons item rest inductionHypothesis =>
      obtain ⟨itemUsual, restUsual⟩ := List.forall_mem_cons.mp usual
      obtain ⟨itemVacant, restVacant⟩ := List.forall_mem_cons.mp vacant
      obtain ⟨itemApart, restApart⟩ := List.pairwise_cons.mp apart
      have later
          {middle : State}
          (accepted : accept? item before = some middle) :=
        inductionHypothesis restUsual restApart
          fun other member =>
            itemApart other member accepted (restVacant other member)
      constructor
      · rintro ⟨after, written⟩ bin
        cases written with
        | cons accepted restWritten =>
            rw [← bins.size_add_load itemUsual itemVacant accepted]
            exact (later accepted).mp ⟨after, restWritten⟩ bin
      · intro roomy
        have acceptable : ∃ middle, accept? item before = some middle := by
          cases goes : bins.bin? item with
          | none => exact bins.free itemUsual goes
          | some bin =>
              refine (bins.room itemUsual itemVacant goes).mpr ?_
              refine Nat.lt_of_lt_of_le ?_ (roomy bin)
              refine Nat.lt_add_of_pos_right ?_
              rw [load, List.countP_pos_iff]
              exact ⟨item, List.mem_cons_self, by simpa using goes⟩
        obtain ⟨middle, accepted⟩ := acceptable
        obtain ⟨after, restWritten⟩ :=
          (later accepted).mpr fun bin => by
            rw [bins.size_add_load itemUsual itemVacant accepted]
            exact roomy bin
        exact ⟨after, .cons accepted restWritten⟩

end Bins

end FallibleWrites

end AiFirewall

import Mathlib

namespace AiFirewall

/-!
# Windows that traffic opens

A limiter without a timer: the first arrival after a window has lapsed opens
the next one, and every other arrival is counted in the window that is open.
Time is any linear order, and a window's length is the relation that tells
which windows have lapsed.  The results bound what is admitted over any
stretch of one window's length, whichever way the windows fall.
-/

namespace WindowLimiter

/-- A window: its first arrival and the number of arrivals so far. -/
structure Window (Time : Type*) where
  opened : Time
  count : Nat
  deriving Repr, DecidableEq

/-- An arrival, and the window that counted it as it was afterwards. -/
structure Entry (Time : Type*) where
  time : Time
  window : Window Time
  deriving Repr, DecidableEq

section

variable
  {Time : Type*}
  (lapsed : Time → Time → Prop)
  [DecidableRel lapsed]

/-- The window an arrival is counted in. -/
def arrive : Option (Window Time) → Time → Window Time
  | none, time => ⟨time, 1⟩
  | some window, time =>
      if lapsed window.opened time then
        ⟨time, 1⟩
      else
        ⟨window.opened, window.count + 1⟩

/-- All arrivals with their windows, from the window that is open before. -/
def trace : Option (Window Time) → List Time → List (Entry Time)
  | _, [] => []
  | before, time :: later =>
      let window := arrive lapsed before time
      ⟨time, window⟩ :: trace (some window) later

/-- What a window that opened at a given time holds already. -/
def held [DecidableEq Time] (opened : Time) : Option (Window Time) → Nat
  | none => 0
  | some window => if window.opened = opened then window.count else 0

/-- An arrival adds at most itself to what its window holds. -/
theorem count_arrive_le
    [DecidableEq Time]
    (before : Option (Window Time))
    (time : Time) :
    (arrive lapsed before time).count ≤
      held (arrive lapsed before time).opened before + 1 := by
  cases before with
  | none =>
      exact Nat.le_refl 1
  | some window =>
      rw [arrive]
      split
      · exact Nat.le_add_left 1 _
      · rw [held, if_pos rfl]

theorem held_arrive_le
    [DecidableEq Time]
    (opened : Time)
    (before : Option (Window Time))
    (time : Time) :
    held opened (some (arrive lapsed before time)) ≤
      held opened before +
        if (arrive lapsed before time).opened = opened then 1 else 0 := by
  rw [held]
  split
  · rename_i sameOpened
    rw [← sameOpened]
    exact count_arrive_le lapsed before time
  · exact Nat.zero_le _

variable {lapsed}

/-- The entries are the arrivals, in their order. -/
theorem trace_times
    (before : Option (Window Time))
    (times : List Time) :
    (trace lapsed before times).map Entry.time = times := by
  induction times generalizing before with
  | nil =>
      rfl
  | cons time later inductionHypothesis =>
      rw [trace, List.map_cons, inductionHypothesis]

theorem count_pos
    {before : Option (Window Time)}
    {times : List Time}
    {entry : Entry Time}
    (member : entry ∈ trace lapsed before times) :
    1 ≤ entry.window.count := by
  induction times generalizing before with
  | nil =>
      cases member
  | cons time later inductionHypothesis =>
      rcases List.mem_cons.mp member with isFirst | isLater
      · subst isFirst
        cases before with
        | none =>
            exact Nat.le_refl 1
        | some window =>
            dsimp only [arrive]
            split
            · exact Nat.le_refl 1
            · exact Nat.le_add_left 1 window.count
      · exact inductionHypothesis isLater

/-- A window opens at an arrival. -/
theorem opened_mem
    {before : Option (Window Time)}
    {times : List Time}
    {entry : Entry Time}
    (member : entry ∈ trace lapsed before times) :
    (∃ window, before = some window ∧
        entry.window.opened = window.opened) ∨
      entry.window.opened ∈ times := by
  induction times generalizing before with
  | nil =>
      cases member
  | cons time later inductionHypothesis =>
      have first :
          (∃ window, before = some window ∧
              (arrive lapsed before time).opened = window.opened) ∨
            (arrive lapsed before time).opened = time := by
        cases before with
        | none =>
            exact .inr rfl
        | some window =>
            rw [arrive]
            split
            · exact .inr rfl
            · exact .inl ⟨window, rfl, rfl⟩
      have firstMem :
          (∃ window, before = some window ∧
              (arrive lapsed before time).opened = window.opened) ∨
            (arrive lapsed before time).opened ∈ time :: later := by
        refine first.imp_right fun isTime => ?_
        rw [isTime]
        exact List.mem_cons_self
      rcases List.mem_cons.mp member with isFirst | isLater
      · subst isFirst
        exact firstMem
      · rcases inductionHypothesis isLater with ⟨_, isOpen, same⟩ | inLater
        · cases isOpen
          rw [same]
          exact firstMem
        · exact .inr (List.mem_cons_of_mem time inLater)

/-- A window counts no more than what it held and the arrivals in it. -/
theorem count_le_held
    [DecidableEq Time]
    {before : Option (Window Time)}
    {times : List Time}
    {entry : Entry Time}
    (member : entry ∈ trace lapsed before times) :
    entry.window.count ≤
      held entry.window.opened before +
        (trace lapsed before times).countP
          (fun other => other.window.opened = entry.window.opened) := by
  induction times generalizing before with
  | nil =>
      cases member
  | cons time later inductionHypothesis =>
      rw [trace, List.countP_cons]
      rcases List.mem_cons.mp member with isFirst | isLater
      · subst isFirst
        have counted := count_arrive_le lapsed before time
        simp only [decide_true, if_true]
        omega
      · have counted := inductionHypothesis isLater
        have grown := held_arrive_le lapsed entry.window.opened before
          time
        simp only [decide_eq_true_eq]
        omega

/-- Counts go up one by one, so none is left out on the way. -/
theorem exists_count_eq
    {before : Option (Window Time)}
    {times : List Time}
    {entry : Entry Time}
    {count : Nat}
    (positive : 1 ≤ count)
    (below : ∀ window, before = some window → window.count < count)
    (member : entry ∈ trace lapsed before times)
    (reached : count ≤ entry.window.count) :
    ∃ other ∈ trace lapsed before times, other.window.count = count := by
  induction times generalizing before with
  | nil =>
      cases member
  | cons time later inductionHypothesis =>
      have first : (arrive lapsed before time).count ≤ count := by
        cases before with
        | none =>
            exact positive
        | some window =>
            rw [arrive]
            split
            · exact positive
            · exact below window rfl
      rcases Nat.eq_or_lt_of_le first with isCount | isBelow
      · exact ⟨_, List.mem_cons_self, isCount⟩
      · rcases List.mem_cons.mp member with isFirst | isLater
        · subst isFirst
          exact absurd reached (Nat.not_le.mpr isBelow)
        · have stillBelow :
              ∀ window, some (arrive lapsed before time) = some window →
                window.count < count := by
            intro window isOpen
            cases isOpen
            exact isBelow
          obtain ⟨other, inLater, isCount⟩ :=
            inductionHypothesis stillBelow isLater
          exact ⟨other, List.mem_cons_of_mem _ inLater, isCount⟩

/-- Started afresh, a window counts exactly arrivals that share its opening. -/
theorem count_le_sharing
    [DecidableEq Time]
    {times : List Time}
    {entry : Entry Time}
    (member : entry ∈ trace lapsed none times) :
    entry.window.count ≤
      (trace lapsed none times).countP
        (fun other => other.window.opened = entry.window.opened) := by
  have counted := count_le_held member
  rw [held, Nat.zero_add] at counted
  exact counted

end

section

variable
  {Time : Type*}
  [LE Time]
  {lapsed : Time → Time → Prop}

/-- A time at which a window opened earlier has lapsed. -/
def OpensAfter
    (lapsed : Time → Time → Prop)
    (first second : Time) : Prop :=
  first ≤ second ∧ lapsed first second

/-- The later of two entries counts on in the same window, or in a new one. -/
def Follows
    (lapsed : Time → Time → Prop)
    (first second : Entry Time) : Prop :=
  second.window.opened = first.window.opened ∧
      first.window.count < second.window.count ∨
    OpensAfter lapsed first.window.opened second.window.opened

/-- Entries of one window, none above a bound, are no more than the bound. -/
theorem length_le_of_oneWindow
    {max : Nat}
    {entries : List (Entry Time)}
    (follow : entries.Pairwise (Follows lapsed))
    (counted : ∀ entry ∈ entries, 1 ≤ entry.window.count)
    (bounded : ∀ entry ∈ entries, entry.window.count ≤ max)
    (oneWindow :
      ∀ first ∈ entries, ∀ second ∈ entries,
        ¬OpensAfter lapsed first.window.opened second.window.opened) :
    entries.length ≤ max := by
  have increasing :
      (entries.map (fun entry => entry.window.count)).Pairwise (· < ·) := by
    refine List.pairwise_map.mpr (follow.imp_of_mem ?_)
    intro first second isFirst isSecond follows
    rcases follows with ⟨_, more⟩ | opensAnew
    · exact more
    · exact absurd opensAnew (oneWindow first isFirst second isSecond)
  have within :
      entries.map (fun entry => entry.window.count) ⊆
        List.range' 1 max := by
    intro count member
    obtain ⟨entry, isEntry, rfl⟩ := List.mem_map.mp member
    have positive := counted entry isEntry
    have small := bounded entry isEntry
    exact List.mem_range'_1.mpr ⟨positive, by omega⟩
  have distinct : (entries.map (fun entry => entry.window.count)).Nodup :=
    increasing.imp Nat.ne_of_lt
  have fits := (distinct.subperm within).length_le
  rw [List.length_map, List.length_range'] at fits
  exact fits

end

section

variable
  {Time : Type*}
  [LE Time]

/-- A window lapses once, the earlier the earlier it was opened. -/
structure Lapsing (lapsed : Time → Time → Prop) : Prop where
  fresh : ∀ time, ¬lapsed time time
  later :
    ∀ {opened time next},
      opened ≤ time → time ≤ next → lapsed opened time → lapsed opened next
  earlier :
    ∀ {first opened time},
      first ≤ opened → opened ≤ time → lapsed opened time → lapsed first time

end

section

variable
  {Time : Type*}
  [LE Time]
  [Std.IsLinearPreorder Time]
  {lapsed : Time → Time → Prop}
  [DecidableRel lapsed]

/-- An arrival falls in its window. -/
theorem arrive_spans
    (lapsing : Lapsing lapsed)
    {before : Option (Window Time)}
    {time : Time}
    (opened : ∀ window, before = some window → window.opened ≤ time) :
    (arrive lapsed before time).opened ≤ time ∧
      ¬lapsed (arrive lapsed before time).opened time := by
  cases before with
  | none =>
      exact ⟨Std.le_refl time, lapsing.fresh time⟩
  | some window =>
      rw [arrive]
      split
      · exact ⟨Std.le_refl time, lapsing.fresh time⟩
      · rename_i notLapsed
        exact ⟨opened window rfl, notLapsed⟩

/-- Every entry of a trace falls in its window. -/
theorem trace_spans
    (lapsing : Lapsing lapsed)
    {before : Option (Window Time)}
    {times : List Time}
    {entry : Entry Time}
    (ordered : times.Pairwise (· ≤ ·))
    (opened :
      ∀ window, before = some window →
        ∀ time ∈ times, window.opened ≤ time)
    (member : entry ∈ trace lapsed before times) :
    entry.window.opened ≤ entry.time ∧
      ¬lapsed entry.window.opened entry.time := by
  induction times generalizing before with
  | nil =>
      cases member
  | cons time later inductionHypothesis =>
      obtain ⟨least, laterOrdered⟩ := List.pairwise_cons.mp ordered
      have first := arrive_spans lapsing fun window isBefore =>
        opened window isBefore time List.mem_cons_self
      rcases List.mem_cons.mp member with isFirst | isLater
      · subst isFirst
        exact first
      · refine inductionHypothesis laterOrdered ?_ isLater
        intro window isOpen next inLater
        cases isOpen
        exact Std.le_trans first.1 (least next inLater)

/-- After an open window every entry counts on in it, or in a new one. -/
theorem follows_open
    (lapsing : Lapsing lapsed)
    {window : Window Time}
    {times : List Time}
    {entry : Entry Time}
    (ordered : times.Pairwise (· ≤ ·))
    (opened : ∀ time ∈ times, window.opened ≤ time)
    (member : entry ∈ trace lapsed (some window) times) :
    entry.window.opened = window.opened ∧
        window.count < entry.window.count ∨
      OpensAfter lapsed window.opened entry.window.opened := by
  induction times generalizing window with
  | nil =>
      cases member
  | cons time later inductionHypothesis =>
      obtain ⟨least, laterOrdered⟩ := List.pairwise_cons.mp ordered
      have fromFirst := opened time List.mem_cons_self
      by_cases isLapsed : lapsed window.opened time
      · right
        rw [trace, arrive, if_pos isLapsed] at member
        rcases List.mem_cons.mp member with isFirst | isLater
        · subst isFirst
          exact ⟨fromFirst, isLapsed⟩
        · -- A window lapsed by now stays so for whatever opens later.
          rcases opened_mem isLater with ⟨_, isOpen, same⟩ | inLater
          · cases isOpen
            rw [same]
            exact ⟨fromFirst, isLapsed⟩
          · have after := least _ inLater
            exact ⟨Std.le_trans fromFirst after,
              lapsing.later fromFirst after isLapsed⟩
      · rw [trace, arrive, if_neg isLapsed] at member
        rcases List.mem_cons.mp member with isFirst | isLater
        · subst isFirst
          exact .inl ⟨rfl, Nat.lt_succ_self window.count⟩
        · have stillOpened :
              ∀ next ∈ later,
                (Window.mk window.opened (window.count + 1)).opened ≤ next :=
            fun next inLater =>
              opened next (List.mem_cons_of_mem time inLater)
          rcases inductionHypothesis laterOrdered stillOpened isLater with
            ⟨same, more⟩ | opensAnew
          · exact .inl ⟨same, Nat.lt_of_succ_lt more⟩
          · exact .inr opensAnew

/-- The entries of a trace follow each other. -/
theorem trace_follows
    (lapsing : Lapsing lapsed)
    {before : Option (Window Time)}
    {times : List Time}
    (ordered : times.Pairwise (· ≤ ·))
    (opened :
      ∀ window, before = some window →
        ∀ time ∈ times, window.opened ≤ time) :
    (trace lapsed before times).Pairwise (Follows lapsed) := by
  induction times generalizing before with
  | nil =>
      exact List.Pairwise.nil
  | cons time later inductionHypothesis =>
      obtain ⟨least, laterOrdered⟩ := List.pairwise_cons.mp ordered
      have first := arrive_spans lapsing fun window isBefore =>
        opened window isBefore time List.mem_cons_self
      have stillOpened :
          ∀ next ∈ later, (arrive lapsed before time).opened ≤ next :=
        fun next inLater => Std.le_trans first.1 (least next inLater)
      rw [trace]
      refine List.pairwise_cons.mpr ⟨fun entry member => ?_, ?_⟩
      · exact follows_open lapsing laterOrdered stillOpened member
      · refine inductionHypothesis laterOrdered ?_
        intro window isOpen
        cases isOpen
        exact stillOpened

section

variable
  {times : List Time}
  (lapsing : Lapsing lapsed)
  (ordered : times.Pairwise (· ≤ ·))
include lapsing ordered

theorem fresh_spans
    {entry : Entry Time}
    (member : entry ∈ trace lapsed none times) :
    entry.window.opened ≤ entry.time ∧
      ¬lapsed entry.window.opened entry.time :=
  trace_spans lapsing ordered (by simp) member

theorem fresh_follows :
    (trace lapsed none times).Pairwise (Follows lapsed) :=
  trace_follows lapsing ordered (by simp)

end

section

variable
  {max : Nat}
  {times : List Time}

/-- Whether an arrival is admitted under a limit. -/
def admitted (max : Nat) (entry : Entry Time) : Bool :=
  entry.window.count ≤ max

/-- The admitted entries with some property that keeps them in one window. -/
theorem admitted_le_of_oneWindow
    (lapsing : Lapsing lapsed)
    (ordered : times.Pairwise (· ≤ ·))
    {picked : Entry Time → Bool}
    (oneWindow :
      ∀ first ∈ trace lapsed none times, ∀ second ∈ trace lapsed none times,
        picked first = true → picked second = true →
          ¬OpensAfter lapsed first.window.opened second.window.opened) :
    (trace lapsed none times).countP
        (fun entry => admitted max entry && picked entry) ≤ max := by
  rw [List.countP_eq_length_filter]
  have chosen {entry : Entry Time}
      (member : entry ∈ (trace lapsed none times).filter
        (fun entry => admitted max entry && picked entry)) :
      entry ∈ trace lapsed none times ∧
        entry.window.count ≤ max ∧ picked entry = true := by
    obtain ⟨inTrace, both⟩ := List.mem_filter.mp member
    rw [Bool.and_eq_true, admitted, decide_eq_true_eq] at both
    exact ⟨inTrace, both⟩
  refine length_le_of_oneWindow
    ((fresh_follows lapsing ordered).filter _)
    (fun entry member => count_pos (chosen member).1)
    (fun entry member => (chosen member).2.1)
    fun first isFirst second isSecond => ?_
  obtain ⟨firstIn, _, firstPicked⟩ := chosen isFirst
  obtain ⟨secondIn, _, secondPicked⟩ := chosen isSecond
  exact oneWindow first firstIn second secondIn firstPicked secondPicked

/-- One window admits no more than the limit. -/
theorem admitted_in_window_le
    [DecidableEq Time]
    (lapsing : Lapsing lapsed)
    (ordered : times.Pairwise (· ≤ ·))
    (start : Time) :
    (trace lapsed none times).countP
        (fun entry =>
          admitted max entry && decide (entry.window.opened = start)) ≤
      max := by
  refine admitted_le_of_oneWindow lapsing ordered ?_
  intro first _ second _ firstOpened secondOpened
  rw [decide_eq_true_eq] at firstOpened secondOpened
  rw [firstOpened, secondOpened]
  exact fun opensAfter => lapsing.fresh start opensAfter.2

variable [DecidableLE Time]

/-- Whether a time falls in the stretch of one window's length after another. -/
def within
    (lapsed : Time → Time → Prop)
    [DecidableRel lapsed]
    (start time : Time) : Bool :=
  start ≤ time ∧ ¬lapsed start time

/-- A stretch of one window's length meets two windows at most. -/
theorem admitted_between_le
    (lapsing : Lapsing lapsed)
    (ordered : times.Pairwise (· ≤ ·))
    (start : Time) :
    (trace lapsed none times).countP
        (fun entry => admitted max entry && within lapsed start entry.time) ≤
      2 * max := by
  -- Its entries are in the window open at its start, or in the next one.
  have old :
      (trace lapsed none times).countP
          (fun entry => admitted max entry &&
            (within lapsed start entry.time &&
              decide (entry.window.opened ≤ start))) ≤ max := by
    refine admitted_le_of_oneWindow lapsing ordered ?_
    rintro first firstIn second secondIn firstPicked secondPicked
      ⟨inOrder, isLapsed⟩
    simp only [Bool.and_eq_true, within, decide_eq_true_eq]
      at firstPicked secondPicked
    obtain ⟨_, notLapsed⟩ := fresh_spans lapsing ordered firstIn
    have before : second.window.opened ≤ first.time :=
      Std.le_trans secondPicked.2 firstPicked.1.1
    exact notLapsed (lapsing.later inOrder before isLapsed)
  have new :
      (trace lapsed none times).countP
          (fun entry => admitted max entry &&
            (within lapsed start entry.time &&
              !decide (entry.window.opened ≤ start))) ≤ max := by
    refine admitted_le_of_oneWindow lapsing ordered ?_
    rintro first firstIn second secondIn firstPicked secondPicked
      ⟨inOrder, isLapsed⟩
    simp only [Bool.and_eq_true, within, decide_eq_true_eq, Bool.not_eq_true',
      decide_eq_false_iff_not] at firstPicked secondPicked
    obtain ⟨opened, _⟩ := fresh_spans lapsing ordered secondIn
    have lapsedByThen := lapsing.later inOrder opened isLapsed
    have after : start ≤ first.window.opened :=
      Std.le_total.resolve_right firstPicked.2
    exact secondPicked.1.2
      (lapsing.earlier after (Std.le_trans inOrder opened) lapsedByThen)
  rw [List.countP_eq_countP_filter_add _ _
      (fun entry => decide (entry.window.opened ≤ start)),
    List.countP_filter, List.countP_filter]
  simp only [Bool.and_assoc]
  omega

/-- Who never sends more than the limit in such a stretch is always admitted. -/
theorem admitted_of_quiet
    (lapsing : Lapsing lapsed)
    (ordered : times.Pairwise (· ≤ ·))
    (quiet : ∀ start, times.countP (within lapsed start) ≤ max)
    {entry : Entry Time}
    (member : entry ∈ trace lapsed none times) :
    admitted max entry = true := by
  classical
  have sharing := count_le_sharing member
  have arrivals :
      (trace lapsed none times).countP
          (within lapsed entry.window.opened ∘ Entry.time) ≤ max := by
    rw [← List.countP_map, trace_times]
    exact quiet entry.window.opened
  have inStretch :
      (trace lapsed none times).countP
          (fun other => other.window.opened = entry.window.opened) ≤
        (trace lapsed none times).countP
          (within lapsed entry.window.opened ∘ Entry.time) := by
    refine List.countP_mono_left fun other inTrace sameWindow => ?_
    have spans := fresh_spans lapsing ordered inTrace
    rw [decide_eq_true_eq] at sameWindow
    rw [sameWindow] at spans
    exact decide_eq_true spans
  rw [admitted, decide_eq_true_eq]
  exact sharing.trans (inStretch.trans arrivals)

end

end

end WindowLimiter

end AiFirewall

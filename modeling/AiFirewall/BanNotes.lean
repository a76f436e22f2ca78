import AiFirewall.Common

namespace AiFirewall

/-!
# Ban notifications

The desktop is told of bans at most once a minute; bans in between are
collected into the next note.  `BanNotes` keeps the first few by name and
counts them all.  The bans of a run are followed here in groups: one group
for each note, and the bans still pending.
-/

/-- A ban to tell of: the source and the reason, as shown. -/
abbrev BanNote := String × String

/-- What would abort the daemon in `take`. -/
inductive NotePanic where
  /-- `remove(0)` on an empty list. -/
  | removeIndex
  /-- A subtraction below zero. -/
  | subtractOverflow
  deriving Repr, DecidableEq

/-- `BanNotes`. -/
structure BanNotes where
  /-- The first few since the last notification, shown by name. -/
  shown : List BanNote
  /-- All of them, named or not: a `usize`, without a wrap here. -/
  count : Nat
  lastSent : Option U64
  deriving Repr, DecidableEq

namespace BanNotes

/-- `NOTE_INTERVAL_SECS`. -/
def intervalSecs : U64 := 60

/-- `NOTE_SHOWN`. -/
def noteShown : Nat := 3

/-- `BanNotes::default`. -/
def default : BanNotes where
  shown := []
  count := 0
  lastSent := none

def push (notes : BanNotes) (ban : BanNote) : BanNotes :=
  { notes with
    shown :=
      if notes.shown.length < noteShown then
        notes.shown ++ [ban]
      else
        notes.shown
    count := notes.count + 1 }

/-- A note is sent already in the last minute. -/
def recent (notes : BanNotes) (now : U64) : Bool :=
  notes.lastSent.any fun sent => U64.saturatingSub now sent < intervalSecs

/-- The lines of the bans shown by name. -/
def list (shown : List BanNote) : String :=
  "\n".intercalate (shown.map fun ban => ban.1 ++ ": " ++ ban.2)

/-- How many more there are. -/
def moreText (more : Nat) : String :=
  if 0 < more then "\n+" ++ Nat.repr more ++ " more" else ""

/-- The note for what is pending: its title and its body. -/
def note (notes : BanNotes) : Except NotePanic (String × String) :=
  if notes.count = 1 then
    match notes.shown with
    | [] => .error .removeIndex
    | (ip, reason) :: _ => .ok ("Banned " ++ ip, reason)
  else if notes.count < notes.shown.length then
    .error .subtractOverflow
  else
    .ok ("Banned " ++ Nat.repr notes.count ++ " sources",
      list notes.shown ++ moreText (notes.count - notes.shown.length))

/-- `take`: the notification due now, if any. -/
def take
    (notes : BanNotes)
    (now : U64) :
    Except NotePanic (Option (String × String) × BanNotes) :=
  if notes.count = 0 ∨ notes.recent now then
    .ok (none, notes)
  else do
    let note ← notes.note
    .ok (some note, { shown := [], count := 0, lastSent := some now })

/-- What is called on the notes. -/
inductive Call where
  | push (ban : BanNote)
  | take (now : U64)
  deriving Repr, DecidableEq

/-- The note a call returns, with its time, and the notes after it. -/
def call
    (notes : BanNotes) :
    Call → Except NotePanic (List (U64 × String × String) × BanNotes)
  | .push ban => .ok ([], notes.push ban)
  | .take now => do
      let (note, next) ← notes.take now
      .ok (note.toList.map fun note => (now, note), next)

/-- The notes of a run, each with the time it was returned. -/
def run
    (notes : BanNotes) :
    List Call → Except NotePanic (List (U64 × String × String) × BanNotes)
  | [] => .ok ([], notes)
  | first :: rest => do
      let (returned, next) ← notes.call first
      let (later, final) ← run next rest
      .ok (returned ++ later, final)

/-- The bans pushed by a call. -/
def Call.pushed : Call → List BanNote
  | .push ban => [ban]
  | .take _ => []

/-- The note that tells of a group of bans: the first three by name. -/
def announce : List BanNote → String × String
  | [(ip, reason)] => ("Banned " ++ ip, reason)
  | group =>
      ("Banned " ++ Nat.repr group.length ++ " sources",
        list (group.take 3) ++ moreText (group.length - 3))

/-- Groups of bans, each with the time its note was returned. -/
abbrev Groups := List (U64 × List BanNote)

/-- What links the notes to the groups sent and the bans still pending. -/
structure Holds
    (notes : BanNotes)
    (sent : Groups)
    (pending : List BanNote) : Prop where
  shown_eq : notes.shown = pending.take 3
  count_eq : notes.count = pending.length
  lastSent_eq : notes.lastSent = sent.getLast?.map Prod.fst
  spaced : sent.Pairwise fun first second =>
    first.1.toNat + 60 ≤ second.1.toNat

theorem Holds.push
    {notes : BanNotes}
    {sent : Groups}
    {pending : List BanNote}
    (holds : Holds notes sent pending)
    (ban : BanNote) :
    Holds (notes.push ban) sent (pending ++ [ban]) where
  shown_eq := by
    have shown := holds.shown_eq
    by_cases room : pending.length < 3
    · have all : pending.take 3 = pending :=
        List.take_of_length_le (by omega)
      have fits : (pending ++ [ban]).length ≤ 3 := by
        simpa using room
      rw [BanNotes.push, List.take_of_length_le fits]
      simp only [shown, all, noteShown, room, if_true]
    · have full : (pending.take 3).length = 3 := by
        rw [List.length_take]
        omega
      rw [BanNotes.push, List.take_append_of_le_length (by omega)]
      simp only [shown, full, noteShown, Nat.lt_irrefl, if_false]
  count_eq := by
    rw [List.length_append, ← holds.count_eq]
    rfl
  lastSent_eq := holds.lastSent_eq
  spaced := holds.spaced

/-- The note is the one that tells of the pending bans. -/
theorem Holds.note
    {notes : BanNotes}
    {sent : Groups}
    {pending : List BanNote}
    (holds : Holds notes sent pending)
    (notEmpty : pending ≠ []) :
    notes.note = .ok (announce pending) := by
  rw [BanNotes.note, holds.shown_eq, holds.count_eq]
  cases pending with
  | nil =>
      exact absurd rfl notEmpty
  | cons first rest =>
      cases rest with
      | nil => rfl
      | cons second others =>
          have several : (first :: second :: others).length ≠ 1 := by
            simp
          have noMore :
              ¬ (first :: second :: others).length <
                ((first :: second :: others).take 3).length := by
            rw [List.length_take]
            omega
          have more :
              (first :: second :: others).length -
                  ((first :: second :: others).take 3).length =
                (first :: second :: others).length - 3 := by
            rw [List.length_take]
            omega
          rw [if_neg several, if_neg noMore, more]
          rfl

/-- A note was returned less than a minute before `now`. -/
theorem Holds.recent_iff
    {notes : BanNotes}
    {sent : Groups}
    {pending : List BanNote}
    (holds : Holds notes sent pending)
    (now : U64) :
    notes.recent now = false ↔
      ∀ group ∈ sent, group.1.toNat + 60 ≤ now.toNat := by
  rw [recent, holds.lastSent_eq]
  have spaced := holds.spaced
  -- The last note is the only one that can be too recent.
  rcases List.eq_nil_or_concat' sent with rfl | ⟨before, last, rfl⟩
  · simp
  · have far :
        U64.saturatingSub now last.1 < intervalSecs ↔
          ¬ last.1.toNat + 60 ≤ now.toNat := by
      rw [BitVec.lt_def, U64.toNat_saturatingSub]
      have minute : intervalSecs.toNat = 60 := rfl
      omega
    rw [List.getLast?_concat]
    simp only [Option.map_some, Option.any_some, far, decide_eq_false_iff_not,
      not_not]
    constructor
    · intro lastFar group member
      rcases List.mem_append.mp member with earlier | isLast
      · have apart := (List.pairwise_append.mp spaced).2.2 group earlier
          last (List.mem_singleton_self last)
        omega
      · rw [List.mem_singleton.mp isLast]
        exact lastFar
    · intro all
      exact all last (List.mem_append_right _ (List.mem_singleton_self last))

/-- A note is due: bans are pending, and none was told of in the last minute. -/
def Due (sent : Groups) (pending : List BanNote) (now : U64) : Prop :=
  pending ≠ [] ∧ ∀ group ∈ sent, group.1.toNat + 60 ≤ now.toNat

theorem Holds.waits_iff
    {notes : BanNotes}
    {sent : Groups}
    {pending : List BanNote}
    (holds : Holds notes sent pending)
    (now : U64) :
    (notes.count = 0 ∨ notes.recent now) ↔ ¬ Due sent pending now := by
  rw [Due, ← holds.recent_iff now, holds.count_eq, List.length_eq_zero_iff,
    Bool.eq_false_iff]
  tauto

/-- Without a note due, nothing happens. -/
theorem Holds.take_waits
    {notes : BanNotes}
    {sent : Groups}
    {pending : List BanNote}
    {now : U64}
    (holds : Holds notes sent pending)
    (early : ¬ Due sent pending now) :
    notes.take now = .ok (none, notes) :=
  if_pos ((holds.waits_iff now).mpr early)

/-- The notes after a note was returned. -/
def afterNote (now : U64) : BanNotes where
  shown := []
  count := 0
  lastSent := some now

/-- A note due tells of everything pending. -/
theorem Holds.take_due
    {notes : BanNotes}
    {sent : Groups}
    {pending : List BanNote}
    {now : U64}
    (holds : Holds notes sent pending)
    (due : Due sent pending now) :
    notes.take now = .ok (some (announce pending), afterNote now) := by
  have goesOn : ¬ (notes.count = 0 ∨ notes.recent now) := by
    rw [holds.waits_iff now, not_not]
    exact due
  rw [take, if_neg goesOn, holds.note due.1]
  rfl

theorem Holds.afterNote
    {notes : BanNotes}
    {sent : Groups}
    {pending : List BanNote}
    {now : U64}
    (holds : Holds notes sent pending)
    (due : Due sent pending now) :
    Holds (afterNote now) (sent ++ [(now, pending)]) [] where
  shown_eq := rfl
  count_eq := rfl
  lastSent_eq := by
    rw [List.getLast?_concat]
    rfl
  spaced := by
    rw [List.pairwise_append]
    refine ⟨holds.spaced, List.pairwise_singleton _ _, ?_⟩
    intro group earlier last isLast
    rw [List.mem_singleton.mp isLast]
    exact due.2 group earlier

/-- The notes that tell of groups. -/
def told (groups : Groups) : List (U64 × String × String) :=
  groups.map fun group => (group.1, announce group.2)

/--
One call: it does not panic, and the bans so far and the one it pushes are
again those of the groups sent and those pending.
-/
theorem Holds.call
    {notes : BanNotes}
    {sent : Groups}
    {pending : List BanNote}
    (holds : Holds notes sent pending)
    (next : Call) :
    ∃ new left after,
      notes.call next = .ok (told new, after) ∧
      Holds after (sent ++ new) left ∧
      pending ++ next.pushed = new.flatMap Prod.snd ++ left ∧
      ∀ group ∈ new, group.2 ≠ [] := by
  cases next with
  | push ban =>
      refine ⟨[], pending ++ [ban], notes.push ban, rfl, ?_, rfl,
        List.forall_mem_nil _⟩
      rw [List.append_nil]
      exact holds.push ban
  | take now =>
      by_cases due : Due sent pending now
      · refine ⟨[(now, pending)], [], BanNotes.afterNote now, ?_,
          holds.afterNote due, ?_, ?_⟩
        · rw [BanNotes.call, holds.take_due due]
          rfl
        · simp [Call.pushed]
        · simpa using due.1
      · refine ⟨[], pending, notes, ?_, ?_, ?_, List.forall_mem_nil _⟩
        · rw [BanNotes.call, holds.take_waits due]
          rfl
        · rwa [List.append_nil]
        · simp [Call.pushed]

/-- A whole run, from any state that holds. -/
theorem Holds.run
    {notes : BanNotes}
    {sent : Groups}
    {pending : List BanNote}
    (holds : Holds notes sent pending)
    (calls : List Call) :
    ∃ new left final,
      notes.run calls = .ok (told new, final) ∧
      Holds final (sent ++ new) left ∧
      pending ++ calls.flatMap Call.pushed =
        new.flatMap Prod.snd ++ left ∧
      ∀ group ∈ new, group.2 ≠ [] := by
  induction calls generalizing notes sent pending with
  | nil =>
      refine ⟨[], pending, notes, rfl, ?_, ?_, List.forall_mem_nil _⟩
      · rwa [List.append_nil]
      · simp
  | cons first rest inductionHypothesis =>
      obtain ⟨new, left, after, returned, kept, bans, told₁⟩ := holds.call first
      obtain ⟨more, last, final, runs, ends, others, told₂⟩ :=
        inductionHypothesis kept
      refine ⟨new ++ more, last, final, ?_, ?_, ?_, ?_⟩
      · rw [BanNotes.run, returned]
        simp only [bind, Except.bind, runs]
        rw [told, told, told, List.map_append]
      · rwa [← List.append_assoc]
      · rw [List.flatMap_cons, ← List.append_assoc, bans, List.append_assoc,
          others, List.flatMap_append, List.append_assoc]
      · intro group member
        rcases List.mem_append.mp member with early | late
        · exact told₁ group early
        · exact told₂ group late

example :
    (default.run
      [.take 1000, .push ("1.1.1.1", "port scan"), .take 1000,
        .take 2000]).map Prod.fst =
      .ok [(1000, "Banned 1.1.1.1", "port scan")] :=
  rfl

end BanNotes

end AiFirewall

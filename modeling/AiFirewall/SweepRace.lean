import AiFirewall.DaemonSteps
import AiFirewall.Runs
import AiFirewall.XdpProgram

namespace AiFirewall

/-!
# A sweep, step by step

`sweep` lists the ban maps, checks one entry after another against the clock
and removes what has run out, by its address.  The command line writes the
same maps without a lock.  An entry that is put in anew after it was listed
is removed for the old one's expiry.
-/

/-- How far the daemon has come with a sweep. -/
inductive SweepStage where
  | idle
  /-- `entries`, as far as it has come. -/
  | listing (seen : List (Src × U64))
  | checking (entries pending : List (Src × U64))
  /-- An entry has run out; it is removed next. -/
  | removing (host : Host) (ip : Src) (entries pending : List (Src × U64))

/-- The daemon's data with the pinned maps, and its sweep. -/
structure SweepRun (Score : Type) where
  shared : Shared Score
  stage : SweepStage

/-- A step of the sweep, or a command. -/
inductive SweepEvent where
  /-- `Cmd::Ban`; 0 minutes are forever. -/
  | ban (host : Host) (ip : Src) (minutes : U64)
  /-- `Cmd::Unban`. -/
  | unban (host : Host) (ip : Src)
  | list
  /-- The listing comes to one key of the maps. -/
  | read (ip : Src)
  | listed
  /-- The next entry is compared with the clock. -/
  | check (host : Host)
  | remove
  | finish

namespace SweepEvent

/-- A command about one source. -/
def isAbout (ip : Src) : SweepEvent → Prop
  | .ban _ other _ => other = ip
  | .unban _ other => other = ip
  | _ => False

end SweepEvent

namespace Shared

variable {Score : Type}

/-- The end of `sweep`: records of what was not listed are dropped. -/
def retainListed
    (entries : List (Src × U64))
    (shared : Shared Score) : Shared Score :=
  let retained :=
    shared.records.retain fun ip _ => ip ∈ entries.map Prod.fst
  { shared with
    records := retained
    dirty := shared.dirty || retained.size ≠ shared.records.size }

theorem sweep_eq (host : Host) (shared : Shared Score) :
    shared.sweep host =
      (shared.blocklist.entries.foldl (sweepEntry host) shared).retainListed
        shared.blocklist.entries :=
  rfl

end Shared

namespace SweepRun

section

variable {Score : Type}

def lookup (sweeping : SweepRun Score) (ip : Src) : Option U64 :=
  sweeping.shared.blocklist.lookup ip

def setBlocklist
    (sweeping : SweepRun Score)
    (blocklist : Blocklist) : SweepRun Score :=
  { sweeping with
    shared := { sweeping.shared with blocklist := blocklist } }

/-- What is out of its order does not happen. -/
def step
    (sweeping : SweepRun Score)
    (event : SweepEvent) : SweepRun Score :=
  let shared := sweeping.shared
  match event, sweeping.stage with
  | .ban host ip minutes, _ =>
      sweeping.setBlocklist
        ((shared.blocklist.insert? host ip
          (expiryFor host (minutes * 60))).getD shared.blocklist)
  | .unban host ip, _ =>
      sweeping.setBlocklist (shared.blocklist.drop host ip)
  | .list, .idle => { sweeping with stage := .listing [] }
  | .read ip, .listing seen =>
      match shared.blocklist.lookup ip with
      | some expiry =>
          { sweeping with stage := .listing (seen ++ [(ip, expiry)]) }
      | none => sweeping
  | .listed, .listing seen => { sweeping with stage := .checking seen seen }
  | .check host, .checking entries ((ip, expiry) :: pending) =>
      if remaining host expiry = none then
        { sweeping with stage := .removing host ip entries pending }
      else
        { shared :=
            if (shared.records.lookup ip).isNone then
              { shared with
                records := shared.records.insert ip manualRecord
                dirty := true }
            else
              shared
          stage := .checking entries pending }
  | .remove, .removing host ip entries pending =>
      { shared :=
          { shared with
            blocklist := shared.blocklist.drop host ip
            records := shared.records.erase ip
            dirty := true }
        stage := .checking entries pending }
  | .finish, .checking entries [] =>
      { shared := shared.retainListed entries
        stage := .idle }
  | _, _ => sweeping

/-- The source is removed next. -/
def Condemned (sweeping : SweepRun Score) (ip : Src) : Prop :=
  ∃ host entries pending,
    sweeping.stage = .removing host ip entries pending ∧
      host.refusesRemove ip = false

/-- The ban is gone, or about to be. -/
def Lost (sweeping : SweepRun Score) (ip : Src) : Prop :=
  sweeping.lookup ip = none ∨ sweeping.Condemned ip

/-- The source has this expiry, and is not about to be removed. -/
def Kept (sweeping : SweepRun Score) (ip : Src) (expiry : U64) : Prop :=
  sweeping.lookup ip = some expiry ∧ ¬sweeping.Condemned ip

/-- An entry of the source has run out when its turn comes. -/
def Condemns
    (sweeping : SweepRun Score)
    (event : SweepEvent)
    (ip : Src)
    (expiry : U64) : Prop :=
  ∃ host entries pending,
    event = .check host ∧
      sweeping.stage = .checking entries ((ip, expiry) :: pending) ∧
      remaining host expiry = none ∧
      host.refusesRemove ip = false

variable
  {sweeping : SweepRun Score}
  {event : SweepEvent}
  {ip : Src}
  {expiry : U64}

/-- Only a sweep that is removing something condemns it. -/
theorem not_condemned_of_stage
    (notRemoving :
      ∀ host other entries pending,
        sweeping.stage ≠ .removing host other entries pending) :
    ¬sweeping.Condemned ip := by
  rintro ⟨host, entries, pending, stage, _⟩
  exact notRemoving host ip entries pending stage

theorem lost_iff_of_stage
    (notRemoving :
      ∀ host other entries pending,
        sweeping.stage ≠ .removing host other entries pending) :
    sweeping.Lost ip ↔ sweeping.lookup ip = none :=
  or_iff_left (not_condemned_of_stage notRemoving)

/-- What is lost comes back by a new ban only. -/
theorem lost_step
    (untouched : ¬event.isAbout ip)
    (lost : sweeping.Lost ip) :
    (sweeping.step event).Lost ip := by
  unfold step
  dsimp only
  split
  · rename_i host other minutes
    refine lost.imp_left fun gone => ?_
    show (Option.getD _ _ : Blocklist).lookup ip = none
    cases inserted :
        sweeping.shared.blocklist.insert? host other
          (expiryFor host (minutes * 60)) with
    | none => exact gone
    | some changed =>
        rw [Option.getD_some, Blocklist.lookup_of_insert? inserted,
          if_neg (fun same => untouched same.symm)]
        exact gone
  · rename_i host other
    refine lost.imp_left fun gone => ?_
    rcases sweeping.shared.blocklist.lookup_drop host other ip with
      same | ⟨_, dropped⟩
    · exact same.trans gone
    · exact dropped
  · rename_i stage
    rw [lost_iff_of_stage (by simp [stage])] at lost
    exact .inl lost
  · rename_i seen stage
    rw [lost_iff_of_stage (by simp [stage])] at lost
    split
    · exact .inl lost
    · exact .inl lost
  · rename_i seen stage
    rw [lost_iff_of_stage (by simp [stage])] at lost
    exact .inl lost
  · rename_i host entries other old pending stage
    rw [lost_iff_of_stage (by simp [stage])] at lost
    split
    · exact .inl lost
    · refine .inl ?_
      show (ite _ _ _ : Shared Score).blocklist.lookup ip = none
      split
      · exact lost
      · exact lost
  · rename_i host other entries pending stage
    refine .inl ?_
    show (sweeping.shared.blocklist.drop host other).lookup ip = none
    rcases lost with gone | ⟨chosen, _, _, removing, willing⟩
    · rcases sweeping.shared.blocklist.lookup_drop host other ip with
        same | ⟨_, dropped⟩
      · exact same.trans gone
      · exact dropped
    · rw [stage] at removing
      cases removing
      exact Blocklist.lookup_drop_of_willing (Bool.eq_false_iff.mp willing)
  · rename_i entries stage
    rw [lost_iff_of_stage (by simp [stage])] at lost
    exact .inl lost
  · exact lost

/-- An entry stays while nobody touches it and no older one runs out. -/
theorem kept_step
    (untouched : ¬event.isAbout ip)
    (spared : ∀ old, ¬sweeping.Condemns event ip old)
    (kept : sweeping.Kept ip expiry) :
    (sweeping.step event).Kept ip expiry := by
  obtain ⟨present, notCondemned⟩ := kept
  unfold step
  dsimp only
  split
  · rename_i host other minutes
    refine ⟨?_, notCondemned⟩
    show (Option.getD _ _ : Blocklist).lookup ip = some expiry
    cases inserted :
        sweeping.shared.blocklist.insert? host other
          (expiryFor host (minutes * 60)) with
    | none => exact present
    | some changed =>
        rw [Option.getD_some, Blocklist.lookup_of_insert? inserted,
          if_neg (fun same => untouched same.symm)]
        exact present
  · rename_i host other
    refine ⟨?_, notCondemned⟩
    rcases sweeping.shared.blocklist.lookup_drop host other ip with
      same | ⟨isOther, _⟩
    · exact same.trans present
    · exact absurd isOther.symm untouched
  · exact ⟨present, not_condemned_of_stage (by simp)⟩
  · rename_i other seen stage
    split
    · exact ⟨present, not_condemned_of_stage (by simp)⟩
    · exact ⟨present, notCondemned⟩
  · exact ⟨present, not_condemned_of_stage (by simp)⟩
  · rename_i host entries other old pending stage
    split
    · rename_i runOut
      refine ⟨present, ?_⟩
      rintro ⟨chosen, _, _, removing, willing⟩
      cases removing
      exact spared old
        ⟨host, entries, pending, rfl, stage, runOut, willing⟩
    · refine ⟨?_, not_condemned_of_stage (by simp)⟩
      show (ite _ _ _ : Shared Score).blocklist.lookup ip = some expiry
      split
      · exact present
      · exact present
  · rename_i host other entries pending stage
    refine ⟨?_, not_condemned_of_stage (by simp)⟩
    show (sweeping.shared.blocklist.drop host other).lookup ip = some expiry
    rcases sweeping.shared.blocklist.lookup_drop host other ip with
      same | ⟨isOther, _⟩
    · exact same.trans present
    · subst isOther
      -- Its removal was refused, or it would have been condemned.
      cases refusal : host.refusesRemove ip with
      | true =>
          rw [Blocklist.drop_of_refused refusal]
          exact present
      | false =>
          exact absurd ⟨host, entries, pending, stage, refusal⟩
            notCondemned
  · exact ⟨present, not_condemned_of_stage (by simp)⟩
  · exact ⟨present, notCondemned⟩

/-- A check that condemns a source leaves it about to be removed. -/
theorem lost_of_condemns
    {old : U64}
    (condemns : sweeping.Condemns event ip old) :
    (sweeping.step event).Lost ip := by
  obtain ⟨host, entries, pending, isCheck, stage, runOut, willing⟩ :=
    condemns
  subst isCheck
  refine .inr ⟨host, entries, pending, ?_, willing⟩
  simp only [step, stage, if_pos runOut]

theorem lost_run
    {later : List SweepEvent}
    (untouched : ∀ event ∈ later, ¬event.isAbout ip)
    (lost : sweeping.Lost ip) :
    (Runs.run step sweeping later).Lost ip := by
  induction later using List.reverseRecOn with
  | nil =>
      exact lost
  | append_singleton past event inductionHypothesis =>
      rw [Runs.run_concat]
      refine lost_step (untouched event (by simp)) ?_
      exact inductionHypothesis fun earlier member =>
        untouched earlier (List.mem_append_left _ member)

theorem kept_run
    {later : List SweepEvent}
    (untouched : ∀ event ∈ later, ¬event.isAbout ip)
    (spared :
      Runs.Stepwise
        (fun past event =>
          ∀ old, ¬(Runs.run step sweeping past).Condemns event ip old)
        later)
    (kept : sweeping.Kept ip expiry) :
    (Runs.run step sweeping later).Kept ip expiry := by
  induction later using List.reverseRecOn with
  | nil =>
      exact kept
  | append_singleton past event inductionHypothesis =>
      rw [Runs.run_concat]
      refine kept_step (untouched event (by simp)) spared.last ?_
      exact inductionHypothesis
        (fun earlier member =>
          untouched earlier (List.mem_append_left _ member))
        spared.before

/-- An expiry still ahead at the end was ahead at every clock before. -/
theorem remaining_of_live
    {host : Host}
    {now : U64}
    (before : host.bootNs ≤ now)
    (ahead : live now (some expiry) = true) :
    remaining host expiry ≠ none := by
  unfold remaining
  simp only [live, Bool.or_eq_true, decide_eq_true_eq] at ahead
  split
  · exact Option.some_ne_none _
  · rename_i timed
    have stillAhead : host.bootNs < expiry := by
      have notYet := ahead.resolve_left timed
      rw [BitVec.lt_def] at notYet ⊢
      rw [BitVec.le_def] at before
      omega
    rw [if_pos stillAhead]
    exact Option.some_ne_none _

/--
At the ban the sweep is not about to remove its source, and no older entry of
the source that the sweep has listed turns out to have run out.
-/
structure Spared
    (sweeping : SweepRun Score)
    (ip : Src)
    (expiry : U64)
    (later : List SweepEvent) : Prop where
  notCondemned : ¬sweeping.Condemned ip
  older :
    ∀ past event rest old,
      later = past ++ event :: rest →
      old ≠ expiry →
      ¬(Runs.run step sweeping past).Condemns event ip old

/--
A ban from the command line is in the map when a sweep ends, while its expiry
is ahead and no other command names its source, if and only if the sweep had
not listed an older entry of that source that has run out.
-/
theorem cli_ban_survives_iff
    (start : SweepRun Score)
    (past later : List SweepEvent)
    {host : Host}
    {minutes now : U64}
    {blocklist : Blocklist}
    (inserted :
      (Runs.run step start past).shared.blocklist.insert? host ip
        (expiryFor host (minutes * 60)) = some blocklist)
    (ahead : live now (some (expiryFor host (minutes * 60))) = true)
    (clocks : ∀ clock, .check clock ∈ later → clock.bootNs ≤ now)
    (untouched : ∀ event ∈ later, ¬event.isAbout ip)
    (ended :
      (Runs.run step start
        (past ++ .ban host ip minutes :: later)).stage = .idle) :
    (Runs.run step start
        (past ++ .ban host ip minutes :: later)).lookup ip =
        some (expiryFor host (minutes * 60)) ↔
      Spared (Runs.run step start (past ++ [.ban host ip minutes])) ip
        (expiryFor host (minutes * 60)) later := by
  have split :
      Runs.run step start (past ++ .ban host ip minutes :: later) =
        Runs.run step
          (Runs.run step start (past ++ [.ban host ip minutes])) later := by
    rw [← Runs.run_append, List.append_assoc, List.singleton_append]
  have present :
      (Runs.run step start (past ++ [.ban host ip minutes])).lookup ip =
        some (expiryFor host (minutes * 60)) := by
    rw [Runs.run_concat]
    show (Option.getD _ _ : Blocklist).lookup ip = _
    rw [inserted, Option.getD_some, Blocklist.lookup_of_insert? inserted,
      if_pos rfl]
  rw [split] at ended ⊢
  constructor
  · intro kept
    have notLost
        (earlier rest : List SweepEvent)
        (shape : later = earlier ++ rest)
        (lost :
          (Runs.run step
            (Runs.run step start (past ++ [.ban host ip minutes]))
            earlier).Lost ip) :
        False := by
      have lostAtEnd :=
        lost_run (fun event member =>
          untouched event (by
            rw [shape]
            exact List.mem_append_right _ member)) lost
      have notRemoving
          (clock : Host)
          (other : Src)
          (entries pending : List (Src × U64)) :
          (Runs.run step
              (Runs.run step start (past ++ [.ban host ip minutes]))
              later).stage ≠
            .removing clock other entries pending := by
        rw [ended]
        exact SweepStage.noConfusion
      rw [← Runs.run_append, ← shape, lost_iff_of_stage notRemoving,
        kept] at lostAtEnd
      cases lostAtEnd
    exact
      { notCondemned := fun condemned =>
          notLost [] later rfl (.inr condemned)
        older := fun earlier event rest old shape _ condemns => by
          refine notLost (earlier ++ [event]) rest (by simp [shape]) ?_
          rw [Runs.run_concat]
          exact lost_of_condemns condemns }
  · intro spared
    refine (kept_run untouched ?_ ⟨present, spared.notCondemned⟩).1
    intro earlier event rest shape old condemns
    by_cases isOwn : old = expiryFor host (minutes * 60)
    · obtain ⟨clock, _, _, isCheck, _, runOut, _⟩ := condemns
      have before : clock.bootNs ≤ now :=
        clocks clock (by simp [shape, isCheck])
      rw [isOwn] at runOut
      exact remaining_of_live before ahead runOut
    · exact spared.older earlier event rest old shape isOwn condemns

/-- A sweep that nobody disturbs: every entry is listed, checked and done. -/
def undisturbed
    (host : Host)
    (entries : List (Src × U64)) : List SweepEvent :=
  [.list] ++ entries.map (fun entry => .read entry.1) ++ [.listed] ++
    entries.flatMap (fun _ => [.check host, .remove]) ++ [.finish]

theorem run_reads
    (shared : Shared Score)
    (seen entries : List (Src × U64))
    (stored :
      ∀ entry ∈ entries,
        shared.blocklist.lookup entry.1 = some entry.2) :
    Runs.run step ⟨shared, .listing seen⟩
        (entries.map fun entry => .read entry.1) =
      ⟨shared, .listing (seen ++ entries)⟩ := by
  induction entries generalizing seen with
  | nil =>
      simp
  | cons entry rest inductionHypothesis =>
      have next :
          step ⟨shared, .listing seen⟩ (.read entry.1) =
            ⟨shared, .listing (seen ++ [entry])⟩ := by
        simp only [step, stored entry (by simp)]
      have others :=
        inductionHypothesis (seen ++ [entry]) fun other member =>
          stored other (List.mem_cons_of_mem _ member)
      rw [List.append_assoc, List.singleton_append] at others
      rw [← others, ← next]
      rfl

/-- A check and the removal it may lead to are one turn of the loop. -/
theorem run_turn
    (host : Host)
    (shared : Shared Score)
    (entry : Src × U64)
    (entries pending : List (Src × U64)) :
    step
        (step ⟨shared, .checking entries (entry :: pending)⟩ (.check host))
        .remove =
      ⟨shared.sweepEntry host entry, .checking entries pending⟩ := by
  obtain ⟨ip, expiry⟩ := entry
  by_cases runOut : remaining host expiry = none
  · simp [step, Shared.sweepEntry, runOut]
  · simp [step, Shared.sweepEntry, runOut]

theorem run_turns
    (host : Host)
    (shared : Shared Score)
    (entries pending : List (Src × U64)) :
    Runs.run step ⟨shared, .checking entries pending⟩
        (pending.flatMap fun _ => [.check host, .remove]) =
      ⟨pending.foldl (Shared.sweepEntry host) shared,
        .checking entries []⟩ := by
  induction pending generalizing shared with
  | nil =>
      rfl
  | cons entry rest inductionHypothesis =>
      have others := inductionHypothesis (shared.sweepEntry host entry)
      rw [← run_turn host shared entry entries rest] at others
      exact others

/-- Undisturbed, the steps of a sweep are the sweep. -/
theorem run_undisturbed
    (host : Host)
    (shared : Shared Score) :
    Runs.run step ⟨shared, .idle⟩
        (undisturbed host shared.blocklist.entries) =
      ⟨shared.sweep host, .idle⟩ := by
  have stored :
      ∀ entry ∈ shared.blocklist.entries,
        shared.blocklist.lookup entry.1 = some entry.2 :=
    fun _ member => Blocklist.mem_entries.mp member
  have begins :
      Runs.run step (⟨shared, .idle⟩ : SweepRun Score) [.list] =
        ⟨shared, .listing []⟩ :=
    rfl
  rw [undisturbed, Runs.run_concat, Runs.run_append, Runs.run_concat,
    Runs.run_append, begins, run_reads shared [] _ stored, List.nil_append]
  show
    step
        (Runs.run step
          ⟨shared,
            .checking shared.blocklist.entries shared.blocklist.entries⟩ _)
        .finish =
      _
  rw [run_turns, Shared.sweep_eq]
  rfl

end

/-- The listed entries that a sweep has still to check. -/
def unchecked {Score : Type} (sweeping : SweepRun Score) :
    List (Src × U64) :=
  match sweeping.stage with
  | .checking _ pending => pending
  | _ => []

/-- The daemon has no sweep under way. -/
def isIdle {Score : Type} (sweeping : SweepRun Score) : Bool :=
  match sweeping.stage with
  | .idle => true
  | _ => false

theorem stage_of_isIdle
    {Score : Type}
    {sweeping : SweepRun Score}
    (isIdle : sweeping.isIdle = true) :
    sweeping.stage = .idle := by
  unfold SweepRun.isIdle at isIdle
  split at isIdle
  · assumption
  · cases isIdle

def bannedByHand : Src :=
  .v4 0x0a000005

/-- A ban of one minute has run out, and is listed. -/
def runOutListed : List SweepEvent :=
  [.ban (clockedHost 900 999900) bannedByHand 1,
    .list, .read bannedByHand, .listed]

def restOfSweep : List SweepEvent :=
  [.check (clockedHost 1000 1000000), .remove, .finish]

/-- The address is banned anew before the sweep comes to it. -/
theorem new_ban_is_swept_away :
    let start : SweepRun ℚ := ⟨freshShared, .idle⟩
    let host := clockedHost 1000 1000000
    let swept :=
      Runs.run step start
        (runOutListed ++ .ban host bannedByHand 60 :: restOfSweep)
    ((Runs.run step start runOutListed).shared.blocklist.insert? host
        bannedByHand (expiryFor host (60 * 60))).isSome = true ∧
      live host.bootNs (some (expiryFor host (60 * 60))) = true ∧
      (∀ event ∈ restOfSweep, ¬event.isAbout bannedByHand) ∧
      swept.isIdle = true ∧
      swept.lookup bannedByHand = none := by
  refine ⟨by decide +kernel, by decide +kernel, ?_, by decide +kernel,
    by decide +kernel⟩
  intro event member
  simp only [restOfSweep, List.mem_cons, List.not_mem_nil,
    or_false] at member
  rcases member with rfl | rfl | rfl
  · exact id
  · exact id
  · exact id

/-- The sweep after a ban. -/
def wholeSweep : List SweepEvent :=
  undisturbed (clockedHost 1000 1000000)
    [(bannedByHand, expiryFor (clockedHost 1000 1000000) (60 * 60))]

/-- A ban that is there before the sweep begins is there afterwards; here the
steps are all of the daemon's `sweep`. -/
theorem earlier_ban_survives_sweep :
    let swept :=
      Runs.run step (⟨freshShared, .idle⟩ : SweepRun ℚ)
        ([] ++ .ban (clockedHost 1000 1000000) bannedByHand 60 :: wholeSweep)
    swept.lookup bannedByHand =
        some (expiryFor (clockedHost 1000 1000000) (60 * 60)) ∧
      swept =
        ⟨(step (⟨freshShared, .idle⟩ : SweepRun ℚ)
            (.ban (clockedHost 1000 1000000) bannedByHand 60)).shared.sweep
            (clockedHost 1000 1000000), .idle⟩ := by
  intro swept
  have isSweep :
      (step (⟨freshShared, .idle⟩ : SweepRun ℚ)
          (.ban (clockedHost 1000 1000000) bannedByHand
            60)).shared.blocklist.entries =
        [(bannedByHand,
          expiryFor (clockedHost 1000 1000000) (60 * 60))] := by
    decide +kernel
  have undisturbedSweep :=
    run_undisturbed (clockedHost 1000 1000000)
      (step (⟨freshShared, .idle⟩ : SweepRun ℚ)
        (.ban (clockedHost 1000 1000000) bannedByHand 60)).shared
  rw [isSweep] at undisturbedSweep
  refine ⟨?_, undisturbedSweep⟩
  have accepted :
      (freshShared.blocklist.insert? (clockedHost 1000 1000000)
        bannedByHand
        (expiryFor (clockedHost 1000 1000000) (60 * 60))).isSome =
        true := by
    decide +kernel
  obtain ⟨blocklist, inserted⟩ := Option.isSome_iff_exists.mp accepted
  have events :
      wholeSweep =
        [.list, .read bannedByHand, .listed,
          .check (clockedHost 1000 1000000), .remove, .finish] :=
    rfl
  have listedOnce :
      (Runs.run step (⟨freshShared, .idle⟩ : SweepRun ℚ)
          [.ban (clockedHost 1000 1000000) bannedByHand 60, .list,
            .read bannedByHand, .listed]).unchecked =
        [(bannedByHand,
          expiryFor (clockedHost 1000 1000000) (60 * 60))] := by
    decide +kernel
  refine (cli_ban_survives_iff ⟨freshShared, .idle⟩ [] wholeSweep inserted
    (by decide +kernel : live 1000000000000 _ = true) ?_ ?_
    (stage_of_isIdle (by decide +kernel))).mpr ⟨?_, ?_⟩
  · intro clock member
    rw [events] at member
    simp only [List.mem_cons, List.not_mem_nil, or_false, reduceCtorEq,
      false_or, SweepEvent.check.injEq] at member
    subst member
    decide
  · intro event member
    rw [events] at member
    simp only [List.mem_cons, List.not_mem_nil, or_false] at member
    rcases member with rfl | rfl | rfl | rfl | rfl | rfl
    all_goals exact id
  · exact not_condemned_of_stage fun _ _ _ _ => SweepStage.noConfusion
  · rintro past event rest old shape isOlder
      ⟨clock, entries, pending, isCheck, stage, _⟩
    subst isCheck
    have isPast :
        past = [.list, .read bannedByHand, .listed] := by
      rw [events] at shape
      simp [List.cons_eq_append_iff] at shape
      exact shape.1
    subst isPast
    rw [← Runs.run_append, List.nil_append, List.singleton_append]
      at stage
    rw [unchecked, stage] at listedOnce
    simp only [List.cons.injEq, Prod.mk.injEq, true_and] at listedOnce
    exact isOlder listedOnce.1

end SweepRun

end AiFirewall

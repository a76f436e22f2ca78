import AiFirewall.BanEscalation
import AiFirewall.DelistedBans

namespace AiFirewall

/-!
# Bans that the configuration lists

`apply_config` bans every listed address for ever.  The ban stands as long as
nobody puts another one on top of it: a timed ban by hand or by the detector
replaces the entry of the address, and a sweep removes it when it runs out.
-/

namespace Shared

section

variable {Score : Type}

/-- A permanent ban with a record that the detector has not written. -/
structure Standing (shared : Shared Score) (source : Src) : Prop
    extends shared.Lasting source where
  known : (shared.records.lookup source).isSome = true

namespace Standing

variable
  {host : Host}
  {shared changed : Shared Score}
  {source : Src}

theorem of_same
    (standing : shared.Standing source)
    (sameEntry :
      changed.blocklist.lookup source = shared.blocklist.lookup source)
    (sameRecord :
      changed.records.lookup source = shared.records.lookup source) :
    changed.Standing source where
  entry := sameEntry.trans standing.entry
  record := sameRecord ▸ standing.record
  known := sameRecord ▸ standing.known

theorem sweep
    (standing : shared.Standing source) :
    (shared.sweep host).Standing source where
  toLasting := standing.toLasting.sweep
  known := by
    rw [sweep_record, standing.entry, Option.bind_some, sweptRecord,
      remaining_forever, if_neg (Option.some_ne_none 0)]
    rfl

theorem refreshProtection
    {autoProtected : List Cidr}
    {ownV6Prefixes : List U64}
    {cfg : Config}
    (standing : shared.Standing source) :
    (shared.refreshProtection host autoProtected ownV6Prefixes
      cfg).Standing source := by
  obtain ⟨sameEntry, sameRecord⟩ :=
    refreshProtection_other host autoProtected ownV6Prefixes cfg
      standing.record
  exact standing.of_same sameEntry sameRecord

theorem restoreBan
    {ban : SavedBan}
    (standing : shared.Standing source) :
    (shared.restoreBan host ban).Standing source := by
  refine standing.of_same (restoreBan_entry ?_) ?_
  · rw [Blocklist.contains, standing.entry]
    rfl
  · rcases restoreBan_record host shared ban source with
      same | ⟨_, _, unknown, _⟩
    · exact same
    · have known := standing.known
      rw [unknown] at known
      cases known

/-- A ban that is placed by hand for ever, or refused, changes nothing. -/
theorem insert
    {ip : Src}
    {expiry : U64}
    (harmless :
      ip = source →
      host.refusesInsert ip = true ∨ expiry = banForever)
    (standing : shared.Standing source) :
    ({ shared with
        blocklist :=
          (shared.blocklist.insert? host ip expiry).getD
            shared.blocklist } :
      Shared Score).Standing source := by
  refine standing.of_same ?_ rfl
  show
    ((shared.blocklist.insert? host ip expiry).getD
        shared.blocklist).lookup source =
      shared.blocklist.lookup source
  cases inserted : shared.blocklist.insert? host ip expiry with
  | none => rfl
  | some blocklist =>
      rw [Option.getD_some, Blocklist.lookup_of_insert? inserted]
      split
      · rename_i isIp
        rcases harmless isIp.symm with refused | isForever
        · unfold Blocklist.insert? at inserted
          rw [if_pos refused] at inserted
          cases inserted
        · rw [isForever, standing.entry]
      · rfl

variable [ScoreArith Score]

/-- While the detector spares a source, its ban stands. -/
theorem handleBatch
    {kept : Src → Prop}
    {batch : List PacketEvent}
    (spared : shared.SparesAll host kept batch)
    (isKept : kept source)
    (standing : shared.Standing source) :
    (shared.handleBatch host batch).Standing source := by
  refine spared.invariant
    (fun _ (handled : Shared Score) => handled.Standing source) standing ?_
  intro past event spares before
  obtain ⟨sameEntry, sameRecord⟩ := handleEvent_spared spares isKept
  exact before.of_same sameEntry sameRecord

end Standing

end

end Shared

namespace System

section

variable
  {Score : Type}
  [ScoreArith Score]

/-- No new configuration comes, and nobody lifts a listed address. -/
def KeepsConfig (cfg : Config) : DaemonEvent → Prop
  | .unban _ ip => ¬cfg.Lists ip
  | .boot _ _ _ => False
  | .reload _ _ _ _ _ => False
  | .switchProfile _ _ => False
  | _ => True

/-- No ban that runs out is put on top of that of a listed address. -/
def CoversNoList (cfg : Config) (system : System Score) : DaemonEvent → Prop
  | .ban host ip minutes =>
      cfg.Lists ip →
        host.refusesInsert ip = true ∨
          expiryFor host (minutes * 60) = banForever
  | .batch host events =>
      ∀ running, system.phase = .running running →
        system.world.shared.SparesAll host cfg.Lists events
  | _ => True

variable
  {system : System Score}
  {cfg : Config}
  {event : DaemonEvent}
  {ip : Src}

/-- What stands on the list stands after each of these steps. -/
theorem standing_step
    (within : KeepsConfig cfg event)
    (uncovered : CoversNoList cfg system event)
    (listed : cfg.Lists ip)
    (standing : system.world.shared.Standing ip) :
    (system.step event).world.shared.Standing ip := by
  unfold System.step
  split
  · exact standing.insert fun same => uncovered (same ▸ listed)
  · rename_i host other
    refine standing.of_same ?_ rfl
    rcases system.blocklist.lookup_drop host other ip with
      same | ⟨isOther, _⟩
    · exact same
    · exact absurd (isOther ▸ listed) within
  · exact standing
  · exact within.elim
  · exact standing.restoreBan
  · refine Shared.Standing.refreshProtection ?_
    rw [Shared.restoreOffenders_eq]
    exact standing.of_same rfl rfl
  · exact standing.handleBatch (uncovered _ (by assumption)) listed
  · exact within.elim
  · exact within.elim
  · exact standing.of_same rfl rfl
  · exact standing.sweep
  · exact standing.refreshProtection
  · exact standing.of_same rfl rfl
  · rename_i host stored running isRunning
    cases stored with
    | true => exact standing.of_same rfl rfl
    | false => exact standing
  · exact standing

/-- A start goes on when its configuration is applied. -/
theorem applied_of_starting
    {attempt : Attempt}
    {profile : Option String}
    {starting : Config}
    {pending : List SavedBan}
    (stopped : system.phase = .stopped)
    (goesOn :
      (system.step (.boot attempt cfg profile)).phase =
        .starting starting pending) :
    (applyConfig attempt cfg (cfg.policy profile)).run
        (system.opened cfg) =
      .ok () (system.step (.boot attempt cfg profile)).world := by
  have booted :
      system.step (.boot attempt cfg profile) =
        system.boot attempt cfg profile := by
    simp only [System.step, stopped]
  rw [booted] at goesOn ⊢
  unfold System.boot at goesOn ⊢
  split at goesOn
  · rename_i ran
    rw [ran]
  · cases goesOn

/--
From a successful `apply_config` until the next one every listed address is
in the blocklist for ever, as long as nobody puts a ban that runs out on top.
-/
theorem listed_stay_blocked
    {attempt : Attempt}
    {profile : Option String}
    {before : World Score}
    (accepted : cfg.validate = .ok ())
    (applied :
      (applyConfig attempt cfg (cfg.policy profile)).run before =
        .ok () system.world)
    (events : List DaemonEvent)
    (within : ∀ event ∈ events, KeepsConfig cfg event)
    (uncovered :
      Runs.Stepwise
        (fun past => CoversNoList cfg (Runs.run step system past))
        events)
    (address : U32)
    (blocks : cfg.Blocks address) :
    (Runs.run step system events).blocklist.lookup (.v4 address) =
      some banForever := by
  obtain ⟨compiled, blocked, compiles, readable⟩ :=
    compiled_of_accepted accepted profile
  have listed : cfg.Lists (.v4 address) := ⟨address, rfl, blocks⟩
  obtain ⟨entry, record⟩ :=
    (sources_of_ok compiles readable applied (.v4 address)).1
      ((lists_iff readable).mpr listed)
  have initially : system.world.shared.Standing (.v4 address) := by
    refine ⟨⟨entry, ?_⟩, ?_⟩
    · rw [record]
      intro other isRecord
      cases isRecord
      decide
    · rw [record]
      rfl
  have withinSteps :
      Runs.Stepwise (fun _ event => KeepsConfig cfg event) events :=
    fun past event rest shape => within event (by rw [shape]; simp)
  refine ((withinSteps.and uncovered).invariant
    (fun _ (reached : System Score) =>
      reached.world.shared.Standing (.v4 address))
    initially ?_).entry
  intro past event conditions standing
  exact standing_step conditions.1 conditions.2 listed standing

end

/-- A ban by hand for ten minutes, or scans that were still queued. -/
theorem timed_ban_ends_listed_ban :
    let banned :=
      Runs.run step unstarted
        (blockingStart ++ [.ban (clockedHost 1010 1000010) tenFive 10])
    let swept := banned.step (.sweep (clockedHost 1611 1000611))
    let scanned :=
      Runs.run step unstarted
        (blockingStart ++
          [.batch (clockedHost 1010 1000010) (List.replicate 3 nullScan)])
    blocking.validate = .ok () ∧ blocking.Blocks 0x0a000005 ∧
      (banned.blocklist.lookup tenFive).map BitVec.toNat =
        some 1610000000000 ∧
      swept.blocklist.lookup tenFive = none ∧
      (scanned.blocklist.lookup tenFive).map BitVec.toNat =
        some 1130000000000 :=
  ⟨by decide +kernel, blocking_blocks, by decide +kernel,
    by decide +kernel, by decide +kernel⟩

/-- A start, timed bans of another address, a permanent one of this. -/
def uncoveringSteps : List DaemonEvent :=
  [.restored (clockedHost 1000 1000000) [] [],
    .ban (clockedHost 1010 1000010) tenFive 0,
    .ban (clockedHost 1010 1000010) (.v4 0x0a000006) 10,
    .sweep (clockedHost 1611 1000611)]

theorem uncoveringSteps_uncovered (system : System ℚ) :
    Runs.Stepwise
      (fun past => CoversNoList blocking (Runs.run step system past))
      uncoveringSteps := by
  have uncovered :
      ∀ event ∈ uncoveringSteps, ∀ reached : System ℚ,
        CoversNoList blocking reached event := by
    intro event member reached
    simp only [uncoveringSteps, List.mem_cons, List.not_mem_nil,
      or_false] at member
    rcases member with rfl | rfl | rfl | rfl
    · trivial
    · exact fun _ => .inr (by decide)
    · rintro ⟨address, isOther, text, inList, network, parsed, inside⟩
      cases isOther
      rw [List.mem_singleton.mp inList] at parsed
      have isNetwork :
          Cidr.parse "10.0.0.5" = .ok ⟨0x0a000005, 0xffffffff⟩ := by
        decide +kernel
      rw [isNetwork] at parsed
      cases parsed
      exact absurd inside (by decide)
    · trivial
  exact fun past event rest shape =>
    uncovered event (by rw [shape]; simp) _

/-- Through all of this the listed address stays banned. -/
theorem listed_ban_stands :
    (Runs.run step
        (unstarted.step (.boot (refusing fun _ => false) blocking none))
        uncoveringSteps).blocklist.lookup (.v4 0x0a000005) =
      some banForever := by
  generalize booted :
    unstarted.step (.boot (refusing fun _ => false) blocking none) = system
  have starts : system.phase.pending?.isSome = true := by
    rw [← booted]
    decide +kernel
  obtain ⟨starting, pending, goesOn⟩ := Phase.exists_of_pending starts
  rw [← booted] at goesOn
  have applied := applied_of_starting rfl goesOn
  rw [booted] at applied
  have within : ∀ event ∈ uncoveringSteps, KeepsConfig blocking event := by
    simp [uncoveringSteps, KeepsConfig]
  exact listed_stay_blocked (by decide +kernel) applied uncoveringSteps
    within (uncoveringSteps_uncovered system) 0x0a000005 blocking_blocks

end System

end AiFirewall

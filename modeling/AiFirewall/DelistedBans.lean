import AiFirewall.LastingBans
import AiFirewall.RestartRestore

namespace AiFirewall

/-!
# Bans that leave the configuration

`apply_config` lifts those bans that its records call config bans.  A daemon
that starts has no records yet, and `restore` brings the old ones back when
`apply_config` is done; so a reload lifts what is not listed any more, and a
start lifts nothing.
-/

/-- A source is an address that is to be blocked. -/
def Config.Lists (cfg : Config) (ip : Src) : Prop :=
  ∃ address, ip = .v4 address ∧ cfg.Blocks address

namespace System

section

variable {Score : Type}

/-- A start up to its first sweep. -/
def startSteps
    (system : System Score)
    (attempt : Attempt)
    (cfg : Config)
    (profile : Option String)
    (host : Host)
    (autoProtected : List Cidr)
    (ownV6Prefixes : List U64)
    (later : Host) : List DaemonEvent :=
  .boot attempt cfg profile ::
    ((system.file.bans.map fun _ => .restoreNext host) ++
      [.restored host autoProtected ownV6Prefixes, .sweep later])

/-- The record of a source says that the configuration bans it. -/
def ConfigRecord (system : System Score) (ip : Src) : Prop :=
  ∃ record ∈ system.world.shared.records.lookup ip,
    record.source = "config"

/-- Before a start: an address that only the old list can have banned. -/
structure BannedByList
    (old : Config)
    (system : System Score)
    (address : U32) : Prop where
  listed : old.Blocks address
  saved :
    ∀ ban ∈ system.file.bans, ban.ip = .v4 address →
      ban.source = "config"
  pinned :
    ∀ expiry ∈ system.blocklist.lookup (.v4 address), expiry = banForever

/-- What a start is to make of the bans of the old list. -/
def FollowsList
    (old new : Config)
    (system started : System Score) : Prop :=
  (∀ ip, started.ConfigRecord ip ↔ new.Lists ip) ∧
    ∀ address, system.BannedByList old address → ¬new.Blocks address →
      started.blocklist.contains (.v4 address) = false

/-- The pinned maps hold no ban of the old list alone. -/
def MapsForget (old new : Config) (system : System Score) : Prop :=
  ∀ address, system.BannedByList old address → ¬new.Blocks address →
    system.blocklist.contains (.v4 address) = false

/-- Every config ban in the state file has run out or is still listed. -/
def FileForgets
    (host : Host)
    (new : Config)
    (system : System Score) : Prop :=
  ∀ ban ∈ system.file.bans, ban.source = "config" →
    Shared.savedSecs host ban ≠ none → new.Lists ban.ip

/-- Every saved ban stands in the maps from the restore to the sweep. -/
def RestoresAll
    (host later : Host)
    (system : System Score)
    (world : World Score) : Prop :=
  (system.file.bans.map SavedBan.ip).Nodup ∧
    ∀ ban ∈ system.file.bans, Shared.savedSecs host ban ≠ none →
      ∃ expiry ∈
          (world.shared.restore host system.file).blocklist.lookup ban.ip,
        remaining later expiry ≠ none

variable
  {system : System Score}
  {world : World Score}
  {attempt : Attempt}
  {old new : Config}
  {profile : Option String}
  {host later : Host}
  {autoProtected : List Cidr}
  {ownV6Prefixes : List U64}
  {compiled : Compiled}
  {blocked : List Cidr}
  {ip : Src}

theorem lists_iff
    (readable : new.blockedCidrs = .ok blocked) :
    ip ∈ listedSources blocked ↔ new.Lists ip :=
  mem_listedSources readable

/-- A new daemon finds the bans of the pinned maps. -/
theorem lookup_opened
    (system : System Score)
    (cfg : Config)
    (ip : Src) :
    (system.opened cfg).shared.blocklist.lookup ip =
      system.blocklist.lookup ip := by
  cases ip with
  | v4 address => rfl
  | v6 networkPrefix =>
      simp only [opened, Blocklist.lookup]
      cases system.blocklist.v6 with
      | none => simp
      | some map => rfl

/-- What the first `apply_config` of a start leaves. -/
theorem sources_of_start
    (compiles : compile (new.policy profile) = .ok compiled)
    (readable : new.blockedCidrs = .ok blocked)
    (ran :
      (applyConfig attempt new (new.policy profile)).run
        (system.opened new) = .ok () world)
    (ip : Src) :
    (new.Lists ip →
        world.shared.blocklist.lookup ip = some banForever ∧
          world.shared.records.lookup ip = some configRecord) ∧
      (¬new.Lists ip →
        world.shared.blocklist.lookup ip = system.blocklist.lookup ip ∧
          world.shared.records.lookup ip = none) := by
  obtain ⟨ofListed, _, ofOther⟩ := sources_of_ok compiles readable ran ip
  rw [lists_iff readable] at ofListed ofOther
  refine ⟨ofListed, fun unlisted => ?_⟩
  have notStale :
      ip ∉ staleSources (system.opened new).shared.records
        (listedSources blocked) := by
    intro stale
    obtain ⟨⟨record, known, _⟩, _⟩ := mem_staleSources.mp stale
    cases known
  obtain ⟨sameEntry, sameRecord⟩ := ofOther unlisted notStale
  exact ⟨sameEntry.trans (lookup_opened system new ip), sameRecord⟩

section

variable
  {final : System Score}
  (compiles : compile (new.policy profile) = .ok compiled)
  (readable : new.blockedCidrs = .ok blocked)
  (ran :
    (applyConfig attempt new (new.policy profile)).run
      (system.opened new) = .ok () world)
  (isFinal :
    final.world.shared =
      ((world.shared.restore host system.file).refreshProtection host
        autoProtected ownV6Prefixes new).sweep later)

include compiles readable ran isFinal

/-- A config ban after a start is listed, or was in the state file. -/
theorem configRecord_of_start
    (recorded : final.ConfigRecord ip) :
    new.Lists ip ∨
      ∃ ban ∈ system.file.bans, ban.ip = ip ∧ ban.source = "config" ∧
        Shared.savedSecs host ban ≠ none := by
  by_cases listed : new.Lists ip
  · exact .inl listed
  obtain ⟨record, known, isConfig⟩ := recorded
  rw [isFinal] at known
  rcases Shared.record_of_sweep known with known | ⟨_, isManual⟩
  · have restored := Shared.refreshProtection_record known
    rw [(Shared.restore_maps host system.file world.shared).2,
      Shared.restoreBans_record,
      ((sources_of_start compiles readable ran ip).2 listed).2,
      Option.none_or, Shared.savedRecord] at restored
    obtain ⟨ban, found, isRecord⟩ := Option.map_eq_some_iff.mp restored
    have isBan := List.find?_some found
    rw [Bool.and_eq_true, decide_eq_true_iff] at isBan
    subst isRecord
    exact .inr ⟨ban, List.mem_of_find?_eq_some found, isBan.1, isConfig,
      Option.isSome_iff_ne_none.mp isBan.2⟩
  · subst isManual
    exact absurd isConfig (by decide)

/-- The bans of the new list stand after a start, as config bans. -/
theorem listed_of_start
    (listed : new.Lists ip) :
    final.ConfigRecord ip := by
  obtain ⟨entry, record⟩ :=
    (sources_of_start compiles readable ran ip).1 listed
  have restoredEntry :
      (world.shared.restore host system.file).blocklist.lookup ip =
        some banForever := by
    rw [(Shared.restore_maps host system.file world.shared).1]
    refine (Shared.restoreBans_entry ?_).trans entry
    rw [Blocklist.contains, entry]
    rfl
  have restoredRecord :
      (world.shared.restore host system.file).records.lookup ip =
        some configRecord := by
    rw [(Shared.restore_maps host system.file world.shared).2,
      Shared.restoreBans_record, record, Option.some_or]
  have runs : remaining later banForever ≠ none := by
    rw [Shared.remaining_forever]
    exact Option.some_ne_none 0
  have notAuto :
      ∀ record ∈
          (world.shared.restore host system.file).records.lookup ip,
        record.source ≠ "auto" := by
    rw [restoredRecord]
    intro record isRecord
    cases isRecord
    decide
  have kept :=
    Shared.kept_of_running host later autoProtected ownV6Prefixes new
      restoredEntry runs notAuto
  refine ⟨configRecord, ?_, rfl⟩
  rw [isFinal]
  exact kept.2.trans (by rw [restoredRecord]; rfl)

/-- What the maps and the file have forgotten is not banned by a start. -/
theorem follows_of_forgotten
    (mapsForget : system.MapsForget old new)
    (fileForgets : system.FileForgets host new) :
    FollowsList old new system final := by
  constructor
  · intro ip
    refine ⟨fun recorded => ?_, listed_of_start compiles readable ran isFinal⟩
    rcases configRecord_of_start compiles readable ran isFinal recorded with
      listed | ⟨ban, inFile, isBan, isConfig, runs⟩
    · exact listed
    · rw [← isBan]
      exact fileForgets ban inFile isConfig runs
  · intro address byList unlisted
    have notListed : ¬new.Lists (.v4 address) := by
      rintro ⟨other, isOther, blocks⟩
      cases isOther
      exact unlisted blocks
    refine Bool.eq_false_iff.mpr fun present => ?_
    rw [blocklist, isFinal] at present
    have restored :=
      Shared.contains_of_refreshProtection (Shared.contains_of_sweep present)
    rw [(Shared.restore_maps host system.file world.shared).1] at restored
    rcases Shared.contains_of_restoreBans restored with
      old | ⟨ban, inFile, isBan, runs⟩
    · rw [Blocklist.contains,
        ((sources_of_start compiles readable ran _).2 notListed).1] at old
      exact absurd old (Bool.eq_false_iff.mp
        (mapsForget address byList unlisted))
    · refine notListed ?_
      rw [← isBan]
      exact fileForgets ban inFile (byList.saved ban inFile isBan) runs

/-- A permanent ban of the old list that the maps hold stays there. -/
theorem mapsForget_of_follows
    (follows : FollowsList old new system final) :
    system.MapsForget old new := by
  intro address byList unlisted
  refine Bool.eq_false_iff.mpr fun present => ?_
  have notListed : ¬new.Lists (.v4 address) := by
    rintro ⟨other, isOther, blocks⟩
    cases isOther
    exact unlisted blocks
  obtain ⟨expiry, pinned⟩ := Option.isSome_iff_exists.mp present
  have isForever := byList.pinned expiry pinned
  subst isForever
  obtain ⟨sameEntry, noRecord⟩ :=
    (sources_of_start compiles readable ran _).2 notListed
  have lasting : world.shared.Lasting (.v4 address) :=
    ⟨sameEntry.trans pinned, by simp [noRecord]⟩
  have restored :
      (system.file.bans.foldl (Shared.restoreBan host)
        world.shared).Lasting (.v4 address) := by
    refine lasting.restoreBans fun ban inFile isBan => ?_
    rw [byList.saved ban inFile isBan]
    decide
  have started : final.world.shared.Lasting (.v4 address) := by
    rw [isFinal]
    refine Shared.Lasting.sweep (Shared.Lasting.refreshProtection ⟨?_, ?_⟩)
    · rw [(Shared.restore_maps host system.file world.shared).1]
      exact restored.entry
    · rw [(Shared.restore_maps host system.file world.shared).2]
      exact restored.record
  have gone := follows.2 address byList unlisted
  rw [blocklist, Blocklist.contains, started.entry] at gone
  cases gone

/-- A config ban of the state file is a config ban after the start. -/
theorem fileForgets_of_follows
    (restoresAll : RestoresAll host later system world)
    (follows : FollowsList old new system final) :
    system.FileForgets host new := by
  intro ban inFile isConfig runs
  by_contra notListed
  obtain ⟨distinct, stands⟩ := restoresAll
  obtain ⟨expiry, banned, notOver⟩ := stands ban inFile runs
  have restoredRecord :
      (world.shared.restore host system.file).records.lookup ban.ip =
        some ⟨ban.reason, ban.source, ban.strikes⟩ := by
    rw [(Shared.restore_maps host system.file world.shared).2,
      Shared.restoreBans_record,
      ((sources_of_start compiles readable ran _).2 notListed).2,
      Option.none_or, Shared.savedRecord_of_mem distinct inFile]
    obtain ⟨secs, isSecs⟩ := Option.ne_none_iff_exists'.mp runs
    rw [isSecs]
    rfl
  have notAuto :
      ∀ record ∈
          (world.shared.restore host system.file).records.lookup ban.ip,
        record.source ≠ "auto" := by
    rw [restoredRecord]
    intro record isRecord
    cases isRecord
    exact ne_of_eq_of_ne isConfig (by decide)
  obtain ⟨_, record⟩ :=
    Shared.kept_of_running host later autoProtected ownV6Prefixes new
      banned notOver notAuto
  refine notListed ((follows.1 ban.ip).mp
    ⟨⟨ban.reason, ban.source, ban.strikes⟩, ?_, isConfig⟩)
  rw [isFinal]
  exact record.trans (by rw [restoredRecord]; rfl)

end

variable [ScoreArith Score]

theorem run_restoreNexts
    {pending : List SavedBan}
    {rest : List DaemonEvent} :
    Runs.run step { system with phase := .starting new pending }
        ((pending.map fun _ => .restoreNext host) ++ rest) =
      Runs.run step
        { system.setShared
            (pending.foldl (Shared.restoreBan host) system.world.shared) with
          phase := .starting new [] }
        rest := by
  induction pending generalizing system with
  | nil =>
      rfl
  | cons ban pending inductionHypothesis =>
      exact inductionHypothesis

/-- A start restores, looks after the protected addresses, and sweeps. -/
theorem run_startSteps
    (host later : Host)
    (autoProtected : List Cidr)
    (ownV6Prefixes : List U64)
    (stopped : system.phase = .stopped)
    (ran :
      (applyConfig attempt new (new.policy profile)).run
        (system.opened new) = .ok () world) :
    (Runs.run step system
        (system.startSteps attempt new profile host autoProtected
          ownV6Prefixes later)).world.shared =
      ((world.shared.restore host system.file).refreshProtection host
        autoProtected ownV6Prefixes new).sweep later := by
  have booted :
      system.step (.boot attempt new profile) =
        { ({ system with world := world } : System Score) with
          phase := .starting new system.file.bans } := by
    simp only [System.step, stopped, System.boot, ran]
  show
    (Runs.run step (system.step (.boot attempt new profile)) _).world.shared =
      _
  rw [booted, run_restoreNexts]
  rfl

/-- Before a reload: an address banned by the old list, as recorded. -/
def RecordedByList
    (old : Config)
    (system : System Score)
    (address : U32) : Prop :=
  old.Blocks address ∧ system.ConfigRecord (.v4 address)

/-- A reload lifts the bans of the old list, and bans those of the new one. -/
theorem reload_follows_list
    {running : Config}
    (compiles : compile (new.policy profile) = .ok compiled)
    (readable : new.blockedCidrs = .ok blocked)
    (isRunning : system.phase = .running running)
    (ran :
      (applyConfig attempt new (new.policy profile)).run system.world =
        .ok () world) :
    let reloaded :=
      system.step
        (.reload attempt new profile autoProtected ownV6Prefixes)
    (∀ ip, reloaded.ConfigRecord ip ↔ new.Lists ip) ∧
      ((∀ address, system.RecordedByList old address →
          ¬new.Blocks address →
          reloaded.blocklist.contains (.v4 address) = false) ↔
        ∀ address, system.RecordedByList old address →
          ¬new.Blocks address →
          attempt.host.refusesRemove (.v4 address) = true →
          system.blocklist.contains (.v4 address) = false) := by
  have shape :
      (system.step (.reload attempt new profile autoProtected
          ownV6Prefixes)).world.shared =
        world.shared.refreshProtection attempt.host autoProtected
          ownV6Prefixes new := by
    simp only [System.step, isRunning, System.reload, ran]
  have settled := sources_of_ok compiles readable ran
  have written := (applyConfig_ok_iff compiles readable).mp ran
  dsimp only
  constructor
  · intro ip
    obtain ⟨ofListed, ofStale, ofOther⟩ := settled ip
    rw [lists_iff readable] at ofListed ofOther
    constructor
    · rintro ⟨record, known, isConfig⟩
      rw [shape] at known
      have recorded := Shared.refreshProtection_record known
      by_contra unlisted
      have notListed := mt (lists_iff readable).mp unlisted
      by_cases stale :
          ip ∈ staleSources system.world.shared.records
            (listedSources blocked)
      · rw [(ofStale stale).1] at recorded
        cases recorded
      · rw [(ofOther unlisted stale).2] at recorded
        exact stale
          (mem_staleSources.mpr ⟨⟨record, recorded, isConfig⟩, notListed⟩)
    · intro listed
      have record := (ofListed listed).2
      have notAuto :
          ∀ record ∈ world.shared.records.lookup ip,
            record.source ≠ "auto" := by
        rw [record]
        intro other isRecord
        cases isRecord
        decide
      refine ⟨configRecord, ?_, rfl⟩
      rw [shape]
      exact (Shared.refreshProtection_other attempt.host autoProtected
        ownV6Prefixes new notAuto).2.trans record
  · refine forall_congr' fun address => forall_congr' fun byList =>
      forall_congr' fun unlisted => ?_
    have notListed : .v4 address ∉ listedSources blocked := by
      intro listed
      obtain ⟨other, isOther, blocks⟩ := (lists_iff readable).mp listed
      cases isOther
      exact unlisted blocks
    obtain ⟨noRecord, refusedOrGone⟩ :=
      (settled (.v4 address)).2.1
        (mem_staleSources.mpr ⟨byList.2, notListed⟩)
    have sameEntry :=
      (Shared.refreshProtection_other attempt.host autoProtected
        ownV6Prefixes new
        (by simp [noRecord] :
          ∀ record ∈ world.shared.records.lookup (.v4 address),
            record.source ≠ "auto")).1
    have isEntry :
        (system.step (.reload attempt new profile autoProtected
            ownV6Prefixes)).blocklist.contains (.v4 address) =
          world.shared.blocklist.contains (.v4 address) := by
      rw [blocklist, shape, Blocklist.contains, sameEntry,
        Blocklist.contains]
    rw [isEntry]
    constructor
    · intro gone refused
      rwa [Blocklist.contains,
        entry_of_refused (fun _ member => member) written refused
          notListed] at gone
    · intro absent
      rcases refusedOrGone with refused | gone
      · rw [Blocklist.contains,
          entry_of_refused (fun _ member => member) written refused
            notListed]
        exact absent refused
      · rw [Blocklist.contains, gone]
        rfl

/--
A reload lifts every ban of the old list that the kernel lets go of.  A start
does so when the pinned maps and the state file have forgotten these bans
already, and, where all saved bans come back, only then.
-/
theorem config_bans_follow_list_iff
    (old new : Config)
    (accepted : new.validate = .ok ())
    (profile : Option String)
    (attempt : Attempt)
    (host later : Host)
    (autoProtected : List Cidr)
    (ownV6Prefixes : List U64)
    (system : System Score)
    (world : World Score) :
    (system.phase = .stopped →
        (applyConfig attempt new (new.policy profile)).run
            (system.opened new) = .ok () world →
        let started :=
          Runs.run step system
            (system.startSteps attempt new profile host autoProtected
              ownV6Prefixes later)
        (system.MapsForget old new ∧ system.FileForgets host new →
            FollowsList old new system started) ∧
          (FollowsList old new system started →
            system.MapsForget old new ∧
              (RestoresAll host later system world →
                system.FileForgets host new))) ∧
      ∀ running,
        system.phase = .running running →
        (applyConfig attempt new (new.policy profile)).run system.world =
          .ok () world →
        let reloaded :=
          system.step
            (.reload attempt new profile autoProtected ownV6Prefixes)
        (∀ ip, reloaded.ConfigRecord ip ↔ new.Lists ip) ∧
          ((∀ address, system.RecordedByList old address →
              ¬new.Blocks address →
              reloaded.blocklist.contains (.v4 address) = false) ↔
            ∀ address, system.RecordedByList old address →
              ¬new.Blocks address →
              attempt.host.refusesRemove (.v4 address) = true →
              system.blocklist.contains (.v4 address) = false) := by
  obtain ⟨compiled, blocked, compiles, readable⟩ :=
    compiled_of_accepted accepted profile
  refine ⟨fun stopped ran => ?_, fun running isRunning ran => ?_⟩
  · have isFinal :=
      run_startSteps host later autoProtected ownV6Prefixes stopped ran
    refine ⟨fun forgotten => ?_, fun follows => ⟨?_, fun restoresAll => ?_⟩⟩
    · exact follows_of_forgotten compiles readable ran isFinal
        forgotten.1 forgotten.2
    · exact mapsForget_of_follows compiles readable ran isFinal follows
    · exact fileForgets_of_follows compiles readable ran isFinal
        restoresAll follows
  · exact reload_follows_list compiles readable isRunning ran

end

/-- The configuration blocks one address. -/
def blocking : Config :=
  { Config.default with blocked := ["10.0.0.5"] }

theorem blocking_blocks : blocking.Blocks 0x0a000005 :=
  ⟨"10.0.0.5", List.mem_singleton.mpr rfl,
    ⟨0x0a000005, 0xffffffff⟩, by decide +kernel, by decide +kernel⟩

theorem default_blocks_nobody (address : U32) :
    ¬Config.default.Blocks address := by
  rintro ⟨text, listed, _⟩
  cases listed

/-- A start with the blocked address. -/
def blockingStart : List DaemonEvent :=
  [.boot (refusing fun _ => false) blocking none,
    .restored (clockedHost 1000 1000000) [] []]

/-- The state is saved, and the daemon stops. -/
def blockedAndSaved : System ℚ :=
  Runs.run step unstarted
    (blockingStart ++ [.save (clockedHost 1000 1000000) true, .crash])

/-- The address is off the list at the next start. -/
def restartedWithout : System ℚ :=
  Runs.run step blockedAndSaved
    (blockedAndSaved.startSteps (refusing fun _ => false) .default none
      (clockedHost 1010 1000010) [] [] (clockedHost 1010 1000010))

theorem restartedWithout_banned :
    restartedWithout.blocklist.lookup (.v4 0x0a000005) =
      some banForever := by
  decide +kernel

theorem blockedAndSaved_byList :
    blockedAndSaved.BannedByList blocking 0x0a000005 where
  listed := blocking_blocks
  saved := by
    have areConfig :
        (blockedAndSaved.file.bans.all fun ban =>
          ban.source = "config") = true := by
      decide +kernel
    intro ban inFile _
    exact of_decide_eq_true (List.all_eq_true.mp areConfig ban inFile)
  pinned := by
    have banned :
        blockedAndSaved.blocklist.lookup (.v4 0x0a000005) =
          some banForever := by
      decide +kernel
    rw [banned]
    intro expiry isForever
    cases isForever
    rfl

theorem restartedWithout_follows_not :
    ¬FollowsList blocking .default blockedAndSaved restartedWithout := by
  intro follows
  have gone :=
    follows.2 0x0a000005 blockedAndSaved_byList (default_blocks_nobody _)
  rw [Blocklist.contains, restartedWithout_banned] at gone
  cases gone

/-- It stays banned, as a config ban. -/
theorem restart_keeps_delisted_ban :
    blocking.validate = .ok () ∧ Config.default.validate = .ok () ∧
      blocking.Blocks 0x0a000005 ∧ ¬Config.default.Blocks 0x0a000005 ∧
      restartedWithout.blocklist.lookup (.v4 0x0a000005) =
        some banForever ∧
      restartedWithout.world.shared.records.lookup (.v4 0x0a000005) =
        some configRecord ∧
      ¬FollowsList blocking .default blockedAndSaved restartedWithout :=
  ⟨by decide +kernel, Config.validate_default, blocking_blocks,
    default_blocks_nobody _, restartedWithout_banned, by decide +kernel,
    restartedWithout_follows_not⟩

/-- A reload without the address lifts its ban. -/
theorem reload_lifts_delisted_ban :
    ((Runs.run step unstarted blockingStart).step
        (.reload (refusing fun _ => false) .default none []
          [])).blocklist.contains (.v4 0x0a000005) = false := by
  generalize isSystem : Runs.run step unstarted blockingStart = system
  have runs : system.phase.running?.isSome = true := by
    rw [← isSystem]
    decide +kernel
  have ran :
      (applyConfig (refusing fun _ => false) .default
          (Config.default.policy none)).run system.world =
        .ok () (ruleStep system.world
          (.call (refusing fun _ => false) .default none)) := by
    refine ran_of_finished ?_
    rw [← isSystem]
    decide +kernel
  have recorded :
      system.world.shared.records.lookup (.v4 0x0a000005) =
        some configRecord := by
    rw [← isSystem]
    decide +kernel
  obtain ⟨running, isRunning⟩ := Phase.exists_of_running runs
  have lifts :=
    (config_bans_follow_list_iff blocking .default
      Config.validate_default none (refusing fun _ => false)
      (clockedHost 1000 1000000) (clockedHost 1000 1000000) [] []
      system _).2 running isRunning ran
  refine lifts.2.mpr (fun _ _ _ refused => ?_) 0x0a000005
    ⟨blocking_blocks, configRecord, recorded, rfl⟩
    (default_blocks_nobody _)
  cases refused

end System

end AiFirewall

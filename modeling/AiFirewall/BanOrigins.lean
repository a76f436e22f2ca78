import AiFirewall.BanWriters

namespace AiFirewall

/-!
# Who placed a ban

Runs of the daemon and the command line, with the writer of each entry.  The
records name the writers as long as no ban by hand meets another one, no crash
comes before the state is saved, and no removal is refused; then an automatic
ban never lifts one by hand, and no protected source is banned.
-/

open FallibleWrites

/-- The firewall, with the writer of each entry of the pinned maps. -/
structure Placed (Score : Type) where
  system : System Score
  writer : Writers

namespace Placed

section

variable {Score : Type}

def shared (placed : Placed Score) : Shared Score :=
  placed.system.world.shared

/-- The saved bans of these sources are still to restore. -/
def Expected (placed : Placed Score) (ip : Src) : Prop :=
  match placed.system.phase with
  | .starting _ pending => ∃ ban ∈ pending, ban.ip = ip
  | _ => False

/-- While a daemon runs, its records name the writers. -/
structure Tracked (placed : Placed Score) : Prop where
  validated : ∀ cfg ∈ placed.system.inForce?, cfg.validate = .ok ()
  attributed :
    placed.system.inForce?.isSome = true →
    ∀ ip, placed.shared.Attributed placed.writer placed.Expected ip

variable [ScoreArith Score]

/-- The entries that an event writes. -/
def writes (placed : Placed Score) (event : DaemonEvent) : Writers :=
  let shared := placed.shared
  match event, placed.system.phase with
  | .ban host ip minutes, _ =>
      if (shared.blocklist.insert? host ip
          (expiryFor host (minutes * 60))).isSome then
        Function.update placed.writer ip "manual"
      else
        placed.writer
  | .boot attempt cfg profile, .stopped =>
      configWrites attempt cfg profile (placed.system.opened cfg)
        placed.writer
  | .restoreNext host, .starting _ (ban :: _) =>
      shared.restoreWrites host ban placed.writer
  | .batch host events, .running _ =>
      Shared.batchWrites host events shared placed.writer
  | .reload attempt cfg profile _ _, .running _ =>
      configWrites attempt cfg profile placed.system.world placed.writer
  | .switchProfile attempt profile, .running cfg =>
      configWrites attempt cfg profile placed.system.world placed.writer
  | _, _ => placed.writer

def step (placed : Placed Score) (event : DaemonEvent) : Placed Score where
  system := placed.system.step event
  writer := placed.writes event

/-- The kernel refuses none of an event's removals. -/
def Willing : DaemonEvent → Prop
  | .restored host _ _ => ∀ ip, host.refusesRemove ip = false
  | .reload attempt _ _ _ _ =>
      ∀ ip, attempt.host.refusesRemove ip = false
  | .switchProfile attempt _ =>
      ∀ ip, attempt.host.refusesRemove ip = false
  | .sweep host => ∀ ip, host.refusesRemove ip = false
  | .refresh host _ _ => ∀ ip, host.refusesRemove ip = false
  | _ => True

/--
An event after which records can name the writers: a ban by hand is not put on
top of the record of another one, a start finds the bans of the maps in the
state file, under their writers' names, and removals are not refused.
-/
def KeepsTrack (placed : Placed Score) (event : DaemonEvent) : Prop :=
  System.Validated event ∧ Willing event ∧
    match event, placed.system.phase with
    | .ban _ _ _, .stopped => True
    | .ban host ip minutes, _ =>
        (placed.shared.blocklist.insert? host ip
          (expiryFor host (minutes * 60))).isSome = true →
        ∀ record ∈ placed.shared.records.lookup ip,
          record.source = "manual"
    | .boot _ cfg _, .stopped =>
        ∀ ip, placed.system.blocklist.contains ip = true →
          ¬cfg.Lists ip →
          placed.writer ip = "manual" ∨
            ∃ ban ∈ placed.system.file.bans, ban.ip = ip
    | .restoreNext host, .starting _ (ban :: pending) =>
        placed.shared.RestoresTrue host placed.writer pending ban
    | _, _ => True

variable
  {placed next : Placed Score}
  {event : DaemonEvent}

omit [ScoreArith Score] in
theorem Tracked.of_phase
    (tracked : placed.Tracked)
    (samePhase : next.system.phase = placed.system.phase)
    (attributed :
      ∀ ip,
        placed.shared.Attributed placed.writer placed.Expected ip →
        next.shared.Attributed next.writer placed.Expected ip) :
    next.Tracked where
  validated := by
    rw [System.inForce?, samePhase]
    exact tracked.validated
  attributed := by
    have sameExpected : next.Expected = placed.Expected := by
      funext ip
      rw [Expected, Expected, samePhase]
    rw [System.inForce?, samePhase, sameExpected]
    exact fun inForce ip => attributed ip (tracked.attributed inForce ip)

omit [ScoreArith Score] in
theorem tracked_of_running
    {cfg : Config}
    (isRunning : next.system.phase = .running cfg)
    (validated : cfg.validate = .ok ())
    (attributed :
      ∀ ip,
        next.shared.Attributed next.writer (fun _ => False) ip) :
    next.Tracked where
  validated := by
    rw [System.inForce?, isRunning]
    intro other isOther
    cases isOther
    exact validated
  attributed := by
    have nothing : next.Expected = fun _ => False := by
      funext ip
      rw [Expected, isRunning]
    rw [nothing]
    exact fun _ => attributed

omit [ScoreArith Score] in
theorem tracked_of_stopped
    (isStopped : next.system.phase = .stopped) :
    next.Tracked where
  validated := by
    rw [System.inForce?, isStopped]
    intro other isOther
    cases isOther
  attributed := by
    rw [System.inForce?, isStopped]
    intro inForce
    cases inForce

omit [ScoreArith Score] in
/-- A ban by hand is recorded as such, or not yet recorded. -/
theorem tracked_insert
    {host : Host}
    {ip : Src}
    {expiry : U64}
    (tracked : placed.Tracked)
    (byHand :
      placed.system.inForce?.isSome = true →
      (placed.shared.blocklist.insert? host ip expiry).isSome = true →
      ∀ record ∈ placed.shared.records.lookup ip,
        record.source = "manual") :
    Tracked
      ⟨placed.system.setBlocklist
          ((placed.shared.blocklist.insert? host ip expiry).getD
            placed.shared.blocklist),
        if (placed.shared.blocklist.insert? host ip expiry).isSome then
          Function.update placed.writer ip "manual"
        else
          placed.writer⟩ := by
  cases inserted : placed.shared.blocklist.insert? host ip expiry with
  | none => exact tracked.of_phase rfl fun _ attributed => attributed
  | some changed =>
      have names
          (inForce : placed.system.inForce?.isSome = true)
          (other : Src) :
          (placed.system.setBlocklist changed).world.shared.Attributed
            (Function.update placed.writer ip "manual") placed.Expected
            other := by
        by_cases isBan : other = ip
        · subst isBan
          intro _
          cases known : placed.shared.records.lookup other with
          | none =>
              exact .inr ⟨known, .inl (Function.update_self _ _ _)⟩
          | some record =>
              refine .inl ⟨record, known, ?_⟩
              rw [Function.update_self]
              exact byHand inForce (by rw [inserted]; rfl) record known
        · refine (tracked.attributed inForce other).of_same
            (Shared.contains_of_same ?_) rfl
            (Function.update_of_ne isBan _ _)
          exact (Blocklist.lookup_of_insert? inserted other).trans
            (if_neg isBan)
      exact
        { validated := tracked.validated
          attributed := names }

omit [ScoreArith Score] in
theorem Tracked.of_isRunning
    {cfg : Config}
    (tracked : placed.Tracked)
    (isRunning : placed.system.phase = .running cfg)
    (ip : Src) :
    placed.shared.Attributed placed.writer (fun _ => False) ip := by
  have nothing : placed.Expected = fun _ => False := by
    funext other
    rw [Expected, isRunning]
  rw [← nothing]
  refine tracked.attributed ?_ ip
  rw [System.inForce?, isRunning]
  rfl

omit [ScoreArith Score] in
/-- A start that finds the maps in the state file is on track. -/
theorem tracked_boot
    {attempt : Attempt}
    {cfg : Config}
    {profile : Option String}
    (validated : cfg.validate = .ok ())
    (inFile :
      ∀ ip, placed.system.blocklist.contains ip = true →
        ¬cfg.Lists ip →
        placed.writer ip = "manual" ∨
          ∃ ban ∈ placed.system.file.bans, ban.ip = ip) :
    Tracked
      ⟨placed.system.boot attempt cfg profile,
        configWrites attempt cfg profile (placed.system.opened cfg)
          placed.writer⟩ := by
  obtain ⟨compiled, blocked, compiles, readable⟩ :=
    compiled_of_accepted validated profile
  unfold System.boot
  split
  · rename_i world ran
    refine
      { validated := fun other isOther => ?_
        attributed := fun _ ip => ?_ }
    · cases isOther
      exact validated
    · obtain ⟨ofListed, ofOther⟩ :=
        System.sources_of_start compiles readable ran ip
      by_cases listed : cfg.Lists ip
      · refine Shared.attributed_of_record (ofListed listed).2 ?_
        exact (configWrites_of_listed validated ran listed).symm
      · obtain ⟨sameEntry, unknown⟩ := ofOther listed
        intro present
        refine .inr ⟨unknown, ?_⟩
        show configWrites attempt cfg profile _ _ ip = _ ∨ _
        rw [configWrites_of_unlisted validated (.inl ran) listed]
        refine inFile ip ?_ listed
        rwa [Blocklist.contains, ← sameEntry]
  · exact tracked_of_stopped rfl

omit [ScoreArith Score] in
theorem tracked_reload
    {attempt : Attempt}
    {running cfg : Config}
    {profile : Option String}
    {autoProtected : List Cidr}
    {ownV6Prefixes : List U64}
    (isRunning : placed.system.phase = .running running)
    (validated : cfg.validate = .ok ())
    (willing : ∀ ip, attempt.host.refusesRemove ip = false)
    (tracked : placed.Tracked) :
    Tracked
      ⟨placed.system.reload attempt cfg profile autoProtected
          ownV6Prefixes,
        configWrites attempt cfg profile placed.system.world
          placed.writer⟩ := by
  have wasValidated : running.validate = .ok () :=
    tracked.validated running (by rw [System.inForce?, isRunning]; rfl)
  unfold System.reload
  split
  · rename_i world ran
    refine tracked_of_running rfl validated fun ip => ?_
    exact Shared.attributed_refreshProtection
      (attributed_call validated (.inl ran) willing
        (tracked.of_isRunning isRunning ip))
      willing autoProtected ownV6Prefixes cfg
  · rename_i failure world ran
    refine tracked_of_running isRunning wasValidated fun ip => ?_
    exact attributed_call validated (.inr ⟨failure, ran⟩) willing
      (tracked.of_isRunning isRunning ip)

omit [ScoreArith Score] in
theorem tracked_switchProfile
    {attempt : Attempt}
    {running : Config}
    {profile : Option String}
    (isRunning : placed.system.phase = .running running)
    (willing : ∀ ip, attempt.host.refusesRemove ip = false)
    (tracked : placed.Tracked) :
    Tracked
      ⟨placed.system.switchProfile attempt running profile,
        configWrites attempt running profile placed.system.world
          placed.writer⟩ := by
  have validated : running.validate = .ok () :=
    tracked.validated running (by rw [System.inForce?, isRunning]; rfl)
  unfold System.switchProfile
  split
  · rename_i world ran
    refine tracked_of_running isRunning validated fun ip => ?_
    exact attributed_call validated (.inl ran) willing
      (tracked.of_isRunning isRunning ip)
  · rename_i failure world ran
    refine tracked_of_running isRunning validated fun ip => ?_
    exact attributed_call validated (.inr ⟨failure, ran⟩) willing
      (tracked.of_isRunning isRunning ip)

/-- While the daemon runs, every event keeps the records on track. -/
theorem tracked_step_of_running
    {cfg : Config}
    (isRunning : placed.system.phase = .running cfg)
    (keeps : placed.KeepsTrack event)
    (tracked : placed.Tracked) :
    (placed.step event).Tracked := by
  obtain ⟨validated, willing, condition⟩ := keeps
  have cfgValidated : cfg.validate = .ok () :=
    tracked.validated cfg (by rw [System.inForce?, isRunning]; rfl)
  have attributed := tracked.of_isRunning isRunning
  cases event with
  | ban host ip minutes =>
      refine tracked_insert tracked fun _ accepted => ?_
      simp only [isRunning] at condition
      exact condition accepted
  | unban host ip =>
      exact tracked.of_phase rfl fun other attributed =>
        attributed.of_same Blocklist.contains_of_drop rfl rfl
  | boot attempt cfg profile =>
      simp only [step, System.step, writes, isRunning]
      exact tracked
  | restoreNext host =>
      simp only [step, System.step, writes, isRunning]
      exact tracked
  | restored host autoProtected ownV6Prefixes =>
      simp only [step, System.step, writes, isRunning]
      exact tracked
  | batch host events =>
      simp only [step, System.step, writes, isRunning]
      exact tracked_of_running isRunning cfgValidated fun ip =>
        Shared.attributed_handleBatch (attributed ip) events
  | reload attempt cfg profile autoProtected ownV6Prefixes =>
      simp only [step, System.step, writes, isRunning]
      exact tracked_reload isRunning validated willing tracked
  | switchProfile attempt profile =>
      simp only [step, System.step, writes, isRunning]
      exact tracked_switchProfile isRunning willing tracked
  | udpMode strict =>
      simp only [step, System.step, writes, isRunning]
      exact tracked_of_running isRunning cfgValidated attributed
  | sweep host =>
      simp only [step, System.step, writes, isRunning]
      exact tracked_of_running isRunning cfgValidated fun ip =>
        Shared.attributed_sweep (attributed ip) willing
  | refresh host autoProtected ownV6Prefixes =>
      simp only [step, System.step, writes, isRunning]
      exact tracked_of_running isRunning cfgValidated fun ip =>
        Shared.attributed_refreshProtection (attributed ip) willing
          autoProtected ownV6Prefixes cfg
  | prune host =>
      simp only [step, System.step, writes, isRunning]
      exact tracked_of_running isRunning cfgValidated attributed
  | save host stored =>
      simp only [step, System.step, writes, isRunning]
      refine tracked_of_running isRunning cfgValidated fun ip => ?_
      cases stored with
      | true => exact attributed ip
      | false => exact attributed ip
  | crash =>
      exact tracked_of_stopped rfl

/-- While a daemon starts, saved bans come back under their writers' names. -/
theorem tracked_step_of_starting
    {cfg : Config}
    {pending : List SavedBan}
    (isStarting : placed.system.phase = .starting cfg pending)
    (keeps : placed.KeepsTrack event)
    (tracked : placed.Tracked) :
    (placed.step event).Tracked := by
  obtain ⟨_, willing, condition⟩ := keeps
  have cfgValidated : cfg.validate = .ok () :=
    tracked.validated cfg (by rw [System.inForce?, isStarting]; rfl)
  have attributed
      (ip : Src) :
      placed.shared.Attributed placed.writer
        (fun ip => ∃ ban ∈ pending, ban.ip = ip) ip := by
    have isExpected :
        placed.Expected = fun ip => ∃ ban ∈ pending, ban.ip = ip := by
      funext ip
      rw [Expected, isStarting]
    rw [← isExpected]
    refine tracked.attributed ?_ ip
    rw [System.inForce?, isStarting]
    rfl
  cases event with
  | ban host ip minutes =>
      refine tracked_insert tracked fun _ accepted => ?_
      simp only [isStarting] at condition
      exact condition accepted
  | unban host ip =>
      exact tracked.of_phase rfl fun other attributed =>
        attributed.of_same Blocklist.contains_of_drop rfl rfl
  | restoreNext host =>
      cases pending with
      | nil =>
          simp only [step, System.step, writes, isStarting]
          exact tracked
      | cons ban rest =>
          simp only [isStarting] at condition
          simp only [step, System.step, writes, isStarting]
          exact
            { validated := fun other isOther => by
                cases isOther
                exact cfgValidated
              attributed := fun _ ip =>
                Shared.attributed_restoreBan (attributed ip) condition }
  | restored host autoProtected ownV6Prefixes =>
      cases pending with
      | cons ban rest =>
          simp only [step, System.step, writes, isStarting]
          exact tracked
      | nil =>
          simp only [step, System.step, writes, isStarting]
          refine tracked_of_running rfl cfgValidated fun ip => ?_
          refine Shared.attributed_refreshProtection ?_ willing
            autoProtected ownV6Prefixes cfg
          rw [Shared.restoreOffenders_eq]
          intro present
          refine (attributed ip present).imp_right fun unknown =>
            ⟨unknown.1, unknown.2.imp_right ?_⟩
          rintro ⟨ban, member, _⟩
          cases member
  | crash =>
      exact tracked_of_stopped rfl
  | boot attempt cfg profile =>
      simp only [step, System.step, writes, isStarting]
      exact tracked
  | batch host events =>
      simp only [step, System.step, writes, isStarting]
      exact tracked
  | reload attempt cfg profile autoProtected ownV6Prefixes =>
      simp only [step, System.step, writes, isStarting]
      exact tracked
  | switchProfile attempt profile =>
      simp only [step, System.step, writes, isStarting]
      exact tracked
  | udpMode strict =>
      simp only [step, System.step, writes, isStarting]
      exact tracked
  | sweep host =>
      simp only [step, System.step, writes, isStarting]
      exact tracked
  | refresh host autoProtected ownV6Prefixes =>
      simp only [step, System.step, writes, isStarting]
      exact tracked
  | prune host =>
      simp only [step, System.step, writes, isStarting]
      exact tracked
  | save host stored =>
      simp only [step, System.step, writes, isStarting]
      exact tracked

/-- Only a start ends the time without a daemon. -/
theorem stays_stopped
    {system : System Score}
    (isStopped : system.phase = .stopped)
    (notBoot :
      ∀ attempt cfg profile, event ≠ .boot attempt cfg profile) :
    (system.step event).phase = .stopped := by
  unfold System.step
  split
  · exact isStopped
  · exact isStopped
  · rfl
  · rename_i attempt cfg profile _
    exact absurd rfl (notBoot attempt cfg profile)
  all_goals simp_all

/-- One event, on track before and after. -/
theorem tracked_step
    (keeps : placed.KeepsTrack event)
    (tracked : placed.Tracked) :
    (placed.step event).Tracked := by
  cases phase : placed.system.phase with
  | running cfg => exact tracked_step_of_running phase keeps tracked
  | starting cfg pending =>
      exact tracked_step_of_starting phase keeps tracked
  | stopped =>
      by_cases isBoot :
          ∃ attempt cfg profile, event = .boot attempt cfg profile
      · obtain ⟨attempt, cfg, profile, same⟩ := isBoot
        subst same
        obtain ⟨validated, _, condition⟩ := keeps
        simp only [phase] at condition
        simp only [step, System.step, writes, phase]
        exact tracked_boot validated condition
      · refine tracked_of_stopped (stays_stopped phase ?_)
        intro attempt cfg profile same
        exact isBoot ⟨attempt, cfg, profile, same⟩

/-- Over a run that keeps track, the records name the writers. -/
theorem tracked_run
    {start : Placed Score}
    {events : List DaemonEvent}
    (stopped : start.system.phase = .stopped)
    (keeps :
      Runs.Stepwise
        (fun past => (Runs.run step start past).KeepsTrack) events) :
    (Runs.run step start events).Tracked :=
  keeps.invariant (fun _ (reached : Placed Score) => reached.Tracked)
    (tracked_of_stopped stopped) fun _ _ keeps => tracked_step keeps

/-- Every ban that runs on has a record that says who placed it. -/
def NamesWriters (placed : Placed Score) (host : Host) : Prop :=
  ∀ ip expiry, placed.system.blocklist.lookup ip = some expiry →
    remaining host expiry ≠ none →
    ∃ record ∈ placed.shared.records.lookup ip,
      record.source = placed.writer ip

/-- A ban by hand stays, or the configuration bans its source anew. -/
def LiftsNoManual (before after : Placed Score) : Prop :=
  ∀ ip expiry, before.system.blocklist.lookup ip = some expiry →
    before.writer ip = "manual" →
    after.system.blocklist.lookup ip = some expiry ∨
      after.writer ip = "config"

/-- No ban of the detector stands on a protected address. -/
def BansNoProtected (placed : Placed Score) : Prop :=
  ∀ ip, placed.system.blocklist.contains ip = true →
    placed.writer ip = "auto" →
    placed.shared.detector.isProtected ip = false

/-- `refresh_protection` and `apply_config` lift bans by their source. -/
def LiftsBySource : DaemonEvent → Prop
  | .boot _ _ _ => True
  | .restored _ _ _ => True
  | .reload _ _ _ _ _ => True
  | .switchProfile _ _ => True
  | .refresh _ _ _ => True
  | _ => False

/-- An event with a refresh; a reload has one when it succeeds. -/
def Refreshes (placed : Placed Score) (event : DaemonEvent) : Prop :=
  match event, placed.system.phase with
  | .restored _ _ _, .starting _ [] => True
  | .refresh _ _ _, .running _ => True
  | .reload attempt cfg profile _ _, .running _ =>
      ∃ world,
        (applyConfig attempt cfg (cfg.policy profile)).run
          placed.system.world = .ok () world
  | _, _ => False

omit [ScoreArith Score] in
theorem contains_of_lookup
    {blocklist : Blocklist}
    {ip : Src}
    {expiry : U64}
    (banned : blocklist.lookup ip = some expiry) :
    blocklist.contains ip = true := by
  rw [Blocklist.contains, banned]
  rfl

omit [ScoreArith Score] in
/-- Neither the call of a reload nor its refresh lifts a ban by hand. -/
theorem reload_liftsNoManual
    {attempt : Attempt}
    {running cfg : Config}
    {profile : Option String}
    {autoProtected : List Cidr}
    {ownV6Prefixes : List U64}
    (isRunning : placed.system.phase = .running running)
    (validated : cfg.validate = .ok ())
    (willing : ∀ ip, attempt.host.refusesRemove ip = false)
    (tracked : placed.Tracked) :
    placed.LiftsNoManual
      ⟨placed.system.reload attempt cfg profile autoProtected
          ownV6Prefixes,
        configWrites attempt cfg profile placed.system.world
          placed.writer⟩ := by
  intro ip expiry banned byHand
  have attributed := tracked.of_isRunning isRunning ip
  have notConfig :
      ∀ record ∈ placed.shared.records.lookup ip,
        record.source ≠ "config" := by
    intro record known
    rw [attributed.manual (contains_of_lookup banned) byHand record known]
    decide
  unfold System.reload
  split
  · rename_i world ran
    rcases call_keeps validated (.inl ran) notConfig with
      isConfig | ⟨sameWriter, sameEntry⟩
    · exact .inr isConfig
    · left
      have stillBanned :
          world.shared.blocklist.lookup ip = some expiry :=
        sameEntry.trans banned
      have called :=
        attributed_call validated (.inl ran) willing attributed
      refine Eq.trans ?_ stillBanned
      exact called.refreshProtection_manual
        (contains_of_lookup stillBanned) (sameWriter.trans byHand)
        autoProtected ownV6Prefixes cfg
  · rename_i failure world ran
    rcases call_keeps validated (.inr ⟨failure, ran⟩) notConfig with
      isConfig | ⟨_, sameEntry⟩
    · exact .inr isConfig
    · exact .inl (sameEntry.trans banned)

omit [ScoreArith Score] in
theorem boot_liftsNoManual
    {attempt : Attempt}
    {cfg : Config}
    {profile : Option String}
    (validated : cfg.validate = .ok ()) :
    placed.LiftsNoManual
      ⟨placed.system.boot attempt cfg profile,
        configWrites attempt cfg profile (placed.system.opened cfg)
          placed.writer⟩ := by
  intro ip expiry banned _
  have opened :
      (placed.system.opened cfg).shared.blocklist.lookup ip =
        some expiry :=
    (System.lookup_opened placed.system cfg ip).trans banned
  have notConfig :
      ∀ record ∈ (placed.system.opened cfg).shared.records.lookup ip,
        record.source ≠ "config" := by
    intro record known
    cases known
  unfold System.boot
  split
  · rename_i world ran
    rcases call_keeps validated (.inl ran) notConfig with
      isConfig | ⟨_, sameEntry⟩
    · exact .inr isConfig
    · exact .inl (sameEntry.trans opened)
  · rename_i failure world ran
    rcases call_keeps validated (.inr ⟨failure, ran⟩) notConfig with
      isConfig | ⟨_, sameEntry⟩
    · exact .inr isConfig
    · exact .inl (sameEntry.trans opened)

omit [ScoreArith Score] in
theorem switchProfile_liftsNoManual
    {attempt : Attempt}
    {running : Config}
    {profile : Option String}
    (isRunning : placed.system.phase = .running running)
    (tracked : placed.Tracked) :
    placed.LiftsNoManual
      ⟨placed.system.switchProfile attempt running profile,
        configWrites attempt running profile placed.system.world
          placed.writer⟩ := by
  intro ip expiry banned byHand
  have validated : running.validate = .ok () :=
    tracked.validated running (by rw [System.inForce?, isRunning]; rfl)
  have notConfig :
      ∀ record ∈ placed.shared.records.lookup ip,
        record.source ≠ "config" := by
    intro record known
    rw [(tracked.of_isRunning isRunning ip).manual
      (contains_of_lookup banned) byHand record known]
    decide
  unfold System.switchProfile
  split
  · rename_i world ran
    rcases call_keeps validated (.inl ran) notConfig with
      isConfig | ⟨_, sameEntry⟩
    · exact .inr isConfig
    · exact .inl (sameEntry.trans banned)
  · rename_i failure world ran
    rcases call_keeps validated (.inr ⟨failure, ran⟩) notConfig with
      isConfig | ⟨_, sameEntry⟩
    · exact .inr isConfig
    · exact .inl (sameEntry.trans banned)

omit [ScoreArith Score] in
theorem liftsNoManual_same :
    placed.LiftsNoManual placed :=
  fun _ _ banned _ => .inl banned

theorem liftsNoManual_step
    (lifts : LiftsBySource event)
    (keeps : placed.KeepsTrack event)
    (tracked : placed.Tracked) :
    placed.LiftsNoManual (placed.step event) := by
  obtain ⟨validated, willing, _⟩ := keeps
  cases event with
  | boot attempt cfg profile =>
      cases phase : placed.system.phase with
      | stopped =>
          simp only [step, System.step, writes, phase]
          exact boot_liftsNoManual validated
      | starting cfg pending =>
          simp only [step, System.step, writes, phase]
          exact liftsNoManual_same
      | running cfg =>
          simp only [step, System.step, writes, phase]
          exact liftsNoManual_same
  | restored host autoProtected ownV6Prefixes =>
      cases phase : placed.system.phase with
      | stopped =>
          simp only [step, System.step, writes, phase]
          exact liftsNoManual_same
      | running cfg =>
          simp only [step, System.step, writes, phase]
          exact liftsNoManual_same
      | starting cfg pending =>
          cases pending with
          | cons ban rest =>
              simp only [step, System.step, writes, phase]
              exact liftsNoManual_same
          | nil =>
              simp only [step, System.step, writes, phase]
              intro ip expiry banned byHand
              left
              let restored :=
                placed.system.file.offenders.foldl
                  (Shared.restoreOffender host) placed.shared
              have sameEntry :
                  restored.blocklist.lookup ip = some expiry := by
                rw [show restored = _ from
                  Shared.restoreOffenders_eq host _ placed.shared]
                exact banned
              have attributed :
                  restored.Attributed placed.writer placed.Expected
                    ip := by
                rw [show restored = _ from
                  Shared.restoreOffenders_eq host _ placed.shared]
                exact tracked.attributed
                  (by rw [System.inForce?, phase]; rfl) ip
              exact (attributed.refreshProtection_manual
                (contains_of_lookup sameEntry) byHand autoProtected
                ownV6Prefixes cfg).trans sameEntry
  | reload attempt cfg profile autoProtected ownV6Prefixes =>
      cases phase : placed.system.phase with
      | stopped =>
          simp only [step, System.step, writes, phase]
          exact liftsNoManual_same
      | starting running pending =>
          simp only [step, System.step, writes, phase]
          exact liftsNoManual_same
      | running running =>
          simp only [step, System.step, writes, phase]
          exact reload_liftsNoManual phase validated willing tracked
  | switchProfile attempt profile =>
      cases phase : placed.system.phase with
      | stopped =>
          simp only [step, System.step, writes, phase]
          exact liftsNoManual_same
      | starting running pending =>
          simp only [step, System.step, writes, phase]
          exact liftsNoManual_same
      | running running =>
          simp only [step, System.step, writes, phase]
          exact switchProfile_liftsNoManual phase tracked
  | refresh host autoProtected ownV6Prefixes =>
      cases phase : placed.system.phase with
      | stopped =>
          simp only [step, System.step, writes, phase]
          exact liftsNoManual_same
      | starting running pending =>
          simp only [step, System.step, writes, phase]
          exact liftsNoManual_same
      | running running =>
          simp only [step, System.step, writes, phase]
          intro ip expiry banned byHand
          left
          refine Eq.trans ?_ banned
          exact (tracked.of_isRunning phase ip).refreshProtection_manual
            (contains_of_lookup banned) byHand autoProtected
            ownV6Prefixes running
  | _ => exact lifts.elim

omit [ScoreArith Score] in
/-- After a refresh an automatic ban has an automatic record. -/
theorem bansNoProtected_of_refresh
    {cfg : Config}
    {shared : Shared Score}
    {host : Host}
    {autoProtected : List Cidr}
    {ownV6Prefixes : List U64}
    (isRunning : next.system.phase = .running cfg)
    (tracked : next.Tracked)
    {refreshedFor : Config}
    (isRefresh :
      next.shared =
        shared.refreshProtection host autoProtected ownV6Prefixes
          refreshedFor) :
    next.BansNoProtected := by
  intro ip present isAuto
  rcases tracked.of_isRunning isRunning ip present with
    ⟨record, known, names⟩ | ⟨_, byHand | expected⟩
  · rw [isRefresh] at known ⊢
    exact Shared.unprotected_of_refresh known (names.trans isAuto)
  · rw [byHand] at isAuto
    exact absurd isAuto (by decide)
  · exact expected.elim

theorem bansNoProtected_step
    (refreshes : placed.Refreshes event)
    (keeps : placed.KeepsTrack event)
    (tracked : placed.Tracked) :
    (placed.step event).BansNoProtected := by
  have tracked := tracked_step keeps tracked
  unfold Refreshes at refreshes
  split at refreshes
  · rename_i host autoProtected ownV6Prefixes cfg phase
    simp only [step, System.step, writes, phase] at tracked ⊢
    exact bansNoProtected_of_refresh rfl tracked rfl
  · rename_i host autoProtected ownV6Prefixes cfg phase
    simp only [step, System.step, writes, phase] at tracked ⊢
    exact bansNoProtected_of_refresh phase tracked rfl
  · rename_i attempt cfg profile autoProtected ownV6Prefixes running phase
    obtain ⟨world, ran⟩ := refreshes
    simp only [step, System.step, writes, phase, System.reload, ran]
      at tracked ⊢
    exact bansNoProtected_of_refresh rfl tracked rfl
  · exact refreshes.elim

/--
While no ban by hand is put on top of another record, starts find the maps in
the state file, and removals are not refused: right after a sweep every
record names the writer of its ban, no ban by hand is lifted, and no ban of
the detector is kept on a protected address.
-/
theorem records_name_writers
    {start : Placed Score}
    (stopped : start.system.phase = .stopped)
    (events : List DaemonEvent)
    (keeps :
      Runs.Stepwise
        (fun past => (Runs.run step start past).KeepsTrack) events) :
    (∀ past host rest cfg,
        events = past ++ .sweep host :: rest →
        (Runs.run step start past).system.phase = .running cfg →
        (Runs.run step start (past ++ [.sweep host])).NamesWriters host) ∧
      (∀ past event rest,
        events = past ++ event :: rest →
        LiftsBySource event →
        (Runs.run step start past).LiftsNoManual
          (Runs.run step start (past ++ [event]))) ∧
      ∀ past event rest,
        events = past ++ event :: rest →
        (Runs.run step start past).Refreshes event →
        (Runs.run step start (past ++ [event])).BansNoProtected := by
  have trackedAt
      {past rest : List DaemonEvent}
      {event : DaemonEvent}
      (shape : events = past ++ event :: rest) :
      (Runs.run step start past).Tracked ∧
        (Runs.run step start past).KeepsTrack event :=
    ⟨tracked_run stopped (Runs.Stepwise.before (shape ▸ keeps)),
      keeps past event rest shape⟩
  refine ⟨?_, ?_, ?_⟩
  · intro past host rest cfg shape isRunning
    obtain ⟨tracked, _, willing, _⟩ := trackedAt shape
    rw [Runs.run_concat]
    simp only [step, System.step, writes, isRunning]
    intro ip expiry banned _
    obtain ⟨before, runs⟩ := Shared.runs_of_sweep willing banned
    exact Shared.sweep_names_writer (tracked.of_isRunning isRunning ip)
      before runs
  · intro past event rest shape lifts
    obtain ⟨tracked, keepsTrack⟩ := trackedAt shape
    rw [Runs.run_concat]
    exact liftsNoManual_step lifts keepsTrack tracked
  · intro past event rest shape refreshes
    obtain ⟨tracked, keepsTrack⟩ := trackedAt shape
    rw [Runs.run_concat]
    exact bansNoProtected_step refreshes keepsTrack tracked

end

/-- Before anything happens; nobody has written anything. -/
def unstarted : Placed ℚ where
  system := .unstarted
  writer _ := "manual"

/-- The detector bans an address, and then somebody does by hand. -/
def bannedTwice : List DaemonEvent :=
  [.boot (refusing fun _ => false) .default none,
    .restored (clockedHost 1000 1000000) [] [],
    .batch (clockedHost 1010 1000010) (List.replicate 3 nullScan),
    .ban (clockedHost 1020 1000020) (.v4 0x0a000005) 60]

/-- The address turns out to be a name server. -/
def nowProtected : DaemonEvent :=
  .refresh (clockedHost 1030 1000030) [⟨0x0a000005, 0xffffffff⟩] []

/-- The record stays the detector's, and so the ban by hand is lifted. -/
theorem ban_by_hand_keeps_auto_record :
    let host := clockedHost 1030 1000030
    let swept := Runs.run step unstarted (bannedTwice ++ [.sweep host])
    Config.default.validate = .ok () ∧
      ¬swept.NamesWriters host ∧
      ¬swept.LiftsNoManual (swept.step nowProtected) := by
  have banned :
      (Runs.run step unstarted
          (bannedTwice ++
            [.sweep (clockedHost 1030 1000030)])).system.blocklist.lookup
          (.v4 0x0a000005) =
        some (expiryFor (clockedHost 1020 1000020) (60 * 60)) := by
    decide +kernel
  have byHand :
      (Runs.run step unstarted
          (bannedTwice ++ [.sweep (clockedHost 1030 1000030)])).writer
          (.v4 0x0a000005) =
        "manual" := by
    decide +kernel
  have recorded :
      ((Runs.run step unstarted
          (bannedTwice ++
            [.sweep (clockedHost 1030 1000030)])).shared.records.lookup
          (.v4 0x0a000005)).map BanRecord.source =
        some "auto" := by
    decide +kernel
  have lifted :
      ((Runs.run step unstarted
          (bannedTwice ++ [.sweep (clockedHost 1030 1000030)])).step
          nowProtected).system.blocklist.lookup (.v4 0x0a000005) =
        none := by
    decide +kernel
  have stillByHand :
      ((Runs.run step unstarted
          (bannedTwice ++ [.sweep (clockedHost 1030 1000030)])).step
          nowProtected).writer (.v4 0x0a000005) =
        "manual" := by
    decide +kernel
  refine ⟨Config.validate_default, fun names => ?_, fun keeps => ?_⟩
  · obtain ⟨record, known, names⟩ :=
      names _ _ banned (by decide +kernel)
    rw [Option.mem_def.mp known, Option.map_some, names, byHand]
      at recorded
    exact absurd (Option.some.inj recorded) (by decide)
  · rcases keeps _ _ banned byHand with kept | isConfig
    · rw [lifted] at kept
      cases kept
    · rw [stillByHand] at isConfig
      exact absurd isConfig (by decide)

/-- A ban by hand before the daemon starts. -/
def bannedFirst : List DaemonEvent :=
  [.ban (clockedHost 900 999900) (.v4 0x0a000005) 60,
    .boot (refusing fun _ => false) .default none,
    .restored (clockedHost 1000 1000000) [] []]

/-- Its record says so after the first sweep. -/
theorem first_sweep_names_hand :
    (Runs.run step unstarted
        (bannedFirst ++ [.sweep (clockedHost 1010 1000010)])).NamesWriters
      (clockedHost 1010 1000010) := by
  have running :
      (Runs.run step unstarted
        bannedFirst).system.phase.running?.isSome = true := by
    decide +kernel
  have byHand
      (ip : Src) :
      (unstarted.step
        (.ban (clockedHost 900 999900) (.v4 0x0a000005) 60)).writer ip =
        "manual" := by
    have same :
        Function.update (fun _ : Src => "manual") (.v4 0x0a000005)
            "manual" =
          fun _ => "manual" :=
      Function.update_eq_self _ _
    simp only [step, writes, unstarted, same, ite_self]
  have keeps :
      Runs.Stepwise
        (fun past => (Runs.run step unstarted past).KeepsTrack)
        (bannedFirst ++ [.sweep (clockedHost 1010 1000010)]) := by
    refine Runs.Stepwise.of_positions fun position => ?_
    obtain ⟨index, inBounds⟩ := position
    rcases index with _ | _ | _ | _ | more
    · exact ⟨trivial, trivial, trivial⟩
    · exact ⟨Config.validate_default, trivial,
        fun ip _ _ => .inl (byHand ip)⟩
    · exact ⟨trivial, fun _ => rfl, trivial⟩
    · exact ⟨trivial, fun _ => rfl, trivial⟩
    · exact absurd inBounds (by simp [bannedFirst])
  obtain ⟨cfg, phase⟩ := Phase.exists_of_running running
  exact (records_name_writers rfl
    (bannedFirst ++ [.sweep (clockedHost 1010 1000010)]) keeps).1
    bannedFirst _ [] cfg rfl phase

end Placed

end AiFirewall

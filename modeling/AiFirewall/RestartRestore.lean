import AiFirewall.ConfigBans
import AiFirewall.DaemonRuns

namespace AiFirewall

/-!
# What a restart brings back

The pinned maps survive a restart, and `restore` puts those saved bans into
them that it does not find there.  A ban is missing because it was lifted; so
the start bans a source anew exactly when it was lifted after the state file
was written for the last time.
-/

namespace System

section

variable
  {Score : Type}
  [ScoreArith Score]

/-- The event writes the state file. -/
def Saves (system : System Score) (event : DaemonEvent) : Prop :=
  ∃ host cfg, event = .save host true ∧ system.phase = .running cfg

/-- A source was taken out of the maps after the last save of a run. -/
def LostSinceSave
    (start : System Score)
    (past : List DaemonEvent)
    (ip : Src) : Prop :=
  ∃ before event since,
    past = before ++ event :: since ∧
      (Runs.run step start before).blocklist.contains ip = true ∧
      (Runs.run step start (before ++ [event])).blocklist.contains ip =
        false ∧
      ∀ earlier saving later, since = earlier ++ saving :: later →
        ¬Saves (Runs.run step start (before ++ event :: earlier)) saving

/--
When `restore` comes to a ban that still runs, its source has not been taken
out of the maps since the last save, or it has come back.
-/
def RestoresKept
    (start : System Score)
    (past : List DaemonEvent)
    (event : DaemonEvent) : Prop :=
  ∀ host cfg ban pending,
    event = .restoreNext host →
    (Runs.run step start past).phase = .starting cfg (ban :: pending) →
    Shared.savedSecs host ban ≠ none →
    LostSinceSave start past ban.ip →
    (Runs.run step start past).blocklist.contains ban.ip = true

/-- What happens between the first `apply_config` and the end of a start. -/
def AtStart : DaemonEvent → Prop
  | .ban _ _ _ => True
  | .unban _ _ => True
  | .restoreNext _ => True
  | .restored _ _ _ => True
  | _ => False

variable
  {start system : System Score}
  {past : List DaemonEvent}
  {event : DaemonEvent}
  {ip : Src}

/-- Only a save changes the state file. -/
theorem file_of_step
    (notSaved : ¬system.Saves event) :
    (system.step event).file = system.file := by
  unfold System.step
  split
  all_goals try rfl
  · unfold System.boot
    split <;> rfl
  · unfold System.reload
    split <;> rfl
  · unfold System.switchProfile
    split <;> rfl
  · rename_i host stored cfg phase
    cases stored with
    | true => exact absurd ⟨host, cfg, rfl, phase⟩ notSaved
    | false => rfl

omit [ScoreArith Score] in
/-- What a save writes down is in the maps. -/
theorem contains_of_captured
    {host : Host}
    {shared : Shared Score}
    {ban : SavedBan}
    (member : ban ∈ (shared.captured host).bans) :
    shared.blocklist.contains ban.ip = true := by
  obtain ⟨⟨source, expiry⟩, inMaps, saved⟩ := List.mem_filterMap.mp member
  obtain ⟨left, _, isBan⟩ := Option.map_eq_some_iff.mp saved
  subst isBan
  rw [Blocklist.contains, Blocklist.mem_entries.mp inMaps]
  rfl

/-- A save leaves the maps alone, and lists what they hold. -/
theorem of_saves
    (saves : system.Saves event) :
    (system.step event).blocklist = system.blocklist ∧
      ∀ ban ∈ (system.step event).file.bans,
        system.blocklist.contains ban.ip = true := by
  obtain ⟨host, cfg, rfl, phase⟩ := saves
  have saved :
      system.step (.save host true) = system.save host true := by
    simp only [System.step, phase]
  rw [saved]
  exact ⟨rfl, fun ban member => contains_of_captured member⟩

/-- What is left to restore is in the state file. -/
theorem pending_of_step
    (inFile :
      ∀ cfg pending, system.phase = .starting cfg pending →
        pending ⊆ system.file.bans)
    {cfg : Config}
    {pending : List SavedBan}
    (starting : (system.step event).phase = .starting cfg pending) :
    pending ⊆ (system.step event).file.bans := by
  have fromRunning
      {running : Config}
      {next : System Score}
      (isRunning : system.phase = .running running)
      (kept : next.phase = system.phase)
      (starting : next.phase = .starting cfg pending) :
      pending ⊆ next.file.bans := by
    rw [kept, isRunning] at starting
    cases starting
  revert starting
  unfold System.step
  split
  all_goals intro starting
  · exact inFile cfg pending starting
  · exact inFile cfg pending starting
  · cases starting
  · unfold System.boot at starting ⊢
    split at starting
    · cases starting
      exact List.Subset.refl _
    · cases starting
  · rename_i phase
    cases starting
    exact fun ban member =>
      inFile _ _ phase (List.mem_cons_of_mem _ member)
  · cases starting
  · exact fromRunning (by assumption) rfl starting
  · unfold System.reload at starting ⊢
    split at starting
    · cases starting
    · exact fromRunning (by assumption) rfl starting
  · unfold System.switchProfile at starting ⊢
    split at starting
    · exact fromRunning (by assumption) rfl starting
    · exact fromRunning (by assumption) rfl starting
  · exact fromRunning (by assumption) rfl starting
  · exact fromRunning (by assumption) rfl starting
  · exact fromRunning (by assumption) rfl starting
  · exact fromRunning (by assumption) rfl starting
  · exact fromRunning (by assumption) rfl starting
  · exact inFile cfg pending starting

/-- The state file lists only sources that are banned, or were lost since. -/
structure FileCovered
    (start : System Score)
    (past : List DaemonEvent)
    (system : System Score) : Prop where
  file :
    ∀ ban ∈ system.file.bans,
      system.blocklist.contains ban.ip = true ∨
        LostSinceSave start past ban.ip
  pending :
    ∀ cfg pending, system.phase = .starting cfg pending →
      pending ⊆ system.file.bans

/-- What was lost stays lost until the next save. -/
theorem LostSinceSave.concat
    (lost : LostSinceSave start past ip)
    (notSaved : ¬Saves (Runs.run step start past) event) :
    LostSinceSave start (past ++ [event]) ip := by
  obtain ⟨before, removal, since, shape, present, gone, unsaved⟩ := lost
  subst shape
  refine ⟨before, removal, since ++ [event], by simp, present, gone, ?_⟩
  intro earlier saving later shape
  rcases List.eq_nil_or_concat later with isLast | ⟨front, last, longer⟩
  · subst isLast
    obtain ⟨same, sameEvent⟩ := List.append_inj' shape rfl
    cases sameEvent
    subst same
    exact notSaved
  · subst longer
    have regrouped :
        since ++ [event] = (earlier ++ saving :: front) ++ [last] := by
      simpa using shape
    exact unsaved earlier saving front
      (List.append_inj' regrouped rfl).1

theorem fileCovered_step
    (covered : FileCovered start past (Runs.run step start past)) :
    FileCovered start (past ++ [event])
      (step (Runs.run step start past) event) where
  file := by
    intro ban member
    by_cases saves : Saves (Runs.run step start past) event
    · obtain ⟨sameMaps, listed⟩ := of_saves saves
      rw [sameMaps]
      exact .inl (listed ban member)
    · rw [file_of_step saves] at member
      rcases covered.file ban member with present | lost
      · cases gone :
            (step (Runs.run step start past) event).blocklist.contains
              ban.ip with
        | true => exact .inl rfl
        | false =>
            refine .inr ⟨past, event, [], rfl, present, ?_, ?_⟩
            · rw [Runs.run_concat]
              exact gone
            · intro earlier saving later shape
              simp at shape
      · exact .inr (lost.concat saves)
  pending _ _ := pending_of_step covered.pending

/-- Under the condition no step of a restore bans anybody. -/
theorem restoreNext_bans_nobody
    {host : Host}
    (covered : FileCovered start past (Runs.run step start past))
    (kept : RestoresKept start past (.restoreNext host))
    (present :
      (step (Runs.run step start past)
        (.restoreNext host)).blocklist.contains ip = true) :
    (Runs.run step start past).blocklist.contains ip = true := by
  unfold System.step at present
  split at present
  all_goals try exact present
  all_goals try cases ‹DaemonEvent.restoreNext host = _›
  rename_i cfg ban pending phase
  rcases Shared.contains_of_restoreBan present with old | ⟨rfl, runs⟩
  · exact old
  · have listed := covered.pending cfg _ phase List.mem_cons_self
    rcases covered.file ban listed with old | lost
    · exact old
    · exact kept host cfg ban pending rfl phase runs lost

/-- The end of a start bans nobody. -/
theorem restored_bans_nobody
    {host : Host}
    {autoProtected : List Cidr}
    {ownV6Prefixes : List U64}
    (present :
      (system.step
        (.restored host autoProtected ownV6Prefixes)).blocklist.contains
          ip = true) :
    system.blocklist.contains ip = true := by
  unfold System.step at present
  split at present
  all_goals try exact present
  all_goals try cases ‹DaemonEvent.restored host autoProtected _ = _›
  have kept := Shared.contains_of_refreshProtection present
  rw [Shared.restoreOffenders_eq] at kept
  exact kept

/-- The first `apply_config` bans what the configuration lists. -/
theorem boot_bans_listed
    {attempt : Attempt}
    {cfg : Config}
    {profile : Option String}
    (accepted : cfg.validate = .ok ())
    (present :
      (system.step (.boot attempt cfg profile)).blocklist.contains
        ip = true) :
    system.blocklist.contains ip = true ∨
      ∃ address, ip = .v4 address ∧ cfg.Blocks address := by
  obtain ⟨compiled, blocked, compiles, readable⟩ :=
    compiled_of_accepted accepted profile
  have opened (ip : Src) :
      (system.opened cfg).shared.blocklist.contains ip =
        system.blocklist.contains ip := by
    cases ip with
    | v4 address => rfl
    | v6 networkPrefix =>
        cases found : system.blocklist.v6 with
        | none => simp [System.opened, Blocklist.contains,
            Blocklist.lookup, found]
        | some map => simp [System.opened, Blocklist.contains,
            Blocklist.lookup, found]
  unfold System.step at present
  split at present
  all_goals try exact .inl present
  all_goals try cases ‹DaemonEvent.boot attempt cfg profile = _›
  rw [← opened ip, ← mem_listedSources readable]
  unfold System.boot at present
  split at present
  · rename_i ran
    exact contains_of_written (fun _ member => member)
      ((applyConfig_ok_iff compiles readable).mp ran) present
  · rename_i ran
    obtain ⟨done, inPlan, written⟩ :=
      written_of_error compiles readable ran
    exact contains_of_written inPlan written present

/-- During a start nobody is banned but by hand. -/
theorem atStart_bans_by_hand
    (covered : FileCovered start past (Runs.run step start past))
    (kept : RestoresKept start past event)
    (atStart : AtStart event)
    (present :
      (step (Runs.run step start past) event).blocklist.contains ip =
        true) :
    (Runs.run step start past).blocklist.contains ip = true ∨
      ∃ host minutes, event = .ban host ip minutes := by
  cases event with
  | ban host other minutes =>
      unfold System.step at present
      rcases Blocklist.contains_of_insert? present with old | same
      · exact .inl old
      · subst same
        exact .inr ⟨host, minutes, rfl⟩
  | unban host other =>
      unfold System.step at present
      exact .inl (Blocklist.contains_of_drop present)
  | restoreNext host =>
      exact .inl (restoreNext_bans_nobody covered kept present)
  | restored host autoProtected ownV6Prefixes =>
      exact .inl (restored_bans_nobody present)
  | boot attempt cfg profile => exact absurd atStart id
  | batch host events => exact absurd atStart id
  | reload attempt cfg profile autoProtected ownV6Prefixes =>
      exact absurd atStart id
  | switchProfile attempt profile => exact absurd atStart id
  | udpMode strict => exact absurd atStart id
  | sweep host => exact absurd atStart id
  | refresh host autoProtected ownV6Prefixes => exact absurd atStart id
  | prune host => exact absurd atStart id
  | save host stored => exact absurd atStart id
  | crash => exact absurd atStart id

/-- In a run that meets the condition the state file is always covered. -/
theorem fileCovered_run
    (stopped : start.phase = .stopped)
    (fileKept :
      ∀ ban ∈ start.file.bans, start.blocklist.contains ban.ip = true)
    (past : List DaemonEvent) :
    FileCovered start past (Runs.run step start past) := by
  induction past using List.reverseRecOn with
  | nil =>
      refine ⟨fun ban member => .inl (fileKept ban member), ?_⟩
      intro cfg pending starting
      rw [Runs.run_nil, stopped] at starting
      cases starting
  | append_singleton earlier event inductionHypothesis =>
      rw [Runs.run_concat]
      exact fileCovered_step inductionHypothesis

/-- What is banned at a point of a start was banned before it, or is listed. -/
theorem banned_at_start
    {before since rest : List DaemonEvent}
    {attempt : Attempt}
    {cfg : Config}
    {profile : Option String}
    (stopped : start.phase = .stopped)
    (fileKept :
      ∀ ban ∈ start.file.bans, start.blocklist.contains ban.ip = true)
    (kept :
      Runs.Stepwise (RestoresKept start)
        (before ++ .boot attempt cfg profile :: (since ++ rest)))
    (accepted : cfg.validate = .ok ())
    (atStart : ∀ event ∈ since, AtStart event)
    (present :
      (Runs.run step start
          (before ++ .boot attempt cfg profile :: since)).blocklist.contains
            ip = true) :
    (Runs.run step start before).blocklist.contains ip = true ∨
      (∃ address, ip = .v4 address ∧ cfg.Blocks address) ∨
      ∃ host minutes, .ban host ip minutes ∈ since := by
  induction since using List.reverseRecOn generalizing rest with
  | nil =>
      rw [Runs.run_concat] at present
      exact (boot_bans_listed accepted present).imp_right .inl
  | append_singleton earlier event inductionHypothesis =>
      have shape :
          before ++ .boot attempt cfg profile :: (earlier ++ [event]) =
            (before ++ .boot attempt cfg profile :: earlier) ++ [event] := by
        simp
      have keptHere :
          RestoresKept start
            (before ++ .boot attempt cfg profile :: earlier) event :=
        kept _ event rest (by simp)
      rw [shape, Runs.run_concat] at present
      rcases atStart_bans_by_hand (fileCovered_run stopped fileKept _)
        keptHere (atStart event (by simp)) present with
        old | ⟨host, minutes, isBan⟩
      · rcases inductionHypothesis (by simpa using kept)
          (fun other member => atStart other (by simp [member])) old with
          held | listed | ⟨host, minutes, member⟩
        · exact .inl held
        · exact .inr (.inl listed)
        · exact .inr (.inr
            ⟨host, minutes, List.mem_append_left _ member⟩)
      · subst isBan
        exact .inr (.inr ⟨host, minutes, by simp⟩)

/--
In every run a start bans nobody but what its configuration lists, as long
as every source taken out of the maps since the last save has come back, or
its saved ban has run out, when `restore` comes to it.
-/
theorem restart_bans_nobody_lifted
    (stopped : start.phase = .stopped)
    (fileKept :
      ∀ ban ∈ start.file.bans, start.blocklist.contains ban.ip = true)
    (events : List DaemonEvent)
    (kept : Runs.Stepwise (RestoresKept start) events) :
    (∀ past host rest ip,
        events = past ++ .restoreNext host :: rest →
        (Runs.run step start
            (past ++ [.restoreNext host])).blocklist.contains ip = true →
        (Runs.run step start past).blocklist.contains ip = true) ∧
      ∀ before attempt cfg profile since rest ip,
        events = before ++ .boot attempt cfg profile :: (since ++ rest) →
        cfg.validate = .ok () →
        (∀ event ∈ since, AtStart event) →
        (Runs.run step start
            (before ++ .boot attempt cfg profile :: since)).blocklist.contains
              ip = true →
        (Runs.run step start before).blocklist.contains ip = true ∨
          (∃ address, ip = .v4 address ∧ cfg.Blocks address) ∨
          ∃ host minutes, .ban host ip minutes ∈ since := by
  constructor
  · intro past host rest ip shape present
    subst shape
    rw [Runs.run_concat] at present
    exact restoreNext_bans_nobody (fileCovered_run stopped fileKept past)
      (kept past _ rest rfl) present
  · intro before attempt cfg profile since rest ip shape accepted atStart
      present
    subst shape
    exact banned_at_start stopped fileKept kept accepted atStart present

end

/-- Before the first start: empty maps and no state file. -/
def unstarted : System ℚ where
  world := ⟨fun _ => 0, .fresh, freshShared⟩
  file := .default
  phase := .stopped

def tenFive : Src :=
  .v4 0x0a000005

/-- A start with the defaults, and nothing to protect. -/
def defaultStart : List DaemonEvent :=
  [.boot (refusing fun _ => false) .default none,
    .restored (clockedHost 1000 1000000) [] []]

/-- A ban by hand, which a tick takes over and saves. -/
def bannedAndSaved : List DaemonEvent :=
  [.ban (clockedHost 1000 1000000) tenFive 0,
    .sweep (clockedHost 1000 1000000),
    .save (clockedHost 1000 1000000) true]

/-- The ban is lifted while the daemon is stopped. -/
def liftedWhileStopped : List DaemonEvent :=
  defaultStart ++ bannedAndSaved ++
    [.crash, .unban (clockedHost 1000 1000000) tenFive]

/-- The next start bans the source again. -/
theorem restart_undoes_unban :
    let lifted := Runs.run step unstarted liftedWhileStopped
    let configured :=
      lifted.step (.boot (refusing fun _ => false) .default none)
    let restoring :=
      configured.step (.restoreNext (clockedHost 1000 1000000))
    lifted.blocklist.contains tenFive = false ∧
      configured.blocklist.contains tenFive = false ∧
      restoring.blocklist.contains tenFive = true ∧
      Config.default.validate = .ok () ∧
      ∀ address, ¬Config.default.Blocks address := by
  refine ⟨by decide +kernel, by decide +kernel, by decide +kernel,
    Config.validate_default, ?_⟩
  rintro address ⟨text, listed, _⟩
  cases listed

/-- A start and a restart, with nothing lifted in between. -/
def bannedAtRestart : List DaemonEvent :=
  defaultStart ++ bannedAndSaved ++ [.crash]

theorem bannedAtRestart_kept :
    Runs.Stepwise (RestoresKept unstarted)
      (bannedAtRestart ++
        [.boot (refusing fun _ => false) .default none,
          .restoreNext (clockedHost 1000 1000000)]) := by
  have noRestore :
      ∀ event ∈ bannedAtRestart ++
          [.boot (refusing fun _ => false) .default none],
        ∀ host, event ≠ .restoreNext host := by
    simp [bannedAtRestart, defaultStart, bannedAndSaved]
  have front :
      Runs.Stepwise (RestoresKept unstarted)
        (bannedAtRestart ++
          [.boot (refusing fun _ => false) .default none]) := by
    intro past event rest shape host cfg ban pending isRestore
    exact absurd isRestore (noRestore event (by rw [shape]; simp) host)
  have restores :
      RestoresKept unstarted
        (bannedAtRestart ++
          [.boot (refusing fun _ => false) .default none])
        (.restoreNext (clockedHost 1000 1000000)) := by
    intro host cfg ban pending _ starting _ _
    have held :
        let system :=
          Runs.run step unstarted
            (bannedAtRestart ++
              [.boot (refusing fun _ => false) .default none])
        (system.phase.pending?.getD []).all
            (fun ban => system.blocklist.contains ban.ip) =
          true := by
      decide +kernel
    simp only [starting, Phase.pending?, Option.getD_some] at held
    exact List.all_eq_true.mp held ban List.mem_cons_self
  simpa using front.concat restores

/-- The restart finds its ban in the maps, and bans nobody else. -/
theorem restart_keeps_ban :
    (Runs.run step unstarted bannedAtRestart).blocklist.contains tenFive =
        true ∨
      (∃ address,
        tenFive = .v4 address ∧ Config.default.Blocks address) ∨
      ∃ host minutes,
        DaemonEvent.ban host tenFive minutes ∈
          [.restoreNext (clockedHost 1000 1000000)] :=
  (restart_bans_nobody_lifted rfl (fun _ none => by cases none) _
    bannedAtRestart_kept).2 bannedAtRestart
    (refusing fun _ => false) .default none
    [.restoreNext (clockedHost 1000 1000000)] [] tenFive rfl
    Config.validate_default (by simp [AtStart]) (by decide +kernel)

end System

end AiFirewall

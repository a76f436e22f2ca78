import AiFirewall.ConfigFiles

namespace AiFirewall

/-!
# Edits of the watched files

A tick notes the modification times before it reads the files, so an edit in
between is seen by the next tick.  A start reads first and notes afterwards:
what is written in between is taken for what was read.  A file that is removed
has no time, as one that was missing before.
-/

namespace ConfigFiles

variable {reader : ConfigReader} {files : ConfigFiles}

/-- A file whose time is the noted one was loaded as it is. -/
def InSync (file : WatchedFile) : Prop :=
  file.remembered = file.mtime → file.loaded = file.text

/-- Between ticks, no edit is hidden behind a noted time. -/
def MissesNothing (files : ConfigFiles) : Prop :=
  files.phase = .betweenTicks →
    InSync files.config ∧ InSync files.posture

/-- The daemon has loaded and noted the configuration in this phase. -/
def knowsConfig : FilePhase → Bool
  | .configNoted _ | .betweenTicks | .tickStarted _ _ => true
  | .configReloaded _ | .reapplied => true
  | _ => false

def knowsPosture : FilePhase → Bool
  | .postureNoted _ _ | .copied _ | .postureReloaded => true
  | phase => knowsConfig phase

/-- A removal is no news for a daemon that has noted the file as missing. -/
def isNoticed (file : WatchedFile) : Bool :=
  file.remembered.isSome || file.loaded.isNone

/-- When a start notes the time of a file, the file says what was read; and no
file is removed that the daemon has noted as missing and loaded since. -/
def notesUnedited (files : ConfigFiles) (event : FileEvent) : Bool :=
  match event, files.phase with
  | .advance _, .postureLoaded _ _ =>
      files.posture.loaded == files.posture.text
  | .advance _, .copied _ => files.config.loaded == files.config.text
  | .removeConfig, phase => !knowsConfig phase || isNoticed files.config
  | .removePosture, phase => !knowsPosture phase || isNoticed files.posture
  | _, _ => true

/-- No time that was noted or given is later than the clock. -/
def Past (clock : Nat) (file : WatchedFile) : Prop :=
  (∀ time ∈ file.mtime, time ≤ clock) ∧
    ∀ time ∈ file.remembered, time ≤ clock

structure Watching (files : ConfigFiles) : Prop where
  configPast : Past files.clock files.config
  posturePast : Past files.clock files.posture
  tickPast :
    ∀ hangup configTime,
      files.phase = .tickStarted hangup configTime →
      ∀ time ∈ configTime, time ≤ files.clock
  config : knowsConfig files.phase = true → InSync files.config
  posture : knowsPosture files.phase = true → InSync files.posture

theorem Past.later
    {clock later : Nat}
    {file : WatchedFile}
    (past : Past clock file)
    (grows : clock ≤ later) :
    Past later file :=
  ⟨fun time member => le_trans (past.1 time member) grows,
    fun time member => le_trans (past.2 time member) grows⟩

theorem Past.edit
    {clock : Nat}
    {file : WatchedFile}
    (past : Past clock file)
    (content : Option String) :
    Past (clock + 1) (file.edit content (clock + 1)) := by
  constructor
  · intro time member
    injection member with same
    exact le_of_eq same.symm
  · intro time member
    exact Nat.le_succ_of_le (past.2 time member)

theorem Past.remove
    {clock : Nat}
    {file : WatchedFile}
    (past : Past clock file) :
    Past clock file.remove :=
  ⟨fun _ member => absurd member (Option.not_mem_none _), past.2⟩

theorem Past.note
    {clock : Nat}
    {file : WatchedFile}
    (past : Past clock file)
    {time : Option Nat}
    (noted : ∀ value ∈ time, value ≤ clock) :
    Past clock (file.note time) :=
  ⟨past.1, noted⟩

/-- An edit gives a time that was never noted. -/
theorem InSync.edit
    {clock : Nat}
    {file : WatchedFile}
    (past : Past clock file)
    (content : Option String) :
    InSync (file.edit content (clock + 1)) := by
  intro same
  have noted : file.remembered = some (clock + 1) := same
  exact absurd (past.2 (clock + 1) noted) (by omega)

theorem InSync.remove
    {file : WatchedFile}
    (noticed : isNoticed file = true) :
    InSync file.remove := by
  intro same
  have noted : file.remembered = none := same
  rw [isNoticed, noted] at noticed
  exact Option.isNone_iff_eq_none.mp noticed

theorem InSync.load (file : WatchedFile) : InSync file.load :=
  fun _ => rfl

theorem Watching.edit
    (watching : files.Watching)
    (content : Option String)
    (event : FileEvent)
    (isEdit : event = .editConfig content ∨ event = .editPosture content) :
    (files.step reader event).Watching := by
  have later : files.clock ≤ files.clock + 1 := Nat.le_succ _
  rcases isEdit with isConfig | isPosture
  · subst isConfig
    exact
      { configPast := watching.configPast.edit content
        posturePast := watching.posturePast.later later
        tickPast := fun hangup configTime phase time member =>
          le_trans
            (watching.tickPast hangup configTime phase time member) later
        config := fun _ => InSync.edit watching.configPast content
        posture := watching.posture }
  · subst isPosture
    exact
      { configPast := watching.configPast.later later
        posturePast := watching.posturePast.edit content
        tickPast := fun hangup configTime phase time member =>
          le_trans
            (watching.tickPast hangup configTime phase time member) later
        config := watching.config
        posture := fun _ => InSync.edit watching.posturePast content }

/-- A step that leaves the times alone, into a phase that knows no more. -/
theorem Watching.carry
    (watching : files.Watching)
    {changed : ConfigFiles}
    (sameClock : changed.clock = files.clock)
    (sameConfig : changed.config = files.config)
    (samePosture : changed.posture = files.posture)
    (noTick :
      ∀ hangup configTime, changed.phase ≠ .tickStarted hangup configTime)
    (config :
      knowsConfig changed.phase = true → knowsConfig files.phase = true)
    (posture :
      knowsPosture changed.phase = true →
        knowsPosture files.phase = true) :
    changed.Watching where
  configPast := by
    rw [sameClock, sameConfig]
    exact watching.configPast
  posturePast := by
    rw [sameClock, samePosture]
    exact watching.posturePast
  tickPast := fun hangup configTime phase =>
    absurd phase (noTick hangup configTime)
  config := fun known => sameConfig ▸ watching.config (config known)
  posture := fun known => samePosture ▸ watching.posture (posture known)

/-- Reading the configuration brings it in step, and gives no old time. -/
theorem loadOrCreate_watching
    (reader : ConfigReader)
    (watching : files.Watching)
    (works : Bool) :
    ∃ config clock read,
      files.loadOrCreate reader works =
          ({ files with config := config, clock := clock }, read) ∧
        InSync config ∧
        Past clock config ∧
        Past clock files.posture := by
  obtain ⟨config, clock, read, loaded, isLoaded, sameNote, same⟩ :=
    loadOrCreate_cases reader works files
  refine ⟨config, clock, read, loaded, fun _ => isLoaded, ?_⟩
  rcases same with ⟨sameCurrent, sameClock⟩ | ⟨created, next⟩
  · rw [sameClock]
    refine ⟨⟨?_, ?_⟩, watching.posturePast⟩
    · rw [WatchedFile.mtime, sameCurrent]
      exact watching.configPast.1
    · rw [sameNote]
      exact watching.configPast.2
  · rw [next]
    refine ⟨⟨?_, ?_⟩, watching.posturePast.later (Nat.le_succ _)⟩
    · intro time member
      rw [created] at member
      injection member with isTime
      exact le_of_eq isTime.symm
    · rw [sameNote]
      intro time member
      exact Nat.le_succ_of_le (watching.configPast.2 time member)

theorem watching_advance
    (watching : files.Watching)
    {works : Bool}
    (unedited : files.notesUnedited (.advance works) = true) :
    (files.advance reader works).Watching := by
  have copySame (phase : FilePhase) :
      ({ files.rememberGood works with phase := phase } :
            ConfigFiles).clock = files.clock ∧
        ({ files.rememberGood works with phase := phase } :
            ConfigFiles).config = files.config ∧
        ({ files.rememberGood works with phase := phase } :
            ConfigFiles).posture = files.posture := by
    rcases rememberGood_cases works files with
      ⟨text, _, _, copied⟩ | ⟨kept, _⟩
    · rw [copied]
      exact ⟨rfl, rfl, rfl⟩
    · rw [kept]
      exact ⟨rfl, rfl, rfl⟩
  unfold advance
  split
  · obtain ⟨config, clock, read, loaded, _, configPast, posturePast⟩ :=
      loadOrCreate_watching reader watching works
    rw [loadAtStart, loaded]
    dsimp only
    split
    · exact ⟨configPast, posturePast, nofun, nofun, nofun⟩
    · exact ⟨configPast, posturePast, nofun, nofun, nofun⟩
  · exact ⟨watching.configPast, watching.posturePast, nofun, nofun, nofun⟩
  · rename_i text fine phase
    have same : files.posture.loaded = files.posture.text := by
      simpa [notesUnedited, phase] using unedited
    exact ⟨watching.configPast,
      watching.posturePast.note watching.posturePast.1, nofun, nofun,
      fun _ _ => same⟩
  · rename_i text phase
    obtain ⟨sameClock, sameConfig, samePosture⟩ := copySame (.copied text)
    exact watching.carry sameClock sameConfig samePosture nofun nofun
      (fun _ => by rw [phase]; rfl)
  · rename_i text phase
    exact watching.carry rfl rfl rfl nofun nofun
      (fun _ => by rw [phase]; rfl)
  · rename_i text phase
    have same : files.config.loaded = files.config.text := by
      simpa [notesUnedited, phase] using unedited
    exact ⟨watching.configPast.note watching.configPast.1,
      watching.posturePast, nofun, fun _ _ => same,
      fun _ => watching.posture (by rw [phase]; rfl)⟩
  · rename_i text phase
    split
    · exact watching.carry rfl rfl rfl nofun
        (fun _ => by rw [phase]; rfl) (fun _ => by rw [phase]; rfl)
    · exact watching.carry rfl rfl rfl nofun nofun nofun
  · exact watching
  · rename_i hangup configTime phase
    split
    · exact ⟨watching.configPast.note
          (watching.tickPast hangup configTime phase),
        watching.posturePast.note watching.posturePast.1, nofun, nofun,
        nofun⟩
    · exact watching.carry rfl rfl rfl nofun
        (fun _ => by rw [phase]; rfl) (fun _ => by rw [phase]; rfl)
  · exact ⟨watching.configPast, watching.posturePast, nofun, nofun,
      fun _ => InSync.load files.posture⟩
  · rename_i phase
    have posture : InSync files.posture :=
      watching.posture (by rw [phase]; rfl)
    obtain ⟨config, clock, read, loaded, inSync, configPast, posturePast⟩ :=
      loadOrCreate_watching reader watching works
    rw [loaded]
    dsimp only
    split
    · exact ⟨configPast, posturePast, nofun, fun _ => inSync,
        fun _ => posture⟩
    · exact ⟨configPast, posturePast, nofun, fun _ => inSync,
        fun _ => posture⟩
  · rename_i text phase
    split
    · exact watching.carry rfl rfl rfl nofun
        (fun _ => by rw [phase]; rfl) (fun _ => by rw [phase]; rfl)
    · exact watching.carry rfl rfl rfl nofun
        (fun _ => by rw [phase]; rfl) (fun _ => by rw [phase]; rfl)
  · rename_i phase
    obtain ⟨sameClock, sameConfig, samePosture⟩ := copySame .betweenTicks
    exact watching.carry sameClock sameConfig samePosture nofun
      (fun _ => by rw [phase]; rfl) (fun _ => by rw [phase]; rfl)

theorem watching_step
    (watching : files.Watching)
    {event : FileEvent}
    (unedited : files.notesUnedited event = true) :
    (files.step reader event).Watching := by
  cases event with
  | editConfig content => exact watching.edit content _ (Or.inl rfl)
  | editPosture content => exact watching.edit content _ (Or.inr rfl)
  | removeConfig =>
      refine
        { configPast := watching.configPast.remove
          posturePast := watching.posturePast
          tickPast := watching.tickPast
          config := fun known => InSync.remove ?_
          posture := watching.posture }
      have stillKnown : knowsConfig files.phase = true := known
      simpa [notesUnedited, stillKnown] using unedited
  | removePosture =>
      refine
        { configPast := watching.configPast
          posturePast := watching.posturePast.remove
          tickPast := watching.tickPast
          config := watching.config
          posture := fun known => InSync.remove ?_ }
      have stillKnown : knowsPosture files.phase = true := known
      simpa [notesUnedited, stillKnown] using unedited
  | advance works => exact watching_advance watching unedited
  | tick hangup =>
      unfold step
      dsimp only
      split
      · rename_i phase
        refine ⟨watching.configPast, watching.posturePast, ?_,
          fun _ => watching.config (by rw [phase]; rfl),
          fun _ => watching.posture (by rw [phase]; rfl)⟩
        intro other configTime started time member
        injection started with _ isTime
        exact watching.configPast.1 time (isTime ▸ member)
      · exact watching
  | crash => exact watching.carry rfl rfl rfl nofun nofun nofun

/--
In every run whose starts note the times of files that still say what was
read, no edit is ever missed, nor a removal of a file that was noted with a
time.
-/
theorem no_edit_is_missed
    (reader : ConfigReader)
    (config posture : Option (Option String))
    (events : List FileEvent)
    (unedited :
      Runs.Stepwise
        (fun past event =>
          (Runs.run (step reader) (unstarted config posture)
            past).notesUnedited event = true)
        events)
    (past later : List FileEvent)
    (shape : events = past ++ later) :
    (Runs.run (step reader) (unstarted config posture)
      past).MissesNothing := by
  subst shape
  have watching :
      (Runs.run (step reader) (unstarted config posture)
        past).Watching := by
    refine Runs.Stepwise.invariant
      (fun _ files => Watching files) ?_ ?_ unedited.before
    · refine ⟨⟨?_, nofun⟩, ⟨?_, nofun⟩, nofun, nofun, nofun⟩
      · cases config with
        | none => nofun
        | some text =>
            intro time member
            injection member with isZero
            exact le_of_eq isZero.symm
      · cases posture with
        | none => nofun
        | some text =>
            intro time member
            injection member with isZero
            exact le_of_eq isZero.symm
    · intro before event holds state
      exact watching_step state holds
  intro between
  exact ⟨watching.config (by rw [between]; rfl),
    watching.posture (by rw [between]; rfl)⟩

/-- A start and two ticks: both files are edited while the daemon runs, then
one is removed and the other is no UTF-8 any more. -/
def editedWhileRunning : List FileEvent :=
  List.replicate 6 (.advance true) ++
    [.editConfig (some "allow_ping = false\n"),
      .editPosture (some "name = \"secure\"\n"),
      .tick false, .advance true, .advance true,
      .editConfig (some "udp_strict = false\n"), .advance true,
      .advance true, .advance true,
      .removePosture, .editConfig none,
      .tick false, .advance true, .advance true, .advance true]

/-- A reader of the texts below. -/
def everyText : ConfigReader where
  parses _ := true
  defaultConfig := ""
  default_parses := rfl

theorem running_edits_are_noticed :
    (Runs.run (step everyText) (unstarted (some (some "")) none)
      editedWhileRunning).MissesNothing :=
  no_edit_is_missed everyText (some (some "")) none editedWhileRunning
    (Runs.Stepwise.of_positions (by decide +kernel))
    editedWhileRunning [] (by simp)

/-- The configuration is edited after the start has read it. -/
def editedWhileStarting : List FileEvent :=
  [.advance true, .editConfig (some "allow_ping = false\n")] ++
    List.replicate 5 (.advance true)

theorem editedWhileStarting_final :
    let files :=
      Runs.run (step everyText) (unstarted (some (some "")) none)
        editedWhileStarting
    files.phase = .betweenTicks ∧
      files.config =
        ⟨some (some "allow_ping = false\n", 1), some 1, some ""⟩ := by
  decide +kernel

/-- An edit during the start is never loaded. -/
theorem starting_edit_is_missed :
    ¬(Runs.run (step everyText) (unstarted (some (some "")) none)
      editedWhileStarting).MissesNothing := by
  intro missesNothing
  obtain ⟨between, isConfig⟩ := editedWhileStarting_final
  have inSync := (missesNothing between).1
  rw [isConfig] at inSync
  exact absurd (inSync rfl) (by decide)

end ConfigFiles

end AiFirewall

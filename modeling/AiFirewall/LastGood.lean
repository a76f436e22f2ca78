import AiFirewall.ConfigFiles

namespace AiFirewall

/-!
# The configuration to fall back to

`LAST_GOOD` is to hold a configuration that was applied.  The copy is made
from the file, not from what was applied: at a start before the first
`apply_config`, at a reload after it.
-/

namespace ConfigFiles

variable {reader : ConfigReader} {files : ConfigFiles}

/-- The text that the daemon is about to apply. -/
def pending : FilePhase → Option String
  | .configLoaded text _ => some text
  | .postureLoaded text _ => some text
  | .postureNoted text _ => some text
  | .copied text => some text
  | .configNoted text => some text
  | .configReloaded text => some text
  | _ => none

/-- Only texts that parse are applied. -/
structure Readable (reader : ConfigReader) (files : ConfigFiles) : Prop where
  applied : ∀ text ∈ files.applied, reader.parses text = true
  next : ∀ text ∈ pending files.phase, reader.parses text = true

/-- `LAST_GOOD`, once written, is a text that parsed and was applied. -/
def KeepsGood (reader : ConfigReader) (files : ConfigFiles) : Prop :=
  ∀ text ∈ files.lastGood,
    reader.parses text = true ∧ text ∈ files.applied

/-- A copy that is made is the copy of a text that was applied before. -/
def CopiesApplied (files : ConfigFiles) (event : FileEvent) : Prop :=
  match event, files.phase with
  | .advance true, .postureNoted _ true
  | .advance true, .reapplied =>
      ∀ text ∈ files.config.text, text ∈ files.applied
  | _, _ => True

theorem parses_fallback (reader : ConfigReader) (files : ConfigFiles) :
    reader.parses (files.fallback reader) = true := by
  unfold fallback
  cases accepted : reader.accepts files.lastGood with
  | none => exact reader.default_parses
  | some text => exact ConfigReader.parses_of_accepts accepted

theorem Readable.forget
    (readable : files.Readable reader)
    {changed : ConfigFiles}
    (sameApplied : changed.applied = files.applied)
    (nothing : pending changed.phase = none) :
    changed.Readable reader where
  applied := sameApplied ▸ readable.applied
  next := by
    intro text member
    rw [nothing] at member
    cases member

theorem Readable.carry
    (readable : files.Readable reader)
    {changed : ConfigFiles}
    (sameApplied : changed.applied = files.applied)
    (same : pending changed.phase = pending files.phase) :
    changed.Readable reader where
  applied := sameApplied ▸ readable.applied
  next := same ▸ readable.next

theorem Readable.set
    (readable : files.Readable reader)
    {changed : ConfigFiles}
    (sameApplied : changed.applied = files.applied)
    {text : String}
    (isNext : pending changed.phase = some text)
    (parses : reader.parses text = true) :
    changed.Readable reader where
  applied := sameApplied ▸ readable.applied
  next := by
    intro other member
    rw [isNext] at member
    injection member with same
    exact same ▸ parses

theorem Readable.apply
    (readable : files.Readable reader)
    {text : String}
    (isNext : pending files.phase = some text)
    {changed : ConfigFiles}
    (isApplied : changed.applied = text :: files.applied)
    (nothing : pending changed.phase = none) :
    changed.Readable reader where
  applied := by
    rw [isApplied]
    exact List.forall_mem_cons.mpr
      ⟨readable.next text isNext, readable.applied⟩
  next := by
    intro other member
    rw [nothing] at member
    cases member

/-- A copy changes `LAST_GOOD` and nothing else. -/
theorem rememberGood_same (works : Bool) (files : ConfigFiles) :
    (files.rememberGood works).applied = files.applied ∧
      (files.rememberGood works).config = files.config ∧
      (files.rememberGood works).posture = files.posture ∧
      (files.rememberGood works).clock = files.clock := by
  rcases rememberGood_cases works files with
    ⟨text, _, _, copied⟩ | ⟨kept, _⟩
  · rw [copied]
    exact ⟨rfl, rfl, rfl, rfl⟩
  · rw [kept]
    exact ⟨rfl, rfl, rfl, rfl⟩

theorem readable_advance
    (works : Bool)
    (readable : files.Readable reader) :
    (files.advance reader works).Readable reader := by
  unfold advance
  split
  · obtain ⟨config, clock, read, loaded, _⟩ :=
      loadOrCreate_cases reader works files
    rw [loadAtStart, loaded]
    dsimp only
    split
    · rename_i accepted
      exact readable.set rfl rfl (ConfigReader.parses_of_accepts accepted)
    · exact readable.set rfl rfl (parses_fallback reader files)
  · rename_i phase
    exact readable.carry rfl (by rw [phase]; rfl)
  · rename_i phase
    exact readable.carry rfl (by rw [phase]; rfl)
  · rename_i phase
    exact readable.carry (rememberGood_same works files).1
      (by rw [phase]; rfl)
  · rename_i phase
    exact readable.carry rfl (by rw [phase]; rfl)
  · rename_i phase
    exact readable.carry rfl (by rw [phase]; rfl)
  · rename_i text phase
    have isNext : pending files.phase = some text := by
      rw [phase]
      rfl
    split
    · exact readable.apply isNext rfl rfl
    · exact readable.forget rfl rfl
  · exact readable
  · split
    · exact readable.forget rfl rfl
    · exact readable.forget rfl rfl
  · exact readable.forget rfl rfl
  · obtain ⟨config, clock, read, loaded, _⟩ :=
      loadOrCreate_cases reader works files
    rw [loaded]
    dsimp only
    split
    · rename_i accepted
      exact readable.set rfl rfl (ConfigReader.parses_of_accepts accepted)
    · exact readable.forget rfl rfl
  · rename_i text phase
    have isNext : pending files.phase = some text := by
      rw [phase]
      rfl
    split
    · exact readable.apply isNext rfl rfl
    · exact readable.forget rfl rfl
  · exact readable.forget (rememberGood_same works files).1 rfl

theorem readable_step
    (readable : files.Readable reader)
    (event : FileEvent) :
    (files.step reader event).Readable reader := by
  cases event with
  | editConfig content => exact readable.carry rfl rfl
  | editPosture content => exact readable.carry rfl rfl
  | removeConfig => exact readable.carry rfl rfl
  | removePosture => exact readable.carry rfl rfl
  | advance works => exact readable_advance works readable
  | tick hangup =>
      unfold step
      dsimp only
      split
      · exact readable.forget rfl rfl
      · exact readable
  | crash => exact readable.forget rfl rfl

theorem KeepsGood.grow
    (good : files.KeepsGood reader)
    {changed : ConfigFiles}
    (sameCopy : changed.lastGood = files.lastGood)
    (grows : ∀ text ∈ files.applied, text ∈ changed.applied) :
    changed.KeepsGood reader := by
  intro text isCopy
  rw [sameCopy] at isCopy
  obtain ⟨parses, isApplied⟩ := good text isCopy
  exact ⟨parses, grows text isApplied⟩

/-- A copy keeps `LAST_GOOD` good exactly when its text was applied. -/
theorem keepsGood_rememberGood_iff
    (readable : files.Readable reader)
    (good : files.KeepsGood reader)
    (works : Bool)
    (phase : FilePhase) :
    ({ files.rememberGood works with phase := phase } :
        ConfigFiles).KeepsGood reader ↔
      (works = true →
        ∀ text ∈ files.config.text, text ∈ files.applied) := by
  rcases rememberGood_cases works files with
    ⟨text, isText, goes, copied⟩ | ⟨kept, notCopied⟩
  · rw [copied, isText]
    constructor
    · intro after _ other isOther
      injection isOther with same
      subst same
      exact (after text rfl).2
    · intro applied other isCopy
      injection isCopy with same
      subst same
      have isApplied := applied goes text rfl
      exact ⟨readable.applied text isApplied, isApplied⟩
  · rw [kept]
    refine iff_of_true (good.grow rfl fun _ member => member) ?_
    intro goes text isText
    rw [notCopied text isText] at goes
    cases goes

/-- A step keeps `LAST_GOOD` good exactly when it copies applied texts. -/
theorem keepsGood_step_iff
    (readable : files.Readable reader)
    (good : files.KeepsGood reader)
    (event : FileEvent) :
    (files.step reader event).KeepsGood reader ↔
      files.CopiesApplied event := by
  have kept
      {changed : ConfigFiles}
      (sameCopy : changed.lastGood = files.lastGood)
      (sameApplied : changed.applied = files.applied) :
      changed.KeepsGood reader :=
    good.grow sameCopy fun _ member => sameApplied ▸ member
  have applied
      {changed : ConfigFiles}
      {text : String}
      (sameCopy : changed.lastGood = files.lastGood)
      (isApplied : changed.applied = text :: files.applied) :
      changed.KeepsGood reader :=
    good.grow sameCopy fun _ member =>
      isApplied ▸ List.mem_cons_of_mem text member
  cases event with
  | editConfig content => exact iff_of_true (kept rfl rfl) trivial
  | editPosture content => exact iff_of_true (kept rfl rfl) trivial
  | removeConfig => exact iff_of_true (kept rfl rfl) trivial
  | removePosture => exact iff_of_true (kept rfl rfl) trivial
  | crash => exact iff_of_true (kept rfl rfl) trivial
  | tick hangup =>
      refine iff_of_true ?_ trivial
      unfold step
      dsimp only
      split
      · exact kept rfl rfl
      · exact good
  | advance works =>
      unfold step CopiesApplied advance
      dsimp only
      cases phase : files.phase with
      | stopped =>
          obtain ⟨config, clock, read, loaded, _⟩ :=
            loadOrCreate_cases reader works files
          refine iff_of_true ?_ (by cases works <;> trivial)
          dsimp only
          rw [loadAtStart, loaded]
          dsimp only
          split
          · exact kept rfl rfl
          · exact kept rfl rfl
      | configLoaded text fine =>
          exact iff_of_true (kept rfl rfl) (by cases works <;> trivial)
      | postureLoaded text fine =>
          exact iff_of_true (kept rfl rfl) (by cases works <;> trivial)
      | postureNoted text fine =>
          cases fine with
          | false =>
              exact iff_of_true (kept rfl rfl) (by cases works <;> trivial)
          | true =>
              refine (keepsGood_rememberGood_iff readable good works
                (.copied text)).trans ?_
              cases works <;> simp
      | copied text =>
          exact iff_of_true (kept rfl rfl) (by cases works <;> trivial)
      | configNoted text =>
          refine iff_of_true ?_ (by cases works <;> trivial)
          cases works with
          | true => exact applied rfl rfl
          | false => exact kept rfl rfl
      | betweenTicks =>
          exact iff_of_true good (by cases works <;> trivial)
      | tickStarted hangup configTime =>
          refine iff_of_true ?_ (by cases works <;> trivial)
          dsimp only
          split
          · exact kept rfl rfl
          · exact kept rfl rfl
      | timesNoted =>
          exact iff_of_true (kept rfl rfl) (by cases works <;> trivial)
      | postureReloaded =>
          obtain ⟨config, clock, read, loaded, _⟩ :=
            loadOrCreate_cases reader works files
          refine iff_of_true ?_ (by cases works <;> trivial)
          dsimp only
          rw [loaded]
          dsimp only
          split
          · exact kept rfl rfl
          · exact kept rfl rfl
      | configReloaded text =>
          refine iff_of_true ?_ (by cases works <;> trivial)
          cases works with
          | true => exact applied rfl rfl
          | false => exact kept rfl rfl
      | reapplied =>
          refine (keepsGood_rememberGood_iff readable good works
            .betweenTicks).trans ?_
          cases works <;> simp

theorem readable_run
    (reader : ConfigReader)
    (config posture : Option (Option String))
    (events : List FileEvent) :
    (Runs.run (step reader) (unstarted config posture) events).Readable
      reader := by
  induction events using List.reverseRecOn with
  | nil =>
      constructor
      · intro text member
        cases member
      · intro text member
        cases member
  | append_singleton past event inductionHypothesis =>
      rw [Runs.run_concat]
      exact readable_step inductionHypothesis event

/--
In every state of a run `LAST_GOOD` is a text that parsed and was applied, if
and only if every copy is made while the file says something applied before.
-/
theorem last_good_was_applied_iff
    (reader : ConfigReader)
    (config posture : Option (Option String))
    (events : List FileEvent) :
    (∀ past later,
        events = past ++ later →
        (Runs.run (step reader) (unstarted config posture) past).KeepsGood
          reader) ↔
      Runs.Stepwise
        (fun past event =>
          (Runs.run (step reader) (unstarted config posture)
            past).CopiesApplied event)
        events := by
  constructor
  · intro always past event later shape
    have before := always past (event :: later) shape
    have after := always (past ++ [event]) later (by rw [shape]; simp)
    rw [Runs.run_concat] at after
    exact (keepsGood_step_iff (readable_run reader config posture past)
      before event).mp after
  · intro copies past later shape
    subst shape
    refine Runs.Stepwise.invariant
      (fun _ files => KeepsGood reader files) ?_ ?_ copies.before
    · intro text isCopy
      cases isCopy
    · intro before event copiesApplied good
      exact (keepsGood_step_iff (readable_run reader config posture before)
        good event).mpr copiesApplied

/-- A reader that knows three texts: two configurations and a slip. -/
def threeTexts : ConfigReader where
  parses text := text == "" || text == "allow_ping = false\n"
  defaultConfig := ""
  default_parses := by decide

/-- A start whose `apply_config` fails. -/
def failedStart : List FileEvent :=
  List.replicate 5 (.advance true) ++ [.advance false]

/-- A reload, with a slip typed between its `apply_config` and its copy. -/
def slipBeforeCopy : List FileEvent :=
  List.replicate 6 (.advance true) ++
    [.editConfig (some "allow_ping = false\n"), .tick false] ++
    List.replicate 4 (.advance true) ++
    [.editConfig (some "allow_ping = \n"), .advance true]

theorem failedStart_copied :
    (Runs.run (step threeTexts) (unstarted (some (some "")) none)
          failedStart).lastGood = some "" ∧
      (Runs.run (step threeTexts) (unstarted (some (some "")) none)
        failedStart).applied = [] := by
  decide +kernel

theorem slipBeforeCopy_copied :
    (Runs.run (step threeTexts) (unstarted (some (some "")) none)
        slipBeforeCopy).lastGood = some "allow_ping = \n" := by
  decide +kernel

/-- The copy need not have been applied, nor even parse. -/
theorem last_good_is_not_good :
    ¬(Runs.run (step threeTexts) (unstarted (some (some "")) none)
          failedStart).KeepsGood threeTexts ∧
      ¬(Runs.run (step threeTexts) (unstarted (some (some "")) none)
          slipBeforeCopy).KeepsGood threeTexts := by
  constructor
  · intro good
    obtain ⟨isCopy, nothing⟩ := failedStart_copied
    have isApplied := (good "" isCopy).2
    rw [nothing] at isApplied
    cases isApplied
  · intro good
    exact absurd (good _ slipBeforeCopy_copied).1 (by decide +kernel)

end ConfigFiles

end AiFirewall

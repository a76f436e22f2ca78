import AiFirewall.PortEdits

namespace AiFirewall

/-!
# Lost port edits

Two commands that both change the file can overlap: the one that renames last
undoes the other, and both report success.  As long as no command touches the
files between another one's reading and its renaming, the file is always what
the commands make of it one after another.
-/

open Runs

variable {Doc : Type} {count : Nat}

namespace CommandPhase

/-- How a command goes on from what its edit comes to. -/
def ofEdited :
    Except Error (Option String) → CommandPhase
  | .ok none => .returned (.ok false)
  | .ok (some new) => .edited new
  | .error failure => .returned (.error failure)

/-- The command's next step works on the files. -/
def Touches : CommandPhase → Prop
  | .edited _ => True
  | .opened _ _ => True
  | .written _ => True
  | _ => False

/-- The command has read a text that it is going to change. -/
def Changing
    (editor : ConfigEditor Doc)
    (edit : PortEdit) : CommandPhase → Prop
  | .hasRead text => ∃ new, editor.setPort edit text = .ok (some new)
  | .edited _ => True
  | .opened _ _ => True
  | .written _ => True
  | _ => False

/-- The command is done, or has read a text that it leaves as it is. -/
def Done
    (editor : ConfigEditor Doc)
    (edit : PortEdit) : CommandPhase → Prop
  | .hasRead text => editor.setPort edit text = .ok none
  | .returned (.ok _) => True
  | _ => False

/-- What a changing command relies on: the text it read, and its own file. -/
def Relies
    (editor : ConfigEditor Doc)
    (edit : PortEdit)
    (directory : ConfigDirectory) : CommandPhase → Prop
  | .hasRead text =>
      (∃ new, editor.setPort edit text = .ok (some new)) →
        text = directory.text
  | .edited new => editor.setPort edit directory.text = .ok (some new)
  | .opened file new =>
      editor.setPort edit directory.text = .ok (some new) ∧
        directory.temporary = some file ∧ directory.contents file = ""
  | .written new =>
      editor.setPort edit directory.text = .ok (some new) ∧
        ∃ file, directory.temporary = some file ∧
          directory.contents file = new
  | _ => True

/-- A command that changes nothing relies on nothing. -/
theorem relies_of_not_changing
    {editor : ConfigEditor Doc}
    {edit : PortEdit}
    {directory : ConfigDirectory}
    {phase : CommandPhase}
    (unchanging : ¬phase.Changing editor edit) :
    phase.Relies editor edit directory := by
  cases phase with
  | ready => exact trivial
  | hasRead text => exact fun changes => absurd changes unchanging
  | edited new => exact absurd trivial unchanging
  | opened file new => exact absurd trivial unchanging
  | written new => exact absurd trivial unchanging
  | returned result => exact trivial

end CommandPhase

namespace ConfigDirectory

/-- The two names stand for different files, and new files are new. -/
structure Sound (directory : ConfigDirectory) : Prop where
  apart : ∀ file, directory.temporary = some file → file ≠ directory.config
  configOld : directory.config < directory.fresh
  temporaryOld :
    ∀ file, directory.temporary = some file → file < directory.fresh

theorem openTemporary_spec
    {directory : ConfigDirectory}
    (sound : directory.Sound) :
    directory.openTemporary.1.Sound ∧
      directory.openTemporary.1.text = directory.text ∧
      directory.openTemporary.1.temporary =
        some directory.openTemporary.2 ∧
      directory.openTemporary.1.contents directory.openTemporary.2 = "" := by
  unfold openTemporary
  cases named : directory.temporary with
  | some file =>
      have apart := sound.apart file named
      refine ⟨⟨sound.apart, sound.configOld, sound.temporaryOld⟩, ?_, named,
        if_pos rfl⟩
      exact if_neg (Ne.symm apart)
  | none =>
      have older := sound.configOld
      refine ⟨⟨?_, Nat.lt_succ_of_lt older, ?_⟩, ?_, rfl, if_pos rfl⟩
      · rintro file isTemporary
        cases isTemporary
        exact Nat.ne_of_gt older
      · rintro file isTemporary
        cases isTemporary
        exact Nat.lt_succ_self _
      · exact if_neg (Nat.ne_of_lt older)

theorem write_spec
    {directory : ConfigDirectory}
    (sound : directory.Sound)
    {file : Nat}
    (named : directory.temporary = some file)
    (empty : directory.contents file = "")
    (new : String) :
    (directory.write file new).Sound ∧
      (directory.write file new).text = directory.text ∧
      (directory.write file new).contents file = new := by
  refine ⟨⟨sound.apart, sound.configOld, sound.temporaryOld⟩, ?_, ?_⟩
  · exact if_neg (Ne.symm (sound.apart file named))
  · refine (if_pos rfl).trans ?_
    simp [empty]

theorem rename_spec
    {directory : ConfigDirectory}
    (sound : directory.Sound)
    {file : Nat}
    (named : directory.temporary = some file) :
    ∃ after, directory.rename = some after ∧ after.Sound ∧
      after.text = directory.contents file := by
  refine ⟨_, by rw [rename, named, Option.map_some], ⟨?_, ?_, ?_⟩, rfl⟩
  · rintro other isTemporary
    cases isTemporary
  · exact sound.temporaryOld file named
  · rintro other isTemporary
    cases isTemporary

end ConfigDirectory

namespace Commands

/-- While a command works on the files, no other one is changing them. -/
def Undisturbed
    (editor : ConfigEditor Doc)
    (edits : Fin count → PortEdit)
    (commands : Commands count)
    (index : Fin count) : Prop :=
  (commands.phase index).Touches →
    ∀ other, other ≠ index →
      ¬(commands.phase other).Changing editor (edits other)

/-- The file is what the commands done so far make of it, in an order. -/
structure Ordered
    (editor : ConfigEditor Doc)
    (edits : Fin count → PortEdit)
    (start : String)
    (commands : Commands count)
    (order : List (Fin count)) : Prop where
  sound : commands.directory.Sound
  once : order.Nodup
  done :
    ∀ index, index ∈ order ↔
      (commands.phase index).Done editor (edits index)
  performed :
    editor.performAll (order.map edits) start = some commands.directory.text
  relies :
    ∀ index,
      (commands.phase index).Relies editor (edits index) commands.directory

variable
  {editor : ConfigEditor Doc}
  {edits : Fin count → PortEdit}
  {start : String}
  {commands : Commands count}
  {order : List (Fin count)}

@[simp] theorem setPhase_self
    (commands : Commands count)
    (index : Fin count)
    (phase : CommandPhase) :
    (commands.setPhase index phase).phase index = phase :=
  if_pos rfl

theorem setPhase_other
    (commands : Commands count)
    {index other : Fin count}
    (different : other ≠ index)
    (phase : CommandPhase) :
    (commands.setPhase index phase).phase other = commands.phase other :=
  if_neg different

theorem performAll_concat
    (editor : ConfigEditor Doc)
    (earlier : List PortEdit)
    (edit : PortEdit)
    (start : String) :
    editor.performAll (earlier ++ [edit]) start =
      (editor.performAll earlier start).bind (editor.perform edit) := by
  unfold ConfigEditor.performAll
  rw [List.foldlM_append]
  cases List.foldlM (fun text edit => editor.perform edit text) start
    earlier <;> simp

/-- What the commands rely on, from what they relied on before a step. -/
theorem relies_setPhase
    {index : Fin count}
    {phase : CommandPhase}
    {directory : ConfigDirectory}
    (relies : phase.Relies editor (edits index) directory)
    (others :
      ∀ other, other ≠ index →
        (commands.phase other).Relies editor (edits other) directory)
    (other : Fin count) :
    ((commands.setPhase index phase).phase other).Relies editor
      (edits other) directory := by
  by_cases same : other = index
  · subst same
    simpa using relies
  · rw [setPhase_other commands same]
    exact others other same

/-- A step that leaves the text alone, and the command done or not. -/
theorem Ordered.same
    (ordered : Ordered editor edits start commands order)
    {index : Fin count}
    {phase : CommandPhase}
    {directory : ConfigDirectory}
    (sameDone :
      phase.Done editor (edits index) ↔
        (commands.phase index).Done editor (edits index))
    (sound : directory.Sound)
    (sameText : directory.text = commands.directory.text)
    (relies : phase.Relies editor (edits index) directory)
    (others :
      ∀ other, other ≠ index →
        (commands.phase other).Relies editor (edits other) directory) :
    Ordered editor edits start
      { commands.setPhase index phase with directory := directory }
      order where
  sound := sound
  once := ordered.once
  done := by
    intro other
    by_cases same : other = index
    · subst same
      rw [ordered.done other, ← sameDone]
      exact iff_of_eq
        (congrArg (CommandPhase.Done editor (edits other))
          (setPhase_self commands other phase).symm)
    · rw [ordered.done other]
      exact iff_of_eq (by rw [← setPhase_other commands same phase])
  performed := by
    rw [ordered.performed, sameText]
  relies := relies_setPhase relies others

/-- A step with which a command is done: it comes last in the order. -/
theorem Ordered.concat
    (ordered : Ordered editor edits start commands order)
    {index : Fin count}
    {phase : CommandPhase}
    {directory : ConfigDirectory}
    (notDone : ¬(commands.phase index).Done editor (edits index))
    (nowDone : phase.Done editor (edits index))
    (sound : directory.Sound)
    (performs :
      editor.perform (edits index) commands.directory.text =
        some directory.text)
    (relies : phase.Relies editor (edits index) directory)
    (others :
      ∀ other, other ≠ index →
        (commands.phase other).Relies editor (edits other) directory) :
    Ordered editor edits start
      { commands.setPhase index phase with directory := directory }
      (order ++ [index]) where
  sound := sound
  once := by
    rw [List.nodup_append]
    refine ⟨ordered.once, List.nodup_singleton index, ?_⟩
    intro first member second isLast same
    obtain rfl := List.mem_singleton.mp isLast
    subst same
    exact notDone ((ordered.done _).mp member)
  done := by
    intro other
    rw [List.mem_append, List.mem_singleton]
    by_cases same : other = index
    · subst same
      exact iff_of_true (Or.inr rfl) (by simpa using nowDone)
    · rw [ordered.done other, or_iff_left same]
      exact iff_of_eq (by rw [← setPhase_other commands same phase])
  performed := by
    rw [List.map_append, List.map_singleton, performAll_concat,
      ordered.performed]
    exact performs
  relies := relies_setPhase relies others

/-- A command that reads is done at once if its edit changes nothing. -/
theorem Ordered.step_of_ready
    (ordered : Ordered editor edits start commands order)
    {index : Fin count}
    (phase : commands.phase index = .ready) :
    ∃ next,
      Ordered editor edits start (commands.step editor edits index) next := by
  have unread : ¬(commands.phase index).Done editor (edits index) := by
    rw [phase]
    exact id
  have result :
      commands.step editor edits index =
        { commands.setPhase index (.hasRead commands.directory.text) with
          directory := commands.directory } := by
    rw [step, phase]
    rfl
  rw [result]
  by_cases nothing :
      editor.setPort (edits index) commands.directory.text = .ok none
  · refine ⟨order ++ [index], ordered.concat unread nothing
      ordered.sound ?_ (fun _ => rfl) fun other _ => ordered.relies other⟩
    rw [ConfigEditor.perform, nothing]
  · exact ⟨order, ordered.same (iff_of_false nothing unread)
      ordered.sound rfl (fun _ => rfl) fun other _ =>
        ordered.relies other⟩

/-- What has been read is edited; the files stay as they are. -/
theorem Ordered.step_of_hasRead
    (ordered : Ordered editor edits start commands order)
    {index : Fin count}
    {text : String}
    (phase : commands.phase index = .hasRead text) :
    Ordered editor edits start (commands.step editor edits index) order := by
  have own := ordered.relies index
  rw [phase] at own
  have result :
      commands.step editor edits index =
        { commands.setPhase index
            (.ofEdited (editor.setPort (edits index) text)) with
          directory := commands.directory } := by
    rw [step, phase]
    rfl
  rw [result]
  refine ordered.same ?_ ordered.sound rfl ?_ fun other _ =>
    ordered.relies other
  · rw [phase]
    cases edited : editor.setPort (edits index) text with
    | error failure =>
        simp [CommandPhase.ofEdited, CommandPhase.Done, edited]
    | ok outcome =>
        cases outcome <;>
          simp [CommandPhase.ofEdited, CommandPhase.Done, edited]
  · cases edited : editor.setPort (edits index) text with
    | error failure => exact trivial
    | ok outcome =>
        cases outcome with
        | none => exact trivial
        | some new =>
            have same := own ⟨new, edited⟩
            rw [same] at edited
            exact edited

/-- The temporary file is opened while no other command relies on it. -/
theorem Ordered.step_of_edited
    (ordered : Ordered editor edits start commands order)
    {index : Fin count}
    {new : String}
    (phase : commands.phase index = .edited new)
    (still :
      ∀ other, other ≠ index →
        ¬(commands.phase other).Changing editor (edits other)) :
    Ordered editor edits start (commands.step editor edits index) order := by
  have own := ordered.relies index
  rw [phase] at own
  obtain ⟨sound, sameText, named, empty⟩ :=
    ConfigDirectory.openTemporary_spec ordered.sound
  have result :
      commands.step editor edits index =
        { commands.setPhase index
            (.opened commands.directory.openTemporary.2 new) with
          directory := commands.directory.openTemporary.1 } := by
    rw [step, phase]
  rw [result]
  refine ordered.same ?_ sound sameText ⟨?_, named, empty⟩
    fun other different =>
      CommandPhase.relies_of_not_changing (still other different)
  · rw [phase]
    exact Iff.rfl
  · rw [sameText]
    exact own

/-- The temporary file is written while no other command relies on it. -/
theorem Ordered.step_of_opened
    (ordered : Ordered editor edits start commands order)
    {index : Fin count}
    {file : Nat}
    {new : String}
    (phase : commands.phase index = .opened file new)
    (still :
      ∀ other, other ≠ index →
        ¬(commands.phase other).Changing editor (edits other)) :
    Ordered editor edits start (commands.step editor edits index) order := by
  have own := ordered.relies index
  rw [phase] at own
  obtain ⟨changes, named, empty⟩ := own
  obtain ⟨sound, sameText, holds⟩ :=
    ConfigDirectory.write_spec ordered.sound named empty new
  have result :
      commands.step editor edits index =
        { commands.setPhase index (.written new) with
          directory := commands.directory.write file new } := by
    rw [step, phase]
  rw [result]
  refine ordered.same ?_ sound sameText ⟨?_, file, named, holds⟩
    fun other different =>
      CommandPhase.relies_of_not_changing (still other different)
  · rw [phase]
    exact Iff.rfl
  · rw [sameText]
    exact changes

/-- With the renaming the command is done, and its edit is in the file. -/
theorem Ordered.step_of_written
    (ordered : Ordered editor edits start commands order)
    {index : Fin count}
    {new : String}
    (phase : commands.phase index = .written new)
    (still :
      ∀ other, other ≠ index →
        ¬(commands.phase other).Changing editor (edits other)) :
    Ordered editor edits start (commands.step editor edits index)
      (order ++ [index]) := by
  have own := ordered.relies index
  rw [phase] at own
  obtain ⟨changes, file, named, holds⟩ := own
  obtain ⟨after, renamed, sound, newText⟩ :=
    ConfigDirectory.rename_spec ordered.sound named
  have result :
      commands.step editor edits index =
        { commands.setPhase index (.returned (.ok true)) with
          directory := after } := by
    rw [step, phase]
    dsimp only
    rw [renamed]
  rw [result]
  refine ordered.concat ?_ trivial sound ?_ trivial fun other different =>
    CommandPhase.relies_of_not_changing (still other different)
  · rw [phase]
    exact id
  · rw [ConfigEditor.perform, changes, newText, holds]

/-- Every undisturbed step keeps the file in order. -/
theorem ordered_step
    (ordered : Ordered editor edits start commands order)
    {index : Fin count}
    (undisturbed : Undisturbed editor edits commands index) :
    ∃ next,
      Ordered editor edits start (commands.step editor edits index) next := by
  have still
      (touches : (commands.phase index).Touches) :
      ∀ other, other ≠ index →
        ¬(commands.phase other).Changing editor (edits other) :=
    undisturbed touches
  cases phase : commands.phase index with
  | ready => exact ordered.step_of_ready phase
  | hasRead text => exact ⟨order, ordered.step_of_hasRead phase⟩
  | edited new =>
      rw [phase] at still
      exact ⟨order, ordered.step_of_edited phase (still trivial)⟩
  | opened file new =>
      rw [phase] at still
      exact ⟨order, ordered.step_of_opened phase (still trivial)⟩
  | written new =>
      rw [phase] at still
      exact ⟨order ++ [index], ordered.step_of_written phase (still trivial)⟩
  | returned outcome =>
      have result : commands.step editor edits index = commands := by
        rw [step, phase]
      rw [result]
      exact ⟨order, ordered⟩

/-- The configuration file, and a temporary file an earlier run may have left. -/
def starting (text : String) (leftover : Option String) :
    ConfigDirectory where
  config := 0
  temporary := leftover.map fun _ => 1
  contents file := if file = 0 then text else leftover.getD ""
  fresh := 2

theorem sound_starting (text : String) (leftover : Option String) :
    (starting text leftover).Sound := by
  refine ⟨fun file isTemporary => ?_, Nat.zero_lt_two,
    fun file isTemporary => ?_⟩
  · obtain ⟨_, _, rfl⟩ := Option.map_eq_some_iff.mp isTemporary
    exact Nat.one_ne_zero
  · obtain ⟨_, _, rfl⟩ := Option.map_eq_some_iff.mp isTemporary
    exact Nat.one_lt_two

/-- The commands after some steps, from a start with a text in the file. -/
def after
    (editor : ConfigEditor Doc)
    (edits : Fin count → PortEdit)
    (text : String)
    (leftover : Option String)
    (schedule : List (Fin count)) : Commands count :=
  run (step editor edits) (ready (starting text leftover)) schedule

/-- Undisturbed steps keep the file in order. -/
theorem ordered_after
    (editor : ConfigEditor Doc)
    (edits : Fin count → PortEdit)
    (text : String)
    (leftover : Option String)
    {schedule : List (Fin count)}
    (undisturbed :
      Stepwise
        (fun past index =>
          Undisturbed editor edits (after editor edits text leftover past)
            index)
        schedule) :
    ∃ order,
      Ordered editor edits text (after editor edits text leftover schedule)
        order := by
  have first :
      Ordered editor edits text (ready (starting text leftover)) [] :=
    { sound := sound_starting text leftover
      once := List.nodup_nil
      done := fun _ => iff_of_false List.not_mem_nil id
      performed := rfl
      relies := fun _ => trivial }
  refine Stepwise.invariant
    (fun _ commands => ∃ order, Ordered editor edits text commands order)
    ⟨[], first⟩ (fun past index still ordered => ?_) undisturbed
  obtain ⟨order, isOrdered⟩ := ordered
  exact ordered_step isOrdered still

/-- Nothing is lost: the file is what the commands make of it in some order. -/
def NothingLost
    (editor : ConfigEditor Doc)
    (edits : Fin count → PortEdit)
    (text : String)
    (commands : Commands count) : Prop :=
  (∀ index, ∃ changed, commands.phase index = .returned (.ok changed)) →
    ∃ order : List (Fin count),
      order.Nodup ∧ (∀ index, index ∈ order) ∧
        editor.performAll (order.map edits) text =
          some commands.directory.text

/--
No edit is lost as long as no command works on the files between another
one's reading and its renaming.
-/
theorem undisturbed_edits_are_kept
    (editor : ConfigEditor Doc)
    (edits : Fin count → PortEdit)
    (text : String)
    (leftover : Option String)
    (schedule : List (Fin count))
    (undisturbed :
      Stepwise
        (fun past index =>
          Undisturbed editor edits (after editor edits text leftover past)
            index)
        schedule) :
    NothingLost editor edits text
      (after editor edits text leftover schedule) := by
  intro allDone
  obtain ⟨order, ordered⟩ :=
    ordered_after editor edits text leftover undisturbed
  refine ⟨order, ordered.once, fun index => (ordered.done index).mpr ?_,
    ordered.performed⟩
  obtain ⟨changed, returned⟩ := allDone index
  rw [returned]
  exact trivial

/-- Documents of one line: the list of open TCP ports. -/
def oneLine : TomlEdit (List Nat) where
  parse text :=
    match (text.toList.dropPrefix? "allow_tcp = [".toList).bind
        fun rest => rest.dropSuffix? "]\n".toList with
    | none => Error.bail "not a line of ports"
    | some [] => .ok []
    | some inner =>
        (inner.splitOn ',').mapM fun piece =>
          (RustText.parseNumber 16 (RustText.trim piece)).map BitVec.toNat
  render ports :=
    "allow_tcp = [" ++ ", ".intercalate (ports.map Nat.repr) ++ "]\n"
  item ports key :=
    if key = "allow_tcp" then
      .array (ports.map fun port => .integer port)
    else
      .absent
  insertArray ports _ := ports
  push ports _ value :=
    match value with
    | .integer port => ports ++ [port.toNat]
    | _ => ports
  remove ports _ index := ports.eraseIdx index

def oneLineEditor : ConfigEditor (List Nat) where
  toml := oneLine
  fromToml text :=
    (oneLine.parse text).map fun ports =>
      { Config.default with
        allowTcp := ports.map fun port => .one (BitVec.ofNat 16 port) }

/-- `open tcp 22` and `open tcp 80`. -/
def twoOpenings (index : Fin 2) : PortEdit :=
  if index = 0 then ⟨"tcp", .one 22, true⟩ else ⟨"tcp", .one 80, true⟩

/-- A command that has not begun, or has returned. -/
def isIdle : CommandPhase → Bool
  | .ready => true
  | .returned _ => true
  | _ => false

theorem undisturbed_of_idle
    {index : Fin count}
    (idle : ∀ other, other ≠ index →
      isIdle (commands.phase other) = true) :
    Undisturbed editor edits commands index := by
  intro _ other different changing
  have isStill := idle other different
  revert changing isStill
  cases commands.phase other <;> simp [isIdle, CommandPhase.Changing]

/-- One command after the other: both ports are in the file. -/
theorem two_openings_are_kept :
    (after oneLineEditor twoOpenings "allow_tcp = []\n" none
      [0, 0, 0, 0, 0, 1, 1, 1, 1, 1]).directory.text =
        "allow_tcp = [22, 80]\n" ∧
      NothingLost oneLineEditor twoOpenings "allow_tcp = []\n"
        (after oneLineEditor twoOpenings "allow_tcp = []\n" none
          [0, 0, 0, 0, 0, 1, 1, 1, 1, 1]) := by
  refine ⟨by decide +kernel, undisturbed_edits_are_kept oneLineEditor
    twoOpenings "allow_tcp = []\n" none _
    (Stepwise.of_positions fun position => undisturbed_of_idle ?_)⟩
  revert position
  decide +kernel

/-- Both commands read, then both write: the first port is lost. -/
theorem overlapping_edit_is_lost :
    ¬NothingLost oneLineEditor twoOpenings "allow_tcp = []\n"
      (after oneLineEditor twoOpenings "allow_tcp = []\n" none
        [0, 1, 0, 0, 0, 0, 1, 1, 1, 1]) := by
  intro kept
  have allDone :
      ∀ index,
        (after oneLineEditor twoOpenings "allow_tcp = []\n" none
          [0, 1, 0, 0, 0, 0, 1, 1, 1, 1]).phase index =
            .returned (.ok true) := by
    decide +kernel
  obtain ⟨order, once, complete, performed⟩ :=
    kept fun index => ⟨true, allDone index⟩
  have arranged : order ∈ (List.finRange 2).permutations' := by
    rw [List.mem_permutations',
      List.perm_ext_iff_of_nodup once (List.nodup_finRange 2)]
    exact fun index => iff_of_true (complete index) (List.mem_finRange index)
  have never :
      ∀ order ∈ (List.finRange 2).permutations',
        oneLineEditor.performAll (order.map twoOpenings)
            "allow_tcp = []\n" ≠
          some
            (after oneLineEditor twoOpenings "allow_tcp = []\n" none
              [0, 1, 0, 0, 0, 0, 1, 1, 1, 1]).directory.text := by
    decide +kernel
  exact never order arranged performed

end Commands

end AiFirewall

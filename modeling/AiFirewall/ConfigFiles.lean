import AiFirewall.Runs

namespace AiFirewall

/-!
# The configuration file, its fallback and its watcher

The daemon reads the configuration and the posture at a start and again when
their modification times change, and keeps a copy of the configuration to
fall back to.  Every read, every note of a time, every `apply_config` and
every copy is a step of its own; the files can be edited or removed between
any two.
-/

/-- How the text of a configuration is read. -/
structure ConfigReader where
  /-- `Config::parse` accepts the text. -/
  parses : String → Bool
  /-- `DEFAULT_CONFIG`. -/
  defaultConfig : String
  default_parses : parses defaultConfig = true

namespace ConfigReader

/-- What was read of a file, if it is a configuration. -/
def accepts (reader : ConfigReader) (read : Option String) : Option String :=
  read.filter reader.parses

theorem parses_of_accepts
    {reader : ConfigReader}
    {read : Option String}
    {text : String}
    (accepted : reader.accepts read = some text) :
    reader.parses text = true :=
  (Option.filter_eq_some_iff.mp accepted).2

end ConfigReader

/-- A file, and what the daemon knows of it. -/
structure WatchedFile where
  /-- Its text, unless it is no UTF-8, and its modification time. -/
  current : Option (Option String × Nat)
  /-- The modification time the daemon has noted. -/
  remembered : Option Nat
  /-- The text the daemon has loaded last. -/
  loaded : Option String
  deriving Repr, DecidableEq

namespace WatchedFile

/-- `read_to_string`. -/
def text (file : WatchedFile) : Option String :=
  file.current.bind Prod.fst

def mtime (file : WatchedFile) : Option Nat :=
  file.current.map Prod.snd

def edit
    (content : Option String)
    (time : Nat)
    (file : WatchedFile) : WatchedFile :=
  { file with current := some (content, time) }

def remove (file : WatchedFile) : WatchedFile :=
  { file with current := none }

def load (file : WatchedFile) : WatchedFile :=
  { file with loaded := file.text }

def note (time : Option Nat) (file : WatchedFile) : WatchedFile :=
  { file with remembered := time }

end WatchedFile

/-- The next step of the daemon. -/
inductive FilePhase where
  | stopped
  /-- A start has read the configuration; `fine` says without an error. -/
  | configLoaded (text : String) (fine : Bool)
  | postureLoaded (text : String) (fine : Bool)
  | postureNoted (text : String) (fine : Bool)
  /-- The copy is made, or left out. -/
  | copied (text : String)
  | configNoted (text : String)
  | betweenTicks
  /-- A tick has read the time of the configuration. -/
  | tickStarted (hangup : Bool) (configTime : Option Nat)
  | timesNoted
  | postureReloaded
  | configReloaded (text : String)
  | reapplied
  deriving Repr, DecidableEq

structure ConfigFiles where
  config : WatchedFile
  posture : WatchedFile
  /-- `LAST_GOOD`. -/
  lastGood : Option String
  /-- The texts that `apply_config` has applied; nothing reads them. -/
  applied : List String
  /-- The latest modification time given so far. -/
  clock : Nat
  phase : FilePhase

inductive FileEvent where
  /-- What is written need not be UTF-8. -/
  | editConfig (content : Option String)
  | editPosture (content : Option String)
  | removeConfig
  | removePosture
  /-- The next step of a start or a reload; whether it works, if it can fail. -/
  | advance (works : Bool)
  | tick (hangup : Bool)
  | crash
  deriving Repr, DecidableEq

namespace ConfigFiles

/-- Before the first start. -/
def unstarted (config posture : Option (Option String)) : ConfigFiles where
  config := ⟨config.map fun content => (content, 0), none, none⟩
  posture := ⟨posture.map fun content => (content, 0), none, none⟩
  lastGood := none
  applied := []
  clock := 0
  phase := .stopped

/-- The text that `load_or_create` parses; a missing file that cannot be
written is the default. -/
def loadOrCreate
    (reader : ConfigReader)
    (works : Bool)
    (files : ConfigFiles) : ConfigFiles × Option String :=
  match files.config.current with
  | some (content, _) =>
      ({ files with config := files.config.load }, content)
  | none =>
      if works then
        ({ files with
            config :=
              (files.config.edit (some reader.defaultConfig)
                (files.clock + 1)).load
            clock := files.clock + 1 },
          some reader.defaultConfig)
      else
        ({ files with config := files.config.load },
          some reader.defaultConfig)

/-- What a start falls back to when the file is broken. -/
def fallback (reader : ConfigReader) (files : ConfigFiles) : String :=
  (reader.accepts files.lastGood).getD reader.defaultConfig

/-- `load_at_start`. -/
def loadAtStart
    (reader : ConfigReader)
    (works : Bool)
    (files : ConfigFiles) : ConfigFiles :=
  let (loaded, read) := files.loadOrCreate reader works
  match reader.accepts read with
  | some text => { loaded with phase := .configLoaded text true }
  | none =>
      { loaded with phase := .configLoaded (files.fallback reader) false }

/-- `remember_good`: copy what the file says now. -/
def rememberGood (works : Bool) (files : ConfigFiles) : ConfigFiles :=
  match files.config.text, works with
  | some text, true => { files with lastGood := some text }
  | _, _ => files

def advance
    (reader : ConfigReader)
    (works : Bool)
    (files : ConfigFiles) : ConfigFiles :=
  match files.phase with
  | .stopped => files.loadAtStart reader works
  | .configLoaded text fine =>
      { files with
        posture := files.posture.load
        phase := .postureLoaded text fine }
  | .postureLoaded text fine =>
      { files with
        posture := files.posture.note files.posture.mtime
        phase := .postureNoted text fine }
  | .postureNoted text true =>
      { files.rememberGood works with phase := .copied text }
  | .postureNoted text false => { files with phase := .copied text }
  | .copied text =>
      { files with
        config := files.config.note files.config.mtime
        phase := .configNoted text }
  | .configNoted text =>
      -- A start that cannot apply its configuration ends the daemon.
      if works then
        { files with
          applied := text :: files.applied
          phase := .betweenTicks }
      else
        { files with phase := .stopped }
  | .betweenTicks => files
  | .tickStarted hangup configTime =>
      if hangup || configTime != files.config.remembered ||
          files.posture.mtime != files.posture.remembered then
        { files with
          config := files.config.note configTime
          posture := files.posture.note files.posture.mtime
          phase := .timesNoted }
      else
        { files with phase := .betweenTicks }
  | .timesNoted =>
      { files with
        posture := files.posture.load
        phase := .postureReloaded }
  | .postureReloaded =>
      let (loaded, read) := files.loadOrCreate reader works
      match reader.accepts read with
      | some text => { loaded with phase := .configReloaded text }
      | none => { loaded with phase := .betweenTicks }
  | .configReloaded text =>
      if works then
        { files with
          applied := text :: files.applied
          phase := .reapplied }
      else
        { files with phase := .betweenTicks }
  | .reapplied =>
      { files.rememberGood works with phase := .betweenTicks }

def step
    (reader : ConfigReader)
    (files : ConfigFiles)
    (event : FileEvent) : ConfigFiles :=
  match event with
  | .editConfig content =>
      { files with
        config := files.config.edit content (files.clock + 1)
        clock := files.clock + 1 }
  | .editPosture content =>
      { files with
        posture := files.posture.edit content (files.clock + 1)
        clock := files.clock + 1 }
  | .removeConfig => { files with config := files.config.remove }
  | .removePosture => { files with posture := files.posture.remove }
  | .advance works => files.advance reader works
  | .tick hangup =>
      match files.phase with
      | .betweenTicks =>
          { files with phase := .tickStarted hangup files.config.mtime }
      | _ => files
  | .crash => { files with phase := .stopped }

/-- What `load_or_create` changes. -/
theorem loadOrCreate_cases
    (reader : ConfigReader)
    (works : Bool)
    (files : ConfigFiles) :
    ∃ config clock read,
      files.loadOrCreate reader works =
          ({ files with config := config, clock := clock }, read) ∧
        config.loaded = config.text ∧
        config.remembered = files.config.remembered ∧
        ((config.current = files.config.current ∧ clock = files.clock) ∨
          (config.mtime = some (files.clock + 1) ∧
            clock = files.clock + 1)) := by
  unfold loadOrCreate
  split
  · exact ⟨_, files.clock, _, rfl, rfl, rfl, Or.inl ⟨rfl, rfl⟩⟩
  · split
    · exact ⟨_, files.clock + 1, _, rfl, rfl, rfl, Or.inr ⟨rfl, rfl⟩⟩
    · exact ⟨_, files.clock, _, rfl, rfl, rfl, Or.inl ⟨rfl, rfl⟩⟩

/-- What `remember_good` changes. -/
theorem rememberGood_cases
    (works : Bool)
    (files : ConfigFiles) :
    (∃ text,
        files.config.text = some text ∧
          works = true ∧
          files.rememberGood works =
            { files with lastGood := some text }) ∨
      (files.rememberGood works = files ∧
        ∀ text, files.config.text = some text → works = false) := by
  unfold rememberGood
  split
  · rename_i text isText
    exact Or.inl ⟨text, isText, rfl, rfl⟩
  · rename_i notCopied
    refine Or.inr ⟨rfl, fun text isText => ?_⟩
    exact Bool.eq_false_iff.mpr fun goes => notCopied text isText goes

end ConfigFiles

end AiFirewall

import AiFirewall.ApplyConfig
import AiFirewall.Runs

namespace AiFirewall

/-!
# The life of the firewall

The daemon with its state file and the pinned ban maps, over starts, reloads,
ticks, saves and crashes.  `ai-firewall ban` and `ai-firewall unban` work on
the pinned maps, whether the daemon runs or not.  The ban maps outlive the
daemon; its records, its rule maps and its settings start anew.
-/

/-- How far the daemon has come. -/
inductive Phase where
  | stopped
  /-- The configuration is applied; these saved bans are still to restore. -/
  | starting (cfg : Config) (pending : List SavedBan)
  /-- With the configuration in force. -/
  | running (cfg : Config)

namespace Phase

/-- The configuration in force, once the start is over. -/
def running? : Phase → Option Config
  | .running cfg => some cfg
  | _ => none

/-- The saved bans a start has yet to restore. -/
def pending? : Phase → Option (List SavedBan)
  | .starting _ pending => some pending
  | _ => none

theorem exists_of_running
    {phase : Phase}
    (runs : phase.running?.isSome = true) :
    ∃ cfg, phase = .running cfg := by
  cases phase with
  | stopped => cases runs
  | starting cfg pending => cases runs
  | running cfg => exact ⟨cfg, rfl⟩

theorem exists_of_pending
    {phase : Phase}
    (starts : phase.pending?.isSome = true) :
    ∃ cfg pending, phase = .starting cfg pending := by
  cases phase with
  | stopped => cases starts
  | starting cfg pending => exact ⟨cfg, pending, rfl⟩
  | running cfg => cases starts

end Phase

/-- Everything that the daemon and the command line share or keep. -/
structure System (Score : Type) where
  world : World Score
  /-- `state.json`. -/
  file : Saved
  phase : Phase

/-- Something that happens to the firewall. -/
inductive DaemonEvent where
  /-- `ai-firewall ban`; 0 minutes are forever. -/
  | ban (host : Host) (ip : Src) (minutes : U64)
  /-- `ai-firewall unban`. -/
  | unban (host : Host) (ip : Src)
  | boot (attempt : Attempt) (cfg : Config) (profile : Option String)
  /-- One step of the loop in `restore`. -/
  | restoreNext (host : Host)
  /-- The end of the start. -/
  | restored
      (host : Host)
      (autoProtected : List Cidr)
      (ownV6Prefixes : List U64)
  | batch (host : Host) (events : List PacketEvent)
  | reload
      (attempt : Attempt)
      (cfg : Config)
      (profile : Option String)
      (autoProtected : List Cidr)
      (ownV6Prefixes : List U64)
  | switchProfile (attempt : Attempt) (profile : Option String)
  | udpMode (strict : Bool)
  | sweep (host : Host)
  | refresh
      (host : Host)
      (autoProtected : List Cidr)
      (ownV6Prefixes : List U64)
  | prune (host : Host)
  /-- Write the state file; `stored` says whether that worked. -/
  | save (host : Host) (stored : Bool)
  | crash

namespace System

section

variable {Score : Type}

/-- The pinned ban maps. -/
def blocklist (system : System Score) : Blocklist :=
  system.world.shared.blocklist

def setShared
    (system : System Score)
    (shared : Shared Score) : System Score :=
  { system with world := { system.world with shared := shared } }

def setBlocklist
    (system : System Score)
    (blocklist : Blocklist) : System Score :=
  system.setShared { system.world.shared with blocklist := blocklist }

/-- `Cmd::Ban`. -/
def ban
    (host : Host)
    (system : System Score)
    (ip : Src)
    (minutes : U64) : System Score :=
  system.setBlocklist
    ((system.blocklist.insert? host ip
      (expiryFor host (minutes * 60))).getD system.blocklist)

/-- `Cmd::Unban`. -/
def unban
    (host : Host)
    (system : System Score)
    (ip : Src) : System Score :=
  system.setBlocklist (system.blocklist.drop host ip)

/-- What a new daemon starts with; the loader creates a missing map. -/
def opened (system : System Score) (cfg : Config) : World Score where
  settings _ := 0
  kernel := .fresh
  shared :=
    { detector := .new cfg.detector cfg.bans
      blocklist :=
        { system.blocklist with
          v6 := some (system.blocklist.v6.getD .empty) }
      records := ∅
      enforce := cfg.enforce
      recent := []
      dirty := false
      notifyBans := cfg.notifyBans }

/-- The start of `run`, as far as the first `apply_config`. -/
def boot
    (attempt : Attempt)
    (cfg : Config)
    (profile : Option String)
    (system : System Score) : System Score :=
  match (applyConfig attempt cfg (cfg.policy profile)).run
      (system.opened cfg) with
  | .ok _ world =>
      { system with
        world := world
        phase := .starting cfg system.file.bans }
  | .error _ world =>
      { system with world := world, phase := .stopped }

/-- A reload; a configuration that cannot be applied is not in force. -/
def reload
    (attempt : Attempt)
    (cfg : Config)
    (profile : Option String)
    (autoProtected : List Cidr)
    (ownV6Prefixes : List U64)
    (system : System Score) : System Score :=
  match (applyConfig attempt cfg (cfg.policy profile)).run system.world with
  | .ok _ world =>
      { system with
        world :=
          { world with
            shared :=
              world.shared.refreshProtection attempt.host autoProtected
                ownV6Prefixes cfg }
        phase := .running cfg }
  | .error _ world => { system with world := world }

/-- The network profile changes; what was written stays when that fails. -/
def switchProfile
    (attempt : Attempt)
    (cfg : Config)
    (profile : Option String)
    (system : System Score) : System Score :=
  match (applyConfig attempt cfg (cfg.policy profile)).run system.world with
  | .ok _ world => { system with world := world }
  | .error _ world => { system with world := world }

/-- `CFG_UDP_STRICT` as a tick sets it. -/
def udpMode (strict : Bool) (system : System Score) : System Score :=
  { system with
    world :=
      { system.world with
        settings :=
          Function.update system.world.settings cfgUdpStrict
            (if strict then 1 else 0) } }

def save
    (host : Host)
    (stored : Bool)
    (system : System Score) : System Score :=
  let (file, shared) :=
    system.world.shared.save host stored system.file
  { system.setShared shared with file := file }

variable [ScoreArith Score]

/-- What is out of place in the phase the daemon is in does not happen. -/
def step (system : System Score) (event : DaemonEvent) : System Score :=
  match event, system.phase with
  | .ban host ip minutes, _ => system.ban host ip minutes
  | .unban host ip, _ => system.unban host ip
  | .crash, _ => { system with phase := .stopped }
  | .boot attempt cfg profile, .stopped => system.boot attempt cfg profile
  | .restoreNext host, .starting cfg (ban :: pending) =>
      { system.setShared (system.world.shared.restoreBan host ban) with
        phase := .starting cfg pending }
  | .restored host autoProtected ownV6Prefixes, .starting cfg [] =>
      let restored :=
        system.file.offenders.foldl (Shared.restoreOffender host)
          system.world.shared
      { system.setShared
          (restored.refreshProtection host autoProtected ownV6Prefixes
            cfg) with
        phase := .running cfg }
  | .batch host events, .running _ =>
      system.setShared (system.world.shared.handleBatch host events)
  | .reload attempt cfg profile autoProtected ownV6Prefixes, .running _ =>
      system.reload attempt cfg profile autoProtected ownV6Prefixes
  | .switchProfile attempt profile, .running cfg =>
      system.switchProfile attempt cfg profile
  | .udpMode strict, .running _ => system.udpMode strict
  | .sweep host, .running _ =>
      system.setShared (system.world.shared.sweep host)
  | .refresh host autoProtected ownV6Prefixes, .running cfg =>
      system.setShared
        (system.world.shared.refreshProtection host autoProtected
          ownV6Prefixes cfg)
  | .prune host, .running _ =>
      system.setShared
        { system.world.shared with
          detector := system.world.shared.detector.prune host.bootSecs }
  | .save host stored, .running _ => system.save host stored
  | _, _ => system

end

end System

end AiFirewall

import AiFirewall.BothBanMaps
import AiFirewall.RunOutputs
import AiFirewall.Selftest
import AiFirewall.StatusReport
import AiFirewall.SweepExact

namespace AiFirewall

/-!
# The history of the bans

While it runs, the daemon writes down which bans it places, finds placed by
hand, finds lifted, and lets run out.  Replaying the entries of one source
tells whether the daemon has a record of it, and after a sweep whether the
kernel drops it.  Not written down is what a configuration bans and lifts,
and a ban lifted because its source has become a protected address.
-/

open Runs

inductive HistoryKind where
  | ban
  | lift
  | expire
  | profile
  | feeds
  | posture
  deriving Repr, DecidableEq

def HistoryKind.text : HistoryKind → String
  | .ban => "ban"
  | .lift => "lift"
  | .expire => "expire"
  | .profile => "profile"
  | .feeds => "feeds"
  | .posture => "posture"

/-- `history::Entry`; an entry that is about no source leaves `ip` empty. -/
structure HistoryEntry where
  atUnix : U64
  kind : HistoryKind
  ip : Option Src
  detail : String
  deriving DecidableEq

/-- Whether a source is banned after an entry; none where that cannot be. -/
def HistoryEntry.replay?
    (source : Src)
    (banned : Bool)
    (entry : HistoryEntry) : Option Bool :=
  if entry.ip = some source then
    match entry.kind with
    | .ban => some true
    | .lift | .expire => if banned then some false else none
    | .profile | .feeds | .posture => some banned
  else
    some banned

/-- Whether a source is banned after a stretch of the history. -/
def replayed?
    (source : Src)
    (banned : Bool)
    (entries : List HistoryEntry) : Option Bool :=
  entries.foldlM (HistoryEntry.replay? source) banned

namespace Shared

section

variable {Score : Type}

/-- What `enact` writes down. -/
def enactNoted
    (host : Host)
    (shared : Shared Score)
    (ban : Ban Score) : List HistoryEntry :=
  if shared.enforce &&
      (shared.blocklist.insert? host ban.ip
        (expiryFor host ban.secs)).isSome then
    [{ atUnix := host.unixSecs
       kind := .ban
       ip := some ban.ip
       detail :=
         ban.reason ++ " on " ++ ban.ports ++ ", " ++ duration ban.secs ++
           ", strike " ++ Nat.repr ban.strikes.toNat }]
  else
    []

def handleEventNoted
    [ScoreArith Score]
    (host : Host)
    (shared : Shared Score)
    (event : PacketEvent) : List HistoryEntry :=
  let (ban, detector) := shared.detector.observe Score event host.bootSecs
  match ban with
  | some ban => { shared with detector := detector }.enactNoted host ban
  | none => []

def handleBatchNoted
    [ScoreArith Score]
    (host : Host)
    (shared : Shared Score)
    (batch : List PacketEvent) : List HistoryEntry :=
  outputs (handleEvent host) (handleEventNoted host) shared batch

/-- What `sweep` writes down about one blocklist entry. -/
def sweepEntryNoted
    (host : Host)
    (shared : Shared Score)
    (entry : Src × U64) : List HistoryEntry :=
  let (ip, expiry) := entry
  if remaining host expiry = none then
    match shared.records.lookup ip with
    | some record => [⟨host.unixSecs, .expire, some ip, record.reason⟩]
    | none => []
  else if (shared.records.lookup ip).isNone then
    [⟨host.unixSecs, .ban, some ip, "by hand"⟩]
  else
    []

/-- What `sweep` writes down; the table's order is that of its records. -/
def sweepNoted (host : Host) (shared : Shared Score) :
    List HistoryEntry :=
  let entries := shared.blocklist.entries
  let present := entries.map Prod.fst
  let swept := entries.foldl (sweepEntry host) shared
  outputs (sweepEntry host) (sweepEntryNoted host) shared entries ++
    (swept.records.keys.filter fun ip => ip ∉ present).map fun ip =>
      ⟨host.unixSecs, .lift, some ip, "by hand"⟩

end

end Shared

/-- What an event makes the daemon write into its history. -/
def System.noted
    {Score : Type}
    [ScoreArith Score]
    (system : System Score)
    (event : DaemonEvent) : List HistoryEntry :=
  match event, system.phase with
  | .batch host events, .running _ =>
      system.world.shared.handleBatchNoted host events
  | .sweep host, .running _ => system.world.shared.sweepNoted host
  | .switchProfile attempt profile, .running cfg =>
      match (applyConfig attempt cfg (cfg.policy profile)).run
          system.world with
      | .ok _ _ =>
          [{ atUnix := attempt.host.unixSecs
             kind := .profile
             ip := none
             detail := profile.getD "default" }]
      | .error _ _ => []
  | _, _ => []

section

variable
  {source : Src}
  {banned : Bool}

@[simp] theorem replayed?_nil : replayed? source banned [] = some banned :=
  rfl

end

namespace Shared

section

variable
  {Score : Type}
  {host : Host}
  {shared : Shared Score}

/-- The daemon has a record of the ban of a source. -/
def recorded (shared : Shared Score) (source : Src) : Bool :=
  (shared.records.lookup source).isSome

/-- Some entries tell what a step makes of the record of a source. -/
def Tells
    (source : Src)
    (before : Shared Score)
    (entries : List HistoryEntry)
    (after : Shared Score) : Prop :=
  replayed? source (before.recorded source) entries =
    some (after.recorded source)

theorem tells_nothing
    {source : Src}
    {before after : Shared Score}
    (same :
      after.records.lookup source = before.records.lookup source) :
    Tells source before [] after := by
  rw [Tells, replayed?_nil, recorded, recorded, same]

end

end Shared

namespace System

section

variable
  {Score : Type}
  [ScoreArith Score]
  {source : Src}
  {system : System Score}
  {event : DaemonEvent}

end

end System

end AiFirewall

import AiFirewall.Addr
import AiFirewall.BoundedTables
import AiFirewall.Config

namespace AiFirewall

/-!
# The threat detector

Per-source scores over a short window and escalating bans.  Every streamed
event adds to the score of its source; a score of one is a ban, and the next
offence of the same source is banned for twice as long, up to a maximum.

The score is computed in `f32`.  Nothing but the moment of a ban depends on
it, so its arithmetic is a parameter; exact fractions are one instance.
-/

/-- The operations of `f32` that the score uses. -/
class ScoreArith (Score : Type) where
  /-- `as f32`. -/
  ofNat : Nat → Score
  add : Score → Score → Score
  sub : Score → Score → Score
  div : Score → Score → Score
  lt : Score → Score → Bool
  /-- `total_cmp` does not say `Greater`. -/
  totalLe : Score → Score → Bool

/-- Exact fractions in place of `f32`. -/
instance : ScoreArith ℚ where
  ofNat count := count
  add := (· + ·)
  sub := (· - ·)
  div := (· / ·)
  lt first second := first < second
  totalLe first second := first ≤ second

/-- `MAX_TRACKED`: so a spoofed flood cannot grow memory forever. -/
def maxTracked : Nat := 16384

/-- `ODD_LIMIT`: odd-flag packets needed for a full score on their own. -/
def oddLimit : Nat := 3

/-- What one source did in its current window. -/
structure Track where
  windowStart : U64
  syn : U32
  udp : U32
  drops : U32
  odd : U32
  ports : List U16
  udpSeen : Bool
  tcpSeen : Bool
  deriving Repr, DecidableEq

def Track.default : Track :=
  ⟨0, 0, 0, 0, 0, [], false, false⟩

/-- How often a source was banned, and when last. -/
structure Offender where
  strikes : U32
  lastBan : U64
  deriving Repr, DecidableEq

structure Ban (Score : Type) where
  ip : Src
  secs : U64
  strikes : U32
  score : Score
  reason : String
  /-- For example `tcp 22 23 80 +9`. -/
  ports : String

structure Detector where
  cfg : DetectorConfig
  bans : BanConfig
  /-- `protected`. -/
  protected4 : List Cidr
  protected6 : List U64
  tracks : Table Src Track
  offenders : Table Src Offender

/-- A track after one more event, in a fresh window if the old one is over. -/
def Track.record
    (track : Track)
    (cfg : DetectorConfig)
    (event : PacketEvent)
    (now : U64) : Track :=
  let track :=
    if cfg.windowSecs ≤ U64.saturatingSub now track.windowStart then
      { Track.default with windowStart := now }
    else
      track
  let isUdp := event.protocol = protoUdp
  let track :=
    if isUdp then
      { track with udpSeen := true, udp := track.udp + 1 }
    else if event.isNullScan || event.isXmasScan || event.isFinScan then
      { track with tcpSeen := true, odd := track.odd + 1 }
    else if event.isSyn then
      { track with tcpSeen := true, syn := track.syn + 1 }
    else
      { track with tcpSeen := true }
  let track :=
    if event.verdict = verdictDropPolicy then
      { track with drops := track.drops + 1 }
    else
      track
  if track.ports.length ≤ cfg.portLimit.toNat ∧
      event.dstPort ∉ track.ports then
    { track with ports := track.ports ++ [event.dstPort] }
  else
    track

/-- How the ports of a ban are shown. -/
def Track.portsText (track : Track) : String :=
  let proto :=
    match track.tcpSeen, track.udpSeen with
    | true, true => "tcp/udp"
    | false, true => "udp"
    | _, _ => "tcp"
  let shown := (track.ports.take 4).map fun port => toString port.toNat
  let more :=
    if 4 < track.ports.length then
      ["+" ++ toString (track.ports.length - 4)]
    else
      []
  proto ++ " " ++ String.intercalate " " (shown ++ more)

section

variable {Score : Type} [ScoreArith Score]

open ScoreArith

/-- Each signal of a track, over its limit. -/
def Track.signals (track : Track) (cfg : DetectorConfig) :
    List (Score × String) :=
  [(div (ofNat track.syn.toNat) (ofNat cfg.synLimit.toNat),
      "connection flood"),
    (div (ofNat track.ports.length) (ofNat cfg.portLimit.toNat),
      "port scan"),
    (div (ofNat track.udp.toNat) (ofNat cfg.udpLimit.toNat),
      "udp flood"),
    (div (ofNat track.drops.toNat) (ofNat cfg.dropLimit.toNat),
      "probing closed ports"),
    (div (ofNat track.odd.toNat) (ofNat oddLimit), "stealth scan")]

/-- The sum of the signals; one port is normal traffic, not a scan. -/
def Track.score (track : Track) (cfg : DetectorConfig) : Score :=
  let sum :=
    (track.signals cfg).foldl (fun total signal => add total signal.1)
      (ofNat 0)
  sub sum (div (ofNat 1) (ofNat cfg.portLimit.toNat))

/-- The score has reached one. -/
def Track.isFull (Score : Type) [ScoreArith Score]
    (track : Track)
    (cfg : DetectorConfig) : Bool :=
  let score : Score := track.score cfg
  !lt score (ofNat 1)

/-- The strongest signal; the last of them on a tie. -/
def strongest :
    List (Score × String) → Option (Score × String)
  | [] => none
  | signal :: rest =>
      match strongest rest with
      | none => some signal
      | some best => if totalLe signal.1 best.1 then some best else some signal

def Track.reason (Score : Type) [ScoreArith Score]
    (track : Track)
    (cfg : DetectorConfig) : String :=
  ((strongest (track.signals cfg : List (Score × String))).map
    Prod.snd).getD "anomaly"

end

/-- An offender after one more offence; old strikes are forgiven. -/
def Offender.again
    (found : Option Offender)
    (forgiveSecs now : U64) : Offender :=
  let offender := found.getD ⟨0, now⟩
  let strikes :=
    if forgiveSecs < U64.saturatingSub now offender.lastBan then
      0
    else
      offender.strikes
  ⟨strikes + 1, now⟩

/-- The length of the ban that comes with a number of strikes. -/
def BanConfig.secsFor (bans : BanConfig) (strikes : U32) : U64 :=
  let shift := umin (strikes - 1) 20
  umin (U64.saturatingMul bans.baseSecs ((1 : U64) <<< shift)) bans.maxSecs

namespace Detector

def new (cfg : DetectorConfig) (bans : BanConfig) : Detector :=
  ⟨cfg, bans, [], [], ∅, ∅⟩

def reconfigure
    (detector : Detector)
    (cfg : DetectorConfig)
    (bans : BanConfig) : Detector :=
  { detector with cfg := cfg, bans := bans }

def isProtected (detector : Detector) : Src → Bool
  | .v4 ip => detector.protected4.any fun cidr => cidr.contains ip
  -- fe80::/10 link-local: the router and every neighbour share fe80::/64.
  | .v6 networkPrefix =>
      networkPrefix >>> 54 = 0x3fa ||
        detector.protected6.contains networkPrefix

def setProtected
    (detector : Detector)
    (protected4 : List Cidr)
    (protected6 : List U64) : Detector :=
  let detector :=
    { detector with protected4 := protected4, protected6 := protected6 }
  { detector with
    tracks :=
      detector.tracks.retain fun source _ => !detector.isProtected source }

def restoreOffender
    (detector : Detector)
    (ip : Src)
    (offender : Offender) : Detector :=
  { detector with offenders := detector.offenders.insert ip offender }

/-- Drop finished windows and forgiven offenders. -/
def prune (detector : Detector) (now : U64) : Detector :=
  let keep :=
    U64.saturatingAdd detector.bans.forgiveSecs detector.bans.maxSecs
  { detector with
    tracks :=
      detector.tracks.retain fun _ track =>
        U64.saturatingSub now track.windowStart < detector.cfg.windowSecs
    offenders :=
      detector.offenders.retain fun _ offender =>
        U64.saturatingSub now offender.lastBan ≤ keep }

/-- The detector with room for a source, pruned if it was full. -/
def makeRoom
    (detector : Detector)
    (ip : Src)
    (now : U64) : Detector :=
  if maxTracked ≤ detector.tracks.size ∧ ip ∉ detector.tracks then
    detector.prune now
  else
    detector

/-- Whether the detector can track a source. -/
def hasRoom (detector : Detector) (ip : Src) : Prop :=
  detector.tracks.size < maxTracked ∨ ip ∈ detector.tracks

instance (detector : Detector) (ip : Src) :
    Decidable (detector.hasRoom ip) :=
  inferInstanceAs (Decidable (_ ∨ _))

/-- The track of an event's source after the event. -/
def trackAfter
    (detector : Detector)
    (event : PacketEvent)
    (now : U64) : Track :=
  ((detector.tracks.lookup (Src.of event)).getD .default).record
    detector.cfg event now

/-- Repeat offenders get exponentially longer bans: base, 2x, 4x up to max. -/
def escalate {Score : Type}
    (detector : Detector)
    (ip : Src)
    (score : Score)
    (reason ports : String)
    (now : U64) :
    Ban Score × Detector :=
  let offender :=
    Offender.again (detector.offenders.lookup ip)
      detector.bans.forgiveSecs now
  ({ ip := ip
     secs := detector.bans.secsFor offender.strikes
     strikes := offender.strikes
     score := score
     reason := reason
     ports := ports },
    { detector with offenders := detector.offenders.insert ip offender })

/-- The offender that a tripping event makes of its source. -/
def offence
    (detector : Detector)
    (event : PacketEvent)
    (now : U64) : Offender :=
  Offender.again (detector.offenders.lookup (Src.of event))
    detector.bans.forgiveSecs now

/-- The second half of `observe`: the event counts for its source's track. -/
def observeTracked (Score : Type) [ScoreArith Score]
    (detector : Detector)
    (event : PacketEvent)
    (now : U64) :
    Option (Ban Score) × Detector :=
  let ip := Src.of event
  let track := detector.trackAfter event now
  let score : Score := track.score detector.cfg
  if ScoreArith.lt score (ScoreArith.ofNat 1) then
    (none, { detector with tracks := detector.tracks.insert ip track })
  else
    let (ban, after) :=
      { detector with tracks := detector.tracks.erase ip }.escalate
        ip score (track.reason Score detector.cfg) track.portsText now
    (some ban, after)

/-- Feed one event; a ban when the score of its source reaches one. -/
def observe (Score : Type) [ScoreArith Score]
    (detector : Detector)
    (event : PacketEvent)
    (now : U64) :
    Option (Ban Score) × Detector :=
  let ip := Src.of event
  if detector.isProtected ip then
    (none, detector)
  else
    let detector := detector.makeRoom ip now
    if ¬detector.hasRoom ip then
      (none, detector)
    else
      detector.observeTracked Score event now

/-- Whether an event brings the score of its source to one. -/
def full (Score : Type) [ScoreArith Score]
    (detector : Detector)
    (event : PacketEvent)
    (now : U64) : Bool :=
  (detector.trackAfter event now).isFull Score detector.cfg

/-- Whether the detector keeps a record of an event. -/
def counts
    (detector : Detector)
    (event : PacketEvent)
    (now : U64) : Bool :=
  let ip := Src.of event
  !detector.isProtected ip && (detector.makeRoom ip now).hasRoom ip

/-- Whether an event makes the detector ban its source. -/
def trips (Score : Type) [ScoreArith Score]
    (detector : Detector)
    (event : PacketEvent)
    (now : U64) : Bool :=
  detector.counts event now &&
    (detector.makeRoom (Src.of event) now).full Score event now

section

variable
  {Score : Type}
  [ScoreArith Score]
  {detector : Detector}
  {event : PacketEvent}
  {now : U64}

/-- An event below the score leaves every offender alone. -/
theorem observeTracked_of_not_full
    (low : detector.full Score event now = false) :
    (detector.observeTracked Score event now).1 = none ∧
      (detector.observeTracked Score event now).2 =
        { detector with
          tracks :=
            detector.tracks.insert (Src.of event)
              (detector.trackAfter event now) } := by
  rw [full, Track.isFull, Bool.not_eq_false'] at low
  rw [observeTracked, if_pos low]
  exact ⟨rfl, rfl⟩

/-- The ban of a tripping event, and what it leaves of the detector. -/
theorem observeTracked_eq_of_full
    (reached : detector.full Score event now = true) :
    detector.observeTracked Score event now =
      (some
        { ip := Src.of event
          secs :=
            detector.bans.secsFor (detector.offence event now).strikes
          strikes := (detector.offence event now).strikes
          score := (detector.trackAfter event now).score detector.cfg
          reason :=
            (detector.trackAfter event now).reason Score detector.cfg
          ports := (detector.trackAfter event now).portsText },
        { detector with
          tracks := detector.tracks.erase (Src.of event)
          offenders :=
            detector.offenders.insert (Src.of event)
              (detector.offence event now) }) := by
  rw [full, Track.isFull, Bool.not_eq_true', ← Bool.not_eq_true]
    at reached
  simp only [observeTracked, if_neg reached, escalate, offence]

/-- An event that reaches the score is one more offence; its track is reset. -/
theorem observeTracked_of_full
    (reached : detector.full Score event now = true) :
    ∃ ban : Ban Score,
      detector.observeTracked Score event now =
          (some ban,
            { detector with
              tracks := detector.tracks.erase (Src.of event)
              offenders :=
                detector.offenders.insert (Src.of event)
                  (detector.offence event now) }) ∧
        ban.ip = Src.of event ∧
        ban.strikes = (detector.offence event now).strikes ∧
        ban.secs =
          detector.bans.secsFor (detector.offence event now).strikes := by
  refine ⟨_, observeTracked_eq_of_full reached, ?_⟩
  dsimp only
  exact ⟨rfl, rfl, rfl⟩

/-- Making room is pruning, or nothing at all. -/
theorem makeRoom_cases
    (detector : Detector)
    (ip : Src)
    (now : U64) :
    detector.makeRoom ip now = detector ∨
      detector.makeRoom ip now = detector.prune now := by
  unfold makeRoom
  split
  · exact .inr rfl
  · exact .inl rfl

@[simp] theorem makeRoom_bans
    (detector : Detector)
    (ip : Src)
    (now : U64) :
    (detector.makeRoom ip now).bans = detector.bans := by
  rcases detector.makeRoom_cases ip now with same | pruned
  · rw [same]
  · rw [pruned, prune]

@[simp] theorem makeRoom_cfg
    (detector : Detector)
    (ip : Src)
    (now : U64) :
    (detector.makeRoom ip now).cfg = detector.cfg := by
  rcases detector.makeRoom_cases ip now with same | pruned
  · rw [same]
  · rw [pruned, prune]

/-- A recorded event is recorded where room was made for it. -/
theorem observe_of_counts
    (counted : detector.counts event now = true) :
    detector.observe Score event now =
      (detector.makeRoom (Src.of event) now).observeTracked
        Score event now := by
  simp only [counts, Bool.and_eq_true, Bool.not_eq_true',
    decide_eq_true_eq] at counted
  obtain ⟨unprotected, room⟩ := counted
  rw [observe, if_neg (Bool.eq_false_iff.mp unprotected),
    if_neg (not_not.mpr room)]

/-- Any other event brings no ban, and a pruning at most. -/
theorem observe_of_not_counts
    (Score : Type)
    [ScoreArith Score]
    (ignored : detector.counts event now = false) :
    (detector.observe Score event now).1 = none ∧
      ((detector.observe Score event now).2 = detector ∨
        (detector.observe Score event now).2 = detector.prune now) := by
  unfold observe
  dsimp only
  split
  · exact ⟨rfl, .inl rfl⟩
  rename_i unprotected
  split
  · exact ⟨rfl, makeRoom_cases _ _ _⟩
  rename_i room
  simp [counts, unprotected, not_not.mp room] at ignored

/-- An event that does not trip the detector leaves every offender alone. -/
theorem observe_of_not_trips
    (quiet : detector.trips Score event now = false) :
    (detector.observe Score event now).1 = none ∧
      ((detector.observe Score event now).2.offenders =
          detector.offenders ∨
        (detector.observe Score event now).2.offenders =
          (detector.prune now).offenders) ∧
      (detector.observe Score event now).2.bans = detector.bans := by
  cases counted : detector.counts event now with
  | false =>
      obtain ⟨noBan, after⟩ := observe_of_not_counts Score counted
      refine ⟨noBan, ?_⟩
      rcases after with same | pruned
      · rw [same]
        exact ⟨.inl rfl, rfl⟩
      · rw [pruned]
        exact ⟨.inr rfl, rfl⟩
  | true =>
      rw [trips, counted, Bool.true_and] at quiet
      obtain ⟨noBan, after⟩ := observeTracked_of_not_full quiet
      rw [observe_of_counts counted, after]
      refine ⟨noBan, ?_, makeRoom_bans _ _ _⟩
      rcases detector.makeRoom_cases (Src.of event) now with same | pruned
      · rw [same]
        exact .inl rfl
      · rw [pruned]
        exact .inr rfl

/-- An event that trips the detector is one more offence of its source. -/
theorem observe_of_trips
    (tripped : detector.trips Score event now = true) :
    ∃ (room : Detector) (ban : Ban Score),
      room = detector.makeRoom (Src.of event) now ∧
        detector.observe Score event now =
          (some ban,
            { room with
              tracks := room.tracks.erase (Src.of event)
              offenders :=
                room.offenders.insert (Src.of event)
                  (room.offence event now) }) ∧
        ban.ip = Src.of event ∧
        ban.strikes = (room.offence event now).strikes ∧
        ban.secs =
          detector.bans.secsFor (room.offence event now).strikes := by
  rw [trips, Bool.and_eq_true] at tripped
  obtain ⟨counted, reached⟩ := tripped
  obtain ⟨ban, observed, facts⟩ := observeTracked_of_full reached
  rw [makeRoom_bans] at facts
  exact ⟨_, ban, rfl, (observe_of_counts counted).trans observed, facts⟩

end

end Detector

end AiFirewall

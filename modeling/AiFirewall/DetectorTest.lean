import AiFirewall.RoundedScore
import AiFirewall.Selftest
import AiFirewall.SteadyBurst

namespace AiFirewall

/-!
# What the detector's test finds out

The test replays bursts of one source through a fresh detector.  Such a
detector bans the source exactly when the fullest window of the burst has a
full score, so that the outcome of the test can be told from the limits by
computing four scores.
-/

open Runs

/-- The time at which the test hands an event over. -/
def timed (entry : PacketEvent × U64) : PacketEvent × U64 :=
  (entry.1, 1000000 + entry.2)

/-- What the score counts of a window; the port list has its cap. -/
def PlainWindow.signals
    (window : PlainWindow)
    (cfg : DetectorConfig) : Signals where
  syn := window.count PacketEvent.isOpener
  ports := min window.distinctPorts (cfg.portLimit.toNat + 1)
  udp := window.count PacketEvent.isUdp
  drops := window.count PacketEvent.isPolicyDrop
  odd := window.count PacketEvent.isOdd

/-- A list of the ports of some events, until it is one over its limit. -/
structure CappedPorts
    (limit : Nat)
    (ports : List U16)
    (events : List (PacketEvent × U64)) : Prop where
  nodup : ports.Nodup
  known : ∀ port ∈ ports, ∃ entry ∈ events, entry.1.dstPort = port
  capped : ports.length ≤ limit + 1
  complete :
    ports.length ≤ limit → ∀ entry ∈ events, entry.1.dstPort ∈ ports

namespace CappedPorts

variable
  {limit : Nat}
  {ports : List U16}
  {events : List (PacketEvent × U64)}

theorem nil (limit : Nat) : CappedPorts limit [] [] where
  nodup := List.nodup_nil
  known _ member := absurd member List.not_mem_nil
  capped := Nat.zero_le _
  complete _ _ member := absurd member List.not_mem_nil

/-- One more event. -/
theorem add
    (listed : CappedPorts limit ports events)
    (event : PacketEvent)
    (now : U64) :
    CappedPorts limit
      (if ports.length ≤ limit ∧ event.dstPort ∉ ports then
        ports ++ [event.dstPort]
      else
        ports)
      (events ++ [(event, now)]) := by
  have isLast : (event, now) ∈ events ++ [(event, now)] :=
    List.mem_append_right _ (List.mem_singleton.mpr rfl)
  have known :
      ∀ port ∈ ports,
        ∃ entry ∈ events ++ [(event, now)], entry.1.dstPort = port := by
    intro port member
    obtain ⟨entry, isEvent, isPort⟩ := listed.known port member
    exact ⟨entry, List.mem_append_left _ isEvent, isPort⟩
  split
  case isTrue isNew =>
    obtain ⟨short, missing⟩ := isNew
    refine ⟨?_, ?_, ?_, ?_⟩
    · rw [List.nodup_append]
      refine ⟨listed.nodup, List.nodup_singleton _, ?_⟩
      intro port member other isOther same
      rw [same, List.mem_singleton.mp isOther] at member
      exact missing member
    · intro port member
      rcases List.mem_append.mp member with old | isPort
      · exact known port old
      · exact ⟨_, isLast, (List.mem_singleton.mp isPort).symm⟩
    · rw [List.length_append, List.length_singleton]
      omega
    · intro _ entry member
      rcases List.mem_append.mp member with old | isEvent
      · exact List.mem_append_left _ (listed.complete short entry old)
      · rw [List.mem_singleton.mp isEvent]
        exact List.mem_append_right _ (List.mem_singleton.mpr rfl)
  case isFalse notNew =>
    refine ⟨listed.nodup, known, listed.capped, ?_⟩
    intro short entry member
    rcases List.mem_append.mp member with old | isEvent
    · exact listed.complete short entry old
    · rw [List.mem_singleton.mp isEvent]
      by_contra missing
      exact notNew ⟨short, missing⟩

theorem length_eq (listed : CappedPorts limit ports events) :
    ports.length =
      min (events.map fun entry => entry.1.dstPort).toFinset.card
        (limit + 1) := by
  have inside :
      ports.toFinset ⊆
        (events.map fun entry => entry.1.dstPort).toFinset := by
    intro port member
    rw [List.mem_toFinset, List.mem_map]
    exact listed.known port (List.mem_toFinset.mp member)
  have atMost := Finset.card_le_card inside
  rw [List.toFinset_card_of_nodup listed.nodup] at atMost
  have capped := listed.capped
  by_cases short : ports.length ≤ limit
  · have all :
        (events.map fun entry => entry.1.dstPort).toFinset ⊆
          ports.toFinset := by
      intro port member
      rw [List.mem_toFinset, List.mem_map] at member
      obtain ⟨entry, isEvent, rfl⟩ := member
      exact List.mem_toFinset.mpr (listed.complete short entry isEvent)
    have atLeast := Finset.card_le_card all
    rw [List.toFinset_card_of_nodup listed.nodup] at atLeast
    omega
  · omega

end CappedPorts

/-- The counters of a track are those of a window, whatever its score. -/
structure Track.Mirrors
    (track : Track)
    (cfg : DetectorConfig)
    (window : PlainWindow) : Prop where
  start : track.windowStart = window.start
  syn : track.syn.toNat = window.count PacketEvent.isOpener
  udp : track.udp.toNat = window.count PacketEvent.isUdp
  drops : track.drops.toNat = window.count PacketEvent.isPolicyDrop
  odd : track.odd.toNat = window.count PacketEvent.isOdd
  ports : CappedPorts cfg.portLimit.toNat track.ports window.events

namespace Track

section

variable
  {track : Track}
  {cfg : DetectorConfig}
  {window : PlainWindow}

theorem mirrors_empty (cfg : DetectorConfig) (start : U64) :
    ({ Track.default with windowStart := start } : Track).Mirrors cfg
      ⟨start, []⟩ where
  start := rfl
  syn := rfl
  udp := rfl
  drops := rfl
  odd := rfl
  ports := .nil _

theorem Mirrors.renewed
    (mirrors : track.Mirrors cfg window)
    (now : U64) :
    (track.renewed cfg now).Mirrors cfg (window.renewed cfg now) := by
  rw [Track.renewed, PlainWindow.renewed, mirrors.start]
  split
  · exact mirrors_empty cfg now
  · exact mirrors

/-- While the events are few enough no counter wraps. -/
theorem Mirrors.record
    {event : PacketEvent}
    {now : U64}
    (mirrors : track.Mirrors cfg window)
    (few : window.events.length < 4294967295) :
    (track.record cfg event now).Mirrors cfg
      (window.extend cfg event now) := by
  have before := mirrors.renewed now
  obtain ⟨start, syn, udp, drops, odd, ports⟩ :=
    track.record_counters cfg event now
  have fewer : (window.renewed cfg now).events.length < 4294967295 := by
    rw [PlainWindow.renewed]
    split
    · exact Nat.lt_of_le_of_lt (Nat.zero_le _) few
    · exact few
  have counted
      {count : U32}
      {kind : PacketEvent → Bool}
      (same : count.toNat = (window.renewed cfg now).count kind) :
      (bumped count (kind event)).toNat =
        (window.extend cfg event now).count kind := by
    have below : count.toNat < (4294967295 : U32).toNat := by
      rw [same]
      exact List.countP_le_length.trans_lt fewer
    rw [PlainWindow.count_extend, ← same]
    exact toNat_bumped below _
  exact
    { start := start.trans before.start
      syn := by rw [syn, counted before.syn]
      udp := by rw [udp, counted before.udp]
      drops := by rw [drops, counted before.drops]
      odd := by rw [odd, counted before.odd]
      ports := by
        rw [ports]
        exact before.ports.add event now }

theorem Mirrors.counts_eq (mirrors : track.Mirrors cfg window) :
    track.counts = window.signals cfg := by
  rw [counts, PlainWindow.signals, mirrors.syn, mirrors.udp, mirrors.drops,
    mirrors.odd, mirrors.ports.length_eq]
  rfl

end

end Track

namespace PlainWindow

/-- A window has no more events than came. -/
theorem length_opened_le
    (cfg : DetectorConfig)
    (calls : List (PacketEvent × U64)) :
    (opened cfg calls).events.length ≤ calls.length := by
  induction calls using List.reverseRecOn with
  | nil =>
      exact Nat.le_refl 0
  | append_singleton past call inductionHypothesis =>
      have kept :
          ((opened cfg past).renewed cfg call.2).events.length ≤
            past.length := by
        rw [renewed]
        split
        · exact Nat.zero_le _
        · exact inductionHypothesis
      rw [opened_concat, extend, List.length_append, List.length_append]
      exact Nat.add_le_add_right kept 1

end PlainWindow

namespace Detector

/-- A detector that only knows one source has room for it. -/
theorem hasRoom_of_only
    {detector : Detector}
    {source : Src}
    (only : ∀ ip ∈ detector.tracks, ip = source) :
    detector.hasRoom source := by
  by_cases tracked : source ∈ detector.tracks
  · exact .inr tracked
  · have small : Table.size detector.tracks < ({source} : Finset Src).card :=
      Table.size_lt_card
        (fun ip member => Finset.mem_singleton.mpr (only ip member))
        (Finset.mem_singleton_self source) tracked
    rw [Finset.card_singleton] at small
    have room : 1 < maxTracked := by decide
    exact .inl (small.trans room)

/-- The state of a replay before its first ban. -/
structure Replayed
    (cfg : DetectorConfig)
    (source : Src)
    (calls : List (PacketEvent × U64))
    (detector : Detector) : Prop where
  isCfg : detector.cfg = cfg
  unprotected : detector.isProtected source = false
  only : ∀ ip ∈ detector.tracks, ip = source
  mirrors :
    ((detector.tracks.lookup source).getD .default).Mirrors cfg
      (PlainWindow.opened cfg calls)

section

variable
  {Score : Type}
  [ScoreArith Score]
  {cfg : DetectorConfig}
  {detector : Detector}
  {source : Src}
  {calls : List (PacketEvent × U64)}
  {call : PacketEvent × U64}

theorem replayed_fresh
    (detector : Detector)
    (fresh : detector.tracks = ∅)
    (unprotected : detector.isProtected source = false) :
    Replayed detector.cfg source [] detector where
  isCfg := rfl
  unprotected := unprotected
  only ip member := by
    rw [fresh] at member
    exact absurd member (AList.notMem_empty ip)
  mirrors := by
    rw [fresh]
    exact Track.mirrors_empty detector.cfg 0

/-- An event makes a ban, or the replay goes on. -/
theorem Replayed.observe
    (Score : Type)
    [ScoreArith Score]
    (replayed : Replayed cfg source calls detector)
    (own : Src.of call.1 = source)
    (few : calls.length < 4294967295) :
    if ((PlainWindow.opened cfg (calls ++ [call])).signals cfg).Fills Score
        cfg then
      (detector.observe Score call.1 call.2).1.isSome = true
    else
      (detector.observe Score call.1 call.2).1 = none ∧
        Replayed cfg source (calls ++ [call])
          (detector.observe Score call.1 call.2).2 := by
  obtain ⟨isCfg, unprotected, only, mirrors⟩ := replayed
  subst own
  have room := hasRoom_of_only only
  have counted : detector.counts call.1 call.2 = true := by
    rw [counts, unprotected, makeRoom_of_hasRoom room]
    exact decide_eq_true room
  have observed :
      detector.observe Score call.1 call.2 =
        detector.observeTracked Score call.1 call.2 := by
    rw [observe_of_counts counted, makeRoom_of_hasRoom room]
  have tracked :
      (detector.trackAfter call.1 call.2).Mirrors cfg
        (PlainWindow.opened cfg (calls ++ [call])) := by
    rw [trackAfter, isCfg, PlainWindow.opened_concat]
    exact mirrors.record
      ((PlainWindow.length_opened_le cfg calls).trans_lt few)
  have reached :
      detector.full Score call.1 call.2 = true ↔
        ((PlainWindow.opened cfg (calls ++ [call])).signals cfg).Fills Score
          cfg := by
    rw [full, isCfg, Track.isFull_iff, tracked.counts_eq]
  split
  · rename_i isFull
    rw [observed, observeTracked_eq_of_full (reached.mpr isFull)]
    rfl
  · rename_i notFull
    have low : detector.full Score call.1 call.2 = false :=
      Bool.eq_false_iff.mpr fun isFull => notFull (reached.mp isFull)
    obtain ⟨noBan, after⟩ := observeTracked_of_not_full low
    rw [observed, after]
    refine ⟨noBan, isCfg, ?_, fun ip member => ?_, ?_⟩
    · rw [← unprotected]
      cases Src.of call.1 <;> rfl
    · rcases (AList.mem_insert _).mp member with isOwn | old
      · exact isOwn
      · exact only ip old
    · dsimp only
      rw [Table.lookup_insert_eq, if_pos rfl]
      exact tracked

/-- A replay bans when one of its windows has a full score. -/
theorem Replayed.firstBan_isSome_iff
    (replayed : Replayed cfg source calls detector)
    {events : List (PacketEvent × U64)}
    (own : ∀ entry ∈ events, Src.of entry.1 = source)
    (few : calls.length + events.length < 4294967295)
    (seen : Nat) :
    (detector.firstBan Score seen events).isSome = true ↔
      ∃ past entry rest,
        events = past ++ entry :: rest ∧
          ((PlainWindow.opened cfg
            (calls ++ past.map timed ++ [timed entry])).signals cfg).Fills
              Score cfg := by
  induction events generalizing calls detector seen with
  | nil =>
      simp [firstBan]
  | cons entry rest inductionHypothesis =>
      rw [List.length_cons] at few
      have ownHead : Src.of (timed entry).1 = source :=
        own entry List.mem_cons_self
      have ownRest : ∀ entry ∈ rest, Src.of entry.1 = source :=
        fun other member => own other (List.mem_cons_of_mem _ member)
      have observed := replayed.observe Score ownHead (by omega)
      rw [firstBan]
      by_cases isFull :
          ((PlainWindow.opened cfg (calls ++ [timed entry])).signals
            cfg).Fills Score cfg
      · rw [if_pos isFull] at observed
        obtain ⟨ban, banned⟩ := Option.isSome_iff_exists.mp observed
        have outcome :
            detector.observe Score entry.1 (1000000 + entry.2) =
              (some ban, (detector.observe Score entry.1
                (1000000 + entry.2)).2) :=
          Prod.ext banned rfl
        rw [outcome]
        refine iff_of_true rfl ⟨[], entry, rest, rfl, ?_⟩
        rw [List.map_nil, List.append_nil]
        exact isFull
      · rw [if_neg isFull] at observed
        obtain ⟨noBan, next⟩ := observed
        have outcome :
            detector.observe Score entry.1 (1000000 + entry.2) =
              (none, (detector.observe Score entry.1
                (1000000 + entry.2)).2) :=
          Prod.ext noBan rfl
        rw [outcome]
        dsimp only
        have fewer : (calls ++ [timed entry]).length + rest.length <
            4294967295 := by
          rw [List.length_append, List.length_singleton]
          omega
        refine (inductionHypothesis next ownRest fewer (seen + 1)).trans
          ⟨?_, ?_⟩
        · rintro ⟨past, found, later, rfl, isLater⟩
          refine ⟨entry :: past, found, later, rfl, ?_⟩
          rw [List.map_cons, List.append_cons calls]
          exact isLater
        · rintro ⟨past, found, later, shape, isLater⟩
          cases past with
          | nil =>
              obtain ⟨rfl, rfl⟩ := List.cons.inj shape
              rw [List.map_nil, List.append_nil] at isLater
              exact absurd isLater isFull
          | cons first past =>
              obtain ⟨rfl, rfl⟩ := List.cons.inj shape
              refine ⟨past, found, later, rfl, ?_⟩
              rw [List.map_cons, List.append_cons calls] at isLater
              exact isLater

end

end Detector

/-- What the events of a burst have in common. -/
structure BurstKind where
  opener : Bool
  udp : Bool
  drop : Bool
  odd : Bool
  /-- Each event goes to a port of its own, or all of them to one. -/
  scans : Bool

namespace BurstKind

/-- How many of so many events are counted. -/
def share (isKind : Bool) (count : Nat) : Nat :=
  if isKind then count else 0

def ports (kind : BurstKind) (count : Nat) : Nat :=
  if kind.scans then count else 1

/-- What the score counts of so many events in one window. -/
def signals
    (kind : BurstKind)
    (cfg : DetectorConfig)
    (count : Nat) : Signals where
  syn := share kind.opener count
  ports := min (kind.ports count) (cfg.portLimit.toNat + 1)
  udp := share kind.udp count
  drops := share kind.drop count
  odd := share kind.odd count

theorem share_mono
    {first second : Nat}
    (isKind : Bool)
    (atMost : first ≤ second) :
    share isKind first ≤ share isKind second := by
  cases isKind with
  | false => exact Nat.le_refl 0
  | true => exact atMost

theorem ports_mono
    {first second : Nat}
    (kind : BurstKind)
    (atMost : first ≤ second) :
    kind.ports first ≤ kind.ports second := by
  rw [ports, ports]
  split
  · exact atMost
  · exact Nat.le_refl 1

theorem signals_mono
    {first second : Nat}
    (kind : BurstKind)
    (cfg : DetectorConfig)
    (atMost : first ≤ second) :
    (kind.signals cfg first).AtMost (kind.signals cfg second) where
  syn := share_mono kind.opener atMost
  ports := min_le_min_right _ (kind.ports_mono atMost)
  udp := share_mono kind.udp atMost
  drops := share_mono kind.drop atMost
  odd := share_mono kind.odd atMost

end BurstKind

namespace Burst

/-- All events of a burst are of one kind. -/
structure IsOf (burst : Burst) (kind : BurstKind) (total : Nat) : Prop where
  opener : ∀ index, (burst.event index).isOpener = kind.opener
  udp : ∀ index, (burst.event index).isUdp = kind.udp
  drop : ∀ index, (burst.event index).isPolicyDrop = kind.drop
  odd : ∀ index, (burst.event index).isOdd = kind.odd
  apart :
    kind.scans = true →
      ∀ first < total, ∀ second < total,
        (burst.event first).dstPort = (burst.event second).dstPort →
          first = second
  alike :
    kind.scans = false →
      ∀ index, (burst.event index).dstPort = (burst.event 0).dstPort

section

variable
  {burst : Burst}
  {kind : BurstKind}
  {window : PlainWindow}
  {total first count : Nat}

theorem count_eq
    {isKind : PacketEvent → Bool}
    {is : Bool}
    (same : ∀ index, isKind (burst.event index) = is)
    (events :
      window.events = (List.range' first count).map burst.call) :
    window.count isKind = BurstKind.share is count := by
  rw [PlainWindow.count, events, List.countP_map]
  have constant :
      ((fun entry : PacketEvent × U64 => isKind entry.1) ∘ burst.call) =
        fun _ => is :=
    funext same
  rw [constant]
  cases is with
  | false => rw [List.countP_false]; rfl
  | true => rw [List.countP_true, List.length_range']; rfl

theorem distinctPorts_eq
    (isOf : burst.IsOf kind total)
    (within : first + count ≤ total)
    (some : 0 < count)
    (events :
      window.events = (List.range' first count).map burst.call) :
    window.distinctPorts = kind.ports count := by
  rw [PlainWindow.distinctPorts, events, List.map_map]
  cases scans : kind.scans with
  | true =>
      rw [BurstKind.ports, if_pos scans, List.toFinset_card_of_nodup,
        List.length_map, List.length_range']
      refine List.Nodup.map_on ?_ List.nodup_range'
      intro index member other otherMember same
      rw [List.mem_range'_1] at member otherMember
      exact isOf.apart scans index (by omega) other (by omega) same
  | false =>
      rw [BurstKind.ports, if_neg (by rw [scans]; exact Bool.false_ne_true)]
      have constant :
          ((fun entry : PacketEvent × U64 => entry.1.dstPort) ∘
              burst.call) =
            fun _ => (burst.event 0).dstPort :=
        funext (isOf.alike scans)
      rw [constant, List.map_const', List.length_range',
        List.toFinset_replicate_of_ne_zero some.ne',
        Finset.card_singleton]

/-- The counts of a window that holds so many events of a burst. -/
theorem signals_eq
    (isOf : burst.IsOf kind total)
    (cfg : DetectorConfig)
    (within : first + count ≤ total)
    (some : 0 < count)
    (events :
      window.events = (List.range' first count).map burst.call) :
    window.signals cfg = kind.signals cfg count := by
  rw [PlainWindow.signals, BurstKind.signals, count_eq isOf.opener events,
    count_eq isOf.udp events, count_eq isOf.drop events,
    count_eq isOf.odd events, distinctPorts_eq isOf within some events]

/-- Some window of a burst has a full score when the fullest one has. -/
theorem exists_full_iff
    (rounding : Rounding 24)
    {cfg : DetectorConfig}
    (isOf : burst.IsOf kind total)
    (steady : 0 < burst.rate)
    (lasting : 0 < cfg.windowSecs.toNat)
    (some : 0 < total)
    (fits : burst.start + total / burst.rate < 2 ^ 64) :
    (∃ index < total,
      ((PlainWindow.opened cfg (burst.calls (index + 1))).signals cfg).Fills
        (Rounded rounding) cfg) ↔
      (kind.signals cfg
        (burst.fullest cfg.windowSecs.toNat total)).Fills (Rounded rounding)
          cfg := by
  have counted
      {index : Nat}
      (early : index < total) :
      ∃ number,
        burst.before cfg.windowSecs.toNat number ≤ index ∧
          index < burst.before cfg.windowSecs.toNat (number + 1) ∧
          (PlainWindow.opened cfg (burst.calls (index + 1))).signals cfg =
            kind.signals cfg
              (index + 1 - burst.before cfg.windowSecs.toNat number) := by
    have sooner : index / burst.rate ≤ total / burst.rate :=
      Nat.div_le_div_right early.le
    obtain ⟨number, holds⟩ :=
      holds_opened steady lasting
        (by omega : burst.start + index / burst.rate < 2 ^ 64)
    have atLeast := holds.atLeast
    exact ⟨number, atLeast, holds.below,
      signals_eq isOf cfg (by omega) (by omega) holds.events⟩
  constructor
  · rintro ⟨index, early, isFull⟩
    obtain ⟨number, atLeast, below, isCount⟩ := counted early
    rw [isCount] at isFull
    exact Rounding.fills_mono
      (kind.signals_mono cfg (window_le_fullest early atLeast below)) isFull
  · intro isFull
    obtain ⟨index, number, early, atLeast, below, isFullest⟩ :=
      exists_fullest steady lasting some
    refine ⟨index, early, ?_⟩
    obtain ⟨found, foundAtLeast, foundBelow, isCount⟩ := counted early
    obtain rfl := number_unique atLeast below foundAtLeast foundBelow
    rw [isCount, isFullest]
    exact isFull

end

end Burst

/-- The most of so many events, at a rate, that one window takes in. -/
def DetectorConfig.most (cfg : DetectorConfig) (rate total : Nat) : Nat :=
  let window := cfg.windowSecs.toNat
  -- The simulated clock starts at a million seconds, and a source that is
  -- not tracked has its window from zero on.
  let first :=
    rate * (if window ≤ 1000000 then window else window - 1000000)
  max (min total first) (min (total - first) (rate * window))

/-- Simulated events at a steady rate. -/
def simEvents
    (event : Nat → PacketEvent)
    (rate total : Nat) : List (PacketEvent × U64) :=
  (List.range total).map fun index => (event index, perSec rate index)

def simBurst (event : Nat → PacketEvent) (rate : Nat) : Burst :=
  ⟨event, 1000000, rate⟩

section

variable
  {event : Nat → PacketEvent}
  {rate total : Nat}

theorem simBurst_fullest (cfg : DetectorConfig) :
    (simBurst event rate).fullest cfg.windowSecs.toNat total =
      cfg.most rate total := by
  have first :
      (simBurst event rate).before cfg.windowSecs.toNat 1 =
        rate *
          (if cfg.windowSecs.toNat ≤ 1000000 then
            cfg.windowSecs.toNat
          else
            cfg.windowSecs.toNat - 1000000) := by
    rw [Burst.before, Burst.origin, Nat.one_mul]
    have isStart : (simBurst event rate).start = 1000000 := rfl
    by_cases short : cfg.windowSecs.toNat ≤ 1000000
    · rw [if_pos (isStart ▸ short), if_pos short, Nat.add_sub_cancel_left]
      rfl
    · rw [if_neg (isStart ▸ short), if_neg short, Nat.zero_add]
      rfl
  rw [Burst.fullest, first]
  rfl

theorem timed_simEvent (steady : 0 < rate) (index : Nat) :
    timed (event index, perSec rate index) =
      (simBurst event rate).call index := by
  have clock : (1000000 : U64) = BitVec.ofNat 64 1000000 := rfl
  rw [timed, perSec, Burst.call, Nat.max_eq_left steady, clock]
  exact congrArg (Prod.mk (event index)) (BitVec.ofNat_add _ _).symm

/-- The places of a replay are the numbers of its events. -/
theorem simEvents_split
    (steady : 0 < rate)
    (holds : List (PacketEvent × U64) → Prop) :
    (∃ past entry rest,
      simEvents event rate total = past ++ entry :: rest ∧
        holds (past.map timed ++ [timed entry])) ↔
      ∃ index < total,
        holds ((simBurst event rate).calls (index + 1)) := by
  have shown (index : Nat) :
      (simEvents event rate index).map timed =
        (simBurst event rate).calls index := by
    rw [simEvents, List.map_map, Burst.calls]
    exact List.map_congr_left fun at_ _ => timed_simEvent steady at_
  constructor
  · rintro ⟨past, entry, rest, shape, isHolds⟩
    have early : past.length < total := by
      have lengths := congrArg List.length shape
      rw [simEvents, List.length_map, List.length_range,
        List.length_append, List.length_cons] at lengths
      omega
    have isPast : simEvents event rate past.length = past := by
      have prefixes := congrArg (List.take past.length) shape
      rw [List.take_left, simEvents, ← List.map_take, List.take_range,
        Nat.min_eq_left early.le] at prefixes
      exact prefixes
    have isEntry :
        (event past.length, perSec rate past.length) = entry := by
      have entries := congrArg (fun list => list[past.length]?) shape
      simpa [simEvents, early] using entries
    refine ⟨past.length, early, ?_⟩
    rw [Burst.calls_succ, ← shown, isPast, ← timed_simEvent steady, isEntry]
    exact isHolds
  · rintro ⟨index, early, isHolds⟩
    obtain ⟨more, rfl⟩ := Nat.exists_eq_add_of_lt early
    refine ⟨simEvents event rate index,
      (event index, perSec rate index),
      (List.range' (index + 1) more).map
        fun index => (event index, perSec rate index), ?_, ?_⟩
    · have parts :
          List.range (index + more + 1) =
            List.range index ++ index :: List.range' (index + 1) more := by
        rw [List.range_eq_range', List.range_eq_range', Nat.add_assoc,
          ← List.range'_append_1, List.range'_succ, Nat.zero_add]
      rw [simEvents, parts, List.map_append, List.map_cons]
      rfl
    · rw [shown, timed_simEvent steady, ← Burst.calls_succ]
      exact isHolds

end

/-- A replay of one kind of events bans when the fullest window is full. -/
theorem Scenario.hit_isSome_iff
    (rounding : Rounding 24)
    {cfg : Config}
    (positive : cfg.detector.Positive)
    {scenario : Scenario}
    (unprotected : scenario.isProtected = false)
    {event : Nat → PacketEvent}
    {rate total : Nat}
    (events : scenario.events = simEvents event rate total)
    (own : ∀ index, Src.of (event index) = .v4 simSource)
    (steady : 0 < rate)
    (some : 0 < total)
    (few : total ≤ maxSimEvents)
    {kind : BurstKind}
    (isOf : (simBurst event rate).IsOf kind total) :
    (scenario.hit (Rounded rounding) cfg).isSome = true ↔
      (kind.signals cfg.detector (cfg.detector.most rate total)).Fills
        (Rounded rounding) cfg.detector := by
  have isDetector :
      scenario.detector cfg = Detector.new cfg.detector cfg.bans := by
    rw [Scenario.detector, unprotected]
    rfl
  have lasting : 0 < cfg.detector.windowSecs.toNat := by
    refine Nat.pos_of_ne_zero fun isZero => positive.1 ?_
    exact BitVec.eq_of_toNat_eq isZero
  rw [maxSimEvents] at few
  have short : total / rate ≤ 2000 := (Nat.div_le_self total rate).trans few
  have fits : 1000000 + total / rate < 2 ^ 64 := by
    omega
  have ownAll : ∀ entry ∈ simEvents event rate total,
      Src.of entry.1 = .v4 simSource := by
    intro entry member
    obtain ⟨index, _, rfl⟩ := List.mem_map.mp member
    exact own index
  have fewEvents : 0 + (simEvents event rate total).length < 4294967295 := by
    rw [simEvents, List.length_map, List.length_range]
    omega
  have fresh :
      Detector.Replayed cfg.detector (.v4 simSource) []
        (Detector.new cfg.detector cfg.bans) :=
    Detector.replayed_fresh (Detector.new cfg.detector cfg.bans) rfl rfl
  rw [Scenario.hit, isDetector, events,
    fresh.firstBan_isSome_iff ownAll fewEvents 0, ← simBurst_fullest,
    ← Burst.exists_full_iff rounding isOf steady lasting some fits]
  exact simEvents_split steady fun calls =>
    ((PlainWindow.opened cfg.detector calls).signals cfg.detector).Fills
      (Rounded rounding) cfg.detector

/-- A protected source is never banned. -/
theorem Detector.firstBan_of_protected
    (Score : Type)
    [ScoreArith Score]
    {detector : Detector}
    {source : Src}
    (isProtected : detector.isProtected source = true)
    {events : List (PacketEvent × U64)}
    (own : ∀ entry ∈ events, Src.of entry.1 = source)
    (seen : Nat) :
    detector.firstBan Score seen events = none := by
  induction events generalizing seen with
  | nil =>
      rfl
  | cons entry rest inductionHypothesis =>
      have spared :
          detector.observe Score entry.1 (1000000 + entry.2) =
            (none, detector) := by
        rw [Detector.observe, own entry List.mem_cons_self,
          if_pos isProtected]
      rw [firstBan, spared]
      exact inductionHypothesis
        (fun other member => own other (List.mem_cons_of_mem _ member)) _

/-- SYNs to one port after another that are all dropped. -/
def scanKind : BurstKind :=
  { opener := true, udp := false, drop := true, odd := false, scans := true }

/-- SYNs to one port that is open. -/
def openKind : BurstKind :=
  { opener := true, udp := false, drop := false, odd := false
    scans := false }

/-- Datagrams to one port that is closed. -/
def datagramKind : BurstKind :=
  { opener := false, udp := true, drop := true, odd := false
    scans := false }

/-- Christmas trees to one port after another. -/
def stealthKind : BurstKind :=
  { opener := false, udp := false, drop := true, odd := true, scans := true }

section

/-- Ports counted up from some port on are all different. -/
theorem ports_apart
    (base : U16)
    {first second : Nat}
    (firstBound : first < 200)
    (secondBound : second < 200)
    (same : base + BitVec.ofNat 16 first = base + BitVec.ofNat 16 second) :
    first = second := by
  have values :=
    congrArg BitVec.toNat (BitVec.add_right_inj base |>.mp same)
  rw [BitVec.toNat_ofNat, BitVec.toNat_ofNat] at values
  omega

/-- What a packet is taken for does not depend on its port. -/
theorem isOdd_simEvent
    (src : U32)
    (proto flags : U8)
    (port : U16)
    (verdict : U8) :
    (simEvent src proto flags port verdict).isOdd =
      (simEvent src proto flags 0 verdict).isOdd :=
  rfl

theorem isOpener_simEvent
    (src : U32)
    (proto flags : U8)
    (port : U16)
    (verdict : U8) :
    (simEvent src proto flags port verdict).isOpener =
      (simEvent src proto flags 0 verdict).isOpener :=
  rfl

theorem scan_isOf (rate : Nat) :
    (simBurst scanEvent rate).IsOf scanKind 200 where
  opener _ := (isOpener_simEvent _ _ _ _ _).trans (by decide)
  udp _ := rfl
  drop _ := rfl
  odd _ := (isOdd_simEvent _ _ _ _ _).trans (by decide)
  apart _ _ first _ second same := ports_apart 1000 first second same
  alike scans := by cases scans

theorem open_isOf (cfg : Config) (rate total : Nat) :
    (simBurst (fun _ => openEvent cfg) rate).IsOf openKind total where
  opener _ := (isOpener_simEvent _ _ _ _ _).trans (by decide)
  udp _ := rfl
  drop _ := rfl
  odd _ := (isOdd_simEvent _ _ _ _ _).trans (by decide)
  apart scans := by cases scans
  alike _ _ := rfl

theorem datagram_isOf (rate total : Nat) :
    (simBurst (fun _ => datagramEvent) rate).IsOf datagramKind total where
  opener _ := rfl
  udp _ := rfl
  drop _ := rfl
  odd _ := rfl
  apart scans := by cases scans
  alike _ _ := rfl

theorem stealth_isOf (rate : Nat) :
    (simBurst stealthEvent rate).IsOf stealthKind 10 where
  opener _ := (isOpener_simEvent _ _ _ _ _).trans (by decide)
  udp _ := rfl
  drop _ := rfl
  odd _ := (isOdd_simEvent _ _ _ _ _).trans (by decide)
  apart _ _ first _ second same :=
    ports_apart 80 (by omega) (by omega) same
  alike scans := by cases scans

/-- The scenarios, with events at a steady rate; none is cut short. -/
theorem scenarios_eq (cfg : Config) :
    scenarios cfg =
      [⟨"port scan", true, false, simEvents scanEvent 20 200⟩,
        ⟨"connection flood", true, false,
          simEvents (fun _ => openEvent cfg) 200 400⟩,
        ⟨"udp flood", true, false,
          simEvents (fun _ => datagramEvent) 500 1000⟩,
        ⟨"stealth scan", true, false, simEvents stealthEvent 10 10⟩,
        ⟨"normal use", false, false,
          simEvents (fun _ => openEvent cfg) 3 180⟩,
        ⟨"trusted source scans", false, true,
          simEvents scanEvent 20 200⟩] := by
  have whole
      {event : Nat → PacketEvent}
      {rate total : Nat}
      (few : total ≤ maxSimEvents) :
      (simEvents event rate total).take maxSimEvents =
        simEvents event rate total := by
    refine List.take_of_length_le ?_
    rw [simEvents, List.length_map, List.length_range]
    exact few
  have atOnce :
      ((List.range 10).map fun index => (stealthEvent index, (0 : U64))) =
        simEvents stealthEvent 10 10 := by
    refine List.map_congr_left fun index member => ?_
    have early := List.mem_range.mp member
    rw [perSec, Nat.max_eq_left (by decide),
      Nat.div_eq_of_lt early]
    rfl
  have scan :
      (simEvents scanEvent 20 200).take maxSimEvents = _ :=
    whole (by decide)
  have flood :
      (simEvents (fun _ => openEvent cfg) 200 400).take maxSimEvents = _ :=
    whole (by decide)
  have datagrams :
      (simEvents (fun _ => datagramEvent) 500 1000).take maxSimEvents = _ :=
    whole (by decide)
  have stealth :
      (simEvents stealthEvent 10 10).take maxSimEvents = _ :=
    whole (by decide)
  have use :
      (simEvents (fun _ => openEvent cfg) 3 180).take maxSimEvents = _ :=
    whole (by decide)
  rw [scenarios, atOnce]
  simp only [List.map_cons, List.map_nil]
  rw [← simEvents, ← simEvents, ← simEvents, ← simEvents, scan, flood,
    datagrams, stealth, use]

end

section

variable {rounding : Rounding 24}

/-- Ten packets with odd flags in one second are always too many. -/
theorem stealthKind_fills
    {limits : DetectorConfig}
    (positive : limits.Positive) :
    (stealthKind.signals limits (limits.most 10 10)).Fills
      (Rounded rounding) limits := by
  have lasting : 0 < limits.windowSecs.toNat := by
    refine Nat.pos_of_ne_zero fun isZero => positive.1 ?_
    exact BitVec.eq_of_toNat_eq isZero
  have all : limits.most 10 10 = 10 := by
    simp only [DetectorConfig.most]
    split <;> omega
  rw [all]
  by_contra low
  have hasPort : 1 ≤ (stealthKind.signals limits 10).ports :=
    le_min (by decide) (Nat.le_add_left 1 _)
  have odd := (Signals.le_tolerated positive hasPort low).2.2
  exact absurd odd (by decide : ¬10 ≤ oddLimit)

end

theorem trusted_not_hit (Score : Type) [ScoreArith Score] (cfg : Config) :
    (Scenario.mk "trusted source scans" false true
      (simEvents scanEvent 20 200)).hit Score cfg = none := by
  have own : ∀ entry ∈ simEvents scanEvent 20 200,
      Src.of entry.1 = .v4 simSource := by
    intro entry member
    obtain ⟨index, _, rfl⟩ := List.mem_map.mp member
    rfl
  exact Detector.firstBan_of_protected Score rfl own 0

/-- A scenario is unexpected when it bans and should not, or the reverse. -/
theorem mem_unexpected
    (Score : Type)
    [ScoreArith Score]
    {cfg : Config}
    {name : String} :
    name ∈ unexpected Score cfg ↔
      ∃ scenario ∈ scenarios cfg,
        name = scenario.name ∧
          ¬((scenario.hit Score cfg).isSome = true ↔
            scenario.expectBan = true) := by
  rw [unexpected, List.mem_map]
  refine exists_congr fun scenario => ?_
  rw [List.mem_filter, bne_iff_ne, ne_eq, Bool.eq_iff_iff, and_assoc]
  exact and_congr_right fun _ => and_comm.trans
    (and_congr_left' eq_comm)

/--
For every configuration that is accepted the outcome of the detector's test
can be told from four scores, computed in the detector's own arithmetic from
the counts that the fullest window of a scenario comes to.  Stealth scans are
always banned and a trusted source never is; the test passes when the other
three attacks make a full score and normal use does not.
-/
theorem detectorTest_exact
    (rounding : Rounding 24)
    {cfg : Config}
    (accepted : cfg.validate = .ok ())
    (nanos : U64) :
    let limits := cfg.detector
    let scanned := limits.most 20 200
    let flooded := limits.most 200 400
    let sent := limits.most 500 1000
    let used := limits.most 3 180
    let scan : Signals :=
      { syn := scanned, ports := min scanned (limits.portLimit.toNat + 1)
        udp := 0, drops := scanned, odd := 0 }
    let flood : Signals :=
      { syn := flooded, ports := 1, udp := 0, drops := 0, odd := 0 }
    let datagrams : Signals :=
      { syn := 0, ports := 1, udp := sent, drops := sent, odd := 0 }
    let use : Signals :=
      { syn := used, ports := 1, udp := 0, drops := 0, odd := 0 }
    (∀ name,
      name ∈ unexpected (Rounded rounding) cfg ↔
        name = "port scan" ∧ ¬scan.Fills (Rounded rounding) limits ∨
          name = "connection flood" ∧
            ¬flood.Fills (Rounded rounding) limits ∨
          name = "udp flood" ∧
            ¬datagrams.Fills (Rounded rounding) limits ∨
          name = "normal use" ∧ use.Fills (Rounded rounding) limits) ∧
      ((detectorTest (Rounded rounding) cfg nanos).ok = true ↔
        scan.Fills (Rounded rounding) limits ∧
          flood.Fills (Rounded rounding) limits ∧
          datagrams.Fills (Rounded rounding) limits ∧
          ¬use.Fills (Rounded rounding) limits) := by
  intro limits scanned flooded sent used scan flood datagrams use
  have positive : limits.Positive := (Config.validate_ok.mp accepted).detector
  -- A scenario whose events are of one kind, by its fullest window.
  have hit
      (name : String)
      (expectBan : Bool)
      {event : Nat → PacketEvent}
      {rate total : Nat}
      {kind : BurstKind}
      (isOf : (simBurst event rate).IsOf kind total)
      (own : ∀ index, Src.of (event index) = .v4 simSource)
      (steady : 0 < rate)
      (some : 0 < total)
      (few : total ≤ maxSimEvents) :
      ((Scenario.mk name expectBan false (simEvents event rate total)).hit
        (Rounded rounding) cfg).isSome = true ↔
        (kind.signals limits (limits.most rate total)).Fills
          (Rounded rounding) limits :=
    Scenario.hit_isSome_iff rounding positive rfl rfl own steady some few isOf
  have onePort :
      min 1 (limits.portLimit.toNat + 1) = 1 :=
    Nat.min_eq_left (Nat.le_add_left 1 _)
  have isFlood (count : Nat) :
      openKind.signals limits count = ⟨count, 1, 0, 0, 0⟩ :=
    congrArg (Signals.mk count · 0 0 0) onePort
  have isDatagrams :
      datagramKind.signals limits sent = datagrams :=
    congrArg (Signals.mk 0 · sent sent 0) onePort
  have isScan : scanKind.signals limits scanned = scan := rfl
  have scanHit := hit "port scan" true (scan_isOf 20) (fun _ => rfl)
    (by decide) (by decide) (by decide)
  have floodHit := hit "connection flood" true (open_isOf cfg 200 400)
    (fun _ => rfl) (by decide) (by decide) (by decide)
  have datagramHit := hit "udp flood" true (datagram_isOf 500 1000)
    (fun _ => rfl) (by decide) (by decide) (by decide)
  have stealthHit := hit "stealth scan" true (stealth_isOf 10)
    (fun _ => rfl) (by decide) (by decide) (by decide)
  have useHit := hit "normal use" false (open_isOf cfg 3 180)
    (fun _ => rfl) (by decide) (by decide) (by decide)
  have trusted :
      (Scenario.mk "trusted source scans" false true
        (simEvents scanEvent 20 200)).hit (Rounded rounding) cfg = none :=
    trusted_not_hit (Rounded rounding) cfg
  rw [isScan] at scanHit
  rw [isFlood] at floodHit useHit
  rw [isDatagrams] at datagramHit
  have names (name : String) :
      name ∈ unexpected (Rounded rounding) cfg ↔
        name = "port scan" ∧ ¬scan.Fills (Rounded rounding) limits ∨
          name = "connection flood" ∧
            ¬flood.Fills (Rounded rounding) limits ∨
          name = "udp flood" ∧
            ¬datagrams.Fills (Rounded rounding) limits ∨
          name = "normal use" ∧ use.Fills (Rounded rounding) limits := by
    rw [mem_unexpected, scenarios_eq]
    simp only [List.mem_cons, List.not_mem_nil, or_false, exists_eq_or_imp,
      exists_eq_left, scanHit, floodHit, datagramHit, useHit, trusted,
      stealthHit.mpr (stealthKind_fills positive), Option.isSome_none,
      Bool.false_eq_true, iff_true, iff_false, not_true, and_false,
      false_or, iff_self, not_not]
    rfl
  refine ⟨names, ?_⟩
  have noneLeft :
      (detectorTest (Rounded rounding) cfg nanos).ok = true ↔
        unexpected (Rounded rounding) cfg = [] :=
    decide_eq_true_iff
  rw [noneLeft, List.eq_nil_iff_forall_not_mem]
  simp only [names]
  constructor
  · intro nothing
    refine ⟨not_not.mp fun low => ?_, not_not.mp fun low => ?_,
      not_not.mp fun low => ?_, fun full => ?_⟩
    · exact nothing "port scan" (.inl ⟨rfl, low⟩)
    · exact nothing "connection flood" (.inr (.inl ⟨rfl, low⟩))
    · exact nothing "udp flood" (.inr (.inr (.inl ⟨rfl, low⟩)))
    · exact nothing "normal use" (.inr (.inr (.inr ⟨rfl, full⟩)))
  · rintro ⟨scanned, flooded, sent, used⟩ name
      (⟨_, low⟩ | ⟨_, low⟩ | ⟨_, low⟩ | ⟨_, full⟩)
    · exact low scanned
    · exact low flooded
    · exact low sent
    · exact used full

/-- The built-in limits pass. -/
theorem default_limits_pass :
    (detectorTest Binary32 .default 0).ok = true := by
  refine (detectorTest_exact _
    (by decide : Config.default.validate = .ok ()) 0).2.mpr ?_
  decide +kernel

end AiFirewall

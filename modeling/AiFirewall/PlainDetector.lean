import AiFirewall.ConfigCheck
import AiFirewall.DetectorBounds

namespace AiFirewall

/-!
# The detector's plain definition

A window keeps every event that counts for a source, and the score is told
from the whole of it.  The detector keeps counters and a port list with a cap
instead.  A stored track is always below a full score, so no counter comes
near its range and the cap is never in the way.
-/

open Runs

namespace PacketEvent

def isUdp (event : PacketEvent) : Bool :=
  event.protocol = protoUdp

/-- Not UDP, and with a set of flags that no connection has. -/
def isOdd (event : PacketEvent) : Bool :=
  !event.isUdp && (event.isNullScan || event.isXmasScan || event.isFinScan)

/-- Not UDP, not odd, and SYN without ACK. -/
def isOpener (event : PacketEvent) : Bool :=
  !event.isUdp && !event.isOdd && event.isSyn

def isPolicyDrop (event : PacketEvent) : Bool :=
  event.verdict = verdictDropPolicy

end PacketEvent

/-- The events of one source since its window began, each with its time. -/
structure PlainWindow where
  start : U64
  events : List (PacketEvent × U64)

namespace PlainWindow

/-- Of a source that is not tracked. -/
def untracked : PlainWindow :=
  ⟨0, []⟩

/-- The window at some time; a new one when the length has passed. -/
def renewed
    (window : PlainWindow)
    (cfg : DetectorConfig)
    (now : U64) : PlainWindow :=
  if cfg.windowSecs ≤ U64.saturatingSub now window.start then
    ⟨now, []⟩
  else
    window

/-- An event starts a window, or falls into the one there is. -/
def extend
    (window : PlainWindow)
    (cfg : DetectorConfig)
    (event : PacketEvent)
    (now : U64) : PlainWindow :=
  ⟨(window.renewed cfg now).start,
    (window.renewed cfg now).events ++ [(event, now)]⟩

def count (window : PlainWindow) (kind : PacketEvent → Bool) : Nat :=
  window.events.countP fun entry => kind entry.1

def distinctPorts (window : PlainWindow) : Nat :=
  (window.events.map fun entry => entry.1.dstPort).toFinset.card

/-- Every signal over its limit; one port is normal traffic. -/
def score (window : PlainWindow) (cfg : DetectorConfig) : ℚ :=
  window.count PacketEvent.isOpener / cfg.synLimit.toNat +
    window.distinctPorts / cfg.portLimit.toNat +
    window.count PacketEvent.isUdp / cfg.udpLimit.toNat +
    window.count PacketEvent.isPolicyDrop / cfg.dropLimit.toNat +
    window.count PacketEvent.isOdd / 3 -
    1 / cfg.portLimit.toNat

/-- All events lie within less than the length of a window. -/
def WithinWindow (window : PlainWindow) (cfg : DetectorConfig) : Prop :=
  ∀ entry ∈ window.events,
    window.start.toNat ≤ entry.2.toNat ∧
      entry.2.toNat < window.start.toNat + cfg.windowSecs.toNat

end PlainWindow

/-- The settings that `validate` accepts. -/
def DetectorConfig.Positive (cfg : DetectorConfig) : Prop :=
  cfg.windowSecs ≠ 0 ∧ cfg.synLimit ≠ 0 ∧ cfg.portLimit ≠ 0 ∧
    cfg.udpLimit ≠ 0 ∧ cfg.dropLimit ≠ 0

/-- The counters of a track are those of a window. -/
structure Track.Represents (track : Track) (window : PlainWindow) : Prop where
  start : track.windowStart = window.start
  syn : track.syn.toNat = window.count PacketEvent.isOpener
  udp : track.udp.toNat = window.count PacketEvent.isUdp
  drops : track.drops.toNat = window.count PacketEvent.isPolicyDrop
  odd : track.odd.toNat = window.count PacketEvent.isOdd
  nodup : track.ports.Nodup
  ports :
    ∀ port,
      port ∈ track.ports ↔
        ∃ entry ∈ window.events, entry.1.dstPort = port

/-- Every count is below what makes a full score. -/
structure PlainWindow.InLimits
    (window : PlainWindow)
    (cfg : DetectorConfig) : Prop where
  syn : window.count PacketEvent.isOpener < cfg.synLimit.toNat
  ports : window.distinctPorts ≤ cfg.portLimit.toNat
  udp : window.count PacketEvent.isUdp < cfg.udpLimit.toNat
  drops : window.count PacketEvent.isPolicyDrop < cfg.dropLimit.toNat
  odd : window.count PacketEvent.isOdd < 3

section

variable
  {track : Track}
  {window : PlainWindow}
  {cfg : DetectorConfig}
  {event : PacketEvent}
  {now : U64}

theorem Track.Represents.ports_length
    (represents : track.Represents window) :
    track.ports.length = window.distinctPorts := by
  rw [← List.toFinset_card_of_nodup represents.nodup]
  congr 1
  ext port
  simp [represents.ports]

/-- A track has the score of the window it represents. -/
theorem Track.Represents.score
    (represents : track.Represents window) :
    (track.score cfg : ℚ) = window.score cfg := by
  simp only [Track.score, Track.signals, List.foldl_cons, List.foldl_nil,
    ScoreArith.ofNat, ScoreArith.add, ScoreArith.sub, ScoreArith.div,
    represents.syn, represents.udp, represents.drops, represents.odd,
    represents.ports_length, oddLimit, PlainWindow.score]
  norm_num

theorem Track.represents_default :
    Track.default.Represents .untracked where
  start := rfl
  syn := rfl
  udp := rfl
  drops := rfl
  odd := rfl
  nodup := List.nodup_nil
  ports port := by
    simp [Track.default, PlainWindow.untracked]

end

namespace PlainWindow

section

variable
  {window : PlainWindow}
  {cfg : DetectorConfig}

theorem count_empty (start : U64) (kind : PacketEvent → Bool) :
    (PlainWindow.mk start []).count kind = 0 :=
  rfl

theorem distinctPorts_empty (start : U64) :
    (PlainWindow.mk start []).distinctPorts = 0 :=
  rfl

/-- A limit that is accepted is above zero. -/
theorem positive_of_ne_zero
    {limit : U32}
    (notZero : limit ≠ 0) :
    (0 : ℚ) < limit.toNat := by
  refine Nat.cast_pos.mpr (Nat.pos_of_ne_zero fun isZero => notZero ?_)
  exact BitVec.eq_of_toNat_eq isZero

/-- A window without events is below a full score. -/
theorem score_of_empty
    (positive : cfg.Positive)
    (start : U64) :
    (PlainWindow.mk start []).score cfg < 1 := by
  have port := positive_of_ne_zero positive.2.2.1
  have share : (0 : ℚ) < 1 / cfg.portLimit.toNat := one_div_pos.mpr port
  simp only [score, count_empty, distinctPorts_empty, Nat.cast_zero,
    zero_div, zero_add, zero_sub]
  linarith

/-- A window with an event has a port. -/
theorem distinctPorts_pos (notEmpty : window.events ≠ []) :
    1 ≤ window.distinctPorts := by
  obtain ⟨entry, member⟩ := List.exists_mem_of_ne_nil _ notEmpty
  refine Finset.card_pos.mpr ⟨entry.1.dstPort, ?_⟩
  exact List.mem_toFinset.mpr (List.mem_map_of_mem member)

/-- Below a full score no signal alone reaches its limit. -/
theorem inLimits_of_score
    (positive : cfg.Positive)
    (low : window.score cfg < 1) :
    window.InLimits cfg := by
  obtain ⟨_, synLimit, portLimit, udpLimit, dropLimit⟩ := positive
  have syn := positive_of_ne_zero synLimit
  have port := positive_of_ne_zero portLimit
  have udp := positive_of_ne_zero udpLimit
  have drop := positive_of_ne_zero dropLimit
  by_cases isEmpty : window.events = []
  · have none (kind : PacketEvent → Bool) : window.count kind = 0 := by
      rw [count, isEmpty, List.countP_nil]
    have noPorts : window.distinctPorts = 0 := by
      rw [distinctPorts, isEmpty]
      rfl
    refine ⟨?_, ?_, ?_, ?_, ?_⟩
    · rw [none]
      exact_mod_cast syn
    · rw [noPorts]
      exact Nat.zero_le _
    · rw [none]
      exact_mod_cast udp
    · rw [none]
      exact_mod_cast drop
    · rw [none]
      exact Nat.succ_pos 2
  · have onePort : (1 : ℚ) ≤ window.distinctPorts := by
      exact_mod_cast distinctPorts_pos isEmpty
    -- No part of the sum is negative once the one free port is taken off.
    have synPart :
        (0 : ℚ) ≤ window.count PacketEvent.isOpener / cfg.synLimit.toNat := by
      positivity
    have udpPart :
        (0 : ℚ) ≤ window.count PacketEvent.isUdp / cfg.udpLimit.toNat := by
      positivity
    have dropPart :
        (0 : ℚ) ≤
          window.count PacketEvent.isPolicyDrop / cfg.dropLimit.toNat := by
      positivity
    have oddPart :
        (0 : ℚ) ≤ window.count PacketEvent.isOdd / 3 := by
      positivity
    have portPart :
        1 / (cfg.portLimit.toNat : ℚ) ≤
          window.distinctPorts / cfg.portLimit.toNat :=
      (div_le_div_iff_of_pos_right port).mpr onePort
    rw [score] at low
    refine ⟨?_, ?_, ?_, ?_, ?_⟩
    · have part :
          (window.count PacketEvent.isOpener : ℚ) / cfg.synLimit.toNat < 1 := by
        linarith
      exact_mod_cast (div_lt_one syn).mp part
    · have part :
          (window.distinctPorts : ℚ) / cfg.portLimit.toNat <
            1 + 1 / cfg.portLimit.toNat := by
        linarith
      rw [div_lt_iff₀ port, add_mul, one_mul,
        div_mul_cancel₀ _ port.ne'] at part
      exact Nat.lt_succ_iff.mp (by exact_mod_cast part)
    · have part :
          (window.count PacketEvent.isUdp : ℚ) / cfg.udpLimit.toNat < 1 := by
        linarith
      exact_mod_cast (div_lt_one udp).mp part
    · have part :
          (window.count PacketEvent.isPolicyDrop : ℚ) /
            cfg.dropLimit.toNat < 1 := by
        linarith
      exact_mod_cast (div_lt_one drop).mp part
    · have part : (window.count PacketEvent.isOdd : ℚ) / 3 < 1 := by
        linarith
      exact_mod_cast (div_lt_one (by norm_num)).mp part

/-- What a new event adds to a count. -/
theorem count_extend
    (event : PacketEvent)
    (now : U64)
    (kind : PacketEvent → Bool) :
    (window.extend cfg event now).count kind =
      (window.renewed cfg now).count kind + if kind event then 1 else 0 := by
  rw [count, extend, List.countP_append, List.countP_singleton]
  rfl

end

end PlainWindow

namespace Track

section

variable
  {track : Track}
  {window : PlainWindow}
  {cfg : DetectorConfig}

/-- One more event of some kind, or the count as it was. -/
def bumped (count : U32) (isKind : Bool) : U32 :=
  if isKind then count + 1 else count

/-- At most one of three counters counts a packet by its kind. -/
theorem kindCounted_eq (track : Track) (event : PacketEvent) :
    track.kindCounted event =
      { track with
        syn := bumped track.syn event.isOpener
        udp := bumped track.udp event.isUdp
        odd := bumped track.odd event.isOdd
        tcpSeen := track.tcpSeen || !event.isUdp
        udpSeen := track.udpSeen || event.isUdp } := by
  rw [kindCounted]
  by_cases udp : event.protocol = protoUdp
  · have isUdp : event.isUdp = true := decide_eq_true udp
    rw [if_pos udp]
    simp [bumped, PacketEvent.isOpener, PacketEvent.isOdd, isUdp]
  · have isUdp : event.isUdp = false := decide_eq_false udp
    rw [if_neg udp]
    by_cases odd :
        (event.isNullScan || event.isXmasScan || event.isFinScan) = true
    · rw [if_pos odd]
      simp [bumped, PacketEvent.isOpener, PacketEvent.isOdd, isUdp, odd]
    · rw [if_neg odd]
      cases syn : event.isSyn <;>
        simp [bumped, PacketEvent.isOpener, PacketEvent.isOdd, isUdp, odd, syn]

theorem dropCounted_eq (track : Track) (event : PacketEvent) :
    track.dropCounted event =
      { track with drops := bumped track.drops event.isPolicyDrop } := by
  rw [dropCounted, bumped, PacketEvent.isPolicyDrop]
  by_cases drop : event.verdict = verdictDropPolicy
  · rw [if_pos drop, if_pos (decide_eq_true drop)]
  · rw [if_neg drop, if_neg (by rwa [decide_eq_true_eq])]

/-- What an event does to the counters. -/
theorem record_counters
    (track : Track)
    (cfg : DetectorConfig)
    (event : PacketEvent)
    (now : U64) :
    let before := track.renewed cfg now
    let after := track.record cfg event now
    after.windowStart = before.windowStart ∧
      after.syn = bumped before.syn event.isOpener ∧
      after.udp = bumped before.udp event.isUdp ∧
      after.drops = bumped before.drops event.isPolicyDrop ∧
      after.odd = bumped before.odd event.isOdd ∧
      after.ports =
        if before.ports.length ≤ cfg.portLimit.toNat ∧
            event.dstPort ∉ before.ports then
          before.ports ++ [event.dstPort]
        else
          before.ports := by
  intro before after
  have isAfter : after = track.record cfg event now := rfl
  rw [isAfter, record_eq, dropCounted_eq, kindCounted_eq]
  exact ⟨rfl, rfl, rfl, rfl, rfl, rfl⟩

/-- A counter below a limit does not wrap. -/
theorem toNat_bumped
    {count limit : U32}
    (below : count.toNat < limit.toNat)
    (isKind : Bool) :
    (bumped count isKind).toNat =
      count.toNat + if isKind then 1 else 0 := by
  have bound := limit.isLt
  cases isKind with
  | false => rfl
  | true =>
      rw [bumped, if_pos rfl, if_pos rfl, BitVec.toNat_add,
        Nat.mod_eq_of_lt]
      · rfl
      · have one : (1 : U32).toNat = 1 := rfl
        omega

/-- A new window begins for both at once. -/
theorem Represents.renewed
    (represents : track.Represents window)
    (cfg : DetectorConfig)
    (now : U64) :
    (track.renewed cfg now).Represents (window.renewed cfg now) := by
  rw [Track.renewed, PlainWindow.renewed, represents.start]
  split
  · exact
      { start := rfl
        syn := rfl
        udp := rfl
        drops := rfl
        odd := rfl
        nodup := List.nodup_nil
        ports := by simp [Track.default] }
  · exact represents

/-- Within the limits no counter wraps, and the cap turns no port away. -/
theorem Represents.record
    (represents : track.Represents window)
    (event : PacketEvent)
    (now : U64)
    (inLimits : (window.renewed cfg now).InLimits cfg) :
    (track.record cfg event now).Represents
      (window.extend cfg event now) := by
  have before := represents.renewed cfg now
  obtain ⟨start, syn, udp, drops, odd, ports⟩ :=
    track.record_counters cfg event now
  have short :
      (track.renewed cfg now).ports.length ≤ cfg.portLimit.toNat := by
    rw [before.ports_length]
    exact inLimits.ports
  have counted
      {count limit : U32}
      {kind : PacketEvent → Bool}
      (same : count.toNat = (window.renewed cfg now).count kind)
      (below : (window.renewed cfg now).count kind < limit.toNat) :
      (bumped count (kind event)).toNat =
        (window.extend cfg event now).count kind := by
    rw [PlainWindow.count_extend, ← same]
    exact toNat_bumped (same ▸ below) _
  refine ⟨?_, ?_, ?_, ?_, ?_, ?_, ?_⟩
  · rw [start]
    exact before.start
  · rw [syn]
    exact counted before.syn inLimits.syn
  · rw [udp]
    exact counted before.udp inLimits.udp
  · rw [drops]
    exact counted before.drops inLimits.drops
  · rw [odd]
    have three : (3 : U32).toNat = 3 := rfl
    exact counted before.odd (three ▸ inLimits.odd)
  · rw [ports]
    split
    · rename_i isNew
      rw [List.nodup_append]
      refine ⟨before.nodup, List.nodup_singleton _, ?_⟩
      intro port member other isOther same
      rw [same, List.mem_singleton.mp isOther] at member
      exact isNew.2 member
    · exact before.nodup
  · intro port
    have isPort :
        port ∈ (track.record cfg event now).ports ↔
          port ∈ (track.renewed cfg now).ports ∨ port = event.dstPort := by
      rw [ports]
      split
      · rw [List.mem_append, List.mem_singleton]
      · rename_i old
        have known : event.dstPort ∈ (track.renewed cfg now).ports := by
          by_contra isNew
          exact old ⟨short, isNew⟩
        refine (or_iff_left_of_imp ?_).symm
        rintro rfl
        exact known
    rw [isPort, before.ports, PlainWindow.extend]
    simp only [List.mem_append, List.mem_singleton, or_and_right,
      exists_or, exists_eq_left]
    exact or_congr_right eq_comm

end

end Track

namespace PlainWindow

section

variable
  {cfg : DetectorConfig}
  {source : Src}

/-- The window after a verdict: a ban forgets it. -/
def settled (window : PlainWindow) (cfg : DetectorConfig) : PlainWindow :=
  if 1 ≤ window.score cfg then
    untracked
  else
    window

/-- What a call to the detector means for the window of a source. -/
def step
    (cfg : DetectorConfig)
    (source : Src)
    (window : PlainWindow)
    (call : PacketEvent × U64) : PlainWindow :=
  if Src.of call.1 = source then
    (window.extend cfg call.1 call.2).settled cfg
  else
    window

/-- The current window of a source after some calls. -/
def after
    (cfg : DetectorConfig)
    (source : Src)
    (calls : List (PacketEvent × U64)) : PlainWindow :=
  run (step cfg source) untracked calls

theorem score_settled
    (positive : cfg.Positive)
    (window : PlainWindow) :
    (window.settled cfg).score cfg < 1 := by
  rw [settled]
  split
  · exact score_of_empty positive 0
  · rename_i low
    exact not_le.mp low

/-- No window that is kept has a full score. -/
theorem score_after
    (positive : cfg.Positive)
    (source : Src)
    (calls : List (PacketEvent × U64)) :
    (after cfg source calls).score cfg < 1 := by
  induction calls using List.reverseRecOn with
  | nil =>
      exact score_of_empty positive 0
  | append_singleton past call inductionHypothesis =>
      rw [after, run_concat, step]
      split
      · exact score_settled positive _
      · exact inductionHypothesis

theorem score_renewed
    (positive : cfg.Positive)
    {window : PlainWindow}
    (low : window.score cfg < 1)
    (now : U64) :
    (window.renewed cfg now).score cfg < 1 := by
  rw [renewed]
  split
  · exact score_of_empty positive now
  · exact low

/-- An event that a window takes in comes before the window is over. -/
theorem within_extend
    (positive : cfg.Positive)
    {window : PlainWindow}
    {event : PacketEvent}
    {now : U64}
    (within : window.WithinWindow cfg)
    (started : window.start ≤ now) :
    (window.extend cfg event now).WithinWindow cfg ∧
      (window.extend cfg event now).start ≤ now := by
  have lasting : 0 < cfg.windowSecs.toNat := by
    refine Nat.pos_of_ne_zero fun isZero => positive.1 ?_
    exact BitVec.eq_of_toNat_eq isZero
  rw [extend, renewed]
  split
  · refine ⟨fun entry member => ?_, BitVec.le_refl now⟩
    rw [List.nil_append, List.mem_singleton] at member
    subst member
    exact ⟨Nat.le_refl _, Nat.lt_add_of_pos_right lasting⟩
  · rename_i stillOpen
    refine ⟨fun entry member => ?_, started⟩
    rcases List.mem_append.mp member with old | isNew
    · exact within entry old
    · rw [List.mem_singleton] at isNew
      subst isNew
      have order : window.start.toNat ≤ now.toNat := started
      rw [BitVec.le_def, U64.toNat_saturatingSub] at stillOpen
      have early : now.toNat < window.start.toNat + cfg.windowSecs.toNat := by
        omega
      exact ⟨order, early⟩

/-- The events of a window lie within less than its length. -/
theorem within_after
    (positive : cfg.Positive)
    {calls : List (PacketEvent × U64)}
    (ordered : calls.Pairwise (fun first second => first.2 ≤ second.2)) :
    (after cfg source calls).WithinWindow cfg ∧
      ∀ time, (∀ call ∈ calls, call.2 ≤ time) →
        (after cfg source calls).start ≤ time := by
  have ofUntracked :
      untracked.WithinWindow cfg ∧ ∀ time : U64, untracked.start ≤ time :=
    ⟨nofun, fun time => Nat.zero_le time.toNat⟩
  induction calls using List.reverseRecOn with
  | nil =>
      exact ⟨ofUntracked.1, fun time _ => ofUntracked.2 time⟩
  | append_singleton past call inductionHypothesis =>
      obtain ⟨pastOrdered, _, pastBefore⟩ := List.pairwise_append.mp ordered
      obtain ⟨within, started⟩ := inductionHypothesis pastOrdered
      have startedBefore : (after cfg source past).start ≤ call.2 :=
        started call.2 fun earlier member =>
          pastBefore earlier member call (List.mem_singleton_self call)
      rw [after, run_concat, step]
      split
      · have extended :
            ((after cfg source past).extend cfg call.1 call.2).WithinWindow
                cfg ∧
              _ :=
          within_extend positive within startedBefore
        obtain ⟨stillWithin, startsBefore⟩ := extended
        rw [settled]
        split
        · exact ⟨ofUntracked.1, fun time _ => ofUntracked.2 time⟩
        · refine ⟨stillWithin, fun time later => ?_⟩
          exact BitVec.le_trans startsBefore
            (later call (List.mem_append_right past
              (List.mem_singleton_self call)))
      · exact ⟨within, fun time later => started time fun earlier member =>
          later earlier (List.mem_append_left _ member)⟩

end

end PlainWindow

namespace Detector

/-- With room for a source nothing is pruned. -/
theorem makeRoom_of_hasRoom
    {detector : Detector}
    {ip : Src}
    (room : detector.hasRoom ip)
    (now : U64) :
    detector.makeRoom ip now = detector := by
  rw [makeRoom, if_neg]
  rintro ⟨isFull, missing⟩
  rcases room with space | tracked
  · exact absurd isFull (Nat.not_le.mpr space)
  · exact missing tracked

/-- The detector after some events, with exact scores. -/
def afterCalls
    (start : Detector)
    (calls : List (PacketEvent × U64)) : Detector :=
  run (fun detector call => (detector.observe ℚ call.1 call.2).2) start calls

/-- Every source that is not protected has the track of its own window. -/
structure Simulates
    (start : Detector)
    (calls : List (PacketEvent × U64))
    (detector : Detector) : Prop where
  cfg : detector.cfg = start.cfg
  protection : ∀ ip, detector.isProtected ip = start.isProtected ip
  tracks :
    ∀ source, start.isProtected source = false →
      ((detector.tracks.lookup source).getD .default).Represents
        (PlainWindow.after start.cfg source calls)
  unprotected :
    ∀ source ∈ detector.tracks, start.isProtected source = false

section

variable
  {start detector : Detector}
  {calls : List (PacketEvent × U64)}
  {event : PacketEvent}
  {now : U64}

theorem simulates_fresh
    (fresh : start.tracks = ∅) :
    start.Simulates [] start where
  cfg := rfl
  protection _ := rfl
  tracks source _ := by
    rw [fresh]
    exact Track.represents_default
  unprotected source member := by
    rw [fresh] at member
    exact absurd member (AList.notMem_empty source)

namespace Simulates

/-- The track of an event's source is that of its window with the event. -/
theorem trackAfter
    (simulates : start.Simulates calls detector)
    (positive : start.cfg.Positive)
    (unprotected : start.isProtected (Src.of event) = false)
    (now : U64) :
    (detector.trackAfter event now).Represents
      ((PlainWindow.after start.cfg (Src.of event) calls).extend start.cfg
        event now) := by
  rw [Detector.trackAfter, simulates.cfg]
  refine (simulates.tracks _ unprotected).record event now ?_
  exact PlainWindow.inLimits_of_score positive
    (PlainWindow.score_renewed positive
      (PlainWindow.score_after positive _ calls) now)

/-- The score is full when that of the window is. -/
theorem full_iff
    (simulates : start.Simulates calls detector)
    (positive : start.cfg.Positive)
    (unprotected : start.isProtected (Src.of event) = false) :
    detector.full ℚ event now = true ↔
      1 ≤ ((PlainWindow.after start.cfg (Src.of event) calls).extend
        start.cfg event now).score start.cfg := by
  have represents := simulates.trackAfter positive unprotected now
  have one : (ScoreArith.ofNat 1 : ℚ) = 1 := Nat.cast_one
  have isLess (first second : ℚ) :
      ScoreArith.lt first second = decide (first < second) := rfl
  rw [full, Track.isFull, simulates.cfg]
  rw [represents.score, one, isLess, Bool.not_eq_true',
    decide_eq_false_iff_not, not_lt]

theorem observe_eq
    (simulates : start.Simulates calls detector)
    (unprotected : start.isProtected (Src.of event) = false)
    (room : detector.hasRoom (Src.of event)) :
    detector.observe ℚ event now = detector.observeTracked ℚ event now := by
  have counted : detector.counts event now = true := by
    rw [counts, simulates.protection, unprotected,
      makeRoom_of_hasRoom room]
    exact decide_eq_true room
  rw [observe_of_counts counted, makeRoom_of_hasRoom room]

/-- Calls about other sources leave the window of a source alone. -/
theorem after_other
    {source : Src}
    (other : Src.of event ≠ source)
    (cfg : DetectorConfig) :
    PlainWindow.after cfg source (calls ++ [(event, now)]) =
      PlainWindow.after cfg source calls := by
  rw [PlainWindow.after, run_concat, PlainWindow.step, if_neg other]
  rfl

theorem after_own (cfg : DetectorConfig) :
    PlainWindow.after cfg (Src.of event) (calls ++ [(event, now)]) =
      ((PlainWindow.after cfg (Src.of event) calls).extend cfg event
        now).settled cfg := by
  rw [PlainWindow.after, run_concat, PlainWindow.step, if_pos rfl]
  rfl

/-- One call, with the windows after it. -/
theorem observe
    (simulates : start.Simulates calls detector)
    (positive : start.cfg.Positive)
    (room :
      detector.isProtected (Src.of event) = false →
        detector.hasRoom (Src.of event)) :
    start.Simulates (calls ++ [(event, now)])
      (detector.observe ℚ event now).2 := by
  cases isProtected : start.isProtected (Src.of event) with
  | true =>
      have spared : detector.observe ℚ event now = (none, detector) := by
        rw [Detector.observe, if_pos (by rw [simulates.protection, isProtected])]
      rw [spared]
      refine ⟨simulates.cfg, simulates.protection, fun source isFree => ?_,
        simulates.unprotected⟩
      have other : Src.of event ≠ source := by
        rintro rfl
        rw [isProtected] at isFree
        cases isFree
      rw [after_other other]
      exact simulates.tracks source isFree
  | false =>
      have roomy :=
        room ((simulates.protection _).trans isProtected)
      rw [simulates.observe_eq isProtected roomy]
      cases reached : detector.full ℚ event now with
      | true =>
          have fullScore := (simulates.full_iff positive isProtected).mp reached
          rw [observeTracked_eq_of_full reached]
          refine ⟨simulates.cfg, fun ip => ?_, fun source isFree => ?_,
            fun source member => ?_⟩
          · rw [← simulates.protection]
            cases ip <;> rfl
          · dsimp only
            rw [Table.lookup_erase_eq]
            by_cases own : source = Src.of event
            · subst own
              rw [if_pos rfl, after_own, PlainWindow.settled,
                if_pos fullScore]
              exact Track.represents_default
            · rw [if_neg own, after_other (Ne.symm own)]
              exact simulates.tracks source isFree
          · exact simulates.unprotected source (AList.mem_erase.mp member).2
      | false =>
          have lowScore :
              ¬1 ≤ ((PlainWindow.after start.cfg (Src.of event)
                calls).extend start.cfg event now).score start.cfg := by
            rw [← simulates.full_iff positive isProtected, reached]
            exact Bool.false_ne_true
          rw [(observeTracked_of_not_full reached).2]
          refine ⟨simulates.cfg, fun ip => ?_, fun source isFree => ?_,
            fun source member => ?_⟩
          · rw [← simulates.protection]
            cases ip <;> rfl
          · dsimp only
            rw [Table.lookup_insert_eq]
            by_cases own : source = Src.of event
            · subst own
              rw [if_pos rfl, after_own, PlainWindow.settled,
                if_neg lowScore]
              exact simulates.trackAfter positive isProtected now
            · rw [if_neg own, after_other (Ne.symm own)]
              exact simulates.tracks source isFree
          · rcases (AList.mem_insert _).mp member with isOwn | old
            · rw [isOwn]
              exact isProtected
            · exact simulates.unprotected source old

end Simulates

/-- No call for a source without protection meets a full table. -/
def Spacious (start : Detector) (calls : List (PacketEvent × U64)) : Prop :=
  Stepwise
    (fun past call =>
      (start.afterCalls past).isProtected (Src.of call.1) = false →
        (start.afterCalls past).hasRoom (Src.of call.1))
    calls

theorem simulates_run
    (positive : start.cfg.Positive)
    (fresh : start.tracks = ∅)
    (spacious : start.Spacious calls) :
    start.Simulates calls (start.afterCalls calls) := by
  refine Stepwise.invariant (start.Simulates) (simulates_fresh fresh) ?_
    spacious
  intro past call room simulates
  exact simulates.observe positive room

end

/--
While its table is not full, the detector bans a source without protection
exactly when the plain score of the source's window reaches one.  Its
counters are those of the window, its port list has all the window's ports,
and no track is stored with a full score.
-/
theorem observe_agrees_with_plain
    {cfg : Config}
    (accepted : cfg.validate = .ok ())
    {start : Detector}
    (isCfg : start.cfg = cfg.detector)
    (fresh : start.tracks = ∅)
    {calls : List (PacketEvent × U64)}
    (ordered : calls.Pairwise (fun first second => first.2 ≤ second.2))
    (spacious : start.Spacious calls) :
    (∀ past event now rest,
        calls = past ++ (event, now) :: rest →
        start.isProtected (Src.of event) = false →
        let detector := start.afterCalls past
        let window :=
          (PlainWindow.after cfg.detector (Src.of event) past).extend
            cfg.detector event now
        ((detector.observe ℚ event now).1.isSome = true ↔
            1 ≤ window.score cfg.detector) ∧
          (∀ ban ∈ (detector.observe ℚ event now).1, ban.ip = Src.of event) ∧
          (detector.trackAfter event now).Represents window ∧
          window.WithinWindow cfg.detector) ∧
      ∀ past rest,
        calls = past ++ rest →
        ∀ source, ∀ track ∈ (start.afterCalls past).tracks.lookup source,
          (track.score cfg.detector : ℚ) < 1 := by
  have positive : start.cfg.Positive := by
    rw [isCfg]
    exact (Config.validate_ok.mp accepted).detector
  rw [← isCfg]
  constructor
  · intro past event now rest shape unprotected detector window
    subst shape
    have simulates := simulates_run positive fresh spacious.before
    have room :=
      spacious past (event, now) rest rfl
        ((simulates.protection _).trans unprotected)
    have observed : detector.observe ℚ event now = _ :=
      simulates.observe_eq unprotected room
    have isFull : detector.full ℚ event now = true ↔ _ :=
      simulates.full_iff positive unprotected
    obtain ⟨pastOrdered, callOrdered, before⟩ := List.pairwise_append.mp ordered
    have windowed :
        (PlainWindow.after start.cfg (Src.of event) past).WithinWindow
            start.cfg ∧ _ :=
      PlainWindow.within_after positive pastOrdered
    obtain ⟨within, started⟩ := windowed
    have startedBefore := started now fun earlier member =>
      before earlier member (event, now) List.mem_cons_self
    refine ⟨?_, ?_, simulates.trackAfter positive unprotected now,
      (PlainWindow.within_extend positive within startedBefore).1⟩
    · rw [observed, ← isFull]
      cases reached : detector.full ℚ event now with
      | true =>
          rw [observeTracked_eq_of_full reached]
          exact iff_of_true rfl rfl
      | false =>
          rw [(observeTracked_of_not_full reached).1]
          exact iff_of_false Bool.false_ne_true Bool.false_ne_true
    · rw [observed]
      intro ban isBan
      cases reached : detector.full ℚ event now with
      | true =>
          rw [observeTracked_eq_of_full reached] at isBan
          cases isBan
          rfl
      | false =>
          rw [(observeTracked_of_not_full reached).1] at isBan
          cases isBan
  · intro past rest shape source track found
    subst shape
    have simulates := simulates_run positive fresh spacious.before
    have member : source ∈ (start.afterCalls past).tracks := by
      rw [← AList.lookup_isSome, found]
      rfl
    have represents :=
      simulates.tracks source (simulates.unprotected source member)
    rw [found, Option.getD_some] at represents
    rw [represents.score]
    exact PlainWindow.score_after positive source past

/-- Three null scans of one source, a second apart. -/
def threeScans : List (PacketEvent × U64) :=
  [(nullScan, 100), (nullScan, 101), (nullScan, 102)]

/-- The third scan brings the plain score to one. -/
theorem third_scan_is_full :
    let cfg := Config.default.detector
    1 ≤ ((PlainWindow.after cfg (Src.of nullScan)
        [(nullScan, 100), (nullScan, 101)]).extend cfg nullScan 102).score
      cfg := by
  have spacious : (Detector.new .default .default).Spacious threeScans := by
    refine Stepwise.of_positions fun position => ?_
    revert position
    decide +kernel
  have agrees :=
    (observe_agrees_with_plain
      (by decide : Config.default.validate = .ok ()) rfl rfl
      (by decide +kernel) spacious).1
      [(nullScan, 100), (nullScan, 101)] nullScan 102 [] rfl (by decide)
  exact agrees.1.mp (by decide +kernel)

end Detector

end AiFirewall

import AiFirewall.BurstStrikes

namespace AiFirewall

/-!
# How much the detector remembers

The table of tracks is bounded: a full table takes in no new source, and the
port list of a track stops one port over its limit.  The table of offenders
has no bound of its own.  It stays small only as long as no source is banned
for the first time while it is full.
-/

open Runs

namespace Track

/-- The ports of a track when an event comes, in a fresh window none. -/
def portsBefore
    (track : Track)
    (cfg : DetectorConfig)
    (now : U64) : List U16 :=
  if cfg.windowSecs ≤ U64.saturatingSub now track.windowStart then
    []
  else
    track.ports

/-- The track at some time; a new one when its window is over. -/
def renewed (track : Track) (cfg : DetectorConfig) (now : U64) : Track :=
  if cfg.windowSecs ≤ U64.saturatingSub now track.windowStart then
    { Track.default with windowStart := now }
  else
    track

/-- The counter of what kind of packet it is. -/
def kindCounted (track : Track) (event : PacketEvent) : Track :=
  if event.protocol = protoUdp then
    { track with udpSeen := true, udp := track.udp + 1 }
  else if event.isNullScan || event.isXmasScan || event.isFinScan then
    { track with tcpSeen := true, odd := track.odd + 1 }
  else if event.isSyn then
    { track with tcpSeen := true, syn := track.syn + 1 }
  else
    { track with tcpSeen := true }

def dropCounted (track : Track) (event : PacketEvent) : Track :=
  if event.verdict = verdictDropPolicy then
    { track with drops := track.drops + 1 }
  else
    track

/-- The parts of `record`, the port last. -/
theorem record_eq
    (track : Track)
    (cfg : DetectorConfig)
    (event : PacketEvent)
    (now : U64) :
    track.record cfg event now =
      let counted := ((track.renewed cfg now).kindCounted event).dropCounted event
      { counted with
        ports :=
          if counted.ports.length ≤ cfg.portLimit.toNat ∧
              event.dstPort ∉ counted.ports then
            counted.ports ++ [event.dstPort]
          else
            counted.ports } := by
  have parts :
      track.record cfg event now =
        let counted :=
          ((track.renewed cfg now).kindCounted event).dropCounted event
        if counted.ports.length ≤ cfg.portLimit.toNat ∧
            event.dstPort ∉ counted.ports then
          { counted with ports := counted.ports ++ [event.dstPort] }
        else
          counted :=
    rfl
  rw [parts]
  dsimp only
  split <;> rfl

/-- What is counted first leaves the ports. -/
theorem ports_counted
    (track : Track)
    (cfg : DetectorConfig)
    (event : PacketEvent)
    (now : U64) :
    (((track.renewed cfg now).kindCounted event).dropCounted event).ports =
      track.portsBefore cfg now := by
  have dropped (own : Track) : (own.dropCounted event).ports = own.ports := by
    rw [dropCounted]
    split <;> rfl
  have counted (own : Track) : (own.kindCounted event).ports = own.ports := by
    rw [kindCounted]
    split
    · rfl
    · split
      · rfl
      · split <;> rfl
  rw [dropped, counted, renewed, portsBefore]
  split <;> rfl

theorem record_ports
    (track : Track)
    (cfg : DetectorConfig)
    (event : PacketEvent)
    (now : U64) :
    (track.record cfg event now).ports =
      if (track.portsBefore cfg now).length ≤ cfg.portLimit.toNat ∧
          event.dstPort ∉ track.portsBefore cfg now then
        track.portsBefore cfg now ++ [event.dstPort]
      else
        track.portsBefore cfg now := by
  rw [record_eq]
  dsimp only
  rw [ports_counted]

/-- The port list has no repeats and at most one port over the limit. -/
def PortsBounded (track : Track) (cfg : DetectorConfig) : Prop :=
  track.ports.Nodup ∧ track.ports.length ≤ cfg.portLimit.toNat + 1

theorem portsBounded_default (cfg : DetectorConfig) :
    Track.default.PortsBounded cfg :=
  ⟨List.nodup_nil, Nat.zero_le _⟩

/-- One more event keeps the port list within its bound. -/
theorem PortsBounded.record
    {track : Track}
    {cfg : DetectorConfig}
    (bounded : track.PortsBounded cfg)
    (event : PacketEvent)
    (now : U64) :
    (track.record cfg event now).PortsBounded cfg := by
  have before :
      (track.portsBefore cfg now).Nodup ∧
        (track.portsBefore cfg now).length ≤ cfg.portLimit.toNat + 1 := by
    unfold portsBefore
    split
    · exact portsBounded_default cfg
    · exact bounded
  rw [PortsBounded, record_ports]
  split
  · rename_i taken
    refine ⟨?_, ?_⟩
    · rw [List.nodup_append]
      refine ⟨before.1, List.nodup_singleton _, ?_⟩
      intro port member other isOther same
      rw [same, List.mem_singleton.mp isOther] at member
      exact taken.2 member
    · rw [List.length_append, List.length_singleton]
      omega
  · exact before

end Track

namespace Detector

/-- What the detector holds is bounded, and nobody protected is in it. -/
structure Bounded (detector : Detector) : Prop where
  tracks : detector.tracks.size ≤ maxTracked
  offenders : detector.offenders.size ≤ maxTracked
  ports :
    ∀ ip, ∀ track ∈ detector.tracks.lookup ip,
      track.PortsBounded detector.cfg
  unprotected :
    ∀ ip ∈ detector.tracks, detector.isProtected ip = false

section

variable
  {Score : Type}
  [ScoreArith Score]
  {detector : Detector}
  {event : PacketEvent}
  {now : U64}

/-- There is room for the strikes of a source. -/
def StrikesFit (detector : Detector) (ip : Src) : Prop :=
  ip ∈ detector.offenders ∨ detector.offenders.size < maxTracked

/-- A call that bans a source finds room for its strikes. -/
def KeepsRoom (Score : Type) [ScoreArith Score]
    (detector : Detector) : DetectorOp → Prop
  | .observe event now =>
      detector.trips Score event now = true →
        (detector.makeRoom (Src.of event) now).StrikesFit (Src.of event)
  | _ => True

theorem size_insert_le
    {Value : Type}
    {table : Table Src Value}
    {ip : Src}
    (value : Value)
    (fits : ip ∈ table ∨ table.size < maxTracked)
    (bounded : table.size ≤ maxTracked) :
    Table.size (table.insert ip value) ≤ maxTracked := by
  by_cases member : ip ∈ table
  · rw [Table.size_insert_of_mem member]
    exact bounded
  · rw [Table.size_insert_of_notMem member]
    have room := fits.resolve_left member
    omega

theorem mem_of_mem_retain
    {Value : Type}
    {keep : Src → Value → Bool}
    {table : Table Src Value}
    {ip : Src}
    (member : ip ∈ Table.retain keep table) :
    ∃ value, table.lookup ip = some value ∧ keep ip value = true := by
  obtain ⟨value, found⟩ :=
    Option.isSome_iff_exists.mp (AList.lookup_isSome.mpr member)
  rw [Table.lookup_retain, Option.filter_eq_some_iff] at found
  exact ⟨value, found⟩

theorem mem_of_lookup
    {Value : Type}
    {table : Table Src Value}
    {ip : Src}
    {value : Value}
    (found : table.lookup ip = some value) :
    ip ∈ table := by
  rw [← AList.lookup_isSome, found]
  rfl

theorem isProtected_prune (ip : Src) :
    (detector.prune now).isProtected ip = detector.isProtected ip := by
  cases ip <;> rfl

/-- Pruning only forgets. -/
theorem Bounded.prune (bounded : detector.Bounded) (now : U64) :
    (detector.prune now).Bounded where
  tracks := (Table.size_retain_le _ _).trans bounded.tracks
  offenders := (Table.size_retain_le _ _).trans bounded.offenders
  ports ip track found := by
    rw [Option.mem_def, Detector.prune, Table.lookup_retain,
      Option.filter_eq_some_iff] at found
    exact bounded.ports ip track found.1
  unprotected ip member := by
    obtain ⟨track, found, _⟩ := mem_of_mem_retain member
    rw [isProtected_prune]
    exact bounded.unprotected ip (mem_of_lookup found)

theorem Bounded.makeRoom
    (bounded : detector.Bounded)
    (ip : Src)
    (now : U64) :
    (detector.makeRoom ip now).Bounded := by
  rcases detector.makeRoom_cases ip now with same | pruned
  · rw [same]
    exact bounded
  · rw [pruned]
    exact bounded.prune now

/-- Newly protected sources are no longer tracked. -/
theorem Bounded.setProtected
    (bounded : detector.Bounded)
    (protected4 : List Cidr)
    (protected6 : List U64) :
    (detector.setProtected protected4 protected6).Bounded where
  tracks := (Table.size_retain_le _ _).trans bounded.tracks
  offenders := bounded.offenders
  ports ip track found := by
    rw [Option.mem_def, Detector.setProtected, Table.lookup_retain,
      Option.filter_eq_some_iff] at found
    exact bounded.ports ip track found.1
  unprotected ip member := by
    obtain ⟨track, _, kept⟩ := mem_of_mem_retain member
    rw [Bool.not_eq_true'] at kept
    cases ip <;> exact kept

theorem isProtected_makeRoom (ip other : Src) :
    (detector.makeRoom ip now).isProtected other =
      detector.isProtected other := by
  rcases detector.makeRoom_cases ip now with same | pruned
  · rw [same]
  · rw [pruned, isProtected_prune]

/-- The track of an event's source stays within its bound. -/
theorem Bounded.trackAfter
    (bounded : detector.Bounded)
    (event : PacketEvent)
    (now : U64) :
    (detector.trackAfter event now).PortsBounded detector.cfg := by
  rw [Detector.trackAfter]
  cases found : detector.tracks.lookup (Src.of event) with
  | none =>
      exact (Track.portsBounded_default detector.cfg).record event now
  | some track =>
      exact (bounded.ports _ track found).record event now

/-- An event that only counts takes a place that was free or its own. -/
theorem Bounded.observeTracked_of_not_full
    (bounded : detector.Bounded)
    (room : detector.hasRoom (Src.of event))
    (unprotected : detector.isProtected (Src.of event) = false)
    (low : detector.full Score event now = false) :
    (detector.observeTracked Score event now).2.Bounded := by
  rw [(Detector.observeTracked_of_not_full low).2]
  refine ⟨size_insert_le _ room.symm bounded.tracks, bounded.offenders,
    fun ip track found => ?_, fun ip member => ?_⟩
  · rw [Option.mem_def, Table.lookup_insert_eq] at found
    split at found
    · cases found
      exact bounded.trackAfter event now
    · exact bounded.ports ip track found
  · have same : ({ detector with
        tracks :=
          detector.tracks.insert (Src.of event)
            (detector.trackAfter event now) } : Detector).isProtected ip =
        detector.isProtected ip := by
      cases ip <;> rfl
    rw [same]
    rcases (AList.mem_insert _).mp member with isOwn | old
    · rw [isOwn]
      exact unprotected
    · exact bounded.unprotected ip old

/-- An event that bans frees its place, and its source's strikes need one. -/
theorem Bounded.observeTracked_of_full
    (bounded : detector.Bounded)
    (fits : detector.StrikesFit (Src.of event))
    (reached : detector.full Score event now = true) :
    (detector.observeTracked Score event now).2.Bounded := by
  rw [observeTracked_eq_of_full reached]
  refine ⟨(Table.size_erase_le _ _).trans bounded.tracks,
    size_insert_le _ fits bounded.offenders, fun ip track found => ?_,
    fun ip member => ?_⟩
  · rw [Option.mem_def, Table.lookup_erase_eq] at found
    split at found
    · cases found
    · exact bounded.ports ip track found
  · have old := bounded.unprotected ip (AList.mem_erase.mp member).2
    cases ip <;> exact old

/-- Every call for which there is room keeps the detector bounded. -/
theorem Bounded.apply
    (bounded : detector.Bounded)
    {op : DetectorOp}
    (keepsRoom : detector.KeepsRoom Score op) :
    (op.apply Score detector).2.Bounded := by
  cases op with
  | prune now =>
      exact bounded.prune now
  | setProtected protected4 protected6 =>
      exact bounded.setProtected protected4 protected6
  | observe event now =>
      change (detector.observe Score event now).2.Bounded
      cases counted : detector.counts event now with
      | false =>
          rcases (observe_of_not_counts Score counted).2 with same | pruned
          · rw [same]
            exact bounded
          · rw [pruned]
            exact bounded.prune now
      | true =>
          rw [observe_of_counts counted]
          have roomy := bounded.makeRoom (Src.of event) now
          cases reached :
              (detector.makeRoom (Src.of event) now).full Score event now with
          | true =>
              refine roomy.observeTracked_of_full (keepsRoom ?_) reached
              rw [trips, counted, reached]
              rfl
          | false =>
              simp only [counts, Bool.and_eq_true, Bool.not_eq_true',
                decide_eq_true_eq] at counted
              refine roomy.observeTracked_of_not_full counted.2 ?_ reached
              rw [isProtected_makeRoom]
              exact counted.1

end

/-- No call changes the settings. -/
theorem apply_cfg
    (Score : Type)
    [ScoreArith Score]
    (detector : Detector)
    (op : DetectorOp) :
    (op.apply Score detector).2.cfg = detector.cfg := by
  cases op with
  | prune now => rfl
  | setProtected protected4 protected6 => rfl
  | observe event now =>
      change (detector.observe Score event now).2.cfg = detector.cfg
      cases counted : detector.counts event now with
      | false =>
          rcases (observe_of_not_counts Score counted).2 with same | pruned
          · rw [same]
          · rw [pruned, prune]
      | true =>
          rw [observe_of_counts counted]
          cases reached :
              (detector.makeRoom (Src.of event) now).full Score event now with
          | true =>
              rw [observeTracked_eq_of_full reached]
              exact makeRoom_cfg detector _ now
          | false =>
              rw [(observeTracked_of_not_full reached).2]
              exact makeRoom_cfg detector _ now

/-- The detector after some calls. -/
def afterOps (Score : Type) [ScoreArith Score]
    (start : Detector)
    (ops : List DetectorOp) : Detector :=
  run (fun detector op => (op.apply Score detector).2) start ops

theorem bounded_new (cfg : DetectorConfig) (bans : BanConfig) :
    (Detector.new cfg bans).Bounded where
  tracks := Nat.zero_le _
  offenders := Nat.zero_le _
  ports _ _ found := by
    cases found
  unprotected _ member := absurd member (AList.notMem_empty _)

/--
Whatever the events and the times, the detector stays bounded as long as
every source that is banned has strikes already or finds a place for them.
-/
theorem bounded_of_room
    {Score : Type}
    [ScoreArith Score]
    (cfg : DetectorConfig)
    (bans : BanConfig)
    {ops : List DetectorOp}
    (room :
      Stepwise
        (fun past op =>
          ((Detector.new cfg bans).afterOps Score past).KeepsRoom Score op)
        ops) :
    ((Detector.new cfg bans).afterOps Score ops).cfg = cfg ∧
      ((Detector.new cfg bans).afterOps Score ops).Bounded := by
  refine Stepwise.invariant
    (fun _ (detector : Detector) => detector.cfg = cfg ∧ detector.Bounded)
    ⟨rfl, bounded_new cfg bans⟩ ?_ room
  rintro past op keepsRoom ⟨sameCfg, bounded⟩
  exact ⟨(apply_cfg Score _ op).trans sameCfg, bounded.apply keepsRoom⟩

/-- Settings under which one null scan is a full score. -/
def touchy : DetectorConfig :=
  ⟨10, 1, 1, 1, 1⟩

/-- A null scan from the address of a number. -/
def scanFrom (index : Nat) : PacketEvent :=
  { nullScan with srcIp := BitVec.ofNat 32 index }

/-- A null scan from each of the first addresses, all in one second. -/
def flood (count : Nat) : List DetectorOp :=
  (List.range count).map fun index => .observe (scanFrom index) 100

/-- One scan of a flood: its source is banned at once. -/
theorem observe_scanFrom
    {detector : Detector}
    (isTouchy : detector.cfg = touchy)
    (noProtected : detector.protected4 = [])
    (noTracks : detector.tracks = ∅)
    (index : Nat) :
    (detector.observe ℚ (scanFrom index) 100).2 =
      { detector with
        tracks := ∅
        offenders :=
          detector.offenders.insert (.v4 (BitVec.ofNat 32 index))
            (detector.offence (scanFrom index) 100) } := by
  have unprotected : detector.isProtected (Src.of (scanFrom index)) = false := by
    change detector.protected4.any _ = false
    rw [noProtected, List.any_nil]
  have spacious : detector.tracks.size < maxTracked := by
    rw [noTracks]
    decide
  have keeps :
      detector.makeRoom (Src.of (scanFrom index)) 100 = detector := by
    rw [makeRoom, if_neg]
    exact fun isFull => absurd isFull.1 (Nat.not_le.mpr spacious)
  have counted : detector.counts (scanFrom index) 100 = true := by
    rw [counts, keeps, unprotected]
    simp [hasRoom, spacious]
  have reached : detector.full ℚ (scanFrom index) 100 = true := by
    have alone :
        (Track.default.record touchy nullScan 100).isFull ℚ touchy = true := by
      decide +kernel
    rw [full, trackAfter, noTracks, isTouchy]
    exact alone
  rw [observe_of_counts counted, keeps, observeTracked_eq_of_full reached]
  dsimp only
  rw [noTracks]
  rfl

/-- The detector after a flood tracks nobody and remembers everyone. -/
theorem afterOps_flood
    {count : Nat}
    (distinct : count ≤ 2 ^ 32) :
    let flooded := (Detector.new touchy .default).afterOps ℚ (flood count)
    flooded.cfg = touchy ∧ flooded.protected4 = [] ∧ flooded.tracks = ∅ ∧
      flooded.offenders.size = count ∧
      ∀ ip ∈ flooded.offenders,
        ∃ index < count, ip = .v4 (BitVec.ofNat 32 index) := by
  induction count with
  | zero =>
      exact ⟨rfl, rfl, rfl, rfl, fun ip member =>
        absurd member (AList.notMem_empty _)⟩
  | succ count inductionHypothesis =>
      obtain ⟨sameCfg, noProtected, noTracks, size, known⟩ :=
        inductionHypothesis (Nat.le_of_succ_le distinct)
      have unrolled :
          (Detector.new touchy .default).afterOps ℚ (flood (count + 1)) =
            (DetectorOp.apply ℚ
              ((Detector.new touchy .default).afterOps ℚ (flood count))
              (.observe (scanFrom count) 100)).2 := by
        rw [afterOps, flood, List.range_succ, List.map_append,
          List.map_singleton, run_concat]
        rfl
      dsimp only
      rw [unrolled]
      generalize (Detector.new touchy .default).afterOps ℚ (flood count) =
        flooded at sameCfg noProtected noTracks size known ⊢
      change (flooded.observe ℚ (scanFrom count) 100).2.cfg = _ ∧ _
      rw [show (DetectorOp.apply ℚ flooded (.observe (scanFrom count) 100)).2 =
          (flooded.observe ℚ (scanFrom count) 100).2 from rfl,
        observe_scanFrom sameCfg noProtected noTracks count]
      have isNew : Src.v4 (BitVec.ofNat 32 count) ∉ flooded.offenders := by
        intro member
        obtain ⟨index, earlier, same⟩ := known _ member
        have sameNumber :=
          congrArg BitVec.toNat (Src.v4.inj same)
        simp only [BitVec.toNat_ofNat] at sameNumber
        omega
      refine ⟨sameCfg, noProtected, rfl, ?_, fun ip member => ?_⟩
      · rw [Table.size_insert_of_notMem isNew, size]
      · rcases (AList.mem_insert _).mp member with isOwn | old
        · exact ⟨count, Nat.lt_succ_self count, isOwn⟩
        · obtain ⟨index, earlier, isIp⟩ := known ip old
          exact ⟨index, Nat.lt_succ_of_lt earlier, isIp⟩

/-- A flood from one source too many: every one of them is remembered. -/
theorem flood_outgrows_offenders :
    ((Detector.new touchy .default).afterOps ℚ
        (flood (maxTracked + 1))).offenders.size = maxTracked + 1 ∧
      ¬((Detector.new touchy .default).afterOps ℚ
        (flood (maxTracked + 1))).Bounded := by
  have distinct : maxTracked + 1 ≤ 2 ^ 32 := by
    decide
  have size := (afterOps_flood distinct).2.2.2.1
  refine ⟨size, fun bounded => ?_⟩
  have small := bounded.offenders
  rw [size] at small
  exact absurd small (Nat.not_succ_le_self maxTracked)

/-- Three scans under the default settings leave one offender and no track. -/
theorem three_scans_stay_bounded :
    let ops := List.replicate 3 (DetectorOp.observe nullScan 100)
    let detector := (Detector.new .default .default).afterOps ℚ ops
    detector.offenders.size = 1 ∧ detector.tracks.size = 0 ∧
      detector.Bounded := by
  intro ops detector
  have room :
      Stepwise
        (fun past op =>
          ((Detector.new .default .default).afterOps ℚ past).KeepsRoom ℚ op)
        ops := by
    refine Stepwise.of_positions fun position => ?_
    rw [show ops.get position = .observe nullScan 100 from
      List.eq_of_mem_replicate (List.get_mem ops position)]
    intro _
    right
    revert position
    decide +kernel
  exact ⟨by decide +kernel, by decide +kernel,
    (bounded_of_room .default .default room).2⟩

end Detector

end AiFirewall

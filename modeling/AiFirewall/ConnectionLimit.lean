import AiFirewall.PolicyRuns

namespace AiFirewall

/-!
# The connection limit of a source

What a limit on a port means for one IPv4 source, over whole runs of the
policy: the count of the source's openers follows the windows that its own
traffic opens, and no other packet has a part in it.
-/

open WindowLimiter

section

variable
  {address : U32}
  {port : U16}

/-- Whether a port is open to an IPv4 source. -/
def opensFor (maps : KernelMaps) (address : U32) (port : U16) : Bool :=
  portOpen maps.tcpAllow port ||
    allowedFrom maps.allowFromTcp ⟨familyV4, address, 0⟩ port

theorem finds_of_opener
    {maps : KernelMaps}
    {packet : Packet}
    (opens : packet.opensTo address port = true) :
    packet.finds maps = opensFor maps address port := by
  obtain ⟨_, isV4, isAddress, isPort⟩ := opensTo_iff.mp opens
  rw [Packet.finds, opensFor, isPort, allowedFrom, allowedFrom, isV4,
    isAddress]

/-- Who sent the packet of a run. -/
def Handled.opensTo
    (address : U32)
    (port : U16)
    (handled : Handled) : Bool :=
  handled.packet.opensTo address port

/-- The boot clock when a packet arrives. -/
def Packet.now (packet : Packet) : U64 :=
  packet.helpers.now

/-- Whether `RATE_STATE` has no room for a new entry. -/
def Packet.meetsFullTable (packet : Packet) : Bool :=
  !packet.helpers.lruRoom

/-- The openers that are counted: all from the first that found room on. -/
def countedOpeners
    (address : U32)
    (port : U16)
    (packets : List Packet) : List Packet :=
  (packets.filter (Packet.opensTo address port)).dropWhile
    Packet.meetsFullTable

/-- An opener's answer and what it leaves are those of the window it is in. -/
structure Records
    (address : U32)
    (port : U16)
    (packed : U32)
    (handled : Handled)
    (entry : Entry U64) : Prop where
  time : handled.packet.now = entry.time
  left :
    handled.left.rateState (rateKey address port) =
      some (storedWindow entry.window)
  refused :
    handled.refused =
      decide (packed >>> 16 < (storedWindow entry.window).count)

/-- A port that is open to a source, under a limit. -/
structure Limited
    (maps : KernelMaps)
    (address : U32)
    (port : U16)
    (packed : U32) : Prop where
  rate : maps.tcpRate port = packed
  counts : 0 < packed >>> 16
  opened : opensFor maps address port = true

namespace Limited

variable {packed : U32}

theorem apply
    {maps : KernelMaps}
    (limited : Limited maps address port packed)
    (packet : Packet) :
    Limited (packet.apply maps).2 address port packed := by
  have same := SameRules.apply maps packet
  refine ⟨?_, limited.counts, ?_⟩
  · rw [same.tcpRate]
    exact limited.rate
  · have opened := limited.opened
    rw [opensFor] at opened ⊢
    rw [same.tcpAllow, same.allowFromTcp]
    exact opened

/-- What a limited port answers to an opener, and the entry it leaves. -/
theorem answers
    {maps : KernelMaps}
    {packet : Packet}
    (limited : Limited maps address port packed)
    (opens : packet.opensTo address port = true) :
    let counted :=
      countOpener packed packet.helpers
        (maps.rateState (rateKey address port))
    packet.refused maps = counted.1 ∧
      (packet.apply maps).2.rateState (rateKey address port) =
        counted.2 := by
  obtain ⟨isOpener, isV4, isAddress, isPort⟩ := opensTo_iff.mp opens
  have found : packet.finds maps = true :=
    (finds_of_opener opens).trans limited.opened
  have isLimited : maps.tcpRate port ≠ 0 := by
    intro unlimited
    have counts := limited.counts
    rw [← limited.rate, unlimited] at counts
    revert counts
    decide
  have counted :
      overRate packet.helpers maps packet.source port = _ :=
    overRate_of_limited isLimited isV4
  rw [isAddress, limited.rate] at counted
  constructor
  · rw [Packet.refused, isOpener, found, isPort, counted]
    rfl
  · rw [apply_rateState_of_opener opens found, counted]
    exact Function.update_self _ _ _

/-- An opener that is counted records the window it falls in. -/
theorem records
    {maps : KernelMaps}
    {packet : Packet}
    {before : Option (Window U64)}
    (limited : Limited maps address port packed)
    (opens : packet.opensTo address port = true)
    (stored :
      maps.rateState (rateKey address port) = before.map storedWindow)
    (room : before = none → packet.helpers.lruRoom = true) :
    Records address port packed ⟨maps, packet⟩
      ⟨packet.now,
        arrive (LapsedAfter packed) before packet.now⟩ := by
  obtain ⟨refused, left⟩ := limited.answers opens
  rw [stored, countOpener_storedWindow limited.counts room]
    at refused left
  exact ⟨rfl, left, refused⟩

/-- From an open window on, the openers record their own trace. -/
theorem handle_records
    {maps : KernelMaps}
    {window : Window U64}
    (limited : Limited maps address port packed)
    (stored :
      maps.rateState (rateKey address port) = some (storedWindow window))
    (packets : List Packet) :
    List.Forall₂ (Records address port packed)
      ((handle maps packets).filter (Handled.opensTo address port))
      (trace (LapsedAfter packed) (some window)
        ((packets.filter (Packet.opensTo address port)).map
          Packet.now)) := by
  induction packets generalizing maps window with
  | nil =>
      exact List.Forall₂.nil
  | cons packet later inductionHypothesis =>
      rw [handle, List.filter_cons, List.filter_cons]
      change List.Forall₂ _ (if packet.opensTo address port then _ else _) _
      cases opens : packet.opensTo address port with
      | false =>
          rw [if_neg Bool.false_ne_true, if_neg Bool.false_ne_true]
          refine inductionHypothesis (limited.apply packet) ?_
          rw [apply_rateState_of_foreign opens]
          exact stored
      | true =>
          rw [if_pos rfl, if_pos rfl, List.map_cons, trace]
          have recorded :
              Records address port packed ⟨maps, packet⟩
                ⟨packet.now,
                  arrive (LapsedAfter packed) (some window) packet.now⟩ :=
            limited.records opens stored fun isNew =>
              absurd isNew (Option.some_ne_none window)
          exact List.Forall₂.cons recorded
            (inductionHypothesis (limited.apply packet) recorded.left)

/-- An opener that finds neither an entry nor room leaves no trace. -/
theorem unrecorded
    {maps : KernelMaps}
    {packet : Packet}
    (limited : Limited maps address port packed)
    (opens : packet.opensTo address port = true)
    (isNew : maps.rateState (rateKey address port) = none)
    (full : packet.meetsFullTable = true) :
    packet.refused maps = false ∧
      (packet.apply maps).2.rateState (rateKey address port) = none := by
  obtain ⟨refused, left⟩ := limited.answers opens
  rw [Packet.meetsFullTable, Bool.not_eq_true'] at full
  rw [isNew, countOpener, full] at refused left
  exact ⟨refused, left⟩

/-- The openers of a source that has no entry yet record their own trace. -/
theorem handle_records_fresh
    {maps : KernelMaps}
    (limited : Limited maps address port packed)
    (isNew : maps.rateState (rateKey address port) = none)
    (packets : List Packet) :
    ∃ early late,
      (handle maps packets).filter (Handled.opensTo address port) =
          early ++ late ∧
        (∀ handled ∈ early,
          handled.packet.meetsFullTable = true ∧
            handled.refused = false) ∧
        List.Forall₂ (Records address port packed) late
          (trace (LapsedAfter packed) none
            ((countedOpeners address port packets).map Packet.now)) := by
  unfold countedOpeners
  induction packets generalizing maps with
  | nil =>
      exact ⟨[], [], rfl, List.forall_mem_nil _, List.Forall₂.nil⟩
  | cons packet later inductionHypothesis =>
      rw [handle, List.filter_cons, List.filter_cons]
      change ∃ early late,
        (if packet.opensTo address port then _ else _) = _ ∧ _
      cases opens : packet.opensTo address port with
      | false =>
          rw [if_neg Bool.false_ne_true, if_neg Bool.false_ne_true]
          refine inductionHypothesis (limited.apply packet) ?_
          rw [apply_rateState_of_foreign opens]
          exact isNew
      | true =>
          rw [if_pos rfl, if_pos rfl, List.dropWhile_cons]
          cases full : packet.meetsFullTable with
          | true =>
              rw [if_pos rfl]
              obtain ⟨refused, left⟩ := limited.unrecorded opens isNew full
              obtain ⟨early, late, split, unrefused, recorded⟩ :=
                inductionHypothesis (limited.apply packet) left
              refine ⟨⟨maps, packet⟩ :: early, late, ?_, ?_, recorded⟩
              · rw [split, List.cons_append]
              · intro handled member
                rcases List.mem_cons.mp member with isFirst | isLater
                · subst isFirst
                  exact ⟨full, refused⟩
                · exact unrefused handled isLater
          | false =>
              rw [if_neg Bool.false_ne_true, List.map_cons, trace]
              have room : packet.helpers.lruRoom = true := by
                rw [Packet.meetsFullTable, Bool.not_eq_false'] at full
                exact full
              have recorded :
                  Records address port packed ⟨maps, packet⟩
                    ⟨packet.now,
                      arrive (LapsedAfter packed) none packet.now⟩ :=
                limited.records opens isNew fun _ => room
              exact ⟨[], _, rfl, List.forall_mem_nil _, List.Forall₂.cons recorded
                ((limited.apply packet).handle_records recorded.left
                  later)⟩

end Limited

end

/-! ## Time -/

/-- The length of a window of so many seconds, in nanoseconds. -/
def windowLength (seconds : U16) : Nat :=
  seconds.toNat * 1000000000

/-- Whether a packet arrives in a closed stretch of time. -/
def Packet.isBetween
    (start length : Nat)
    (packet : Packet) : Bool :=
  start ≤ packet.now.toNat && packet.now.toNat ≤ start + length

theorem toNat_rateWindow (max seconds : U16) :
    (rateWindow (ratePack max seconds)).toNat = windowLength seconds := by
  have bound := seconds.isLt
  have small :
      ((ratePack max seconds &&& 0xffff).setWidth 64 : U64).toNat =
        seconds.toNat := by
    rw [BitVec.toNat_setWidth, toNat_window_ratePack,
      Nat.mod_eq_of_lt (by omega)]
  have billion : (1000000000 : U64).toNat = 1000000000 := by
    decide
  rw [rateWindow, BitVec.toNat_mul, small, billion, windowLength,
    Nat.mod_eq_of_lt (by omega)]

/-- On a clock that does not go back, a window lapses after its length. -/
theorem lapsedAfter_iff
    {packed : U32}
    {opened now : U64}
    (inOrder : opened ≤ now) :
    LapsedAfter packed opened now ↔
      opened.toNat + (rateWindow packed).toNat < now.toNat := by
  have order : opened.toNat ≤ now.toNat := inOrder
  rw [LapsedAfter, BitVec.lt_def, BitVec.toNat_sub_of_le inOrder]
  omega

theorem lapsing_lapsedAfter (packed : U32) :
    Lapsing (LapsedAfter packed) where
  fresh := by
    intro time
    rw [lapsedAfter_iff (BitVec.le_refl time)]
    omega
  later := by
    intro opened time next before after lapsed
    have order : time.toNat ≤ next.toNat := after
    rw [lapsedAfter_iff before] at lapsed
    rw [lapsedAfter_iff (BitVec.le_trans before after)]
    omega
  earlier := by
    intro first opened time before after lapsed
    have order : first.toNat ≤ opened.toNat := before
    rw [lapsedAfter_iff after] at lapsed
    rw [lapsedAfter_iff (BitVec.le_trans before after)]
    omega

/-- A stretch of a window's length, in nanoseconds. -/
theorem within_now
    {max seconds : U16}
    {start : U64}
    {packet : Packet} :
    within (LapsedAfter (ratePack max seconds)) start packet.now =
      packet.isBetween start.toNat (windowLength seconds) := by
  rw [Bool.eq_iff_iff, within, Packet.isBetween, decide_eq_true_eq,
    Bool.and_eq_true, decide_eq_true_eq, decide_eq_true_eq]
  refine and_congr_right fun before => ?_
  rw [lapsedAfter_iff before, toNat_rateWindow, not_lt]

/-! ## What is admitted -/

/-- Related lists have as many elements of related properties. -/
theorem countP_of_forall₂
    {First Second : Type}
    {related : First → Second → Prop}
    {firsts : List First}
    {seconds : List Second}
    {picked : First → Bool}
    {other : Second → Bool}
    (pairs : List.Forall₂ related firsts seconds)
    (agree :
      ∀ first second,
        second ∈ seconds → related first second →
          picked first = other second) :
    firsts.countP picked = seconds.countP other := by
  induction pairs with
  | nil =>
      rfl
  | cons isRelated _ inductionHypothesis =>
      rw [List.countP_cons, List.countP_cons,
        agree _ _ List.mem_cons_self isRelated,
        inductionHypothesis fun first second member =>
          agree first second (List.mem_cons_of_mem _ member)]

theorem exists_of_forall₂
    {First Second : Type}
    {related : First → Second → Prop}
    {firsts : List First}
    {seconds : List Second}
    (pairs : List.Forall₂ related firsts seconds)
    {first : First}
    (member : first ∈ firsts) :
    ∃ second ∈ seconds, related first second := by
  induction pairs with
  | nil =>
      cases member
  | cons isRelated _ inductionHypothesis =>
      rcases List.mem_cons.mp member with isFirst | isLater
      · subst isFirst
        exact ⟨_, List.mem_cons_self, isRelated⟩
      · obtain ⟨second, inSeconds, isRelated⟩ := inductionHypothesis isLater
        exact ⟨second, List.mem_cons_of_mem _ inSeconds, isRelated⟩

section

variable
  {maps : KernelMaps}
  {address : U32}
  {port max seconds : U16}
  {packets : List Packet}

/-- The openers of a source to a port in a run. -/
def openersOf
    (maps : KernelMaps)
    (address : U32)
    (port : U16)
    (packets : List Packet) : List Handled :=
  (handle maps packets).filter (Handled.opensTo address port)

/-- The windows the openers of a source to a port fall in. -/
def windowsOf
    (address : U32)
    (port : U16)
    (packed : U32)
    (packets : List Packet) : List (Entry U64) :=
  trace (LapsedAfter packed) none
    ((packets.filter (Packet.opensTo address port)).map Packet.now)

/-- With room for every entry, all openers are recorded. -/
theorem records_of_room
    {packed : U32}
    (limited : Limited maps address port packed)
    (isNew : maps.rateState (rateKey address port) = none)
    (room : ∀ packet ∈ packets, packet.helpers.lruRoom = true) :
    List.Forall₂ (Records address port packed)
      (openersOf maps address port packets)
      (windowsOf address port packed packets) := by
  obtain ⟨early, late, split, unrefused, recorded⟩ :=
    limited.handle_records_fresh isNew packets
  have noneEarly : early = [] := by
    refine List.eq_nil_iff_forall_not_mem.mpr fun handled member => ?_
    have isOwn :
        handled ∈ (handle maps packets).filter
          (Handled.opensTo address port) := by
      rw [split]
      exact List.mem_append_left late member
    have inRun := (List.mem_filter.mp isOwn).1
    have arrived : handled.packet ∈ packets := by
      rw [← handle_packets maps packets]
      exact List.mem_map_of_mem inRun
    have full := (unrefused handled member).1
    rw [Packet.meetsFullTable, room _ arrived] at full
    cases full
  have allCounted :
      countedOpeners address port packets =
        packets.filter (Packet.opensTo address port) := by
    refine List.dropWhile_eq_self_iff.mpr fun notEmpty => ?_
    have arrived := (List.mem_filter.mp (List.getElem_mem notEmpty)).1
    rw [Packet.meetsFullTable, room _ arrived]
    exact Bool.false_ne_true
  rw [noneEarly, List.nil_append] at split
  rw [openersOf, split, windowsOf, ← allCounted]
  exact recorded

/-- Where the port is closed to the source, its openers are not allowed. -/
theorem allowed_of_closed
    (closed : opensFor maps address port = false)
    {handled : Handled}
    (member : handled ∈ openersOf maps address port packets) :
    handled.allowed = false ∧ handled.refused = false := by
  obtain ⟨inRun, opens⟩ := List.mem_filter.mp member
  have unfound : handled.packet.finds handled.met = false := by
    rw [(SameRules.handle inRun).finds, finds_of_opener opens]
    exact closed
  have isOpener := (opensTo_iff.mp opens).1
  constructor
  · rw [Handled.allowed, allowed_of_opener isOpener, unfound]
    rfl
  · rw [Handled.refused, Packet.refused, unfound, Bool.and_false]
    rfl

/-- Where the port is open to the source, only the limit refuses openers. -/
theorem allowed_of_open
    (opened : opensFor maps address port = true)
    {handled : Handled}
    (member : handled ∈ openersOf maps address port packets) :
    handled.allowed = !handled.refused := by
  obtain ⟨inRun, opens⟩ := List.mem_filter.mp member
  have found : handled.packet.finds handled.met = true := by
    rw [(SameRules.handle inRun).finds, finds_of_opener opens]
    exact opened
  rw [Handled.allowed, allowed_of_opener (opensTo_iff.mp opens).1, found,
    Bool.true_and]
  rfl

theorem Records.windowStart?
    {packed : U32}
    {handled : Handled}
    {entry : Entry U64}
    (recorded : Records address port packed handled entry) :
    handled.windowStart? address port = some entry.window.opened := by
  rw [Handled.windowStart?, recorded.left]
  rfl

/-- A count that has not wrapped refuses what the limit does not admit. -/
theorem Records.refused_eq
    {handled : Handled}
    {entry : Entry U64}
    (recorded : Records address port (ratePack max seconds) handled entry)
    (small : entry.window.count < 2 ^ 32) :
    handled.refused = !admitted max.toNat entry := by
  have count :
      (storedWindow entry.window).count.toNat = entry.window.count := by
    rw [storedWindow, BitVec.toNat_ofNat, Nat.mod_eq_of_lt small]
  rw [recorded.refused, admitted, ← decide_not, decide_eq_decide,
    BitVec.lt_def, toNat_count_ratePack, count, not_le]

/-- Fewer than `2 ^ 32` openers a window: the count does not wrap. -/
theorem count_of_few
    {packed : U32}
    {entry : Entry U64}
    (recorded :
      List.Forall₂ (Records address port packed)
        (openersOf maps address port packets)
        (windowsOf address port packed packets))
    (few :
      ∀ start,
        (openersOf maps address port packets).countP
          (fun handled => handled.windowStart? address port = some start) <
            2 ^ 32)
    (member : entry ∈ windowsOf address port packed packets) :
    entry.window.count < 2 ^ 32 := by
  have sharing := count_le_sharing member
  have sameWindow :
      (openersOf maps address port packets).countP
          (fun handled =>
            handled.windowStart? address port = some entry.window.opened) =
        (windowsOf address port packed packets).countP
          (fun other => other.window.opened = entry.window.opened) :=
    countP_of_forall₂ recorded fun handled other _ isRecord => by
      rw [isRecord.windowStart?]
      exact decide_eq_decide.mpr Option.some_inj
  have bound := few entry.window.opened
  rw [sameWindow] at bound
  exact sharing.trans_lt bound

section

variable
  (recorded :
    List.Forall₂ (Records address port (ratePack max seconds))
      (openersOf maps address port packets)
      (windowsOf address port (ratePack max seconds) packets))
  (few :
    ∀ start,
      (openersOf maps address port packets).countP
        (fun handled => handled.windowStart? address port = some start) <
          2 ^ 32)
include recorded few

/-- Openers that share a property with their windows are admitted alike. -/
theorem countP_allowed
    {picked : Handled → Bool}
    {other : Entry U64 → Bool}
    (agree :
      ∀ handled entry,
        Records address port (ratePack max seconds) handled entry →
          picked handled = other entry) :
    (openersOf maps address port packets).countP
        (fun handled => !handled.refused && picked handled) =
      (windowsOf address port (ratePack max seconds) packets).countP
        (fun entry => admitted max.toNat entry && other entry) := by
  refine countP_of_forall₂ recorded fun handled entry member isRecord => ?_
  have small := count_of_few recorded few member
  rw [isRecord.refused_eq small, Bool.not_not, agree handled entry isRecord]

variable
  (ordered :
    packets.Pairwise (fun first second => first.now ≤ second.now))
include ordered

omit recorded few in
theorem ordered_openers :
    ((packets.filter (Packet.opensTo address port)).map
      Packet.now).Pairwise (· ≤ ·) :=
  List.pairwise_map.mpr (ordered.filter _)

/-- No stretch of a window's length admits more than twice the limit. -/
theorem countP_between_le (start : Nat) :
    (openersOf maps address port packets).countP
        (fun handled =>
          !handled.refused &&
            handled.packet.isBetween start (windowLength seconds)) ≤
      2 * max.toNat := by
  by_cases inClock : start < 2 ^ 64
  · have isStart : (BitVec.ofNat 64 start).toNat = start := by
      rw [BitVec.toNat_ofNat, Nat.mod_eq_of_lt inClock]
    have alike (handled : Handled) (entry : Entry U64)
        (isRecord :
          Records address port (ratePack max seconds) handled entry) :
        handled.packet.isBetween start (windowLength seconds) =
          within (LapsedAfter (ratePack max seconds))
            (BitVec.ofNat 64 start) entry.time := by
      rw [← isRecord.time, within_now, isStart]
    rw [countP_allowed recorded few alike]
    exact admitted_between_le (lapsing_lapsedAfter _)
      (ordered_openers ordered) _
  · refine (List.countP_eq_zero.mpr fun handled _ => ?_).trans_le
      (Nat.zero_le _)
    have bound := handled.packet.now.isLt
    rw [Packet.isBetween, Bool.and_eq_true, Bool.and_eq_true,
      decide_eq_true_eq]
    omega

/-- One window admits no more than the limit. -/
theorem countP_window_le (start : U64) :
    (openersOf maps address port packets).countP
        (fun handled =>
          !handled.refused &&
            decide (handled.windowStart? address port = some start)) ≤
      max.toNat := by
  have alike (handled : Handled) (entry : Entry U64)
      (isRecord :
        Records address port (ratePack max seconds) handled entry) :
      decide (handled.windowStart? address port = some start) =
        decide (entry.window.opened = start) := by
    rw [isRecord.windowStart?]
    exact decide_eq_decide.mpr Option.some_inj
  rw [countP_allowed recorded few alike]
  exact admitted_in_window_le (lapsing_lapsedAfter _)
    (ordered_openers ordered) start

/-- A source that stays below the limit is never refused. -/
theorem unrefused_of_quiet
    (quiet :
      ∀ start,
        (packets.filter (Packet.opensTo address port)).countP
          (Packet.isBetween start (windowLength seconds)) ≤ max.toNat)
    {handled : Handled}
    (member : handled ∈ openersOf maps address port packets) :
    handled.refused = false := by
  obtain ⟨entry, isEntry, isRecord⟩ := exists_of_forall₂ recorded member
  have inStretch (start : U64) :
      ((packets.filter (Packet.opensTo address port)).map
          Packet.now).countP
        (within (LapsedAfter (ratePack max seconds)) start) ≤ max.toNat := by
    rw [List.countP_map]
    refine le_trans (le_of_eq ?_) (quiet start.toNat)
    exact List.countP_congr fun packet _ => by
      rw [Function.comp_apply, within_now]
  have isAdmitted :=
    admitted_of_quiet (lapsing_lapsedAfter _) (ordered_openers ordered)
      inStretch isEntry
  rw [isRecord.refused_eq (count_of_few recorded few isEntry), isAdmitted]
  rfl

end

end

/-! ## Other packets -/

/-- Two tables that agree on everything one source's openers are judged by. -/
structure SameFor
    (address : U32)
    (port : U16)
    (first second : KernelMaps) : Prop where
  rules : SameRules first second
  entry :
    first.rateState (rateKey address port) =
      second.rateState (rateKey address port)

/-- What becomes of a packet. -/
theorem apply_fst (maps : KernelMaps) (packet : Packet) :
    (packet.apply maps).1 =
      if !(packet.judged maps).allowed && maps.config cfgEnforce ≠ 0 then
        .drop
      else
        .pass := by
  unfold Packet.apply policy Packet.judged
  dsimp only
  split <;> rfl

namespace SameFor

variable
  {address : U32}
  {port : U16}
  {first second : KernelMaps}
  {packet : Packet}

/-- Packets of others, or to other ports, change nothing here. -/
theorem foreign
    (same : SameFor address port first second)
    (isForeign : packet.opensTo address port = false) :
    SameFor address port (packet.apply first).2 second where
  rules := (SameRules.apply first packet).trans same.rules
  entry := by
    rw [apply_rateState_of_foreign isForeign]
    exact same.entry

/-- An opener is answered alike, and leaves the tables alike. -/
theorem own
    (same : SameFor address port first second)
    (opens : packet.opensTo address port = true) :
    (Handled.mk first packet).verdict =
        (Handled.mk second packet).verdict ∧
      SameFor address port (packet.apply first).2
        (packet.apply second).2 := by
  obtain ⟨isOpener, _, isAddress, isPort⟩ := opensTo_iff.mp opens
  have found := same.rules.finds packet
  have sameRate : first.tcpRate port = second.tcpRate port :=
    congrFun same.rules.tcpRate port
  have sameEntry := same.entry
  rw [← isAddress] at sameEntry
  obtain ⟨sameAnswer, sameLeft⟩ := overRate_congr_entry sameRate sameEntry
  have refused : packet.refused first = packet.refused second := by
    rw [Packet.refused, Packet.refused, found, isPort, sameAnswer]
  have allowed :
      (packet.judged first).allowed = (packet.judged second).allowed := by
    rw [allowed_of_opener isOpener, allowed_of_opener isOpener, found,
      refused]
  refine ⟨?_, ⟨?_, ?_⟩⟩
  · rw [Handled.verdict, Handled.verdict, Handled.allowed, Handled.allowed]
    dsimp only
    rw [apply_fst, apply_fst, allowed, same.rules.config]
  · exact (SameRules.apply first packet).trans
      (same.rules.trans (SameRules.apply second packet).symm)
  · cases isFound : packet.finds first with
    | true =>
        rw [apply_rateState_of_opener opens isFound,
          apply_rateState_of_opener opens (found ▸ isFound), ← isAddress]
        exact sameLeft
    | false =>
        rw [apply_rateState_of_closed isFound,
          apply_rateState_of_closed (found ▸ isFound)]
        exact same.entry

/-- The verdicts on a source's openers are those of its openers alone. -/
theorem verdicts
    (same : SameFor address port first second)
    (packets : List Packet) :
    (openersOf first address port packets).map Handled.verdict =
      (handle second
        (packets.filter (Packet.opensTo address port))).map
          Handled.verdict := by
  unfold openersOf
  induction packets generalizing first second with
  | nil =>
      rfl
  | cons packet later inductionHypothesis =>
      rw [handle, List.filter_cons, List.filter_cons]
      change List.map _ (if packet.opensTo address port then _ else _) = _
      cases opens : packet.opensTo address port with
      | false =>
          rw [if_neg Bool.false_ne_true, if_neg Bool.false_ne_true]
          exact inductionHypothesis (same.foreign opens)
      | true =>
          obtain ⟨sameVerdict, sameAfter⟩ := same.own opens
          rw [if_pos rfl, if_pos rfl, handle, List.map_cons, List.map_cons,
            sameVerdict, inductionHypothesis sameAfter]

end SameFor

/--
The connection limit of one source on one port: at most twice the limit in
any closed stretch of a window's length, at most the limit in one window, no
refusal of a source that stays below it, and no influence of other packets.
-/
theorem connection_limit_holds
    {maps : KernelMaps}
    {address : U32}
    {port max seconds : U16}
    (limited : maps.tcpRate port = ratePack max seconds)
    (counts : 1 ≤ max.toNat)
    (isNew : maps.rateState (rateKey address port) = none)
    {packets : List Packet}
    (ordered :
      packets.Pairwise (fun first second => first.now ≤ second.now))
    (evictsNothing :
      ∀ packet ∈ packets, packet.helpers.lruRoom = true)
    (few :
      ∀ start,
        (openersOf maps address port packets).countP
          (fun handled =>
            handled.windowStart? address port = some start) < 2 ^ 32) :
    (∀ start : Nat,
        (openersOf maps address port packets).countP
          (fun handled =>
            handled.allowed &&
              handled.packet.isBetween start (windowLength seconds)) ≤
          2 * max.toNat) ∧
      (∀ start : U64,
        (openersOf maps address port packets).countP
          (fun handled =>
            handled.allowed &&
              decide (handled.windowStart? address port = some start)) ≤
          max.toNat) ∧
      ((∀ start : Nat,
          (packets.filter (Packet.opensTo address port)).countP
            (Packet.isBetween start (windowLength seconds)) ≤
              max.toNat) →
        ∀ handled ∈ openersOf maps address port packets,
          handled.refused = false) ∧
      ∀ others : List Packet,
        others.filter (Packet.opensTo address port) =
            packets.filter (Packet.opensTo address port) →
          (openersOf maps address port others).map Handled.verdict =
            (openersOf maps address port packets).map
              Handled.verdict := by
  have independent (others : List Packet)
      (alike :
        others.filter (Packet.opensTo address port) =
          packets.filter (Packet.opensTo address port)) :
      (openersOf maps address port others).map Handled.verdict =
        (openersOf maps address port packets).map Handled.verdict := by
    have same : SameFor address port maps maps := ⟨SameRules.refl maps, rfl⟩
    rw [same.verdicts others, same.verdicts packets, alike]
  cases opened : opensFor maps address port with
  | false =>
      have noneAllowed {picked : Handled → Bool} :
          (openersOf maps address port packets).countP
            (fun handled => handled.allowed && picked handled) = 0 := by
        refine List.countP_eq_zero.mpr fun handled member => ?_
        rw [(allowed_of_closed opened member).1]
        exact Bool.false_ne_true
      exact ⟨fun start => noneAllowed.trans_le (Nat.zero_le _),
        fun start => noneAllowed.trans_le (Nat.zero_le _),
        fun _ handled member => (allowed_of_closed opened member).2,
        independent⟩
  | true =>
      have applies : Limited maps address port (ratePack max seconds) := by
        refine ⟨limited, ?_, opened⟩
        rw [BitVec.lt_def, toNat_count_ratePack]
        exact counts
      have recorded := records_of_room applies isNew evictsNothing
      have asUnrefused {picked : Handled → Bool} :
          (openersOf maps address port packets).countP
              (fun handled => handled.allowed && picked handled) =
            (openersOf maps address port packets).countP
              (fun handled => !handled.refused && picked handled) :=
        List.countP_congr fun handled member => by
          rw [allowed_of_open opened member]
      refine ⟨fun start => ?_, fun start => ?_, fun quiet handled member => ?_,
        independent⟩
      · rw [asUnrefused]
        exact countP_between_le recorded few ordered start
      · rw [asUnrefused]
        exact countP_window_le recorded few ordered start
      · exact unrefused_of_quiet recorded few ordered quiet member

/-- Port 22 is open, with two new connections a minute for each source. -/
def twoAMinute : KernelMaps :=
  { KernelMaps.fresh with
    tcpAllow := fun port => if port = 22 then 1 else 0
    tcpRate := fun port => if port = 22 then ratePack 2 60 else 0
    config := fun _ => 1 }

/-- An opener to port 22 at some second. -/
def openerAt (address : U32) (second : U64) : Packet where
  helpers := ⟨second * 1000000000, true, true⟩
  source := ⟨familyV4, address, 0⟩
  flow := ⟨protoTcp, 40000, 22, tcpFlagSyn, 0⟩
  toEveryone := false
  reply := false

/-- Three openers of one source in a minute, one of another in between. -/
def busyMinute : List Packet :=
  [openerAt 0x0a000005 1, openerAt 0x0a000006 2, openerAt 0x0a000005 3,
    openerAt 0x0a000005 4]

/-- The third opener of the busy source is refused, as without the other. -/
theorem third_opener_refused :
    (openersOf twoAMinute 0x0a000005 22 busyMinute).map Handled.verdict =
        [(true, .pass), (true, .pass), (false, .drop)] ∧
      ∀ start : Nat,
        (openersOf twoAMinute 0x0a000005 22 busyMinute).countP
          (fun handled =>
            handled.allowed &&
              handled.packet.isBetween start (windowLength 60)) ≤ 4 := by
  have few (start : U64) :
      (openersOf twoAMinute 0x0a000005 22 busyMinute).countP
        (fun handled =>
          handled.windowStart? 0x0a000005 22 = some start) < 2 ^ 32 := by
    have short :
        (openersOf twoAMinute 0x0a000005 22 busyMinute).length < 2 ^ 32 := by
      decide +kernel
    exact List.countP_le_length.trans_lt short
  have limited : twoAMinute.tcpRate 22 = ratePack 2 60 :=
    rfl
  have isNew : twoAMinute.rateState (rateKey 0x0a000005 22) = none :=
    rfl
  have ordered :
      busyMinute.Pairwise (fun first second => first.now ≤ second.now) := by
    decide +kernel
  have holds :=
    connection_limit_holds limited (by decide) isNew ordered (by decide) few
  exact ⟨by decide +kernel, holds.1⟩

end AiFirewall

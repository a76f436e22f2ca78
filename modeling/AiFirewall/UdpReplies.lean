import AiFirewall.StrictUdpRuns

namespace AiFirewall

/-!
# Replies to what this machine sent

A datagram that leaves the machine records a flow, and every later datagram of
that flow only pushes the expiry further out.  So the entry takes replies for
the whole lifetime of the flow, whatever else is sent or received meanwhile.
-/

/-- A key of either flow map. -/
inductive FlowKey where
  | v4 (flow : UdpFlow)
  | v6 (flow : UdpFlow6)

/-- The expiry recorded under a key. -/
def FlowKey.entry (maps : KernelMaps) : FlowKey → Option U64
  | .v4 flow => maps.udpFlows flow
  | .v6 flow => maps.udpFlows6 flow

/-- The flow an outgoing frame is recorded under, over either family. -/
def sentKey (frame : Frame) : Option FlowKey :=
  if frame.etherType = etherTypeIpv4 then
    (egressKey frame).map .v4
  else if frame.etherType = etherTypeIpv6 then
    (egressKey6 frame).map .v6
  else
    none

/-- An entry is in force at least up to the given time. -/
def OpenUntil (time : Nat) (entry : Option U64) : Prop :=
  ∃ expiry, entry = some expiry ∧ time ≤ expiry.toNat

/-- An insertion is accepted, and no entry is evicted. -/
def UdpStep.Lossless : UdpStep → Prop
  | .outgoing helpers _ => helpers.lruRoom = true
  | .incoming _ _ => True
  | .evict _ => False
  | .evict6 _ => False
  | .userspace _ => True

/-- The kernel keeps time as a signed count of nanoseconds. -/
def KernelTime (reading : U64) : Prop :=
  reading.toNat < 2 ^ 63

theorem OpenUntil.live
    {time : Nat}
    {entry : Option U64}
    {now : U64}
    (isOpen : OpenUntil time entry)
    (early : now.toNat < time) :
    live now entry = true := by
  obtain ⟨expiry, found, late⟩ := isOpen
  have ahead : now < expiry :=
    BitVec.lt_def.mpr (Nat.lt_of_lt_of_le early late)
  simp [AiFirewall.live, found, ahead]

/-- Kernel time leaves room for the lifetime of a flow. -/
theorem KernelTime.toNat_expiry
    {reading : U64}
    (inRange : KernelTime reading) :
    (reading + udpFlowTtlNs).toNat =
      reading.toNat + udpFlowTtlNs.toNat := by
  have lifetime : udpFlowTtlNs.toNat = 180000000000 := by
    rfl
  unfold KernelTime at inRange
  rw [BitVec.toNat_add, lifetime]
  exact Nat.mod_eq_of_lt (by omega)

/-- An outgoing frame renews an entry or leaves it as it was. -/
theorem tryEgress_entry
    (helpers : Helpers)
    (maps : KernelMaps)
    (frame : Frame)
    (key : FlowKey) :
    key.entry (tryEgress helpers maps frame) = key.entry maps ∨
      key.entry (tryEgress helpers maps frame) =
        some (helpers.now + udpFlowTtlNs) := by
  unfold tryEgress
  split
  · exact .inl rfl
  dsimp only
  split
  · cases egressKey frame with
    | none =>
        exact .inl rfl
    | some written =>
        by_cases room : helpers.lruRoom = true
        · simp only [room, if_true]
          cases key with
          | v4 flow =>
              by_cases same : flow = written
              · exact .inr (by simp [FlowKey.entry, same])
              · exact .inl (by simp [FlowKey.entry, same])
          | v6 flow =>
              exact .inl rfl
        · simp only [room]
          exact .inl rfl
  split
  · cases egressKey6 frame with
    | none =>
        exact .inl rfl
    | some written =>
        by_cases room : helpers.lruRoom = true
        · simp only [room, if_true]
          cases key with
          | v4 flow =>
              exact .inl rfl
          | v6 flow =>
              by_cases same : flow = written
              · exact .inr (by simp [FlowKey.entry, same])
              · exact .inl (by simp [FlowKey.entry, same])
        · simp only [room]
          exact .inl rfl
  · exact .inl rfl

/-- An accepted insertion is found under the frame's own key. -/
theorem tryEgress_sentKey
    {helpers : Helpers}
    {maps : KernelMaps}
    {frame : Frame}
    {key : FlowKey}
    (long : ethLen ≤ frame.length)
    (room : helpers.lruRoom = true)
    (recorded : sentKey frame = some key) :
    key.entry (tryEgress helpers maps frame) =
      some (helpers.now + udpFlowTtlNs) := by
  unfold sentKey at recorded
  rw [tryEgress, if_neg (Nat.not_lt.mpr long)]
  split at recorded
  · rename_i isIpv4
    obtain ⟨flow, read, rfl⟩ := Option.map_eq_some_iff.mp recorded
    simp [isIpv4, read, room, FlowKey.entry]
  split at recorded
  · rename_i notIpv4 isIpv6
    obtain ⟨flow, read, rfl⟩ := Option.map_eq_some_iff.mp recorded
    rw [if_neg notIpv4, if_pos isIpv6, read]
    simp [room, FlowKey.entry]
  · cases recorded

/-- A step that loses nothing leaves an entry alone, or renews it. -/
theorem UdpStep.apply_entry
    {step : UdpStep}
    (lossless : step.Lossless)
    (maps : KernelMaps)
    (key : FlowKey) :
    key.entry (step.apply maps) = key.entry maps ∨
      ∃ reading,
        step.clock? = some reading ∧
          key.entry (step.apply maps) =
            some (reading + udpFlowTtlNs) := by
  cases step with
  | outgoing helpers frame =>
      rcases tryEgress_entry helpers maps frame key with same | renewed
      · exact .inl same
      · exact .inr ⟨helpers.now, rfl, renewed⟩
  | incoming helpers frame =>
      left
      rw [UdpStep.apply, aiFirewall_counted helpers maps frame]
      cases key <;> rfl
  | evict flow =>
      exact lossless.elim
  | evict6 flow =>
      exact lossless.elim
  | userspace written =>
      left
      cases key <;> rfl

/-- An open entry stays open over every continuation of the run. -/
theorem OpenUntil.run
    {key : FlowKey}
    {since : Nat}
    {maps : KernelMaps}
    {later : List UdpStep}
    (isOpen :
      OpenUntil (since + udpFlowTtlNs.toNat) (key.entry maps))
    (lossless : ∀ step ∈ later, step.Lossless)
    (readings :
      ∀ step ∈ later, ∀ reading,
        step.clock? = some reading →
        since ≤ reading.toNat ∧ KernelTime reading) :
    OpenUntil (since + udpFlowTtlNs.toNat)
      (key.entry (Runs.run UdpStep.apply maps later)) := by
  induction later using List.reverseRecOn with
  | nil =>
      exact isOpen
  | append_singleton past step inductionHypothesis =>
      have before :=
        inductionHypothesis
          (fun event member =>
            lossless event (List.mem_append_left _ member))
          (fun event member =>
            readings event (List.mem_append_left _ member))
      rw [Runs.run_concat]
      rcases UdpStep.apply_entry (lossless step (by simp))
          (Runs.run UdpStep.apply maps past) key with
        same | ⟨reading, read, renewed⟩
      · rw [same]
        exact before
      · obtain ⟨notEarlier, inRange⟩ :=
          readings step (by simp) reading read
        refine ⟨_, renewed, ?_⟩
        rw [inRange.toNat_expiry]
        exact Nat.add_le_add_right notEarlier _

/-- The flow of a datagram is its own, or the wildcard of its port. -/
theorem egressKey_of_carries
    {sent : Frame}
    (carries : CarriesUdp sent) :
    egressKey sent =
      some
        (if toGroup sent then
          ⟨0, sent.udpSrcPort, 0⟩
        else
          ⟨sent.ipv4Dst, sent.udpSrcPort, sent.udpDstPort⟩) := by
  have headerLong := carries.headerLength
  have long := carries.long
  have notShort : ¬sent.length < ethLen + ipv4Len := by
    omega
  rw [egressKey, if_neg notShort, if_neg (not_not.mpr carries.proto),
    if_neg (Nat.not_lt.mpr headerLong)]
  dsimp only
  rw [if_neg (Nat.not_lt.mpr long)]
  split <;> rfl

theorem egressKey6_of_carries
    {sent : Frame}
    (carries : CarriesUdp6 sent) :
    egressKey6 sent =
      some
        (if toGroup6 sent then
          ⟨0, sent.udp6SrcPort, 0⟩
        else
          ⟨sent.ipv6Dst, sent.udp6SrcPort, sent.udp6DstPort⟩) := by
  have long := carries.long
  have notShort : ¬sent.length < ethLen + ipv6Len := by
    omega
  rw [egressKey6, if_neg notShort, if_neg (not_not.mpr carries.proto)]
  dsimp only
  rw [if_neg (Nat.not_lt.mpr long)]
  split <;> rfl

/--
A frame of a UDP packet from the remote end to the local port.  A header that
it shows is the packet's own; a later fragment shows none.
-/
structure AnswersFrom
    (remote : U32)
    (remotePort localPort : U16)
    (frame : Frame) : Prop where
  etherType : frame.etherType = etherTypeIpv4
  proto : frame.ipv4Proto = protoUdp
  source : frame.ipv4Src = remote
  ports :
    CarriesUdp frame →
      frame.udpSrcPort = remotePort ∧ frame.udpDstPort = localPort

/--
The same over IPv6.  The header after the fixed one is that of UDP, or an
extension that stands before it.
-/
structure AnswersFrom6
    (remote : BitVec 128)
    (remotePort localPort : U16)
    (frame : Frame) : Prop where
  etherType : frame.etherType = etherTypeIpv6
  notTcp : frame.ipv6NextHdr ≠ protoTcp
  notIcmp : frame.ipv6NextHdr ≠ ipProtoIcmpv6
  source : frame.ipv6Src = remote
  ports :
    CarriesUdp6 frame →
      frame.udp6SrcPort = remotePort ∧ frame.udp6DstPort = localPort

/-- The IPv4 source of a frame is banned, or in a feed. -/
def Unwelcome
    (helpers : Helpers)
    (maps : KernelMaps)
    (frame : Frame) : Prop :=
  live helpers.now (maps.blocklist.get? frame.ipv4Src) = true ∨
    maps.feeds.matchesAddress
      (triePrefix 32 (BitPrefix.bytes32 frame.ipv4Src)) = true

/-- The /64 of an IPv6 source is banned; feeds hold IPv4 networks only. -/
def Unwelcome6
    (helpers : Helpers)
    (maps : KernelMaps)
    (frame : Frame) : Prop :=
  live helpers.now (maps.blocklist6.get? frame.ipv6Prefix) = true

/-- What is allowed passes, enforced or not. -/
theorem policy_pass_of_allowed
    {helpers : Helpers}
    {maps : KernelMaps}
    {source : Source}
    {flow : Flow}
    {toEveryone reply : Bool}
    (allowed : (judge helpers maps source flow reply).allowed = true) :
    (policy helpers maps source flow toEveryone reply).1 = .pass := by
  cases action : (policy helpers maps source flow toEveryone reply).1 with
  | pass =>
      rfl
  | drop =>
      rw [(policy_drop_iff.mp action).1] at allowed
      cases allowed

/-- A packet that a live flow expects passes. -/
theorem policy_pass_of_reply
    {helpers : Helpers}
    {maps : KernelMaps}
    {source : Source}
    {flow : Flow}
    {toEveryone reply : Bool}
    (udp : flow.proto = protoUdp)
    (expected : reply = true) :
    (policy helpers maps source flow toEveryone reply).1 = .pass := by
  refine policy_pass_of_allowed ?_
  rw [judge_allowed_of_udp udp, expected]
  simp

/-- A frame that is cut short shows no UDP header. -/
theorem parseL4_of_cut
    {frame : Frame}
    {l4 : Nat}
    (cut : frame.length < l4 + udpLen) :
    parseL4 protoUdp frame l4 = none := by
  have notTcp : ¬protoUdp = protoTcp := by
    decide
  rw [parseL4, if_neg notTcp, if_pos rfl, if_pos cut]

theorem aiFirewall_pass_of_tried
    {helpers : Helpers}
    {maps : KernelMaps}
    {frame : Frame}
    (tried : (tryAiFirewall helpers maps frame).1 = .pass) :
    (aiFirewall helpers maps frame).1 = .pass := by
  unfold aiFirewall
  cases ran : tryAiFirewall helpers maps frame with
  | mk action after =>
      rw [ran] at tried
      cases tried
      rfl

section

variable
  {helpers : Helpers}
  {maps : KernelMaps}
  {frame : Frame}
  {remotePort localPort : U16}

/-- Every frame of an answer passes while a flow expects the answer. -/
theorem passes_of_live
    {remote : U32}
    (answers : AnswersFrom remote remotePort localPort frame)
    (welcome : ¬Unwelcome helpers maps frame)
    (expected :
      live helpers.now
          (maps.udpFlows ⟨remote, localPort, remotePort⟩) = true ∨
        live helpers.now (maps.udpFlows ⟨0, localPort, 0⟩) = true) :
    (aiFirewall helpers maps frame).1 = .pass := by
  obtain ⟨notBanned, notListed⟩ := not_or.mp welcome
  have notIcmp : ¬protoUdp = ipProtoIcmp := by
    decide
  refine aiFirewall_pass_of_tried ?_
  unfold tryAiFirewall
  split
  · rfl
  rw [if_pos answers.etherType]
  unfold tryIpv4
  split
  · rfl
  dsimp only
  rw [if_neg notBanned, if_neg notListed]
  split
  · rfl
  rename_i first
  split
  · rfl
  rename_i headerLong
  rw [answers.proto, if_neg notIcmp]
  rcases Nat.lt_or_ge frame.length (ethLen + frame.ihl + udpLen) with
    cut | long
  · rw [parseL4_of_cut cut]
  · obtain ⟨fromPort, toPort⟩ :=
      answers.ports
        ⟨answers.etherType, answers.proto, not_not.mp first,
          Nat.le_of_not_lt headerLong, long⟩
    rw [parseL4_udp long]
    refine policy_pass_of_reply rfl ?_
    rw [← answers.source, ← fromPort, ← toPort] at expected
    simpa [expectedReply, Frame.udpDstPort, Frame.udpSrcPort]
      using expected

theorem passes_of_live6
    {remote : BitVec 128}
    (answers : AnswersFrom6 remote remotePort localPort frame)
    (welcome : ¬Unwelcome6 helpers maps frame)
    (expected :
      live helpers.now
          (maps.udpFlows6 ⟨remote, localPort, remotePort⟩) = true ∨
        live helpers.now (maps.udpFlows6 ⟨0, localPort, 0⟩) = true) :
    (aiFirewall helpers maps frame).1 = .pass := by
  have notIpv4 : ¬etherTypeIpv6 = etherTypeIpv4 := by
    decide
  refine aiFirewall_pass_of_tried ?_
  unfold tryAiFirewall
  split
  · rfl
  rw [answers.etherType, if_neg notIpv4, if_pos rfl]
  unfold tryIpv6
  split
  · rfl
  unfold Unwelcome6 at welcome
  dsimp only
  rw [if_neg welcome, if_neg answers.notIcmp]
  by_cases isUdp : frame.ipv6NextHdr = protoUdp
  · rw [isUdp]
    rcases Nat.lt_or_ge frame.length (ethLen + ipv6Len + udpLen) with
      cut | long
    · rw [parseL4_of_cut cut]
    · obtain ⟨fromPort, toPort⟩ :=
        answers.ports ⟨answers.etherType, isUdp, long⟩
      rw [parseL4_udp long]
      refine policy_pass_of_reply rfl ?_
      rw [← answers.source, ← fromPort, ← toPort] at expected
      simpa [expectedReply6, Frame.udp6DstPort, Frame.udp6SrcPort]
        using expected
  · -- Behind an extension header no ports are read, and the packet passes.
    have shown :
        parseL4 frame.ipv6NextHdr frame (ethLen + ipv6Len) = none := by
      rw [parseL4, if_neg answers.notTcp, if_neg isUdp]
    rw [shown]

end

/-- The clock of a step between two others of an ordered run. -/
theorem reading_between
    {first last : U64}
    {opening closing : UdpStep}
    {between : List UdpStep}
    (ordered : Ordered (opening :: between ++ [closing]))
    (openedAt : opening.clock? = some first)
    (closedAt : closing.clock? = some last)
    {step : UdpStep}
    (member : step ∈ between)
    {reading : U64}
    (read : step.clock? = some reading) :
    first ≤ reading ∧ reading ≤ last := by
  have readMember : reading ∈ between.filterMap UdpStep.clock? :=
    List.mem_filterMap.mpr ⟨step, member, read⟩
  unfold Ordered at ordered
  rw [List.cons_append, List.filterMap_cons_some openedAt,
    List.filterMap_append, List.pairwise_cons,
    List.pairwise_append] at ordered
  obtain ⟨afterFirst, _, _, beforeLast⟩ := ordered
  exact
    ⟨afterFirst reading (List.mem_append_left _ readMember),
      beforeLast reading readMember last
        (List.mem_filterMap.mpr
          ⟨closing, List.mem_singleton.mpr rfl, closedAt⟩)⟩

/-- The flow of a sent datagram is live until its lifetime is over. -/
theorem live_of_sent
    (start : KernelMaps)
    {sentHelpers helpers : Helpers}
    {sent frame : Frame}
    {between : List UdpStep}
    {key : FlowKey}
    (recorded : sentKey sent = some key)
    (long : ethLen ≤ sent.length)
    (lossless :
      ∀ step ∈ UdpStep.outgoing sentHelpers sent :: between,
        step.Lossless)
    (ordered :
      Ordered
        (.outgoing sentHelpers sent :: between ++
          [.incoming helpers frame]))
    (clock : KernelTime helpers.now)
    (soon :
      helpers.now.toNat <
        sentHelpers.now.toNat + udpFlowTtlNs.toNat) :
    live helpers.now
        (key.entry
          (Runs.run UdpStep.apply start
            (.outgoing sentHelpers sent :: between))) =
      true := by
  have inRange {reading : U64} (early : reading ≤ helpers.now) :
      KernelTime reading :=
    Nat.lt_of_le_of_lt (BitVec.le_def.mp early) clock
  have sentEarlier : sentHelpers.now ≤ helpers.now :=
    sent_before ordered (List.mem_cons_self ..)
  have opened :
      OpenUntil (sentHelpers.now.toNat + udpFlowTtlNs.toNat)
        (key.entry (tryEgress sentHelpers start sent)) := by
    refine
      ⟨_, tryEgress_sentKey long (lossless _ (List.mem_cons_self ..))
        recorded, ?_⟩
    rw [(inRange sentEarlier).toNat_expiry]
  have kept :=
    opened.run (fun step member => lossless step (.tail _ member))
      fun step member reading read => by
        obtain ⟨notEarlier, early⟩ :=
          reading_between ordered rfl rfl member read
        exact ⟨BitVec.le_def.mp notEarlier, inRange early⟩
  exact kept.live soon

/--
Every answer to a datagram that this machine sent passes within the lifetime
of its flow, whatever else was sent or received in between; and everything
sent to the port passes if the datagram went to a group.
-/
theorem replies_get_in
    {start maps : KernelMaps}
    {sentHelpers helpers : Helpers}
    {sent frame : Frame}
    {between : List UdpStep}
    (reached :
      maps =
        Runs.run UdpStep.apply start
          (.outgoing sentHelpers sent :: between))
    (lossless :
      ∀ step ∈ UdpStep.outgoing sentHelpers sent :: between,
        step.Lossless)
    (ordered :
      Ordered
        (.outgoing sentHelpers sent :: between ++
          [.incoming helpers frame]))
    (clock : KernelTime helpers.now)
    (soon :
      helpers.now.toNat <
        sentHelpers.now.toNat + udpFlowTtlNs.toNat) :
    (CarriesUdp sent → ¬Unwelcome helpers maps frame →
      (AnswersFrom sent.ipv4Dst sent.udpDstPort sent.udpSrcPort frame →
        (aiFirewall helpers maps frame).1 = .pass) ∧
      (toGroup sent = true →
        ∀ remote remotePort,
          AnswersFrom remote remotePort sent.udpSrcPort frame →
            (aiFirewall helpers maps frame).1 = .pass)) ∧
    (CarriesUdp6 sent → ¬Unwelcome6 helpers maps frame →
      (AnswersFrom6 sent.ipv6Dst sent.udp6DstPort sent.udp6SrcPort
          frame →
        (aiFirewall helpers maps frame).1 = .pass) ∧
      (toGroup6 sent = true →
        ∀ remote remotePort,
          AnswersFrom6 remote remotePort sent.udp6SrcPort frame →
            (aiFirewall helpers maps frame).1 = .pass)) := by
  subst reached
  constructor
  · intro carries welcome
    have long : ethLen ≤ sent.length := by
      have := carries.long
      omega
    have recorded := egressKey_of_carries carries
    have isSent (flow : UdpFlow) (read : egressKey sent = some flow) :
        sentKey sent = some (.v4 flow) := by
      rw [sentKey, if_pos carries.etherType, read]
      rfl
    cases group : toGroup sent with
    | true =>
        rw [group] at recorded
        have alive :=
          live_of_sent start (isSent _ recorded) long lossless
            ordered clock soon
        exact
          ⟨fun answers => passes_of_live answers welcome (.inr alive),
            fun _ _ _ answers =>
              passes_of_live answers welcome (.inr alive)⟩
    | false =>
        rw [group] at recorded
        have alive :=
          live_of_sent start (isSent _ recorded) long lossless
            ordered clock soon
        exact
          ⟨fun answers => passes_of_live answers welcome (.inl alive),
            fun isGroup => by cases isGroup⟩
  · intro carries welcome
    have long : ethLen ≤ sent.length := by
      have := carries.long
      omega
    have notIpv4 : ¬etherTypeIpv6 = etherTypeIpv4 := by
      decide
    have recorded := egressKey6_of_carries carries
    have isSent (flow : UdpFlow6) (read : egressKey6 sent = some flow) :
        sentKey sent = some (.v6 flow) := by
      rw [sentKey, carries.etherType, if_neg notIpv4, if_pos rfl, read]
      rfl
    cases group : toGroup6 sent with
    | true =>
        rw [group] at recorded
        have alive :=
          live_of_sent start (isSent _ recorded) long lossless
            ordered clock soon
        exact
          ⟨fun answers => passes_of_live6 answers welcome (.inr alive),
            fun _ _ _ answers =>
              passes_of_live6 answers welcome (.inr alive)⟩
    | false =>
        rw [group] at recorded
        have alive :=
          live_of_sent start (isSent _ recorded) long lossless
            ordered clock soon
        exact
          ⟨fun answers => passes_of_live6 answers welcome (.inl alive),
            fun isGroup => by cases isGroup⟩

/-- A query from port 12345 to port 53. -/
def query : Frame :=
  udpFrame 0 5 9 [0x30, 0x39, 0, 53, 0, 8, 0, 0]

/-- The same query again, and a stray packet. -/
def meanwhile : List UdpStep :=
  [.outgoing (atSecond 60) query,
    .incoming (atSecond 90)
      (udpFrame 0 8 5 [0, 99, 0x30, 0x39, 0, 8, 0, 0])]

def busyRun : List UdpStep :=
  .outgoing (atSecond 1) query :: meanwhile

/-- The answer gets in just before three minutes have gone by. -/
theorem late_answer_gets_in :
    (aiFirewall (atSecond 180)
        (Runs.run UdpStep.apply strictMaps busyRun) packetIn).1 =
      .pass := by
  have lossless : ∀ step ∈ busyRun, step.Lossless := by
    simp [busyRun, meanwhile, UdpStep.Lossless, atSecond]
  have ordered :
      Ordered (busyRun ++ [.incoming (atSecond 180) packetIn]) := by
    unfold Ordered
    decide +kernel
  have clock : KernelTime (atSecond 180).now := by
    unfold KernelTime
    decide +kernel
  have soon :
      (atSecond 180).now.toNat <
        (atSecond 1).now.toNat + udpFlowTtlNs.toNat := by
    decide +kernel
  have carries : CarriesUdp query :=
    ⟨by decide, by decide, by decide, by decide, by decide⟩
  have welcome :
      ¬Unwelcome (atSecond 180)
        (Runs.run UdpStep.apply strictMaps busyRun) packetIn := by
    unfold Unwelcome
    decide +kernel
  have answers :
      AnswersFrom query.ipv4Dst query.udpDstPort query.udpSrcPort
        packetIn :=
    ⟨by decide, by decide, by decide, fun _ => by decide⟩
  exact
    ((replies_get_in rfl lossless ordered clock soon).1 carries
      welcome).1 answers

end AiFirewall

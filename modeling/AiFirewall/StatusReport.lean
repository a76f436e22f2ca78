import AiFirewall.CutOff
import AiFirewall.Feeds
import AiFirewall.Links
import AiFirewall.RebootedBans

namespace AiFirewall

/-!
# The status file

Every few seconds the daemon writes down what it is doing, for the dashboard
and the live tests.  The list of bans there is what the kernel program acts
on: it has exactly the sources whose packets are dropped for a ban, each
once, with the seconds that are left.
-/

/-- A ban as the status file shows it. -/
structure StatusBan where
  ip : Src
  remainingSecs : U64
  reason : String
  source : String
  strikes : U32
  deriving Repr, DecidableEq

/-- What the daemon writes down of itself. -/
structure Status (Score : Type) where
  pid : U32
  mode : String
  interface : Option String
  xdpMode : Option String
  udpStrict : Bool
  startedUnix : U64
  updatedUnix : U64
  attaches : U64
  passed : U64
  droppedBlocklist : U64
  droppedPolicy : U64
  droppedFeed : U64
  eventsLost : U64
  trackedSources : Nat
  allowTcp : List String
  allowUdp : List String
  ping : Bool
  profile : Option String
  profiles : List String
  rules : List String
  feeds : List Feeds.FeedState
  feedNetworks : Nat
  configError : Option String
  posture : Option String
  postureError : Option String
  bans : List StatusBan
  recent : List (RecentBan Score)

/-- The order of sources: IPv4 before IPv6, then by number. -/
def Src.before : Src → Src → Bool
  | .v4 first, .v4 second => first ≤ second
  | .v4 _, .v6 _ => true
  | .v6 _, .v4 _ => false
  | .v6 first, .v6 second => first ≤ second

/-- The entry of the list for a ban that runs. -/
def Shared.statusBan
    {Score : Type}
    (host : Host)
    (shared : Shared Score)
    (entry : Src × U64) : Option StatusBan :=
  let record := (shared.records.lookup entry.1).getD manualRecord
  (remaining host entry.2).map fun left =>
    { ip := entry.1
      remainingSecs := left
      reason := record.reason
      source := record.source
      strikes := record.strikes }

/-- The bans of the status file, in the order of their sources. -/
def Shared.statusBans
    {Score : Type}
    (host : Host)
    (shared : Shared Score) : List StatusBan :=
  (shared.blocklist.entries.filterMap
    (shared.statusBan host)).insertionSort
      fun first second => first.ip.before second.ip

/-- The ports that are shown as open: those of the DHCP client always. -/
def Policy.shownUdp (policy : Policy) : List String :=
  (dhcpClientPorts.map fun port => Nat.repr port.toNat).foldl
    (fun shown dhcp => if dhcp ∈ shown then shown else shown ++ [dhcp])
    (policy.allowUdp.map PortSpec.label)

/-- `build_status`, with the daemon's process and its counters. -/
def buildStatus
    {Score : Type}
    (host : Host)
    (pid : U32)
    (cfg : Config)
    (policy : Policy)
    (feedStates : List Feeds.FeedState)
    (feedNetworks : Nat)
    (shared : Shared Score)
    (stats : Fin 5 → U64)
    (attachment : Option Attachment)
    (started attaches : U64) : Status Score where
  pid := pid
  mode := cfg.mode
  interface := attachment.map Attachment.iface
  xdpMode := attachment.map Attachment.mode
  udpStrict := cfg.udpStrict && attachment.any Attachment.egress
  startedUnix := started
  updatedUnix := host.unixSecs
  attaches := attaches
  passed := stats statPassed
  droppedBlocklist := stats statDropBlocklist
  droppedPolicy := stats statDropPolicy
  droppedFeed := stats statDropFeed
  eventsLost := stats statEventsLost
  trackedSources := Table.size shared.detector.tracks
  allowTcp := policy.allowTcp.map PortSpec.label
  allowUdp := policy.shownUdp
  ping := policy.allowPing
  profile := policy.profile
  profiles := cfg.profiles.map Prod.fst
  rules := policy.rules.map Rule.label
  feeds := feedStates
  feedNetworks := feedNetworks
  configError := none
  posture := cfg.posture
  postureError := none
  bans := shared.statusBans host
  recent := shared.recent

section

variable
  {Score : Type}
  {host : Host}
  {shared : Shared Score}
  {source : Src}

theorem Src.before_total (first second : Src) :
    first.before second = true ∨ second.before first = true := by
  cases first <;> cases second <;> simp [before, BitVec.le_total]

theorem Src.before_trans
    {first second third : Src}
    (earlier : first.before second = true)
    (later : second.before third = true) :
    first.before third = true := by
  cases first <;> cases second <;> cases third <;>
    simp_all [before]
  · exact BitVec.le_trans earlier later
  · exact BitVec.le_trans earlier later

/-- The list has the bans that run, with their ends and their records. -/
theorem Shared.mem_statusBans {ban : StatusBan} :
    ban ∈ shared.statusBans host ↔
      ∃ expiry,
        shared.blocklist.lookup ban.ip = some expiry ∧
          remaining host expiry = some ban.remainingSecs ∧
          BanRecord.mk ban.reason ban.source ban.strikes =
            (shared.records.lookup ban.ip).getD manualRecord := by
  rw [statusBans, List.mem_insertionSort, List.mem_filterMap]
  constructor
  · rintro ⟨⟨ip, expiry⟩, listed, isBan⟩
    obtain ⟨left, isLeft, rfl⟩ := Option.map_eq_some_iff.mp isBan
    exact ⟨expiry, Blocklist.mem_entries.mp listed, isLeft, rfl⟩
  · rintro ⟨expiry, present, isLeft, isRecord⟩
    refine ⟨(ban.ip, expiry), Blocklist.mem_entries.mpr present, ?_⟩
    rw [statusBan, ← isRecord, isLeft]
    rfl

/-- A source is listed while its ban runs. -/
theorem Shared.listed_iff :
    source ∈ (shared.statusBans host).map StatusBan.ip ↔
      live host.bootNs (shared.blocklist.lookup source) = true := by
  rw [List.mem_map]
  constructor
  · rintro ⟨ban, listed, rfl⟩
    obtain ⟨expiry, present, isLeft, _⟩ := mem_statusBans.mp listed
    rw [present, live_iff_remaining, isLeft]
    exact Option.some_ne_none _
  · intro runs
    cases present : shared.blocklist.lookup source with
    | none =>
        rw [present] at runs
        cases runs
    | some expiry =>
        rw [present, live_iff_remaining] at runs
        obtain ⟨left, isLeft⟩ := Option.ne_none_iff_exists'.mp runs
        let record := (shared.records.lookup source).getD manualRecord
        exact ⟨⟨source, left, record.reason, record.source, record.strikes⟩,
          mem_statusBans.mpr ⟨expiry, present, isLeft, rfl⟩, rfl⟩

theorem Shared.statusBan_sublist (entries : List (Src × U64)) :
    List.Sublist
      ((entries.filterMap (shared.statusBan host)).map StatusBan.ip)
      (entries.map Prod.fst) := by
  induction entries with
  | nil =>
      exact List.Sublist.slnil
  | cons entry rest inductionHypothesis =>
      rw [List.filterMap_cons]
      cases isBan : shared.statusBan host entry with
      | none =>
          exact inductionHypothesis.cons entry.1
      | some ban =>
          obtain ⟨left, _, rfl⟩ := Option.map_eq_some_iff.mp isBan
          exact inductionHypothesis.cons_cons entry.1

/-- The sources of the list stand in order, each once. -/
theorem Shared.statusBans_sorted :
    ((shared.statusBans host).map StatusBan.ip).Pairwise
      (fun first second => first.before second = true ∧ first ≠ second) := by
  have total :
      Std.Total fun first second : StatusBan =>
        first.ip.before second.ip = true :=
    ⟨fun first second => Src.before_total first.ip second.ip⟩
  have trans :
      IsTrans StatusBan fun first second =>
        first.ip.before second.ip = true :=
    ⟨fun _ _ _ earlier later => Src.before_trans earlier later⟩
  have sorted :
      (shared.statusBans host).Pairwise
        (fun first second => first.ip.before second.ip = true) :=
    List.pairwise_insertionSort _ _
  have once : ((shared.statusBans host).map StatusBan.ip).Nodup :=
    ((List.perm_insertionSort _ _).map _).nodup_iff.mpr
      ((Shared.statusBan_sublist _).nodup
        shared.blocklist.nodup_entries)
  rw [List.pairwise_map]
  refine List.Pairwise.and sorted ?_
  exact List.pairwise_map.mp once

end

namespace BlocklistCount

/-- What leaves the counter of the blocklist as it is. -/
def Spares (maps : KernelMaps) (result : XdpAction × KernelMaps) : Prop :=
  result.2.stats statDropBlocklist = maps.stats statDropBlocklist

section

variable
  {helpers : Helpers}
  {maps : KernelMaps}
  {frame : Frame}

theorem spares_nothing (action : XdpAction) (maps : KernelMaps) :
    Spares maps (action, maps) :=
  rfl

theorem spares_bump
    {slot : Fin 5}
    (other : statDropBlocklist ≠ slot)
    (action : XdpAction)
    (maps : KernelMaps) :
    Spares maps (action, bump slot maps) :=
  Function.update_of_ne other _ _

theorem icmpVerdict_spares (l4 : Nat) (echoRequest : U8) :
    Spares maps (icmpVerdict maps frame l4 echoRequest) := by
  unfold icmpVerdict
  split
  · exact spares_nothing _ _
  · split
    · exact spares_bump (by decide) _ _
    · exact spares_nothing _ _

theorem policy_spares
    (source : Source)
    (flow : Flow)
    (toEveryone reply : Bool) :
    Spares maps (policy helpers maps source flow toEveryone reply) := by
  obtain ⟨sameStats, _⟩ :=
    PacketTotals.judge_uncounted helpers maps source flow reply
  unfold policy
  dsimp only
  generalize judge helpers maps source flow reply = judgement at sameStats ⊢
  have reported :
      (if judgement.interesting && !toEveryone then
          report helpers source flow judgement.allowed judgement.maps
        else
          judgement.maps).stats statDropBlocklist =
        maps.stats statDropBlocklist := by
    rw [← sameStats]
    split
    · unfold report
      split
      · rfl
      · exact spares_bump (by decide) .pass _
    · rfl
  split
  · exact (spares_bump (by decide) .drop _).trans reported
  · exact reported

theorem parsed_spares
    {proto : U8}
    {l4 : Nat}
    (source : Source)
    (expected : Flow → Bool) :
    Spares maps
      (match parseL4 proto frame l4 with
      | none => (.pass, maps)
      | some flow =>
          policy helpers maps source flow frame.toEveryone
            (expected flow)) := by
  cases parseL4 proto frame l4 with
  | none => exact spares_nothing _ _
  | some flow => exact policy_spares source flow _ _

/-- Only a ban makes the program count a drop of the blocklist. -/
theorem tryAiFirewall_spares
    (unbanned :
      ∀ version, frame.ipVersion? = some version →
        live helpers.now (maps.banEnd? (frame.src version)) = false) :
    Spares maps (tryAiFirewall helpers maps frame) := by
  unfold tryAiFirewall
  split
  · exact spares_nothing _ _
  split
  · rename_i isV4
    unfold tryIpv4
    split
    · exact spares_nothing _ _
    · rename_i long
      have shows : frame.ipVersion? = some .v4 := by
        rw [Frame.ipVersion?, if_pos isV4,
          if_pos (Nat.le_of_not_lt long)]
      have notBanned :
          ¬live helpers.now (maps.blocklist.get? frame.ipv4Src) = true :=
        Bool.eq_false_iff.mp (unbanned .v4 shows)
      dsimp only
      rw [if_neg notBanned]
      split
      · exact spares_bump (by decide) _ _
      split
      · exact spares_nothing _ _
      split
      · exact spares_nothing _ _
      split
      · exact icmpVerdict_spares _ _
      · exact parsed_spares _ _
  split
  · rename_i notV4 isV6
    unfold tryIpv6
    split
    · exact spares_nothing _ _
    · rename_i long
      have shows : frame.ipVersion? = some .v6 := by
        rw [Frame.ipVersion?, if_neg notV4, if_pos isV6,
          if_pos (Nat.le_of_not_lt long)]
      have notBanned :
          ¬live helpers.now (maps.blocklist6.get? frame.ipv6Prefix) =
            true :=
        Bool.eq_false_iff.mp (unbanned .v6 shows)
      dsimp only
      rw [if_neg notBanned]
      split
      · exact icmpVerdict_spares _ _
      · exact parsed_spares _ _
  · exact spares_nothing _ _

/-- A frame is dropped for a ban when one of its source runs. -/
theorem dropped_iff
    {version : IpVersion}
    (shows : frame.ipVersion? = some version) :
    aiFirewall helpers maps frame = (.drop, bump statDropBlocklist maps) ↔
      live helpers.now (maps.banEnd? (frame.src version)) = true := by
  constructor
  · intro dropped
    by_contra notBanned
    have spared : Spares maps (tryAiFirewall helpers maps frame) :=
      tryAiFirewall_spares fun other isOther => by
        obtain rfl := Option.some.inj (shows.symm.trans isOther)
        exact Bool.eq_false_iff.mpr notBanned
    have isTried :
        tryAiFirewall helpers maps frame =
          (.drop, bump statDropBlocklist maps) := by
      unfold aiFirewall at dropped
      generalize tryAiFirewall helpers maps frame = tried at dropped ⊢
      obtain ⟨action, after⟩ := tried
      cases action with
      | pass => cases congrArg Prod.fst dropped
      | drop => exact dropped
    rw [isTried] at spared
    have same :
        maps.stats statDropBlocklist + 1 = maps.stats statDropBlocklist :=
      (Function.update_self statDropBlocklist _ maps.stats).symm.trans spared
    generalize maps.stats statDropBlocklist = count at same
    have values := congrArg BitVec.toNat same
    rw [BitVec.toNat_add] at values
    have bound := count.isLt
    have one : (1 : U64).toNat = 1 := rfl
    omega
  · exact aiFirewall_of_banned shows

end

end BlocklistCount

/-- What the seconds that are left say about the end of a ban. -/
theorem live_of_remaining
    {host : Host}
    {expiry left now : U64}
    (runs : remaining host expiry = some left) :
    (left = 0 ∨
        now.toNat + 1000000000 ≤
          host.bootNs.toNat + left.toNat * 1000000000 →
      live now (some expiry) = true) ∧
      (left ≠ 0 →
        host.bootNs.toNat + left.toNat * 1000000000 ≤ now.toNat →
          live now (some expiry) = false) := by
  by_cases forever : expiry = banForever
  · subst forever
    rw [remaining, if_pos rfl] at runs
    obtain rfl := Option.some.inj runs
    exact ⟨fun _ => rfl, fun lasting => absurd rfl lasting⟩
  · obtain ⟨ahead, rounded⟩ := toNat_remaining forever runs
    rw [BitVec.lt_def] at ahead
    have notZero : left ≠ 0 := by
      rintro rfl
      have zero : (0 : U64).toNat = 0 := rfl
      omega
    constructor
    · rintro (isZero | early)
      · exact absurd isZero notZero
      · have before : now < expiry := by
          rw [BitVec.lt_def]
          omega
        rw [live, decide_eq_true before, Bool.or_true]
    · intro _ late
      have after : ¬now < expiry := by
        rw [BitVec.lt_def]
        omega
      rw [live, decide_eq_false after, decide_eq_false forever]
      rfl

/-- What `build_status` is given beside the daemon's shared state. -/
structure StatusInput where
  host : Host
  pid : U32
  cfg : Config
  policy : Policy
  feedStates : List Feeds.FeedState
  feedNetworks : Nat
  attachment : Option Attachment
  started : U64
  attaches : U64

namespace Site

/-- The status of a site at some time. -/
def status
    {Score : Type}
    (site : Site Score)
    (input : StatusInput) : Status Score :=
  buildStatus input.host input.pid input.cfg input.policy input.feedStates
    input.feedNetworks site.system.world.shared site.others.stats
    input.attachment input.started input.attaches

section

variable
  {Score : Type}
  {site : Site Score}

/-- With both ban maps the program finds what the daemon's list has. -/
theorem banEnd?_maps
    (both : site.system.world.shared.blocklist.v6.isSome = true)
    {maps : KernelMaps}
    (sameV4 : maps.blocklist = site.maps.blocklist)
    (sameV6 : maps.blocklist6 = site.maps.blocklist6)
    (source : Src) :
    maps.banEnd? source =
      site.system.world.shared.blocklist.lookup source := by
  cases source with
  | v4 ip =>
      rw [KernelMaps.banEnd?, sameV4]
      rfl
  | v6 networkPrefix =>
      obtain ⟨map, isMap⟩ := Option.isSome_iff_exists.mp both
      rw [KernelMaps.banEnd?, sameV6]
      show
        (site.system.world.shared.blocklist.v6.getD
          site.others.blocklist6).get? networkPrefix =
          site.system.world.shared.blocklist.v6.bind fun map =>
            map.get? networkPrefix
      rw [isMap]
      rfl

/--
The bans of the status file are those that the program acts on.  They stand
in order, each source once; when the file is written, a frame is dropped for
a ban exactly when its source is listed; and with whatever other maps, as long
as nobody writes to the ban maps, a listed source stays shut for the seconds
that are shown, or for ever with none shown, and no longer.
-/
theorem status_lists_cut_off
    (both : site.system.world.shared.blocklist.v6.isSome = true)
    (input : StatusInput) :
    let host := input.host
    let status := site.status input
    (status.bans.map StatusBan.ip).Pairwise
        (fun first second =>
          first.before second = true ∧ first ≠ second) ∧
      ∀ maps : KernelMaps,
        maps.blocklist = site.maps.blocklist →
        maps.blocklist6 = site.maps.blocklist6 →
        ∀ helpers frame version,
        frame.ipVersion? = some version →
        let dropped :=
          aiFirewall helpers maps frame =
            (.drop, bump statDropBlocklist maps)
        (helpers.now = host.bootNs →
          (dropped ↔
            frame.src version ∈ status.bans.map StatusBan.ip)) ∧
          ∀ ban ∈ status.bans,
            ban.ip = frame.src version →
            (ban.remainingSecs = 0 ∨
                helpers.now.toNat + 1000000000 ≤
                  host.bootNs.toNat +
                    ban.remainingSecs.toNat * 1000000000 →
              dropped) ∧
              (ban.remainingSecs ≠ 0 →
                host.bootNs.toNat +
                    ban.remainingSecs.toNat * 1000000000 ≤
                  helpers.now.toNat →
                ¬dropped) := by
  intro host status
  refine ⟨Shared.statusBans_sorted, ?_⟩
  intro maps sameV4 sameV6 helpers frame version shows dropped
  have droppedIff :
      dropped ↔
        live helpers.now
          (site.system.world.shared.blocklist.lookup
            (frame.src version)) = true := by
    rw [← banEnd?_maps both sameV4 sameV6]
    exact BlocklistCount.dropped_iff shows
  refine ⟨fun atOnce => ?_, fun ban listed isOwn => ?_⟩
  · rw [droppedIff, atOnce]
    exact Shared.listed_iff.symm
  · obtain ⟨expiry, present, isLeft, _⟩ := Shared.mem_statusBans.mp listed
    obtain ⟨early, late⟩ := live_of_remaining isLeft
    rw [droppedIff, ← isOwn, present]
    exact ⟨early, fun lasting isLate =>
      Bool.eq_false_iff.mp (late lasting isLate)⟩

end

/-- The third scan's second. -/
def scanStatus : StatusInput where
  host := clockedHost 1000 1000000
  pid := 1
  cfg := .default
  policy := Config.default.policy none
  feedStates := []
  feedNetworks := 0
  attachment := none
  started := 0
  attaches := 1

/-- The list shows two minutes for the source that was just banned, and one
frame after the other gets nowhere until they are over. -/
theorem justBanned_listed :
    ((justBanned.status scanStatus).bans.map fun ban =>
        (ban.ip, ban.remainingSecs)) =
        [(.v4 0x0a000005, 120)] ∧
      let later := bump statDropBlocklist justBanned.maps
      aiFirewall ⟨1000000000000, true, true⟩ justBanned.maps sshOpener =
          (.drop, later) ∧
        aiFirewall ⟨1119000000000, true, true⟩ later sshOpener =
          (.drop, bump statDropBlocklist later) ∧
        aiFirewall ⟨1120000000000, true, true⟩ later sshOpener ≠
          (.drop, bump statDropBlocklist later) := by
  have both :
      justBanned.system.world.shared.blocklist.v6.isSome = true := by
    decide +kernel
  have isOnly :
      (justBanned.status scanStatus).bans.map
          (fun ban => (ban.ip, ban.remainingSecs)) =
        [(.v4 0x0a000005, 120)] := by
    decide +kernel
  obtain ⟨ban, listed, isBan⟩ :
      ∃ ban ∈ (justBanned.status scanStatus).bans,
        (ban.ip, ban.remainingSecs) = (Src.v4 0x0a000005, (120 : U64)) := by
    rw [← List.mem_map, isOnly]
    exact List.mem_singleton_self _
  obtain ⟨isSource, isLeft⟩ := Prod.mk.inj isBan
  refine ⟨isOnly, ?_⟩
  intro later
  have isShown : sshOpener.ipVersion? = some .v4 := by
    decide +kernel
  have isOwn : ban.ip = sshOpener.src .v4 :=
    isSource.trans (by decide +kernel)
  have lists := (status_lists_cut_off both scanStatus).2
  have atOnce :=
    (lists justBanned.maps rfl rfl ⟨1000000000000, true, true⟩ sshOpener .v4
      isShown).1 (by decide +kernel)
  have shown (helpers : Helpers) :=
    (lists later rfl rfl helpers sshOpener .v4 isShown).2 ban listed isOwn
  rw [isLeft] at shown
  refine ⟨atOnce.mpr (List.mem_map.mpr ⟨ban, listed, isOwn⟩),
    (shown _).1 (.inr (by decide)), (shown _).2 (by decide) (by decide)⟩

end Site

end AiFirewall

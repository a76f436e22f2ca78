import AiFirewall.FeedCapacity
import AiFirewall.HostNetworks
import AiFirewall.RestartRestore

namespace AiFirewall

/-!
# Feeds and the addresses the machine depends on

The detector reads the protected addresses every minute, the feeds only when
they are loaded.  A list is cleared of what was protected at that time; an
address that comes later is cut off when a loaded network contains it.
-/

/-- The daemon with its feeds. -/
structure FeedDaemon (Score : Type) where
  system : System Score
  feeds : FeedTable
  /-- What was protected at the last `apply_feeds`; nothing reads it. -/
  sparedBy : List Cidr

/-- Something that happens to the daemon and its feeds. -/
inductive FeedEvent where
  /-- Anything but a reload. -/
  | daemon (event : DaemonEvent)
  /-- A reload, as far as `apply_feeds`; its refresh comes next. -/
  | reload
      (attempt : Attempt)
      (cfg : Config)
      (profile : Option String)
      (host : HostNetworks)
      (cache : Feeds.Cache)
      (order : IterOrder)
  /-- The cached lists are loaded: at the end of the start, and later. -/
  | loadFeeds
      (host : HostNetworks)
      (results : List (String × Option String))
      (cache : Feeds.Cache)
      (order : IterOrder)

namespace FeedDaemon

section

variable {Score : Type}

/-- `apply_feeds`, with what it protects noted down. -/
def loadFeeds
    (daemon : FeedDaemon Score)
    (input : FeedInput) : FeedDaemon Score :=
  { daemon with
    feeds := (applyFeeds input daemon.feeds).1
    sparedBy := input.protectedNets }

/-- A reload; a configuration that cannot be applied loads no feeds. -/
def reload
    (attempt : Attempt)
    (cfg : Config)
    (profile : Option String)
    (input : FeedInput)
    (daemon : FeedDaemon Score) : FeedDaemon Score :=
  match
      (applyConfig attempt cfg (cfg.policy profile)).run
        daemon.system.world with
  | .ok _ world =>
      { daemon with
        system :=
          { daemon.system with
            world := world
            phase := .running cfg } }.loadFeeds input
  | .error _ world =>
      { daemon with system := { daemon.system with world := world } }

variable [ScoreArith Score]

def step
    (daemon : FeedDaemon Score)
    (event : FeedEvent) : FeedDaemon Score :=
  match event, daemon.system.phase with
  | .daemon (.reload ..), _ => daemon
  | .daemon (.boot attempt cfg profile), .stopped =>
      -- `FEEDS` is not pinned: a new daemon loads a new map.
      { system := daemon.system.step (.boot attempt cfg profile)
        feeds := .fresh
        sparedBy := [] }
  | .daemon event, _ =>
      { daemon with system := daemon.system.step event }
  | .reload attempt cfg profile host cache order, .running _ =>
      daemon.reload attempt cfg profile
        ⟨cfg, host.autoProtected, [], cache, order⟩
  | .loadFeeds host results cache order, .running cfg =>
      daemon.loadFeeds ⟨cfg, host.autoProtected, results, cache, order⟩
  | _, _ => daemon

/-- What an event makes the detector protect, if it is a refresh. -/
def refreshes
    (daemon : FeedDaemon Score)
    (event : FeedEvent) : Option (List Cidr) :=
  let trusted (cfg : Config) : List Cidr :=
    match cfg.trustedCidrs with
    | .ok cidrs => cidrs
    | .error _ => []
  match event, daemon.system.phase with
  | .daemon (.restored _ autoProtected _), .starting cfg [] =>
      some (autoProtected ++ trusted cfg)
  | .daemon (.refresh _ autoProtected _), .running cfg =>
      some (autoProtected ++ trusted cfg)
  | _, _ => none

/-- The kernel drops nothing from an address that the detector protects. -/
def Spares (daemon : FeedDaemon Score) : Prop :=
  ∀ ip : U32,
    daemon.system.world.shared.detector.isProtected (.v4 ip) = true →
    daemon.feeds.trie.matchesAddress
        (triePrefix 32 (BitPrefix.bytes32 ip)) = false

/-- No loaded network has an address that was not protected when loaded. -/
def ClearOf (daemon : FeedDaemon Score) (protectedNow : List Cidr) : Prop :=
  ∀ ip : U32,
    (∃ net ∈ protectedNow, net.contains ip = true) →
    (∀ net ∈ daemon.sparedBy, net.contains ip = false) →
    ∀ net : Cidr,
      (net.net, net.mask) ∈ daemon.feeds.nets →
      feedKey (net.net, net.mask) ∈ daemon.feeds.trie.prefixes →
      net.contains ip = false

/-- The loaded networks touch nothing that was protected when loaded. -/
structure Cleared (daemon : FeedDaemon Score) : Prop where
  within : daemon.feeds.Within
  spared : ∀ net ∈ daemon.sparedBy, net.WellFormed
  loaded :
    ∀ net : Cidr,
      (net.net, net.mask) ∈ daemon.feeds.nets →
      net.WellFormed ∧
        ∀ spared ∈ daemon.sparedBy, Feeds.overlaps spared net = false

/-- Before a daemon has loaded anything. -/
def unloaded (system : System Score) : FeedDaemon Score where
  system := { system with phase := .stopped }
  feeds := .fresh
  sparedBy := []

variable {daemon : FeedDaemon Score}

omit [ScoreArith Score] in
theorem cleared_fresh (system : System Score) :
    (⟨system, .fresh, []⟩ : FeedDaemon Score).Cleared where
  within := FeedTable.within_fresh
  spared := by
    intro net member
    cases member
  loaded := by
    intro net member
    exact absurd member (HashSet.notMem_empty _)

omit [ScoreArith Score] in
theorem cleared_of_same
    (cleared : daemon.Cleared)
    (system : System Score) :
    ({ daemon with system := system } : FeedDaemon Score).Cleared :=
  ⟨cleared.within, cleared.spared, cleared.loaded⟩

omit [ScoreArith Score] in
/-- Loading lists keeps clear of what is protected at that moment. -/
theorem cleared_loadFeeds
    (cleared : daemon.Cleared)
    {input : FeedInput}
    {host : HostNetworks}
    (isHost : input.autoProtected = host.autoProtected) :
    (daemon.loadFeeds input).Cleared where
  within := FeedTable.within_update cleared.within
  spared := by
    intro net member
    rw [loadFeeds, FeedInput.protectedNets, isHost] at member
    rcases List.mem_append.mp member with ofHost | trusted
    · exact HostNetworks.wellFormed_of_mem ofHost
    · split at trusted
      · rename_i cidrs readable
        obtain ⟨text, _, parsed⟩ :=
          (Error.mem_of_mapM_ok readable net).mp trusted
        exact Cidr.wellFormed_of_parse parsed
      · cases trusted
  loaded := by
    intro net member
    obtain ⟨wellFormed, spares⟩ :=
      FeedInput.spares_of_mem_nets (FeedInput.mem_wanted.mp member)
    exact ⟨wellFormed, fun spared inSpared =>
      spares spared (List.mem_append_right _ inSpared)⟩

theorem cleared_step
    (cleared : daemon.Cleared)
    (event : FeedEvent) :
    (daemon.step event).Cleared := by
  unfold step
  split
  · exact cleared
  · exact cleared_fresh _
  · exact cleared_of_same cleared _
  · unfold reload
    split
    · exact cleared_loadFeeds (cleared_of_same cleared _) rfl
    · exact cleared_of_same cleared _
  · exact cleared_loadFeeds cleared rfl
  · exact cleared

theorem cleared_run
    (system : System Score)
    (events : List FeedEvent) :
    (Runs.run step (unloaded system) events).Cleared := by
  induction events using List.reverseRecOn with
  | nil =>
      exact cleared_fresh _
  | append_singleton past event inductionHypothesis =>
      rw [Runs.run_concat]
      exact cleared_step inductionHypothesis event

omit [ScoreArith Score] in
theorem protected4_refreshProtection
    (host : Host)
    (autoProtected : List Cidr)
    (ownV6Prefixes : List U64)
    (cfg : Config)
    (shared : Shared Score) :
    (shared.refreshProtection host autoProtected ownV6Prefixes
        cfg).detector.protected4 =
      autoProtected ++
        match cfg.trustedCidrs with
        | .ok cidrs => cidrs
        | .error _ => [] := by
  rw [Shared.refreshProtection, Shared.lifts_detector]
  rfl

/-- A refresh replaces the protected networks and leaves the feeds. -/
theorem step_of_refreshes
    {event : FeedEvent}
    {protectedNow : List Cidr}
    (refresh : daemon.refreshes event = some protectedNow) :
    (daemon.step event).system.world.shared.detector.protected4 =
        protectedNow ∧
      (daemon.step event).feeds = daemon.feeds := by
  unfold refreshes at refresh
  dsimp only at refresh
  split at refresh
  · rename_i host autoProtected ownV6Prefixes cfg phase
    injection refresh with same
    subst same
    simp only [step, System.step, phase]
    exact ⟨protected4_refreshProtection .., trivial⟩
  · rename_i host autoProtected ownV6Prefixes cfg phase
    injection refresh with same
    subst same
    simp only [step, System.step, phase]
    exact ⟨protected4_refreshProtection .., trivial⟩
  · cases refresh

/-- A refresh spares what it protects unless a loaded network is in the way. -/
theorem spares_iff_clearOf
    (cleared : daemon.Cleared)
    {event : FeedEvent}
    {protectedNow : List Cidr}
    (refresh : daemon.refreshes event = some protectedNow) :
    (daemon.step event).Spares ↔ daemon.ClearOf protectedNow := by
  obtain ⟨isProtected4, sameFeeds⟩ := step_of_refreshes refresh
  have isProtected_iff (ip : U32) :
      (daemon.step event).system.world.shared.detector.isProtected
          (.v4 ip) = true ↔
        ∃ net ∈ protectedNow, net.contains ip = true := by
    rw [Detector.isProtected, isProtected4, List.any_eq_true]
  unfold Spares
  rw [sameFeeds]
  constructor
  · intro spares ip now _ net member inTrie
    by_contra contains
    rw [Bool.not_eq_false] at contains
    have wellFormed := (cleared.loaded net member).1
    have hit :
        daemon.feeds.trie.matchesAddress
          (triePrefix 32 (BitPrefix.bytes32 ip)) = true :=
      PrefixTrie.matchesAddress_iff.mpr
        ⟨_, inTrie, (feedKey_prefix_iff wellFormed ip).mpr contains⟩
    rw [spares ip ((isProtected_iff ip).mpr now)] at hit
    cases hit
  · intro clear ip now
    by_contra hit
    rw [Bool.not_eq_false] at hit
    obtain ⟨key, inTrie, starts⟩ := PrefixTrie.matchesAddress_iff.mp hit
    obtain ⟨⟨address, mask⟩, member, isKey⟩ := cleared.within key inTrie
    subst isKey
    obtain ⟨wellFormed, apart⟩ :=
      cleared.loaded ⟨address, mask⟩ member
    have contains : (⟨address, mask⟩ : Cidr).contains ip = true :=
      (feedKey_prefix_iff wellFormed ip).mp starts
    by_cases before : ∃ net ∈ daemon.sparedBy, net.contains ip = true
    · obtain ⟨spared, inSpared, covers⟩ := before
      have touches :=
        Cidr.contains_of_shared (cleared.spared spared inSpared)
          wellFormed covers contains
      rw [← Bool.or_eq_true] at touches
      exact absurd touches
        (Bool.eq_false_iff.mp (apart spared inSpared))
    · have unspared :
          ∀ net ∈ daemon.sparedBy, net.contains ip = false := by
        intro net inSpared
        exact Bool.eq_false_iff.mpr fun covers =>
          before ⟨net, inSpared, covers⟩
      rw [clear ip ((isProtected_iff ip).mp now) unspared
        ⟨address, mask⟩ member inTrie] at contains
      cases contains

/--
Over any run: right after every refresh no protected address is on a feed, if
and only if at every refresh the addresses that became protected since the
feeds were loaded lie outside the loaded networks.
-/
theorem feeds_spare_protected_iff
    (system : System Score)
    (events : List FeedEvent) :
    (∀ past event later protectedNow,
        events = past ++ event :: later →
        (Runs.run step (unloaded system) past).refreshes event =
          some protectedNow →
        (Runs.run step (unloaded system) (past ++ [event])).Spares) ↔
      ∀ past event later protectedNow,
        events = past ++ event :: later →
        (Runs.run step (unloaded system) past).refreshes event =
          some protectedNow →
        (Runs.run step (unloaded system) past).ClearOf protectedNow := by
  have pointwise
      {past : List FeedEvent}
      {event : FeedEvent}
      {protectedNow : List Cidr}
      (refresh :
        (Runs.run step (unloaded system) past).refreshes event =
          some protectedNow) :
      (Runs.run step (unloaded system) (past ++ [event])).Spares ↔
        (Runs.run step (unloaded system) past).ClearOf protectedNow := by
    rw [Runs.run_concat]
    exact spares_iff_clearOf (cleared_run system past) refresh
  constructor
  · intro spares past event later protectedNow shape refresh
    exact (pointwise refresh).mp
      (spares past event later protectedNow shape refresh)
  · intro clear past event later protectedNow shape refresh
    exact (pointwise refresh).mpr
      (clear past event later protectedNow shape refresh)

end

/-- The copy of a list with one network. -/
def oneNetwork : Feeds.Cache :=
  AList.insert (Feeds.cachePath "spamhaus-drop")
    ⟨some "1.10.16.0/20\n", 0,
      "https://www.spamhaus.org/drop/drop_v4.json"⟩ ∅

def withoutNameserver : HostNetworks :=
  ⟨some 0x0a000001, [], []⟩

/-- A name server inside the listed network. -/
def withNameserver : HostNetworks :=
  ⟨some 0x0a000001, [0x010a1401], []⟩

/-- A start with the defaults; the feeds are loaded. -/
def feedsLoaded : List FeedEvent :=
  [.daemon (.boot (refusing fun _ => false) .default none),
    .daemon
      (.restored (clockedHost 1000 1000000)
        withoutNameserver.autoProtected []),
    .loadFeeds withoutNameserver [] oneNetwork .insertion]

def nameserverChanges : FeedEvent :=
  .daemon
    (.refresh (clockedHost 1060 1000060) withNameserver.autoProtected [])

theorem nameserverChanges_refreshes :
    (Runs.run step (unloaded System.unstarted) feedsLoaded).refreshes
        nameserverChanges = some withNameserver.autoProtected := by
  decide +kernel

theorem nameserverChanges_protects :
    (Runs.run step (unloaded System.unstarted)
        (feedsLoaded ++
          [nameserverChanges])).system.world.shared.detector.isProtected
      (.v4 0x010a1401) = true := by
  decide +kernel

/-- The new name server is protected, and dropped by the feeds. -/
theorem new_nameserver_is_cut_off :
    Config.default.validate = .ok () ∧
      ¬∀ past event later protectedNow,
        feedsLoaded ++ [nameserverChanges] = past ++ event :: later →
        (Runs.run step (unloaded System.unstarted) past).refreshes event =
          some protectedNow →
        (Runs.run step (unloaded System.unstarted)
          (past ++ [event])).Spares := by
  refine ⟨Config.validate_default, fun spares => ?_⟩
  have dropped :
      (Runs.run step (unloaded System.unstarted)
          (feedsLoaded ++ [nameserverChanges])).feeds.trie.matchesAddress
        (triePrefix 32 (BitPrefix.bytes32 0x010a1401)) = true := by
    decide +kernel
  have kept :=
    spares feedsLoaded nameserverChanges [] _ rfl
      nameserverChanges_refreshes 0x010a1401 nameserverChanges_protects
  rw [dropped] at kept
  cases kept

end FeedDaemon

end AiFirewall

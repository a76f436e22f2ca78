import AiFirewall.BanState

namespace AiFirewall

/-!
# The daemon's own steps

What the daemon does to its shared state between two configurations: acting
on a ban, draining the event ring, sweeping expired bans, lifting bans on
protected addresses, saving, and restoring what was saved at the start.
-/

structure RecentBan (Score : Type) where
  ip : Src
  reason : String
  ports : String
  score : Score
  secs : U64
  strikes : U32
  atUnix : U64
  enforced : Bool

/-- `RECENT_BANS`. -/
def recentBans : Nat := 20

/-- The state behind the daemon's lock; pop-up notifications are left out. -/
structure Shared (Score : Type) where
  detector : Detector
  blocklist : Blocklist
  records : Table Src BanRecord
  enforce : Bool
  recent : List (RecentBan Score)
  dirty : Bool
  notifyBans : Bool

namespace Shared

variable {Score : Type}

/-- Act on a ban: write it to the kernel, unless the daemon only watches. -/
def enact (host : Host) (shared : Shared Score) (ban : Ban Score) :
    Shared Score :=
  let enforced := shared.enforce
  let banned :=
    if enforced then
      match shared.blocklist.insert? host ban.ip
          (expiryFor host ban.secs) with
      | some blocklist =>
          { shared with
            blocklist := blocklist
            records :=
              shared.records.insert ban.ip
                { reason := ban.reason ++ " (" ++ ban.ports ++ ")"
                  source := "auto"
                  strikes := ban.strikes }
            dirty := true }
      | none => shared
    else
      shared
  let kept :=
    if banned.recent.length = recentBans then
      banned.recent.drop 1
    else
      banned.recent
  { banned with
    recent :=
      kept ++
        [{ ip := ban.ip
           reason := ban.reason
           ports := ban.ports
           score := ban.score
           secs := ban.secs
           strikes := ban.strikes
           atUnix := host.unixSecs
           enforced := enforced }] }

/-- One event of a batch: observed, and acted on when it brings a ban. -/
def handleEvent [ScoreArith Score]
    (host : Host)
    (shared : Shared Score)
    (event : PacketEvent) : Shared Score :=
  let (ban, detector) := shared.detector.observe Score event host.bootSecs
  let observed := { shared with detector := detector }
  match ban with
  | some ban => observed.enact host ban
  | none => observed

/-- The body of `spawn_event_reader`'s loop: a batch of events, in order. -/
def handleBatch [ScoreArith Score]
    (host : Host)
    (shared : Shared Score)
    (batch : List PacketEvent) : Shared Score :=
  batch.foldl (handleEvent host) shared

/-- What `sweep` does with one blocklist entry. -/
def sweepEntry
    (host : Host)
    (shared : Shared Score)
    (entry : Src × U64) : Shared Score :=
  let (ip, expiry) := entry
  if remaining host expiry = none then
    { shared with
      blocklist := shared.blocklist.drop host ip
      records := shared.records.erase ip
      dirty := true }
  else if (shared.records.lookup ip).isNone then
    { shared with
      records := shared.records.insert ip manualRecord
      dirty := true }
  else
    shared

/-- Expire bans and pick up what the command line changed. -/
def sweep (host : Host) (shared : Shared Score) : Shared Score :=
  let entries := shared.blocklist.entries
  let present := entries.map Prod.fst
  let swept := entries.foldl (sweepEntry host) shared
  let retained := swept.records.retain fun ip _ => ip ∈ present
  { swept with
    records := retained
    dirty := swept.dirty || retained.size ≠ swept.records.size }

/-- Lift the ban of one source. -/
def lift (host : Host) (shared : Shared Score) (ip : Src) : Shared Score :=
  { shared with
    blocklist := shared.blocklist.drop host ip
    records := shared.records.erase ip
    dirty := true }

/-- Read the protected addresses again, and lift automatic bans on them. -/
def refreshProtection
    (host : Host)
    (autoProtected : List Cidr)
    (ownV6Prefixes : List U64)
    (cfg : Config)
    (shared : Shared Score) : Shared Score :=
  let trusted :=
    match cfg.trustedCidrs with
    | .ok cidrs => cidrs
    | .error _ => []
  let detector :=
    shared.detector.setProtected (autoProtected ++ trusted) ownV6Prefixes
  let refreshed := { shared with detector := detector }
  let lifted :=
    (refreshed.records.toList.filter fun entry =>
      entry.2.source = "auto" && detector.isProtected entry.1).map Prod.fst
  lifted.foldl (lift host) refreshed

/-- The seconds a saved ban still runs by the wall clock; 0 is forever. -/
def savedSecs (host : Host) (ban : SavedBan) : Option U64 :=
  if ban.expiresUnix = 0 then
    some 0
  else if host.unixSecs < ban.expiresUnix then
    some (ban.expiresUnix - host.unixSecs)
  else
    none

/-- What `restore` does with one saved ban. -/
def restoreBan
    (host : Host)
    (shared : Shared Score)
    (ban : SavedBan) : Shared Score :=
  match savedSecs host ban with
  | none => shared
  | some secs =>
      let blocklist :=
        if shared.blocklist.contains ban.ip then
          shared.blocklist
        else
          (shared.blocklist.insert? host ban.ip
            (expiryFor host secs)).getD shared.blocklist
      let records :=
        if (shared.records.lookup ban.ip).isSome then
          shared.records
        else
          shared.records.insert ban.ip
            ⟨ban.reason, ban.source, ban.strikes⟩
      { shared with blocklist := blocklist, records := records }

/-- What `restore` does with one saved offender. -/
def restoreOffender
    (host : Host)
    (shared : Shared Score)
    (offender : SavedOffender) : Shared Score :=
  { shared with
    detector :=
      shared.detector.restoreOffender offender.ip
        (offender.restored host) }

def restore (host : Host) (saved : Saved) (shared : Shared Score) :
    Shared Score :=
  saved.offenders.foldl (restoreOffender host)
    (saved.bans.foldl (restoreBan host) shared)

/-- The state file that `save` writes. -/
def captured (host : Host) (shared : Shared Score) : Saved :=
  Saved.capture host shared.blocklist shared.records
    shared.detector.offenders

/-- Write the state file; `stored` says whether that worked. -/
def save
    (host : Host)
    (stored : Bool)
    (file : Saved)
    (shared : Shared Score) : Saved × Shared Score :=
  if stored then
    (shared.captured host, { shared with dirty := false })
  else
    (file, shared)

/-- Acting on a ban leaves the detector alone. -/
@[simp] theorem enact_detector
    (host : Host)
    (shared : Shared Score)
    (ban : Ban Score) :
    (shared.enact host ban).detector = shared.detector := by
  unfold enact
  dsimp only
  split
  · cases shared.blocklist.insert? host ban.ip (expiryFor host ban.secs) <;>
      rfl
  · rfl

/-- A ban is no business of any other source. -/
theorem enact_lookup_of_ne
    (host : Host)
    (shared : Shared Score)
    (ban : Ban Score)
    {source : Src}
    (other : source ≠ ban.ip) :
    (shared.enact host ban).blocklist.lookup source =
      shared.blocklist.lookup source := by
  unfold enact
  dsimp only
  split
  · cases inserted :
        shared.blocklist.insert? host ban.ip (expiryFor host ban.secs) with
    | none => rfl
    | some blocklist =>
        exact (Blocklist.lookup_of_insert? inserted source).trans
          (if_neg other)
  · rfl

theorem enact_record_of_ne
    (host : Host)
    (shared : Shared Score)
    (ban : Ban Score)
    {source : Src}
    (other : source ≠ ban.ip) :
    (shared.enact host ban).records.lookup source =
      shared.records.lookup source := by
  unfold enact
  dsimp only
  split
  · cases shared.blocklist.insert? host ban.ip (expiryFor host ban.secs) with
    | none => rfl
    | some blocklist => exact AList.lookup_insert_ne other
  · rfl

/-- A daemon that only watches bans nobody. -/
theorem enact_of_watching
    {host : Host}
    {shared : Shared Score}
    {ban : Ban Score}
    (watching : shared.enforce = false) :
    (shared.enact host ban).blocklist = shared.blocklist ∧
      (shared.enact host ban).records = shared.records := by
  unfold enact
  rw [watching]
  exact ⟨rfl, rfl⟩

/-- Nor does one whose write the kernel refuses. -/
theorem enact_of_refused
    {host : Host}
    {shared : Shared Score}
    {ban : Ban Score}
    (refused : host.refusesInsert ban.ip = true) :
    (shared.enact host ban).blocklist = shared.blocklist ∧
      (shared.enact host ban).records = shared.records := by
  have nothing :
      shared.blocklist.insert? host ban.ip (expiryFor host ban.secs) =
        none := by
    unfold Blocklist.insert?
    exact if_pos refused
  unfold enact
  rw [nothing]
  dsimp only
  split
  · exact ⟨rfl, rfl⟩
  · exact ⟨rfl, rfl⟩

/-- An accepted ban stands in the kernel until it runs out. -/
theorem enact_lookup_self
    {host : Host}
    {shared : Shared Score}
    {ban : Ban Score}
    {blocklist : Blocklist}
    (enforced : shared.enforce = true)
    (placed :
      shared.blocklist.insert? host ban.ip (expiryFor host ban.secs) =
        some blocklist) :
    (shared.enact host ban).blocklist.lookup ban.ip =
      some (expiryFor host ban.secs) := by
  simp only [enact, enforced, placed, ↓reduceIte]
  exact (Blocklist.lookup_of_insert? placed ban.ip).trans (if_pos rfl)

theorem handleEvent_detector [ScoreArith Score]
    (host : Host)
    (shared : Shared Score)
    (event : PacketEvent) :
    (shared.handleEvent host event).detector =
      (shared.detector.observe Score event host.bootSecs).2 := by
  unfold handleEvent
  dsimp only
  split
  · exact enact_detector _ _ _
  · rfl

theorem sweepEntry_detector
    (host : Host)
    (shared : Shared Score)
    (entry : Src × U64) :
    (shared.sweepEntry host entry).detector = shared.detector := by
  unfold sweepEntry
  dsimp only
  split
  · rfl
  · split <;> rfl

theorem sweep_detector
    (host : Host)
    (shared : Shared Score) :
    (shared.sweep host).detector = shared.detector := by
  have folded :
      ∀ (entries : List (Src × U64)) (swept : Shared Score),
        (entries.foldl (sweepEntry host) swept).detector =
          swept.detector := by
    intro entries
    induction entries with
    | nil =>
        intro swept
        rfl
    | cons entry rest inductionHypothesis =>
        intro swept
        rw [List.foldl_cons, inductionHypothesis, sweepEntry_detector]
  exact folded _ _

theorem sweepEntry_lookup
    (host : Host)
    (shared : Shared Score)
    (entry : Src × U64)
    (source : Src) :
    (shared.sweepEntry host entry).blocklist.lookup source =
        shared.blocklist.lookup source ∨
      source = entry.1 ∧ remaining host entry.2 = none ∧
        (shared.sweepEntry host entry).blocklist.lookup source = none := by
  obtain ⟨ip, expiry⟩ := entry
  unfold sweepEntry
  dsimp only
  split
  · rename_i ended
    rcases shared.blocklist.lookup_drop host ip source with
      same | ⟨isEntry, gone⟩
    · exact .inl same
    · exact .inr ⟨isEntry, ended, gone⟩
  · split
    · exact .inl rfl
    · exact .inl rfl

/-- A sweep leaves every ban that still runs in the kernel. -/
theorem sweep_lookup_of_running
    {host : Host}
    {shared : Shared Score}
    {source : Src}
    (running :
      ∀ expiry ∈ shared.blocklist.lookup source,
        remaining host expiry ≠ none) :
    (shared.sweep host).blocklist.lookup source =
      shared.blocklist.lookup source := by
  have folded :
      ∀ (entries : List (Src × U64)) (swept : Shared Score),
        (∀ entry ∈ entries,
          source = entry.1 → remaining host entry.2 ≠ none) →
        (entries.foldl (sweepEntry host) swept).blocklist.lookup source =
          swept.blocklist.lookup source := by
    intro entries
    induction entries with
    | nil =>
        intro swept _
        rfl
    | cons entry rest inductionHypothesis =>
        intro swept alive
        obtain ⟨headAlive, restAlive⟩ := List.forall_mem_cons.mp alive
        rw [List.foldl_cons, inductionHypothesis _ restAlive]
        rcases swept.sweepEntry_lookup host entry source with
          same | ⟨isEntry, ended, _⟩
        · exact same
        · exact absurd ended (headAlive isEntry)
  refine folded _ _ fun entry member isSource => ?_
  subst isSource
  exact running entry.2 (Blocklist.mem_entries.mp member)

/-- New protected addresses lift bans that the detector has placed. -/
theorem refreshProtection_cases
    (host : Host)
    (autoProtected : List Cidr)
    (ownV6Prefixes : List U64)
    (cfg : Config)
    (shared : Shared Score) :
    ∃ (trusted : List Cidr) (lifted : List Src),
      (∀ source ∈ lifted, ∃ record ∈ shared.records.lookup source,
          record.source = "auto") ∧
        shared.refreshProtection host autoProtected ownV6Prefixes cfg =
          lifted.foldl (lift host)
            { shared with
              detector :=
                shared.detector.setProtected trusted ownV6Prefixes } := by
  refine ⟨_, _, ?_, rfl⟩
  intro source member
  obtain ⟨⟨ip, record⟩, inRecords, isSource⟩ := List.mem_map.mp member
  subst isSource
  obtain ⟨known, isAuto⟩ := List.mem_filter.mp inRecords
  rw [Bool.and_eq_true, decide_eq_true_iff] at isAuto
  exact ⟨record, Table.mem_toList.mp known, isAuto.1⟩

/-- Lifting bans is no business of the detector. -/
theorem lifts_detector
    (host : Host)
    (lifted : List Src)
    (shared : Shared Score) :
    (lifted.foldl (lift host) shared).detector = shared.detector := by
  induction lifted generalizing shared with
  | nil =>
      rfl
  | cons ip rest inductionHypothesis =>
      rw [List.foldl_cons, inductionHypothesis, lift]

theorem contains_of_lifts
    {host : Host}
    {lifted : List Src}
    {shared : Shared Score}
    {source : Src}
    (present :
      (lifted.foldl (lift host) shared).blocklist.contains source = true) :
    shared.blocklist.contains source = true := by
  induction lifted generalizing shared with
  | nil =>
      exact present
  | cons ip rest inductionHypothesis =>
      rw [List.foldl_cons] at present
      exact Blocklist.contains_of_drop (inductionHypothesis present)

/-- New protected addresses leave everything else of the detector alone. -/
theorem refreshProtection_detector
    (host : Host)
    (autoProtected : List Cidr)
    (ownV6Prefixes : List U64)
    (cfg : Config)
    (shared : Shared Score) :
    let refreshed :=
      (shared.refreshProtection host autoProtected ownV6Prefixes
        cfg).detector
    refreshed.offenders = shared.detector.offenders ∧
      refreshed.bans = shared.detector.bans := by
  obtain ⟨trusted, lifted, _, same⟩ :=
    shared.refreshProtection_cases host autoProtected ownV6Prefixes cfg
  dsimp only
  rw [same, lifts_detector]
  exact ⟨rfl, rfl⟩

/-- New protected addresses lift bans and place none. -/
theorem contains_of_refreshProtection
    {host : Host}
    {autoProtected : List Cidr}
    {ownV6Prefixes : List U64}
    {cfg : Config}
    {shared : Shared Score}
    {source : Src}
    (present :
      (shared.refreshProtection host autoProtected ownV6Prefixes
        cfg).blocklist.contains source = true) :
    shared.blocklist.contains source = true := by
  obtain ⟨trusted, lifted, _, same⟩ :=
    shared.refreshProtection_cases host autoProtected ownV6Prefixes cfg
  rw [same] at present
  have kept := contains_of_lifts present
  exact kept

/-- A saved ban that has run out is not restored, nor is any other source. -/
theorem contains_of_restoreBan
    {host : Host}
    {shared : Shared Score}
    {ban : SavedBan}
    {source : Src}
    (present :
      (shared.restoreBan host ban).blocklist.contains source = true) :
    shared.blocklist.contains source = true ∨
      source = ban.ip ∧ savedSecs host ban ≠ none := by
  unfold restoreBan at present
  split at present
  · exact .inl present
  · rename_i runs
    dsimp only at present
    split at present
    · exact .inl present
    · rcases Blocklist.contains_of_insert? present with old | isBan
      · exact .inl old
      · refine .inr ⟨isBan, ?_⟩
        rw [runs]
        exact Option.some_ne_none _

theorem restoreBan_detector
    (host : Host)
    (shared : Shared Score)
    (ban : SavedBan) :
    (shared.restoreBan host ban).detector = shared.detector := by
  unfold restoreBan
  split <;> rfl

theorem restoreBans_detector
    (host : Host)
    (bans : List SavedBan)
    (shared : Shared Score) :
    (bans.foldl (restoreBan host) shared).detector = shared.detector := by
  induction bans generalizing shared with
  | nil =>
      rfl
  | cons ban rest inductionHypothesis =>
      rw [List.foldl_cons, inductionHypothesis, restoreBan_detector]

theorem restoreOffenders_eq
    (host : Host)
    (offenders : List SavedOffender)
    (shared : Shared Score) :
    offenders.foldl (restoreOffender host) shared =
      { shared with
        detector :=
          { shared.detector with
            offenders :=
              offenders.foldl
                (fun table offender =>
                  table.insert offender.ip (offender.restored host))
                shared.detector.offenders } } := by
  induction offenders generalizing shared with
  | nil =>
      rfl
  | cons offender rest inductionHypothesis =>
      rw [List.foldl_cons, inductionHypothesis]
      rfl

/-- A restore touches nothing of the detector but its offenders. -/
theorem restore_detector
    (host : Host)
    (saved : Saved)
    (shared : Shared Score) :
    (shared.restore host saved).detector =
      { shared.detector with
        offenders :=
          saved.offenders.foldl
            (fun table offender =>
              table.insert offender.ip (offender.restored host))
            shared.detector.offenders } := by
  rw [restore, restoreOffenders_eq, restoreBans_detector]

end Shared

/-- Clocks as given, and no failing writes. -/
def clockedHost (bootSecs unixSecs : Nat) : Host where
  bootNs := BitVec.ofNat 64 (bootSecs * 1000000000)
  unixSecs := BitVec.ofNat 64 unixSecs
  refusesInsert _ := false
  refusesRemove _ := false

/-- A daemon that has banned nobody and tracks nobody. -/
def freshShared : Shared ℚ where
  detector := .new .default .default
  blocklist := ⟨.empty, some .empty⟩
  records := ∅
  enforce := true
  recent := []
  dirty := false
  notifyBans := false

end AiFirewall

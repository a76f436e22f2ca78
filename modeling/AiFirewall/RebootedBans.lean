import AiFirewall.BanExpiry
import AiFirewall.LastingBans
import AiFirewall.SavedText

namespace AiFirewall

/-!
# Bans across a reboot

A reboot empties the maps of the kernel and starts its clock anew; the state
file brings the bans back by the wall clock.  What a ban comes to is how long
it has to run, and a reboot takes off that exactly the seconds that went by.
-/

/-- How long a ban has to run. -/
inductive Term where
  | permanent
  | seconds (left : Nat)
  deriving Repr, DecidableEq

namespace Term

/-- What is left of it when some seconds have gone by. -/
def after (elapsed : Nat) : Term → Option Term
  | .permanent => some .permanent
  | .seconds left =>
      if elapsed < left then some (.seconds (left - elapsed)) else none

/-- How long an entry of the maps has to run, in seconds begun. -/
def ofExpiry? (host : Host) (expiry : U64) : Option Term :=
  if expiry = banForever then
    some .permanent
  else if host.bootNs < expiry then
    some
      (.seconds
        ((expiry.toNat - host.bootNs.toNat + 999999999) / 1000000000))
  else
    none

/-- The length of a ban as the file and `expiry_for` have it. -/
def ofSecs (secs : U64) : Term :=
  if secs = 0 then .permanent else .seconds secs.toNat

end Term

/-- How long the maps still ban a source, if they do. -/
def Blocklist.term?
    (host : Host)
    (blocklist : Blocklist)
    (source : Src) : Option Term :=
  (blocklist.lookup source).bind (Term.ofExpiry? host)

/-- What `remaining` says of a ban that ends is rounded up. -/
theorem toNat_remaining
    {host : Host}
    {expiry left : U64}
    (timed : expiry ≠ banForever)
    (runs : remaining host expiry = some left) :
    host.bootNs < expiry ∧
      left.toNat =
        (expiry.toNat - host.bootNs.toNat + 999999999) / 1000000000 := by
  rw [remaining, if_neg timed] at runs
  split at runs
  · rename_i ahead
    refine ⟨ahead, ?_⟩
    have billion : (1000000000 : U64).toNat = 1000000000 := by
      rfl
    have gap :
        (expiry - host.bootNs).toNat =
          expiry.toNat - host.bootNs.toNat :=
      BitVec.toNat_sub_of_le (BitVec.le_of_lt ahead)
    have bound := expiry.isLt
    have rest :
        (expiry - host.bootNs) % 1000000000 = 0 ↔
          (expiry.toNat - host.bootNs.toNat) % 1000000000 = 0 := by
      rw [← BitVec.toNat_inj, BitVec.toNat_umod, gap, billion]
      rfl
    injection runs with isLeft
    rw [← isLeft]
    split
    · rename_i whole
      rw [rest] at whole
      rw [BitVec.toNat_udiv, gap, billion]
      omega
    · rename_i part
      have one : (1 : U64).toNat = 1 := by
        rfl
      rw [rest] at part
      rw [BitVec.toNat_add, BitVec.toNat_udiv, gap, billion, one,
        Nat.mod_eq_of_lt (by omega)]
      omega
  · cases runs

/-- The two clocks are far from their ends for every ban. -/
def FarFromOverflow
    (saving restoring : Host)
    (blocklist : Blocklist) : Prop :=
  ∀ source expiry left,
    blocklist.lookup source = some expiry →
    remaining saving expiry = some left →
    saving.unixSecs.toNat + left.toNat < 2 ^ 64 ∧
      restoring.bootNs.toNat + left.toNat * 1000000000 < 2 ^ 64

/-- A ban of so many seconds has that many to run. -/
theorem term_expiryFor
    {host : Host}
    {secs : U64}
    (fits : host.bootNs.toNat + secs.toNat * 1000000000 < 2 ^ 64) :
    Term.ofExpiry? host (expiryFor host secs) =
      some (Term.ofSecs secs) := by
  by_cases forever : secs = 0
  · rw [expiryFor, if_pos forever, Term.ofSecs, if_pos forever,
      Term.ofExpiry?, if_pos rfl]
  · have isEnd := toNat_expiryFor forever fits
    have lasting : 1 ≤ secs.toNat :=
      Nat.one_le_iff_ne_zero.mpr fun zero =>
        forever (BitVec.eq_of_toNat_eq zero)
    have timed : expiryFor host secs ≠ banForever := by
      intro same
      rw [same] at isEnd
      change 0 = _ at isEnd
      omega
    have ahead : host.bootNs < expiryFor host secs := by
      rw [BitVec.lt_def]
      omega
    have exact :
        ((expiryFor host secs).toNat - host.bootNs.toNat + 999999999) /
            1000000000 =
          secs.toNat := by
      omega
    rw [Term.ofExpiry?, if_neg timed, if_pos ahead, Term.ofSecs,
      if_neg forever, exact]

namespace Shared

section

variable
  {Score : Type}
  {saving restoring : Host}
  {records : Table Src BanRecord}
  {source : Src}
  {expiry : U64}

/-- A saved ban is restored for what is left of it, or not at all. -/
theorem savedSecs_of_saved
    {ban : SavedBan}
    (later : saving.unixSecs ≤ restoring.unixSecs)
    (fits :
      ∀ left, remaining saving expiry = some left →
        saving.unixSecs.toNat + left.toNat < 2 ^ 64)
    (saved : Saved.ban? saving records (source, expiry) = some ban) :
    (savedSecs restoring ban).map Term.ofSecs =
      (Term.ofExpiry? saving expiry).bind
        (Term.after
          (restoring.unixSecs.toNat - saving.unixSecs.toNat)) := by
  obtain ⟨left, runs, isBan⟩ := Option.map_eq_some_iff.mp saved
  have wallFits := fits left runs
  subst isBan
  rw [BitVec.le_def] at later
  by_cases forever : expiry = banForever
  · -- Zero stands for a permanent ban in the file and for `expiry_for`.
    have zero : left = 0 := by
      subst forever
      rw [remaining_forever] at runs
      exact (Option.some.inj runs).symm
    simp [savedSecs, zero, Term.ofSecs, Term.ofExpiry?, forever,
      Term.after]
  · obtain ⟨live, isLeft⟩ := toNat_remaining forever runs
    have ahead := BitVec.lt_def.mp live
    have lasting : left.toNat ≠ 0 := by
      omega
    have positive : left ≠ 0 := by
      intro zero
      rw [zero] at lasting
      exact lasting rfl
    have isEnd :
        (saving.unixSecs + left).toNat =
          saving.unixSecs.toNat + left.toNat := by
      rw [BitVec.toNat_add]
      exact Nat.mod_eq_of_lt wallFits
    have notZero : saving.unixSecs + left ≠ 0 := by
      intro zero
      rw [zero] at isEnd
      change 0 = _ at isEnd
      omega
    rw [Term.ofExpiry?, if_neg forever, if_pos live, ← isLeft,
      Option.bind_some, Term.after]
    simp only [savedSecs, if_neg positive, if_neg notZero]
    by_cases runsOn :
        restoring.unixSecs.toNat - saving.unixSecs.toNat < left.toNat
    · have inFuture : restoring.unixSecs < saving.unixSecs + left := by
        rw [BitVec.lt_def, isEnd]
        omega
      have secsLeft :
          (saving.unixSecs + left - restoring.unixSecs).toNat =
            left.toNat -
              (restoring.unixSecs.toNat - saving.unixSecs.toNat) := by
        rw [BitVec.toNat_sub_of_le (BitVec.le_of_lt inFuture), isEnd]
        omega
      have someLeft :
          saving.unixSecs + left - restoring.unixSecs ≠ 0 := by
        intro zero
        rw [zero] at secsLeft
        change 0 = _ at secsLeft
        omega
      rw [if_pos inFuture, if_pos runsOn, Option.map_some, Term.ofSecs,
        if_neg someLeft, secsLeft]
    · have past : ¬restoring.unixSecs < saving.unixSecs + left := by
        rw [BitVec.lt_def, isEnd]
        omega
      rw [if_neg past, if_neg runsOn, Option.map_none]

/-- What is restored of a saved ban is no longer than what was left of it. -/
theorem savedSecs_le
    {ban : SavedBan}
    {left secs : U64}
    (later : saving.unixSecs ≤ restoring.unixSecs)
    (fits : saving.unixSecs.toNat + left.toNat < 2 ^ 64)
    (runs : remaining saving expiry = some left)
    (saved : Saved.ban? saving records (source, expiry) = some ban)
    (restored : savedSecs restoring ban = some secs) :
    secs.toNat ≤ left.toNat := by
  by_cases zero : secs = 0
  · rw [zero]
    exact Nat.zero_le _
  have sameFits :
      ∀ other, remaining saving expiry = some other →
        saving.unixSecs.toNat + other.toNat < 2 ^ 64 := by
    intro other isOther
    rw [runs, Option.some.injEq] at isOther
    rwa [← isOther]
  have comesTo := savedSecs_of_saved later sameFits saved
  rw [restored, Option.map_some, Term.ofSecs, if_neg zero] at comesTo
  by_cases forever : expiry = banForever
  · rw [Term.ofExpiry?, if_pos forever, Option.bind_some] at comesTo
    cases comesTo
  · obtain ⟨live, isLeft⟩ := toNat_remaining forever runs
    rw [Term.ofExpiry?, if_neg forever, if_pos live, ← isLeft,
      Option.bind_some, Term.after] at comesTo
    split at comesTo
    · injection comesTo with sameTerm
      injection sameTerm with isSecs
      omega
    · cases comesTo

variable
  {limit : Blocklist}
  {shared : Shared Score}

/-- Both maps are there, and hold no other sources than the saved ones. -/
structure Within (limit : Blocklist) (shared : Shared Score) : Prop where
  bothMaps : shared.blocklist.v6.isSome
  sources :
    ∀ other, shared.blocklist.contains other = true →
      limit.contains other = true

/-- A restore writes the saved ban where the maps have no entry. -/
theorem restoreBan_lookup
    {ban : SavedBan}
    (willing : ∀ other, restoring.refusesInsert other = false)
    (within : Within limit shared)
    (listed : limit.contains ban.ip = true)
    (source : Src) :
    (shared.restoreBan restoring ban).blocklist.lookup source =
        (shared.blocklist.lookup source).or
          (if source = ban.ip then
            (savedSecs restoring ban).map (expiryFor restoring)
          else
            none) ∧
      Within limit (shared.restoreBan restoring ban) := by
  unfold restoreBan
  cases savedSecs restoring ban with
  | none =>
      refine ⟨?_, within⟩
      simp
  | some secs =>
      dsimp only
      by_cases present : shared.blocklist.contains ban.ip = true
      · rw [if_pos present]
        refine ⟨?_, within.bothMaps, within.sources⟩
        split
        · rename_i isBan
          obtain ⟨expiry, found⟩ := Option.isSome_iff_exists.mp present
          rw [isBan, found, Option.some_or]
        · rw [Option.or_none]
      · have absent : shared.blocklist.lookup ban.ip = none := by
          simpa [Blocklist.contains] using present
        obtain ⟨changed, inserted⟩ :=
          Blocklist.insert?_isSome_of_within (willing ban.ip)
            within.bothMaps within.sources listed absent
            (expiryFor restoring secs)
        rw [if_neg present, inserted, Option.getD_some]
        have looked := Blocklist.lookup_of_insert? inserted
        refine ⟨?_, ?_, ?_⟩
        · rw [looked]
          split
          · rename_i isBan
            rw [isBan, absent]
            rfl
          · rw [Option.or_none]
        · rw [Blocklist.v6_isSome_of_insert? inserted]
          exact within.bothMaps
        · intro other here
          rw [Blocklist.contains, looked] at here
          split at here
          · rename_i isBan
            rwa [isBan]
          · exact within.sources other here

/-- The saved ban of a source that a restore comes to first. -/
def savedExpiry
    (host : Host)
    (bans : List SavedBan)
    (source : Src) : Option U64 :=
  bans.findSome? fun ban =>
    if source = ban.ip then
      (savedSecs host ban).map (expiryFor host)
    else
      none

theorem restoreBans_lookup
    {bans : List SavedBan}
    (willing : ∀ other, restoring.refusesInsert other = false)
    (within : Within limit shared)
    (listed : ∀ ban ∈ bans, limit.contains ban.ip = true)
    (source : Src) :
    (bans.foldl (restoreBan restoring) shared).blocklist.lookup source =
      (shared.blocklist.lookup source).or
        (savedExpiry restoring bans source) := by
  induction bans generalizing shared with
  | nil =>
      exact Option.or_none.symm
  | cons ban rest inductionHypothesis =>
      obtain ⟨restored, stillWithin⟩ :=
        restoreBan_lookup willing within (listed ban List.mem_cons_self)
          source
      rw [List.foldl_cons,
        inductionHypothesis stillWithin fun other member =>
          listed other (List.mem_cons_of_mem _ member),
        restored, savedExpiry, savedExpiry, List.findSome?_cons]
      cases shared.blocklist.lookup source with
      | some expiry =>
          rfl
      | none =>
          rw [Option.none_or, Option.none_or]
          generalize
            (if source = ban.ip then
              (savedSecs restoring ban).map (expiryFor restoring)
            else
              none) = first
          cases first <;> rfl

theorem savedExpiry_of_notMem
    {host : Host}
    {bans : List SavedBan}
    (absent : ∀ ban ∈ bans, source ≠ ban.ip) :
    savedExpiry host bans source = none :=
  List.findSome?_eq_none_iff.mpr fun ban member =>
    if_neg (absent ban member)

/-- Only one saved ban is about a source, and it is restored or run out. -/
theorem savedExpiry_of_mem
    {host : Host}
    {bans : List SavedBan}
    {ban : SavedBan}
    (distinct : (bans.map SavedBan.ip).Nodup)
    (member : ban ∈ bans) :
    savedExpiry host bans ban.ip =
      (savedSecs host ban).map (expiryFor host) := by
  induction bans with
  | nil =>
      cases member
  | cons first rest inductionHypothesis =>
      rw [List.map_cons, List.nodup_cons] at distinct
      have notAgain : ∀ other ∈ rest, first.ip ≠ other.ip := by
        intro other inRest same
        exact distinct.1 (List.mem_map.mpr ⟨other, inRest, same.symm⟩)
      rw [savedExpiry, List.findSome?_cons]
      rcases List.mem_cons.mp member with isFirst | inRest
      · subst isFirst
        rw [if_pos rfl]
        cases savedSecs host ban with
        | some secs =>
            rfl
        | none =>
            exact savedExpiry_of_notMem notAgain
      · rw [if_neg fun same => notAgain ban inRest same.symm]
        exact inductionHypothesis distinct.2 inRest

omit Score in
/-- Every entry that still runs is saved, and nothing else is. -/
theorem mem_captured
    {host : Host}
    {blocklist : Blocklist}
    {offenders : Table Src Offender}
    {ban : SavedBan} :
    ban ∈ (Saved.capture host blocklist records offenders).bans ↔
      ∃ expiry,
        blocklist.lookup ban.ip = some expiry ∧
          Saved.ban? host records (ban.ip, expiry) = some ban := by
  have sameSource
      {entry : Src × U64}
      (saved : Saved.ban? host records entry = some ban) :
      entry.1 = ban.ip := by
    obtain ⟨left, _, isBan⟩ := Option.map_eq_some_iff.mp saved
    rw [← isBan]
  constructor
  · intro member
    obtain ⟨⟨source, expiry⟩, inMaps, saved⟩ := List.mem_filterMap.mp member
    cases sameSource saved
    exact ⟨expiry, Blocklist.mem_entries.mp inMaps, saved⟩
  · rintro ⟨expiry, found, saved⟩
    exact
      List.mem_filterMap.mpr
        ⟨(ban.ip, expiry), Blocklist.mem_entries.mpr found, saved⟩

/-- No source is saved twice. -/
theorem nodup_captured
    (host : Host)
    (blocklist : Blocklist)
    (records : Table Src BanRecord)
    (offenders : Table Src Offender) :
    ((Saved.capture host blocklist records offenders).bans.map
      SavedBan.ip).Nodup := by
  have sources :
      ∀ entries : List (Src × U64),
        ((entries.filterMap (Saved.ban? host records)).map
          SavedBan.ip).Sublist (entries.map Prod.fst) := by
    intro entries
    induction entries with
    | nil =>
        exact List.Sublist.refl _
    | cons entry rest inductionHypothesis =>
        rw [List.filterMap_cons]
        cases saved : Saved.ban? host records entry with
        | none =>
            exact inductionHypothesis.cons _
        | some ban =>
            obtain ⟨left, _, isBan⟩ := Option.map_eq_some_iff.mp saved
            rw [List.map_cons, List.map_cons, ← isBan]
            exact inductionHypothesis.cons_cons _
  exact (blocklist.nodup_entries).sublist (sources _)

/-- What has run out has no time left. -/
theorem ofExpiry?_of_ended
    {host : Host}
    (ended : remaining host expiry = none) :
    Term.ofExpiry? host expiry = none := by
  unfold remaining at ended
  split at ended
  · cases ended
  rename_i timed
  split at ended
  · cases ended
  rename_i past
  rw [Term.ofExpiry?, if_neg timed, if_neg past]

/-- Empty maps take the saved bans as they are. -/
theorem restore_of_empty
    {host : Host}
    {saved : Saved}
    {start : Shared Score}
    (willing : ∀ other, host.refusesInsert other = false)
    (emptyMaps : start.blocklist = ⟨.empty, some .empty⟩)
    (noRecords : start.records = ∅)
    (listed : ∀ ban ∈ saved.bans, limit.contains ban.ip = true)
    (source : Src) :
    (start.restore host saved).blocklist.lookup source =
        savedExpiry host saved.bans source ∧
      (start.restore host saved).records.lookup source =
        savedRecord host saved.bans source := by
  have nothing (other : Src) : start.blocklist.lookup other = none := by
    rw [emptyMaps]
    cases other <;> simp [Blocklist.lookup]
  have within : Within limit start := by
    constructor
    · rw [emptyMaps]
      rfl
    · intro other present
      rw [Blocklist.contains, nothing] at present
      cases present
  obtain ⟨sameMaps, sameRecords⟩ := restore_maps host saved start
  rw [sameMaps, sameRecords,
    restoreBans_lookup willing within listed, restoreBans_record,
    nothing, noRecords, AList.lookup_empty]
  exact ⟨Option.none_or, Option.none_or⟩

/-- The state file is read back when each of its sources is. -/
theorem load_captured
    {json : Json}
    {ipv6 : Ipv6Text}
    (readsBack :
      ∀ source,
        shared.blocklist.contains source = true ∨
            source ∈ shared.detector.offenders →
          source.ReadsBack ipv6)
    (jsonReadsBack :
      json.ReadsBack ((shared.captured saving).toText ipv6)) :
    Saved.load json ipv6
        (some ((shared.captured saving).store json ipv6)) =
      shared.captured saving := by
  refine Saved.load_store ?_ ?_ jsonReadsBack
  · intro ban member
    obtain ⟨expiry, found, _⟩ := mem_captured.mp member
    exact readsBack ban.ip (.inl (Option.isSome_of_eq_some found))
  · intro offender member
    obtain ⟨⟨ip, tracked⟩, inTable, isSaved⟩ := List.mem_map.mp member
    rw [← isSaved]
    exact
      readsBack ip
        (.inr (AList.lookup_isSome.mp
          (Option.isSome_of_eq_some (Table.mem_toList.mp inTable))))

/-- A source whose ban has run out, or that has none, is not restored. -/
theorem restored_of_unsaved
    {before after : Shared Score}
    (entry :
      after.blocklist.lookup source =
        savedExpiry restoring (before.captured saving).bans source)
    (record :
      after.records.lookup source =
        savedRecord restoring (before.captured saving).bans source)
    (unsaved :
      ((before.blocklist.lookup source).bind fun expiry =>
        Saved.ban? saving before.records (source, expiry)) = none) :
    before.blocklist.term? saving source = none ∧
      after.blocklist.lookup source = none ∧
      after.records.lookup source = none := by
  have absent :
      ∀ ban ∈ (before.captured saving).bans, source ≠ ban.ip := by
    intro ban member same
    obtain ⟨expiry, found, isSaved⟩ := mem_captured.mp member
    rw [same, found, Option.bind_some, isSaved] at unsaved
    cases unsaved
  rw [entry, record]
  refine ⟨?_, savedExpiry_of_notMem absent, savedRecord_of_notMem absent⟩
  rw [Blocklist.term?]
  cases found : before.blocklist.lookup source with
  | none =>
      rfl
  | some expiry =>
      rw [found, Option.bind_some, Saved.ban?,
        Option.map_eq_none_iff] at unsaved
      exact ofExpiry?_of_ended unsaved

/-- A saved ban comes back with its own record. -/
theorem restored_of_saved
    {before after : Shared Score}
    {ban : SavedBan}
    (entry :
      after.blocklist.lookup source =
        savedExpiry restoring (before.captured saving).bans source)
    (record :
      after.records.lookup source =
        savedRecord restoring (before.captured saving).bans source)
    (found : before.blocklist.lookup source = some expiry)
    (saved :
      Saved.ban? saving before.records (source, expiry) = some ban) :
    after.blocklist.lookup source =
        (savedSecs restoring ban).map (expiryFor restoring) ∧
      after.records.lookup source =
        (savedSecs restoring ban).map fun _ =>
          (before.records.lookup source).getD manualRecord := by
  obtain ⟨left, _, isBan⟩ := Option.map_eq_some_iff.mp saved
  have isSource : ban.ip = source := by
    rw [← isBan]
  have sameRecord :
      (before.records.lookup source).getD manualRecord =
        ⟨ban.reason, ban.source, ban.strikes⟩ := by
    rw [← isBan]
  have member : ban ∈ (before.captured saving).bans :=
    mem_captured.mpr
      ⟨expiry, by rw [isSource, found], by rw [isSource, saved]⟩
  have distinct :
      ((before.captured saving).bans.map SavedBan.ip).Nodup :=
    nodup_captured saving before.blocklist before.records
      before.detector.offenders
  rw [entry, record, sameRecord]
  rw [← isSource]
  exact
    ⟨savedExpiry_of_mem distinct member,
      savedRecord_of_mem distinct member⟩

/-- A ban that is restored ends within the boot clock, with its own term. -/
theorem term?_of_saved
    {after : Shared Score}
    {ban : SavedBan}
    {left : U64}
    (later : saving.unixSecs ≤ restoring.unixSecs)
    (wallFits : saving.unixSecs.toNat + left.toNat < 2 ^ 64)
    (bootFits :
      restoring.bootNs.toNat + left.toNat * 1000000000 < 2 ^ 64)
    (runs : remaining saving expiry = some left)
    (saved : Saved.ban? saving records (source, expiry) = some ban)
    (entry :
      after.blocklist.lookup source =
        (savedSecs restoring ban).map (expiryFor restoring)) :
    after.blocklist.term? restoring source =
      (savedSecs restoring ban).map Term.ofSecs := by
  rw [Blocklist.term?, entry]
  cases runsOn : savedSecs restoring ban with
  | none =>
      rfl
  | some secs =>
      have shorter := savedSecs_le later wallFits runs saved runsOn
      have bootFitsNow :
          restoring.bootNs.toNat + secs.toNat * 1000000000 < 2 ^ 64 :=
        Nat.lt_of_le_of_lt
          (Nat.add_le_add_left
            (Nat.mul_le_mul_right 1000000000 shorter) _)
          bootFits
      rw [Option.map_some, Option.bind_some, Option.map_some,
        term_expiryFor bootFitsNow]

/--
A reboot leaves every ban its own source, family and record, and as long to
run as it had left, less the seconds that went by; and it adds nothing.
-/
theorem bans_survive_reboot
    {json : Json}
    {ipv6 : Ipv6Text}
    {before start : Shared Score}
    (readsBack :
      ∀ source,
        before.blocklist.contains source = true ∨
            source ∈ before.detector.offenders →
          source.ReadsBack ipv6)
    (jsonReadsBack :
      json.ReadsBack ((before.captured saving).toText ipv6))
    (willing : ∀ source, restoring.refusesInsert source = false)
    (later : saving.unixSecs ≤ restoring.unixSecs)
    (far : FarFromOverflow saving restoring before.blocklist)
    (emptyMaps : start.blocklist = ⟨.empty, some .empty⟩)
    (noRecords : start.records = ∅) :
    let file := (before.captured saving).store json ipv6
    let after :=
      start.restore restoring (Saved.load json ipv6 (some file))
    ∀ source,
      after.blocklist.term? restoring source =
          (before.blocklist.term? saving source).bind
            (Term.after
              (restoring.unixSecs.toNat - saving.unixSecs.toNat)) ∧
        after.blocklist.contains source =
          (after.blocklist.term? restoring source).isSome ∧
        after.records.lookup source =
          (after.blocklist.term? restoring source).map fun _ =>
            (before.records.lookup source).getD manualRecord := by
  intro file after source
  have loaded : Saved.load json ipv6 (some file) = before.captured saving :=
    load_captured readsBack jsonReadsBack
  have listed :
      ∀ ban ∈ (before.captured saving).bans,
        before.blocklist.contains ban.ip = true := by
    intro ban member
    obtain ⟨expiry, found, _⟩ := mem_captured.mp member
    exact Option.isSome_of_eq_some found
  have restored :=
    restore_of_empty willing emptyMaps noRecords listed source
  rw [← loaded] at restored
  obtain ⟨entry, record⟩ := restored
  change after.blocklist.lookup source = _ at entry
  change after.records.lookup source = _ at record
  rw [loaded] at entry record
  cases saved :
      (before.blocklist.lookup source).bind fun expiry =>
        Saved.ban? saving before.records (source, expiry) with
  | none =>
      obtain ⟨ended, noEntry, noRecord⟩ :=
        restored_of_unsaved entry record saved
      have gone : after.blocklist.term? restoring source = none := by
        rw [Blocklist.term?, noEntry]
        rfl
      rw [gone, ended, Blocklist.contains, noEntry, noRecord]
      exact ⟨rfl, rfl, rfl⟩
  | some ban =>
      obtain ⟨expiry, found, isSaved⟩ := Option.bind_eq_some_iff.mp saved
      obtain ⟨left, runs, _⟩ := Option.map_eq_some_iff.mp isSaved
      obtain ⟨restoredEntry, restoredRecord⟩ :=
        restored_of_saved entry record found isSaved
      obtain ⟨wallFits, bootFits⟩ := far source expiry left found runs
      have still :
          before.blocklist.term? saving source =
            Term.ofExpiry? saving expiry := by
        rw [Blocklist.term?, found]
        rfl
      have comesBack :
          after.blocklist.term? restoring source =
            (savedSecs restoring ban).map Term.ofSecs :=
        term?_of_saved later wallFits bootFits runs isSaved restoredEntry
      refine ⟨?_, ?_, ?_⟩
      · rw [comesBack, still]
        refine savedSecs_of_saved later (fun other isOther => ?_) isSaved
        rw [runs, Option.some.injEq] at isOther
        rwa [← isOther]
      · rw [comesBack, Blocklist.contains, restoredEntry,
          Option.isSome_map, Option.isSome_map]
      · rw [comesBack, restoredRecord, Option.map_map]
        rfl

end

/-- A /64 for documentation, and how its address is printed and read. -/
def docPrefix : U64 := 0x20010db800010002

def docText : List Char :=
  ['2', '0', '0', '1', ':', 'd', 'b', '8', ':', '1', ':', '2', ':', ':']

def docIpv6 : Ipv6Text where
  print _ := docText
  parse text :=
    if text = docText then some (docPrefix.setWidth 128 <<< 64) else none

theorem solid_docText :
    ∀ char ∈ docText, RustText.isWhitespace char = false := by
  simp [docText, RustText.isWhitespace]

theorem docIpv6_readsBack :
    docIpv6.ReadsBack (docPrefix.setWidth 128 <<< 64) where
  parse := by
    simp [docIpv6]
  colon := by
    simp [docIpv6, docText]
  solid := solid_docText

/-- An address banned for good, and a /64 banned for another hour. -/
def bannedPair : Shared ℚ :=
  { freshShared with
    blocklist :=
      { v4 := ⟨(∅ : Table U32 U64).insert 0x0a000005 banForever, by decide⟩
        v6 :=
          some
            ⟨(∅ : Table U64 U64).insert docPrefix 4600000000000,
              by decide⟩ }
    records :=
      (∅ : Table Src BanRecord).insert (.v6 docPrefix)
        ⟨"port scan", "auto", 2⟩ }

/-- The state file that the pair is saved in. -/
def pairText : SavedText where
  bans :=
    [⟨"10.0.0.5".toList, 0, "banned by hand", "manual", 0⟩,
      ⟨"2001:db8:1:2::/64".toList, 1003600, "port scan", "auto", 2⟩]
  offenders := []

def pairFile : List Char :=
  ("\x7b\n  \"bans\": [\n    \x7b\n      \"ip\": \"10.0.0.5\",\n" ++
    "      \"expires_unix\": 0,\n" ++
    "      \"reason\": \"banned by hand\",\n" ++
    "      \"source\": \"manual\",\n" ++
    "      \"strikes\": 0\n    \x7d,\n" ++
    "    \x7b\n      \"ip\": \"2001:db8:1:2::/64\",\n" ++
    "      \"expires_unix\": 1003600,\n" ++
    "      \"reason\": \"port scan\",\n" ++
    "      \"source\": \"auto\",\n" ++
    "      \"strikes\": 2\n    \x7d\n" ++
    "  ],\n  \"offenders\": []\n\x7d").toList

def pairJson : Json where
  toVecPretty _ := pairFile
  fromStr text := if text = pairFile then some pairText else none

/-- Ten minutes later, after a reboot, the /64 has fifty minutes to go. -/
theorem pair_survives_reboot :
    (freshShared.restore (clockedHost 30 1000600)
        (Saved.load pairJson docIpv6
          (some
            ((bannedPair.captured (clockedHost 1000 1000000)).store
              pairJson docIpv6)))).blocklist.term?
        (clockedHost 30 1000600) (.v6 docPrefix) =
      some (.seconds 3000) := by
  have onlyPair (networkPrefix : U64) :
      bannedPair.blocklist.lookup (.v6 networkPrefix) =
        if networkPrefix = docPrefix then some 4600000000000 else none :=
    Table.lookup_insert_eq ∅ docPrefix networkPrefix _
  have onlyAddress (ip : U32) :
      bannedPair.blocklist.lookup (.v4 ip) =
        if ip = 0x0a000005 then some banForever else none :=
    Table.lookup_insert_eq ∅ 0x0a000005 ip _
  have readsBack :
      ∀ source,
        bannedPair.blocklist.contains source = true ∨
            source ∈ bannedPair.detector.offenders →
          source.ReadsBack docIpv6 := by
    rintro (ip | networkPrefix) (banned | tracked)
    · trivial
    · trivial
    · rw [Blocklist.contains, onlyPair] at banned
      split at banned
      · rename_i isDoc
        rw [isDoc]
        exact docIpv6_readsBack
      · cases banned
    · exact absurd tracked (AList.notMem_empty _)
  have far :
      FarFromOverflow (clockedHost 1000 1000000) (clockedHost 30 1000600)
        bannedPair.blocklist := by
    rintro (ip | networkPrefix) expiry left found runs
    · rw [onlyAddress] at found
      split at found
      · cases found
        rw [remaining_forever] at runs
        cases runs
        decide +kernel
      · cases found
    · rw [onlyPair] at found
      split at found
      · cases found
        have anHour :
            remaining (clockedHost 1000 1000000) 4600000000000 =
              some 3600 := by
          decide +kernel
        rw [anHour] at runs
        cases runs
        decide +kernel
      · cases found
  have saved :
      (bannedPair.captured (clockedHost 1000 1000000)).toText docIpv6 =
        pairText := by
    decide +kernel
  have jsonReadsBack :
      pairJson.ReadsBack
        ((bannedPair.captured (clockedHost 1000 1000000)).toText
          docIpv6) := by
    rw [saved]
    simp [Json.ReadsBack, pairJson]
  exact
    (bans_survive_reboot readsBack jsonReadsBack
      (fun _ => rfl) (by decide +kernel) far rfl rfl
      (.v6 docPrefix)).1.trans (by decide +kernel)

end Shared

end AiFirewall

import AiFirewall.Feeds
import AiFirewall.Runs

namespace AiFirewall

/-!
# Where a cached list comes from

A cached copy is found by the name of its source.  Own URLs are named by
their position, and a copy is replaced when it is old, not when the URL of
its name has changed; so a name can keep the copy of another URL.
-/

open Feeds

/-- A run of `refresh` with the configuration it was started with. -/
structure RefreshJob where
  cfg : FeedConfig
  force : Bool
  remaining : List (String × String)
  results : List (String × Option String)

/-- The `[feeds]` settings in force, the cached copies and the download. -/
structure FeedFiles where
  cfg : FeedConfig
  cache : Cache
  job : Option RefreshJob

inductive FeedFileEvent where
  /-- Accepted settings come into force, at a start or a reload. -/
  | configure (cfg : FeedConfig)
  /-- `refresh` is started, by the daemon or by hand. -/
  | startRefresh (cfg : FeedConfig) (force : Bool)
  /-- The next source of the refresh. -/
  | download (now : Nat) (download : Download)
  /-- The results are taken, or the refresh is cut short. -/
  | endRefresh

namespace FeedFiles

/-- Before anything was downloaded. -/
def uncached (cfg : FeedConfig) : FeedFiles where
  cfg := cfg
  cache := ∅
  job := none

def step (files : FeedFiles) : FeedFileEvent → FeedFiles
  | .configure cfg => { files with cfg := cfg }
  | .startRefresh cfg force =>
      match files.job with
      | none =>
          { files with job := some ⟨cfg, force, sources cfg, []⟩ }
      | some _ => files
  | .download now download =>
      match files.job with
      | some ⟨cfg, force, source :: rest, results⟩ =>
          let (cache, result) :=
            refreshSource cfg force now download files.cache source
          { files with
            cache := cache
            job := some ⟨cfg, force, rest, results ++ result.toList⟩ }
      | _ => files
  | .endRefresh => { files with job := none }

/-- Every network loaded for a source was downloaded from its URL. -/
def FromOwnUrls (files : FeedFiles) : Prop :=
  ∀ source ∈ sources files.cfg, ∀ protectedNets,
    ∀ net ∈ parse (cachedText files.cache source.1) protectedNets,
      ∃ file ∈ files.cache.lookup (cachePath source.1),
        file.origin = source.2

/-- A copy that names no network. -/
def Blank (text : Option String) : Prop :=
  ∀ protectedNets, parse (text.getD "") protectedNets = []

/-- The copies under the names of a configuration come from its URLs. -/
def CopiesOf (cache : Cache) (cfg : FeedConfig) : Prop :=
  ∀ source ∈ sources cfg,
    ∀ file ∈ cache.lookup (cachePath source.1),
      Blank file.text ∨ file.origin = source.2

/--
New settings give a name the URL its copy came from, and a download writes
under a name what the settings in force want there.
-/
def KeepsUrls (files : FeedFiles) : FeedFileEvent → Prop
  | .configure cfg => CopiesOf files.cache cfg
  | .startRefresh _ _ => True
  | .download now download =>
      ∀ cfg force name url rest results text,
        files.job = some ⟨cfg, force, (name, url) :: rest, results⟩ →
        isFresh cfg force now files.cache name = false →
        download.fetched = some text →
        download.renamed = true →
        ∀ source ∈ sources files.cfg,
          cachePath source.1 = cachePath name →
          Blank text ∨ url = source.2
  | .endRefresh => True

theorem fromOwnUrls_iff {files : FeedFiles} :
    files.FromOwnUrls ↔ CopiesOf files.cache files.cfg := by
  constructor
  · intro ownUrls source isSource file cached
    by_cases blank : Blank file.text
    · exact Or.inl blank
    · simp only [Blank, not_forall] at blank
      obtain ⟨protectedNets, some_net⟩ := blank
      obtain ⟨net, member⟩ := List.exists_mem_of_ne_nil _ some_net
      have loaded :
          net ∈ parse (cachedText files.cache source.1) protectedNets := by
        rw [cachedText, cached]
        exact member
      obtain ⟨other, same, isOrigin⟩ :=
        ownUrls source isSource protectedNets net loaded
      rw [cached] at same
      injection same with same
      exact Or.inr (same ▸ isOrigin)
  · intro copies source isSource protectedNets net loaded
    rw [cachedText] at loaded
    cases cached : files.cache.lookup (cachePath source.1) with
    | none =>
        rw [cached] at loaded
        cases loaded
    | some file =>
        rw [cached] at loaded
        rcases copies source isSource file cached with blank | isOrigin
        · have nothing : net ∈ parse (file.text.getD "") protectedNets :=
            loaded
          rw [blank protectedNets] at nothing
          cases nothing
        · exact ⟨file, rfl, isOrigin⟩

/-- What one source of a refresh does to the cache. -/
theorem refreshSource_cases
    (cfg : FeedConfig)
    (force : Bool)
    (now : Nat)
    (download : Download)
    (cache : Cache)
    (name url : String) :
    (∃ text,
        isFresh cfg force now cache name = false ∧
          download.fetched = some text ∧
          download.renamed = true ∧
          (refreshSource cfg force now download cache (name, url)).1 =
            cache.insert (cachePath name)
              ⟨text, download.finished, url⟩) ∨
      ((refreshSource cfg force now download cache (name, url)).1 = cache ∧
        ∀ text,
          isFresh cfg force now cache name = false →
          download.fetched = some text →
          download.renamed = true →
          False) := by
  unfold refreshSource
  split
  · rename_i fresh
    exact Or.inr ⟨rfl, fun _ stale => absurd fresh (by simp [stale])⟩
  · rename_i stale
    split
    · rename_i text fetched renamed
      exact Or.inl
        ⟨text, Bool.eq_false_iff.mpr stale, fetched, renamed, rfl⟩
    · rename_i failed
      exact Or.inr ⟨rfl, fun text _ fetched renamed =>
        failed text fetched renamed⟩

/-- A new copy belongs to every source of its path. -/
theorem copiesOf_insert_iff
    {cache : Cache}
    {cfg : FeedConfig}
    (copies : CopiesOf cache cfg)
    (path : String)
    (file : CachedFile) :
    CopiesOf (cache.insert path file) cfg ↔
      ∀ source ∈ sources cfg,
        cachePath source.1 = path →
        Blank file.text ∨ file.origin = source.2 := by
  constructor
  · intro after source isSource samePath
    refine after source isSource file ?_
    rw [samePath, AList.lookup_insert]
    rfl
  · intro fits source isSource other cached
    rw [Table.lookup_insert_eq] at cached
    split at cached
    · rename_i samePath
      injection cached with same
      subst same
      exact fits source isSource samePath
    · exact copies source isSource other cached

/-- A step ends with own copies exactly when it keeps the URLs. -/
theorem fromOwnUrls_step_iff
    {files : FeedFiles}
    (ownUrls : files.FromOwnUrls)
    (event : FeedFileEvent) :
    (files.step event).FromOwnUrls ↔ files.KeepsUrls event := by
  rw [fromOwnUrls_iff] at ownUrls ⊢
  cases event with
  | configure cfg =>
      exact Iff.rfl
  | startRefresh cfg force =>
      refine iff_of_true ?_ trivial
      cases isJob : files.job with
      | none =>
          simp only [step, isJob]
          exact ownUrls
      | some job =>
          simp only [step, isJob]
          exact ownUrls
  | endRefresh =>
      exact iff_of_true ownUrls trivial
  | download now download =>
      unfold step KeepsUrls
      dsimp only
      split
      · rename_i cfg force source rest results isJob
        obtain ⟨name, url⟩ := source
        rcases refreshSource_cases cfg force now download files.cache
            name url with
          ⟨text, stale, fetched, renamed, stored⟩ | ⟨kept, nothing⟩
        · rw [stored, copiesOf_insert_iff ownUrls]
          constructor
          · intro fits _ _ _ _ _ _ _ sameJob _ otherText _
            rw [isJob] at sameJob
            injection sameJob with sameJob
            injection sameJob with _ _ sameSource _
            injection sameSource with sameSource _
            injection sameSource with sameName sameUrl
            rw [fetched] at otherText
            injection otherText with sameText
            subst sameName sameUrl sameText
            exact fits
          · intro keeps source isSource samePath
            exact keeps cfg force name url rest results text isJob stale
              fetched renamed source isSource samePath
        · refine iff_of_true (by rw [kept]; exact ownUrls) ?_
          intro _ _ _ _ _ _ text sameJob stale fetched renamed
          rw [isJob] at sameJob
          injection sameJob with sameJob
          injection sameJob with sameCfg sameForce sameSource _
          injection sameSource with sameSource _
          injection sameSource with sameName _
          subst sameCfg sameForce sameName
          exact absurd renamed (nothing text stale fetched)
      · rename_i notRunning
        refine iff_of_true ownUrls ?_
        intro cfg force name url rest results _ isJob
        exact absurd isJob (notRunning cfg force (name, url) rest results)

/--
In every state of a run the networks of a source come from its own URL, if
and only if every step keeps the URLs of the cached names.
-/
theorem feeds_from_own_urls_iff
    (cfg : FeedConfig)
    (events : List FeedFileEvent) :
    (∀ past later,
        events = past ++ later →
        (Runs.run step (uncached cfg) past).FromOwnUrls) ↔
      Runs.Stepwise
        (fun past event =>
          (Runs.run step (uncached cfg) past).KeepsUrls event)
        events := by
  constructor
  · intro always past event later shape
    have before := always past (event :: later) shape
    have after := always (past ++ [event]) later (by rw [shape]; simp)
    rw [Runs.run_concat] at after
    exact (fromOwnUrls_step_iff before event).mp after
  · intro keeps past later shape
    subst shape
    refine Runs.Stepwise.invariant
      (fun _ files => FromOwnUrls files) ?_ ?_ keeps.before
    · rw [fromOwnUrls_iff]
      intro source _ file cached
      cases cached
    · intro before event keepsUrls ownUrls
      exact (fromOwnUrls_step_iff ownUrls event).mpr keepsUrls

def firstUrl : FeedConfig :=
  ⟨[], ["https://example.org/x.txt"], 24⟩

def secondUrl : FeedConfig :=
  ⟨[], ["https://example.com/y.txt"], 24⟩

/-- One list is downloaded, then the settings name another one. -/
def urlReplaced : List FeedFileEvent :=
  [.startRefresh firstUrl false,
    .download 0 ⟨some (some "1.10.16.0/20\n"), true, 0⟩,
    .endRefresh,
    .configure secondUrl,
    .startRefresh secondUrl false,
    -- The copy is a second old: nothing is downloaded.
    .download 1000000000 ⟨some (some "5.6.7.8\n"), true, 1000000000⟩,
    .endRefresh]

theorem urlReplaced_cached :
    (Runs.run step (uncached firstUrl) urlReplaced).cache.lookup
        (cachePath "custom-1") =
      some ⟨some "1.10.16.0/20\n", 0, "https://example.org/x.txt"⟩ := by
  decide +kernel

/-- The network of the removed list is loaded for the new one. -/
theorem removed_url_is_loaded :
    { Config.default with feeds := firstUrl }.validate = .ok () ∧
      { Config.default with feeds := secondUrl }.validate = .ok () ∧
      ¬(Runs.run step (uncached firstUrl) urlReplaced).FromOwnUrls := by
  refine ⟨by decide +kernel, by decide +kernel, fun ownUrls => ?_⟩
  have isSource :
      ("custom-1", "https://example.com/y.txt") ∈
        sources (Runs.run step (uncached firstUrl) urlReplaced).cfg := by
    decide +kernel
  have loaded :
      (⟨0x010a1000, 0xfffff000⟩ : Cidr) ∈
        parse
          (cachedText (Runs.run step (uncached firstUrl) urlReplaced).cache
            "custom-1") [] := by
    decide +kernel
  obtain ⟨file, cached, isOrigin⟩ := ownUrls _ isSource [] _ loaded
  rw [urlReplaced_cached] at cached
  injection cached with same
  subst same
  exact absurd isOrigin (by decide)

end FeedFiles

end AiFirewall

import AiFirewall.BanOrigins

namespace AiFirewall

/-!
# Both ban maps stay

A start opens the map for IPv4 and the one for IPv6, and nothing the daemon
does takes either away.
-/

open FallibleWrites

namespace Shared

section

variable
  {Score : Type}
  {host : Host}
  {shared : Shared Score}

/-- Both ban maps are there. -/
def HasBoth (shared : Shared Score) : Prop :=
  shared.blocklist.v6.isSome = true

theorem HasBoth.enact
    (both : shared.HasBoth)
    (ban : Ban Score) :
    (shared.enact host ban).HasBoth := by
  unfold Shared.enact HasBoth
  dsimp only
  split
  · cases inserted :
        shared.blocklist.insert? host ban.ip (expiryFor host ban.secs) with
    | none => exact both
    | some changed => exact (Blocklist.v6_isSome_of_insert? inserted).trans both
  · exact both

theorem HasBoth.handleBatch
    [ScoreArith Score]
    (both : shared.HasBoth)
    (batch : List PacketEvent) :
    (shared.handleBatch host batch).HasBoth := by
  induction batch generalizing shared with
  | nil =>
      exact both
  | cons event rest inductionHypothesis =>
      let observed : Shared Score :=
        { shared with
          detector :=
            (shared.detector.observe Score event host.bootSecs).2 }
      have seen : observed.HasBoth := both
      refine inductionHypothesis ?_
      unfold handleEvent
      dsimp only
      split
      · exact seen.enact _
      · exact seen

theorem HasBoth.sweep (both : shared.HasBoth) :
    (shared.sweep host).HasBoth := by
  have folded :
      ∀ (entries : List (Src × U64)) (swept : Shared Score),
        swept.HasBoth → (entries.foldl (sweepEntry host) swept).HasBoth := by
    intro entries
    induction entries with
    | nil =>
        exact fun _ both => both
    | cons entry rest inductionHypothesis =>
        intro swept both
        refine inductionHypothesis _ ?_
        unfold sweepEntry
        dsimp only
        split
        · exact (Blocklist.v6_isSome_drop _ _ _).trans both
        · split
          · exact both
          · exact both
  exact folded _ _ both

theorem HasBoth.refreshProtection
    (both : shared.HasBoth)
    (autoProtected : List Cidr)
    (ownV6Prefixes : List U64)
    (cfg : Config) :
    (shared.refreshProtection host autoProtected ownV6Prefixes
      cfg).HasBoth := by
  have folded :
      ∀ (lifted : List Src) (start : Shared Score),
        start.HasBoth → (lifted.foldl (lift host) start).HasBoth := by
    intro lifted
    induction lifted with
    | nil =>
        exact fun _ both => both
    | cons ip rest inductionHypothesis =>
        intro start both
        exact inductionHypothesis _
          ((Blocklist.v6_isSome_drop _ _ _).trans both)
  obtain ⟨trusted, lifted, _, same⟩ :=
    shared.refreshProtection_cases host autoProtected ownV6Prefixes cfg
  rw [same]
  exact folded _ _ both

theorem HasBoth.restoreBan
    (both : shared.HasBoth)
    (ban : SavedBan) :
    (shared.restoreBan host ban).HasBoth := by
  unfold Shared.restoreBan
  split
  · exact both
  · unfold HasBoth
    dsimp only
    split
    · exact both
    · cases inserted :
          shared.blocklist.insert? host ban.ip (expiryFor host _) with
      | none => exact both
      | some changed =>
          exact (Blocklist.v6_isSome_of_insert? inserted).trans both

end

end Shared

namespace System

section

variable
  {Score : Type}
  [ScoreArith Score]
  {system : System Score}
  {event : DaemonEvent}

end

end System

end AiFirewall

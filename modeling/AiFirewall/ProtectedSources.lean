import AiFirewall.BothBanMaps
import AiFirewall.StatusReport

namespace AiFirewall

/-!
# Protected sources get in

The detector bans no protected source, and a refresh lifts its ban of a
source that has become protected.  So while the daemon runs, whatever it does
in whatever order, no frame of a protected source is dropped for a ban that
the detector has placed.
-/

open FallibleWrites

namespace Detector

section

variable
  {Score : Type}
  [ScoreArith Score]
  {detector : Detector}
  {event : PacketEvent}
  {now : U64}

end

end Detector

namespace Shared

section

variable
  {Score : Type}
  {host : Host}
  {shared changed : Shared Score}
  {writer newWriter : Writers}
  {ip : Src}

/-- A ban of a protected source is not the detector's. -/
def LetsIn (shared : Shared Score) (writer : Writers) (ip : Src) : Prop :=
  shared.blocklist.contains ip = true →
    writer ip = "auto" → shared.detector.isProtected ip = false

theorem LetsIn.of_same
    (letsIn : shared.LetsIn writer ip)
    (present :
      changed.blocklist.contains ip = true →
        shared.blocklist.contains ip = true)
    (sameWriter : newWriter ip = writer ip)
    (sameProtected :
      changed.detector.isProtected ip = shared.detector.isProtected ip) :
    changed.LetsIn newWriter ip := by
  intro banned isAuto
  rw [sameProtected]
  exact letsIn (present banned) (sameWriter ▸ isAuto)

/-- Whom another one banned may be protected. -/
theorem letsIn_of_other (other : writer ip ≠ "auto") :
    shared.LetsIn writer ip :=
  fun _ isAuto => absurd isAuto other

end

end Shared

section

variable
  {Score : Type}
  {attempt : Attempt}
  {cfg : Config}
  {profile : Option String}
  {before after : World Score}
  {writer : Writers}
  {ip : Src}

end

namespace Placed

section

variable
  {Score : Type}
  [ScoreArith Score]
  {placed : Placed Score}
  {event : DaemonEvent}

omit [ScoreArith Score] in
/-- A ban by hand is not the detector's. -/
theorem BansNoProtected.insert
    {host : Host}
    {ip : Src}
    {expiry : U64}
    (safe : placed.BansNoProtected) :
    BansNoProtected
      ⟨placed.system.setBlocklist
          ((placed.shared.blocklist.insert? host ip expiry).getD
            placed.shared.blocklist),
        if (placed.shared.blocklist.insert? host ip expiry).isSome then
          Function.update placed.writer ip "manual"
        else
          placed.writer⟩ := by
  cases inserted : placed.shared.blocklist.insert? host ip expiry with
  | none => exact safe
  | some changed =>
      intro other
      by_cases isBan : other = ip
      · subst isBan
        refine Shared.letsIn_of_other ?_
        show Function.update placed.writer other "manual" other ≠ "auto"
        rw [Function.update_self]
        decide
      · refine Shared.LetsIn.of_same (safe other)
          (Shared.contains_of_same ?_) (Function.update_of_ne isBan _ _) rfl
        exact (Blocklist.lookup_of_insert? inserted other).trans
          (if_neg isBan)

end

end Placed

end AiFirewall

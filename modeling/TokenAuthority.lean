import TokenAuthority.Authority
import TokenAuthority.DigestKeys
import TokenAuthority.Endpoint.Basic
import TokenAuthority.Json.RoundTrip
import TokenAuthority.Sample
import TokenAuthority.Proofs.Wire.Reads
import TokenAuthority.Proofs.Token.Carriage
import TokenAuthority.Proofs.Interleaving
import TokenAuthority.Proofs.Discipline
import TokenAuthority.Proofs.Calls
import TokenAuthority.Proofs.Completion
import TokenAuthority.Proofs.Token.Minting
import TokenAuthority.Proofs.Chain.Descent
import TokenAuthority.Proofs.Chain.Phase
import TokenAuthority.Proofs.Chain.Invariant
import TokenAuthority.Proofs.Chain.Head
import TokenAuthority.Proofs.Chain.Growth
import TokenAuthority.Proofs.Chain.Burn
import TokenAuthority.Proofs.Chain.Replay
import TokenAuthority.Proofs.Chain.Retry
import TokenAuthority.Proofs.Code.Phase
import TokenAuthority.Proofs.Code.Spending
import TokenAuthority.Proofs.History.Phase
import TokenAuthority.Proofs.History.Invariant
import TokenAuthority.Proofs.Code.Redemption
import TokenAuthority.Proofs.Code.Retry
import TokenAuthority.Proofs.Moments
import TokenAuthority.Proofs.Provenance
import TokenAuthority.Proofs.Token.Verification
import TokenAuthority.Proofs.Token.Validity
import TokenAuthority.Proofs.Keys.Succession
import TokenAuthority.Proofs.Keys.Custody
import TokenAuthority.Proofs.Keys.Rotation
import TokenAuthority.Proofs.Keys.Lifetime
import TokenAuthority.Proofs.Records
import TokenAuthority.Proofs.Chain.Rejection
import TokenAuthority.Proofs.Lifetimes
import TokenAuthority.Proofs.Token.Freshness
import TokenAuthority.Proofs.Token.Signatures
import TokenAuthority.Proofs.Token.Kinds
import TokenAuthority.Proofs.Chain.Lineage
import TokenAuthority.Proofs.History.Forward
import TokenAuthority.Proofs.Ledger.Phase
import TokenAuthority.Proofs.Ledger.Accounts
import TokenAuthority.Proofs.Wire.KeySets
import TokenAuthority.Proofs.Token.Signers
import TokenAuthority.Proofs.Keys.Publication
import TokenAuthority.Proofs.Chain.Search
import TokenAuthority.Proofs.Chain.Decision
import TokenAuthority.Proofs.Text.Words
import TokenAuthority.Proofs.Scopes
import TokenAuthority.Proofs.Code.Acceptance
import TokenAuthority.Proofs.Code.Possession
import TokenAuthority.Proofs.Keys.Algorithms
import TokenAuthority.Proofs.Keys.Eviction
import TokenAuthority.Proofs.Metadata
import TokenAuthority.Proofs.Token.Agreement
import TokenAuthority.Proofs.Wire.Instants
import TokenAuthority.Proofs.Wire.RoundTrips
import TokenAuthority.Proofs.Token.Presentation

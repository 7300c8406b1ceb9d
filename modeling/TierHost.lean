import TierHost.Text.Blank
import TierHost.Text.DecimalDigit
import TierHost.Text.JsonText
import TierHost.Text.LowerCase
import TierHost.Text.Numeral
import TierHost.Text.Occurrence
import TierHost.Text.Wildcard
import TierHost.Binary64.Digits
import TierHost.Binary64.Reader
import TierHost.Template.Message
import TierHost.Digest.Sha256
import TierHost.Symbols.Builder
import TierHost.Symbols.Dump
import TierHost.Symbols.Outline
import TierHost.Symbols.Visitor
import TierHost.Tier.Generator
import TierHost.Lint.EventOrder
import TierHost.Lint.Run
import TierHost.Lint.Script
import TierHost.Host.Catalog
import TierHost.Proofs.Host.Polls
import TierHost.Proofs.Text.Occurrence
import TierHost.Proofs.Text.Order
import TierHost.Proofs.Symbols.Placed
import TierHost.Proofs.Tier.Outcome
import TierHost.Proofs.Sexp.RoundTrip
import TierHost.Proofs.Symbols.Loading
import TierHost.Proofs.Symbols.Outline
import TierHost.Proofs.Symbols.RoundTrip
import TierHost.Proofs.Symbols.Exports
import TierHost.Proofs.Tier.Valid
import TierHost.Proofs.Tier.Rename
import TierHost.Proofs.Symbols.Built
import TierHost.Proofs.Tier.Mirror
import TierHost.Proofs.Tier.Cache
import TierHost.Proofs.Tier.Shared
import TierHost.Proofs.Tier.Lift
import TierHost.Proofs.Tier.Again
import TierHost.Proofs.Tier.Links
import TierHost.Proofs.Tier.Cancellation
import TierHost.Proofs.Code.Walk
import TierHost.Proofs.Lint.Acting
import TierHost.Proofs.Lint.Registered
import TierHost.Proofs.Lint.Severities
import TierHost.Proofs.Lint.Blocks
import TierHost.Proofs.Code.Replace
import TierHost.Proofs.Lint.Swap
import TierHost.Proofs.Lint.Fix
import TierHost.Proofs.Code.Rebuild
import TierHost.Proofs.Lint.Ordered
import TierHost.Proofs.Lint.FixAll
import TierHost.Proofs.Text.Apart
import TierHost.Proofs.Tier.Climb
import TierHost.Proofs.Text.Front
import TierHost.Proofs.Tier.Landing
import TierHost.Proofs.Symbols.Fingerprint
import TierHost.Proofs.Lint.Selected
import TierHost.Proofs.Lint.Merged
import TierHost.Proofs.Tier.Output
import TierHost.Proofs.Tier.Lru
import TierHost.Proofs.Lint.Isolation
import TierHost.Proofs.Lint.SingleFix
import TierHost.Proofs.Text.Pieces
import TierHost.Proofs.Tier.Regular
import TierHost.Proofs.Text.Insertion
import TierHost.Proofs.Tier.Baseline
import TierHost.Symbols.PathTable
import TierHost.Proofs.Symbols.Dotted
import TierHost.Proofs.Symbols.Mentions
import TierHost.Proofs.Symbols.Tables
import TierHost.Proofs.Symbols.Represented
import TierHost.Proofs.Symbols.Building
import TierHost.Proofs.Symbols.Grammar
import TierHost.Proofs.Symbols.Reloaded
import TierHost.Proofs.Lint.Enrolled
import TierHost.Proofs.Lint.Suppressed
import TierHost.Proofs.Places
import TierHost.Proofs.Code.Places
import TierHost.Proofs.Code.Sharing
import TierHost.Proofs.Traversal
import TierHost.Proofs.Tier.Grammar
import TierHost.Proofs.Tier.Nested
import TierHost.Proofs.Tier.Emitted
import TierHost.Proofs.Tier.Accepted
import TierHost.Proofs.Text.Numeral
import TierHost.Proofs.Tier.Options

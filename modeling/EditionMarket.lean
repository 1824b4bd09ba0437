import EditionMarket.Text.Blank
import EditionMarket.Value.Display
import EditionMarket.Json.Printer
import EditionMarket.Json.Reader
import EditionMarket.Account
import EditionMarket.Metadata
import EditionMarket.Store.Family
import EditionMarket.Bank
import EditionMarket.Market.Query
import EditionMarket.Schema
import EditionMarket.Event.Sink
import EditionMarket.Store.Display
import EditionMarket.Proofs.Transaction.Layout
import EditionMarket.Proofs.Market.Enclosed
import EditionMarket.Proofs.Market.References
import EditionMarket.Proofs.Market.Authority
import EditionMarket.Proofs.Market.Answered
import EditionMarket.Proofs.Store.Refusal
import EditionMarket.Proofs.Market.Numbering
import EditionMarket.Proofs.Market.Consent
import EditionMarket.Proofs.Ledger
import EditionMarket.Proofs.Market.Replay
import EditionMarket.Proofs.Market.Unaided
import EditionMarket.Proofs.Market.Malformed
import EditionMarket.Proofs.Market.Precedence
import EditionMarket.Proofs.Market.Disconnected
import EditionMarket.Proofs.Market.Returned
import EditionMarket.Proofs.Argument
import EditionMarket.Proofs.Market.Bounds
import EditionMarket.Proofs.Market.Commuting
import EditionMarket.Proofs.Configuration.Run
import EditionMarket.Proofs.Json.Lexing
import EditionMarket.Proofs.Json.RoundTrip
import EditionMarket.Proofs.Files
import EditionMarket.Proofs.Event.Sinks
import EditionMarket.Proofs.Market.Sales
import EditionMarket.Proofs.Market.Minting
import EditionMarket.Proofs.Market.SelfTransfer
import EditionMarket.Proofs.Market.Dropping
import EditionMarket.Proofs.Store.Rights
import EditionMarket.Proofs.Configuration.Merging
import EditionMarket.Proofs.Configuration.Loading
import EditionMarket.Proofs.Bank.Accounting
import EditionMarket.Proofs.Roster.Multiset
import EditionMarket.Proofs.Event.Tail
import EditionMarket.Proofs.Files.Links
import EditionMarket.Proofs.Event.Opening

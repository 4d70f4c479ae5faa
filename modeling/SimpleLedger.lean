import SimpleLedger.Assembly.Genesis
import SimpleLedger.Assembly.Send
import SimpleLedger.Json.Writer
import SimpleLedger.Message.Decode
import SimpleLedger.Message.Encode
import SimpleLedger.Proofs.Amount.Decimal
import SimpleLedger.Proofs.Amount.Digits
import SimpleLedger.Proofs.Amount.Format
import SimpleLedger.Proofs.Amount.Scaling
import SimpleLedger.Proofs.Assembly.Acceptance
import SimpleLedger.Proofs.Assembly.Basic
import SimpleLedger.Proofs.Assembly.Budget
import SimpleLedger.Proofs.Assembly.Creation
import SimpleLedger.Proofs.Assembly.Genesis
import SimpleLedger.Proofs.Assembly.Range
import SimpleLedger.Proofs.Assembly.Relay
import SimpleLedger.Proofs.Assembly.Send
import SimpleLedger.Proofs.Assembly.Size
import SimpleLedger.Proofs.Bytes
import SimpleLedger.Proofs.Coin
import SimpleLedger.Proofs.Error
import SimpleLedger.Proofs.Fees
import SimpleLedger.Proofs.Framing
import SimpleLedger.Proofs.Funding
import SimpleLedger.Proofs.Funding.Criterion
import SimpleLedger.Proofs.Funding.Range
import SimpleLedger.Proofs.Funding.Sufficiency
import SimpleLedger.Proofs.Hex
import SimpleLedger.Proofs.Hex.Reading
import SimpleLedger.Proofs.Json.ReadBack
import SimpleLedger.Proofs.Json.Shape
import SimpleLedger.Proofs.Message.Canonical
import SimpleLedger.Proofs.Message.Continuation
import SimpleLedger.Proofs.Message.Grammar
import SimpleLedger.Proofs.Message.RoundTrip
import SimpleLedger.Proofs.Message.Spelling
import SimpleLedger.Proofs.Satoshi
import SimpleLedger.Proofs.Selection
import SimpleLedger.Proofs.Selection.ExactCover
import SimpleLedger.Proofs.Selection.Greedy
import SimpleLedger.Proofs.Selection.Listing
import SimpleLedger.Proofs.Selection.TopUp
import SimpleLedger.Proofs.StableSort
import SimpleLedger.Proofs.Text.Blank
import SimpleLedger.Proofs.TokenId
import SimpleLedger.Proofs.Utf8.Lossy
import SimpleLedger.Proofs.Utf8.Machine
import SimpleLedger.Proofs.Wallet.Atomic
import SimpleLedger.Proofs.Wallet.Backend
import SimpleLedger.Proofs.Wallet.Broadcasts
import SimpleLedger.Proofs.Wallet.Children
import SimpleLedger.Proofs.Wallet.Conservation
import SimpleLedger.Proofs.Wallet.Delivery
import SimpleLedger.Proofs.Wallet.Discipline
import SimpleLedger.Proofs.Wallet.DoubleSpend
import SimpleLedger.Proofs.Wallet.Invariant
import SimpleLedger.Proofs.Wallet.Plan
import SimpleLedger.Proofs.Wallet.Policy
import SimpleLedger.Proofs.Wallet.Range
import SimpleLedger.Proofs.Wallet.Run
import SimpleLedger.Proofs.Wallet.Serial
import SimpleLedger.Proofs.Wallet.Spending
import SimpleLedger.Proofs.Wire
import SimpleLedger.Wallet.Session
import SimpleLedger.Wire.Draft
import SimpleLedger.Wire.Message

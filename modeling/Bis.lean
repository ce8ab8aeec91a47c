import Bis.TigerBeetle.Solvency
import Bis.Velocity.Exactness
import Bis.Settlement.Delivery
import Bis.Metering.Charges
import Bis.Metering.Desk
import Bis.Payments.Coverage
import Bis.Payments.FourEyes
import Bis.Payments.Progress
import Bis.Payments.Settled
import Bis.Commercial.Expiry
import Bis.Settlement.Granting
import Bis.TigerBeetle.Replay
import Bis.TigerBeetle.Endpoints
import Bis.Velocity.Tenants
import Bis.Aml.DeadLetter
import Bis.Aml.Evidence
import Bis.Aml.Mt103
import Bis.Aml.Scoring
import Bis.Screening.Cache
import Bis.TigerBeetle.SubmitBatch
import Bis.Kafka.Latest
import Bis.Mobile.Restarts
import Bis.Gateway.Leases
import Bis.Pii.ForensicGuard
import Bis.Disputes.Closure
import Bis.Disputes.Attempts
import Bis.Adverse.Pauses
import Bis.Adverse.Waiting
import Bis.Adverse.Compliance
import Bis.Rotation.Payloads
import Bis.Sessions.Presented
import Bis.Monitoring.Turns
import Bis.Goaml.Submission
import Bis.Stablecoin.Windows
import Bis.DeadLetter.Replay
import Bis.Transfers.Once
import Bis.Lex.Guesses
import Bis.Lex.Secrecy
import Bis.Archive.Contents
import Bis.Archive.Tiers
import Bis.Secure.Restarts
import Bis.CaseManager.Portal
import Bis.CaseManager.Confidential
import Bis.Temporal.Decisions
import Bis.Temporal.FilingLaw
import Bis.Events.Contract
import Bis.TigerBeetle.Reconcile
import Bis.TigerBeetle.SignedBalance
import Bis.Velocity.Collection
import Bis.Velocity.Arrival
import Bis.Velocity.Payload
import Bis.PaymentRails.Reconciliation
import Bis.PaymentRails.BalanceLaw
import Bis.TigerBeetle.DebitClaimLaw
import Bis.TigerBeetle.LedgerAgreement
import Bis.WebhookRetry.Leases
import Bis.Settlement.Periods
import Bis.Transactions.Create
import Bis.Gateway.MojaloopCompliance
import Bis.PaymentRails.StatusAgreement
import Bis.Cache.Freshness
import Bis.Tokens.Successors
import Bis.Disputes.DeadlineProgress
import Bis.Disputes.SourceTaskAudit
import Bis.Lex.DailyLimit
import Bis.Apitoken.WindowLimit
import Bis.Verify.Explicit
import Bis.Gateway.ClientAddress
import Bis.Gateway.PhoneNumber
import Bis.Compliance.StatusWrites
import Bis.Compliance.Evidence
import Bis.Events.TraceContext
import Bis.Events.CorporateCheck
import Bis.Events.Subscriptions
import Bis.Gateway.PhoneBreaker

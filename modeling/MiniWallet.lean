import MiniWallet.Safety.Admission
import MiniWallet.Safety.Compensation
import MiniWallet.Safety.Confirmation
import MiniWallet.Safety.Currency
import MiniWallet.Safety.Deadlock
import MiniWallet.Safety.Delivery
import MiniWallet.Safety.DepositReplay
import MiniWallet.Safety.Exclusivity
import MiniWallet.Safety.History
import MiniWallet.Safety.Overdraft
import MiniWallet.Safety.PublicationOrder
import MiniWallet.Safety.Publishers
import MiniWallet.Safety.Reconciliation
import MiniWallet.Safety.Reference
import MiniWallet.Safety.Resending
import MiniWallet.Safety.Responses
import MiniWallet.Safety.Resolution
import MiniWallet.Safety.Rotation
import MiniWallet.Safety.SharedRetries
import MiniWallet.Safety.SystemAccount
import MiniWallet.Safety.TransferReplay
import MiniWallet.Safety.AuditTrail
import MiniWallet.Safety.Settlement
import MiniWallet.Safety.Webhook
import MiniWallet.Safety.WithdrawalReplay
import MiniWallet.Management.BackfillEvents
import MiniWallet.Management.Deployment
import MiniWallet.Safety.Chronology
import MiniWallet.Safety.Fingerprint
import MiniWallet.Safety.Progress
import MiniWallet.Safety.Counting
import MiniWallet.Safety.CountedOnce
import MiniWallet.Services.Transactions
import MiniWallet.Workers.PaymentScheduler
import MiniWallet.Safety.Privacy
import MiniWallet.Safety.Credentials
import MiniWallet.Safety.Comparison

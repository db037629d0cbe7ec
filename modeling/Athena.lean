import Athena.Execution.Isolation
import Athena.Execution.Pausing
import Athena.Execution.Recovery
import Athena.Execution.Requests
import Athena.Execution.Rejections
import Athena.Execution.Authority
import Athena.CashOuts.Evidence
import Athena.CashOuts.Lapse
import Athena.CashOuts.Termination
import Athena.Accounts.Expiry
import Athena.Accounts.Membership
import Athena.Sessions.Revocation
import Athena.Notifications.Idempotency
import Athena.Registration.Uniqueness
import Athena.Preview.Amounts
import Athena.Preview.Guard
import Athena.Preview.Lease
import Athena.Preview.Reading
import Athena.Indexers.FirstBlock
import Athena.ProfitSharing.Blindness
import Athena.RunProof.SingleUse
import Athena.Signing.Response
import Athena.Token.Poison
import Athena.Markets.Sync

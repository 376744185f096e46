import PrivacyShield.Lib.SignedInt
import PrivacyShield.Lib.PrefixCode
import PrivacyShield.Lib.FinmapSum
import PrivacyShield.Lib.Machine
import PrivacyShield.Lib.Posting
import PrivacyShield.Contract.Types
import PrivacyShield.Contract.Host
import PrivacyShield.Contract.Pool
import PrivacyShield.Contract.Transfer
import PrivacyShield.Contract.Disclosure
import PrivacyShield.Contract.Shield
import PrivacyShield.Verify.Success
import PrivacyShield.Verify.Ledger
import PrivacyShield.Contract.Soroban
import PrivacyShield.Verify.Accounts
import PrivacyShield.Verify.Supply
import PrivacyShield.Verify.HistoryLedger
import PrivacyShield.Verify.Records
import PrivacyShield.Verify.Disclosures
import PrivacyShield.Verify.Order
import PrivacyShield.Verify.Guards
import PrivacyShield.Client.App
import PrivacyShield.Client.Overdraft
import PrivacyShield.Client.Flows
import PrivacyShield.Lib.Simulation
import PrivacyShield.Verify.IdealPool
import PrivacyShield.Verify.Refinement
import PrivacyShield.Verify.Lifecycle
import PrivacyShield.Lib.Footprint
import PrivacyShield.Verify.Interleaving
import PrivacyShield.Verify.Availability
import PrivacyShield.Verify.Replay
import PrivacyShield.Client.Delivery
import PrivacyShield.Client.Int128Parts
import PrivacyShield.Lib.Additive
import PrivacyShield.Verify.Splitting
import PrivacyShield.Verify.Errors
import PrivacyShield.Verify.Minting
import PrivacyShield.Verify.Visibility
import PrivacyShield.Client.Honesty
import PrivacyShield.Verify.Reachable

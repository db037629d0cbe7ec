import Athena.Indexers.Chain
import Athena.Lib.Listing
import Athena.Lib.Transaction
import Mathlib.Data.Int.Order.Basic

/-!
# The inspection of a candidate

Every contract that a block creates is a candidate.  A contract on the chain says whether it is
a token, and what it calls itself.  The wallets that hold tokens after the creation are read
from the transfers of the creating transaction.  Name, symbol, supply and amounts are whatever
the contract answers and logs: any bytes, and any integers of 256 bits.
-/

namespace Athena.Token

open Athena.Indexers (Address Hash)
open Athena.Lib

abbrev Bytes : Type := List UInt8

inductive Failure
  | node
  | receiptNil
  | database
  | noRows
  | constraint (name : String)
  | exceedsInt64 (field : String)
  | blockMismatch (number checkpoint : ℕ)
  | candidateChain (chainID : ℤ)
  | candidateBlock (number : ℕ)
  | candidatePosition (number time : ℕ)
  | noWethPair (contract : Address)
  | noUsdtPair (contract : Address)
  | duration
  | timeOverflow
deriving DecidableEq

structure ProjectCandidate where
  chainID : ℤ
  contract : Address
  txSender : Address
  txHash : Hash
  txIndex : ℕ
  deploymentNonce : ℕ
  blockNumber : ℕ
  blockTime : ℕ
deriving DecidableEq

/-- What `ValidateERC20` answers of a contract. -/
structure AthenaToken where
  isValidERC20 : Bool
  name : Bytes
  symbol : Bytes
  decimals : UInt8
  totalSupply : BitVec 256
  wethPair : Address
  usdtPair : Address

structure Transfer where
  sender : Address
  recipient : Address
  tokens : BitVec 256

/-- A log of a receipt, with the transfer that it is when it can be parsed as one. -/
structure Log where
  address : Address
  transfer : Option Transfer

structure View where
  codeAt : Address → Option Bytes
  transactionReceipt : Hash → Option (Option (List Log))
  keccak256 : Bytes → Hash

/-! ## Initial recipients -/

structure InitialRecipientWallet where
  wallet : Address
  amount : ℤ
deriving DecidableEq

/-- The balances of the transfers so far. -/
structure Ledger where
  candidates : List Address := []
  netBalance : Address → ℤ := fun _ => 0

namespace Ledger

variable (l : Ledger)

def credit (wallet : Address) (amount : ℤ) : Ledger :=
  if wallet = 0 then l
  else
    { candidates := if wallet ∈ l.candidates then l.candidates else l.candidates ++ [wallet]
      netBalance := Function.update l.netBalance wallet (l.netBalance wallet + amount) }

def debit (wallet : Address) (amount : ℤ) : Ledger :=
  if wallet = 0 then l
  else { l with netBalance := Function.update l.netBalance wallet (l.netBalance wallet - amount) }

def apply (t : Transfer) : Ledger :=
  (l.credit t.recipient t.tokens.toNat).debit t.sender t.tokens.toNat

end Ledger

/-- The transfers of the token that are not empty. -/
def tokenTransfers (logs : List Log) (tokenContract : Address) : List Transfer :=
  logs.filterMap fun entry =>
    if entry.address = tokenContract then entry.transfer.filter fun t => 0 < t.tokens.toNat
    else none

/-- Who received more than they sent, the largest first. -/
def extractInitialRecipientWallets (logs : List Log) (tokenContract : Address) :
    List InitialRecipientWallet :=
  if tokenContract = 0 then []
  else
    let ledger := (tokenTransfers logs tokenContract).foldl Ledger.apply {}
    orderBy (fun r : InitialRecipientWallet => toLex (-r.amount, r.wallet.toNat))
      ((ledger.candidates.map fun wallet => ⟨wallet, ledger.netBalance wallet⟩).filter
        fun r => 0 < r.amount)

def initialRecipientWalletLimit : ℕ := 10

/-- The first recipients, of which a limit that is not positive keeps all. -/
def upTo (limit : ℤ) (result : List InitialRecipientWallet) : List InitialRecipientWallet :=
  if 0 < limit then result.take limit.toNat else result

def withCode (view : View) (r : InitialRecipientWallet) :
    Except Failure (InitialRecipientWallet × Bytes) := do
  let code ← found (view.codeAt r.wallet) .node
  pure (r, code)

/-- The recipients whose code is known to be empty, up to a limit. -/
def filterInitialRecipientWallets (limit : ℤ) (view : View)
    (recipients : List InitialRecipientWallet) :
    Except Failure (List InitialRecipientWallet) := do
  let inspected ← recipients.mapM (withCode view)
  pure (upTo limit ((inspected.filter fun x => x.2 = []).map Prod.fst))

/-! ## Inspections -/

inductive Role
  | creator
  | initialRecipient
deriving DecidableEq

structure RelatedWallet where
  wallet : Address
  role : Role
deriving DecidableEq

structure InitialRecipient where
  wallet : Address
  ratioBPS : Int64
  rankIndex : ℕ
  sourceTxHash : Hash
  sourceBlockNumber : ℕ
deriving DecidableEq

structure CandidateInspection where
  candidate : ProjectCandidate
  accepted : Bool := false
  codeHash : Hash := 0
  name : Bytes := []
  symbol : Bytes := []
  decimals : UInt8 := 0
  totalSupply : BitVec 256 := 0
  wethPair : Address := 0
  usdtPair : Address := 0
  relatedWallets : List RelatedWallet := []
  initialRecipients : List InitialRecipient := []

def basisPointsDenominator : ℤ := 10000

/-- The share of the supply, in basis points. -/
def ratio (amount : ℤ) (totalSupply : BitVec 256) : ℤ :=
  amount * basisPointsDenominator / totalSupply.toNat

/-- The initial recipients of a token.  `Int64` keeps the low 64 bits of the ratio. -/
def initialRecipients (candidate : ProjectCandidate) (totalSupply : BitVec 256)
    (recipients : List InitialRecipientWallet) : List InitialRecipient :=
  if 0 < totalSupply.toNat then
    recipients.zipIdx.map fun (r, index) =>
      ⟨r.wallet, Int64.ofInt (ratio r.amount totalSupply), index, candidate.txHash,
        candidate.blockNumber⟩
  else []

def relatedWallets (candidate : ProjectCandidate) (recipients : List InitialRecipientWallet) :
    List RelatedWallet :=
  (if candidate.txSender = 0 then [] else [⟨candidate.txSender, .creator⟩]) ++
    recipients.map fun r => ⟨r.wallet, .initialRecipient⟩

/-- A token has code; its recipients have none. -/
def acceptedRecipients (view : View) (candidate : ProjectCandidate) (validation : AthenaToken) :
    Except Failure (Option (Bytes × List InitialRecipientWallet)) := do
  if !validation.isValidERC20 then
    pure none
  else
    let code ← found (view.codeAt candidate.contract) .node
    if code = [] then
      pure none
    else
      let reply ← found (view.transactionReceipt candidate.txHash) .node
      let logs ← found reply .receiptNil
      let recipients ← filterInitialRecipientWallets initialRecipientWalletLimit view
        (extractInitialRecipientWallets logs candidate.contract)
      pure (some (code, recipients))

def inspectCandidate (view : View) (candidate : ProjectCandidate) (validation : AthenaToken) :
    Except Failure CandidateInspection := do
  match ← acceptedRecipients view candidate validation with
  | none => pure { candidate }
  | some (code, recipients) =>
    pure { candidate
           accepted := true
           codeHash := view.keccak256 code
           name := validation.name
           symbol := validation.symbol
           decimals := validation.decimals
           totalSupply := validation.totalSupply
           wethPair := validation.wethPair
           usdtPair := validation.usdtPair
           relatedWallets := relatedWallets candidate recipients
           initialRecipients := initialRecipients candidate validation.totalSupply recipients }

end Athena.Token

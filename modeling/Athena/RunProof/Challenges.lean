import Athena.Lib.Hex
import Athena.Lib.Numeral
import Athena.Registration.Handler

/-!
# Challenges for the authorization of a Run

Before a Run is executed its owner proves who they are once more: with a signature of the
Solana wallet they log in with, or with a fresh Google login.  What a proof is started with
is kept in Redis for five minutes, under a random value that only the browser knows.

Instants and durations are in nanoseconds, and instants count from the zero time.
-/

namespace Athena.RunProof

open Athena.Lib
open Athena.Registration (Identity Realm constantTimeEqual validOpaqueValue)

abbrev Bytes : Type := List UInt8

def second : ℕ := 1000000000

def minute : ℕ := 60 * second

/-- `wormExecutionChallengeTTL` and `wormExecutionTransactionTTL`. -/
def proofTTL : ℕ := 5 * minute

/-- The names of the deployment, the path that a browser is sent to in a realm, RFC 3339, and
the primitives. -/
structure Rules where
  domain : String
  publicOrigin : String
  returnToForRealm : String → Realm → String
  formatTime : ℕ → String
  sha256 : String → Bytes
  decodeBase64 : String → Option Bytes
  encodeBase64 : Bytes → String
  decodeBase58 : String → Option Bytes
  verify : Bytes → String → Bytes → Bool

/-! ## Texts -/

def isLowerHexDigit (c : Char) : Bool := ('0' ≤ c && c ≤ '9') || ('a' ≤ c && c ≤ 'f')

/-- The text is what `UUID.String` writes of a UUID other than zero. -/
def isCanonicalUUID (s : String) : Bool :=
  let groups := s.toList.splitOn '-'
  groups.map List.length = [8, 4, 4, 4, 12] && groups.flatten.all isLowerHexDigit &&
    groups.flatten.any (· ≠ '0')

def canonicalWormExecutionID (raw : String) : Option String :=
  if raw = "" || Text.trimSpace raw ≠ raw || !isCanonicalUUID raw then none else some raw

/-- `CanonicalAccountID` returns the value as it is. -/
def isCanonicalAccountID (value : String) : Bool := isCanonicalUUID value

def canonicalWormExecutionDigest (raw : String) : Option Bytes :=
  (Hex.decode raw).filter fun digest => digest.length = 32 && Hex.encode digest = raw

theorem encode_of_canonicalWormExecutionDigest {raw : String} {digest : Bytes}
    (h : canonicalWormExecutionDigest raw = some digest) : Hex.encode digest = raw := by
  have := (Option.filter_eq_some_iff.mp h).2
  simp only [check_iff] at this
  exact this.2

def wormExecutionDefaultReturnTo : String := "/worm-trading/executions"

def defaultReturnTo : String := "/account/access"

def validateWormExecutionReturnTo (rules : Rules) (raw runID : String) : String :=
  let fallback :=
    match canonicalWormExecutionID runID with
    | some canonical => wormExecutionDefaultReturnTo ++ "/" ++ canonical
    | none => wormExecutionDefaultReturnTo
  if raw = "" then fallback
  else
    let validated := rules.returnToForRealm raw .member
    if validated = defaultReturnTo && raw ≠ defaultReturnTo then fallback else validated

def parseWormExecutionExpectedRevision (raw : String) : Option ℤ :=
  if raw = "" || Text.trimSpace raw ≠ raw then none
  else (Numeral.readInt? raw).filter fun value => 0 < value && value ≤ maxInt64

/-! ## What is stored -/

/-- The Run, the command and the login session that a proof is for. -/
structure Binding where
  runID : String
  commandID : String
  expectedRevision : ℤ
  accountID : String
  sessionJTIDigestSHA256 : String
  accessRevision : ℕ
  deriving DecidableEq

/-- `wormExecutionChallenge` -/
structure Challenge extends Binding where
  address : String
  message : String
  nonce : String
  returnTo : String
  planDigestSHA256 : String
  createdAt : ℕ
  expiresAt : ℕ
  deriving DecidableEq

/-- `wormExecutionTransaction` -/
structure Transaction extends Binding where
  nonce : String
  verifier : String
  returnTo : String
  createdAt : ℕ
  deriving DecidableEq

def Binding.isValid (value : Binding) : Bool :=
  value.runID ≠ "" && value.commandID ≠ "" && 0 < value.expectedRevision &&
    value.accountID ≠ "" && value.sessionJTIDigestSHA256 ≠ "" && value.accessRevision ≠ 0 &&
    canonicalWormExecutionID value.runID = some value.runID &&
    canonicalWormExecutionID value.commandID = some value.commandID &&
    isCanonicalAccountID value.accountID &&
    (canonicalWormExecutionDigest value.sessionJTIDigestSHA256).isSome

def validateWormExecutionChallenge (rules : Rules) (value : Challenge) : Bool :=
  value.toBinding.isValid && value.address ≠ "" && value.message ≠ "" && value.nonce ≠ "" &&
    value.returnTo ≠ "" && value.planDigestSHA256 ≠ "" && value.createdAt ≠ 0 &&
    value.expiresAt ≠ 0 &&
    Registration.normalizeIdentitySubject .solanaWallet value.address = some value.address &&
    value.returnTo = validateWormExecutionReturnTo rules value.returnTo value.runID &&
    (canonicalWormExecutionDigest value.planDigestSHA256).isSome &&
    ((Hex.decode value.nonce).filter fun nonce =>
      nonce.length = 16 && Hex.encode nonce = value.nonce).isSome &&
    value.createdAt < value.expiresAt && value.expiresAt = value.createdAt + proofTTL

def wormExecutionStatePrefix : String := "wex."

def trimmed? (mark text : String) : Option String :=
  if mark.toList <+: text.toList then some (String.ofList (text.toList.drop mark.toList.length))
  else none

def validWormExecutionState (value : String) : Bool :=
  match trimmed? wormExecutionStatePrefix value with
  | some opaqueValue => validOpaqueValue opaqueValue
  | none => false

def validateWormExecutionTransaction (rules : Rules) (state : String) (value : Transaction) :
    Bool :=
  validWormExecutionState state && value.toBinding.isValid && value.nonce ≠ "" &&
    value.verifier ≠ "" && value.returnTo ≠ "" && value.createdAt ≠ 0 &&
    value.returnTo = validateWormExecutionReturnTo rules value.returnTo value.runID

/-! ## What a wallet signs -/

def wormExecutionSIWSStatement (runID : String) (planDigest : Bytes) : String :=
  "Authorize Athena to execute Worm Run ID " ++ runID ++ " with plan SHA-256 " ++
    Hex.encode planDigest ++
    ". Athena will sign the original transactions returned by Worm for this Run. " ++
    "The 10 USDC per-order limit is only Athena's requested funds maximum sent to Worm; " ++
    "it is not a cryptographic limit on the transaction's on-chain spending."

def siwsMessageWithStatement (rules : Rules) (address statement nonce : String)
    (issuedAt expiresAt : ℕ) : String :=
  rules.domain ++ " wants you to sign in with your Solana account:\n" ++ address ++ "\n\n" ++
    statement ++ "\n\nURI: " ++ rules.publicOrigin ++ "\nVersion: " ++ "1" ++ "\nChain ID: " ++
    "solana:mainnet" ++ "\nNonce: " ++ nonce ++ "\nIssued At: " ++ rules.formatTime issuedAt ++
    "\nExpiration Time: " ++ rules.formatTime expiresAt

def Mentions (text part : String) : Prop := ∃ before after, text = before ++ part ++ after

theorem Mentions.append_left {text part : String} (h : Mentions text part) (s : String) :
    Mentions (s ++ text) part := by
  obtain ⟨before, after, rfl⟩ := h
  exact ⟨s ++ before, after, by simp only [String.append_assoc]⟩

theorem Mentions.append_right {text part : String} (h : Mentions text part) (s : String) :
    Mentions (text ++ s) part := by
  obtain ⟨before, after, rfl⟩ := h
  exact ⟨before, after ++ s, by simp only [String.append_assoc]⟩

theorem mentions_self (text : String) : Mentions text text :=
  ⟨"", "", by simp⟩

theorem mentions_statement_run (runID : String) (planDigest : Bytes) :
    Mentions (wormExecutionSIWSStatement runID planDigest) runID := by
  unfold wormExecutionSIWSStatement
  iterate 5 apply Mentions.append_right
  exact (mentions_self runID).append_left _

theorem mentions_statement_plan (runID : String) (planDigest : Bytes) :
    Mentions (wormExecutionSIWSStatement runID planDigest) (Hex.encode planDigest) := by
  unfold wormExecutionSIWSStatement
  iterate 3 apply Mentions.append_right
  exact (mentions_self _).append_left _

theorem Mentions.message {rules : Rules} {address statement nonce part : String}
    {issuedAt expiresAt : ℕ} (h : Mentions statement part) :
    Mentions (siwsMessageWithStatement rules address statement nonce issuedAt expiresAt) part := by
  unfold siwsMessageWithStatement
  iterate 12 apply Mentions.append_right
  exact h.append_left _

end Athena.RunProof

import Athena.RunProof.Challenges

/-!
# The two proof flows

The Solana flow has a request that starts a proof, `challenge`, and one that ends it,
`verify`; the Google flow has `begins` and `callback`.  Every Redis script, every reading of
the clock or of a random value, and every injected function is one call.  Cookies that are
cleared, headers and logs are left out.
-/

namespace Athena.RunProof

open Athena.Lib
open Athena.Registration (Identity Realm constantTimeEqual validOpaqueValue)

inductive Flow
  | solana
  | google
  deriving DecidableEq

@[reducible] def Flow.Value : Flow → Type
  | .solana => Challenge
  | .google => Transaction

def Flow.binding : (f : Flow) → f.Value → Binding
  | .solana, value => value.toBinding
  | .google, value => value.toBinding

inductive Capability
  | login
  | apiKey
  deriving DecidableEq

/-- `AuthenticatedCredential` -/
structure Credential where
  capability : Capability
  jti : String
  accountID : String
  accessRevision : ℕ
  deriving DecidableEq

/-- `WormExecutionDescriptorRequest` -/
structure DescriptorRequest where
  runID : String
  commandID : String
  expectedRevision : ℤ
  accountID : String
  sessionJTIDigestSHA256 : Bytes
  accessRevision : ℕ
  returnTo : String
  deriving DecidableEq

/-- `WormExecutionDescriptor` -/
structure Descriptor where
  runID : String
  revision : ℤ
  planDigestSHA256 : Bytes
  deriving DecidableEq

inductive ProofKind
  | phantom
  | google
  deriving DecidableEq

/-- `WormExecutionAuthorizationRequest` of the two flows.  The Google flow has no plan. -/
structure AuthorizationRequest where
  runID : String
  commandID : String
  expectedRevision : ℤ
  accountID : String
  sessionJTIDigestSHA256 : Bytes
  accessRevision : ℕ
  planDigestSHA256 : Option Bytes
  returnTo : String
  proofKind : ProofKind
  deriving DecidableEq

/-- What the handler reads from a Google ID token that was verified.  The claims about the
email and the login are missing when they cannot be decoded. -/
structure IDToken where
  issuer : String
  subject : String
  nonce : String
  issuedAt : ℕ
  expiry : ℕ
  claims : Option (Bool × String × ℤ)
  deriving DecidableEq

/-! ## Failures -/

inductive StoreError
  | invalid
  | notFound
  | unavailable
  deriving DecidableEq

inductive Reason
  | loginSessionRequired
  | authorizationRequired
  | authorizationUnavailable
  deriving DecidableEq

/-- `googleVerificationError`, by its reason. -/
inductive VerificationError
  | googleUnavailable
  | googleNotAllowed
  deriving DecidableEq

/-- Why a function fails: what the store or Google says, or the response of a handler.  The
response to an injected function that fails is that of an injected writer. -/
inductive Failure
  | store (e : StoreError)
  | verification (e : VerificationError)
  | methodNotAllowed
  | response (status : ℕ) (reason : Reason)
  | redirect (returnTo : String) (reason : Reason)
  | injected
  deriving DecidableEq

/-! ## Calls -/

inductive Call
  | now
  | randomOpaqueValue
  | randomNonce
  | generateVerifier
  | authenticate (login : String)
  | getAccount (accountID : String)
  | loadDescriptor (request : DescriptorRequest)
  | create (f : Flow) (id : String) (value : f.Value)
  | consume (f : Flow) (id : String)
  | exchange (code verifier : String)
  | authorize (request : AuthorizationRequest)

@[reducible] def Call.Reply : Call → Type
  | .now => ℕ
  | .randomOpaqueValue | .randomNonce => Option String
  | .generateVerifier => String
  | .authenticate _ => Option Credential
  | .getAccount _ => Option Identity
  | .loadDescriptor _ => Option Descriptor
  | .create .. => Except StoreError ℤ
  | .consume f _ => Except StoreError (Option f.Value)
  | .exchange .. => Option IDToken
  | .authorize _ => Bool

abbrev Handler := Program Call Call.Reply Failure

abbrev Entry : Type := Program.Entry Call.Reply

def ask (c : Call) : Handler c.Reply := Program.ask c

def require (p : Prop) [Decidable p] (e : Failure) : Handler Unit := .ofExcept (ensure p e)

def expect {α : Type} (value : Option α) (e : Failure) : Handler α := .ofExcept (found value e)

def stored {α : Type} (reply : Except StoreError α) : Handler α :=
  .ofExcept (reply.mapError .store)

def answering {α : Type} (p : Handler α) (f : Failure → Failure) : Handler α := do
  let result ← p.attempt
  .ofExcept (result.mapError f)

/-! ## The stores -/

namespace ChallengeStore

def create (rules : Rules) (id : String) (value : Challenge) : Handler Unit := do
  require (validOpaqueValue id) (.store .invalid)
  require (validateWormExecutionChallenge rules value) (.store .invalid)
  let result : ℤ ← stored (← ask (.create .solana id value))
  require (result = 1) (.store .unavailable)

def consume (rules : Rules) (id : String) : Handler Challenge := do
  require (validOpaqueValue id) (.store .notFound)
  let reply : Option Challenge ← stored (← ask (.consume .solana id))
  let value ← expect reply (.store .notFound)
  require (validateWormExecutionChallenge rules value) (.store .notFound)
  let now : ℕ ← ask .now
  require (value.createdAt ≤ now + minute ∧ now < value.expiresAt) (.store .notFound)
  pure value

end ChallengeStore

namespace TransactionStore

def create (rules : Rules) (state : String) (value : Transaction) : Handler Unit := do
  require (validateWormExecutionTransaction rules state value) (.store .invalid)
  let result : ℤ ← stored (← ask (.create .google state value))
  require (result = 1) (.store .unavailable)

def consume (rules : Rules) (state : String) : Handler Transaction := do
  let reply : Option Transaction ← stored (← ask (.consume .google state))
  let value ← expect reply (.store .notFound)
  require (validateWormExecutionTransaction rules state value) (.store .notFound)
  let now : ℕ ← ask .now
  require (value.createdAt ≤ now + minute ∧ now ≤ value.createdAt + proofTTL) (.store .notFound)
  pure value

end TransactionStore

/-! ## Steps of both flows -/

def loginSession (login : String) (e : Failure) : Handler Credential := do
  let credential : Credential ← expect (← ask (.authenticate login)) e
  require (credential.capability = .login ∧ credential.jti ≠ "" ∧ credential.accessRevision ≠ 0 ∧
    credential.accessRevision ≤ maxInt64) e
  pure credential

def hasExternalIdentity (identity : Identity) : Bool :=
  (identity.provider = .google || identity.provider = .solanaWallet) &&
    (Registration.normalizeExternalIdentity identity).isSome

def bindingOf (rules : Rules) (runID commandID : String) (expectedRevision : ℤ)
    (credential : Credential) : Binding where
  runID := runID
  commandID := commandID
  expectedRevision := expectedRevision
  accountID := credential.accountID
  sessionJTIDigestSHA256 := Hex.encode (rules.sha256 credential.jti)
  accessRevision := credential.accessRevision

inductive Method
  | get
  | post
  | other
  deriving DecidableEq

/-! ## The Solana flow -/

/-- Where a request went: the value that the router found in the path, and the path. -/
structure Route where
  runID : String
  path : String

def wormExecutionRoutePrefix : String := "/auth/worm-trading/executions/"

def wormExecutionRunIDFromRequest (route : Route) (suffix : String) : Option String :=
  if route.runID ≠ "" then canonicalWormExecutionID route.runID
  else do
    let rest ← trimmed? wormExecutionRoutePrefix route.path
    -- the suffix is tested on the whole path, and what remains is cut at both ends
    if suffix.toList <:+ route.path.toList then
      let runID :=
        if suffix.toList <:+ rest.toList then
          rest.toList.take (rest.toList.length - suffix.toList.length)
        else rest.toList
      if '/' ∈ runID then none else canonicalWormExecutionID (String.ofList runID)
    else none

def validateWormExecutionDescriptor (request : DescriptorRequest) (descriptor : Descriptor) :
    Option Bytes := do
  let runID ← canonicalWormExecutionID descriptor.runID
  if constantTimeEqual runID request.runID && descriptor.revision = request.expectedRevision &&
      descriptor.planDigestSHA256.length = 32 then some descriptor.planDigestSHA256
  else none

def validOrigin (rules : Rules) (origin : String) : Bool :=
  origin ≠ "" && constantTimeEqual origin rules.publicOrigin

/-- A request that starts a proof.  The body is missing when it cannot be decoded. -/
structure ChallengeRequest where
  method : Method
  origin : String
  isJSON : Bool
  route : Route
  login : String
  body : Option (String × ℤ × String)

/-- The cookie, the message and the time at which both expire. -/
structure ChallengeResponse where
  cookie : String
  message : String
  expiresAt : ℕ

def challenge (rules : Rules) (r : ChallengeRequest) : Handler ChallengeResponse := do
  require (r.method = .post) .methodNotAllowed
  require (validOrigin rules r.origin) (.response 403 .authorizationRequired)
  require r.isJSON (.response 415 .authorizationRequired)
  let runID ← expect (wormExecutionRunIDFromRequest r.route "/solana/challenge")
    (.response 400 .authorizationRequired)
  let (rawCommandID, expectedRevision, rawReturnTo) ← expect r.body
    (.response 400 .authorizationRequired)
  let commandID ← expect (canonicalWormExecutionID rawCommandID)
    (.response 400 .authorizationRequired)
  require (0 < expectedRevision) (.response 400 .authorizationRequired)
  let returnTo := validateWormExecutionReturnTo rules rawReturnTo runID
  let credential ← loginSession r.login (.response 401 .loginSessionRequired)
  require (isCanonicalAccountID credential.accountID) (.response 401 .loginSessionRequired)
  let account : Identity ← expect (← ask (.getAccount credential.accountID))
    (.response 401 .authorizationRequired)
  require (account.provider = .solanaWallet ∧ hasExternalIdentity account)
    (.response 401 .authorizationRequired)
  let address ← expect (Registration.normalizeIdentitySubject .solanaWallet account.subject)
    (.response 401 .authorizationRequired)
  require (address = account.subject) (.response 401 .authorizationRequired)
  let descriptorRequest : DescriptorRequest :=
    ⟨runID, commandID, expectedRevision, credential.accountID, rules.sha256 credential.jti,
      credential.accessRevision, returnTo⟩
  let descriptor : Descriptor ← expect (← ask (.loadDescriptor descriptorRequest)) .injected
  let planDigest ← expect (validateWormExecutionDescriptor descriptorRequest descriptor)
    (.response 503 .authorizationUnavailable)
  let id : String ← expect (← ask .randomOpaqueValue) (.response 503 .authorizationUnavailable)
  let nonce : String ← expect (← ask .randomNonce) (.response 503 .authorizationUnavailable)
  let now : ℕ ← ask .now
  let issuedAt := now / second * second
  let expiresAt := issuedAt + proofTTL
  let statement := wormExecutionSIWSStatement runID planDigest
  let message := siwsMessageWithStatement rules address statement nonce issuedAt expiresAt
  answering (ChallengeStore.create rules id
    { toBinding := bindingOf rules runID commandID expectedRevision credential, address, message,
      nonce, returnTo, planDigestSHA256 := Hex.encode planDigest, createdAt := issuedAt,
      expiresAt })
    fun _ => .response 503 .authorizationUnavailable
  pure ⟨id, message, expiresAt⟩

/-- A request that ends a proof.  The body is missing when it cannot be decoded. -/
structure VerifyRequest where
  method : Method
  origin : String
  route : Route
  cookie : Option String
  login : String
  isJSON : Bool
  signature : Option String

def challengeFailed : Failure → Failure
  | .store .unavailable => .response 503 .authorizationUnavailable
  | _ => .response 401 .authorizationRequired

/-- The signature of a request, and its check under the address of the challenge. -/
def checkSignature (rules : Rules) (r : VerifyRequest) (value : Challenge) : Handler Unit := do
  require r.isJSON (.response 415 .authorizationRequired)
  let encoded ← expect r.signature (.response 400 .authorizationRequired)
  let signature ← expect (rules.decodeBase64 encoded) (.response 403 .authorizationRequired)
  require (signature.length = 64 ∧ rules.encodeBase64 signature = encoded)
    (.response 403 .authorizationRequired)
  let publicKey ← expect (rules.decodeBase58 value.address) (.response 403 .authorizationRequired)
  require (publicKey.length = 32 ∧ rules.verify publicKey value.message signature)
    (.response 403 .authorizationRequired)

def verify (rules : Rules) (r : VerifyRequest) : Handler Unit := do
  require (r.method = .post) .methodNotAllowed
  require (validOrigin rules r.origin) (.response 403 .authorizationRequired)
  let runID ← expect (wormExecutionRunIDFromRequest r.route "/solana/verify")
    (.response 400 .authorizationRequired)
  let cookie ← expect (r.cookie.filter fun value => validOpaqueValue value)
    (.response 401 .authorizationRequired)
  let value ← answering (ChallengeStore.consume rules cookie) challengeFailed
  require (constantTimeEqual value.runID runID) (.response 401 .authorizationRequired)
  let credential ← loginSession r.login (.response 401 .loginSessionRequired)
  let currentSessionDigest := rules.sha256 credential.jti
  let storedSessionDigest ← expect (canonicalWormExecutionDigest value.sessionJTIDigestSHA256)
    (.response 401 .authorizationRequired)
  require (constantTimeEqual value.accountID credential.accountID ∧
    storedSessionDigest = currentSessionDigest ∧ value.accessRevision = credential.accessRevision)
    (.response 401 .authorizationRequired)
  let account : Identity ← expect (← ask (.getAccount credential.accountID))
    (.response 401 .authorizationRequired)
  require (account.provider = .solanaWallet ∧ constantTimeEqual account.subject value.address)
    (.response 401 .authorizationRequired)
  let planDigest ← expect (canonicalWormExecutionDigest value.planDigestSHA256)
    (.response 401 .authorizationRequired)
  let descriptorRequest : DescriptorRequest :=
    ⟨value.runID, value.commandID, value.expectedRevision, value.accountID, currentSessionDigest,
      value.accessRevision, value.returnTo⟩
  let descriptor : Descriptor ← expect (← ask (.loadDescriptor descriptorRequest)) .injected
  let currentPlanDigest ← expect (validateWormExecutionDescriptor descriptorRequest descriptor)
    (.response 401 .authorizationRequired)
  require (planDigest = currentPlanDigest) (.response 401 .authorizationRequired)
  let expectedStatement := wormExecutionSIWSStatement value.runID planDigest
  let expectedMessage := siwsMessageWithStatement rules value.address expectedStatement value.nonce
    value.createdAt value.expiresAt
  require (constantTimeEqual expectedMessage value.message) (.response 401 .authorizationRequired)
  checkSignature rules r value
  let authorized : Bool ← ask (.authorize
    { runID := value.runID, commandID := value.commandID,
      expectedRevision := value.expectedRevision, accountID := value.accountID,
      sessionJTIDigestSHA256 := currentSessionDigest, accessRevision := value.accessRevision,
      planDigestSHA256 := some planDigest, returnTo := value.returnTo, proofKind := .phantom })
  require authorized .injected

/-! ## The Google flow -/

/-- A request that starts a proof, by its query.  The realm is missing when it does not appear
exactly once, cannot be parsed, or differs from that of the header. -/
structure BeginRequest where
  method : Method
  runID : String
  commandID : String
  expectedRevision : String
  returnTo : String
  realm : Option Realm
  login : String

structure BeginResponse where
  state : String
  nonce : String
  verifier : String

/-- `begin`, which is a keyword. -/
def begins (rules : Rules) (r : BeginRequest) : Handler BeginResponse := do
  require (r.method = .get) .methodNotAllowed
  let runID ← expect (canonicalWormExecutionID r.runID)
    (.redirect wormExecutionDefaultReturnTo .authorizationRequired)
  let returnTo := validateWormExecutionReturnTo rules r.returnTo runID
  let commandID ← expect (canonicalWormExecutionID r.commandID)
    (.redirect returnTo .authorizationRequired)
  let expectedRevision ← expect (parseWormExecutionExpectedRevision r.expectedRevision)
    (.redirect returnTo .authorizationRequired)
  require (r.realm = some .member) (.redirect returnTo .loginSessionRequired)
  let credential ← loginSession r.login (.redirect returnTo .loginSessionRequired)
  require (isCanonicalAccountID credential.accountID) (.redirect returnTo .loginSessionRequired)
  let account : Identity ← expect (← ask (.getAccount credential.accountID))
    (.redirect returnTo .authorizationRequired)
  require (account.provider = .google ∧ hasExternalIdentity account)
    (.redirect returnTo .authorizationRequired)
  let opaqueValue : String ← expect (← ask .randomOpaqueValue)
    (.redirect returnTo .authorizationUnavailable)
  let state := wormExecutionStatePrefix ++ opaqueValue
  let nonce : String ← expect (← ask .randomOpaqueValue)
    (.redirect returnTo .authorizationUnavailable)
  let verifier : String ← ask .generateVerifier
  let createdAt : ℕ ← ask .now
  answering (TransactionStore.create rules state
    { toBinding := bindingOf rules runID commandID expectedRevision credential, nonce, verifier,
      returnTo, createdAt })
    fun _ => .redirect returnTo .authorizationUnavailable
  pure ⟨state, nonce, verifier⟩

def unixEpoch : ℕ := 62135596800 * second

/-- The checks of `exchangeAndVerify` on a token whose signature was verified. -/
def verifyIDToken (now : ℕ) (token : IDToken) (nonce : String) (reauthenticatedAfter : ℕ) :
    Except VerificationError String := do
  ensure (token.issuer = "https://accounts.google.com" ∨ token.issuer = "accounts.google.com")
    .googleNotAllowed
  ensure (token.issuedAt ≠ 0 ∧ token.issuedAt ≤ now + minute ∧ token.expiry ≠ 0) .googleNotAllowed
  ensure (token.subject ≠ "" ∧ constantTimeEqual token.nonce nonce) .googleNotAllowed
  let (emailVerified, email, authTime) ← found token.claims .googleNotAllowed
  ensure (emailVerified ∧ Text.trimSpace email ≠ "") .googleNotAllowed
  if reauthenticatedAfter ≠ 0 then
    ensure (0 < authTime) .googleNotAllowed
    let authTime := unixEpoch + authTime.toNat * second
    ensure (authTime ≤ now + minute ∧ reauthenticatedAfter ≤ authTime + minute) .googleNotAllowed
  pure token.subject

def exchangeAndVerify (code verifier nonce : String) (reauthenticatedAfter : ℕ) :
    Handler String := do
  let token : IDToken ← expect (← ask (.exchange code verifier)) (.verification .googleUnavailable)
  let now : ℕ ← ask .now
  .ofExcept ((verifyIDToken now token nonce reauthenticatedAfter).mapError .verification)

structure CallbackRequest where
  method : Method
  state : String
  cookie : Option String
  error : String
  code : String
  login : String

def transactionFailed : Failure → Failure
  | .store .unavailable => .redirect wormExecutionDefaultReturnTo .authorizationUnavailable
  | _ => .redirect wormExecutionDefaultReturnTo .authorizationRequired

def verificationFailed (returnTo : String) : Failure → Failure
  | .verification .googleNotAllowed => .redirect returnTo .authorizationRequired
  | _ => .redirect returnTo .authorizationUnavailable

def callback (rules : Rules) (r : CallbackRequest) : Handler String := do
  require (r.method = .get) .methodNotAllowed
  require (validWormExecutionState r.state)
    (.redirect wormExecutionDefaultReturnTo .authorizationRequired)
  let value ← answering (TransactionStore.consume rules r.state) transactionFailed
  let returnTo := validateWormExecutionReturnTo rules value.returnTo value.runID
  let cookie ← expect r.cookie (.redirect returnTo .authorizationRequired)
  require (constantTimeEqual cookie r.state) (.redirect returnTo .authorizationRequired)
  let credential ← loginSession r.login (.redirect returnTo .loginSessionRequired)
  let currentSessionDigest := rules.sha256 credential.jti
  let storedSessionDigest ← expect (Hex.decode value.sessionJTIDigestSHA256)
    (.redirect returnTo .authorizationRequired)
  require (storedSessionDigest.length = 32 ∧
    constantTimeEqual value.accountID credential.accountID ∧
    storedSessionDigest = currentSessionDigest ∧ value.accessRevision = credential.accessRevision)
    (.redirect returnTo .authorizationRequired)
  require (r.error = "" ∧ r.code ≠ "") (.redirect returnTo .authorizationRequired)
  let subject ← answering (exchangeAndVerify r.code value.verifier value.nonce value.createdAt)
    (verificationFailed returnTo)
  let account : Identity ← expect (← ask (.getAccount credential.accountID))
    (.redirect returnTo .authorizationRequired)
  require (account.provider = .google ∧ constantTimeEqual account.subject subject)
    (.redirect returnTo .authorizationRequired)
  let authorized : Bool ← ask (.authorize
    { runID := value.runID, commandID := value.commandID,
      expectedRevision := value.expectedRevision, accountID := value.accountID,
      sessionJTIDigestSHA256 := currentSessionDigest, accessRevision := value.accessRevision,
      planDigestSHA256 := none, returnTo, proofKind := .google })
  require authorized .injected
  pure returnTo

end Athena.RunProof

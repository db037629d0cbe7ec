import Athena.Lib.Scripts
import Athena.RunProof.Handlers

/-!
# Proofs side by side

Redis holds what the flows store until five minutes have passed.  Login sessions, accounts and
Runs belong to other components and change at any time.  A script runs as a whole; its answer
may be lost.

Every value that is stored gets a number.  No function reads it; it tells apart the values that
were stored under one key at different times.
-/

namespace Athena.RunProof

open Athena.Lib Function Option
open Athena.Registration (Identity constantTimeEqual validOpaqueValue)

/-- A value under a key, with the time at which it expires and its number. -/
structure Slot (α : Type) where
  value : α
  expiresAt : ℕ
  serial : ℕ

structure Run where
  ownerAccountID : String
  revision : ℤ
  planDigestSHA256 : Bytes
  authorizable : Bool

/-- The shared state.  A counter belongs to an account, or to all of a flow. -/
structure Shared where
  now : ℕ := 0
  stored : ℕ := 0
  slots : (f : Flow) → String → Option (Slot f.Value) := fun _ _ => none
  counters : Flow → Option String → Option (ℕ × ℕ) := fun _ _ => none
  sessions : String → Option Credential := fun _ => none
  accounts : String → Option Identity := fun _ => none
  runs : String → Option Run := fun _ => none

namespace Shared

variable (s : Shared)

def setSlot (f : Flow) (id : String) (slot : Option (Slot f.Value)) : Shared :=
  { s with slots := update s.slots f (update (s.slots f) id slot) }

def liveSlot (f : Flow) (id : String) : Option (Slot f.Value) :=
  (s.slots f id).filter fun slot => s.now < slot.expiresAt

def liveCounter (f : Flow) (key : Option String) : Option (ℕ × ℕ) :=
  (s.counters f key).filter fun counter => s.now < counter.2

/-- `INCR`, and `EXPIRE` for a counter that was not there. -/
def increment (f : Flow) (key : Option String) : Shared :=
  let counter :=
    match s.liveCounter f key with
    | some (n, expiresAt) => (n + 1, expiresAt)
    | none => (1, s.now + minute)
  let counters := update (s.counters f) key (some counter)
  { s with counters := update s.counters f counters }

def count (f : Flow) (key : Option String) : ℕ := ((s.liveCounter f key).map Prod.fst).getD 0

end Shared

/-! ## The scripts -/

namespace Redis

def rateGlobalLimit : ℕ := 120

def rateAccountLimit : ℕ := 20

/-- `SET … EX … NX`, the last statement of the script that stores a value. -/
def set (s : Shared) (f : Flow) (id : String) (value : f.Value) : Shared × ℤ :=
  match s.liveSlot f id with
  | some _ => (s, -1)
  | none =>
    ({ s.setSlot f id (some ⟨value, s.now + proofTTL, s.stored⟩) with stored := s.stored + 1 }, 1)

def create (s : Shared) (f : Flow) (id : String) (value : f.Value) : Shared × ℤ :=
  if rateGlobalLimit ≤ s.count f none then (s, 0)
  else
    let account := some (f.binding value).accountID
    let s := s.increment f account
    if rateAccountLimit < s.count f account then (s, 0)
    else set (s.increment f none) f id value

def consume (s : Shared) (f : Flow) (id : String) : Shared × Option f.Value :=
  match s.liveSlot f id with
  | some slot => (s.setSlot f id none, some slot.value)
  | none => (s, none)

end Redis

/-! ## The environment -/

/-- `loadPhantomWormExecutionDescriptor` -/
def Shared.descriptor (s : Shared) (request : DescriptorRequest) : Option Descriptor := do
  let runID ← canonicalWormExecutionID request.runID
  let run ← s.runs runID
  if 0 < request.expectedRevision && request.sessionJTIDigestSHA256.length = 32 &&
      request.accessRevision ≠ 0 && request.accessRevision ≤ maxInt64 &&
      isCanonicalAccountID request.accountID && run.ownerAccountID = request.accountID &&
      run.revision = request.expectedRevision && run.authorizable &&
      run.planDigestSHA256.length = 32 then
    some ⟨runID, run.revision, run.planDigestSHA256⟩
  else none

/-- How the calls are served.  Random values, tokens and the results of other components may
be anything. -/
def serves (s : Shared) : (c : Call) → c.Reply → Shared → Prop
  | .now, r, s' => r = s.now ∧ s' = s
  | .randomOpaqueValue, _, s' | .randomNonce, _, s' | .generateVerifier, _, s'
  | .exchange .., _, s' => s' = s
  | .authenticate login, r, s' => s' = s ∧ (r = none ∨ r = s.sessions login)
  | .getAccount accountID, r, s' => s' = s ∧ (r = none ∨ r = s.accounts accountID)
  | .loadDescriptor request, r, s' => s' = s ∧ (r = none ∨ r = s.descriptor request)
  | .create f id value, r, s' => Served (.ok (Redis.create s f id value)) .unavailable s r s'
  | .consume f id, r, s' => Served (.ok (Redis.consume s f id)) .unavailable s r s'
  | .authorize _, _, s' => ∃ runs, s' = { s with runs }

/-- What happens without the handlers: time passes, a key is evicted, and the other components
go on. -/
inductive Drifts (s : Shared) : Shared → Prop
  | tick (t : ℕ) (h : s.now ≤ t) : Drifts s { s with now := t }
  | evict (f : Flow) (id : String) : Drifts s (s.setSlot f id none)
  | others (sessions accounts runs) : Drifts s { s with sessions, accounts, runs }

inductive Request
  | challenge (r : ChallengeRequest)
  | verify (r : VerifyRequest)
  | begins (r : BeginRequest)
  | callback (r : CallbackRequest)

def handle (rules : Rules) : Request → Handler Unit
  | .challenge r => do let _ ← challenge rules r; pure ()
  | .verify r => verify rules r
  | .begins r => do let _ ← begins rules r; pure ()
  | .callback r => do let _ ← callback rules r; pure ()

/-- Every turn handles its request. -/
def pool (rules : Rules) (requests : ℕ → Request) : Pool Shared Call Call.Reply Failure where
  init := {}
  starts i p := p = handle rules (requests i)
  serves := serves
  drifts := Drifts

abbrev World : Type := Pool.World Shared Call.Reply Failure

abbrev Event : Type := Pool.Event Shared Call.Reply

/-! ## The rules of the handlers -/

/-- The value of the cookie that tells the login session. -/
def Request.login : Request → String
  | .challenge r => r.login
  | .verify r => r.login
  | .begins r => r.login
  | .callback r => r.login

/-- A request that ends a proof names the stored value: by its cookie, or by its state, which its
cookie repeats. -/
inductive Request.Presents : Request → Flow → String → Prop
  | cookie {r : VerifyRequest} {id} (h : r.cookie = some id) : Presents (.verify r) .solana id
  | state {r : CallbackRequest} (h : r.cookie = some r.state) :
      Presents (.callback r) .google r.state

structure SameSession (rules : Rules) (b : Binding) (c : Credential) : Prop where
  login : c.capability = .login
  account : c.accountID = b.accountID
  session : Hex.encode (rules.sha256 c.jti) = b.sessionJTIDigestSHA256
  access : c.accessRevision = b.accessRevision

def Recognised (rules : Rules) (q : Request) (h : List Entry) (b : Binding) : Prop :=
  ∃ c, (⟨.authenticate q.login, some c⟩ : Entry) ∈ h ∧ SameSession rules b c

def Flow.Fresh : (f : Flow) → f.Value → ℕ → Prop
  | .solana, value, now => now < value.expiresAt
  | .google, value, now => now ≤ value.createdAt + proofTTL

structure Carries (b : Binding) (request : AuthorizationRequest) : Prop where
  run : request.runID = b.runID
  command : request.commandID = b.commandID
  revision : request.expectedRevision = b.expectedRevision
  account : request.accountID = b.accountID
  session : Hex.encode request.sessionJTIDigestSHA256 = b.sessionJTIDigestSHA256
  access : request.accessRevision = b.accessRevision

/-- The request has a signature of the wallet of an identity on a challenge whose message names
its Run and a plan. -/
structure Signed (rules : Rules) (q : Request) (value : Challenge) (identity : Identity)
    (planDigest : Bytes) : Prop where
  provider : identity.provider = .solanaWallet
  signature : ∃ r encoded bytes publicKey, q = .verify r ∧ r.signature = some encoded ∧
    rules.decodeBase64 encoded = some bytes ∧
    rules.decodeBase58 identity.subject = some publicKey ∧
      rules.verify publicKey value.message bytes
  run : Mentions value.message value.runID
  plan : Mentions value.message (Hex.encode planDigest)

/-- Google vouched for an identity in answer to a transaction. -/
structure Vouched (value : Transaction) (identity : Identity) (token : IDToken) : Prop where
  provider : identity.provider = .google
  subject : identity.subject = token.subject
  nonce : token.nonce = value.nonce

/-- What a handler did after it knew the login session, when it authorizes a Run. -/
def Proved (rules : Rules) (q : Request) (h : List Entry) (request : AuthorizationRequest) :
    (f : Flow) → f.Value → Prop
  | .solana, value => ∃ identity descriptorRequest descriptor,
      (⟨.getAccount value.accountID, some identity⟩ : Entry) ∈ h ∧
      (⟨.loadDescriptor descriptorRequest, some descriptor⟩ : Entry) ∈ h ∧
      descriptorRequest.runID = value.runID ∧
      Signed rules q value identity descriptor.planDigestSHA256 ∧
      request.planDigestSHA256 = some descriptor.planDigestSHA256
  | .google, value => ∃ identity r token, q = .callback r ∧
      (⟨.getAccount value.accountID, some identity⟩ : Entry) ∈ h ∧
      (⟨.exchange r.code value.verifier, some token⟩ : Entry) ∈ h ∧ Vouched value identity token

def Rule (rules : Rules) (q : Request) (h : List Entry) : Call → Prop
  | .create f _ value => Recognised rules q h (f.binding value)
  | .consume .. => h = []
  | .authorize request => ∃ f id value now c rest, q.Presents f id ∧
      h = [⟨.consume f id, .ok (some value)⟩, ⟨.now, now⟩, ⟨.authenticate q.login, some c⟩] ++
        rest ∧
      (∀ x ∈ rest, ∀ request r, x ≠ ⟨.authorize request, r⟩) ∧
      f.Fresh value now ∧ SameSession rules (f.binding value) c ∧
      Carries (f.binding value) request ∧ Proved rules q h request f value
  | _ => True

section programs

open Program

variable {rules : Rules} {q : Request} {h : List Entry}

theorem yields_answering_bind {α β : Type} {p : Handler α} {f : Failure → Failure}
    {next : α → Handler β} {Q : List Entry → α → Prop} {Q' : List Entry → β → Prop}
    (hp : Yields (Rule rules q) p h Q)
    (hnext : ∀ h' a, h <+: h' → Q h' a → Yields (Rule rules q) (next a) h' Q') :
    Yields (Rule rules q) (answering p f >>= next) h Q' := by
  have hanswering : Yields (Rule rules q) (answering p f) h Q := by
    refine hp.attempt_bind (fun h' a _ hQ => ?_) fun h' e _ => ?_
    · refine yields_ofExcept fun b hb => ?_
      obtain rfl := Except.ok.inj (mapError_eq_ok.mp hb)
      exact hQ
    · refine yields_ofExcept fun b hb => ?_
      cases mapError_eq_ok.mp hb
  exact hanswering.bind hnext

theorem yields_loginSession {login : String} {e : Failure} :
    Yields (Rule rules q) (loginSession login e) h fun h' c =>
      c.capability = .login ∧ h' = h ++ [⟨.authenticate login, some c⟩] := by
  refine yields_ask_bind trivial fun reply => yields_ofExcept_bind fun c hc => ?_
  obtain rfl := found_eq_ok.mp hc
  refine yields_ofExcept_bind fun _ hensure => yields_pure ?_
  exact ⟨(ensure_eq_ok.mp hensure).1, rfl⟩

theorem yields_challengeStore_consume {id : String} :
    Yields (Rule rules q) (ChallengeStore.consume rules id) [] fun h' value => ∃ now,
      h' = [⟨.consume .solana id, .ok (some value)⟩, ⟨.now, now⟩] ∧ now < value.expiresAt := by
  refine yields_ofExcept_bind fun _ _ => yields_ask_bind rfl fun reply => ?_
  refine yields_ofExcept_bind fun found? hreply => yields_ofExcept_bind fun value hvalue => ?_
  obtain rfl := mapError_eq_ok.mp hreply
  obtain rfl := found_eq_ok.mp hvalue
  refine yields_ofExcept_bind fun _ _ => yields_ask_bind trivial fun now => ?_
  refine yields_ofExcept_bind fun _ hfresh => yields_pure ⟨now, rfl, ?_⟩
  exact (ensure_eq_ok.mp hfresh).2

theorem yields_transactionStore_consume {state : String} :
    Yields (Rule rules q) (TransactionStore.consume rules state) [] fun h' value => ∃ now,
      h' = [⟨.consume .google state, .ok (some value)⟩, ⟨.now, now⟩] ∧
        now ≤ value.createdAt + proofTTL ∧ value.toBinding.isValid := by
  refine yields_ask_bind rfl fun reply => ?_
  refine yields_ofExcept_bind fun found? hreply => yields_ofExcept_bind fun value hvalue => ?_
  obtain rfl := mapError_eq_ok.mp hreply
  obtain rfl := found_eq_ok.mp hvalue
  refine yields_ofExcept_bind fun _ hvalid => yields_ask_bind trivial fun now => ?_
  refine yields_ofExcept_bind fun _ hfresh => yields_pure ⟨now, rfl, ?_, ?_⟩
  · exact (ensure_eq_ok.mp hfresh).2
  · have := ensure_eq_ok.mp hvalid
    simp only [validateWormExecutionTransaction, Bool.and_eq_true] at this
    tauto

theorem yields_challengeStore_create {id : String} {value : Challenge}
    (hknown : Recognised rules q h value.toBinding) :
    Yields (Rule rules q) (ChallengeStore.create rules id value) h fun _ _ => True := by
  refine yields_ofExcept_bind fun _ _ => yields_ofExcept_bind fun _ _ => ?_
  refine yields_ask_bind hknown fun reply => ?_
  exact yields_ofExcept_bind fun _ _ => yields_ofExcept fun _ _ => trivial

theorem yields_transactionStore_create {state : String} {value : Transaction}
    (hknown : Recognised rules q h value.toBinding) :
    Yields (Rule rules q) (TransactionStore.create rules state value) h fun _ _ => True := by
  refine yields_ofExcept_bind fun _ _ => yields_ask_bind hknown fun reply => ?_
  exact yields_ofExcept_bind fun _ _ => yields_ofExcept fun _ _ => trivial

theorem yields_challenge {r : ChallengeRequest} :
    Yields (Rule rules (.challenge r)) (challenge rules r) h fun _ _ => True := by
  refine yields_ofExcept_bind fun _ _ => yields_ofExcept_bind fun _ _ => ?_
  refine yields_ofExcept_bind fun _ _ => yields_ofExcept_bind fun runID _ => ?_
  refine yields_ofExcept_bind fun ⟨rawCommandID, expectedRevision, rawReturnTo⟩ _ => ?_
  refine yields_ofExcept_bind fun commandID _ => yields_ofExcept_bind fun _ _ => ?_
  refine yields_loginSession.bind fun h' c _ hc => ?_
  obtain ⟨hlogin, rfl⟩ := hc
  refine yields_ofExcept_bind fun _ _ => yields_ask_bind trivial fun reply => ?_
  refine yields_ofExcept_bind fun account _ => yields_ofExcept_bind fun _ _ => ?_
  refine yields_ofExcept_bind fun address _ => yields_ofExcept_bind fun _ _ => ?_
  refine yields_ask_bind trivial fun reply => yields_ofExcept_bind fun descriptor _ => ?_
  refine yields_ofExcept_bind fun planDigest _ => yields_ask_bind trivial fun reply => ?_
  refine yields_ofExcept_bind fun id _ => yields_ask_bind trivial fun reply => ?_
  refine yields_ofExcept_bind fun nonce _ => yields_ask_bind trivial fun now => ?_
  refine yields_answering_bind (yields_challengeStore_create ?_) fun _ _ _ _ => yields_pure trivial
  -- the binding is that of the login session of the request
  exact ⟨c, by simp [Request.login], hlogin, rfl, rfl, rfl⟩

theorem yields_begins {r : BeginRequest} :
    Yields (Rule rules (.begins r)) (begins rules r) h fun _ _ => True := by
  refine yields_ofExcept_bind fun _ _ => yields_ofExcept_bind fun runID _ => ?_
  refine yields_ofExcept_bind fun commandID _ => yields_ofExcept_bind fun expectedRevision _ => ?_
  refine yields_ofExcept_bind fun _ _ => yields_loginSession.bind fun h' c _ hc => ?_
  obtain ⟨hlogin, rfl⟩ := hc
  refine yields_ofExcept_bind fun _ _ => yields_ask_bind trivial fun reply => ?_
  refine yields_ofExcept_bind fun account _ => yields_ofExcept_bind fun _ _ => ?_
  refine yields_ask_bind trivial fun reply => yields_ofExcept_bind fun opaqueValue _ => ?_
  refine yields_ask_bind trivial fun reply => yields_ofExcept_bind fun nonce _ => ?_
  refine yields_ask_bind trivial fun verifier => yields_ask_bind trivial fun createdAt => ?_
  refine yields_answering_bind (yields_transactionStore_create ?_) fun _ _ _ _ =>
    yields_pure trivial
  -- the binding is that of the login session of the request
  exact ⟨c, by simp [Request.login], hlogin, rfl, rfl, rfl⟩

theorem eq_of_constantTimeEqual {left right : String} (h : constantTimeEqual left right) :
    left = right := by
  simp only [constantTimeEqual, check_iff] at h
  exact h.2

theorem planDigest_of_validateWormExecutionDescriptor {request : DescriptorRequest}
    {descriptor : Descriptor} {planDigest : Bytes}
    (h : validateWormExecutionDescriptor request descriptor = some planDigest) :
    planDigest = descriptor.planDigestSHA256 := by
  simp only [validateWormExecutionDescriptor, bind_eq_bind, bind_eq_some_iff] at h
  obtain ⟨runID, -, h⟩ := h
  split at h
  · exact (some.inj h).symm
  · cases h

theorem yields_checkSignature {r : VerifyRequest} {value : Challenge} :
    Yields (Rule rules q) (checkSignature rules r value) h fun h' _ => h' = h ∧
      ∃ encoded bytes publicKey, r.signature = some encoded ∧
        rules.decodeBase64 encoded = some bytes ∧
        rules.decodeBase58 value.address = some publicKey ∧
        rules.verify publicKey value.message bytes := by
  refine yields_ofExcept_bind fun _ _ => yields_ofExcept_bind fun encoded hencoded => ?_
  refine yields_ofExcept_bind fun bytes hbytes => yields_ofExcept_bind fun _ _ => ?_
  refine yields_ofExcept_bind fun publicKey hkey => yields_ofExcept fun _ hverify => ?_
  exact ⟨rfl, encoded, bytes, publicKey, found_eq_ok.mp hencoded, found_eq_ok.mp hbytes,
    found_eq_ok.mp hkey, (ensure_eq_ok.mp hverify).2⟩

theorem yields_verify {r : VerifyRequest} :
    Yields (Rule rules (.verify r)) (verify rules r) [] fun _ _ => True := by
  refine yields_ofExcept_bind fun _ _ => yields_ofExcept_bind fun _ _ => ?_
  refine yields_ofExcept_bind fun runID _ => yields_ofExcept_bind fun cookie hcookie => ?_
  have hcookie := (filter_eq_some_iff.mp (found_eq_ok.mp hcookie)).1
  refine yields_answering_bind yields_challengeStore_consume fun h' value _ hconsume => ?_
  obtain ⟨now, rfl, hfresh⟩ := hconsume
  refine yields_ofExcept_bind fun _ _ => yields_loginSession.bind fun h' c _ hc => ?_
  obtain ⟨hlogin, rfl⟩ := hc
  refine yields_ofExcept_bind fun digest hdigest => yields_ofExcept_bind fun _ hsession => ?_
  obtain ⟨haccount, rfl, haccess⟩ := ensure_eq_ok.mp hsession
  have hdigest := encode_of_canonicalWormExecutionDigest (found_eq_ok.mp hdigest)
  have haccount := eq_of_constantTimeEqual haccount
  refine yields_ask_bind trivial fun reply => yields_ofExcept_bind fun account hget => ?_
  obtain rfl := found_eq_ok.mp hget
  refine yields_ofExcept_bind fun _ hidentity => yields_ofExcept_bind fun planDigest hplan => ?_
  obtain ⟨hprovider, hsubject⟩ := ensure_eq_ok.mp hidentity
  have hsubject := eq_of_constantTimeEqual hsubject
  refine yields_ask_bind trivial fun reply => yields_ofExcept_bind fun descriptor hload => ?_
  obtain rfl := found_eq_ok.mp hload
  refine yields_ofExcept_bind fun current hcurrent => yields_ofExcept_bind fun _ hsame => ?_
  obtain rfl := ensure_eq_ok.mp hsame
  obtain rfl := planDigest_of_validateWormExecutionDescriptor (found_eq_ok.mp hcurrent)
  refine yields_ofExcept_bind fun _ hmessage => ?_
  have hmessage := eq_of_constantTimeEqual (ensure_eq_ok.mp hmessage)
  refine yields_checkSignature.bind fun h' _ _ hsigned => ?_
  obtain ⟨rfl, encoded, bytes, publicKey, hencoded, hbytes, hkey, hverify⟩ := hsigned
  refine yields_ask_bind ?_ fun authorized => yields_ofExcept fun _ _ => trivial
  refine ⟨.solana, cookie, value, now, c, _, .cookie hcookie, rfl, ?_, hfresh,
    ⟨hlogin, haccount.symm, hdigest, haccess.symm⟩, ⟨rfl, rfl, rfl, rfl, hdigest, rfl⟩,
    account, _, descriptor, by simp [haccount],
    List.mem_append_right _ (List.mem_singleton_self _), rfl,
    ⟨hprovider, ⟨r, encoded, bytes, publicKey, rfl, hencoded, hbytes, hsubject ▸ hkey, hverify⟩,
      ?_, ?_⟩, rfl⟩
  · simp
  · rw [← hmessage]
    exact (mentions_statement_run _ _).message
  · rw [← hmessage]
    exact (mentions_statement_plan _ _).message

theorem verifyIDToken_ok {now reauthenticatedAfter : ℕ} {token : IDToken} {nonce subject : String}
    (h : verifyIDToken now token nonce reauthenticatedAfter = .ok subject) :
    token.subject = subject ∧ token.nonce = nonce := by
  simp only [verifyIDToken, committed] at h
  obtain ⟨-, -, ⟨-, hnonce⟩, ⟨emailVerified, email, authTime⟩, -, -, h⟩ := h
  refine ⟨?_, eq_of_constantTimeEqual hnonce⟩
  split at h
  · simp only [committed] at h
    exact h.2.2
  · exact pure_eq_ok.mp h

theorem yields_exchangeAndVerify {code verifier nonce : String} {reauthenticatedAfter : ℕ} :
    Yields (Rule rules q) (exchangeAndVerify code verifier nonce reauthenticatedAfter) h
      fun h' subject => ∃ token now, h' = h ++ [⟨.exchange code verifier, some token⟩] ++
        [⟨.now, now⟩] ∧
        token.subject = subject ∧ token.nonce = nonce := by
  refine yields_ask_bind trivial fun reply => yields_ofExcept_bind fun token htoken => ?_
  obtain rfl := found_eq_ok.mp htoken
  refine yields_ask_bind trivial fun now => yields_ofExcept fun subject hsubject => ?_
  exact ⟨token, now, rfl, verifyIDToken_ok (mapError_eq_ok.mp hsubject)⟩

theorem encode_of_isValid {b : Binding} {digest : Bytes} (hvalid : b.isValid)
    (h : Hex.decode b.sessionJTIDigestSHA256 = some digest) :
    Hex.encode digest = b.sessionJTIDigestSHA256 := by
  have hsome : (canonicalWormExecutionDigest b.sessionJTIDigestSHA256).isSome := by
    simp only [Binding.isValid, Bool.and_eq_true] at hvalid
    exact hvalid.2
  obtain ⟨digest', hdigest'⟩ := isSome_iff_exists.mp hsome
  have hdecode := (filter_eq_some_iff.mp hdigest').1
  obtain rfl := mem_unique hdecode h
  exact encode_of_canonicalWormExecutionDigest hdigest'

theorem yields_callback {r : CallbackRequest} :
    Yields (Rule rules (.callback r)) (callback rules r) [] fun _ _ => True := by
  refine yields_ofExcept_bind fun _ _ => yields_ofExcept_bind fun _ _ => ?_
  refine yields_answering_bind yields_transactionStore_consume fun h' value _ hconsume => ?_
  obtain ⟨now, rfl, hfresh, hvalid⟩ := hconsume
  refine yields_ofExcept_bind fun cookie hcookie => yields_ofExcept_bind fun _ hstate => ?_
  have hcookie : r.cookie = some r.state :=
    eq_of_constantTimeEqual (ensure_eq_ok.mp hstate) ▸ found_eq_ok.mp hcookie
  refine yields_loginSession.bind fun h' c _ hc => ?_
  obtain ⟨hlogin, rfl⟩ := hc
  refine yields_ofExcept_bind fun digest hdigest => yields_ofExcept_bind fun _ hsession => ?_
  obtain ⟨-, haccount, rfl, haccess⟩ := ensure_eq_ok.mp hsession
  have hdigest := encode_of_isValid hvalid (found_eq_ok.mp hdigest)
  have haccount := eq_of_constantTimeEqual haccount
  refine yields_ofExcept_bind fun _ _ => ?_
  refine yields_answering_bind yields_exchangeAndVerify fun h' subject _ hexchange => ?_
  obtain ⟨token, now', rfl, rfl, hnonce⟩ := hexchange
  refine yields_ask_bind trivial fun reply => yields_ofExcept_bind fun account hget => ?_
  obtain rfl := found_eq_ok.mp hget
  refine yields_ofExcept_bind fun _ hidentity => ?_
  obtain ⟨hprovider, hsubject⟩ := ensure_eq_ok.mp hidentity
  refine yields_ask_bind ?_ fun authorized => yields_ofExcept_bind fun _ _ => yields_pure trivial
  refine ⟨.google, r.state, value, now, c,
    [⟨.exchange r.code value.verifier, some token⟩, ⟨.now, now'⟩,
      ⟨.getAccount c.accountID, some account⟩], .state hcookie, by simp [Request.login], by simp,
    hfresh,
    ⟨hlogin, haccount.symm, hdigest, haccess.symm⟩, ⟨rfl, rfl, rfl, rfl, hdigest, rfl⟩,
    account, r, token, rfl, by simp [haccount], by simp, hprovider,
    eq_of_constantTimeEqual hsubject, hnonce⟩

theorem guards_discard {α : Type} {p : Handler α} (hp : Yields (Rule rules q) p h fun _ _ => True) :
    Guards (Rule rules q) (fun _ _ => True) (do let _ ← p; Pure.pure ()) h := by
  have hbind : Yields (Rule rules q) (p >>= fun _ => Pure.pure ()) h fun _ _ => True :=
    hp.bind fun _ _ _ _ => yields_pure trivial
  exact hbind.guards

theorem obeys_handle : (handle rules q).Guards (Rule rules q) (fun _ _ => True) [] := by
  cases q with
  | challenge => exact guards_discard yields_challenge
  | verify => exact yields_verify.guards
  | begins => exact guards_discard yields_begins
  | callback => exact guards_discard yields_callback

end programs

end Athena.RunProof

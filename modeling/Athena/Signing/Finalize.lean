import Athena.Signing.Transactions

/-!
# Finalizing a position request

A Finalize is prepared from an observation of the provider and an answer of the signer, and
sent later.  Whatever the signer answers, what is sent carries the signature of the wallet
over the message of the provider and nothing else that the provider did not send.
-/

namespace Athena.Signing

open Athena.Lib Option List

/-- `WebPositionRequestObservation`, as far as a Finalize reads it. -/
structure Observation where
  positionRequestID : ℤ
  walletAddress : String
  transactionHex : String

/-- `WebPositionTransactionSigningRequest` -/
structure SigningRequest where
  walletAddress : String
  positionRequestID : ℤ
  transactionHex : String
  transactionSHA256 : Bytes

structure FinalizeRequest where
  positionRequestID : ℤ
  payload : FinalizePayload
  deriving DecidableEq

/-- `WebPositionFinalizeCommand`, without the metadata. -/
structure FinalizeCommand where
  walletAddress : String
  request : FinalizeRequest
  requestSHA256 : Bytes

/-- `WebAuthenticatedSession` -/
structure Session where
  walletAddress : String
  accessToken : String

variable (S : Solana) (digestWebRequest : FinalizeRequest → Option Bytes)

/-- `PrepareWebPositionFinalize`.  The signer is any function. -/
def prepareWebPositionFinalize (signer : SigningRequest → Option FinalizePayload)
    (observation : Observation) (expectedTransactionSHA256 : Bytes) :
    Except SigningError FinalizeCommand := do
  ensure (0 < observation.positionRequestID) .observationRequired
  let descriptor ← inspectWebPositionTransaction S observation.walletAddress
    observation.transactionHex
  ensure (descriptor.digest = expectedTransactionSHA256) .digestChanged
  let signed ← found (signer ⟨observation.walletAddress, observation.positionRequestID,
    observation.transactionHex, descriptor.digest⟩) .signer
  let payload ← validateWebPositionFinalizePayload descriptor signed
  let request : FinalizeRequest := ⟨observation.positionRequestID, payload⟩
  let requestDigest ← found (digestWebRequest request) .requestDigest
  pure ⟨observation.walletAddress, request, requestDigest⟩

def validateWebSession (session : Session) : Except SigningError Unit := do
  let _ ← canonicalWebSolanaPublicKey S session.walletAddress
  ensure (session.accessToken ≠ "" ∧ Text.trimSpace session.accessToken = session.accessToken)
    .sessionInvalid

/-- The body of `FinalizePosition`. -/
def finalizePosition (request : FinalizeRequest) : Except SigningError FinalizeRequest := do
  ensure (0 < request.positionRequestID) .commandRequired
  let value := Text.trimSpace request.payload.value
  ensure (value ≠ "") .payloadRequired
  match request.payload.mode with
  | .unsupported mode => .error (.unsupportedMode mode)
  | mode => pure ⟨request.positionRequestID, mode, value⟩

/-- `DispatchWebPositionFinalize`: the body that is sent. -/
def dispatchWebPositionFinalize (session : Session) (command : FinalizeCommand) :
    Except SigningError FinalizeRequest := do
  validateWebSession S session
  ensure (0 < command.request.positionRequestID) .commandRequired
  ensure (command.walletAddress = session.walletAddress) .sessionMismatch
  ensure (digestWebRequest command.request = some command.requestSHA256) .commandChanged
  finalizePosition command.request

/-! ## What a payload adds -/

variable {S} {d : Descriptor S}

/-- A payload adds the signature of a key to a transaction: it is a signature of its message,
or a transaction with the same message and the same signatures in all slots but one of the
key, where the signature verifies. -/
def Endorses (key : S.PublicKey) (t : Transaction S.Message) (message : Bytes)
    (payload : FinalizePayload) : Prop :=
  match payload.mode with
  | .signature => ∃ signature : Signature, payload.value = Hex.encode signature.bytes ∧
      S.verify key message signature
  | .signedTransaction => ∃ bytes t', payload.value = Hex.encode bytes ∧
      S.transactionFromBytes bytes = some t' ∧ S.marshalMessage t'.message = some message ∧
      t'.signatures.length = t.signatures.length ∧
      ∃ (slot : ℕ) (signature : Signature), (S.accountKeys t.message)[slot]? = some key ∧
        t'.signatures[slot]? = some signature ∧ S.verify key message signature ∧
        ∀ i, i ≠ slot → t'.signatures[i]? = t.signatures[i]?
  | .unsupported _ => False

structure Inspected (walletAddress transactionHex : String) (d : Descriptor S)
    (t : Transaction S.Message) : Prop where
  key : canonicalWebSolanaPublicKey S walletAddress = .ok d.signerPublicKey
  raw : decodeWebPositionTransaction transactionHex = .ok d.rawTransaction
  transaction : S.transactionFromBytes d.rawTransaction = some t
  message : S.marshalMessage t.message = some d.message
  digest : d.digest = S.sha256 d.rawTransaction
  signatures : t.signatures.length = d.requiredSignatures
  slot : (S.accountKeys t.message)[d.signerIndex]? = some d.signerPublicKey
  signerIndex_lt : d.signerIndex < d.requiredSignatures

theorem inspect_ok {walletAddress transactionHex : String}
    (h : inspectWebPositionTransaction S walletAddress transactionHex = .ok d) :
    ∃ t, Inspected walletAddress transactionHex d t ∧ S.sanitize t ∧
      S.marshalTransaction t = some d.rawTransaction ∧ S.version t.message = d.version ∧
      ∃ complete, validateWebRequiredSignatures t d.message d.requiredSignatures =
        .ok complete := by
  simp only [inspectWebPositionTransaction, committed] at h
  obtain ⟨key, hkey, raw, hraw, t, ht, hsanitize, _, hmarshal, rfl, -, -, hcount, index, hindex,
    message,
    hmessage, complete, hvalid, rfl⟩ := h
  obtain ⟨hlt, hfound, -⟩ := List.findIdx?_eq_some_iff_getElem.mp hindex
  rw [getElem_take, decide_eq_true_eq] at hfound
  obtain ⟨hrequired, hkeys⟩ := Nat.lt_min.mp (length_take ▸ hlt)
  exact ⟨t, ⟨hkey, hraw, ht, hmessage, rfl, hcount,
    List.getElem?_eq_some_iff.mpr ⟨hkeys, hfound⟩, hrequired⟩, hsanitize, hmarshal, rfl,
    complete, hvalid⟩

theorem build_endorses {walletAddress transactionHex : String} {t : Transaction S.Message}
    (hd : Inspected walletAddress transactionHex d t) {walletSignature : Signature}
    {payload : FinalizePayload}
    (h : buildWebPositionFinalizePayload d walletSignature = .ok payload) :
    Endorses d.signerPublicKey t d.message payload := by
  simp only [buildWebPositionFinalizePayload, committed] at h
  obtain ⟨⟨-, hverify⟩, t', ht', -, complete, -, h⟩ := h
  obtain rfl : t = t' := some.inj (hd.transaction.symm.trans ht')
  split at h
  · cases h
    exact ⟨walletSignature, rfl, hverify⟩
  · obtain ⟨bytes, hbytes, h⟩ := bind_eq_ok.mp h
    cases h
    have hslot : d.signerIndex < t.signatures.length := hd.signatures ▸ hd.signerIndex_lt
    refine ⟨bytes, _, rfl, S.transactionFromBytes_marshal (found_eq_ok.mp hbytes), hd.message,
      length_set, d.signerIndex, walletSignature, hd.slot, ?_, hverify, ?_⟩
    · exact List.getElem?_set_self hslot
    · exact fun i hi => List.getElem?_set_ne (Ne.symm hi)

theorem validate_ok {signed payload : FinalizePayload}
    (h : validateWebPositionFinalizePayload d signed = .ok payload) :
    ∃ walletSignature, buildWebPositionFinalizePayload d walletSignature = .ok payload := by
  simp only [validateWebPositionFinalizePayload, committed] at h
  obtain ⟨-, walletSignature, -, expected, hexpected, -, -, rfl⟩ := h
  exact ⟨walletSignature, hexpected⟩

theorem finalizePosition_ok {request sent : FinalizeRequest} {key : S.PublicKey}
    {t : Transaction S.Message} {message : Bytes}
    (hendorses : Endorses key t message request.payload)
    (h : finalizePosition request = .ok sent) : sent = request := by
  simp only [finalizePosition, bind_eq_ok] at h
  obtain ⟨-, -, -, -, h⟩ := h
  obtain ⟨id, mode, value⟩ := request
  have htrim : Text.trimSpace value = value := by
    cases mode with
    | signature =>
      obtain ⟨signature, rfl, -⟩ := hendorses
      exact Hex.trimSpace_encode _
    | signedTransaction =>
      obtain ⟨bytes, t', rfl, -⟩ := hendorses
      exact Hex.trimSpace_encode _
    | unsupported => exact hendorses.elim
  cases mode with
  | unsupported => cases h
  | _ =>
    cases h
    rw [htrim]

/-- Whatever the signer answers: when a Finalize is prepared, the transaction of the provider
hashes to the expected digest, and the request has the id of the observation and a payload
that endorses this transaction for the wallet; and whenever it is sent, that request is
what is sent. -/
theorem finalize_endorses {signer : SigningRequest → Option FinalizePayload}
    {observation : Observation} {expectedTransactionSHA256 : Bytes} {command : FinalizeCommand}
    (h : prepareWebPositionFinalize S digestWebRequest signer observation
      expectedTransactionSHA256 = .ok command) :
    ∃ (wallet : S.PublicKey) (raw message : Bytes) (t : Transaction S.Message),
      canonicalWebSolanaPublicKey S observation.walletAddress = .ok wallet ∧
      decodeWebPositionTransaction observation.transactionHex = .ok raw ∧
      S.transactionFromBytes raw = some t ∧ S.marshalMessage t.message = some message ∧
      S.sha256 raw = expectedTransactionSHA256 ∧
      command.request.positionRequestID = observation.positionRequestID ∧
      Endorses wallet t message command.request.payload ∧
      ∀ session sent, dispatchWebPositionFinalize S digestWebRequest session command = .ok sent →
        sent = command.request := by
  simp only [prepareWebPositionFinalize, committed] at h
  obtain ⟨-, d, hinspect, hdigest, signed, -, payload, hvalidate, digest, -, rfl⟩ := h
  obtain ⟨t, hd, -⟩ := inspect_ok hinspect
  obtain ⟨walletSignature, hbuild⟩ := validate_ok hvalidate
  have hendorses := build_endorses hd hbuild
  refine ⟨d.signerPublicKey, d.rawTransaction, d.message, t, hd.key, hd.raw, hd.transaction,
    hd.message, hd.digest.symm.trans hdigest, rfl, hendorses, fun session sent hsent => ?_⟩
  simp only [dispatchWebPositionFinalize, committed] at hsent
  obtain ⟨-, -, -, -, -, hsent⟩ := hsent
  exact finalizePosition_ok hendorses hsent

namespace Sample

def signed (b : UInt8) : Signature := ⟨List.replicate 64 b, List.length_replicate⟩

def byte? (s : Signature) : Option UInt8 := s.bytes.head?.filter fun b => s = signed b

theorem eq_signed_of_byte? {s : Signature} {b : UInt8} (h : byte? s = some b) : s = signed b := by
  simpa using (filter_eq_some_iff.mp h).2

def marshal (t : Transaction Bool) : Option Bytes :=
  match t.signatures with
  | [first, second] => do
      let a ← byte? first
      let b ← byte? second
      some [if t.message then 1 else 0, a, b]
  | _ => none

def unmarshal : Bytes → Option (Transaction Bool)
  | [version, a, b] => some ⟨[signed a, signed b], version = 1⟩
  | _ => none

theorem unmarshal_marshal {t : Transaction Bool} {bytes : Bytes} (h : marshal t = some bytes) :
    unmarshal bytes = some t := by
  obtain ⟨signatures, message⟩ := t
  unfold marshal at h
  split at h
  · rename_i first second hsignatures
    obtain rfl : signatures = [first, second] := hsignatures
    simp only [bind_eq_bind, bind_eq_some_iff, some.injEq] at h
    obtain ⟨a, ha, b, hb, rfl⟩ := h
    rw [eq_signed_of_byte? ha, eq_signed_of_byte? hb]
    cases message <;> rfl
  · cases h

/-- Messages are legacy or of version 0, and are signed by the provider and the wallet. -/
def solana : Solana where
  PublicKey := UInt8
  Message := Bool
  decEq := inferInstance
  publicKeyFromBase58 text := if text = "wallet" then some 1 else none
  base58 _ := "wallet"
  isZero key := key = 0
  accountKeys _ := [2, 1]
  numRequiredSignatures _ := 2
  version message := if message then .v0 else .legacy
  transactionFromBytes := unmarshal
  sanitize _ := true
  marshalTransaction := marshal
  marshalMessage message := some [if message then 1 else 0]
  verify key _ signature := signature.bytes.all (· = key)
  sha256 bytes := bytes.take 1
  transactionFromBytes_marshal := unmarshal_marshal

def observation : Observation := ⟨7, "wallet", "0x010200"⟩

abbrev prepare (value : String) : Except SigningError FinalizeCommand :=
  prepareWebPositionFinalize solana (fun _ => some []) (fun _ => some ⟨.signedTransaction, value⟩)
    observation [1]

end Sample

/-- A transaction of version 0 that the wallet signs is sent whole, and endorses that of the
provider.  One without the signature of the provider is refused. -/
theorem sample_endorses :
    (∃ command, Sample.prepare "010201" = .ok command ∧
      command.request.payload = ⟨.signedTransaction, "010201"⟩ ∧ ∃ t message,
        Endorses (S := Sample.solana) (1 : UInt8) t message command.request.payload) ∧
    ∀ command, Sample.prepare "010001" ≠ .ok command := by
  have hprepare : commitsWith (Sample.prepare "010201") fun command =>
      command.request.payload = ⟨.signedTransaction, "010201"⟩ := by decide +kernel
  have hrefused : commitsWith (Sample.prepare "010001") (fun _ => true) = false := by
    decide +kernel
  obtain ⟨command, hok, hpayload⟩ := exists_of_commitsWith hprepare
  obtain ⟨wallet, raw, message, t, hwallet, -, -, -, -, -, hendorses, -⟩ :=
    finalize_endorses (S := Sample.solana) (fun _ => some []) hok
  obtain rfl : (1 : UInt8) = wallet := by
    have hkey : canonicalWebSolanaPublicKey Sample.solana "wallet" = .ok (1 : UInt8) := by rfl
    exact Except.ok.inj (hkey.symm.trans hwallet)
  refine ⟨⟨command, hok, of_decide_eq_true hpayload, t, message, hendorses⟩, fun command hok => ?_⟩
  rw [hok] at hrefused
  cases hrefused

end Athena.Signing

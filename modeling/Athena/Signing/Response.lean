import Athena.Signing.Finalize

/-!
# What the wallet answers is accepted

The wallet takes the transaction of the provider apart on its own, signs the message and answers
with a payload, and the caller takes that apart again.  If the codec and the signer are lawful,
the caller accepts the payload as it is, in whatever way the provider wrote the transaction.
-/

namespace Athena.Signing

open Athena.Lib List Hex

/-- `WebPositionTransactionMetadata` -/
structure TransactionMetadata where
  positionRequestID : ℤ
  transactionSHA256 : Bytes
  transactionVersion : String
  requiredSignatures : ℕ
  walletSignerIndex : ℕ
  signerPublicKey : String

def MessageVersion.versionName : MessageVersion → String
  | legacy => "legacy"
  | v0 => "v0"
  | unsupported => ""

variable {S : Solana}

def webPositionTransactionMetadata (requestID : ℤ) (d : Descriptor S) : TransactionMetadata :=
  ⟨requestID, d.digest, d.version.versionName, d.requiredSignatures, d.signerIndex,
    S.base58 d.signerPublicKey⟩

variable (S) in
/-- `BuildWebPositionTransactionSigningResponse` -/
def buildWebPositionTransactionSigningResponse (request : SigningRequest)
    (signMessage : Bytes → Option Bytes) :
    Except SigningError (FinalizePayload × TransactionMetadata) := do
  ensure (0 < request.positionRequestID) .requestIDNotPositive
  let descriptor ← inspectWebPositionTransaction S request.walletAddress request.transactionHex
  ensure (descriptor.digest = request.transactionSHA256) .digestChanged
  let rawSignature ← found (signMessage descriptor.message) .signer
  if h : rawSignature.length = 64 then
    let payload ← buildWebPositionFinalizePayload descriptor ⟨rawSignature, h⟩
    pure (payload, webPositionTransactionMetadata request.positionRequestID descriptor)
  else .error .signerSignatureInvalid

variable (S) in
/-- The signatures of the wallet verify, and one of them fits in the place of any other. -/
structure Lawful (key : S.PublicKey) (signMessage : Bytes → Option Bytes) : Prop where
  signs : ∀ m, ∃ σ : Signature, signMessage m = some σ.bytes ∧ σ.isZero = false ∧ S.verify key m σ
  fits : ∀ {t bytes m} {σ : Signature} (i : ℕ), signMessage m = some σ.bytes →
    S.marshalTransaction t = some bytes → S.sanitize t →
    S.sanitize { t with signatures := t.signatures.set i σ } ∧
      ∃ bytes', S.marshalTransaction { t with signatures := t.signatures.set i σ } = some bytes' ∧
        bytes'.length = bytes.length

/-! ## Texts that are read back -/

theorem withoutMark_encode (bytes : Bytes) : withoutMark (encode bytes) = encode bytes := by
  cases bytes with
  | nil => rfl
  | cons b =>
    -- the second digit is no mark
    obtain ⟨-, -, -, hx, hX⟩ := digit_spec (Nat.mod_lt b.toNat (by decide : 0 < 16))
    simp [withoutMark, encode, digits, hx, hX]

theorem encode_ne_empty {bytes : Bytes} (h : bytes ≠ []) : encode bytes ≠ "" := by
  intro hempty
  have := utf8ByteSize_encode bytes
  simp_all

theorem decodeWebSignature_encode {σ : Signature} (h : σ.isZero = false) :
    decodeWebSignature (encode σ.bytes) = .ok σ := by
  simp [decodeWebSignature, withoutMark_encode, utf8ByteSize_encode, σ.length_eq, h]

theorem decodeWebPositionTransaction_ok {transactionHex : String} {raw : Bytes}
    (h : decodeWebPositionTransaction transactionHex = .ok raw) :
    raw ≠ [] ∧ raw.length ≤ webMaximumPositionTransactionSize := by
  simp only [decodeWebPositionTransaction, committed] at h
  obtain ⟨-, hsize, bytes, hdecode, hne, rfl⟩ := h
  have := length_le_of_decode hdecode
  exact ⟨hne, by omega⟩

theorem decodeWebPositionTransaction_encode {bytes : Bytes} (hne : bytes ≠ [])
    (hlength : bytes.length ≤ webMaximumPositionTransactionSize) :
    decodeWebPositionTransaction (encode bytes) = .ok bytes := by
  simp only [decodeWebPositionTransaction, committed, trimSpace_encode, withoutMark_encode,
    utf8ByteSize_encode, decode_encode]
  exact ⟨encode_ne_empty hne, by omega, bytes, rfl, hne, rfl⟩

/-! ## The signature in its slot -/

theorem checkSignatures_cons {m : Bytes} {s : Signature} {k : S.PublicKey} {l : List Signature}
    {keys : List S.PublicKey} {complete : Bool} :
    checkSignatures m (s :: l) (k :: keys) = .ok complete ↔ (s.isZero ∨ S.verify k m s) ∧
      ∃ c, checkSignatures m l keys = .ok c ∧ complete = (c && !s.isZero) := by
  by_cases hz : s.isZero
  · simp only [checkSignatures, hz, if_true, committed, true_or, true_and, Bool.not_true,
      Bool.and_false, @eq_comm _ false]
  · by_cases hv : S.verify k m s
    · simp [checkSignatures, hz, hv]
    · simp [checkSignatures, hz, hv]

theorem checkSignatures_set {m : Bytes} {σ : Signature} {key : S.PublicKey}
    (hv : S.verify key m σ) {l : List Signature} {keys : List S.PublicKey} {i : ℕ} {complete : Bool}
    (hkey : keys[i]? = some key) (h : checkSignatures m l keys = .ok complete) :
    ∃ c, checkSignatures m (l.set i σ) keys = .ok c := by
  induction l generalizing keys i complete with
  | nil => exact ⟨complete, h⟩
  | cons s l ih =>
    cases keys with
    | nil => cases h
    | cons k keys =>
      obtain ⟨hs, c, hc, -⟩ := checkSignatures_cons.mp h
      cases i with
      | zero =>
        cases hkey
        exact ⟨_, checkSignatures_cons.mpr ⟨.inr hv, c, hc, rfl⟩⟩
      | succ i =>
        have hkey' : keys[i]? = some key := hkey
        obtain ⟨c', hc'⟩ := ih hkey' hc
        exact ⟨_, checkSignatures_cons.mpr ⟨hs, c', hc', rfl⟩⟩

/-! ## The payload -/

section payload
variable {walletAddress transactionHex : String} {d : Descriptor S} {t : Transaction S.Message}
  {σ : Signature} {sign : Bytes → Option Bytes}

theorem build_ok (hd : Inspected walletAddress transactionHex d t) {complete : Bool}
    (hvalid : validateWebRequiredSignatures t d.message d.requiredSignatures = .ok complete)
    (hzero : σ.isZero = false) (hverify : S.verify d.signerPublicKey d.message σ) {bytes : Bytes}
    (hbytes : S.marshalTransaction { t with signatures := t.signatures.set d.signerIndex σ } =
      some bytes) :
    ∃ payload, buildWebPositionFinalizePayload d σ = .ok payload ∧
      (payload = ⟨.signature, encode σ.bytes⟩ ∨
        payload = ⟨.signedTransaction, encode bytes⟩) := by
  simp only [validateWebRequiredSignatures, committed] at hvalid
  obtain ⟨⟨-, hkeys⟩, hcheck⟩ := hvalid
  obtain ⟨c, hc⟩ := checkSignatures_set hverify hd.slot hcheck
  have hset : validateWebRequiredSignatures
      { t with signatures := t.signatures.set d.signerIndex σ } d.message d.requiredSignatures =
        .ok c := by
    simp [validateWebRequiredSignatures, hd.signatures, hkeys, hc]
  by_cases hmode : d.version = .legacy ∧ c = false
  · refine ⟨_, ?_, .inl rfl⟩
    simp [buildWebPositionFinalizePayload, hzero, hverify, hd.transaction, hd.signatures, hset,
      hmode]
  · refine ⟨_, ?_, .inr rfl⟩
    simp [buildWebPositionFinalizePayload, hzero, hverify, hd.transaction, hd.signatures, hset,
      hbytes]
    simpa using hmode

theorem walletSignatureOf_signed (hd : Inspected walletAddress transactionHex d t)
    (hversion : S.version t.message = d.version) {bytes : Bytes}
    (hsanitize : S.sanitize { t with signatures := t.signatures.set d.signerIndex σ })
    (hbytes : S.marshalTransaction { t with signatures := t.signatures.set d.signerIndex σ } =
      some bytes) (hlength : bytes.length = d.rawTransaction.length) :
    bytes ≠ [] ∧ walletSignatureOf d .signedTransaction (encode bytes) = .ok σ := by
  obtain ⟨hraw, hle⟩ := decodeWebPositionTransaction_ok hd.raw
  have hne : bytes ≠ [] := by
    rintro rfl
    exact hraw (eq_nil_of_length_eq_zero hlength.symm)
  have hdecode := decodeWebPositionTransaction_encode hne (hlength ▸ hle)
  refine ⟨hne, ?_⟩
  simp [walletSignatureOf, hdecode, S.transactionFromBytes_marshal hbytes, hsanitize, hbytes,
    hd.message, hversion, hd.signatures, hd.signerIndex_lt]

/-- A payload that was built is accepted as it is. -/
theorem validate_of_build {payload : FinalizePayload} {bytes : Bytes}
    (hpayload : payload.value = encode bytes) (hne : bytes ≠ [])
    (hsignature : walletSignatureOf d payload.mode payload.value = .ok σ)
    (hbuild : buildWebPositionFinalizePayload d σ = .ok payload) :
    validateWebPositionFinalizePayload d payload = .ok payload := by
  have htrim : Text.trimSpace payload.value = payload.value := by simp [hpayload]
  have hvalue : payload.value ≠ "" := hpayload ▸ encode_ne_empty hne
  simp [validateWebPositionFinalizePayload, htrim, hvalue, hsignature, hbuild]

/-- The wallet answers every request for a transaction that can be taken apart, and its answer is
accepted for that transaction. -/
theorem signing_response_accepted {id : ℤ} (hid : 0 < id)
    (hinspect : inspectWebPositionTransaction S walletAddress transactionHex = .ok d)
    (hlaw : Lawful S d.signerPublicKey sign) :
    ∃ payload, buildWebPositionTransactionSigningResponse S
        ⟨walletAddress, id, transactionHex, d.digest⟩ sign =
          .ok (payload, webPositionTransactionMetadata id d) ∧
      validateWebPositionFinalizePayload d payload = .ok payload := by
  obtain ⟨t, hd, hsanitize, hmarshal, hversion, complete, hvalid⟩ := inspect_ok hinspect
  obtain ⟨σ, hsign, hzero, hverify⟩ := hlaw.signs d.message
  obtain ⟨hsanitize', bytes, hbytes, hlength⟩ := hlaw.fits d.signerIndex hsign hmarshal hsanitize
  obtain ⟨payload, hbuild, hpayload⟩ := build_ok hd hvalid hzero hverify hbytes
  refine ⟨payload, ?_, ?_⟩
  · simp [buildWebPositionTransactionSigningResponse, hid, hinspect, hsign, σ.length_eq, hbuild]
  · rcases hpayload with rfl | rfl
    · refine validate_of_build rfl ?_ (decodeWebSignature_encode hzero) hbuild
      exact length_pos_iff.mp (by simp [σ.length_eq])
    · obtain ⟨hne, hread⟩ := walletSignatureOf_signed hd hversion hsanitize' hbytes hlength
      exact validate_of_build rfl hne hread hbuild

end payload

namespace Sample

def key : solana.PublicKey := (1 : UInt8)

def sign (_ : Bytes) : Option Bytes := some (signed 1).bytes

theorem marshal_pair {first second : Signature} {a b : UInt8} (ha : byte? first = some a)
    (hb : byte? second = some b) (message : Bool) :
    marshal ⟨[first, second], message⟩ = some [if message then 1 else 0, a, b] := by
  simp [marshal, ha, hb]

theorem lawful_sign : Lawful solana key sign where
  signs _ := ⟨signed 1, rfl, by decide, (by decide : (signed 1).bytes.all (· = 1))⟩
  fits {t bytes m σ} i hσ hbytes _ := by
    obtain rfl : signed 1 = σ := by
      cases σ
      cases hσ
      rfl
    have hbyte : byte? (signed 1) = some 1 := by decide
    change marshal t = some bytes at hbytes
    unfold marshal at hbytes
    split at hbytes
    · rename_i first second hsignatures
      simp only [Option.bind_eq_bind, Option.bind_eq_some_iff, Option.some.injEq] at hbytes
      obtain ⟨a, ha, b, hb, rfl⟩ := hbytes
      rw [hsignatures]
      rcases i with _ | _ | i
      · exact ⟨rfl, _, marshal_pair hbyte hb _, rfl⟩
      · exact ⟨rfl, _, marshal_pair ha hbyte _, rfl⟩
      · exact ⟨rfl, _, marshal_pair ha hb _, rfl⟩
    · cases hbytes

end Sample

open Sample

theorem sample_response_accepted : ∃ (d : Descriptor Sample.solana) (payload : FinalizePayload),
    inspectWebPositionTransaction Sample.solana "wallet" "0X010200" = .ok d ∧
      validateWebPositionFinalizePayload d payload = .ok payload := by
  obtain ⟨d, hinspect, hkey⟩ := exists_of_commitsWith (by decide +kernel : commitsWith
    (inspectWebPositionTransaction solana "wallet" "0X010200") (·.signerPublicKey = key))
  have hlaw : Lawful solana d.signerPublicKey sign :=
    of_decide_eq_true hkey ▸ lawful_sign
  obtain ⟨payload, -, h⟩ := signing_response_accepted (by decide : (0 : ℤ) < 7) hinspect hlaw
  exact ⟨d, payload, hinspect, h⟩

end Athena.Signing

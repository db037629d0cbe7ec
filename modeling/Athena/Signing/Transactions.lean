import Athena.Lib.Hex
import Athena.Lib.Transaction

/-!
# Signing a transaction of the provider

To finish a position request the provider returns a Solana transaction, partly signed, and
asks for the signature of the wallet.  The transaction is taken apart before the signer is
asked; what it returns is taken apart too, the signature of the wallet is checked, and the
payload is built anew from the transaction of the provider and that one signature.

The codec of Solana transactions, Ed25519 and SHA-256 are parameters.  All that is asked of
them is that a transaction that was encoded is decoded as it was.
-/

namespace Athena.Signing

open Athena.Lib

abbrev Bytes : Type := List UInt8

structure Signature where
  bytes : Bytes
  length_eq : bytes.length = 64
  deriving DecidableEq

def Signature.isZero (s : Signature) : Bool := s.bytes.all (· = 0)

inductive MessageVersion
  | legacy
  | v0
  | unsupported
  deriving DecidableEq

/-- A transaction: its message, and a signature for each required signer. -/
structure Transaction (Message : Type) where
  signatures : List Signature
  message : Message

structure Solana where
  PublicKey : Type
  Message : Type
  decEq : DecidableEq PublicKey
  publicKeyFromBase58 : String → Option PublicKey
  base58 : PublicKey → String
  isZero : PublicKey → Bool
  accountKeys : Message → List PublicKey
  numRequiredSignatures : Message → ℕ
  version : Message → MessageVersion
  transactionFromBytes : Bytes → Option (Transaction Message)
  sanitize : Transaction Message → Bool
  marshalTransaction : Transaction Message → Option Bytes
  marshalMessage : Message → Option Bytes
  verify : PublicKey → Bytes → Signature → Bool
  sha256 : Bytes → Bytes
  transactionFromBytes_marshal : ∀ {t : Transaction Message} {b : Bytes},
    marshalTransaction t = some b → transactionFromBytes b = some t

instance (S : Solana) : DecidableEq S.PublicKey := S.decEq

inductive SigningError
  | publicKeyNotCanonical
  | transactionRequired
  | transactionTooLarge
  | transactionNotHexadecimal
  | transactionNotValid
  | structurallyInvalid
  | notCanonicallyEncoded
  | unsupportedVersion
  | invalidRequiredSignerSet
  | invalidSignatureCount
  | walletNotRequiredSigner
  | marshal
  | invalidSignerSet
  | invalidRequiredSignature
  | payloadRequired
  | signatureNotHexadecimal
  | signatureEmpty
  | messageChanged
  | signerMetadataChanged
  | unsupportedMode (mode : String)
  | walletSignatureFailed
  | reparse
  | modeChanged
  | transactionChanged
  | observationRequired
  | requestIDNotPositive
  | digestChanged
  | signer
  | signerSignatureInvalid
  | requestDigest
  | sessionInvalid
  | sessionMismatch
  | commandRequired
  | commandChanged
  deriving DecidableEq

/-! ## Texts -/

def withoutMark (encoded : String) : String :=
  match encoded.toList with
  | '0' :: 'x' :: rest => String.ofList rest
  | '0' :: 'X' :: rest => String.ofList rest
  | _ => encoded

def webMaximumPositionTransactionSize : ℕ := 1232

def decodeWebPositionTransaction (transactionHex : String) : Except SigningError Bytes := do
  let encoded := withoutMark (Text.trimSpace transactionHex)
  ensure (encoded ≠ "") .transactionRequired
  ensure (encoded.utf8ByteSize ≤ webMaximumPositionTransactionSize * 2) .transactionTooLarge
  let raw ← found (Hex.decode encoded) .transactionNotHexadecimal
  ensure (raw ≠ []) .transactionNotHexadecimal
  pure raw

def decodeWebSignature (encodedSignature : String) : Except SigningError Signature := do
  let encoded := withoutMark (Text.trimSpace encodedSignature)
  ensure (encoded.utf8ByteSize = 128) .signatureNotHexadecimal
  let raw ← found (Hex.decode encoded) .signatureNotHexadecimal
  if h : raw.length = 64 then
    let signature : Signature := ⟨raw, h⟩
    ensure (!signature.isZero) .signatureEmpty
    pure signature
  else .error .signatureNotHexadecimal

variable (S : Solana)

def canonicalWebSolanaPublicKey (value : String) : Except SigningError S.PublicKey := do
  ensure (value ≠ "" ∧ Text.trimSpace value = value) .publicKeyNotCanonical
  let publicKey ← found (S.publicKeyFromBase58 value) .publicKeyNotCanonical
  ensure (!S.isZero publicKey ∧ S.base58 publicKey = value) .publicKeyNotCanonical
  pure publicKey

/-! ## The transaction of the provider -/

/-- `webPositionTransactionDescriptor`, without the name of the version. -/
structure Descriptor where
  rawTransaction : Bytes
  message : Bytes
  digest : Bytes
  version : MessageVersion
  requiredSignatures : ℕ
  signerIndex : ℕ
  signerPublicKey : S.PublicKey

variable {S}

/-- The loop of `validateWebRequiredSignatures`: every signature that is there is the one of its
key, and whether all are there. -/
def checkSignatures (message : Bytes) :
    List Signature → List S.PublicKey → Except SigningError Bool
  | [], _ => pure true
  | _ :: _, [] => .error .invalidSignerSet
  | signature :: signatures, key :: keys =>
    if signature.isZero then do
      let _ ← checkSignatures message signatures keys
      pure false
    else if S.verify key message signature then checkSignatures message signatures keys
    else .error .invalidRequiredSignature

def validateWebRequiredSignatures (t : Transaction S.Message) (message : Bytes)
    (requiredSignatures : ℕ) : Except SigningError Bool := do
  ensure (t.signatures.length = requiredSignatures ∧
    requiredSignatures ≤ (S.accountKeys t.message).length) .invalidSignerSet
  checkSignatures message t.signatures (S.accountKeys t.message)

variable (S)

def inspectWebPositionTransaction (walletAddress transactionHex : String) :
    Except SigningError (Descriptor S) := do
  let publicKey ← canonicalWebSolanaPublicKey S walletAddress
  let rawTransaction ← decodeWebPositionTransaction transactionHex
  let t ← found (S.transactionFromBytes rawTransaction) .transactionNotValid
  ensure (S.sanitize t) .structurallyInvalid
  let canonicalTransaction ← found (S.marshalTransaction t) .marshal
  ensure (canonicalTransaction = rawTransaction) .notCanonicallyEncoded
  let version := S.version t.message
  ensure (version ≠ .unsupported) .unsupportedVersion
  let requiredSignatures := S.numRequiredSignatures t.message
  ensure (0 < requiredSignatures ∧ requiredSignatures ≤ (S.accountKeys t.message).length)
    .invalidRequiredSignerSet
  ensure (t.signatures.length = requiredSignatures) .invalidSignatureCount
  let signerIndex ← found (((S.accountKeys t.message).take requiredSignatures).findIdx?
    (· = publicKey)) .walletNotRequiredSigner
  let message ← found (S.marshalMessage t.message) .marshal
  let _ ← validateWebRequiredSignatures t message requiredSignatures
  pure ⟨rawTransaction, message, S.sha256 rawTransaction, version, requiredSignatures, signerIndex,
    publicKey⟩

/-! ## Payloads -/

/-- `WebFinalizeMode`, a text with two values that are supported. -/
inductive FinalizeMode
  | signature
  | signedTransaction
  | unsupported (mode : String)
  deriving DecidableEq

structure FinalizePayload where
  mode : FinalizeMode
  value : String
  deriving DecidableEq

variable {S}

def buildWebPositionFinalizePayload (descriptor : Descriptor S) (walletSignature : Signature) :
    Except SigningError FinalizePayload := do
  ensure (!walletSignature.isZero ∧
    S.verify descriptor.signerPublicKey descriptor.message walletSignature) .walletSignatureFailed
  let t ← found (S.transactionFromBytes descriptor.rawTransaction) .reparse
  ensure (t.signatures.length = descriptor.requiredSignatures) .reparse
  let t := { t with signatures := t.signatures.set descriptor.signerIndex walletSignature }
  let complete ← validateWebRequiredSignatures t descriptor.message descriptor.requiredSignatures
  if descriptor.version = .legacy ∧ !complete then
    pure ⟨.signature, Hex.encode walletSignature.bytes⟩
  else
    let signedTransaction ← found (S.marshalTransaction t) .marshal
    pure ⟨.signedTransaction, Hex.encode signedTransaction⟩

def walletSignatureOf (descriptor : Descriptor S) (mode : FinalizeMode) (value : String) :
    Except SigningError Signature :=
  match mode with
  | .signature => decodeWebSignature value
  | .signedTransaction => do
      let signedBytes ← decodeWebPositionTransaction value
      let t ← found (S.transactionFromBytes signedBytes) .transactionNotValid
      ensure (S.sanitize t) .structurallyInvalid
      ensure (S.marshalTransaction t = some signedBytes) .notCanonicallyEncoded
      ensure (S.marshalMessage t.message = some descriptor.message) .messageChanged
      ensure (S.version t.message = descriptor.version ∧
        t.signatures.length = descriptor.requiredSignatures) .signerMetadataChanged
      found t.signatures[descriptor.signerIndex]? .signerMetadataChanged
  | .unsupported mode => .error (.unsupportedMode mode)

/-- The payload that is sent is the one that is built, not the one that was returned. -/
def validateWebPositionFinalizePayload (descriptor : Descriptor S) (payload : FinalizePayload) :
    Except SigningError FinalizePayload := do
  let value := Text.trimSpace payload.value
  ensure (value ≠ "") .payloadRequired
  let walletSignature ← walletSignatureOf descriptor payload.mode value
  let expected ← buildWebPositionFinalizePayload descriptor walletSignature
  ensure (expected.mode = payload.mode) .modeChanged
  ensure (Text.toLower expected.value = Text.toLower value) .transactionChanged
  pure expected

end Athena.Signing

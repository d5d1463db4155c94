import HamiCloud.Api.Idempotency
import HamiCloud.Api.Listings
import HamiCloud.Library.Aead

/-!
# Encrypted secrets

`encrypt_secret` and `decrypt_secret` of `app/core/crypto.py`. The random nonce is an argument. A text is a sequence of
Unicode characters, so it can be encoded in UTF-8.
-/

namespace HamiCloud

open Library

/-- How an identifier is written: differently for different identifiers, and without a colon. -/
structure UuidText where
  text : Uuid → String
  injective : Function.Injective text
  noColon : ∀ id, ':' ∉ (text id).toList

structure CryptoContext where
  aead : IdealAead
  sha256 : List UInt8 → List UInt8
  /-- `SECRET_ENCRYPTION_KEY` -/
  secretEncryptionKey : String
  uuid : UuidText

structure Nonce where
  bytes : List UInt8
  length : bytes.length = 12

/-- `base64.urlsafe_b64decode(text.encode("ascii"))`. -/
def asciiB64decode (text : String) : Option (List UInt8) :=
  if text.toList.all fun c => c.toNat < 128 then Base64.decode text.toList else none

def deriveAesKey (C : CryptoContext) (rawKey : Option String) : List UInt8 :=
  let keyStr := strip (if rawKey.getD "" = "" then C.secretEncryptionKey else rawKey.getD "")
  match asciiB64decode (padBase64 keyStr) with
  | some decoded => if decoded.length = 32 then decoded else C.sha256 (utf8 keyStr)
  | none => C.sha256 (utf8 keyStr)

def buildAad (C : CryptoContext) (workspaceId : Option Uuid) (secretName : Option String) : Option (List UInt8) :=
  match workspaceId, secretName with
  | some workspaceId, some secretName => some (utf8 (C.uuid.text workspaceId ++ ":" ++ secretName))
  | _, _ => none

/-- No associated data is the empty one for the cipher. -/
def encryptSecret (C : CryptoContext) (nonce : Nonce) (plaintext : String) (workspaceId : Option Uuid)
    (secretName key : Option String) : String :=
  let aesKey := deriveAesKey C key
  let aad := buildAad C workspaceId secretName
  let ciphertext := C.aead.encrypt aesKey nonce.bytes (utf8 plaintext) (aad.getD [])
  "v1:" ++ String.ofList (Base64.encode (nonce.bytes ++ ciphertext))

inductive DecryptionFailure
  /-- `SecretDecryptionError` -/
  | secretDecryption (message : String)
  /-- `UnicodeDecodeError` -/
  | unicodeDecode
  deriving DecidableEq

def decryptSecret (C : CryptoContext) (token : String) (workspaceId : Option Uuid) (secretName key : Option String) :
    Except DecryptionFailure String := do
  ensure (token ≠ "" ∧ "v1:".toList.isPrefixOf token.toList)
    (.secretDecryption "Unsupported or malformed encrypted secret format")
  let b64Part := String.ofList (token.toList.drop 3)
  let raw ← orError (asciiB64decode (padBase64 b64Part)) (.secretDecryption "Invalid base64 secret payload")
  ensure (12 + 16 ≤ raw.length) (.secretDecryption "Encrypted secret payload is truncated")
  let nonce := raw.take 12
  let ciphertext := raw.drop 12
  let aesKey := deriveAesKey C key
  let aad := buildAad C workspaceId secretName
  let plaintext ← orError (C.aead.decrypt aesKey nonce ciphertext (aad.getD []))
    (.secretDecryption "AES-256-GCM tag or AAD verification failed")
  orError (String.fromUTF8? ⟨plaintext.toArray⟩) .unicodeDecode

end HamiCloud

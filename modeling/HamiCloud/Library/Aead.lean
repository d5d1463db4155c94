import Mathlib

/-!
# Ideal authenticated encryption

Decryption succeeds exactly on the outputs of encryption under the same key, nonce and associated data. An output
belongs to one key, nonce and associated data only; for this no bound is put on its length besides that of the tag.
-/

namespace Library

structure IdealAead where
  encrypt : (key nonce plaintext aad : List UInt8) → List UInt8
  decrypt : (key nonce ciphertext aad : List UInt8) → Option (List UInt8)
  tag_le : ∀ key nonce plaintext aad, 16 ≤ (encrypt key nonce plaintext aad).length
  decrypt_eq_some : ∀ key nonce ciphertext aad plaintext,
    decrypt key nonce ciphertext aad = some plaintext ↔ ciphertext = encrypt key nonce plaintext aad
  bound : ∀ key nonce plaintext aad key' nonce' plaintext' aad',
    encrypt key nonce plaintext aad = encrypt key' nonce' plaintext' aad' → key = key' ∧ nonce = nonce' ∧ aad = aad'

namespace IdealAead

variable (A : IdealAead) {key nonce plaintext aad aad' : List UInt8}

lemma decrypt_encrypt : A.decrypt key nonce (A.encrypt key nonce plaintext aad) aad = some plaintext :=
  (A.decrypt_eq_some ..).mpr rfl

lemma decrypt_other (h : aad' ≠ aad) : A.decrypt key nonce (A.encrypt key nonce plaintext aad) aad' = none := by
  cases hdec : A.decrypt key nonce (A.encrypt key nonce plaintext aad) aad' with
  | none => rfl
  | some plaintext' =>
    have houtput := (A.decrypt_eq_some ..).mp hdec
    exact absurd (A.bound _ _ _ _ _ _ _ _ houtput).2.2.symm h

end IdealAead

end Library

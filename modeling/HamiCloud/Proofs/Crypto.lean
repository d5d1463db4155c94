import HamiCloud.Library.Sha256
import HamiCloud.Proofs.Listings

/-!
# Secrets are decrypted in their place only

A token decrypts to what was encrypted, with its padding or without it, and it is bound to the workspace and the name
through its associated data: what precedes the first colon of it is the workspace.
-/

namespace HamiCloud.Proofs

open Library

variable {C : CryptoContext} {nonce : Nonce} {plaintext : String} {payload : List Char}

/-! ### Keys -/

/-- Every configured key gives a key of AES-256, so the construction of the cipher does not fail. -/
theorem deriveAesKey_length (h : C.sha256 = Sha256.digest) (rawKey : Option String) :
    (deriveAesKey C rawKey).length = 32 := by
  unfold deriveAesKey
  dsimp only
  cases asciiB64decode (padBase64 _) with
  | none => rw [h, Sha256.length_digest]
  | some decoded =>
    dsimp only
    by_cases hlength : decoded.length = 32
    · rw [if_pos hlength, hlength]
    · rw [if_neg hlength, h, Sha256.length_digest]

/-! ### Associated data -/

lemma eq_of_first_colon {l l' r r' : List Char} (hl : ':' ∉ l) (hl' : ':' ∉ l') (h : l ++ ':' :: r = l' ++ ':' :: r') :
    l = l' ∧ r = r' := by
  rcases List.append_eq_append_iff.mp h with ⟨t, rfl, ht⟩ | ⟨t, rfl, ht⟩
  · cases t with
    | nil => exact ⟨(List.append_nil l).symm, (List.cons.inj ht).2⟩
    | cons c t =>
      obtain ⟨rfl, -⟩ := List.cons.inj ht
      exact absurd (List.mem_append_right l List.mem_cons_self) hl'
  · cases t with
    | nil => exact ⟨List.append_nil l', (List.cons.inj ht).2.symm⟩
    | cons c t =>
      obtain ⟨rfl, -⟩ := List.cons.inj ht
      exact absurd (List.mem_append_right l' List.mem_cons_self) hl

lemma buildAad_inj {workspaceId : Uuid} {secretName : String} {workspaceId' : Option Uuid} {secretName' : Option String}
    (h : (buildAad C workspaceId' secretName').getD [] = (buildAad C (some workspaceId) (some secretName)).getD []) :
    workspaceId' = some workspaceId ∧ secretName' = some secretName := by
  have hnil : utf8 "" = [] := by decide +kernel
  cases workspaceId' with
  | none => exact absurd (congrArg String.toList (utf8_injective (hnil.trans h))) (by simp)
  | some workspaceId' =>
    cases secretName' with
    | none => exact absurd (congrArg String.toList (utf8_injective (hnil.trans h))) (by simp)
    | some secretName' =>
      have hlist := congrArg String.toList (utf8_injective h)
      simp only [String.toList_append, List.append_assoc] at hlist
      obtain ⟨hid, hname⟩ := eq_of_first_colon (C.uuid.noColon workspaceId') (C.uuid.noColon workspaceId) hlist
      exact ⟨congrArg some (C.uuid.injective (String.toList_inj.mp hid)), congrArg some (String.toList_inj.mp hname)⟩

/-! ### Tokens -/

lemma asciiB64decode_encode (bytes : List UInt8) : asciiB64decode (String.ofList (Base64.encode bytes)) = some bytes := by
  have hascii : (Base64.encode bytes).all (fun c => c.toNat < 128) = true := by
    simpa using Base64.encode_ascii bytes
  rw [asciiB64decode, String.toList_ofList, if_pos hascii, Base64.decode_encode]

/-- The decryption of a token whose payload is a nonce and an output of the cipher, padded or not. -/
lemma decryptSecret_payload {token : String} {key : Option String} {bytes aad : List UInt8} {workspaceId : Option Uuid}
    {secretName : Option String} (htoken : token.toList = "v1:".toList ++ payload)
    (hpayload : Base64.pad payload =
      Base64.encode (nonce.bytes ++ C.aead.encrypt (deriveAesKey C key) nonce.bytes bytes aad)) :
    decryptSecret C token workspaceId secretName key =
      orError (C.aead.decrypt (deriveAesKey C key) nonce.bytes
        (C.aead.encrypt (deriveAesKey C key) nonce.bytes bytes aad) ((buildAad C workspaceId secretName).getD []))
        (.secretDecryption "AES-256-GCM tag or AAD verification failed") >>= fun plaintext =>
      orError (String.fromUTF8? ⟨plaintext.toArray⟩) .unicodeDecode := by
  have hprefix : token ≠ "" ∧ "v1:".toList.isPrefixOf token.toList = true := by
    refine ⟨?_, ?_⟩
    · rintro rfl
      simp at htoken
    · rw [htoken, List.isPrefixOf_iff_prefix]
      exact List.prefix_append ..
  have hdrop : token.toList.drop 3 = payload := by
    rw [htoken]
    rfl
  have hpad : padBase64 (String.ofList payload) =
      String.ofList (Base64.encode (nonce.bytes ++ C.aead.encrypt (deriveAesKey C key) nonce.bytes bytes aad)) := by
    rw [← String.toList_inj, toList_padBase64, String.toList_ofList, hpayload, String.toList_ofList]
  have hlong : 12 + 16 ≤ (nonce.bytes ++ C.aead.encrypt (deriveAesKey C key) nonce.bytes bytes aad).length := by
    rw [List.length_append, nonce.length]
    exact Nat.add_le_add_left (C.aead.tag_le ..) 12
  unfold decryptSecret
  dsimp only
  rw [hdrop, hpad, asciiB64decode_encode, ensure_of hprefix, ok_bind, orError_some, ok_bind, ensure_of hlong, ok_bind,
    List.take_left' nonce.length, List.drop_left' nonce.length]

lemma toList_encryptSecret (C : CryptoContext) (nonce : Nonce) (plaintext : String) (workspaceId : Option Uuid)
    (secretName key : Option String) :
    (encryptSecret C nonce plaintext workspaceId secretName key).toList =
      "v1:".toList ++ Base64.encode (nonce.bytes ++ C.aead.encrypt (deriveAesKey C key) nonce.bytes (utf8 plaintext)
        ((buildAad C workspaceId secretName).getD [])) := by
  simp only [encryptSecret, String.toList_append, String.toList_ofList]

lemma toList_stripPadding {token : String} {bytes : List UInt8}
    (htoken : token.toList = "v1:".toList ++ Base64.encode bytes) :
    (stripPadding token).toList = "v1:".toList ++ (Base64.encode bytes).rdropWhile (· = '=') := by
  obtain ⟨text, n, hencode, hplain, -, -⟩ := Base64.encode_eq bytes
  have hplain' : '=' ∉ "v1:".toList ++ text := by simp [hplain]
  rw [stripPadding, String.toList_ofList, htoken, hencode, ← List.append_assoc, Base64.rdropWhile_pad hplain',
    Base64.rdropWhile_pad hplain]

/-- A secret is what its token decrypts to, also without the padding; under another workspace or name, or under none,
neither text decrypts. -/
theorem secret_roundtrip_bound (C : CryptoContext) (nonce : Nonce) (plaintext : String) (workspaceId : Uuid)
    (secretName : String) (key : Option String) :
    decryptSecret C (encryptSecret C nonce plaintext (some workspaceId) (some secretName) key) (some workspaceId)
      (some secretName) key = .ok plaintext ∧
    decryptSecret C (stripPadding (encryptSecret C nonce plaintext (some workspaceId) (some secretName) key))
      (some workspaceId) (some secretName) key = .ok plaintext ∧
    ∀ workspaceId' secretName', (workspaceId', secretName') ≠ (some workspaceId, some secretName) →
      ∃ message,
        decryptSecret C (encryptSecret C nonce plaintext (some workspaceId) (some secretName) key) workspaceId'
          secretName' key = .error (.secretDecryption message) ∧
        decryptSecret C (stripPadding (encryptSecret C nonce plaintext (some workspaceId) (some secretName) key))
          workspaceId' secretName' key = .error (.secretDecryption message) := by
  have htoken := toList_encryptSecret C nonce plaintext (some workspaceId) (some secretName) key
  have hstripped := toList_stripPadding htoken
  have hok : ∀ bytes, orError (String.fromUTF8? ⟨(utf8 bytes).toArray⟩) DecryptionFailure.unicodeDecode = .ok bytes :=
    fun bytes => congrArg (orError · _) (fromUTF8?_toUTF8 bytes)
  refine ⟨?_, ?_, fun workspaceId' secretName' hne => ?_⟩
  · rw [decryptSecret_payload htoken (Base64.pad_encode _), IdealAead.decrypt_encrypt, orError_some, ok_bind, hok]
  · rw [decryptSecret_payload hstripped (Base64.pad_rdropWhile_encode _), IdealAead.decrypt_encrypt, orError_some,
      ok_bind, hok]
  · have haad : (buildAad C workspaceId' secretName').getD [] ≠
        (buildAad C (some workspaceId) (some secretName)).getD [] := by
      intro he
      obtain ⟨rfl, rfl⟩ := buildAad_inj he
      exact hne rfl
    refine ⟨"AES-256-GCM tag or AAD verification failed", ?_, ?_⟩
    · rw [decryptSecret_payload htoken (Base64.pad_encode _), IdealAead.decrypt_other _ haad]
      rfl
    · rw [decryptSecret_payload hstripped (Base64.pad_rdropWhile_encode _), IdealAead.decrypt_other _ haad]
      rfl

/-! ### A cipher that binds everything -/

/-- Bytes with a mark before each and another mark at the end. -/
def marked (bytes : List UInt8) : List UInt8 := bytes.flatMap (fun b => [1, b]) ++ [0]

lemma marked_append_inj {x y r r' : List UInt8} (h : marked x ++ r = marked y ++ r') : x = y ∧ r = r' := by
  induction x generalizing y with
  | nil =>
    cases y with
    | nil => exact ⟨rfl, by simpa [marked] using h⟩
    | cons b y => simp [marked] at h
  | cons a x ih =>
    cases y with
    | nil => simp [marked] at h
    | cons b y =>
      simp only [marked, List.flatMap_cons, List.cons_append, List.nil_append, List.cons.injEq, true_and] at h
      obtain ⟨rfl, hrest⟩ := h
      obtain ⟨rfl, rfl⟩ := ih hrest
      exact ⟨rfl, rfl⟩

def markedHeader (key nonce aad : List UInt8) : List UInt8 :=
  List.replicate 16 0 ++ (marked key ++ (marked nonce ++ marked aad))

/-- The plaintext after all that it is bound to. -/
def markedAead : IdealAead where
  encrypt key nonce plaintext aad := markedHeader key nonce aad ++ plaintext
  decrypt key nonce ciphertext aad :=
    if (markedHeader key nonce aad).isPrefixOf ciphertext then some (ciphertext.drop (markedHeader key nonce aad).length)
    else none
  tag_le := by
    intro key nonce plaintext aad
    simp only [markedHeader, List.length_append, List.length_replicate]
    omega
  decrypt_eq_some := by
    intro key nonce ciphertext aad plaintext
    rw [Option.ite_none_right_eq_some, List.isPrefixOf_iff_prefix, Option.some.injEq]
    constructor
    · rintro ⟨⟨rest, rfl⟩, rfl⟩
      rw [List.drop_left]
    · rintro rfl
      exact ⟨List.prefix_append _ _, List.drop_left⟩
  bound := by
    intro key nonce plaintext aad key' nonce' plaintext' aad' h
    simp only [markedHeader, List.append_assoc] at h
    obtain ⟨hkey, hrest⟩ := marked_append_inj (List.append_cancel_left h)
    obtain ⟨hnonce, hrest⟩ := marked_append_inj hrest
    exact ⟨hkey, hnonce, (marked_append_inj hrest).1⟩

def markedContext : CryptoContext where
  aead := markedAead
  sha256 := Sha256.digest
  secretEncryptionKey := "development"
  uuid := pythonUuid

def zeroNonce : Nonce := ⟨List.replicate 12 0, rfl⟩

theorem secret_roundtrip_bound_empty :
    decryptSecret markedContext (encryptSecret markedContext zeroNonce "" (some 1) (some "A:B") none) (some 1)
      (some "A:B") none = .ok "" ∧
    ∃ message, decryptSecret markedContext (encryptSecret markedContext zeroNonce "" (some 1) (some "A:B") none)
      (some 1) (some "A") none = .error (.secretDecryption message) := by
  obtain ⟨hok, -, hother⟩ := secret_roundtrip_bound markedContext zeroNonce "" 1 "A:B" none
  obtain ⟨message, herror, -⟩ := hother (some 1) (some "A") (by decide)
  exact ⟨hok, message, herror⟩

end HamiCloud.Proofs

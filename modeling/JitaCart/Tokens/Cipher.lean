/- module: JitaCart/Tokens/Cipher
   source: backend/crates/auth-tokens/src/cipher.rs (MultiKeyCipher)
   digest: Encryption of tokens at rest under a primary key, and decryption by key id. -/

import JitaCart.Api.Auth

/-!
AES-GCM is a parameter, known only by its round trip. `generate_nonce` is
random, so a caller brings the nonces with it.
-/

set_option autoImplicit false
set_option relaxedAutoImplicit false

namespace JitaCart.Tokens

open Schema Base.Request Api.Auth

/-- Authenticated encryption with associated data; both directions may fail. -/
structure Aead where
  Key : Type
  encrypt : Key → (nonce aad plaintext : Bytes) → Option Bytes
  decrypt : Key → (nonce aad ciphertext : Bytes) → Option Bytes
  decrypt_encrypt : ∀ {key nonce aad plaintext ciphertext},
    encrypt key nonce aad plaintext = some ciphertext →
      decrypt key nonce aad ciphertext = some plaintext

abbrev Nonce := { nonce : Bytes // nonce.length = 12 }

abbrev Keys (A : Aead) := String → Option A.Key

/-- The primary key is checked to be among the keys when the cipher is built. -/
structure MultiKeyCipher (A : Aead) where
  keys : Keys A
  primary : String
  known : (keys primary).isSome = true

variable {A : Aead}

/-- `i64::to_be_bytes`. -/
def toBeBytes (n : Int) : Bytes :=
  (List.range 8).map fun i => UInt8.ofNat ((n % 2 ^ 64).toNat / 256 ^ (7 - i))

/-- Encryption is always under the primary key. -/
def MultiKeyCipher.encrypt (cipher : MultiKeyCipher A) (nonce : Nonce) (plaintext aad : Bytes) :
    Except String EncryptedToken := do
  let ciphertext ← fetch "AES-GCM encrypt failed: aead::Error"
    (A.encrypt ((cipher.keys cipher.primary).get cipher.known) nonce.val aad plaintext)
  .ok ⟨ciphertext, nonce.val, cipher.primary⟩

/-- `MultiKeyCipher::decrypt`: under the key that the row names. -/
def decryptWith (keys : Keys A) (ciphertext nonce : Bytes) (kid : String) (aad : Bytes) :
    Except String Bytes := do
  require (nonce.length = 12) s!"nonce must be 12 bytes, got {nonce.length}"
  let key ← fetch s!"token row encrypted with unknown kid {kid.quote}; check token_enc config"
    (keys kid)
  fetch s!"AES-GCM decrypt failed for kid {kid.quote}: aead::Error"
    (A.decrypt key nonce aad ciphertext)

/-- What a process has encrypted, every process with its keys decrypts. -/
theorem decryptWith_encrypt {cipher : MultiKeyCipher A} {nonce : Nonce} {plaintext aad : Bytes}
    {token : EncryptedToken} (h : cipher.encrypt nonce plaintext aad = .ok token) :
    decryptWith cipher.keys token.ciphertext token.nonce token.kid aad = .ok plaintext := by
  simp only [MultiKeyCipher.encrypt, bind_eq_ok, fetch_eq_ok, Except.ok.injEq] at h
  obtain ⟨ciphertext, hencrypt, rfl⟩ := h
  simp only [decryptWith, bind_eq_ok, require_eq_ok, fetch_eq_ok]
  exact ⟨(), nonce.property, _, (Option.some_get cipher.known).symm,
    A.decrypt_encrypt hencrypt⟩

theorem encrypt_kid {cipher : MultiKeyCipher A} {nonce : Nonce} {plaintext aad : Bytes}
    {token : EncryptedToken} (h : cipher.encrypt nonce plaintext aad = .ok token) :
    token.kid = cipher.primary := by
  simp only [MultiKeyCipher.encrypt, bind_eq_ok, Except.ok.injEq] at h
  obtain ⟨ciphertext, -, rfl⟩ := h
  rfl

/-- A cipher that writes its key, nonce and associated data in front of the plaintext. -/
def tagged : Aead where
  Key := Bytes
  encrypt key nonce aad plaintext := some (key ++ nonce ++ aad ++ plaintext)
  decrypt key nonce aad ciphertext :=
    if (key ++ nonce ++ aad).isPrefixOf ciphertext then
      some (ciphertext.drop (key ++ nonce ++ aad).length)
    else none
  decrypt_encrypt h := by
    obtain rfl := Option.some.inj h
    simp

def zeroNonce : Nonce := ⟨List.replicate 12 0, rfl⟩

end JitaCart.Tokens

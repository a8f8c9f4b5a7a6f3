import Mathlib.Data.List.Basic

namespace SideswapManager.Cipher

def nonceSize : Nat := 12

structure Nonce where
  bytes : List UInt8
  size : bytes.length = nonceSize

structure Key where
  bytes : List UInt8
  size : bytes.length = 32

inductive AeadError where
  | error
  deriving DecidableEq, Repr

def Nonce.fromSlice (slice : List UInt8) : Option Nonce :=
  if size : slice.length = nonceSize then some ⟨slice,size⟩ else none

-- The AES-256-GCM-SIV primitive behind the `Aead` trait; either direction may answer Err.
structure Aes256GcmSiv where
  encrypt : Key → Nonce → List UInt8 → Except AeadError (List UInt8)
  decrypt : Key → Nonce → List UInt8 → Except AeadError (List UInt8)

structure AesCipher where
  key : Key

def AesCipher.new (key : Key) : AesCipher := ⟨key⟩

-- The primitive's Err is the panic of `expect("must not fail")`.
def AesCipher.encrypt (cipher : AesCipher) (aead : Aes256GcmSiv) (nonce : Nonce) (data : List UInt8) :
    Option (List UInt8) :=
  match aead.encrypt cipher.key nonce data with
  | .ok encrypted => some (nonce.bytes ++ encrypted)
  | .error _ => none

-- `none` is the panic of `Nonce::from_slice` on a wrong length.
def AesCipher.decrypt (cipher : AesCipher) (aead : Aes256GcmSiv) (data : List UInt8) :
    Option (Except AeadError (List UInt8)) :=
  if data.length < nonceSize then some (.error .error)
  else
    let (nonce,encryptedData) := data.splitAt nonceSize
    (Nonce.fromSlice nonce).map fun nonce => aead.decrypt cipher.key nonce encryptedData

theorem fromSlice_of_length {slice : List UInt8} (size : slice.length = nonceSize) :
    Nonce.fromSlice slice = some ⟨slice,size⟩ := dif_pos size

theorem encrypt_eq_some {cipher : AesCipher} {aead : Aes256GcmSiv} {nonce : Nonce} {data out : List UInt8} :
    cipher.encrypt aead nonce data = some out ↔
      ∃ encrypted, aead.encrypt cipher.key nonce data = .ok encrypted ∧ out = nonce.bytes ++ encrypted := by
  unfold AesCipher.encrypt
  cases aead.encrypt cipher.key nonce data with
  | ok encrypted => simp [eq_comm]
  | error _ => simp

theorem decrypt_short (cipher : AesCipher) (aead : Aes256GcmSiv) {data : List UInt8}
    (short : data.length < nonceSize) : cipher.decrypt aead data = some (.error .error) := if_pos short

theorem decrypt_nonce_append (cipher : AesCipher) (aead : Aes256GcmSiv) (nonce : Nonce) (rest : List UInt8) :
    cipher.decrypt aead (nonce.bytes ++ rest) = some (aead.decrypt cipher.key nonce rest) := by
  have long : ¬(nonce.bytes ++ rest).length < nonceSize := by simp [nonce.size]
  rw [AesCipher.decrypt, if_neg long, List.splitAt_eq, List.take_left' nonce.size, List.drop_left' nonce.size]
  simp only [fromSlice_of_length nonce.size, Option.map_some']

theorem decrypt_isSome (cipher : AesCipher) (aead : Aes256GcmSiv) (data : List UInt8) :
    (cipher.decrypt aead data).isSome := by
  by_cases short : data.length < nonceSize
  · rw [decrypt_short cipher aead short]; rfl
  · have size : (data.take nonceSize).length = nonceSize := by simp only [List.length_take]; omega
    have split := decrypt_nonce_append cipher aead ⟨_,size⟩ (data.drop nonceSize)
    simp only [List.take_append_drop] at split
    simp [split]

-- If the primitive opens what it sealed, decrypt gives back every plaintext encrypt wrote.
theorem decrypt_opens_encrypt (aead : Aes256GcmSiv) (key : Key) (nonce : Nonce) (m : List UInt8)
    (opens : ∀ n data sealed, aead.encrypt key n data = .ok sealed → aead.decrypt key n sealed = .ok data) :
    ∀ out, (AesCipher.new key).encrypt aead nonce m = some out → (AesCipher.new key).decrypt aead out = some (.ok m) := by
  intro out encrypted
  obtain ⟨sealed,sealedOk,rfl⟩ := encrypt_eq_some.mp encrypted
  rw [decrypt_nonce_append]
  exact congrArg some (opens _ _ _ sealedOk)

theorem decrypt_opens_encrypt_on_reversing_primitive :
    let aead : Aes256GcmSiv := ⟨fun _ _ data => .ok data.reverse,fun _ _ sealed => .ok sealed.reverse⟩
    let key : Key := ⟨List.replicate 32 0,rfl⟩
    let nonce : Nonce := ⟨List.replicate 12 7,rfl⟩
    (∀ n data sealed, aead.encrypt key n data = .ok sealed → aead.decrypt key n sealed = .ok data) ∧
    (AesCipher.new key).encrypt aead nonce [1,2,3] = some (List.replicate 12 7 ++ [3,2,1]) ∧
    ∀ out, (AesCipher.new key).encrypt aead nonce [1,2,3] = some out →
      (AesCipher.new key).decrypt aead out = some (.ok [1,2,3]) :=
  have opens : ∀ (n : Nonce) (data sealed : List UInt8), (Except.ok data.reverse : Except AeadError _) = .ok sealed →
      (Except.ok sealed.reverse : Except AeadError _) = .ok data :=
    fun _ _ _ sealed => by cases sealed; rw [List.reverse_reverse]
  ⟨opens,rfl,decrypt_opens_encrypt _ _ _ _ opens⟩

end SideswapManager.Cipher

import Zmq4.ByteCodec

namespace Zmq4.BoxScheme

open ByteCodec

def keySize : Nat := 32
def nonceSize : Nat := 24
def boxOverhead : Nat := 16

abbrev Key := FixedBytes keySize
abbrev Nonce := FixedBytes nonceSize

structure KeyPair where
  publicKey : Key
  secretKey : Key
  deriving DecidableEq

/-- The box operations, with what is known of them: the size of a sealed box
and that opening inverts sealing under matching keys and nonce. -/
structure NaclBox where
  publicOf : Key → Key
  sealBox : Bytes → Nonce → Key → Key → Bytes
  openBox : Bytes → Nonce → Key → Key → Option Bytes
  sealBox_length : ∀ message nonce recipient secret,
    (sealBox message nonce recipient secret).length = message.length + boxOverhead
  openBox_sealBox : ∀ message nonce sender recipient,
    openBox (sealBox message nonce (publicOf recipient) sender) nonce
      (publicOf sender) recipient = some message

def NaclBox.pairOf (B : NaclBox) (secret : Key) : KeyPair where
  publicKey := B.publicOf secret
  secretKey := secret

def NaclBox.IsPair (B : NaclBox) (pair : KeyPair) : Prop :=
  pair.publicKey = B.publicOf pair.secretKey

theorem NaclBox.isPair_pairOf (B : NaclBox) (secret : Key) : B.IsPair (B.pairOf secret) := rfl

inductive BoxCall where
  | sealed (message : Bytes) (nonce : Nonce) (recipient secret : Key)
  | opened (box : Bytes) (nonce : Nonce) (sender secret : Key) (result : Option Bytes)
  deriving DecidableEq

section XorBox

def xorBytes (first second : Bytes) : Bytes :=
  List.zipWith (fun a b => a ^^^ b) first second

theorem xorBytes_mask_comm (mask : UInt8) (first second : Bytes) :
    xorBytes (first.map (· ^^^ mask)) second = xorBytes (second.map (· ^^^ mask)) first := by
  induction first generalizing second with
  | nil => cases second <;> simp [xorBytes]
  | cons a first ih =>
    cases second with
    | nil => simp [xorBytes]
    | cons b second =>
      have hhead : a ^^^ mask ^^^ b = b ^^^ mask ^^^ a := by
        rw [UInt8.xor_assoc, UInt8.xor_comm, UInt8.xor_comm mask b]
      have htail := ih second
      simp only [xorBytes] at htail ⊢
      simp [hhead, htail]

def xorPublic (secret : Key) : Key where
  bytes := secret.bytes.map (· ^^^ 0x5a)
  length_eq := by simp

def xorTag (nonce : Nonce) (peer secret : Key) : FixedBytes boxOverhead :=
  let shared := xorBytes peer.bytes secret.bytes
  FixedBytes.ofCopy boxOverhead
    (xorBytes (xorBytes (shared.take 16) (shared.drop 16)) (nonce.bytes.take 16))

theorem xorTag_comm (nonce : Nonce) (first second : Key) :
    xorTag nonce (xorPublic first) second = xorTag nonce (xorPublic second) first := by
  simp only [xorTag, xorPublic, xorBytes_mask_comm]

/-- A box that puts an authenticator in front of the message.  It is as strict
about keys and nonces as the real one on the runs it is used for. -/
def xorBox : NaclBox where
  publicOf := xorPublic
  sealBox message nonce recipient secret := (xorTag nonce recipient secret).bytes ++ message
  openBox box nonce sender secret :=
    if box.take boxOverhead = (xorTag nonce sender secret).bytes then some (box.drop boxOverhead)
    else none
  sealBox_length := by
    intro message nonce recipient secret
    simp [Nat.add_comm]
  openBox_sealBox := by
    intro message nonce sender recipient
    have htag : (xorTag nonce (xorPublic recipient) sender).bytes.length = boxOverhead :=
      FixedBytes.bytes_length _
    rw [xorTag_comm] at htag ⊢
    simp [htag]

def plainKey (byte : UInt8) : Key where
  bytes := List.replicate keySize byte
  length_eq := by simp

end XorBox

end Zmq4.BoxScheme

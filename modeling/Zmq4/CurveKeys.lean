import Zmq4.BoxScheme
import Zmq4.Z85

namespace Zmq4.CurveKeys

open ByteCodec BoxScheme Z85
open DuplexProgram (Err)

def publicKeyZ85 (kp : KeyPair) : Except Err Bytes :=
  encodeToString kp.publicKey.bytes

def secretKeyZ85 (kp : KeyPair) : Except Err Bytes :=
  encodeToString kp.secretKey.bytes

def decodeKey (name : String) (text : Bytes) : Except Err Key :=
  match decodeString text with
  | .error err => .error (.wrap s!"curve: invalid {name} key Z85 encoding" err)
  | .ok key =>
    if hsize : key.length = keySize then .ok ⟨key, hsize⟩
    else .error (.text s!"curve: {name} key must be {keySize} bytes, got {key.length}")

def newKeyPairFromZ85 (publicZ85 secretZ85 : Bytes) : Except Err KeyPair := do
  let publicKey ← decodeKey "public" publicZ85
  let secretKey ← decodeKey "secret" secretZ85
  pure { publicKey, secretKey }

theorem decodeKey_eq_ok_iff (name : String) {text : Bytes} {key : Key} :
    decodeKey name text = .ok key ↔ encodeToString key.bytes = .ok text := by
  unfold decodeKey
  constructor
  · intro hdecode
    split at hdecode
    · cases hdecode
    rename_i htext
    split at hdecode <;> cases hdecode
    exact encodeToString_decode htext
  · intro hencode
    simp [decodeString_encode hencode]

/-- A pair is made of exactly the texts that it is written as. -/
theorem newKeyPairFromZ85_eq_ok_iff (publicZ85 secretZ85 : Bytes) (kp : KeyPair) :
    newKeyPairFromZ85 publicZ85 secretZ85 = .ok kp ↔
      publicKeyZ85 kp = .ok publicZ85 ∧ secretKeyZ85 kp = .ok secretZ85 := by
  rw [publicKeyZ85, secretKeyZ85, ← decodeKey_eq_ok_iff "public", ← decodeKey_eq_ok_iff "secret",
    newKeyPairFromZ85]
  cases decodeKey "public" publicZ85 with
  | error => simp [bind, Except.bind]
  | ok =>
    cases kp
    cases decodeKey "secret" secretZ85 <;> simp [bind, Except.bind, pure, Except.pure]

end Zmq4.CurveKeys

import Zmq4.DuplexProgram

namespace Zmq4.ZmtpMessage

open ByteCodec DuplexProgram

inductive MsgType where
  | usrMsg
  | cmdMsg
  deriving DecidableEq

structure Msg where
  frames : List Bytes
  msgType : MsgType
  multipart : Bool
  err : Option Err
  deriving DecidableEq

def newMsgFrom (frames : List Bytes) : Msg :=
  { frames := frames, msgType := .usrMsg, multipart := false, err := none }

def Msg.isCmd (msg : Msg) : Bool :=
  msg.msgType = .cmdMsg

def errBadCmd : Err := .text "zmq4: invalid command name"
def errBadFrame : Err := .text "zmq4: invalid frame"
def errOverflow : Err := .text "zmq4: overflow"

structure Cmd where
  name : Bytes
  body : Bytes
  deriving DecidableEq

def Cmd.unmarshalZmtp (data : Bytes) : Except Err Cmd :=
  match data with
  | [] => .error .unexpectedEof
  | size :: rest =>
    if size.toNat > rest.length then .error errBadCmd
    else .ok { name := rest.take size.toNat, body := rest.drop size.toNat }

def Cmd.marshalZmtp (cmd : Cmd) : Except Err Bytes :=
  if cmd.name.length > 255 then .error errBadCmd
  else .ok (UInt8.ofNat cmd.name.length :: (cmd.name ++ cmd.body))

def cmdHello : Bytes := ascii "HELLO"
def cmdInitiate : Bytes := ascii "INITIATE"
def cmdReady : Bytes := ascii "READY"
def cmdWelcome : Bytes := ascii "WELCOME"

theorem Cmd.unmarshal_marshal {cmd : Cmd} (hname : cmd.name.length ≤ 255) :
    cmd.marshalZmtp = .ok (UInt8.ofNat cmd.name.length :: (cmd.name ++ cmd.body)) ∧
      Cmd.unmarshalZmtp (UInt8.ofNat cmd.name.length :: (cmd.name ++ cmd.body)) =
        .ok cmd := by
  have hsize : (UInt8.ofNat cmd.name.length).toNat = cmd.name.length := by
    simp only [UInt8.toNat_ofNat']
    omega
  constructor
  · simp [Cmd.marshalZmtp, hname]
  · simp [Cmd.unmarshalZmtp, hsize]

def hasMoreBitFlag : UInt8 := 0x1
def isLongBitFlag : UInt8 := 0x2
def isCommandBitFlag : UInt8 := 0x4

def hasMore (flag : UInt8) : Bool := flag &&& hasMoreBitFlag == hasMoreBitFlag
def isLong (flag : UInt8) : Bool := flag &&& isLongBitFlag == isLongBitFlag
def isCommand (flag : UInt8) : Bool := flag &&& isCommandBitFlag == isCommandBitFlag

/-- The largest length a slice can have. -/
def maxInt64 : Nat := 2 ^ 63 - 1

theorem lt_of_le_maxInt64 {size : Nat} (hsize : size ≤ maxInt64) : size < 2 ^ 64 := by
  simp only [maxInt64] at hsize
  omega

def longFlag (flag : UInt8) (size : Nat) : UInt8 :=
  if size > 255 then flag ^^^ isLongBitFlag else flag

/-- The header that precedes a frame body of `size` bytes: the flag and one
length byte, or the flag and eight. -/
def frameHeader (flag : UInt8) (size : Nat) : Bytes :=
  if size > 255 then flag :: bigEndian 8 size else [flag, UInt8.ofNat size]

/-- The length a reader takes from a whole header, by the header's own flag. -/
def headerLength : Bytes → Option Nat
  | flag :: field =>
    if isLong flag then
      if field.length = 8 then some (bigEndianValue field) else none
    else
      match field with
      | [size] => some size.toNat
      | _ => none
  | [] => none

set_option maxRecDepth 4000 in
theorem isLong_xor (flag : UInt8) : isLong (flag ^^^ isLongBitFlag) = !isLong flag := by
  obtain ⟨⟨flag⟩⟩ := flag
  revert flag
  decide

theorem isLong_longFlag (flag : UInt8) (size : Nat) :
    isLong (longFlag flag size) = (decide (size > 255) ^^ isLong flag) := by
  unfold longFlag
  by_cases hlong : size > 255
  · simp [hlong, isLong_xor]
  · simp [hlong]

set_option maxRecDepth 4000 in
theorem isLong_xor_command (flag : UInt8) :
    isLong (flag ^^^ isCommandBitFlag) = isLong flag := by
  obtain ⟨⟨flag⟩⟩ := flag
  revert flag
  decide

theorem headerLength_frameHeader (flag : UInt8) {size : Nat} (hsize : size < 2 ^ 64) :
    headerLength (frameHeader flag size) =
      if isLong flag = decide (size > 255) then some size else none := by
  unfold frameHeader headerLength
  by_cases hlong : size > 255
  · have hvalue : bigEndianValue (bigEndian 8 size) = size :=
      bigEndianValue_bigEndian (by omega)
    cases hflag : isLong flag with
    | true => simp [hlong, hflag, hvalue]
    | false =>
      have hlength : (bigEndian 8 size).length = 8 := by simp
      rcases hfield : bigEndian 8 size with _ | ⟨first, _ | ⟨second, field⟩⟩
      · simp [hfield] at hlength
      · simp [hfield] at hlength
      · simp [hlong, hflag]
  · have hbyte : size % 256 = size := by omega
    cases hflag : isLong flag <;> simp [hlong, hflag, hbyte]

end Zmq4.ZmtpMessage

import Zmq4.ZmtpMessage
import Zmq4.ZmtpMetadata

namespace Zmq4.Connection

open ByteCodec DuplexProgram ZmtpMessage ZmtpMetadata

inductive SecurityType where
  | nullSecurity
  | plainSecurity
  | curveSecurity
  deriving DecidableEq

/-- A security mechanism with state `σ`.  Encryption and decryption return the
bytes they write.  The optional fields are the methods that the connection
finds by type assertion. -/
structure Security (σ : Type) where
  securityType : SecurityType
  encrypt : Bytes → Program σ Bytes
  decrypt : Bytes → Program σ Bytes
  encryptHandshakeCommand : Option (Bytes → Bytes → Program σ Bytes)
  ensureMessageReadiness : Option (Bool → Program σ Unit)
  encryptWithFlags : Option (Bytes → Bool → Program σ Bytes)
  handshakeState : Option (σ → Nat)

def nullSecurity : Security Unit where
  securityType := .nullSecurity
  encrypt := pure
  decrypt := pure
  encryptHandshakeCommand := none
  ensureMessageReadiness := none
  encryptWithFlags := none
  handshakeState := none

structure PlainSecurity where
  user : Bytes
  pass : Bytes

def plainSecurity : Security PlainSecurity where
  securityType := .plainSecurity
  encrypt := pure
  decrypt := pure
  encryptHandshakeCommand := none
  ensureMessageReadiness := none
  encryptWithFlags := none
  handshakeState := none

inductive SocketType where
  | pair
  | pub
  | sub
  | req
  | rep
  | dealer
  | router
  | pull
  | push
  | xpub
  | xsub
  deriving DecidableEq

def SocketType.name : SocketType → Bytes
  | .pair => ascii "PAIR"
  | .pub => ascii "PUB"
  | .sub => ascii "SUB"
  | .req => ascii "REQ"
  | .rep => ascii "REP"
  | .dealer => ascii "DEALER"
  | .router => ascii "ROUTER"
  | .pull => ascii "PULL"
  | .push => ascii "PUSH"
  | .xpub => ascii "XPUB"
  | .xsub => ascii "XSUB"

def SocketType.isCompatible : SocketType → SocketType → Bool
  | .pair, peer => peer = .pair
  | .pub, peer => peer = .sub || peer = .xsub
  | .sub, peer => peer = .pub || peer = .xpub
  | .req, peer => peer = .rep || peer = .router
  | .rep, peer => peer = .req || peer = .dealer
  | .dealer, peer => peer = .rep || peer = .dealer || peer = .router
  | .router, peer => peer = .req || peer = .dealer || peer = .router
  | .pull, peer => peer = .push
  | .push, peer => peer = .pull
  | .xpub, peer => peer = .sub || peer = .xsub
  | .xsub, peer => peer = .pub || peer = .xpub

def socketIdentity (id : Bytes) : Bytes :=
  id.take 255

structure Conn where
  metadata : Metadata
  peerMeta : Metadata
  closed : Bool
  rw : Duplex

def Conn.fresh (metadata : Metadata) : Conn where
  metadata := metadata
  peerMeta := Metadata.empty
  closed := false
  rw := { input := [], closedByPeer := false, output := [], writeErr := none }

def openMetadata (sockType : SocketType) (sockId : Bytes) : Metadata :=
  (Metadata.empty.set sysSockType sockType.name).set sysSockId (socketIdentity sockId)

/-- A connection as `Open` makes it, with its metadata in any order of
iteration. -/
structure Opened (conn : Conn) (sockType : SocketType) (sockId : Bytes) : Prop where
  entries : conn.metadata.entries.Perm (openMetadata sockType sockId).entries
  fresh : conn = Conn.fresh conn.metadata

theorem openMetadata_entries (sockType : SocketType) (sockId : Bytes) :
    (openMetadata sockType sockId).entries =
      [(sysSockType, sockType.name), (sysSockId, socketIdentity sockId)] := by
  have hne : ¬ sysSockId = sysSockType := by decide
  simp [openMetadata, Metadata.set, Metadata.empty, hne]

theorem opened_openMetadata (sockType : SocketType) (sockId : Bytes) :
    Opened (Conn.fresh (openMetadata sockType sockId)) sockType sockId :=
  ⟨.refl _, rfl⟩

theorem Opened.marshalZmtp {conn : Conn} {sockType : SocketType} {sockId : Bytes}
    (hconn : Opened conn sockType sockId) (P : Platform) :
    ∃ own, conn.metadata.marshalZmtp P = .ok own := by
  have hentries := hconn.entries
  rw [openMetadata_entries] at hentries
  have htype : sockType.name.length ≤ 6 := by
    cases sockType <;> decide
  have hid : (socketIdentity sockId).length ≤ 255 := List.length_take_le _ _
  have hlower : ∀ key ∈ [sysSockType, sysSockId], toLower P key = key.map asciiToLower := by
    intro key hkey
    have hascii : key.all (· < 0x80) = true := by
      revert key
      decide
    rw [toLower, if_pos hascii]
  refine marshalLoop_short P _ ?_ ?_ ?_
  · simp only [hentries.mem_iff, List.forall_mem_cons]
    exact ⟨by decide, by decide, nofun⟩
  · rw [List.append_nil, (hentries.map _).nodup_iff]
    simp only [List.map_cons, List.map_nil]
    rw [hlower _ (by simp), hlower _ (by simp)]
    decide
  · have htypeKey : sysSockType.length = 11 := rfl
    have hidKey : sysSockId.length = 8 := rfl
    simp only [hentries.mem_iff, List.forall_mem_cons, wireProperty, true_or, or_true, if_true]
    exact ⟨by omega, by omega, nofun⟩

structure Endpoint (σ : Type) where
  sec : σ
  conn : Conn

abbrev ConnM (σ α : Type) := Program (Endpoint σ) α

def errClosedConn : Err := .text "zmq4: read/write on closed connection"

section Operations

variable {σ α : Type}

def onRw (x : Program Duplex α) : ConnM σ α :=
  zoom (fun w => w.conn.rw) (fun w rw => { w with conn := { w.conn with rw := rw } }) x

def onSec (x : Program σ α) : ConnM σ α :=
  zoom (fun w => w.sec) (fun w sec => { w with sec := sec }) x

def Endpoint.setClosed (w : Endpoint σ) : Endpoint σ :=
  { w with conn := { w.conn with closed := true } }

/-- End of file and network errors other than timeouts close the connection. -/
def checkIo (err : Err) : ConnM σ Unit :=
  modify fun w =>
    if err.isEof then w.setClosed
    else
      match err.netTimeout with
      | some false => w.setClosed
      | _ => w

def checked (x : ConnM σ α) : ConnM σ α :=
  rescue x fun err => do
    checkIo err
    failWith err

variable (S : Security σ)

def isCurveHandshake (w : Endpoint σ) : Bool :=
  S.securityType = .curveSecurity &&
    match S.handshakeState with
    | some state => state w.sec < 5
    | none => true

def isMessageFrame (command : Bool) (body : Bytes) : Bool :=
  S.securityType = .curveSecurity && !command && body.length > 0

def frameSize (command : Bool) (body : Bytes) : Nat :=
  if isMessageFrame S command body then body.length + 25 else body.length

def frameFlag (command : Bool) (body : Bytes) (flag : UInt8) : UInt8 :=
  let flag := longFlag flag (frameSize S command body)
  if command then flag ^^^ isCommandBitFlag else flag

def checkReadiness (command : Bool) : ConnM σ Unit :=
  if S.securityType = .curveSecurity && !command then
    match S.ensureMessageReadiness with
    | some ensure =>
      rescue (do onSec (ensure (← get).conn.closed)) fun err => do
        checkIo err
        failWith (.wrap "zmq4: CURVE MESSAGE readiness check failed" err)
    | none => pure ()
  else pure ()

def writeSealed (encrypted : Program σ Bytes) : ConnM σ Unit :=
  checked do
    let sealed ← onSec encrypted
    onRw (write sealed)

def writeBody (command : Bool) (body : Bytes) (flag : UInt8) : ConnM σ Unit :=
  if isMessageFrame S command body then
    match S.encryptWithFlags with
    | some encrypt => writeSealed (encrypt body (flag &&& hasMoreBitFlag != 0))
    | none => writeSealed (S.encrypt body)
  else if body.length = 0 then pure ()
  else writeSealed (S.encrypt body)

def send (command : Bool) (body : Bytes) (flag : UInt8) : ConnM σ Unit := do
  checkReadiness S command
  checked (onRw (write
    (frameHeader (frameFlag S command body flag) (frameSize S command body))))
  writeBody S command body (frameFlag S command body flag)

def vectoredBody (frame : Bytes) : ConnM σ Bytes :=
  match S.securityType with
  | .nullSecurity => pure frame
  | _ => onSec (S.encrypt frame)

/-- The buffers of the vectored path: a header and a body for each frame, with
the header made from the size before encryption. -/
def multiBuffers : List Bytes → ConnM σ (List Bytes)
  | [] => pure []
  | frame :: rest => do
      let flag := if rest = [] then 0 else hasMoreBitFlag
      let header := frameHeader (longFlag flag frame.length) frame.length
      let body ← vectoredBody S frame
      let buffers ← multiBuffers rest
      pure (header :: body :: buffers)

def sendMulti (msg : Msg) : ConnM σ Unit := do
  let buffers ← multiBuffers S msg.frames
  checked (onRw (writeBuffers buffers))

def sendFrames (nframes : Nat) : Nat → List Bytes → ConnM σ Unit
  | _, [] => pure ()
  | index, frame :: rest => do
      let flag := if rest = [] then 0 else hasMoreBitFlag
      wrapping s!"zmq4: error sending frame {index + 1}/{nframes}" (send S false frame flag)
      sendFrames nframes (index + 1) rest

def sendMsg (msg : Msg) : ConnM σ Unit := do
  if (← get).conn.closed then failWith errClosedConn
  else if msg.multipart then sendMulti S msg
  else sendFrames S msg.frames.length 0 msg.frames

def isCurveHandshakeCommand (name : Bytes) : Bool :=
  name = cmdHello || name = cmdWelcome || name = cmdInitiate || name = cmdReady

/-- Write a handshake command.  The header carries the size of the body, and
the body follows without the command name. -/
def sendWithCurveHandshakeEncryption (encrypt : Bytes → Bytes → Program σ Bytes)
    (name body : Bytes) : ConnM σ Unit := do
  let flag := longFlag 0 body.length ^^^ isCommandBitFlag
  checked (onRw (write (frameHeader flag body.length)))
  writeSealed (encrypt name body)

def marshalAndSend (name body : Bytes) (flag : UInt8) : ConnM σ Unit :=
  match Cmd.marshalZmtp { name := name, body := body } with
  | .error err => failWith err
  | .ok buf => send S true buf flag

def sendCmd (name body : Bytes) : ConnM σ Unit := do
  if (← get).conn.closed then failWith errClosedConn
  else if S.securityType = .curveSecurity ∧ isCurveHandshakeCommand name then
    match S.encryptHandshakeCommand with
    | some encrypt => sendWithCurveHandshakeEncryption encrypt name body
    | none => marshalAndSend S name body 0
  else marshalAndSend S name body 0

/-- The length of the body, from the two header bytes read first.  A long
header has seven more length bytes. -/
def readSize (flag first : UInt8) : ConnM σ Nat :=
  if isLong flag then do
    let rest ← checked (onRw (readFull 7))
    pure (bigEndianValue (first :: rest))
  else pure first.toNat

def readRawFrame : ConnM σ (UInt8 × Bytes) := do
  let header ← checked (onRw (readFull 2))
  let size ← readSize (header.getD 0 0) (header.getD 1 0)
  if size > maxInt64 then failWith errOverflow
  else do
    let body ← checked (onRw (readFull size))
    pure (header.getD 0 0, body)

def openFrame (body : Bytes) : Program σ Bytes :=
  match S.securityType with
  | .nullSecurity => pure body
  | _ => S.decrypt body

/-- The content of a frame with the given body.  Commands of a CURVE handshake
that is still going on are taken as they are. -/
def frameContent (isCmd : Bool) (body : Bytes) : ConnM σ Bytes := do
  if isCmd && isCurveHandshake S (← get) then pure body
  else onSec (openFrame S body)

def readFrame (isCmd : Bool) : ConnM σ (UInt8 × Bytes) := do
  let (flag, body) ← readRawFrame
  let frame ← frameContent S (isCmd || isCommand flag) body
  pure (flag, frame)

/-- The loop of `read`, with the frames read so far.  A frame takes at least
two bytes of the input, so `rounds` above the number of unread bytes is never
used up. -/
def readLoop : Nat → Bool → List Bytes → ConnM σ Msg
  | 0, _, _ => throw .blocked
  | rounds + 1, isCmd, frames => fun w =>
    match (readFrame S isCmd).run w with
    | .error (.fail err) w' =>
      .ok { frames := frames, msgType := .usrMsg, multipart := false, err := some err } w'
    | .error stop w' => .error stop w'
    | .ok (flag, frame) w' =>
      if hasMore flag then
        (readLoop rounds (isCmd || isCommand flag) (frames ++ [frame])).run w'
      else
        .ok { frames := frames ++ [frame]
              msgType := if isCmd || isCommand flag then .cmdMsg else .usrMsg
              multipart := false
              err := none } w'

def read : ConnM σ Msg := fun w =>
  (readLoop S (w.conn.rw.input.length + 1) false []).run w

def recvCmd : ConnM σ Cmd := do
  if (← get).conn.closed then failWith errClosedConn
  else
    let msg ← read S
    match msg.err with
    | some err => failWith (.wrap "zmq4: could not read recv cmd" err)
    | none =>
      if msg.isCmd = false then failWith errBadFrame
      else
        match msg.frames with
        | [] => failWith (.text "zmq4: empty command")
        | [frame] =>
          match Cmd.unmarshalZmtp frame with
          | .error err =>
            failWith (.wrap "zmq4: could not unmarshal ZMTP recv cmd" err)
          | .ok cmd => pure cmd
        | _ => failWith (.text "zmq4: invalid length command")

end Operations

section Rules

variable {σ α : Type}

def Endpoint.wrote (w : Endpoint σ) (buffers : List Bytes) : Endpoint σ :=
  { w with conn := { w.conn with rw := { w.conn.rw with output := w.conn.rw.output ++ buffers } } }

def Endpoint.withInput (w : Endpoint σ) (input : Bytes) : Endpoint σ :=
  { w with conn := { w.conn with rw := { w.conn.rw with input := input } } }

def Endpoint.withSec (w : Endpoint σ) (sec : σ) : Endpoint σ :=
  { w with sec := sec }

structure Endpoint.Healthy (w : Endpoint σ) : Prop where
  notClosed : w.conn.closed = false
  writable : w.conn.rw.writeErr = none

@[simp] theorem Endpoint.wrote_nil (w : Endpoint σ) : w.wrote [] = w := by
  simp [Endpoint.wrote]

@[simp] theorem Endpoint.wrote_wrote (w : Endpoint σ) (first second : List Bytes) :
    (w.wrote first).wrote second = w.wrote (first ++ second) := by
  simp [Endpoint.wrote]

variable {w : Endpoint σ}

theorem Endpoint.Healthy.wrote (hw : w.Healthy) (buffers : List Bytes) :
    (w.wrote buffers).Healthy :=
  ⟨hw.notClosed, hw.writable⟩

theorem Endpoint.Healthy.withSec (hw : w.Healthy) (sec : σ) : (w.withSec sec).Healthy :=
  ⟨hw.notClosed, hw.writable⟩

variable {w' : Endpoint σ}

theorem checked_ok {x : ConnM σ α} {a : α} (hx : x.run w = .ok a w') :
    (checked x).run w = .ok a w' :=
  rescue_ok hx

theorem checked_eq_ok {x : ConnM σ α} {a : α} (hx : (checked x).run w = .ok a w') :
    x.run w = .ok a w' := by
  apply rescue_eq_ok _ hx
  intro err t
  simp [checkIo]

theorem onSec_ok {x : Program σ α} {a : α} {sec : σ} (hx : x.run w.sec = .ok a sec) :
    (onSec x).run w = .ok a (w.withSec sec) :=
  zoom_ok hx

theorem onSec_error {x : Program σ α} {stop : Stop} {sec : σ} (hx : x.run w.sec = .error stop sec) :
    (onSec x).run w = .error stop (w.withSec sec) :=
  zoom_error hx

theorem write_run (hw : w.Healthy) (buffer : Bytes) :
    (checked (onRw (write buffer))).run w = .ok () (w.wrote [buffer]) :=
  checked_ok (zoom_ok (write_ok hw.writable))

theorem write_run_eq {buffer : Bytes} {u : Unit}
    (hrun : (checked (onRw (write buffer))).run w = .ok u w') : w' = w.wrote [buffer] := by
  obtain ⟨rw, hwrite, rfl⟩ := zoom_eq_ok_iff.mp (checked_eq_ok hrun)
  rw [write_eq_ok hwrite]
  rfl

theorem writeBuffers_run (hw : w.Healthy) (buffers : List Bytes) :
    (checked (onRw (writeBuffers buffers))).run w = .ok () (w.wrote buffers) :=
  checked_ok (zoom_ok (writeBuffers_ok w.conn.rw buffers hw.writable))

theorem writeSealed_run (hw : w.Healthy) {encrypted : Program σ Bytes} {sealed : Bytes} {sec : σ}
    (hencrypted : encrypted.run w.sec = .ok sealed sec) :
    (writeSealed encrypted).run w = .ok () ((w.wrote [sealed]).withSec sec) := by
  apply checked_ok
  rw [bind_ok (onSec_ok hencrypted)]
  exact zoom_ok (write_ok hw.writable)

theorem readFull_run {size : Nat} {field rest : Bytes} (hinput : w.conn.rw.input = field ++ rest)
    (hsize : field.length = size) :
    (checked (onRw (readFull size))).run w = .ok field (w.withInput rest) :=
  checked_ok (zoom_ok (readFull_append hinput hsize))

theorem readFull_run_iff {size : Nat} {field : Bytes} :
    (checked (onRw (readFull size))).run w = .ok field w' ↔
      field.length = size ∧
        ∃ rest, w.conn.rw.input = field ++ rest ∧ w' = w.withInput rest := by
  constructor
  · intro hread
    obtain ⟨rw, hfull, rfl⟩ := zoom_eq_ok_iff.mp (checked_eq_ok hread)
    obtain ⟨hsize, hinput, hrw⟩ := readFull_eq_ok_iff.mp hfull
    exact ⟨hsize, rw.input, hinput, by rw [hrw]; rfl⟩
  · rintro ⟨hsize, rest, hinput, rfl⟩
    exact readFull_run hinput hsize

section Loop

variable {S : Security σ} {rounds : Nat} {isCmd : Bool} {done : List Bytes} {w w' : Endpoint σ}

theorem readLoop_ok {flag : UInt8} {frame : Bytes}
    (hframe : (readFrame S isCmd).run w = .ok (flag, frame) w') :
    (readLoop S (rounds + 1) isCmd done).run w =
      if hasMore flag then
        (readLoop S rounds (isCmd || isCommand flag) (done ++ [frame])).run w'
      else
        .ok { frames := done ++ [frame]
              msgType := if isCmd || isCommand flag then .cmdMsg else .usrMsg
              multipart := false
              err := none } w' := by
  simp only [readLoop, EStateM.run] at hframe ⊢
  rw [hframe]

theorem readLoop_fail {err : Err} (hframe : (readFrame S isCmd).run w = .error (.fail err) w') :
    (readLoop S (rounds + 1) isCmd done).run w =
      .ok { frames := done, msgType := .usrMsg, multipart := false, err := some err } w' := by
  simp only [readLoop, EStateM.run] at hframe ⊢
  rw [hframe]

theorem readLoop_stop {stop : Stop} (hstop : ∀ err, stop ≠ .fail err)
    (hframe : (readFrame S isCmd).run w = .error stop w') :
    (readLoop S (rounds + 1) isCmd done).run w = .error stop w' := by
  simp only [readLoop, EStateM.run] at hframe ⊢
  rw [hframe]
  cases stop with
  | fail err => exact absurd rfl (hstop err)
  | blocked | panicked => rfl

theorem readFrame_of_readLoop {msg : Msg}
    (hread : (readLoop S (rounds + 1) isCmd done).run w = .ok msg w') (herr : msg.err = none) :
    ∃ flag frame v, (readFrame S isCmd).run w = .ok (flag, frame) v := by
  cases hframe : (readFrame S isCmd).run w with
  | ok header v => exact ⟨header.1, header.2, v, rfl⟩
  | error stop v =>
    cases stop with
    | fail err =>
      rw [readLoop_fail hframe] at hread
      obtain ⟨rfl, -⟩ := by simpa using hread
      simp at herr
    | blocked | panicked =>
      rw [readLoop_stop (by simp) hframe] at hread
      cases hread

end Loop

end Rules

end Zmq4.Connection

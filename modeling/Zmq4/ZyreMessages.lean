import Zmq4.MapFields

namespace Zmq4.ZyreMessages

open ByteCodec BufferReader CutBuffers MapFields
open DuplexProgram hiding readFull
open DafkaMessages (Headers RangeOrder marshalString readString)

def protocolSignature1 : UInt8 := 0xAA
def protocolSignature2 : UInt8 := 0xA1

def uuidSize : Nat := 16

abbrev UUID := { bytes : Bytes // bytes.length = uuidSize }

structure Message where
  version : UInt8
  type : UInt8
  sequence : UInt16
  senderUUID : UUID
  body : Bytes
  deriving DecidableEq

namespace Message

def header (m : Message) : Bytes :=
  [protocolSignature1, protocolSignature2, m.version, m.type] ++
    (bigEndian 2 m.sequence.toNat ++ m.senderUUID.val)

def marshal (m : Message) : Except Err Bytes :=
  .ok (m.header ++ m.body)

/-- `Read` into the zeroed array, whose error the source ignores. -/
def readUUID : Reader UUID := fun buffer =>
  .ok ⟨(buffer ++ zeros uuidSize).take uuidSize, by simp⟩ (buffer.drop uuidSize)

def reader : Reader Message := do
  let sig1 ← readByte
  let sig2 ← readByte
  require (sig1 = protocolSignature1 ∧ sig2 = protocolSignature2)
    (.text ("invalid protocol signature: " ++ showHex sig1 ++ " " ++ showHex sig2))
  let version ← readByte
  let type ← readByte
  let sequence ← readUint 2
  let senderUUID ← readUUID
  let body ← readRest
  pure { version := version, type := type, sequence := UInt16.ofNat sequence
         senderUUID := senderUUID, body := body }

def unmarshal (data : Bytes) : Except Stop Message :=
  if data.length < 21 then
    .error (.fail (.text ("message too short: " ++ toString data.length ++ " bytes")))
  else decode reader data

end Message

section Lists

def marshalCount (noun : String) (count : Nat) : Except Err Bytes :=
  if count > 255 then .error (.text ("too many " ++ noun ++ ": " ++ toString count))
  else .ok [UInt8.ofNat count]

def readCount (message : String) : Reader Nat := do
  let count ← wrapping message readByte
  pure count.toNat

def marshalGroups : List Bytes → Except Err Bytes
  | [] => .ok []
  | group :: rest => followedBy (marshalString "group name" group) (marshalGroups rest)

def readGroups : Nat → Nat → Reader (List Bytes)
  | 0, _ => pure []
  | left + 1, i => do
      let group ← wrapping ("failed to read group " ++ toString i) readString
      let rest ← readGroups left (i + 1)
      pure (group :: rest)

def marshalFrames : List Bytes → Except Err Bytes
  | [] => .ok []
  | frame :: rest =>
    if frame.length > 65535 then
      .error (.text ("frame too large: " ++ toString frame.length ++ " bytes"))
    else followedBy (.ok (bigEndian 2 frame.length ++ frame)) (marshalFrames rest)

def marshalMultipart (frames : List Bytes) : Except Err Bytes :=
  followedBy (marshalCount "frames" frames.length) (marshalFrames frames)

/-- Also an empty frame is read, which fails at the end of the data. -/
def readFrames : Nat → Nat → Reader (List Bytes)
  | 0, _ => pure []
  | left + 1, i => do
      let frameLength ← wrapping ("failed to read frame " ++ toString i ++ " length") (readUint 2)
      let frame ← wrapping ("failed to read frame " ++ toString i ++ " data")
        (readSome frameLength)
      let rest ← readFrames left (i + 1)
      pure (frame :: rest)

def unmarshalMultipart : Reader (List Bytes) := do
  let frameCount ← readCount "failed to read frame count"
  readFrames frameCount 0

end Lists

structure HelloMessage where
  version : UInt8
  sequence : UInt16
  endpoint : Bytes
  groups : List Bytes
  status : UInt8
  name : Bytes
  headers : Headers

namespace HelloMessage

def marshal (h : HelloMessage) (range : RangeOrder h.headers) : Except Err Bytes :=
  followedBy (.ok [h.version]) (followedBy (.ok (bigEndian 2 h.sequence.toNat))
    (followedBy (marshalString "endpoint" h.endpoint)
      (followedBy (marshalCount "groups" h.groups.length)
        (followedBy (marshalGroups h.groups)
          (followedBy (.ok [h.status])
            (followedBy (marshalString "name" h.name) (marshalMap "header" range)))))))

def reader : Reader HelloMessage := do
  let version ← wrapping "failed to read version" readByte
  let sequence ← wrapping "failed to read sequence" (readUint 2)
  let endpoint ← wrapping "failed to read endpoint" readString
  let groupCount ← readCount "failed to read group count"
  let groups ← readGroups groupCount 0
  let status ← wrapping "failed to read status" readByte
  let name ← wrapping "failed to read name" readString
  let headers ← unmarshalMap "header"
  pure { version := version, sequence := UInt16.ofNat sequence, endpoint := endpoint
         groups := groups, status := status, name := name, headers := headers }

def unmarshal (data : Bytes) : Except Stop HelloMessage :=
  decode reader data

end HelloMessage

structure WhisperMessage where
  content : List Bytes
  deriving DecidableEq

namespace WhisperMessage

def marshal (w : WhisperMessage) : Except Err Bytes :=
  marshalMultipart w.content

def unmarshal (data : Bytes) : Except Stop WhisperMessage :=
  (decode unmarshalMultipart data).map .mk

end WhisperMessage

structure ShoutMessage where
  group : Bytes
  content : List Bytes
  deriving DecidableEq

namespace ShoutMessage

def marshal (s : ShoutMessage) : Except Err Bytes :=
  followedBy (marshalString "group name" s.group) (marshalMultipart s.content)

def reader : Reader ShoutMessage := do
  let group ← wrapping "failed to read group" readString
  let content ← onRest unmarshalMultipart
  pure { group := group, content := content }

def unmarshal (data : Bytes) : Except Stop ShoutMessage :=
  decode reader data

end ShoutMessage

def marshalGroupStatus (group : Bytes) (status : UInt8) : Except Err Bytes :=
  followedBy (marshalString "group name" group) (.ok [status])

def unmarshalGroupStatus : Reader (Bytes × UInt8) := do
  let group ← wrapping "failed to read group" readString
  let status ← wrapping "failed to read status" readByte
  pure (group, status)

structure JoinMessage where
  group : Bytes
  status : UInt8
  deriving DecidableEq

namespace JoinMessage

def marshal (j : JoinMessage) : Except Err Bytes :=
  marshalGroupStatus j.group j.status

def unmarshal (data : Bytes) : Except Stop JoinMessage :=
  (decode unmarshalGroupStatus data).map fun fields => ⟨fields.1, fields.2⟩

end JoinMessage

structure LeaveMessage where
  group : Bytes
  status : UInt8
  deriving DecidableEq

namespace LeaveMessage

def marshal (l : LeaveMessage) : Except Err Bytes :=
  marshalGroupStatus l.group l.status

def unmarshal (data : Bytes) : Except Stop LeaveMessage :=
  (decode unmarshalGroupStatus data).map fun fields => ⟨fields.1, fields.2⟩

end LeaveMessage

inductive Body where
  | hello (m : HelloMessage)
  | whisper (m : WhisperMessage)
  | shout (m : ShoutMessage)
  | join (m : JoinMessage)
  | leave (m : LeaveMessage)

inductive BodyKind where
  | hello
  | whisper
  | shout
  | join
  | leave
  deriving DecidableEq

namespace Body

def kind : Body → BodyKind
  | .hello _ => .hello
  | .whisper _ => .whisper
  | .shout _ => .shout
  | .join _ => .join
  | .leave _ => .leave

def headers : Body → Headers
  | .hello m => m.headers
  | _ => ∅

def content : Body → List Bytes
  | .whisper m => m.content
  | .shout m => m.content
  | _ => []

def marshal : (body : Body) → RangeOrder body.headers → Except Err Bytes
  | .hello m, range => m.marshal range
  | .whisper m, _ => m.marshal
  | .shout m, _ => m.marshal
  | .join m, _ => m.marshal
  | .leave m, _ => m.marshal

def unmarshal : BodyKind → Bytes → Except Stop Body
  | .hello, data => (HelloMessage.unmarshal data).map .hello
  | .whisper, data => (WhisperMessage.unmarshal data).map .whisper
  | .shout, data => (ShoutMessage.unmarshal data).map .shout
  | .join, data => (JoinMessage.unmarshal data).map .join
  | .leave, data => (LeaveMessage.unmarshal data).map .leave

def lastField : (body : Body) → RangeOrder body.headers → Bytes
  | .hello _, range => lastValue range.entries
  | body, _ => body.content.getLastD []

end Body

section Framing

theorem refuses_readCount_nil (message : String) : Refuses (readCount message) [] :=
  (refuses_readByte_nil.wrapping _).bind _

theorem framed_count (noun message : String) (count : Nat) :
    Framed (marshalCount noun count) (readCount message) count 0 := by
  unfold marshalCount
  split
  · exact .of_error
  · have hcount : (UInt8.ofNat count).toNat = count := by
      rw [UInt8.toNat_ofNat']
      omega
    have hframed := ((framed_readByte (UInt8.ofNat count)).wrapping message).bind_pure
      (f := UInt8.toNat)
    rwa [hcount] at hframed

theorem framed_groups (groups : List Bytes) (i : Nat) :
    Framed (marshalGroups groups) (readGroups groups.length i) groups
      (groups.getLastD []).length := by
  induction groups generalizing i with
  | nil => exact .of_reads (.pure []) (.pure [])
  | cons group rest ih =>
    have hgroup := (framed_marshalString "group name" group).wrapping
      ("failed to read group " ++ toString i)
    rcases rest with _ | ⟨next, more⟩
    · rw [marshalGroups, marshalGroups, followedBy_nil]
      exact hgroup.bind_pure
    · apply hgroup.followedBy (Or.inr fun _ => ((refuses_readString_nil.wrapping _).bind _).bind _)
      exact (ih (i + 1)).bind_pure

theorem framed_hello (h : HelloMessage) (range : RangeOrder h.headers) :
    Framed (h.marshal range) HelloMessage.reader h (lastValue range.entries).length := by
  have hsequence : h.sequence.toNat < 256 ^ 2 := by simpa using h.sequence.toNat_lt
  apply ((framed_readByte h.version).wrapping _).followedBy (Or.inl rfl)
  apply ((framed_readUint hsequence).wrapping _).followedBy (Or.inl rfl)
  apply ((framed_marshalString _ h.endpoint).wrapping _).followedBy
    (Or.inr fun _ => (refuses_readCount_nil _).bind _)
  apply (framed_count _ _ h.groups.length).followedBy (Or.inl rfl)
  apply (framed_groups h.groups 0).followedBy
    (Or.inr fun _ => (refuses_readByte_nil.wrapping _).bind _)
  apply ((framed_readByte h.status).wrapping _).followedBy (Or.inl rfl)
  apply ((framed_marshalString _ h.name).wrapping _).followedBy
    (Or.inr fun _ => (refuses_unmarshalMap_nil _).bind _)
  simp only [UInt16.ofNat_toNat]
  exact (framed_marshalMap _ range).bind_pure

theorem framed_groupStatus (group : Bytes) (status : UInt8) :
    Framed (marshalGroupStatus group status) unmarshalGroupStatus (group, status) 0 := by
  apply ((framed_marshalString _ group).wrapping _).followedBy
    (Or.inr fun _ => (refuses_readByte_nil.wrapping _).bind _)
  exact ((framed_readByte status).wrapping _).bind_pure

end Framing

section Multipart

variable {frame bytes : Bytes} {frames : List Bytes}

theorem marshalFrames_cons_eq_ok {rest : List Bytes}
    (hbytes : marshalFrames (frame :: rest) = .ok bytes) :
    ∃ after, frame.length < 256 ^ 2 ∧ marshalFrames rest = .ok after ∧
      bytes = bigEndian 2 frame.length ++ (frame ++ after) := by
  rw [marshalFrames] at hbytes
  split at hbytes
  · cases hbytes
  · obtain ⟨_, after, ⟨⟩, hafter, rfl⟩ := followedBy_eq_ok_iff.mp hbytes
    exact ⟨after, by omega, hafter, List.append_assoc _ _ _⟩

theorem marshalFrames_ne_nil (hbytes : marshalFrames frames = .ok bytes) (hne : frames ≠ []) :
    bytes ≠ [] := by
  rcases frames with _ | ⟨frame, rest⟩
  · exact absurd rfl hne
  · obtain ⟨after, -, -, rfl⟩ := marshalFrames_cons_eq_ok hbytes
    apply List.append_ne_nil_of_left_ne_nil
    apply List.ne_nil_of_length_pos
    rw [bigEndian_length]
    decide

theorem reads_frameLength (hlength : frame.length < 256 ^ 2) (i : Nat) :
    Reads (wrapping ("failed to read frame " ++ toString i ++ " length") (readUint 2))
      (bigEndian 2 frame.length) frame.length :=
  (reads_readUint hlength).wrapping _

theorem cut_frames (hbytes : marshalFrames frames = .ok bytes) (i : Nat) :
    Cut (readFrames frames.length i) bytes (frames.getLastD []).length := by
  induction frames generalizing bytes i with
  | nil =>
    cases hbytes
    exact .pure []
  | cons frame rest ih =>
    obtain ⟨after, hlength, hafter, rfl⟩ := marshalFrames_cons_eq_ok hbytes
    have hdata := (cut_readSome frame).wrapping ("failed to read frame " ++ toString i ++ " data")
    apply ((cut_readUint 2 frame.length).wrapping _).bind
      (readsOn_of_reads (reads_frameLength hlength i)) (Or.inl rfl)
    rcases rest with _ | ⟨next, more⟩
    · cases hafter
      rw [List.append_nil]
      exact hdata.bind_pure
    · apply hdata.bind ((readsOn_readSome frame).wrapping _)
        (Or.inr fun _ => (((refuses_readUint (by decide)).wrapping _).bind _).bind _)
      exact (ih hafter (i + 1)).bind_pure

theorem readFrames_succ_run {after : Bytes} (hlength : frame.length < 256 ^ 2)
    (hdata : frame ≠ [] ∨ after ≠ []) (left i : Nat) :
    (readFrames (left + 1) i).run (bigEndian 2 frame.length ++ (frame ++ after)) =
      (readFrames left (i + 1) >>= fun rest => pure (frame :: rest)).run after := by
  rw [readFrames, (reads_frameLength hlength i).run_bind]
  rcases (readsOn_readSome frame).wrapping ("failed to read frame " ++ toString i ++ " data") after
    with hrun | ⟨rfl, err, left, hrefuses⟩
  · exact bind_ok hrun
  · have hne : frame ≠ [] := hdata.resolve_right fun hafter => hafter rfl
    rw [wrapping_ok (by simpa using reads_readSome hne [])] at hrefuses
    cases hrefuses

theorem readFrames_run {rest : Bytes} (hbytes : marshalFrames frames = .ok bytes) (i : Nat)
    (hend : frames.getLast? ≠ some [] ∨ rest ≠ []) :
    (readFrames frames.length i).run (bytes ++ rest) = .ok frames rest := by
  induction frames generalizing bytes i with
  | nil =>
    cases hbytes
    rfl
  | cons frame more ih =>
    obtain ⟨after, hlength, hafter, rfl⟩ := marshalFrames_cons_eq_ok hbytes
    have hframe : frame ≠ [] ∨ after ++ rest ≠ [] := by
      rcases more with _ | ⟨next, others⟩
      · exact hend.imp (fun hlast hnil => hlast (by rw [hnil]; rfl))
          (List.append_ne_nil_of_right_ne_nil _)
      · exact Or.inr (List.append_ne_nil_of_left_ne_nil
          (marshalFrames_ne_nil hafter (List.cons_ne_nil _ _)) _)
    have hmore : more.getLast? ≠ some [] ∨ rest ≠ [] := by
      rcases more with _ | ⟨next, others⟩
      · exact Or.inl (by simp)
      · rwa [List.getLast?_cons_cons] at hend
    rw [List.append_assoc, List.append_assoc, List.length_cons,
      readFrames_succ_run hlength hframe, bind_ok (ih hafter (i + 1) hmore)]
    rfl

theorem refuses_frames (hbytes : marshalFrames frames = .ok bytes) (i : Nat)
    (hlast : frames.getLast? = some []) :
    Refuses (readFrames frames.length i) bytes := by
  induction frames generalizing bytes i with
  | nil => cases hlast
  | cons frame more ih =>
    obtain ⟨after, hlength, hafter, rfl⟩ := marshalFrames_cons_eq_ok hbytes
    rcases more with _ | ⟨next, others⟩
    · cases hafter
      cases hlast
      have hrun := reads_frameLength hlength i []
      exact .bind_of_ok hrun (((refuses_readSome_nil 0).wrapping _).bind _)
    · have hne := marshalFrames_ne_nil hafter (List.cons_ne_nil _ _)
      rw [List.getLast?_cons_cons] at hlast
      obtain ⟨err, left, hrun⟩ := (ih hafter (i + 1) hlast).bind
        (fun rest => pure (frame :: rest))
      exact ⟨err, left, (readFrames_succ_run hlength (Or.inr hne) _ i).trans hrun⟩

theorem marshalMultipart_eq_ok (hbytes : marshalMultipart frames = .ok bytes) :
    ∃ count after, Reads (readCount "failed to read frame count") count frames.length ∧
      Cut (readCount "failed to read frame count") count 0 ∧
      marshalFrames frames = .ok after ∧ bytes = count ++ after := by
  obtain ⟨count, after, hcount, hafter, rfl⟩ := followedBy_eq_ok_iff.mp hbytes
  have hframed := framed_count "frames" "failed to read frame count" frames.length
  exact ⟨count, after, hframed.codes count hcount, hframed.cut count hcount, hafter, rfl⟩

theorem cut_multipart (hbytes : marshalMultipart frames = .ok bytes) :
    Cut unmarshalMultipart bytes (frames.getLastD []).length := by
  obtain ⟨count, after, hread, hcut, hafter, rfl⟩ := marshalMultipart_eq_ok hbytes
  exact hcut.bind (readsOn_of_reads hread) (Or.inl rfl) (cut_frames hafter 0)

theorem unmarshalMultipart_run (hbytes : marshalMultipart frames = .ok bytes)
    (hend : frames.getLast? ≠ some []) :
    unmarshalMultipart.run bytes = .ok frames [] := by
  obtain ⟨count, after, hread, -, hafter, rfl⟩ := marshalMultipart_eq_ok hbytes
  rw [unmarshalMultipart, hread.run_bind]
  have hrun : (readFrames frames.length 0).run (after ++ []) = .ok frames [] :=
    readFrames_run hafter 0 (Or.inl hend)
  rwa [List.append_nil] at hrun

theorem refuses_multipart (hbytes : marshalMultipart frames = .ok bytes)
    (hlast : frames.getLast? = some []) :
    Refuses unmarshalMultipart bytes := by
  obtain ⟨count, after, hread, -, hafter, rfl⟩ := marshalMultipart_eq_ok hbytes
  exact .bind_of_ok (hread after) (refuses_frames hafter 0 hlast)

theorem refuses_unmarshalMultipart_nil : Refuses unmarshalMultipart [] :=
  (refuses_readCount_nil _).bind _

theorem cut_shout {s : ShoutMessage} (hbytes : s.marshal = .ok bytes) :
    Cut ShoutMessage.reader bytes (s.content.getLastD []).length := by
  obtain ⟨group, content, hgroup, hcontent, rfl⟩ := followedBy_eq_ok_iff.mp hbytes
  have hframed := (framed_marshalString "group name" s.group).wrapping "failed to read group"
  apply (hframed.cut group hgroup).bind (readsOn_of_reads (hframed.codes group hgroup))
    (Or.inr fun _ => refuses_unmarshalMultipart_nil.onRest.bind _)
  exact (cut_multipart hcontent).onRest.bind_pure

theorem shout_decode {s : ShoutMessage} (hbytes : s.marshal = .ok bytes) :
    (s.content.getLast? ≠ some [] → ShoutMessage.unmarshal bytes = .ok s) ∧
      (s.content.getLast? = some [] → ∃ err, ShoutMessage.unmarshal bytes = .error (.fail err)) := by
  obtain ⟨group, content, hgroup, hcontent, rfl⟩ := followedBy_eq_ok_iff.mp hbytes
  have hread := (framed_marshalString "group name" s.group).codes.wrapping
    "failed to read group" group hgroup
  constructor
  · intro hend
    have hrun := onRest_ok (unmarshalMultipart_run hcontent hend)
    refine decode_eq_ok_iff.mpr ⟨[], ?_⟩
    rw [ShoutMessage.reader, hread.run_bind, bind_ok hrun]
    rfl
  · intro hlast
    apply Refuses.decode
    exact Refuses.bind_of_ok (hread content) ((refuses_multipart hcontent hlast).onRest.bind _)

theorem whisper_decode {w : WhisperMessage} (hbytes : w.marshal = .ok bytes) :
    (w.content.getLast? ≠ some [] → WhisperMessage.unmarshal bytes = .ok w) ∧
      (w.content.getLast? = some [] →
        ∃ err, WhisperMessage.unmarshal bytes = .error (.fail err)) := by
  constructor
  · intro hend
    rw [WhisperMessage.unmarshal, decode_ok (unmarshalMultipart_run hbytes hend)]
    rfl
  · intro hlast
    obtain ⟨err, hdecode⟩ := (refuses_multipart hbytes hlast).decode
    refine ⟨err, ?_⟩
    rw [WhisperMessage.unmarshal, hdecode]
    rfl

end Multipart

section RoundTrip

theorem header_length (m : Message) : m.header.length = 22 := by
  simp [Message.header, bigEndian_length, m.senderUUID.property, uuidSize]

theorem readUUID_run (uuid : UUID) (rest : Bytes) :
    Message.readUUID.run (uuid.val ++ rest) = .ok uuid rest := by
  rcases uuid with ⟨bytes, hbytes⟩
  simp [Message.readUUID, EStateM.run, ← hbytes]

theorem message_unmarshal_marshal (m : Message) :
    Message.unmarshal (m.header ++ m.body) = .ok m := by
  have hsequence : Reads (readUint 2) (bigEndian 2 m.sequence.toNat) m.sequence.toNat :=
    reads_readUint (by simpa using m.sequence.toNat_lt)
  have hshort : ¬ (m.header ++ m.body).length < 21 := by
    rw [List.length_append, header_length]
    omega
  rw [Message.unmarshal, if_neg hshort]
  refine decode_eq_ok_iff.mpr ⟨[], ?_⟩
  rw [Message.header, List.append_assoc, List.append_assoc]
  refine (hsequence.run_bind (f := fun sequence => Message.readUUID >>= fun uuid =>
    readRest >>= fun body => pure (Message.mk m.version m.type (UInt16.ofNat sequence) uuid body))
    _).trans ?_
  rw [bind_ok (readUUID_run m.senderUUID m.body), UInt16.ofNat_toNat]
  rfl

theorem unmarshal_eq_ok {m : Message} {data : Bytes} (hdata : Message.unmarshal data = .ok m) :
    (∃ rest, data = protocolSignature1 :: protocolSignature2 :: rest) ∧
      m.body.length = data.length - 22 := by
  unfold Message.unmarshal at hdata
  split at hdata
  · cases hdata
  · obtain ⟨_, hrun⟩ := decode_eq_ok_iff.mp hdata
    rw [Message.reader] at hrun
    obtain ⟨sig1, _, hsig1, hrun⟩ := bind_eq_ok_iff.mp hrun
    obtain ⟨sig2, _, hsig2, hrun⟩ := bind_eq_ok_iff.mp hrun
    obtain ⟨⟨hfirst, hsecond⟩, hrun⟩ := require_bind_eq_ok_iff.mp hrun
    obtain ⟨version, _, hversion, hrun⟩ := bind_eq_ok_iff.mp hrun
    obtain ⟨type, _, htype, hrun⟩ := bind_eq_ok_iff.mp hrun
    obtain ⟨sequence, _, hsequence, hrun⟩ := bind_eq_ok_iff.mp hrun
    obtain ⟨uuid, _, huuid, hrun⟩ := bind_eq_ok_iff.mp hrun
    cases readByte_eq_ok_iff.mp hsig1
    cases readByte_eq_ok_iff.mp hsig2
    cases readByte_eq_ok_iff.mp hversion
    cases readByte_eq_ok_iff.mp htype
    obtain ⟨bytes, hbytes, rfl, -⟩ := readUint_eq_ok_iff.mp hsequence
    cases huuid
    cases hrun
    refine ⟨⟨_, congrArg₂ _ hfirst (congrArg₂ _ hsecond rfl)⟩, ?_⟩
    simp only [List.length_drop, List.length_cons, List.length_append, uuidSize]
    omega

theorem body_unmarshal_marshal {body : Body} {range : RangeOrder body.headers} {data : Bytes}
    (hdata : body.marshal range = .ok data) :
    (body.content.getLast? ≠ some [] → Body.unmarshal body.kind data = .ok body) ∧
      (body.content.getLast? = some [] →
        ∃ err, Body.unmarshal body.kind data = .error (.fail err)) := by
  rcases body with m | m | m | m | m
  · have hread := (framed_hello m range).codes.decode hdata
    simp [Body.content, Body.kind, Body.unmarshal, HelloMessage.unmarshal, hread, Except.map]
  · obtain ⟨hok, herr⟩ := whisper_decode hdata
    refine ⟨fun hend => ?_, fun hlast => ?_⟩
    · rw [Body.kind, Body.unmarshal, hok hend]
      rfl
    · obtain ⟨err, hdecode⟩ := herr hlast
      exact ⟨err, by rw [Body.kind, Body.unmarshal, hdecode]; rfl⟩
  · obtain ⟨hok, herr⟩ := shout_decode hdata
    refine ⟨fun hend => ?_, fun hlast => ?_⟩
    · rw [Body.kind, Body.unmarshal, hok hend]
      rfl
    · obtain ⟨err, hdecode⟩ := herr hlast
      exact ⟨err, by rw [Body.kind, Body.unmarshal, hdecode]; rfl⟩
  · have hread := (framed_groupStatus m.group m.status).codes.decode hdata
    simp [Body.content, Body.kind, Body.unmarshal, JoinMessage.unmarshal, hread, Except.map]
  · have hread := (framed_groupStatus m.group m.status).codes.decode hdata
    simp [Body.content, Body.kind, Body.unmarshal, LeaveMessage.unmarshal, hread, Except.map]

/-- A body comes back from its bytes, also when they were carried in a message. -/
structure ComesBack (body : Body) (data : Bytes) : Prop where
  alone : Body.unmarshal body.kind data = .ok body
  carried : ∀ version type sequence senderUUID,
    ∃ wire m, Message.marshal ⟨version, type, sequence, senderUUID, data⟩ = .ok wire ∧
      Message.unmarshal wire = .ok m ∧ m.version = version ∧ m.type = type ∧
      m.sequence = sequence ∧ m.senderUUID = senderUUID ∧
      Body.unmarshal body.kind m.body = .ok body

def RoundTrips (body : Body) (range : RangeOrder body.headers) : Prop :=
  (∃ err, body.marshal range = .error err) ∨
    ∃ data, body.marshal range = .ok data ∧ ComesBack body data

theorem comesBack_iff {body : Body} {data : Bytes} :
    ComesBack body data ↔ Body.unmarshal body.kind data = .ok body := by
  refine ⟨ComesBack.alone, fun halone => ⟨halone, ?_⟩⟩
  intro version type sequence senderUUID
  exact ⟨_, _, rfl, message_unmarshal_marshal _, rfl, rfl, rfl, rfl, halone⟩

/-- A body that can be marshalled comes back unless its content ends in an
empty frame. -/
theorem roundTrips_iff (body : Body) (range : RangeOrder body.headers) :
    RoundTrips body range ↔
      (∃ err, body.marshal range = .error err) ∨ body.content.getLast? ≠ some [] := by
  rcases hdata : body.marshal range with err | data
  · exact ⟨fun _ => Or.inl ⟨err, rfl⟩, fun _ => Or.inl ⟨err, hdata⟩⟩
  · obtain ⟨hok, herr⟩ := body_unmarshal_marshal hdata
    constructor
    · rintro (⟨err, hfail⟩ | ⟨wire, hwire, hback⟩)
      · rw [hdata] at hfail
        cases hfail
      · rw [hdata] at hwire
        cases hwire
        refine Or.inr fun hlast => ?_
        obtain ⟨err, hfail⟩ := herr hlast
        rw [hback.alone] at hfail
        cases hfail
    · rintro (⟨err, hfail⟩ | hend)
      · cases hfail
      · exact Or.inr ⟨data, hdata, comesBack_iff.mpr (hok hend)⟩

def ping : Message where
  version := 2
  type := 6
  sequence := 1
  senderUUID := ⟨List.replicate 16 7, by decide⟩
  body := []

def emptyWhisper : WhisperMessage where
  content := [[]]

theorem emptyWhisper_lost :
    emptyWhisper.marshal = .ok [1, 0, 0] ∧
      WhisperMessage.unmarshal [1, 0, 0] =
        .error (.fail (.wrap "failed to read frame 0 data" .eof)) ∧
      ¬ ∃ range, RoundTrips (.whisper emptyWhisper) range := by
  have hdata : emptyWhisper.marshal = .ok [1, 0, 0] := by decide
  have hlost : WhisperMessage.unmarshal [1, 0, 0] =
      .error (.fail (.wrap "failed to read frame 0 data" .eof)) := by decide
  refine ⟨hdata, hlost, ?_⟩
  rintro ⟨range, ⟨err, hfail⟩ | ⟨data, hok, hback⟩⟩
  · cases hdata.symm.trans hfail
  · cases hdata.symm.trans hok
    have hread := hback.alone
    rw [Body.kind, Body.unmarshal, hlost] at hread
    cases hread

end RoundTrip

end Zmq4.ZyreMessages

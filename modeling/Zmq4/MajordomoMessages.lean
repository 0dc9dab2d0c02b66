import Zmq4.DuplexProgram

namespace Zmq4.MajordomoMessages

open ByteCodec DuplexProgram

def clientProtocol : Bytes := ascii "MDPC01"
def workerProtocol : Bytes := ascii "MDPW01"

def workerReady : Bytes := [1]
def workerRequest : Bytes := [2]
def workerReply : Bytes := [3]
def workerHeartbeat : Bytes := [4]
def workerDisconnect : Bytes := [5]

def requestCommand : Bytes := ascii "REQUEST"
def replyCommand : Bytes := ascii "REPLY"

def validate (service : Bytes) : Except Err Unit :=
  if service.length = 0 then .error (.text "mdp: empty service name")
  else if service.length > 255 then
    .error (.text ("mdp: service name too long: " ++ toString service.length ++
      " bytes (max 255)"))
  else .ok ()

structure Message where
  routingEnvelope : List Bytes
  service : Bytes
  body : Bytes
  command : Bytes
  clientAddr : Bytes
  clientEnvelope : List Bytes
  deriving DecidableEq

def Message.empty : Message where
  routingEnvelope := []
  service := []
  body := []
  command := []
  clientAddr := []
  clientEnvelope := []

def newClientRequest (service body : Bytes) : Message :=
  { Message.empty with service := service, body := body }

def newClientReply (service body : Bytes) : Message :=
  { Message.empty with service := service, body := body }

def newWorkerMessage (command clientAddr body : Bytes) : Message :=
  { Message.empty with command := command, clientAddr := clientAddr, body := body }

section Format

def unlessEmpty (frame : Bytes) : List Bytes :=
  if frame.length > 0 then [frame] else []

def formatClientRequest (m : Message) : List Bytes :=
  [[], clientProtocol, requestCommand, m.service] ++ unlessEmpty m.body

def formatClientReply (m : Message) : List Bytes :=
  m.routingEnvelope ++ [[], clientProtocol, replyCommand, m.service] ++ unlessEmpty m.body

def clientFrames (m : Message) : List Bytes :=
  if m.clientEnvelope.length > 0 then m.clientEnvelope else unlessEmpty m.clientAddr

def commandFrames (m : Message) : List Bytes :=
  if m.command = workerReady then unlessEmpty m.service
  else if m.command = workerRequest ∨ m.command = workerReply then
    clientFrames m ++ [[]] ++ unlessEmpty m.body
  else if m.command = workerHeartbeat ∨ m.command = workerDisconnect then []
  else if clientFrames m = [] then []
  else clientFrames m ++ [[]] ++ unlessEmpty m.body

def formatWorkerMessage (m : Message) : List Bytes :=
  m.routingEnvelope ++ [[], workerProtocol, m.command] ++ commandFrames m

end Format

section Parse

def findDelimiterFrame (frames : List Bytes) : Option Nat :=
  frames.findIdx? fun frame => frame.length = 0

/-- The service of a client message is checked only if it is not empty. -/
def validateClient (service : Bytes) : Except Err Unit :=
  if service.length > 0 then (validate service).mapError (.wrap "mdp") else .ok ()

def parseClientProtocol (routingEnvelope protocolFrames : List Bytes) : Except Err Message :=
  match protocolFrames with
  | protocol :: command :: rest =>
    if protocol ≠ clientProtocol then
      .error (.text ("mdp: invalid client protocol: " ++ showBytes protocol))
    else
      match rest with
      | [] => .error (.text "mdp: client protocol frames missing command or service")
      | third :: bodies =>
        -- other commands are taken for the service of the old format
        let (service, body) :=
          if command = requestCommand ∨ command = replyCommand then (third, bodies.headD [])
          else (command, third)
        (validateClient service).map fun _ =>
          { Message.empty with
            routingEnvelope := routingEnvelope, command := command, service := service
            body := body }
  | _ =>
    .error (.text ("mdp: client protocol frames too short: " ++
      toString protocolFrames.length ++ " frames"))

def parseClientMessage (frames : List Bytes) : Except Err Message :=
  if frames.length < 2 then
    .error (.text ("mdp: client message too short: " ++ toString frames.length ++ " frames"))
  else
    match findDelimiterFrame frames with
    | some i => parseClientProtocol (frames.take i) (frames.drop (i + 1))
    | none => parseClientProtocol [] frames

/-- The frames after the command of a REQUEST or REPLY: the envelope of the
client, an empty frame and the body. -/
def parseEnvelope (m : Message) (rest : List Bytes) : Except Err Message :=
  if rest.length = 0 then
    .error (.text ("mdp: " ++ showBytes m.command ++ " message too short"))
  else
    match findDelimiterFrame rest with
    | none => .error (.text ("mdp: " ++ showBytes m.command ++ " message missing empty separator"))
    | some i =>
      .ok { m with
        clientEnvelope := rest.take i
        clientAddr := (rest.take i).headD []
        body := (rest.drop (i + 1)).headD [] }

def parseCommand (m : Message) (rest : List Bytes) : Except Err Message :=
  if m.command = workerReady then
    match rest with
    | [] => .error (.text "mdp: READY message missing service name")
    | service :: _ =>
      ((validate service).mapError (.wrap "mdp")).map fun _ => { m with service := service }
  else if m.command = workerRequest ∨ m.command = workerReply then parseEnvelope m rest
  else if m.command = workerHeartbeat ∨ m.command = workerDisconnect then .ok m
  else .error (.text ("mdp: unknown worker command: " ++ showBytes m.command))

def parseWorkerProtocol (routingEnvelope protocolFrames : List Bytes) : Except Err Message :=
  match protocolFrames with
  | protocol :: command :: rest =>
    if protocol ≠ workerProtocol then
      .error (.text ("mdp: invalid worker protocol: " ++ showBytes protocol))
    else
      parseCommand
        { Message.empty with routingEnvelope := routingEnvelope, command := command } rest
  | _ =>
    .error (.text ("mdp: worker protocol frames too short: " ++
      toString protocolFrames.length ++ " frames"))

def parseWorkerMessage (frames : List Bytes) : Except Err Message :=
  if frames.length < 3 then
    .error (.text ("mdp: worker message too short: " ++ toString frames.length ++ " frames"))
  else
    match findDelimiterFrame frames with
    | none => .error (.text "mdp: worker message missing empty separator")
    | some i => parseWorkerProtocol (frames.take i) (frames.drop (i + 1))

end Parse

section Broker

/-- One round of `splitOnSeparators`: the parts so far and the current one. -/
def splitFrame (acc : List (List Bytes) × List Bytes) (frame : Bytes) :
    List (List Bytes) × List Bytes :=
  if frame.length = 0 then
    if acc.2.length > 0 then (acc.1 ++ [acc.2], []) else acc
  else (acc.1, acc.2 ++ [frame])

def finishSplit (acc : List (List Bytes) × List Bytes) : List (List Bytes) :=
  if acc.2.length > 0 then acc.1 ++ [acc.2] else acc.1

def splitOnSeparators (frames : List Bytes) : List (List Bytes) :=
  finishSplit (frames.foldl splitFrame ([], []))

inductive MessageType where
  | unknown
  | worker
  | client
  deriving DecidableEq

abbrev Detected := MessageType × Bytes × List Bytes

/-- A worker's message is put together from the part with the protocol and all
parts but the first, a client's from its part alone. -/
def detectInParts (parts : List (List Bytes)) : List (List Bytes) → Option Detected
  | [] => none
  | [] :: later => detectInParts parts later
  | (protocol :: rest) :: later =>
    if protocol = workerProtocol then
      some (.worker, protocol,
        [[]] ++ (protocol :: rest) ++ parts.tail.flatMap fun part => [[]] ++ part)
    else if protocol = clientProtocol then
      some (.client, protocol, [[]] ++ (protocol :: rest))
    else detectInParts parts later

/-- The scan for a protocol frame anywhere in the message.  The empty frame before
it is kept, or one is put there. -/
def detectInFrames : List Bytes → Option Detected
  | [] => none
  | frame :: rest =>
    if frame = workerProtocol then some (.worker, frame, [[]] ++ frame :: rest)
    else if frame = clientProtocol then some (.client, frame, [[]] ++ frame :: rest)
    else detectInFrames rest

def detectMessageType (workingFrames : List Bytes) : Detected :=
  if workingFrames.length < 2 then (.unknown, [], [])
  else
    let parts := splitOnSeparators workingFrames
    ((detectInParts parts parts).or (detectInFrames workingFrames)).getD (.unknown, [], [])

inductive Incoming where
  | worker (msg : Message)
  | client (msg : Message)
  deriving DecidableEq

/-- `processMessage` up to the parsed message: the identity of the sender and
what it sent, unless that is only worth a line in the log. -/
def processMessage (frames : List Bytes) : Option (Bytes × Incoming) :=
  match frames with
  | sender :: workingFrames =>
    if workingFrames.length < 2 then none
    else
      match detectMessageType workingFrames with
      | (.unknown, _, _) => none
      | (_, protocolFrame, messageFrames) =>
        if protocolFrame = workerProtocol then
          (parseWorkerMessage messageFrames).toOption.map fun msg => (sender, .worker msg)
        else if protocolFrame = clientProtocol then
          (parseClientMessage messageFrames).toOption.map fun msg => (sender, .client msg)
        else none
  | [] => none

end Broker

variable {frames : List Bytes}

section Split

theorem foldl_splitFrame_full (hfull : ∀ frame ∈ frames, frame ≠ []) (parts : List (List Bytes))
    (current : List Bytes) :
    frames.foldl splitFrame (parts, current) = (parts, current ++ frames) := by
  induction frames generalizing current with
  | nil => simp
  | cons frame rest ih =>
    rw [List.forall_mem_cons] at hfull
    have hframe : frame.length ≠ 0 := by simpa using hfull.1
    rw [List.foldl_cons, splitFrame, if_neg hframe, ih hfull.2, List.append_assoc,
      List.singleton_append]

theorem finishSplit_foldl (frames : List Bytes) (parts : List (List Bytes)) (current : List Bytes) :
    finishSplit (frames.foldl splitFrame (parts, current)) =
      parts ++ finishSplit (frames.foldl splitFrame ([], current)) := by
  induction frames generalizing parts current with
  | nil =>
    by_cases hcurrent : current.length > 0 <;> simp [finishSplit, hcurrent]
  | cons frame rest ih =>
    rw [List.foldl_cons, List.foldl_cons, splitFrame, splitFrame]
    split
    · split
      · rw [ih, ih ([] ++ [current])]
        simp
      · exact ih parts current
    · exact ih parts (current ++ [frame])

@[simp]
theorem splitOnSeparators_empty_cons (frames : List Bytes) :
    splitOnSeparators ([] :: frames) = splitOnSeparators frames :=
  rfl

theorem splitOnSeparators_full {part : List Bytes} (hpart : part ≠ [])
    (hfull : ∀ frame ∈ part, frame ≠ []) : splitOnSeparators part = [part] := by
  rw [splitOnSeparators, foldl_splitFrame_full hfull, finishSplit]
  simp [List.length_pos_iff.mpr hpart]

theorem splitOnSeparators_append {part : List Bytes} (hpart : part ≠ [])
    (hfull : ∀ frame ∈ part, frame ≠ []) (rest : List Bytes) :
    splitOnSeparators (part ++ [] :: rest) = part :: splitOnSeparators rest := by
  have hlength : part.length > 0 := List.length_pos_iff.mpr hpart
  rw [splitOnSeparators, List.foldl_append, foldl_splitFrame_full hfull, List.foldl_cons]
  simp only [splitFrame, List.nil_append, List.length_nil, if_true, if_pos hlength]
  rw [finishSplit_foldl, splitOnSeparators, List.singleton_append]

theorem findDelimiterFrame_full (hfull : ∀ frame ∈ frames, frame ≠ []) :
    findDelimiterFrame frames = none := by
  rw [findDelimiterFrame, List.findIdx?_eq_none_iff]
  intro frame hframe
  simpa using hfull frame hframe

theorem findDelimiterFrame_append (hfull : ∀ frame ∈ frames, frame ≠ []) (rest : List Bytes) :
    findDelimiterFrame (frames ++ [] :: rest) = some frames.length := by
  have hnone := findDelimiterFrame_full hfull
  rw [findDelimiterFrame] at hnone ⊢
  rw [List.findIdx?_append, hnone]
  simp [List.findIdx?_cons]

theorem unlessEmpty_headD (frame : Bytes) : (unlessEmpty frame).headD [] = frame := by
  rw [unlessEmpty]
  split
  · rfl
  · simp_all

theorem unlessEmpty_full {frame member : Bytes} (hmember : member ∈ unlessEmpty frame) :
    member ≠ [] := by
  rw [unlessEmpty] at hmember
  split at hmember
  · rename_i hlength
    rw [List.mem_singleton.mp hmember]
    exact List.length_pos_iff.mp hlength
  · cases hmember

end Split

section RoundTrip

variable {service command client : Bytes} {m : Message}

theorem validate_ok (hservice : validate service = .ok ()) : service ≠ [] := by
  rintro rfl
  cases hservice

theorem parseClientProtocol_ok (hservice : validate service = .ok ())
    (hcommand : command = requestCommand ∨ command = replyCommand) (routingEnvelope : List Bytes)
    (body : Bytes) :
    parseClientProtocol routingEnvelope
        ([clientProtocol, command, service] ++ unlessEmpty body) =
      .ok { Message.empty with
        routingEnvelope := routingEnvelope, command := command, service := service
        body := body } := by
  simp only [List.cons_append, List.nil_append, parseClientProtocol, ne_eq, not_true_eq_false,
    if_false, if_pos hcommand, unlessEmpty_headD, validateClient, hservice]
  split <;> rfl

theorem parseClientMessage_stripped (hservice : validate service = .ok ())
    (hcommand : command = requestCommand ∨ command = replyCommand) (body : Bytes) :
    parseClientMessage ([clientProtocol, command, service] ++ unlessEmpty body) =
      .ok { Message.empty with command := command, service := service, body := body } := by
  have hfull : ∀ frame ∈ [clientProtocol, command, service] ++ unlessEmpty body, frame ≠ [] := by
    intro frame hframe
    rcases List.mem_append.mp hframe with hhead | hbody
    · simp only [List.mem_cons, List.not_mem_nil, or_false] at hhead
      rcases hhead with rfl | rfl | rfl
      · decide
      · rcases hcommand with rfl | rfl <;> decide
      · exact validate_ok hservice
    · exact unlessEmpty_full hbody
  rw [parseClientMessage, if_neg (by simp), findDelimiterFrame_full hfull]
  exact parseClientProtocol_ok hservice hcommand [] body

theorem parseWorkerMessage_routed {routing : List Bytes} (hfull : ∀ frame ∈ routing, frame ≠ [])
    (command : Bytes) (rest : List Bytes) :
    parseWorkerMessage (routing ++ [] :: workerProtocol :: command :: rest) =
      parseCommand { Message.empty with routingEnvelope := routing, command := command } rest := by
  have hlength : ¬ (routing ++ [] :: workerProtocol :: command :: rest).length < 3 := by
    simp only [List.length_append, List.length_cons]
    omega
  rw [parseWorkerMessage, if_neg hlength, findDelimiterFrame_append hfull]
  simp [parseWorkerProtocol]

theorem parseWorkerMessage_delimited (command : Bytes) (rest : List Bytes) :
    parseWorkerMessage ([] :: workerProtocol :: command :: rest) =
      parseCommand { Message.empty with command := command } rest :=
  parseWorkerMessage_routed (fun _ hframe => absurd hframe List.not_mem_nil) command rest

theorem call_ne_ready (hcommand : command = workerRequest ∨ command = workerReply) :
    command ≠ workerReady := by
  rcases hcommand with rfl | rfl <;> decide

theorem control_ne (hcommand : command = workerHeartbeat ∨ command = workerDisconnect) :
    command ≠ workerReady ∧ ¬ (command = workerRequest ∨ command = workerReply) := by
  rcases hcommand with rfl | rfl <;> decide

theorem parseCommand_envelope (hcommand : m.command = workerRequest ∨ m.command = workerReply)
    (rest : List Bytes) :
    parseCommand m rest = parseEnvelope m rest := by
  unfold parseCommand
  rw [if_neg (call_ne_ready hcommand), if_pos hcommand]

theorem commandFrames_envelope (hcommand : m.command = workerRequest ∨ m.command = workerReply) :
    commandFrames m = clientFrames m ++ [[]] ++ unlessEmpty m.body := by
  rw [commandFrames, if_neg (call_ne_ready hcommand), if_pos hcommand]

theorem parseEnvelope_append (m : Message) {client : List Bytes}
    (hfull : ∀ frame ∈ client, frame ≠ []) (frames : List Bytes) :
    parseEnvelope m (client ++ [] :: frames) =
      .ok { m with
        clientEnvelope := client
        clientAddr := client.headD []
        body := frames.headD [] } := by
  rw [parseEnvelope, if_neg (by simp), findDelimiterFrame_append hfull]
  simp

theorem parseEnvelope_ok (m : Message) (hclient : client ≠ []) (frames : List Bytes) :
    parseEnvelope m ([client] ++ [] :: frames) =
      .ok { m with clientEnvelope := [client], clientAddr := client, body := frames.headD [] } :=
  parseEnvelope_append m (by simpa using hclient) frames

theorem formatWorkerMessage_call (hcommand : command = workerRequest ∨ command = workerReply)
    (hclient : client ≠ []) (body : Bytes) :
    formatWorkerMessage (newWorkerMessage command client body) =
      [[], workerProtocol, command, client, []] ++ unlessEmpty body := by
  have hframes : clientFrames (newWorkerMessage command client body) = [client] := by
    simp [clientFrames, newWorkerMessage, Message.empty, unlessEmpty, List.length_pos_iff, hclient]
  rw [formatWorkerMessage, commandFrames_envelope hcommand, hframes]
  rfl

/-- A worker understands the broker, and would understand another worker. -/
theorem parseWorkerMessage_format (hcommand : command = workerRequest ∨ command = workerReply)
    (hclient : client ≠ []) (body : Bytes) :
    parseWorkerMessage (formatWorkerMessage (newWorkerMessage command client body)) =
      .ok { Message.empty with
        command := command, clientEnvelope := [client], clientAddr := client, body := body } := by
  rw [formatWorkerMessage_call hcommand hclient]
  simp only [List.cons_append, List.nil_append]
  rw [parseWorkerMessage_delimited, parseCommand_envelope hcommand]
  have hparse := parseEnvelope_ok { Message.empty with command := command } hclient
    (unlessEmpty body)
  rw [unlessEmpty_headD] at hparse
  exact hparse

/-- The messages of the worker protocol whose frames can be told apart again. -/
structure WorkerFormat (m : Message) : Prop where
  routing_full : ∀ frame ∈ m.routingEnvelope, frame ≠ []
  client_full : ∀ frame ∈ m.clientEnvelope, frame ≠ []
  command_mem : m.command ∈
    [workerReady, workerRequest, workerReply, workerHeartbeat, workerDisconnect]
  service_length : m.command = workerReady → 1 ≤ m.service.length ∧ m.service.length ≤ 255

theorem parseWorkerMessage_formatWorkerMessage
    (hrouting : ∀ frame ∈ m.routingEnvelope, frame ≠ []) :
    parseWorkerMessage (formatWorkerMessage m) =
      parseCommand
        { Message.empty with routingEnvelope := m.routingEnvelope, command := m.command }
        (commandFrames m) := by
  rw [formatWorkerMessage, List.append_assoc]
  exact parseWorkerMessage_routed hrouting m.command (commandFrames m)

theorem parseWorkerMessage_ready (hm : WorkerFormat m) (hready : m.command = workerReady) :
    parseWorkerMessage (formatWorkerMessage m) =
      .ok { Message.empty with
        routingEnvelope := m.routingEnvelope, command := m.command, service := m.service } := by
  have hservice := hm.service_length hready
  have hframes : unlessEmpty m.service = [m.service] := by
    rw [unlessEmpty, if_pos (by omega)]
  rw [parseWorkerMessage_formatWorkerMessage hm.routing_full, commandFrames, if_pos hready, hframes]
  unfold parseCommand
  rw [if_pos hready]
  simp only [validate]
  rw [if_neg (by omega), if_neg (by omega)]
  rfl

theorem parseWorkerMessage_call (hm : WorkerFormat m)
    (hcall : m.command = workerRequest ∨ m.command = workerReply) :
    parseWorkerMessage (formatWorkerMessage m) =
      .ok { Message.empty with
        routingEnvelope := m.routingEnvelope, command := m.command
        clientEnvelope := clientFrames m, clientAddr := (clientFrames m).headD []
        body := m.body } := by
  have hfull : ∀ frame ∈ clientFrames m, frame ≠ [] := by
    intro frame hframe
    rw [clientFrames] at hframe
    split at hframe
    · exact hm.client_full frame hframe
    · exact unlessEmpty_full hframe
  rw [parseWorkerMessage_formatWorkerMessage hm.routing_full]
  refine (parseCommand_envelope (by exact hcall) _).trans ?_
  rw [commandFrames_envelope hcall, List.append_assoc, List.singleton_append,
    parseEnvelope_append _ hfull, unlessEmpty_headD]

theorem parseWorkerMessage_control (hm : WorkerFormat m)
    (hcontrol : m.command = workerHeartbeat ∨ m.command = workerDisconnect) :
    parseWorkerMessage (formatWorkerMessage m) =
      .ok { Message.empty with
        routingEnvelope := m.routingEnvelope, command := m.command } := by
  obtain ⟨hready, hcall⟩ := control_ne hcontrol
  rw [parseWorkerMessage_formatWorkerMessage hm.routing_full]
  unfold parseCommand
  rw [if_neg hready, if_neg hcall, if_pos hcontrol]

/-- A message of the worker protocol is parsed as it was formatted, except that the
address of the client stands in for an envelope without frames. -/
theorem parseWorkerMessage_recovers (m : Message) (hm : WorkerFormat m) :
    ∃ parsed, parseWorkerMessage (formatWorkerMessage m) = .ok parsed ∧
      parsed.routingEnvelope = m.routingEnvelope ∧ parsed.command = m.command ∧
      (m.command = workerReady → parsed.service = m.service) ∧
      (m.command = workerRequest ∨ m.command = workerReply →
        parsed.clientEnvelope =
            (if m.clientEnvelope = [] ∧ m.clientAddr ≠ [] then [m.clientAddr]
              else m.clientEnvelope) ∧
          parsed.body = m.body) := by
  have hcommand := hm.command_mem
  simp only [List.mem_cons, List.not_mem_nil, or_false] at hcommand
  rw [← or_assoc (b := m.command = workerReply)] at hcommand
  rcases hcommand with hready | hcall | hcontrol
  · refine ⟨_, parseWorkerMessage_ready hm hready, rfl, rfl, fun _ => rfl, ?_⟩
    intro hcall
    exact absurd hready (call_ne_ready hcall)
  · refine ⟨_, parseWorkerMessage_call hm hcall, rfl, rfl, ?_, ?_⟩
    · intro hready
      exact absurd hready (call_ne_ready hcall)
    · refine fun _ => ⟨?_, rfl⟩
      rw [clientFrames, unlessEmpty]
      by_cases henvelope : m.clientEnvelope = []
      · simp [henvelope, List.length_pos_iff]
      · simp [henvelope, List.length_pos_iff]
  · refine ⟨_, parseWorkerMessage_control hm hcontrol, rfl, rfl, ?_, ?_⟩
    · intro hready
      exact absurd hready (control_ne hcontrol).1
    · intro hcall
      exact absurd hcall (control_ne hcontrol).2

def routedRequest : Message :=
  { Message.empty with
    routingEnvelope := [ascii "hop"], command := workerRequest
    clientEnvelope := [ascii "router", ascii "client"], body := ascii "work" }

theorem routedRequest_recovered :
    WorkerFormat routedRequest ∧
      ∃ parsed, parseWorkerMessage (formatWorkerMessage routedRequest) = .ok parsed ∧
        parsed.clientEnvelope = [ascii "router", ascii "client"] ∧ parsed.body = ascii "work" := by
  have hm : WorkerFormat routedRequest :=
    { routing_full := by decide
      client_full := by decide
      command_mem := by decide
      service_length := by decide }
  obtain ⟨parsed, hparse, -, -, -, hcall⟩ := parseWorkerMessage_recovers routedRequest hm
  exact ⟨hm, parsed, hparse, hcall (.inl rfl)⟩

def addressedRequest : Message :=
  { Message.empty with command := workerRequest, clientAddr := ascii "client" }

theorem addressedRequest_gains_envelope :
    WorkerFormat addressedRequest ∧ addressedRequest.clientEnvelope = [] ∧
      parseWorkerMessage (formatWorkerMessage addressedRequest) =
        .ok { addressedRequest with clientEnvelope := [ascii "client"] } := by
  refine ⟨⟨?_, ?_, ?_, ?_⟩, rfl, rfl⟩ <;> decide

/-- A client's part is found behind an empty frame, or behind a part that does
not begin with a protocol frame. -/
theorem detectMessageType_client {before : Bytes}
    (hbefore : before ≠ workerProtocol ∧ before ≠ clientProtocol) {rest : List Bytes}
    (hrest : ∀ frame ∈ rest, frame ≠ []) :
    detectMessageType (before :: [] :: clientProtocol :: rest) =
      (.client, clientProtocol, [] :: clientProtocol :: rest) := by
  have hpart : splitOnSeparators (clientProtocol :: rest) = [clientProtocol :: rest] := by
    refine splitOnSeparators_full (List.cons_ne_nil _ _) ?_
    exact List.forall_mem_cons.mpr ⟨by decide, hrest⟩
  have hprotocol : clientProtocol ≠ workerProtocol := by decide
  rw [detectMessageType, if_neg (by simp)]
  rcases eq_or_ne before [] with rfl | hnonempty
  · rw [splitOnSeparators_empty_cons, splitOnSeparators_empty_cons, hpart]
    simp [detectInParts, hprotocol]
  · have hsplit := splitOnSeparators_append (List.cons_ne_nil before [])
      (by simpa using hnonempty) (clientProtocol :: rest)
    rw [List.singleton_append, hpart] at hsplit
    rw [hsplit]
    simp [detectInParts, hprotocol, hbefore.1, hbefore.2]

/-- The broker finds a worker's message again if there are frames behind its
separator, and otherwise loses the separator. -/
theorem detectMessageType_worker (hcommand : command ≠ []) (hclient : client ≠ []) (body : Bytes) :
    detectMessageType ([[], workerProtocol, command, client, []] ++ unlessEmpty body) =
      (.worker, workerProtocol, [[], workerProtocol, command, client] ++
        if body = [] then [] else [[], body]) := by
  have hfull : ∀ frame ∈ [workerProtocol, command, client], frame ≠ [] := by
    simp [hcommand, hclient, show workerProtocol ≠ [] by decide]
  have hsplit := splitOnSeparators_append (List.cons_ne_nil workerProtocol [command, client]) hfull
    (unlessEmpty body)
  rw [detectMessageType, if_neg (by simp)]
  simp only [List.cons_append, List.nil_append, splitOnSeparators_empty_cons] at hsplit ⊢
  rw [hsplit]
  by_cases hbody : body = []
  · simp [detectInParts, hbody, unlessEmpty, splitOnSeparators, finishSplit]
  · rw [unlessEmpty, if_pos (List.length_pos_iff.mpr hbody),
      splitOnSeparators_full (List.cons_ne_nil _ _) (by simpa using hbody)]
    simp [detectInParts, hbody]

/-- The broker takes the request of a client from behind the delimiter of a REQ
socket, and from behind the number of an asynchronous client. -/
theorem processMessage_clientRequest (hservice : validate service = .ok ()) {before : Bytes}
    (hbefore : before ≠ workerProtocol ∧ before ≠ clientProtocol) (client body : Bytes) :
    processMessage (client :: before :: formatClientRequest (newClientRequest service body)) =
      some (client, .client
        { Message.empty with command := requestCommand, service := service, body := body }) := by
  have hrest : ∀ frame ∈ requestCommand :: service :: unlessEmpty body, frame ≠ [] := by
    refine List.forall_mem_cons.mpr ⟨by decide, List.forall_mem_cons.mpr ⟨?_, ?_⟩⟩
    · exact validate_ok hservice
    · exact fun frame hframe => unlessEmpty_full hframe
  have hparse : parseClientMessage
      ([] :: clientProtocol :: requestCommand :: service :: unlessEmpty body) = .ok _ :=
    parseClientProtocol_ok hservice (.inl rfl) [] body
  have hprotocol : clientProtocol ≠ workerProtocol := by decide
  rw [processMessage, if_neg (by simp [formatClientRequest])]
  simp only [formatClientRequest, newClientRequest, List.cons_append, List.nil_append,
    detectMessageType_client hbefore hrest, if_neg hprotocol, if_true, hparse]
  rfl

theorem processMessage_workerReply (hclient : client ≠ []) (worker body : Bytes) :
    processMessage (worker :: formatWorkerMessage (newWorkerMessage workerReply client body)) =
      if body = [] then none
      else some (worker, .worker
        { Message.empty with
          command := workerReply, clientEnvelope := [client], clientAddr := client
          body := body }) := by
  have hdetect := detectMessageType_worker (show workerReply ≠ [] by decide) hclient body
  rw [formatWorkerMessage_call (.inr rfl) hclient, processMessage, if_neg (by simp), hdetect]
  simp only [if_true, List.cons_append, List.nil_append]
  rw [parseWorkerMessage_delimited, parseCommand_envelope (.inr rfl)]
  split
  · rw [parseEnvelope, if_neg (by simp), findDelimiterFrame_full (by simpa using hclient)]
    rfl
  · have hparse := parseEnvelope_ok { Message.empty with command := workerReply } hclient [body]
    rw [List.singleton_append] at hparse
    rw [hparse]
    rfl

end RoundTrip

end Zmq4.MajordomoMessages

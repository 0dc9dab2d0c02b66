import Zmq4.MajordomoMessages
import Zmq4.ReplyRouting

namespace Zmq4.MajordomoCalls

open ByteCodec DuplexProgram ZmtpMessage RequestReply SocketReaders ReplyRouting ActionRuns
  MajordomoMessages

section Hops

def received (reader : SocketReader) (msg : Msg) : Option Msg :=
  (reader.deliver msg).head?

def routed (peer : Bytes) (msg : Msg) : Option Msg :=
  (routerMWriterWrite [peer] msg).toOption.bind fun sent => sent.head?.map Prod.snd

def sendToWorker (identity command clientAddr body : Bytes) : Msg :=
  newMsgFrom (identity :: formatWorkerMessage (newWorkerMessage command clientAddr body))

def sendToClient (identity service body : Bytes) : Msg :=
  newMsgFrom (identity :: formatClientReply (newClientReply service body))

def doSendToBroker (command clientAddr body : Bytes) : Msg :=
  newMsgFrom (formatWorkerMessage (newWorkerMessage command clientAddr body))

theorem newMsgFrom_frames (frames : List Bytes) : (newMsgFrom frames).frames = frames :=
  rfl

theorem received_routerQReader (id : Bytes) (frames : List Bytes) :
    received (routerQReader id) (newMsgFrom frames) = some (newMsgFrom (id :: frames)) :=
  rfl

theorem received_qreader (frames : List Bytes) :
    received qreader (newMsgFrom frames) = some (newMsgFrom frames) :=
  rfl

theorem requestMsg_newMsgFrom (frames : List Bytes) :
    requestMsg (newMsgFrom frames) = newMsgFrom ([] :: frames) :=
  rfl

theorem routed_eq (peer : Bytes) (rest : List Bytes) :
    routed peer (newMsgFrom (peer :: rest)) = some (newMsgFrom rest) := by
  simp [routed, routerMWriterWrite, newMsgFrom, Except.toOption]

end Hops

section Synchronous

def processReply (msg : Msg) (expectedService : Bytes) : Except Err Bytes :=
  match parseClientMessage msg.frames with
  | .error err => .error (.wrap "mdp: invalid reply message" err)
  | .ok reply =>
    if reply.service = expectedService then .ok reply.body
    else
      .error (.text ("mdp: service mismatch in reply: got " ++ showBytes reply.service ++
        ", expected " ++ showBytes expectedService))

def requestAtWorker (service client worker body : Bytes) : Option Message := do
  let sent := newMsgFrom (formatClientRequest (newClientRequest service body))
  let msg ← received (routerQReader client) (requestMsg sent)
  match ← processMessage msg.frames with
  | (identity, .client request) =>
    let msg ← routed worker (sendToWorker worker workerRequest identity request.body)
    let msg ← received qreader msg
    let request ← (parseWorkerMessage msg.frames).toOption
    if request.command = workerRequest then some request else none
  | _ => none

def replyAtClient (service client worker clientAddr reply : Bytes) : Option (Except Err Bytes) := do
  let msg ← received (routerQReader worker) (doSendToBroker workerReply clientAddr reply)
  match ← processMessage msg.frames with
  | (_, .worker answer) =>
    if answer.command = workerReply then
      let msg ← routed client (sendToClient answer.clientAddr service answer.body)
      let msg ← received reqReader msg
      some (processReply msg service)
    else none
  | _ => none

def call (service client worker body reply : Bytes) :
    Option (Bytes × Option (Except Err Bytes)) :=
  (requestAtWorker service client worker body).map fun request =>
    (request.body, replyAtClient service client worker request.clientAddr reply)

theorem requestAtWorker_eq {service : Bytes} (hservice : validate service = .ok ())
    {client : Bytes} (hclient : client ≠ []) (worker body : Bytes) :
    requestAtWorker service client worker body =
      some { Message.empty with
        command := workerRequest, clientEnvelope := [client], clientAddr := client
        body := body } := by
  have hdelimiter : ([] : Bytes) ≠ workerProtocol ∧ ([] : Bytes) ≠ clientProtocol := by decide
  have hbroker := processMessage_clientRequest hservice hdelimiter client body
  have hworker := parseWorkerMessage_format (.inl rfl) hclient body
  simp only [requestAtWorker, requestMsg_newMsgFrom, received_routerQReader, Option.bind_eq_bind,
    Option.bind_some, newMsgFrom_frames, hbroker, sendToWorker, routed_eq, received_qreader,
    hworker, Except.toOption, if_true]

theorem processReply_eq {service : Bytes} (hservice : validate service = .ok ()) (body : Bytes) :
    processReply (newMsgFrom ([clientProtocol, replyCommand, service] ++ unlessEmpty body)) service =
      .ok body := by
  rw [processReply, newMsgFrom_frames, parseClientMessage_stripped hservice (.inr rfl)]
  exact if_pos rfl

theorem replyAtClient_eq {service : Bytes} (hservice : validate service = .ok ())
    {client : Bytes} (hclient : client ≠ []) (worker reply : Bytes) :
    replyAtClient service client worker client reply =
      if reply = [] then none else some (.ok reply) := by
  have hbroker := processMessage_workerReply hclient worker reply
  simp only [replyAtClient, doSendToBroker, received_routerQReader, Option.bind_eq_bind,
    Option.bind_some, newMsgFrom_frames, hbroker]
  split
  · rfl
  · have hsend : sendToClient client service reply =
        newMsgFrom (client :: [] :: clientProtocol ::
          ([replyCommand, service] ++ unlessEmpty reply)) := by
      rfl
    simp only [Option.bind_some, if_true, hsend, routed_eq]
    exact congrArg some (processReply_eq hservice reply)

/-- A call comes back with the reply if and only if the reply is not empty: the
broker refuses an empty one. -/
theorem call_eq_iff {service : Bytes} (hservice : validate service = .ok ()) {client : Bytes}
    (hclient : client ≠ []) (worker body reply : Bytes) :
    call service client worker body reply = some (body, some (.ok reply)) ↔ reply ≠ [] := by
  rw [call, requestAtWorker_eq hservice hclient, Option.map_some, replyAtClient_eq hservice hclient]
  by_cases hreply : reply = []
  · simp [hreply]
  · simp [hreply]

theorem call_eq_iff_echo :
    validate (ascii "echo") = .ok () ∧ ([7] : Bytes) ≠ [] ∧
      (call (ascii "echo") [7] [8] [1] [2] = some ([1], some (.ok [2])) ↔ ([2] : Bytes) ≠ []) :=
  ⟨rfl, by decide, call_eq_iff rfl (by decide) [8] [1] [2]⟩

/-- The handler of a worker has seen the request, and its empty reply never comes
to the client. -/
theorem empty_reply_lost :
    validate (ascii "echo") = .ok () ∧ call (ascii "echo") [7] [8] [1] [] = some ([1], none) :=
  ⟨rfl, by decide⟩

end Synchronous

section Asynchronous

structure AsyncReply where
  service : Bytes
  body : Bytes
  error : Option Err
  deriving DecidableEq

structure PendingRequest where
  service : Bytes
  replyCh : Nat

/-- `delivered` is what has been put on the reply channels. -/
structure AsyncClient where
  requestID : Nat
  pending : Bytes → Option PendingRequest
  delivered : List (Nat × AsyncReply)

def newAsyncClient : AsyncClient where
  requestID := 0
  pending _ := none
  delivered := []

def requestFrame (requestID : Nat) : Bytes :=
  ascii (toString requestID)

/-- `RequestAsync` with the outcome of its `Send`: the client then, and the message
that was sent. -/
def requestAsync (c : AsyncClient) (service body : Bytes) (sent : Bool) :
    AsyncClient × Option Msg :=
  match validate service with
  | .error _ => (c, none)
  | .ok _ =>
    let requestID := (c.requestID + 1) % 2 ^ 64
    let reqID := requestFrame requestID
    if sent then
      ({ c with
          requestID := requestID
          pending := Function.update c.pending reqID
            (some { service := service, replyCh := requestID }) },
        some (newMsgFrom (reqID :: formatClientRequest (newClientRequest service body))))
    else
      ({ c with requestID := requestID, pending := Function.update c.pending reqID none }, none)

def AsyncClient.deliver (c : AsyncClient) (replyCh : Nat) (reply : AsyncReply) : AsyncClient :=
  { c with delivered := c.delivered ++ [(replyCh, reply)] }

/-- `AsyncClient.processReply`: the first frame is taken for the number of the
request. -/
def asyncProcessReply (c : AsyncClient) (msg : Msg) : AsyncClient :=
  match msg.frames with
  | [] => c
  | reqID :: frames =>
    match c.pending reqID with
    | none => c
    | some pending =>
      let c := { c with pending := Function.update c.pending reqID none }
      match parseClientMessage frames with
      | .error err =>
        c.deliver pending.replyCh
          { service := [], body := []
            error := some (.wrap "mdp: invalid reply message" err) }
      | .ok reply =>
        if reply.service = pending.service then
          c.deliver pending.replyCh
            { service := reply.service, body := reply.body, error := none }
        else
          c.deliver pending.replyCh
            { service := [], body := []
              error := some (.text ("mdp: service mismatch in reply: got " ++
                showBytes reply.service ++ ", expected " ++ showBytes pending.service)) }

/-- An asynchronous client and its broker.  Each message on the way goes with the
number of its request, and a reply also with its body; `processed` are the replies
that `processReply` has been called with. -/
structure AsyncNetwork where
  client : AsyncClient
  requests : List (Nat × Msg)
  accepted : List (Nat × Bytes × Message)
  replies : List ((Nat × Bytes) × Msg)
  processed : List (Nat × Bytes)

def AsyncNetwork.start : AsyncNetwork where
  client := newAsyncClient
  requests := []
  accepted := []
  replies := []
  processed := []

inductive AsyncAction where
  | request (service body : Bytes) (sent : Bool)
  /-- The broker takes the next request. -/
  | accept
  /-- A worker of the service answers one of the accepted requests. -/
  | answer (i : Nat) (worker reply : Bytes)
  /-- The message loop of the client takes the next reply. -/
  | receive

def accept (identity : Bytes) (s : AsyncNetwork) : Option AsyncNetwork :=
  match s.requests with
  | [] => none
  | (number, msg) :: rest => do
      let msg ← received (routerQReader identity) msg
      match processMessage msg.frames with
      | some (sender, .client request) =>
        some { s with requests := rest, accepted := s.accepted ++ [(number, sender, request)] }
      | _ => some { s with requests := rest }

def answer (identity : Bytes) (s : AsyncNetwork) (i : Nat) (worker reply : Bytes) :
    Option AsyncNetwork := do
  let (number, sender, request) ← s.accepted[i]?
  let s := { s with accepted := s.accepted.eraseIdx i }
  let msg ← received (routerQReader worker) (doSendToBroker workerReply sender reply)
  match processMessage msg.frames with
  | some (_, .worker answer) =>
    match routed identity (sendToClient answer.clientAddr request.service answer.body) with
    | some msg => some { s with replies := s.replies ++ [((number, reply), msg)] }
    | none => some s
  | _ => some s

def receive (s : AsyncNetwork) : Option AsyncNetwork :=
  match s.replies with
  | [] => none
  | (entry, msg) :: rest => do
      let msg ← received qreader msg
      some { s with
        replies := rest
        client := asyncProcessReply s.client msg
        processed := s.processed ++ [entry] }

def asyncStep (identity : Bytes) (s : AsyncNetwork) : AsyncAction → Option AsyncNetwork
  | .request service body sent =>
    let (client, msg) := requestAsync s.client service body sent
    some { s with
      client := client
      requests := s.requests ++ msg.toList.map fun msg => (client.requestID, msg) }
  | .accept => accept identity s
  | .answer i worker reply => answer identity s i worker reply
  | .receive => receive s

/-- Each reply that has come back is on the channel of its request. -/
def GetsAnswers (s : AsyncNetwork) : Prop :=
  ∀ entry ∈ s.processed,
    ∃ reply, (entry.1, reply) ∈ s.client.delivered ∧ reply.body = entry.2 ∧ reply.error = none

/-- Replies begin with the delimiter, and no request is pending under it. -/
structure Uncorrelated (s : AsyncNetwork) : Prop where
  replies : ∀ entry ∈ s.replies, ∃ frames, entry.2 = newMsgFrom ([] :: frames)
  pending : s.client.pending [] = none
  delivered : s.client.delivered = []

theorem requestFrame_ne_nil (requestID : Nat) : requestFrame requestID ≠ [] := by
  simp [requestFrame, ascii]

theorem requestAsync_keeps (c : AsyncClient) (service body : Bytes) (sent : Bool) :
    (requestAsync c service body sent).1.pending [] = c.pending [] ∧
      (requestAsync c service body sent).1.delivered = c.delivered := by
  rw [requestAsync]
  split
  · exact ⟨rfl, rfl⟩
  · split
    · exact ⟨Function.update_of_ne (requestFrame_ne_nil _).symm _ _, rfl⟩
    · exact ⟨Function.update_of_ne (requestFrame_ne_nil _).symm _ _, rfl⟩

theorem routed_newMsgFrom {peer id : Bytes} {rest : List Bytes} {msg : Msg}
    (hrouted : routed peer (newMsgFrom (id :: rest)) = some msg) : msg = newMsgFrom rest := by
  simp only [routed, routerMWriterWrite, newMsgFrom, Except.toOption, Option.bind_some,
    List.head?_map, Option.map_map, Option.map_eq_some_iff, Function.comp] at hrouted
  obtain ⟨_, _, rfl⟩ := hrouted
  rfl

theorem uncorrelated_step {identity : Bytes} {s s' : AsyncNetwork} {action : AsyncAction}
    (hs : Uncorrelated s) (hstep : asyncStep identity s action = some s') : Uncorrelated s' := by
  cases action with
  | request service body sent =>
    obtain rfl := Option.some.inj hstep
    obtain ⟨hpending, hdelivered⟩ := requestAsync_keeps s.client service body sent
    exact ⟨hs.replies, hpending.trans hs.pending, hdelivered.trans hs.delivered⟩
  | accept =>
    rw [asyncStep, MajordomoCalls.accept] at hstep
    split at hstep
    · cases hstep
    · obtain ⟨msg, -, haccept⟩ := Option.bind_eq_some_iff.mp hstep
      split at haccept
      · obtain rfl := Option.some.inj haccept
        exact { hs with }
      · obtain rfl := Option.some.inj haccept
        exact { hs with }
  | answer i worker reply =>
    obtain ⟨⟨number, sender, request⟩, -, hanswer⟩ := Option.bind_eq_some_iff.mp hstep
    obtain ⟨msg, -, hbroker⟩ := Option.bind_eq_some_iff.mp hanswer
    split at hbroker
    · split at hbroker
      · rename_i back hrouted
        obtain rfl := Option.some.inj hbroker
        refine ⟨List.forall_mem_append.mpr ⟨hs.replies, ?_⟩, hs.pending, hs.delivered⟩
        exact List.forall_mem_singleton.mpr ⟨_, routed_newMsgFrom hrouted⟩
      · obtain rfl := Option.some.inj hbroker
        exact { hs with }
    · obtain rfl := Option.some.inj hbroker
      exact { hs with }
  | receive =>
    rw [asyncStep, MajordomoCalls.receive] at hstep
    split at hstep
    · cases hstep
    · rename_i entry msg rest hreplies
      have hmessages := hs.replies
      rw [hreplies, List.forall_mem_cons] at hmessages
      obtain ⟨⟨frames, rfl⟩, hrest⟩ := hmessages
      rw [received_qreader] at hstep
      obtain rfl := Option.some.inj hstep
      have hsame : asyncProcessReply s.client (newMsgFrom ([] :: frames)) = s.client := by
        simp only [asyncProcessReply, newMsgFrom_frames, hs.pending]
      exact ⟨hrest, by rw [hsame]; exact hs.pending, by rw [hsame]; exact hs.delivered⟩

/-- No reply ever comes to a reply channel: the client has its answers as long as
none has come back. -/
theorem getsAnswers_iff_none_processed (identity : Bytes) {actions : List AsyncAction}
    {s : AsyncNetwork} (hrun : run (asyncStep identity) AsyncNetwork.start actions = some s) :
    GetsAnswers s ↔ s.processed = [] := by
  have hs := run_keeps (fun _ _ _ => uncorrelated_step)
    ⟨fun _ hentry => absurd hentry List.not_mem_nil, rfl, rfl⟩ hrun
  constructor
  · intro hanswers
    refine List.eq_nil_iff_forall_not_mem.mpr fun entry hentry => ?_
    obtain ⟨reply, hreply, -⟩ := hanswers entry hentry
    rw [hs.delivered] at hreply
    exact List.not_mem_nil hreply
  · intro hnone entry hentry
    rw [hnone] at hentry
    exact absurd hentry List.not_mem_nil

def twoRequests : List AsyncAction :=
  [.request (ascii "echo") [1] true, .request (ascii "echo") [2] true, .accept, .accept,
    .answer 1 [8] [4], .answer 0 [8] [3], .receive, .receive]

theorem getsAnswers_iff_none_processed_twoRequests :
    ∃ s, run (asyncStep [7]) AsyncNetwork.start twoRequests = some s ∧
      (GetsAnswers s ↔ s.processed = []) :=
  ⟨_, rfl, getsAnswers_iff_none_processed [7]
    (show run (asyncStep [7]) AsyncNetwork.start twoRequests = some _ from rfl)⟩

/-- Both replies have come back and neither channel has got anything. -/
theorem replies_unclaimed :
    ∃ s, run (asyncStep [7]) AsyncNetwork.start twoRequests = some s ∧
      s.processed = [(2, [4]), (1, [3])] ∧ s.client.delivered = [] ∧ ¬ GetsAnswers s := by
  refine ⟨_, rfl, by decide, by decide, fun hanswers => ?_⟩
  obtain ⟨reply, hreply, -⟩ := hanswers (2, [4]) (by decide)
  exact List.not_mem_nil hreply

end Asynchronous

end Zmq4.MajordomoCalls

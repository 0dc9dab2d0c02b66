import Zmq4.MalamuteMailbox
import Zmq4.MalamuteStream

/-!
A Malamute broker: the table of its clients, the loop that processes their
messages, the loop that watches their heartbeats, and the four managers with the
queues in front of them.  Each message, command or queue entry is processed in
one step.  The statistics, and the socket on both sides of the broker, are left
out.
-/

namespace Zmq4.MalamuteBroker

open ByteCodec ActionRuns KeyedMaps MalamuteMessages
open DuplexProgram (Err)
open DafkaMessages (Headers)
open MalamuteCredit (CreditController CreditRequest CreditResponse newCreditController)
open MalamuteStream (StreamManager StreamPub writeMessage)
open MalamuteMailbox (MailboxManager MailboxDelivery sendMessage)
open MalamuteService (ServiceManager ServiceReq submitRequest)

structure ServiceRequestMessage where
  service : Bytes
  method : Bytes
  tracker : Bytes
  timeout : Int64
  attributes : Headers
  body : Bytes

/-- Functions of the standard library, and the two decoders of message bodies for
which the package declares a type but has no codec. -/
structure Platform where
  globMatch : Bytes → Bytes → Option Bool
  parseDuration : Bytes → Option Int
  unmarshalPing : Bytes → Option Int64
  unmarshalServiceRequest : Bytes → Option ServiceRequestMessage

inductive MessageType
  | connectionOpen
  | connectionPing
  | connectionClose
  | streamWrite
  | streamRead
  | streamCancel
  | mailboxSend
  | mailboxReceive
  | serviceOffer
  | serviceWithdraw
  | serviceRequest
  | serviceReply
  | creditRequest
  deriving DecidableEq

def messageType (type : UInt8) : Option MessageType :=
  match type.toNat with
  | 1 => some .connectionOpen
  | 2 => some .connectionPing
  | 4 => some .connectionClose
  | 10 => some .streamWrite
  | 11 => some .streamRead
  | 13 => some .streamCancel
  | 20 => some .mailboxSend
  | 21 => some .mailboxReceive
  | 30 => some .serviceOffer
  | 31 => some .serviceWithdraw
  | 32 => some .serviceRequest
  | 33 => some .serviceReply
  | 40 => some .creditRequest
  | _ => none

inductive ErrorCode
  | invalidMessage
  | internalError
  | notImplemented
  | quotaExceeded
  deriving DecidableEq

inductive Response
  | pong (timestamp : Int64) (sequence : UInt32)
  | creditConfirm (credit : Int32) (sequence : UInt32)
  | error (code : ErrorCode) (reason : Err) (sequence : UInt32)
  deriving DecidableEq

structure ClientResponse where
  clientID : Bytes
  response : Response
  deriving DecidableEq

structure Client where
  id : Bytes
  type : Int
  attributes : Headers
  lastActivity : Int

structure Waiting where
  clientID : Bytes
  sequence : UInt32
  answer : Option CreditResponse := none

structure BrokerConfig where
  creditWindow : Int32
  clientTimeout : Int
  serviceTimeout : Int
  maxConnections : Int
  maxStreams : Int
  maxMailboxes : Int
  maxServices : Int
  streamRetention : Int
  mailboxRetention : Int

structure Broker where
  config : BrokerConfig
  clients : KeyedMap Bytes Client := ∅
  creditController : CreditController
  streamManager : StreamManager
  mailboxManager : MailboxManager
  serviceManager : ServiceManager
  creditRequests : List CreditRequest := []
  publications : List StreamPub := []
  deliveries : List MailboxDelivery := []
  requests : List ServiceReq := []
  heartbeats : List Bytes := []
  responses : List ClientResponse := []
  waiting : Option Waiting := none
  sequenceCounter : UInt32 := 0

def newBroker (config : BrokerConfig) : Broker where
  config := config
  creditController := newCreditController config.creditWindow
  streamManager := { maxStreams := config.maxStreams, retention := config.streamRetention }
  mailboxManager := { maxMailboxes := config.maxMailboxes, retention := config.mailboxRetention }
  serviceManager := { maxServices := config.maxServices, serviceTimeout := config.serviceTimeout }

/-- `time.Duration(timeout) * time.Millisecond`, in 64 bits. -/
def milliseconds (timeout : Int64) : Int :=
  (timeout * 1000000).toInt

def offer (capacity : Nat) (queue : List α) (entry : α) : Option (List α) :=
  if queue.length < capacity then some (queue ++ [entry]) else none

namespace Broker

def queueResponse (b : Broker) (clientID : Bytes) (response : Response) : Broker :=
  match offer 10000 b.responses { clientID, response } with
  | some responses => { b with responses }
  | none => b

def sendError (b : Broker) (clientID : Bytes) (code : ErrorCode) (reason : Err)
    (sequence : UInt32) : Broker :=
  b.queueResponse clientID (.error code reason sequence)

def updateClientActivity (b : Broker) (clientID : Bytes) (now : Int) : Broker :=
  match b.clients.lookup clientID with
  | none => b
  | some client =>
    { b with clients := b.clients.insert clientID { client with lastActivity := now } }

def removeClient (b : Broker) (clientID : Bytes) (now : Int) : Broker :=
  if clientID ∈ b.clients then
    { b with
      clients := b.clients.erase clientID
      creditController := b.creditController.removeClient clientID
      streamManager := b.streamManager.handleRemoveClient clientID now
      mailboxManager := b.mailboxManager.handleRemoveClient clientID
      serviceManager := b.serviceManager.handleRemoveClient clientID }
  else b

def handleConnectionOpen (b : Broker) (clientID : Bytes) (message : Message) (now : Int) :
    Broker :=
  match ConnectionOpenMessage.unmarshal message.body with
  | .error _ =>
    b.sendError clientID .invalidMessage (.text "Invalid connection open message")
      message.sequence
  | .ok openMsg =>
    if (b.clients.keys.length : Int) ≥ b.config.maxConnections then
      b.sendError clientID .quotaExceeded (.text "Maximum connections exceeded") message.sequence
    else
      let client := {
        id := openMsg.clientID, type := openMsg.clientType, attributes := openMsg.attributes
        lastActivity := now }
      { b with clients := b.clients.insert clientID client }

def handleConnectionPing (P : Platform) (b : Broker) (clientID : Bytes) (message : Message) :
    Broker :=
  match P.unmarshalPing message.body with
  | none => b
  | some timestamp =>
    let b := { b with sequenceCounter := b.sequenceCounter + 1 }
    let b := b.queueResponse clientID (.pong timestamp b.sequenceCounter)
    match offer 1000 b.heartbeats clientID with
    | some heartbeats => { b with heartbeats }
    | none => b

def handleConnectionClose (b : Broker) (clientID : Bytes) (now : Int) : Broker :=
  b.removeClient clientID now

def handleStreamWrite (b : Broker) (clientID : Bytes) (message : Message) (now : Int) : Broker :=
  if b.creditController.checkCredit clientID 1 then
    match StreamWriteMessage.unmarshal message.body with
    | .error _ =>
      b.sendError clientID .invalidMessage (.text "Invalid stream write message")
        message.sequence
    | .ok writeMsg =>
      let b := { b with
        creditController :=
          (b.creditController.useCredit clientID 1).toOption.getD b.creditController }
      let pub := {
        stream := writeMsg.stream, subject := writeMsg.subject, sender := clientID
        body := writeMsg.body, attributes := writeMsg.attributes, timestamp := now }
      match writeMessage pub with
      | .error err => b.sendError clientID .internalError err message.sequence
      | .ok pub =>
        match offer 10000 b.publications pub with
        | some publications => { b with publications }
        | none =>
          b.sendError clientID .internalError (.text "publication queue full")
            message.sequence
  else b.sendError clientID .quotaExceeded (.text "Insufficient credit") message.sequence

def handleStreamRead (b : Broker) (clientID : Bytes) (message : Message) (now : Int) : Broker :=
  match StreamReadMessage.unmarshal message.body with
  | .error _ =>
    b.sendError clientID .invalidMessage (.text "Invalid stream read message") message.sequence
  | .ok readMsg =>
    match b.streamManager.handleSubscribe clientID readMsg.stream readMsg.pattern
      readMsg.attributes now with
    | .error err => b.sendError clientID .internalError err message.sequence
    | .ok streamManager => { b with streamManager }

def handleMailboxSend (b : Broker) (clientID : Bytes) (message : Message) (now : Int) : Broker :=
  match MailboxSendMessage.unmarshal message.body with
  | .error _ =>
    b.sendError clientID .invalidMessage (.text "Invalid mailbox send message") message.sequence
  | .ok sendMsg =>
    let delivery := {
      address := sendMsg.address, subject := sendMsg.subject, sender := clientID
      tracker := sendMsg.tracker, body := sendMsg.body, attributes := sendMsg.attributes
      timeout := milliseconds sendMsg.timeout, timestamp := now }
    match sendMessage delivery with
    | .error err => b.sendError clientID .internalError err message.sequence
    | .ok delivery =>
      match offer 10000 b.deliveries delivery with
      | some deliveries => { b with deliveries }
      | none =>
        b.sendError clientID .internalError (.text "delivery queue full") message.sequence

def handleServiceOffer (P : Platform) (b : Broker) (clientID : Bytes) (message : Message)
    (hints : List (List Bytes)) (now : Int) : Broker :=
  match ServiceOfferMessage.unmarshal message.body with
  | .error _ =>
    b.sendError clientID .invalidMessage (.text "Invalid service offer message")
      message.sequence
  | .ok offerMsg =>
    match b.serviceManager.registerWorker P.globMatch offerMsg.service clientID offerMsg.pattern
      offerMsg.attributes hints now with
    | .error err => b.sendError clientID .internalError err message.sequence
    | .ok (_, serviceManager) => { b with serviceManager }

def handleServiceRequest (P : Platform) (b : Broker) (clientID : Bytes) (message : Message)
    (now : Int) : Broker :=
  match P.unmarshalServiceRequest message.body with
  | none =>
    b.sendError clientID .invalidMessage (.text "Invalid service request message")
      message.sequence
  | some requestMsg =>
    let request := {
      service := requestMsg.service, method := requestMsg.method, sender := clientID
      tracker := requestMsg.tracker, body := requestMsg.body
      attributes := requestMsg.attributes, timeout := milliseconds requestMsg.timeout
      timestamp := now }
    match submitRequest request with
    | .error err => b.sendError clientID .internalError err message.sequence
    | .ok request =>
      match offer 10000 b.requests request with
      | some requests => { b with requests }
      | none =>
        b.sendError clientID .internalError (.text "request queue full") message.sequence

/-- `RequestCredit` queues the request and waits for the answer. -/
def handleCreditRequest (b : Broker) (clientID : Bytes) (message : Message) : Broker :=
  match CreditRequestMessage.unmarshal message.body with
  | .error _ =>
    b.sendError clientID .invalidMessage (.text "Invalid credit request message")
      message.sequence
  | .ok creditMsg =>
    match offer 1000 b.creditRequests { clientID, amount := creditMsg.credit } with
    | some creditRequests =>
      { b with
        creditRequests, waiting := some { clientID, sequence := message.sequence } }
    | none =>
      b.sendError clientID .internalError (.text "credit request queue full") message.sequence

/-- The handlers of STREAM-CANCEL, MAILBOX-RECEIVE, SERVICE-WITHDRAW and
SERVICE-REPLY do nothing. -/
def dispatch (P : Platform) (b : Broker) (clientID : Bytes) (message : Message)
    (hints : List (List Bytes)) (now : Int) : Broker :=
  match messageType message.type with
  | some .connectionOpen => b.handleConnectionOpen clientID message now
  | some .connectionPing => b.handleConnectionPing P clientID message
  | some .connectionClose => b.handleConnectionClose clientID now
  | some .streamWrite => b.handleStreamWrite clientID message now
  | some .streamRead => b.handleStreamRead clientID message now
  | some .mailboxSend => b.handleMailboxSend clientID message now
  | some .serviceOffer => b.handleServiceOffer P clientID message hints now
  | some .serviceRequest => b.handleServiceRequest P clientID message now
  | some .creditRequest => b.handleCreditRequest clientID message
  | some .streamCancel | some .mailboxReceive | some .serviceWithdraw | some .serviceReply => b
  | none =>
    b.sendError clientID .notImplemented (.text "Message type not implemented") message.sequence

def processClientMessage (P : Platform) (b : Broker) (clientID : Bytes) (message : Message)
    (hints : List (List Bytes)) (now : Int) : Broker :=
  (b.updateClientActivity clientID now).dispatch P clientID message hints now

def checkClientTimeouts (b : Broker) (now : Int) : Broker :=
  let cutoff := now - b.config.clientTimeout
  { b with clients := retain (fun _ client => !decide (client.lastActivity < cutoff)) b.clients }

/-- The answer goes to the message loop if it still waits for this request, which
is then the last one in the queue. -/
def creditLoop (b : Broker) (now : Int) : Option Broker :=
  match b.creditRequests with
  | [] => none
  | request :: creditRequests =>
    let (answer, creditController) := b.creditController.processRequest request now
    some { b with
      creditRequests, creditController
      waiting := b.waiting.map fun waiting =>
        if creditRequests = [] ∧ waiting.answer.isNone then { waiting with answer := some answer }
        else waiting }

/-- The message loop goes on with the answer to a credit request, or without one
after five seconds. -/
def finishCreditRequest (b : Broker) : Option Broker :=
  b.waiting.map fun waiting =>
    let b := { b with waiting := none }
    match waiting.answer with
    | none =>
      b.sendError waiting.clientID .internalError (.text "credit request timeout")
        waiting.sequence
    | some answer =>
      match answer.error with
      | some err => b.sendError waiting.clientID .internalError err waiting.sequence
      | none =>
        let b := { b with sequenceCounter := b.sequenceCounter + 1 }
        b.queueResponse waiting.clientID (.creditConfirm answer.granted b.sequenceCounter)

def publicationLoop (P : Platform) (b : Broker) (now : Int) : Option Broker :=
  match b.publications with
  | [] => none
  | pub :: publications =>
    some { b with
      publications
      streamManager := b.streamManager.processPublication P.globMatch P.parseDuration pub now }

def deliveryLoop (b : Broker) (now : Int) : Option Broker :=
  match b.deliveries with
  | [] => none
  | delivery :: deliveries =>
    some { b with
      deliveries
      mailboxManager := b.mailboxManager.processDelivery delivery
        b.mailboxManager.messageID.toNat now }

def requestLoop (P : Platform) (b : Broker) (hint : List Bytes) (now : Int) : Option Broker :=
  match b.requests with
  | [] => none
  | request :: requests =>
    let processed := b.serviceManager.processRequest P.globMatch request
      b.serviceManager.requestID.toNat hint now
    some { b with
      requests, serviceManager := (processed.map Prod.snd).getD b.serviceManager }

def heartbeatLoop (b : Broker) (now : Int) : Option Broker :=
  match b.heartbeats with
  | [] => none
  | clientID :: heartbeats =>
    some ({ b with heartbeats }.updateClientActivity clientID now)

/-- The managers clean up in loops of their own. -/
def cleanupCredit (b : Broker) (now : Int) : Broker :=
  { b with creditController := b.creditController.cleanupInactiveClients now }

def cleanupStreams (b : Broker) (now : Int) : Broker :=
  { b with streamManager := b.streamManager.cleanupExpiredMessages now }

def cleanupMailboxes (b : Broker) (now : Int) : Broker :=
  { b with mailboxManager := b.mailboxManager.cleanupExpiredMessages now }

def cleanupServices (b : Broker) (now : Int) : Broker :=
  { b with serviceManager := b.serviceManager.cleanupExpiredRequests now }

end Broker

inductive Event
  | message (clientID : Bytes) (message : Message) (hints : List (List Bytes)) (now : Int)
  | finishCreditRequest
  | creditLoop (now : Int)
  | publicationLoop (now : Int)
  | deliveryLoop (now : Int)
  | requestLoop (hint : List Bytes) (now : Int)
  | heartbeatLoop (now : Int)
  | checkClientTimeouts (now : Int)
  | cleanupCredit (now : Int)
  | cleanupStreams (now : Int)
  | cleanupMailboxes (now : Int)
  | cleanupServices (now : Int)

def Event.sender : Event → Option Bytes
  | .message clientID _ _ _ => some clientID
  | _ => none

def Broker.step (P : Platform) (b : Broker) : Event → Option Broker
  | .message clientID message hints now =>
    if b.waiting.isNone then some (b.processClientMessage P clientID message hints now) else none
  | .finishCreditRequest => b.finishCreditRequest
  | .creditLoop now => b.creditLoop now
  | .publicationLoop now => b.publicationLoop P now
  | .deliveryLoop now => b.deliveryLoop now
  | .requestLoop hint now => b.requestLoop P hint now
  | .heartbeatLoop now => b.heartbeatLoop now
  | .checkClientTimeouts now => some (b.checkClientTimeouts now)
  | .cleanupCredit now => some (b.cleanupCredit now)
  | .cleanupStreams now => some (b.cleanupStreams now)
  | .cleanupMailboxes now => some (b.cleanupMailboxes now)
  | .cleanupServices now => some (b.cleanupServices now)

/-- The broker with the clients that have left its table and have not sent a
message since. -/
structure Watch where
  broker : Broker
  departed : Finset Bytes := ∅

def Watch.step (P : Platform) (s : Watch) (event : Event) : Option Watch :=
  (s.broker.step P event).map fun after =>
    { broker := after
      departed := (s.departed.filter fun clientID => event.sender ≠ some clientID) ∪
        (s.broker.clients.keys.toFinset \ after.clients.keys.toFinset) }

/-- The empty owner of a mailbox is no owner. -/
def Owned (mm : MailboxManager) (clientID : Bytes) : Prop :=
  clientID ≠ [] ∧ ∃ address mailbox, mm.mailboxes.lookup address = some mailbox ∧
    mailbox.owner = clientID

def Registered (sm : ServiceManager) (clientID : Bytes) : Prop :=
  ∃ name service, sm.services.lookup name = some service ∧ clientID ∈ service.workers

/-- What a client holds in the managers: credit, a subscription, a mailbox, or a
place among the workers of a service. -/
inductive Broker.Holds (b : Broker) (clientID : Bytes) : Prop
  | credit (hmem : clientID ∈ b.creditController.clientCredits)
  | subscription (hsubscribed : b.streamManager.Subscribed clientID)
  | mailbox (howned : Owned b.mailboxManager clientID)
  | worker (hregistered : Registered b.serviceManager clientID)

variable {hints : List (List Bytes)}

section Managers

variable {clientID : Bytes} {now : Int}

variable {mm : MailboxManager} {sm : ServiceManager} {globMatch : Bytes → Bytes → Option Bool}
  {handed : List MalamuteService.Delivery} {cc : CreditController}

theorem owned_processDelivery {delivery : MailboxDelivery} {serial : Nat}
    (howned : Owned (mm.processDelivery delivery serial now) clientID) : Owned mm clientID := by
  obtain ⟨hne, address, after, hlookup, howner⟩ := howned
  refine ⟨hne, ?_⟩
  unfold MailboxManager.processDelivery at hlookup
  split at hlookup
  · exact ⟨address, after, hlookup, howner⟩
  · dsimp only at hlookup
    rw [lookup_insert_eq] at hlookup
    split at hlookup
    · cases hlookup
      rw [MalamuteMailbox.store_owner] at howner
      rcases hbefore : mm.mailboxes.lookup delivery.address with _ | mailbox
      · rw [hbefore] at howner
        exact absurd howner.symm hne
      · rw [hbefore] at howner
        exact ⟨delivery.address, mailbox, hbefore, howner⟩
    · exact ⟨address, after, hlookup, howner⟩

theorem owned_handleRemoveClient {gone : Bytes}
    (howned : Owned (mm.handleRemoveClient gone) clientID) :
    clientID ≠ gone ∧ Owned mm clientID := by
  obtain ⟨hne, address, mailbox, hlookup, rfl⟩ := howned
  obtain ⟨hbefore, howner⟩ := MalamuteMailbox.lookup_removeClient.mp hlookup
  exact ⟨howner, hne, address, mailbox, hbefore, rfl⟩

theorem mem_workers_of_hands {workers after : MalamuteService.Workers}
    (hhands : MalamuteService.Hands globMatch workers handed after) :
    clientID ∈ after ↔ clientID ∈ workers := by
  induction hhands with
  | nil => exact Iff.rfl
  | cons hlookup _ _ _ ih =>
    rw [ih, MalamuteService.handOver, AList.mem_insert]
    refine or_iff_right_of_imp ?_
    rintro rfl
    rw [← AList.lookup_isSome, hlookup]
    rfl

theorem registered_registerWorker {serviceName worker pattern : Bytes} {attributes : Headers}
    {after : ServiceManager}
    (hafter : sm.registerWorker globMatch serviceName worker pattern attributes hints now =
      .ok (handed, after)) (hregistered : Registered after clientID) :
    clientID = worker ∨ Registered sm clientID := by
  obtain ⟨service, kept, workers, rfl, hdispatch, rfl⟩ :=
    MalamuteService.registerWorker_eq_ok hafter
  rcases exists_of_insert hregistered with hmem | hbefore
  · rcases (AList.mem_insert _).mp ((mem_workers_of_hands hdispatch.hands).mp hmem) with
      heq | hworker
    · exact Or.inl heq
    · right
      rcases hlookup : sm.services.lookup serviceName with _ | service
      · rw [hlookup] at hworker
        exact absurd hworker (AList.notMem_empty clientID)
      · rw [hlookup] at hworker
        exact ⟨serviceName, service, hlookup, hworker⟩
  · exact Or.inr hbefore

theorem registered_processRequest {request : ServiceReq} {arrival : Nat} {hint : List Bytes}
    (hregistered : Registered (((sm.processRequest globMatch request arrival hint now).map
      Prod.snd).getD sm) clientID) : Registered sm clientID := by
  unfold ServiceManager.processRequest at hregistered
  rcases hlookup : sm.services.lookup request.service with _ | service
  · rw [hlookup] at hregistered
    exact hregistered
  · rw [hlookup] at hregistered
    dsimp only at hregistered
    rcases hfind : MalamuteService.findAvailableWorker globMatch hint service.workers
      request.method with _ | ⟨chosen, worker⟩
    · rw [hfind] at hregistered
      rcases exists_of_insert hregistered with hmem | hbefore
      · exact ⟨request.service, service, hlookup, hmem⟩
      · exact hbefore
    · rw [hfind] at hregistered
      obtain ⟨hworker, -⟩ := MalamuteService.findAvailableWorker_eq_some hfind
      rcases exists_of_insert hregistered with hmem | hbefore
      · refine ⟨request.service, service, hlookup, ?_⟩
        rcases (AList.mem_insert _).mp hmem with rfl | hmem'
        · rw [← AList.lookup_isSome, hworker]
          rfl
        · exact hmem'
      · exact hbefore

theorem registered_handleRemoveClient {gone : Bytes}
    (hregistered : Registered (sm.handleRemoveClient gone) clientID) :
    clientID ≠ gone ∧ Registered sm clientID := by
  obtain ⟨name, after, hlookup, hmem⟩ := hregistered
  obtain ⟨before, hbefore, -, hworkers⟩ := MalamuteService.lookup_removeClient hlookup
  rw [hworkers] at hmem
  obtain ⟨hne, hmem'⟩ := AList.mem_erase.mp hmem
  exact ⟨hne, name, before, hbefore, hmem'⟩

theorem mem_useCredit {user : Bytes} {amount : Int32}
    (hmem : clientID ∈ ((cc.useCredit user amount).toOption.getD cc).clientCredits) :
    clientID ∈ cc.clientCredits := by
  unfold CreditController.useCredit at hmem
  rcases hlookup : cc.clientCredits.lookup user with _ | before
  · rwa [hlookup] at hmem
  · simp only [hlookup] at hmem
    split at hmem
    · exact hmem
    · rcases (AList.mem_insert _).mp hmem with rfl | hbefore
      · rw [← AList.lookup_isSome, hlookup]
        rfl
      · exact hbefore

theorem mem_processRequest_iff {request : CreditRequest} :
    clientID ∈ (cc.processRequest request now).2.clientCredits ↔
      clientID = request.clientID ∨ clientID ∈ cc.clientCredits := by
  unfold CreditController.processRequest
  dsimp only
  split <;> exact AList.mem_insert _

end Managers

/-- No client leaves the table, and only the clients named gain something. -/
structure Broker.Keeps (b after : Broker) (gains : Bytes → Prop) : Prop where
  holds : ∀ clientID, after.Holds clientID → gains clientID ∨ b.Holds clientID
  clients : ∀ clientID ∈ b.clients, clientID ∈ after.clients

section Handlers

variable {P : Platform} {b after : Broker} {gains : Bytes → Prop} {sender : Bytes}
  {message : Message} {now : Int}

theorem Broker.Keeps.trans {middle : Broker} (hfirst : b.Keeps middle gains)
    (hsecond : middle.Keeps after gains) : b.Keeps after gains := by
  refine ⟨?_, fun clientID hmem => hsecond.clients clientID (hfirst.clients clientID hmem)⟩
  intro clientID hholds
  rcases hsecond.holds clientID hholds with hgains | hmiddle
  · exact Or.inl hgains
  · exact hfirst.holds clientID hmiddle

theorem keeps_intro
    (hcredit : ∀ clientID ∈ after.creditController.clientCredits,
      gains clientID ∨ clientID ∈ b.creditController.clientCredits)
    (hstream : ∀ clientID, after.streamManager.Subscribed clientID →
      gains clientID ∨ b.streamManager.Subscribed clientID)
    (hmailbox : ∀ clientID, Owned after.mailboxManager clientID → Owned b.mailboxManager clientID)
    (hservice : ∀ clientID, Registered after.serviceManager clientID →
      gains clientID ∨ Registered b.serviceManager clientID)
    (hclients : ∀ clientID ∈ b.clients, clientID ∈ after.clients) : b.Keeps after gains := by
  refine ⟨?_, hclients⟩
  rintro clientID (hmem | hsubscribed | howned | hregistered)
  · exact (hcredit clientID hmem).imp_right .credit
  · exact (hstream clientID hsubscribed).imp_right .subscription
  · exact Or.inr (.mailbox (hmailbox clientID howned))
  · exact (hservice clientID hregistered).imp_right .worker

def Broker.managers (b : Broker) :
    CreditController × StreamManager × MailboxManager × ServiceManager :=
  (b.creditController, b.streamManager, b.mailboxManager, b.serviceManager)

theorem holds_of_same {clientID : Bytes} (hsame : after.managers = b.managers)
    (hholds : after.Holds clientID) : b.Holds clientID := by
  simp only [Broker.managers, Prod.mk.injEq] at hsame
  obtain ⟨hcredit, hstream, hmailbox, hservice⟩ := hsame
  rcases hholds with hmem | hsubscribed | howned | hregistered
  · exact .credit (hcredit ▸ hmem)
  · exact .subscription (hstream ▸ hsubscribed)
  · exact .mailbox (hmailbox ▸ howned)
  · exact .worker (hservice ▸ hregistered)

theorem keeps_of_same (hsame : after.managers = b.managers)
    (hclients : ∀ clientID ∈ b.clients, clientID ∈ after.clients) : b.Keeps after gains :=
  ⟨fun _ hholds => Or.inr (holds_of_same hsame hholds), hclients⟩

theorem keeps_queueResponse (clientID : Bytes) (response : Response) :
    b.Keeps (b.queueResponse clientID response) gains := by
  unfold Broker.queueResponse
  split
  · exact keeps_of_same rfl fun _ => id
  · exact keeps_of_same rfl fun _ => id

theorem keeps_sendError (clientID : Bytes) (code : ErrorCode) (reason : Err) (sequence : UInt32) :
    b.Keeps (b.sendError clientID code reason sequence) gains :=
  keeps_queueResponse clientID _

theorem keeps_updateClientActivity (clientID : Bytes) (now : Int) :
    b.Keeps (b.updateClientActivity clientID now) gains := by
  unfold Broker.updateClientActivity
  split
  · exact keeps_of_same rfl fun _ => id
  · exact keeps_of_same rfl fun _ hmem => (AList.mem_insert _).mpr (Or.inr hmem)

theorem keeps_handleConnectionOpen :
    b.Keeps (b.handleConnectionOpen sender message now) gains := by
  unfold Broker.handleConnectionOpen
  split
  · exact keeps_sendError _ _ _ _
  · split
    · exact keeps_sendError _ _ _ _
    · exact keeps_of_same rfl fun _ hmem => (AList.mem_insert _).mpr (Or.inr hmem)

theorem keeps_handleConnectionPing :
    b.Keeps (b.handleConnectionPing P sender message) gains := by
  unfold Broker.handleConnectionPing
  split
  · exact keeps_of_same rfl fun _ => id
  · next timestamp _ =>
      have hcounted : b.Keeps { b with sequenceCounter := b.sequenceCounter + 1 } gains :=
        keeps_of_same rfl fun _ => id
      have hanswered := hcounted.trans
        (keeps_queueResponse sender (.pong timestamp (b.sequenceCounter + 1)))
      dsimp only
      split
      · exact hanswered.trans (by exact keeps_of_same rfl fun _ => id)
      · exact hanswered

theorem keeps_handleStreamWrite :
    b.Keeps (b.handleStreamWrite sender message now) gains := by
  unfold Broker.handleStreamWrite
  split
  · split
    · exact keeps_sendError _ _ _ _
    · have hused : b.Keeps { b with creditController :=
          (b.creditController.useCredit sender 1).toOption.getD b.creditController } gains :=
        keeps_intro (fun _ hmem => Or.inr (mem_useCredit hmem)) (fun _ => Or.inr) (fun _ => id)
          (fun _ => Or.inr) fun _ => id
      dsimp only
      split
      · exact hused.trans (keeps_sendError _ _ _ _)
      · split
        · exact hused.trans (by exact keeps_of_same rfl fun _ => id)
        · exact hused.trans (keeps_sendError _ _ _ _)
  · exact keeps_sendError _ _ _ _

theorem keeps_handleStreamRead :
    b.Keeps (b.handleStreamRead sender message now) (· = sender) := by
  unfold Broker.handleStreamRead
  split
  · exact keeps_sendError _ _ _ _
  · split
    · exact keeps_sendError _ _ _ _
    · next hsubscribe =>
        exact keeps_intro (fun _ => Or.inr)
          (fun _ => MalamuteStream.subscribed_handleSubscribe hsubscribe) (fun _ => id)
          (fun _ => Or.inr) fun _ => id

theorem keeps_handleMailboxSend :
    b.Keeps (b.handleMailboxSend sender message now) gains := by
  unfold Broker.handleMailboxSend
  split
  · exact keeps_sendError _ _ _ _
  · dsimp only
    split
    · exact keeps_sendError _ _ _ _
    · split
      · exact keeps_of_same rfl fun _ => id
      · exact keeps_sendError _ _ _ _

theorem keeps_handleServiceOffer :
    b.Keeps (b.handleServiceOffer P sender message hints now) (· = sender) := by
  unfold Broker.handleServiceOffer
  split
  · exact keeps_sendError _ _ _ _
  · split
    · exact keeps_sendError _ _ _ _
    · next hregister =>
        exact keeps_intro (fun _ => Or.inr) (fun _ => Or.inr) (fun _ => id)
          (fun _ => registered_registerWorker hregister) fun _ => id

theorem keeps_handleServiceRequest :
    b.Keeps (b.handleServiceRequest P sender message now) gains := by
  unfold Broker.handleServiceRequest
  split
  · exact keeps_sendError _ _ _ _
  · dsimp only
    split
    · exact keeps_sendError _ _ _ _
    · split
      · exact keeps_of_same rfl fun _ => id
      · exact keeps_sendError _ _ _ _

theorem keeps_handleCreditRequest :
    b.Keeps (b.handleCreditRequest sender message) gains := by
  unfold Broker.handleCreditRequest
  split
  · exact keeps_sendError _ _ _ _
  · split
    · exact keeps_of_same rfl fun _ => id
    · exact keeps_sendError _ _ _ _

/-- Only the sender of a message gains by it, and a client that it removes from
the table is the sender and holds nothing. -/
theorem processClientMessage_releases (b : Broker) (sender : Bytes) (message : Message)
    (hints : List (List Bytes)) (now : Int) :
    (∀ clientID, (b.processClientMessage P sender message hints now).Holds clientID →
      clientID = sender ∨ b.Holds clientID) ∧
    ∀ clientID ∈ b.clients, clientID ∉ (b.processClientMessage P sender message hints now).clients →
      clientID = sender ∧ ¬ (b.processClientMessage P sender message hints now).Holds clientID := by
  have hactive : b.Keeps (b.updateClientActivity sender now) (· = sender) :=
    keeps_updateClientActivity sender now
  have hkept : ∀ after, (b.updateClientActivity sender now).Keeps after (· = sender) →
      (∀ clientID, after.Holds clientID → clientID = sender ∨ b.Holds clientID) ∧
      ∀ clientID ∈ b.clients, clientID ∉ after.clients →
        clientID = sender ∧ ¬ after.Holds clientID := by
    intro after hhandled
    obtain ⟨hholds, hclients⟩ := hactive.trans hhandled
    exact ⟨hholds, fun clientID hmem hgone => absurd (hclients clientID hmem) hgone⟩
  unfold Broker.processClientMessage Broker.dispatch
  split
  · exact hkept _ keeps_handleConnectionOpen
  · exact hkept _ keeps_handleConnectionPing
  · unfold Broker.handleConnectionClose Broker.removeClient
    split
    · refine ⟨fun clientID hafter => hactive.holds clientID ?_, fun clientID hmem hgone => ?_⟩
      · rcases hafter with hmem | hsubscribed | howned | hregistered
        · exact .credit (AList.mem_erase.mp hmem).2
        · exact .subscription (MalamuteStream.subscribed_handleRemoveClient hsubscribed).2
        · exact .mailbox (owned_handleRemoveClient howned).2
        · exact .worker (registered_handleRemoveClient hregistered).2
      · obtain rfl : clientID = sender := by
          by_contra hne
          exact hgone (AList.mem_erase.mpr ⟨hne, hactive.clients clientID hmem⟩)
        refine ⟨rfl, ?_⟩
        rintro (hmem | hsubscribed | howned | hregistered)
        · exact (AList.mem_erase.mp hmem).1 rfl
        · exact (MalamuteStream.subscribed_handleRemoveClient hsubscribed).1 rfl
        · exact (owned_handleRemoveClient howned).1 rfl
        · exact (registered_handleRemoveClient hregistered).1 rfl
    · exact ⟨hactive.holds, fun clientID hmem hgone =>
        absurd (hactive.clients clientID hmem) hgone⟩
  · exact hkept _ keeps_handleStreamWrite
  · exact hkept _ keeps_handleStreamRead
  · exact hkept _ keeps_handleMailboxSend
  · exact hkept _ keeps_handleServiceOffer
  · exact hkept _ keeps_handleServiceRequest
  · exact hkept _ keeps_handleCreditRequest
  · exact hkept _ (keeps_of_same rfl fun _ => id)
  · exact hkept _ (keeps_of_same rfl fun _ => id)
  · exact hkept _ (keeps_of_same rfl fun _ => id)
  · exact hkept _ (keeps_of_same rfl fun _ => id)
  · exact hkept _ (keeps_sendError _ _ _ _)

end Handlers

def Watch.Released (s : Watch) : Prop :=
  ∀ clientID ∈ s.departed, ¬ s.broker.Holds clientID

/-- A client that times out holds nothing, and no credit request is processed for
a client that has left. -/
def Watch.Releases (s : Watch) : Event → Prop
  | .checkClientTimeouts now =>
    ∀ clientID client, s.broker.clients.lookup clientID = some client →
      client.lastActivity < now - s.broker.config.clientTimeout → ¬ s.broker.Holds clientID
  | .creditLoop _ =>
    ∀ request, s.broker.creditRequests.head? = some request → request.clientID ∉ s.departed
  | .message _ _ _ _ | .finishCreditRequest | .publicationLoop _ | .deliveryLoop _
  | .requestLoop _ _ | .heartbeatLoop _ | .cleanupCredit _ | .cleanupStreams _
  | .cleanupMailboxes _ | .cleanupServices _ => True

section Steps

variable {P : Platform} {s s' : Watch} {b after : Broker} {clientID : Bytes} {event : Event}

theorem mem_departed_iff (hstep : s.step P event = some s') :
    clientID ∈ s'.departed ↔ (clientID ∈ s.departed ∧ event.sender ≠ some clientID) ∨
      (clientID ∈ s.broker.clients ∧ clientID ∉ s'.broker.clients) := by
  obtain ⟨after, -, rfl⟩ := Option.map_eq_some_iff.mp hstep
  rw [Finset.mem_union, Finset.mem_filter, Finset.mem_sdiff, List.mem_toFinset, List.mem_toFinset,
    ← AList.mem_keys, ← AList.mem_keys]

variable {gains : Bytes → Prop}

variable {now : Int}

theorem creditLoop_eq_some (hloop : b.creditLoop now = some after) :
    ∃ request, b.creditRequests.head? = some request ∧ after.clients = b.clients ∧
      ∀ clientID, after.Holds clientID ↔ clientID = request.clientID ∨ b.Holds clientID := by
  unfold Broker.creditLoop at hloop
  split at hloop
  · cases hloop
  · next request creditRequests hqueue =>
      cases hloop
      refine ⟨request, by rw [hqueue]; rfl, rfl, fun clientID => ⟨?_, ?_⟩⟩
      · rintro (hmem | hsubscribed | howned | hregistered)
        · exact (mem_processRequest_iff.mp hmem).imp_right .credit
        · exact Or.inr (.subscription hsubscribed)
        · exact Or.inr (.mailbox howned)
        · exact Or.inr (.worker hregistered)
      · rintro (heq | hmem | hsubscribed | howned | hregistered)
        · exact .credit (mem_processRequest_iff.mpr (Or.inl heq))
        · exact .credit (mem_processRequest_iff.mpr (Or.inr hmem))
        · exact .subscription hsubscribed
        · exact .mailbox howned
        · exact .worker hregistered

theorem released_of_keeps (hP : s.Released) (hstep : s.step P event = some s')
    (hkeeps : s.broker.Keeps s'.broker fun _ => False) : s'.Released := by
  intro clientID hdeparted hholds
  rcases (mem_departed_iff hstep).mp hdeparted with ⟨hbefore, -⟩ | ⟨hmem, hgone⟩
  · exact hP clientID hbefore ((hkeeps.holds clientID hholds).resolve_left id)
  · exact hgone (hkeeps.clients clientID hmem)

theorem released_message {sender : Bytes} {message : Message} (hP : s.Released)
    (hstep : s.step P (.message sender message hints now) = some s') : s'.Released := by
  obtain ⟨after, hafter, hs'⟩ := Option.map_eq_some_iff.mp hstep
  obtain ⟨-, hprocess⟩ := Option.ite_none_right_eq_some.mp hafter
  have hbroker : s'.broker = s.broker.processClientMessage P sender message hints now := by
    rw [← hs', Option.some.inj hprocess]
  obtain ⟨hholds, hleft⟩ :=
    processClientMessage_releases (P := P) s.broker sender message hints now
  rw [← hbroker] at hholds hleft
  intro clientID hdeparted hafterHolds
  rcases (mem_departed_iff hstep).mp hdeparted with ⟨hbefore, hother⟩ | ⟨hmem, hgone⟩
  · rcases hholds clientID hafterHolds with rfl | hheld
    · exact hother rfl
    · exact hP clientID hbefore hheld
  · exact (hleft clientID hmem hgone).2 hafterHolds

theorem released_creditLoop_iff (hP : s.Released) (hstep : s.step P (.creditLoop now) = some s') :
    s'.Released ↔ s.Releases (.creditLoop now) := by
  obtain ⟨after, hafter, hs'⟩ := Option.map_eq_some_iff.mp hstep
  obtain ⟨request, hhead, hclients, hholds⟩ := creditLoop_eq_some hafter
  have hbroker : s'.broker = after := by rw [← hs']
  rw [← hbroker] at hclients hholds
  have hsame : ∀ clientID, clientID ∈ s'.departed ↔ clientID ∈ s.departed := by
    intro clientID
    rw [mem_departed_iff hstep, hclients]
    exact ⟨fun hdeparted => hdeparted.elim And.left fun hgone => absurd hgone.1 hgone.2,
      fun hdeparted => Or.inl ⟨hdeparted, nofun⟩⟩
  constructor
  · intro hreleased request' hhead' hdeparted
    rw [hhead] at hhead'
    cases hhead'
    exact hreleased _ ((hsame _).mpr hdeparted) ((hholds _).mpr (Or.inl rfl))
  · intro hreleases clientID hdeparted hheld
    have hbefore := (hsame clientID).mp hdeparted
    rcases (hholds clientID).mp hheld with rfl | hold
    · exact hreleases request hhead hbefore
    · exact hP clientID hbefore hold

/-- The managers are not told about the clients that time out. -/
theorem holds_checkClientTimeouts_iff :
    (b.checkClientTimeouts now).Holds clientID ↔ b.Holds clientID := by
  exact ⟨holds_of_same rfl, holds_of_same rfl⟩

theorem timedOut_iff :
    (clientID ∈ b.clients ∧ clientID ∉ (b.checkClientTimeouts now).clients) ↔
      ∃ client, b.clients.lookup clientID = some client ∧
        client.lastActivity < now - b.config.clientTimeout := by
  rw [← AList.lookup_eq_none, Broker.checkClientTimeouts, Option.eq_none_iff_forall_ne_some,
    ← AList.lookup_isSome]
  simp only [ne_eq, lookup_retain_eq_some_iff, not_and, Bool.not_eq_true]
  constructor
  · rintro ⟨hsome, hdropped⟩
    obtain ⟨client, hclient⟩ := Option.isSome_iff_exists.mp hsome
    exact ⟨client, hclient, by simpa using hdropped client hclient⟩
  · rintro ⟨client, hclient, hlate⟩
    refine ⟨by rw [hclient]; rfl, fun other hother => ?_⟩
    rw [hclient] at hother
    cases hother
    simpa using hlate

theorem released_checkClientTimeouts_iff (hP : s.Released)
    (hstep : s.step P (.checkClientTimeouts now) = some s') :
    s'.Released ↔ s.Releases (.checkClientTimeouts now) := by
  obtain ⟨after, hafter, hs'⟩ := Option.map_eq_some_iff.mp hstep
  have hbroker : s'.broker = s.broker.checkClientTimeouts now := by
    rw [← hs', Option.some.inj hafter]
  constructor
  · intro hreleased clientID client hclient hlate hheld
    have hleft := timedOut_iff.mpr ⟨client, hclient, hlate⟩
    rw [← hbroker] at hleft
    refine hreleased clientID ((mem_departed_iff hstep).mpr (Or.inr hleft)) ?_
    rw [hbroker]
    exact holds_checkClientTimeouts_iff.mpr hheld
  · intro hreleases clientID hdeparted hheld
    rw [hbroker, holds_checkClientTimeouts_iff] at hheld
    rcases (mem_departed_iff hstep).mp hdeparted with ⟨hbefore, -⟩ | hleft
    · exact hP clientID hbefore hheld
    · rw [hbroker] at hleft
      obtain ⟨client, hclient, hlate⟩ := timedOut_iff.mp hleft
      exact hreleases clientID client hclient hlate hheld

theorem released_step_iff (hP : s.Released) (hstep : s.step P event = some s') :
    s'.Released ↔ s.Releases event := by
  obtain ⟨after, hafter, hs'⟩ := Option.map_eq_some_iff.mp hstep
  have hbroker : after = s'.broker := by rw [← hs']
  rw [hbroker] at hafter
  have hquiet : s.broker.Keeps s'.broker (fun _ => False) → (s'.Released ↔ True) :=
    fun hkeeps => iff_true_intro (released_of_keeps hP hstep hkeeps)
  cases event with
  | message sender message hints now => exact iff_of_true (released_message hP hstep) trivial
  | checkClientTimeouts now => exact released_checkClientTimeouts_iff hP hstep
  | creditLoop now => exact released_creditLoop_iff hP hstep
  | finishCreditRequest =>
    obtain ⟨waiting, -, hresumed⟩ := Option.map_eq_some_iff.mp hafter
    rw [← hresumed] at hquiet
    apply hquiet
    dsimp only
    split
    · exact .trans (by exact keeps_of_same rfl fun _ => id) (keeps_sendError _ _ _ _)
    · split
      · exact .trans (by exact keeps_of_same rfl fun _ => id) (keeps_sendError _ _ _ _)
      · exact .trans (by exact keeps_of_same rfl fun _ => id) (keeps_queueResponse _ _)
  | publicationLoop now =>
    simp only [Broker.step, Broker.publicationLoop] at hafter
    split at hafter
    · cases hafter
    · rw [← Option.some.inj hafter] at hquiet
      exact hquiet (keeps_intro (fun _ => Or.inr)
        (fun _ hsubscribed => Or.inr (MalamuteStream.subscribed_processPublication hsubscribed))
        (fun _ => id) (fun _ => Or.inr) fun _ => id)
  | deliveryLoop now =>
    simp only [Broker.step, Broker.deliveryLoop] at hafter
    split at hafter
    · cases hafter
    · rw [← Option.some.inj hafter] at hquiet
      exact hquiet (keeps_intro (fun _ => Or.inr) (fun _ => Or.inr) (fun _ => owned_processDelivery)
        (fun _ => Or.inr) fun _ => id)
  | requestLoop hint now =>
    simp only [Broker.step, Broker.requestLoop] at hafter
    split at hafter
    · cases hafter
    · rw [← Option.some.inj hafter] at hquiet
      exact hquiet (keeps_intro (fun _ => Or.inr) (fun _ => Or.inr) (fun _ => id)
        (fun _ hregistered => Or.inr (registered_processRequest hregistered)) fun _ => id)
  | heartbeatLoop now =>
    simp only [Broker.step, Broker.heartbeatLoop] at hafter
    split at hafter
    · cases hafter
    · next clientID heartbeats _ =>
        rw [← Option.some.inj hafter] at hquiet
        exact hquiet (.trans (by exact keeps_of_same rfl fun _ => id)
          (keeps_updateClientActivity clientID now))
  | cleanupCredit now =>
    rw [← Option.some.inj hafter] at hquiet
    refine hquiet (keeps_intro (fun clientID hmem => Or.inr ?_) (fun _ => Or.inr) (fun _ => id)
      (fun _ => Or.inr) fun _ => id)
    obtain ⟨clientCredit, hlookup⟩ := Option.isSome_iff_exists.mp (AList.lookup_isSome.mpr hmem)
    rw [← AList.lookup_isSome, MalamuteCredit.lookup_cleanup hlookup]
    rfl
  | cleanupStreams now =>
    rw [← Option.some.inj hafter] at hquiet
    exact hquiet (keeps_intro (fun _ => Or.inr)
      (fun _ hsubscribed => Or.inr (MalamuteStream.subscribed_cleanupExpiredMessages hsubscribed))
      (fun _ => id) (fun _ => Or.inr) fun _ => id)
  | cleanupMailboxes now =>
    rw [← Option.some.inj hafter] at hquiet
    refine hquiet (keeps_intro (fun _ => Or.inr) (fun _ => Or.inr) (fun clientID howned => ?_)
      (fun _ => Or.inr) fun _ => id)
    obtain ⟨hne, address, mailbox, hlookup, howner⟩ := howned
    obtain ⟨before, hbefore, rfl, -⟩ := MalamuteMailbox.lookup_cleanup.mp hlookup
    exact ⟨hne, address, before, hbefore, howner⟩
  | cleanupServices now =>
    rw [← Option.some.inj hafter] at hquiet
    refine hquiet (keeps_intro (fun _ => Or.inr) (fun _ => Or.inr) (fun _ => id)
      (fun clientID hregistered => Or.inr ?_) fun _ => id)
    obtain ⟨name, service, hlookup, hmem⟩ := hregistered
    obtain ⟨before, hbefore, -, hworkers⟩ := MalamuteService.lookup_cleanup hlookup
    exact ⟨name, before, hbefore, hworkers ▸ hmem⟩

end Steps

/-- Clients that have left hold nothing throughout a run if and only if each
client held nothing when it timed out, and no late credit request is processed
for a client that has left. -/
theorem departed_released_iff (P : Platform) (config : BrokerConfig) {events : List Event}
    {s : Watch} (hrun : run (Watch.step P) { broker := newBroker config } events = some s) :
    Always (Watch.step P) Watch.Released { broker := newBroker config } events ↔
      Throughout (Watch.step P) Watch.Releases { broker := newBroker config } events := by
  have hstart : Watch.Released { broker := newBroker config } :=
    fun clientID hdeparted => absurd hdeparted (Finset.notMem_empty clientID)
  apply always_iff_throughout (J := fun _ => True) _ _ trivial hstart hrun
  · exact fun _ _ _ _ _ _ => trivial
  · exact fun s event s' _ hP hstep => released_step_iff hP hstep

section Example

def plainPlatform : Platform where
  globMatch := MalamuteService.literalMatch
  parseDuration _ := none
  unmarshalPing _ := none
  unmarshalServiceRequest _ := none

def smallConfig : BrokerConfig where
  creditWindow := 100
  clientTimeout := 60 * MalamuteCredit.second
  serviceTimeout := 30 * MalamuteCredit.second
  maxConnections := 10
  maxStreams := 10
  maxMailboxes := 10
  maxServices := 10
  streamRetention := MalamuteCredit.hour
  mailboxRetention := MalamuteCredit.hour

def frame (type : UInt8) (body : Bytes) : Message where
  type := type
  version := 1
  sequence := 1
  clientID := []
  attributes := ∅
  body := body

def workerJoins : List Event :=
  [.message (ascii "w") (frame 1 [1, 119, 0, 0, 0, 1, 0]) [] 0,
    .message (ascii "w") (frame 30 [1, 115, 1, 42, 0]) [] 1]

theorem workerLeaves_released_iff :
    (∃ s, run (Watch.step plainPlatform) { broker := newBroker smallConfig }
        (workerJoins ++ [.message (ascii "w") (frame 4 []) [] 2]) = some s ∧
      s.departed = {ascii "w"}) ∧
      (Always (Watch.step plainPlatform) Watch.Released { broker := newBroker smallConfig }
          (workerJoins ++ [.message (ascii "w") (frame 4 []) [] 2]) ↔
        Throughout (Watch.step plainPlatform) Watch.Releases { broker := newBroker smallConfig }
          (workerJoins ++ [.message (ascii "w") (frame 4 []) [] 2])) :=
  ⟨⟨_, rfl, by decide +kernel⟩, departed_released_iff plainPlatform smallConfig rfl⟩

theorem timedOutWorker_registered :
    ∃ s, run (Watch.step plainPlatform) { broker := newBroker smallConfig }
        (workerJoins ++ [.checkClientTimeouts (61 * MalamuteCredit.second)]) = some s ∧
      s.departed = {ascii "w"} ∧
      (s.broker.serviceManager.services.lookup (ascii "s")).map (fun service =>
        service.workers.keys) = some [ascii "w"] ∧
      ¬ s.Released := by
  refine ⟨_, rfl, by decide +kernel, by decide +kernel, ?_⟩
  intro hreleased
  refine hreleased (ascii "w") (by decide +kernel) (.worker ⟨ascii "s", _, rfl, ?_⟩)
  decide +kernel

end Example

end Zmq4.MalamuteBroker

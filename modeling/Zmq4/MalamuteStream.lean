import Zmq4.MalamuteService

/-!
The stream manager of a Malamute broker: publications are stored in streams and
delivered to the subscribers that have credit and a matching pattern.  The
readings of the clock within one operation are taken to be one.
-/

namespace Zmq4.MalamuteStream

open ByteCodec KeyedMaps
open DuplexProgram (Err)
open DafkaMessages (Headers)
open MalamuteMessages (maxMessageSize)
open MalamuteCredit (defaultCreditWindow hour)

def maxStreamName : Nat := 255

def maxStreamBacklog : Nat := 100000

structure StreamMessage where
  id : UInt64
  subject : Bytes
  sender : Bytes
  attributes : Headers
  body : Bytes
  timestamp : Int
  ttl : Int

structure StreamSubscription where
  pattern : Bytes
  credit : Int32
  attributes : Headers
  lastRead : UInt64

structure Stream where
  messages : List StreamMessage := []
  subscribers : KeyedMap Bytes StreamSubscription := ∅
  lastActivity : Int
  messageCount : UInt64 := 0
  bytesStored : UInt64 := 0

structure StreamManager where
  maxStreams : Int
  retention : Int
  streams : KeyedMap Bytes Stream := ∅

structure StreamPub where
  stream : Bytes
  subject : Bytes
  sender : Bytes
  body : Bytes
  attributes : Headers
  timestamp : Int

def writeMessage (pub : StreamPub) : Except Err StreamPub :=
  if pub.stream.length = 0 ∨ pub.stream.length > maxStreamName then
    .error (.text ("invalid stream name length: " ++ toString pub.stream.length))
  else if pub.body.length > maxMessageSize then
    .error (.text ("message too large: " ++ toString pub.body.length ++ " bytes"))
  else .ok pub

variable (globMatch : Bytes → Bytes → Option Bool) (parseDuration : Bytes → Option Int)

def matchesPattern (subject pattern : Bytes) : Bool :=
  MalamuteService.matchesPattern globMatch subject pattern

/-- A subscriber after a message: each subscriber is looked at once, so the order
does not matter. -/
def StreamSubscription.deliver (subscription : StreamSubscription) (message : StreamMessage) :
    StreamSubscription :=
  if matchesPattern globMatch message.subject subscription.pattern ∧ subscription.credit > 0 then
    { subscription with credit := subscription.credit - 1, lastRead := message.id }
  else subscription

def deliverToSubscribers (stream : Stream) (message : StreamMessage) : Stream :=
  { stream with
    subscribers := mapValues (fun _ subscription => subscription.deliver globMatch message)
      stream.subscribers }

/-- The time to live comes from the attributes if it is given there. -/
def timeToLive (retention : Int) (attributes : Headers) : Int :=
  ((attributes.lookup (ascii "ttl")).bind parseDuration).getD retention

def Stream.store (stream : Stream) (message : StreamMessage) (now : Int) : Stream :=
  let messages := stream.messages ++ [message]
  { stream with
    messages := if messages.length > maxStreamBacklog then messages.tail else messages
    messageCount := stream.messageCount + 1
    bytesStored := stream.bytesStored + UInt64.ofNat message.body.length
    lastActivity := now }

def StreamMessage.expired (message : StreamMessage) (now : Int) : Bool :=
  decide (message.ttl > 0 ∧ now - message.timestamp > message.ttl)

def Stream.dropExpired (stream : Stream) (now : Int) : Stream :=
  { stream with
    messages := stream.messages.filter fun message => !message.expired now
    bytesStored := stream.messages.foldl (fun stored message =>
      if message.expired now then stored - UInt64.ofNat message.body.length else stored)
      stream.bytesStored }

namespace StreamManager

def Refuses (sm : StreamManager) (name : Bytes) : Prop :=
  name ∉ sm.streams ∧ (sm.streams.keys.length : Int) ≥ sm.maxStreams

instance (sm : StreamManager) (name : Bytes) : Decidable (sm.Refuses name) :=
  inferInstanceAs (Decidable (_ ∧ _))

def streamOrNew (sm : StreamManager) (name : Bytes) (now : Int) : Stream :=
  (sm.streams.lookup name).getD { lastActivity := now }

def processPublication (sm : StreamManager) (pub : StreamPub) (now : Int) : StreamManager :=
  if sm.Refuses pub.stream then sm
  else
    let stream := sm.streamOrNew pub.stream now
    let message : StreamMessage := {
      id := stream.messageCount + 1
      subject := pub.subject
      sender := pub.sender
      attributes := pub.attributes
      body := pub.body
      timestamp := pub.timestamp
      ttl := timeToLive parseDuration sm.retention pub.attributes }
    { sm with
      streams := sm.streams.insert pub.stream
        (deliverToSubscribers globMatch (stream.store message now) message) }

def handleSubscribe (sm : StreamManager) (clientID streamName pattern : Bytes)
    (attributes : Headers) (now : Int) : Except Err StreamManager :=
  if sm.Refuses streamName then .error (.text "maximum streams exceeded")
  else
    let stream := sm.streamOrNew streamName now
    let subscription := {
      pattern, credit := defaultCreditWindow, attributes, lastRead := stream.messageCount }
    .ok { sm with
      streams := sm.streams.insert streamName { stream with
        subscribers := stream.subscribers.insert clientID subscription } }

def handleRemoveClient (sm : StreamManager) (clientID : Bytes) (now : Int) : StreamManager :=
  { sm with
    streams := retain (fun _ stream => !decide (stream.subscribers.keys.length = 0 ∧
        now - stream.lastActivity > hour))
      (mapValues (fun _ stream => { stream with
        subscribers := stream.subscribers.erase clientID }) sm.streams) }

def cleanupExpiredMessages (sm : StreamManager) (now : Int) : StreamManager :=
  { sm with
    streams := retain (fun _ stream => !decide (stream.subscribers.keys.length = 0 ∧
        stream.messages.length = 0 ∧ now - stream.lastActivity > 24 * hour))
      (mapValues (fun _ stream => stream.dropExpired now) sm.streams) }

def Subscribed (sm : StreamManager) (clientID : Bytes) : Prop :=
  ∃ name stream, sm.streams.lookup name = some stream ∧ clientID ∈ stream.subscribers

end StreamManager

section Subscribed

variable {globMatch parseDuration} {sm : StreamManager} {clientID : Bytes}

open StreamManager

theorem mem_subscribers_streamOrNew {name : Bytes} {now : Int}
    (hmem : clientID ∈ (sm.streamOrNew name now).subscribers) : sm.Subscribed clientID := by
  unfold streamOrNew at hmem
  rcases hlookup : sm.streams.lookup name with _ | stream
  · rw [hlookup] at hmem
    exact absurd hmem (AList.notMem_empty clientID)
  · rw [hlookup] at hmem
    exact ⟨name, stream, hlookup, hmem⟩

theorem subscribed_processPublication {pub : StreamPub} {now : Int}
    (hsubscribed : (sm.processPublication globMatch parseDuration pub now).Subscribed clientID) :
    sm.Subscribed clientID := by
  unfold processPublication at hsubscribed
  split at hsubscribed
  · exact hsubscribed
  · rcases exists_of_insert hsubscribed with hmem | hbefore
    · exact mem_subscribers_streamOrNew (mem_mapValues_iff.mp hmem)
    · exact hbefore

theorem subscribed_handleSubscribe {subscriber streamName pattern : Bytes} {attributes : Headers}
    {now : Int} {after : StreamManager}
    (hafter : sm.handleSubscribe subscriber streamName pattern attributes now = .ok after)
    (hsubscribed : after.Subscribed clientID) : clientID = subscriber ∨ sm.Subscribed clientID := by
  unfold handleSubscribe at hafter
  split at hafter
  · cases hafter
  · cases hafter
    rcases exists_of_insert hsubscribed with hmem | hbefore
    · rcases (AList.mem_insert _).mp hmem with heq | hmem'
      · exact Or.inl heq
      · exact Or.inr (mem_subscribers_streamOrNew hmem')
    · exact Or.inr hbefore

theorem subscribed_handleRemoveClient {gone : Bytes} {now : Int}
    (hsubscribed : (sm.handleRemoveClient gone now).Subscribed clientID) :
    clientID ≠ gone ∧ sm.Subscribed clientID := by
  obtain ⟨name, after, hlookup, hmem⟩ := hsubscribed
  obtain ⟨before, hbefore, rfl⟩ := lookup_of_retain_mapValues hlookup
  obtain ⟨hne, hmem'⟩ := AList.mem_erase.mp hmem
  exact ⟨hne, name, before, hbefore, hmem'⟩

theorem subscribed_cleanupExpiredMessages {now : Int}
    (hsubscribed : (sm.cleanupExpiredMessages now).Subscribed clientID) :
    sm.Subscribed clientID := by
  obtain ⟨name, after, hlookup, hmem⟩ := hsubscribed
  obtain ⟨before, hbefore, rfl⟩ := lookup_of_retain_mapValues hlookup
  exact ⟨name, before, hbefore, hmem⟩

end Subscribed

end Zmq4.MalamuteStream

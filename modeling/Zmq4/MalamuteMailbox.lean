import Mathlib.Data.UInt
import Zmq4.ActionRuns
import Zmq4.KeyedMaps
import Zmq4.MalamuteMessages

/-!
The mailbox manager of a Malamute broker: messages are delivered to mailboxes,
received from them by their owners, and expire.  The readings of the clock within
one operation are taken to be one.  The creation times and the retry counters,
which nothing reads, are left out.
-/

namespace Zmq4.MalamuteMailbox

open ByteCodec ActionRuns KeyedMaps
open DuplexProgram (Err)
open DafkaMessages (Headers)
open MalamuteMessages (maxMessageSize)

def maxMailboxName : Nat := 255

def maxMailboxBacklog : Nat := 10000

/-- The serial number says which of the deliveries the message came with.  It is
not in the program, whose identifier is a 64-bit word. -/
structure MailboxMessage where
  id : UInt64
  serial : Nat
  subject : Bytes
  sender : Bytes
  tracker : Bytes
  attributes : Headers
  body : Bytes
  timestamp : Int
  timeout : Int

structure Mailbox where
  messages : List MailboxMessage := []
  owner : Bytes := []
  attributes : Headers
  lastActivity : Int
  messageCount : UInt64 := 0
  bytesStored : UInt64 := 0

structure MailboxManager where
  maxMailboxes : Int
  retention : Int
  mailboxes : KeyedMap Bytes Mailbox := ∅
  messageID : UInt64 := 0

structure MailboxDelivery where
  address : Bytes
  subject : Bytes
  sender : Bytes
  tracker : Bytes
  body : Bytes
  attributes : Headers
  timeout : Int
  timestamp : Int

def MailboxDelivery.message (delivery : MailboxDelivery) (id : UInt64) (serial : Nat) :
    MailboxMessage where
  id := id
  serial := serial
  subject := delivery.subject
  sender := delivery.sender
  tracker := delivery.tracker
  attributes := delivery.attributes
  body := delivery.body
  timestamp := delivery.timestamp
  timeout := delivery.timestamp + delivery.timeout

def sendMessage (delivery : MailboxDelivery) : Except Err MailboxDelivery :=
  if delivery.address.length = 0 ∨ delivery.address.length > maxMailboxName then
    .error (.text ("invalid mailbox address length: " ++ toString delivery.address.length))
  else if delivery.body.length > maxMessageSize then
    .error (.text ("message too large: " ++ toString delivery.body.length ++ " bytes"))
  else .ok delivery

def takeMessage (now : Int) : List MailboxMessage → Option (MailboxMessage × List MailboxMessage)
  | [] => none
  | message :: rest =>
    if message.timeout > now then some (message, rest)
    else (takeMessage now rest).map fun taken => (taken.1, message :: taken.2)

namespace Mailbox

def store (mailbox : Mailbox) (message : MailboxMessage) (now : Int) : Mailbox :=
  let mailbox := { mailbox with
    messages := mailbox.messages ++ [message]
    messageCount := mailbox.messageCount + 1
    bytesStored := mailbox.bytesStored + UInt64.ofNat message.body.length
    lastActivity := now }
  if mailbox.messages.length > maxMailboxBacklog then
    match mailbox.messages with
    | [] => mailbox
    | removed :: messages =>
      { mailbox with
        messages, bytesStored := mailbox.bytesStored - UInt64.ofNat removed.body.length }
  else mailbox

def dropExpired (mailbox : Mailbox) (now : Int) : Mailbox :=
  { mailbox with
    messages := mailbox.messages.filter fun message => decide (message.timeout > now)
    bytesStored := mailbox.messages.foldl (fun stored message =>
      if message.timeout > now then stored else stored - UInt64.ofNat message.body.length)
      mailbox.bytesStored }

end Mailbox

namespace MailboxManager

def Refuses (mm : MailboxManager) (address : Bytes) : Prop :=
  address ∉ mm.mailboxes ∧ (mm.mailboxes.keys.length : Int) ≥ mm.maxMailboxes

instance (mm : MailboxManager) (address : Bytes) : Decidable (mm.Refuses address) :=
  inferInstanceAs (Decidable (_ ∧ _))

def processDelivery (mm : MailboxManager) (delivery : MailboxDelivery) (serial : Nat) (now : Int) :
    MailboxManager :=
  if mm.Refuses delivery.address then mm
  else
    let mailbox := (mm.mailboxes.lookup delivery.address).getD
      { attributes := ∅, lastActivity := now }
    let message := delivery.message (mm.messageID + 1) serial
    { mm with
      messageID := mm.messageID + 1
      mailboxes := mm.mailboxes.insert delivery.address (mailbox.store message now) }

def handleReceive (mm : MailboxManager) (clientID address : Bytes) (now : Int) :
    Except Err (Option MailboxMessage) × MailboxManager :=
  match mm.mailboxes.lookup address with
  | none => (.error (.text ("mailbox not found: " ++ showBytes address)), mm)
  | some mailbox =>
    if mailbox.owner ≠ [] ∧ mailbox.owner ≠ clientID then
      (.error (.text ("access denied to mailbox: " ++ showBytes address)), mm)
    else
      let owner := if mailbox.owner = [] then clientID else mailbox.owner
      match takeMessage now mailbox.messages with
      | none =>
        (.ok none, { mm with
          mailboxes := mm.mailboxes.insert address { mailbox with owner } })
      | some (message, messages) =>
        (.ok (some message), { mm with
          mailboxes := mm.mailboxes.insert address { mailbox with
            owner, messages, lastActivity := now
            bytesStored := mailbox.bytesStored - UInt64.ofNat message.body.length } })

def handleCreate (mm : MailboxManager) (address owner : Bytes) (attributes : Headers)
    (now : Int) : Except Err MailboxManager :=
  if (mm.mailboxes.keys.length : Int) ≥ mm.maxMailboxes then
    .error (.text "maximum mailboxes exceeded")
  else if address ∈ mm.mailboxes then
    .error (.text ("mailbox already exists: " ++ showBytes address))
  else .ok { mm with
    mailboxes := mm.mailboxes.insert address { owner, attributes, lastActivity := now } }

def handleRemoveClient (mm : MailboxManager) (clientID : Bytes) : MailboxManager :=
  { mm with mailboxes := retain (fun _ mailbox => !decide (mailbox.owner = clientID)) mm.mailboxes }

def cleanupExpiredMessages (mm : MailboxManager) (now : Int) : MailboxManager :=
  { mm with
    mailboxes := retain (fun _ mailbox => !decide (mailbox.messages.length = 0 ∧
        now - mailbox.lastActivity > mm.retention))
      (mapValues (fun _ mailbox => mailbox.dropExpired now) mm.mailboxes) }

end MailboxManager

inductive Operation
  | deliver (delivery : MailboxDelivery) (now : Int)
  | receive (clientID address : Bytes) (now : Int)
  | create (address owner : Bytes) (attributes : Headers) (now : Int)
  | removeClient (clientID : Bytes) (now : Int)
  | cleanup (now : Int)

def Operation.now : Operation → Int
  | .deliver _ now | .receive _ _ now | .create _ _ _ now | .removeClient _ now | .cleanup now => now

/-- The client that receives or is removed.  A mailbox may be created without an
owner. -/
def Operation.clientID : Operation → Option Bytes
  | .receive clientID _ _ | .removeClient clientID _ => some clientID
  | .deliver _ _ | .create _ _ _ _ | .cleanup _ => none

structure Receipt where
  address : Bytes
  clientID : Bytes
  message : MailboxMessage

/-- The manager after some operations, with the deliveries that were stored, the
messages that were returned, and the time. -/
structure Office where
  manager : MailboxManager
  delivered : List MailboxDelivery := []
  received : List Receipt := []
  clock : Int

def start (maxMailboxes retention clock : Int) : Office :=
  { manager := { maxMailboxes, retention }, clock }

namespace Office

def deliver (s : Office) (delivery : MailboxDelivery) (now : Int) : Office :=
  match sendMessage delivery with
  | .error _ => s
  | .ok delivery =>
    if s.manager.Refuses delivery.address then s
    else { s with
      manager := s.manager.processDelivery delivery s.delivered.length now
      delivered := s.delivered ++ [delivery] }

def receive (s : Office) (clientID address : Bytes) (now : Int) : Office :=
  match s.manager.handleReceive clientID address now with
  | (.ok (some message), manager) =>
    { s with manager, received := s.received ++ [{ address, clientID, message }] }
  | (_, manager) => { s with manager }

def operate (s : Office) : Operation → Office
  | .deliver delivery now => s.deliver delivery now
  | .receive clientID address now => s.receive clientID address now
  | .create address owner attributes now =>
    { s with
      manager := (s.manager.handleCreate address owner attributes now).toOption.getD s.manager }
  | .removeClient clientID _ => { s with manager := s.manager.handleRemoveClient clientID }
  | .cleanup now => { s with manager := s.manager.cleanupExpiredMessages now }

/-- The clock does not go back, and the ids of clients are not empty. -/
def step (s : Office) (operation : Operation) : Option Office :=
  if s.clock ≤ operation.now ∧ operation.clientID ≠ some [] then
    some ({ s with clock := operation.now }.operate operation)
  else none

end Office

def bodyBytes (messages : List MailboxMessage) : Nat :=
  (messages.map fun message => message.body.length).sum

def SentTo (deliveries : List MailboxDelivery) (address : Bytes) (message : MailboxMessage) :
    Prop :=
  ∃ delivery, deliveries[message.serial]? = some delivery ∧ delivery.address = address ∧
    delivery.body.length ≤ maxMessageSize ∧
    message = delivery.message (UInt64.ofNat (message.serial + 1)) message.serial

/-- What a mailbox holds: messages sent to its address in the order of their
deliveries, and a count of their bytes. -/
structure Holds (deliveries : List MailboxDelivery) (address : Bytes)
    (messages : List MailboxMessage) (bytesStored : UInt64) : Prop where
  sent : ∀ message ∈ messages, SentTo deliveries address message
  sorted : messages.Pairwise fun earlier later => earlier.serial < later.serial
  bytes : bytesStored = UInt64.ofNat (bodyBytes messages)

variable {left : List MailboxMessage} {delivery : MailboxDelivery}

section Holds

variable {deliveries : List MailboxDelivery} {address : Bytes} {messages : List MailboxMessage}
  {bytesStored : UInt64} {message : MailboxMessage}

theorem bodyBytes_cons (message : MailboxMessage) (rest : List MailboxMessage) :
    bodyBytes (message :: rest) = message.body.length + bodyBytes rest :=
  List.sum_cons

theorem bodyBytes_append (before after : List MailboxMessage) :
    bodyBytes (before ++ after) = bodyBytes before + bodyBytes after := by
  rw [bodyBytes, List.map_append, List.sum_append]
  rfl

theorem SentTo.serial_lt (hsent : SentTo deliveries address message) :
    message.serial < deliveries.length := by
  obtain ⟨delivery, hdelivery, -⟩ := hsent
  exact (List.getElem?_eq_some_iff.mp hdelivery).1

theorem SentTo.append (hsent : SentTo deliveries address message)
    (more : List MailboxDelivery) : SentTo (deliveries ++ more) address message := by
  have hlt := hsent.serial_lt
  obtain ⟨delivery, hdelivery, hrest⟩ := hsent
  refine ⟨delivery, ?_, hrest⟩
  rwa [List.getElem?_append_left hlt]

theorem SentTo.body_le (hsent : SentTo deliveries address message) :
    message.body.length ≤ maxMessageSize := by
  obtain ⟨delivery, -, -, hsize, hmessage⟩ := hsent
  rw [hmessage]
  exact hsize

theorem SentTo.id_eq (hsent : SentTo deliveries address message) :
    message.id = UInt64.ofNat (message.serial + 1) := by
  obtain ⟨delivery, -, -, -, hmessage⟩ := hsent
  rw [hmessage]
  rfl

theorem SentTo.address_eq {other : Bytes} {twin : MailboxMessage}
    (hsent : SentTo deliveries address message) (htwin : SentTo deliveries other twin)
    (hserial : message.serial = twin.serial) : address = other := by
  obtain ⟨delivery, hdelivery, haddress, -⟩ := hsent
  obtain ⟨delivery', hdelivery', haddress', -⟩ := htwin
  rw [hserial, hdelivery'] at hdelivery
  cases hdelivery
  exact haddress.symm.trans haddress'

theorem Holds.append (hholds : Holds deliveries address messages bytesStored)
    (haddress : delivery.address = address) (hsize : delivery.body.length ≤ maxMessageSize) :
    Holds (deliveries ++ [delivery]) address
      (messages ++ [delivery.message (UInt64.ofNat (deliveries.length + 1)) deliveries.length])
      (bytesStored + UInt64.ofNat delivery.body.length) := by
  refine ⟨?_, ?_, ?_⟩
  · intro message hmem
    rcases List.mem_append.mp hmem with hold | hnew
    · exact (hholds.sent message hold).append _
    · rw [List.mem_singleton.mp hnew]
      exact ⟨delivery, List.getElem?_concat_length, haddress, hsize, rfl⟩
  · refine List.pairwise_append.mpr ⟨hholds.sorted, List.pairwise_singleton _ _, ?_⟩
    intro earlier hearlier later hlater
    rw [List.mem_singleton.mp hlater]
    exact (hholds.sent earlier hearlier).serial_lt
  · rw [hholds.bytes, bodyBytes_append, UInt64.ofNat_add]
    rfl

theorem Holds.remove {before after : List MailboxMessage}
    (hholds : Holds deliveries address (before ++ message :: after) bytesStored) :
    Holds deliveries address (before ++ after)
      (bytesStored - UInt64.ofNat message.body.length) := by
  have hsublist : (before ++ after).Sublist (before ++ message :: after) :=
    (List.Sublist.refl before).append (List.sublist_cons_self message after)
  refine ⟨fun kept hmem => hholds.sent kept (hsublist.subset hmem),
    hholds.sorted.sublist hsublist, ?_⟩
  have htotal : bodyBytes (before ++ message :: after) =
      bodyBytes (before ++ after) + message.body.length := by
    rw [bodyBytes_append, bodyBytes_append, bodyBytes_cons]
    omega
  rw [hholds.bytes, htotal, UInt64.ofNat_add, UInt64.add_sub_cancel]

theorem foldl_dropped (now : Int) (messages : List MailboxMessage) (others : Nat) :
    messages.foldl (fun stored message => if message.timeout > now then stored
        else stored - UInt64.ofNat message.body.length)
      (UInt64.ofNat (others + bodyBytes messages)) =
    UInt64.ofNat (others +
      bodyBytes (messages.filter fun message => decide (message.timeout > now))) := by
  induction messages generalizing others with
  | nil => rfl
  | cons message rest ih =>
    rw [List.foldl_cons, bodyBytes_cons, List.filter_cons]
    by_cases halive : message.timeout > now
    · rw [if_pos halive, if_pos (decide_eq_true halive), bodyBytes_cons, ← Nat.add_assoc, ih,
        Nat.add_assoc]
    · rw [if_neg halive, if_neg (by simpa using halive), ← ih,
        Nat.add_comm message.body.length, ← Nat.add_assoc, UInt64.ofNat_add _ message.body.length,
        UInt64.add_sub_cancel]

theorem Holds.dropExpired {mailbox : Mailbox}
    (hholds : Holds deliveries address mailbox.messages mailbox.bytesStored) (now : Int) :
    Holds deliveries address (mailbox.dropExpired now).messages
      (mailbox.dropExpired now).bytesStored := by
  have hsublist : (mailbox.dropExpired now).messages.Sublist mailbox.messages :=
    List.filter_sublist
  refine ⟨fun kept hmem => hholds.sent kept (hsublist.subset hmem),
    hholds.sorted.sublist hsublist, ?_⟩
  have hbytes := foldl_dropped now mailbox.messages 0
  rw [Nat.zero_add, Nat.zero_add, ← hholds.bytes] at hbytes
  exact hbytes

theorem bodyBytes_le (hsize : ∀ message ∈ messages, message.body.length ≤ maxMessageSize) :
    bodyBytes messages ≤ messages.length * maxMessageSize := by
  induction messages with
  | nil => exact Nat.zero_le _
  | cons message rest ih =>
    have hfirst := hsize message List.mem_cons_self
    have hrest := ih fun later hlater => hsize later (List.mem_cons_of_mem message hlater)
    rw [bodyBytes_cons, List.length_cons, Nat.succ_mul]
    omega

theorem Holds.bytesStored_toNat (hholds : Holds deliveries address messages bytesStored)
    (hbacklog : messages.length ≤ maxMailboxBacklog) :
    bytesStored.toNat = bodyBytes messages := by
  have hsize := bodyBytes_le fun message hmem => (hholds.sent message hmem).body_le
  have hmost : messages.length * maxMessageSize ≤ maxMailboxBacklog * maxMessageSize :=
    Nat.mul_le_mul_right _ hbacklog
  have hfits : maxMailboxBacklog * maxMessageSize < 2 ^ 64 := by decide
  rw [hholds.bytes, UInt64.toNat_ofNat']
  exact Nat.mod_eq_of_lt (by omega)

theorem takeMessage_eq_some {now : Int} (htake : takeMessage now messages = some (message, left)) :
    ∃ skipped rest, messages = skipped ++ message :: rest ∧ left = skipped ++ rest ∧
      (∀ late ∈ skipped, late.timeout ≤ now) ∧ now < message.timeout := by
  induction messages generalizing left with
  | nil => cases htake
  | cons first rest ih =>
    rw [takeMessage] at htake
    split at htake
    · next halive =>
        cases htake
        exact ⟨[], rest, rfl, rfl, fun _ hmem => absurd hmem List.not_mem_nil, halive⟩
    · next hexpired =>
        obtain ⟨⟨taken, others⟩, htail, heq⟩ := Option.map_eq_some_iff.mp htake
        cases heq
        obtain ⟨skipped, after, rfl, rfl, hskipped, halive⟩ := ih htail
        refine ⟨first :: skipped, after, rfl, rfl, ?_, halive⟩
        exact List.forall_mem_cons.mpr ⟨not_lt.mp hexpired, hskipped⟩

theorem store_cases (mailbox : Mailbox) (message : MailboxMessage) (now : Int) :
    (mailbox.messages.length < maxMailboxBacklog ∧
      (mailbox.store message now).messages = mailbox.messages ++ [message] ∧
      (mailbox.store message now).bytesStored =
        mailbox.bytesStored + UInt64.ofNat message.body.length) ∨
    (maxMailboxBacklog ≤ mailbox.messages.length ∧ ∃ oldest rest,
      mailbox.messages = oldest :: rest ∧
      (mailbox.store message now).messages = rest ++ [message] ∧
      (mailbox.store message now).bytesStored =
        mailbox.bytesStored + UInt64.ofNat message.body.length -
          UInt64.ofNat oldest.body.length) := by
  have hlength : (mailbox.messages ++ [message]).length = mailbox.messages.length + 1 :=
    List.length_append
  unfold Mailbox.store
  dsimp only
  split
  · next hfull =>
      right
      rw [hlength] at hfull
      rcases hmessages : mailbox.messages with _ | ⟨oldest, rest⟩
      · rw [hmessages] at hfull
        exact absurd hfull (by decide)
      · rw [hmessages] at hfull
        exact ⟨Nat.le_of_lt_succ hfull, oldest, rest, rfl, rfl, rfl⟩
  · next hroom =>
      left
      rw [hlength] at hroom
      exact ⟨by omega, rfl, rfl⟩

end Holds

/-- A mailbox of the manager: what was received from its address comes before all
that is stored in it and can still be received. -/
structure Office.Stores (s : Office) (address : Bytes) (mailbox : Mailbox) : Prop where
  holds : Holds s.delivered address mailbox.messages mailbox.bytesStored
  backlog : mailbox.messages.length ≤ maxMailboxBacklog
  later : ∀ receipt ∈ s.received, receipt.address = address → ∀ message ∈ mailbox.messages,
    receipt.message.serial < message.serial ∨ message.timeout ≤ s.clock

structure Office.Ordered (s : Office) : Prop where
  counter : s.manager.messageID = UInt64.ofNat s.delivered.length
  stores : ∀ address mailbox, s.manager.mailboxes.lookup address = some mailbox →
    s.Stores address mailbox
  receipts : ∀ receipt ∈ s.received, SentTo s.delivered receipt.address receipt.message
  increasing : s.received.Pairwise fun earlier later =>
    earlier.address = later.address → earlier.message.serial < later.message.serial

variable {after : Mailbox}

section Operations

variable {s : Office} {delivery : MailboxDelivery} {clientID address : Bytes} {now : Int}

theorem deliver_cases (s : Office) (delivery : MailboxDelivery) (now : Int) :
    s.deliver delivery now = s ∨
      (delivery.body.length ≤ maxMessageSize ∧
        s.deliver delivery now = { s with
          delivered := s.delivered ++ [delivery]
          manager := { s.manager with
            messageID := s.manager.messageID + 1
            mailboxes := s.manager.mailboxes.insert delivery.address
              (((s.manager.mailboxes.lookup delivery.address).getD
                { attributes := ∅, lastActivity := now }).store
                (delivery.message (s.manager.messageID + 1) s.delivered.length) now) } }) := by
  unfold Office.deliver sendMessage
  split_ifs with hname hsize
  · exact Or.inl rfl
  · exact Or.inl rfl
  · dsimp only
    split
    · exact Or.inl rfl
    · next hroom =>
        right
        rw [MailboxManager.processDelivery, if_neg hroom]
        exact ⟨not_lt.mp hsize, rfl⟩

theorem receive_cases (s : Office) (clientID address : Bytes) (now : Int) :
    s.receive clientID address now = s ∨ ∃ mailbox,
      s.manager.mailboxes.lookup address = some mailbox ∧
      (mailbox.owner = clientID ∨ mailbox.owner = []) ∧
      (s.receive clientID address now = { s with manager := { s.manager with
          mailboxes := s.manager.mailboxes.insert address { mailbox with owner := clientID } } } ∨
        ∃ message left, takeMessage now mailbox.messages = some (message, left) ∧
          s.receive clientID address now = { s with
            received := s.received ++ [{ address, clientID, message }]
            manager := { s.manager with
              mailboxes := s.manager.mailboxes.insert address { mailbox with
                owner := clientID
                messages := left
                lastActivity := now
                bytesStored := mailbox.bytesStored - UInt64.ofNat message.body.length } } }) := by
  unfold Office.receive MailboxManager.handleReceive
  rcases hlookup : s.manager.mailboxes.lookup address with _ | mailbox
  · exact Or.inl rfl
  · dsimp only
    by_cases hdenied : mailbox.owner ≠ [] ∧ mailbox.owner ≠ clientID
    · rw [if_pos hdenied]
      exact Or.inl rfl
    · rw [if_neg hdenied]
      have howner : (if mailbox.owner = [] then clientID else mailbox.owner) = clientID := by
        split
        · rfl
        · next hset => exact not_not.mp (not_and.mp hdenied hset)
      refine Or.inr ⟨mailbox, rfl, ?_, ?_⟩
      · by_cases hnone : mailbox.owner = []
        · exact Or.inr hnone
        · exact Or.inl (not_not.mp (not_and.mp hdenied hnone))
      · rw [howner]
        rcases takeMessage now mailbox.messages with _ | ⟨message, left⟩
        · exact Or.inl rfl
        · exact Or.inr ⟨message, left, rfl, rfl⟩

theorem create_cases (mm : MailboxManager) (address owner : Bytes) (attributes : Headers)
    (now : Int) :
    (mm.handleCreate address owner attributes now).toOption.getD mm = mm ∨
      (mm.mailboxes.lookup address = none ∧
        (mm.handleCreate address owner attributes now).toOption.getD mm = { mm with
          mailboxes := mm.mailboxes.insert address { owner, attributes, lastActivity := now } }) := by
  unfold MailboxManager.handleCreate
  split
  · exact Or.inl rfl
  · split
    · exact Or.inl rfl
    · next hnew => exact Or.inr ⟨AList.lookup_eq_none.mpr hnew, rfl⟩

variable {mm : MailboxManager}

theorem lookup_removeClient {gone : Bytes} {mailbox : Mailbox} :
    (mm.handleRemoveClient gone).mailboxes.lookup address = some mailbox ↔
      mm.mailboxes.lookup address = some mailbox ∧ mailbox.owner ≠ gone := by
  rw [MailboxManager.handleRemoveClient, lookup_retain_eq_some_iff]
  simp

theorem lookup_cleanup :
    (mm.cleanupExpiredMessages now).mailboxes.lookup address = some after ↔
      ∃ before, mm.mailboxes.lookup address = some before ∧ after = before.dropExpired now ∧
        ¬ (after.messages.length = 0 ∧ now - after.lastActivity > mm.retention) := by
  rw [MailboxManager.cleanupExpiredMessages, lookup_retain_eq_some_iff, lookup_mapValues,
    Option.map_eq_some_iff, Bool.not_eq_true', decide_eq_false_iff_not]
  constructor
  · rintro ⟨⟨before, hbefore, rfl⟩, hkept⟩
    exact ⟨before, hbefore, rfl, hkept⟩
  · rintro ⟨before, hbefore, rfl, hkept⟩
    exact ⟨⟨before, hbefore, rfl⟩, hkept⟩

end Operations

variable {s' : Office}

section Invariant

variable {s : Office} {address : Bytes} {mailbox : Mailbox}

theorem Office.Ordered.advance (hs : s.Ordered) {now : Int} (hnow : s.clock ≤ now) :
    Office.Ordered { s with clock := now } := by
  refine ⟨hs.counter, ?_, hs.receipts, hs.increasing⟩
  intro address mailbox hlookup
  obtain ⟨hholds, hbacklog, hlater⟩ := hs.stores address mailbox hlookup
  refine ⟨hholds, hbacklog, ?_⟩
  intro receipt hreceipt haddress message hmem
  exact (hlater receipt hreceipt haddress message hmem).imp_right fun hexpired =>
    hexpired.trans hnow

theorem ordered_insert (hcounter : s.manager.messageID = UInt64.ofNat s.delivered.length)
    (hothers : ∀ other mailbox, other ≠ address →
      s.manager.mailboxes.lookup other = some mailbox → s.Stores other mailbox)
    (hreceipts : ∀ receipt ∈ s.received, SentTo s.delivered receipt.address receipt.message)
    (hincreasing : s.received.Pairwise fun earlier later =>
      earlier.address = later.address → earlier.message.serial < later.message.serial)
    (hafter : s.Stores address after) :
    Office.Ordered { s with manager := { s.manager with
      mailboxes := s.manager.mailboxes.insert address after } } := by
  refine ⟨hcounter, ?_, hreceipts, hincreasing⟩
  intro other mailbox hlookup
  change (s.manager.mailboxes.insert address after).lookup other = some mailbox at hlookup
  rw [lookup_insert_eq] at hlookup
  split at hlookup
  · next heq =>
      cases hlookup
      rw [heq]
      exact ⟨hafter.holds, hafter.backlog, hafter.later⟩
  · next hne =>
      obtain ⟨hholds, hbacklog, hlater⟩ := hothers other mailbox hne hlookup
      exact ⟨hholds, hbacklog, hlater⟩

theorem Office.Ordered.insert (hs : s.Ordered) (hafter : s.Stores address after) :
    Office.Ordered { s with manager := { s.manager with
      mailboxes := s.manager.mailboxes.insert address after } } :=
  ordered_insert hs.counter (fun other mailbox _ => hs.stores other mailbox) hs.receipts
    hs.increasing hafter

theorem stores_empty (s : Office) (address : Bytes) (hmessages : mailbox.messages = [])
    (hbytes : mailbox.bytesStored = 0) :
    s.Stores address mailbox := by
  refine ⟨?_, ?_, ?_⟩
  · rw [hmessages, hbytes]
    exact ⟨fun _ hmem => absurd hmem List.not_mem_nil, .nil, rfl⟩
  · rw [hmessages]
    exact Nat.zero_le _
  · rw [hmessages]
    exact fun _ _ _ _ hmem => absurd hmem List.not_mem_nil

theorem stores_store (hs : s.Ordered) (hsize : delivery.body.length ≤ maxMessageSize)
    (hmailbox : s.Stores delivery.address mailbox) (now : Int) :
    Office.Stores { s with delivered := s.delivered ++ [delivery] } delivery.address
      (mailbox.store (delivery.message (s.manager.messageID + 1) s.delivered.length) now) := by
  have hid : s.manager.messageID + 1 = UInt64.ofNat (s.delivered.length + 1) := by
    rw [hs.counter, UInt64.ofNat_add]
    rfl
  have hfull := hmailbox.holds.append rfl hsize
  rw [← hid] at hfull
  have hlater : ∀ receipt ∈ s.received, receipt.address = delivery.address →
      ∀ message ∈ mailbox.messages ++
        [delivery.message (s.manager.messageID + 1) s.delivered.length],
      receipt.message.serial < message.serial ∨ message.timeout ≤ s.clock := by
    intro receipt hreceipt haddress message hmem
    rcases List.mem_append.mp hmem with hold | hnew
    · exact hmailbox.later receipt hreceipt haddress message hold
    · rw [List.mem_singleton.mp hnew]
      exact Or.inl (hs.receipts receipt hreceipt).serial_lt
  rcases store_cases mailbox (delivery.message (s.manager.messageID + 1) s.delivered.length) now with
    ⟨hroom, hmessages, hbytes⟩ | ⟨hmost, oldest, rest, hsplit, hmessages, hbytes⟩
  · refine ⟨?_, ?_, ?_⟩
    · rw [hmessages, hbytes]
      exact hfull
    · rw [hmessages, List.length_append]
      exact hroom
    · rw [hmessages]
      exact hlater
  · rw [hsplit, List.cons_append] at hfull hlater
    refine ⟨?_, ?_, ?_⟩
    · rw [hmessages, hbytes]
      exact (show Holds _ _ ([] ++ _ :: _) _ from hfull).remove
    · have hbacklog := hmailbox.backlog
      rw [hsplit, List.length_cons] at hbacklog
      rw [hmessages, List.length_append]
      exact hbacklog
    · rw [hmessages]
      exact fun receipt hreceipt haddress message hmem =>
        hlater receipt hreceipt haddress message (List.mem_cons_of_mem oldest hmem)

theorem ordered_deliver (hs : s.Ordered) (delivery : MailboxDelivery) (now : Int) :
    (s.deliver delivery now).Ordered := by
  rcases deliver_cases s delivery now with hsame | ⟨hsize, hdeliver⟩
  · rwa [hsame]
  · rw [hdeliver]
    have hgrown : Office.Ordered { s with
        delivered := s.delivered ++ [delivery]
        manager := { s.manager with messageID := s.manager.messageID + 1 } } := by
      refine ⟨?_, ?_, fun receipt hmem => (hs.receipts receipt hmem).append _, hs.increasing⟩
      · change s.manager.messageID + 1 = UInt64.ofNat (s.delivered ++ [delivery]).length
        rw [hs.counter, List.length_append, UInt64.ofNat_add]
        rfl
      · intro other mailbox hlookup
        obtain ⟨hholds, hbacklog, hlater⟩ := hs.stores other mailbox hlookup
        exact ⟨⟨fun message hmem => (hholds.sent message hmem).append _, hholds.sorted,
          hholds.bytes⟩, hbacklog, hlater⟩
    have hfound : s.Stores delivery.address ((s.manager.mailboxes.lookup delivery.address).getD
        { attributes := ∅, lastActivity := now }) := by
      rcases hlookup : s.manager.mailboxes.lookup delivery.address with _ | mailbox
      · exact stores_empty s _ rfl rfl
      · exact hs.stores _ mailbox hlookup
    obtain ⟨hholds, hbacklog, hlater⟩ := stores_store hs hsize hfound now
    exact hgrown.insert ⟨hholds, hbacklog, hlater⟩

/-- What is returned is later than all that was returned from the mailbox, and
earlier than all that can still be returned. -/
theorem taken_between {message : MailboxMessage} (hmailbox : s.Stores address mailbox)
    (htake : takeMessage s.clock mailbox.messages = some (message, left)) :
    (∀ receipt ∈ s.received, receipt.address = address →
      receipt.message.serial < message.serial) ∧
    ∀ kept ∈ left, message.serial < kept.serial ∨ kept.timeout ≤ s.clock := by
  obtain ⟨skipped, rest, hsplit, rfl, hskipped, halive⟩ := takeMessage_eq_some htake
  obtain ⟨hholds, -, hlater⟩ := hmailbox
  rw [hsplit] at hholds hlater
  constructor
  · intro receipt hreceipt haddress
    rcases hlater receipt hreceipt haddress message
      (List.mem_append_right skipped List.mem_cons_self) with hlt | hexpired
    · exact hlt
    · exact absurd halive (not_lt.mpr hexpired)
  · intro kept hkept
    rcases List.mem_append.mp hkept with hlate | hnext
    · exact Or.inr (hskipped kept hlate)
    · have hsorted := (List.pairwise_append.mp hholds.sorted).2.1
      exact Or.inl ((List.pairwise_cons.mp hsorted).1 kept hnext)

theorem stores_left {clientID : Bytes} {message : MailboxMessage}
    (hmailbox : s.Stores address mailbox)
    (htake : takeMessage s.clock mailbox.messages = some (message, left)) :
    Office.Stores { s with received := s.received ++ [{ address, clientID, message }] } address
      { mailbox with
        owner := clientID
        messages := left
        lastActivity := s.clock
        bytesStored := mailbox.bytesStored - UInt64.ofNat message.body.length } := by
  obtain ⟨-, hrest⟩ := taken_between hmailbox htake
  obtain ⟨hholds, hbacklog, hlater⟩ := hmailbox
  obtain ⟨skipped, rest, hsplit, rfl, -, -⟩ := takeMessage_eq_some htake
  have hsublist : (skipped ++ rest).Sublist mailbox.messages := by
    rw [hsplit]
    exact (List.Sublist.refl skipped).append (List.sublist_cons_self message rest)
  refine ⟨?_, hsublist.length_le.trans hbacklog, ?_⟩
  · rw [hsplit] at hholds
    exact hholds.remove
  · intro receipt hreceipt haddress kept hkept
    rcases List.mem_append.mp hreceipt with hold | hnew
    · exact hlater receipt hold haddress kept (hsublist.subset hkept)
    · rw [List.mem_singleton.mp hnew]
      exact hrest kept hkept

theorem takeMessage_mem {now : Int} {messages : List MailboxMessage} {message : MailboxMessage}
    (htake : takeMessage now messages = some (message, left)) :
    message ∈ messages := by
  obtain ⟨skipped, rest, rfl, -⟩ := takeMessage_eq_some htake
  exact List.mem_append_right skipped List.mem_cons_self

theorem ordered_receive (hs : s.Ordered) (clientID address : Bytes) :
    (s.receive clientID address s.clock).Ordered := by
  rcases receive_cases s clientID address s.clock with
    hsame | ⟨mailbox, hlookup, -, howned | ⟨message, left, htake, hreceive⟩⟩
  · rwa [hsame]
  · rw [howned]
    obtain ⟨hholds, hbacklog, hlater⟩ := hs.stores address mailbox hlookup
    exact hs.insert ⟨hholds, hbacklog, hlater⟩
  · rw [hreceive]
    have hmailbox := hs.stores address mailbox hlookup
    obtain ⟨hfirst, -⟩ := taken_between hmailbox htake
    refine ordered_insert (s := { s with received := s.received ++ [⟨address, clientID, message⟩] })
      hs.counter ?_ ?_ ?_ (stores_left hmailbox htake)
    · intro other kept hne hother
      obtain ⟨hholds, hbacklog, hlater⟩ := hs.stores other kept hother
      refine ⟨hholds, hbacklog, ?_⟩
      intro receipt hreceipt haddress
      rcases List.mem_append.mp hreceipt with hold | hnew
      · exact hlater receipt hold haddress
      · rw [List.mem_singleton.mp hnew] at haddress
        exact absurd haddress.symm hne
    · refine List.forall_mem_append.mpr ⟨hs.receipts, List.forall_mem_singleton.mpr ?_⟩
      exact hmailbox.holds.sent message (takeMessage_mem htake)
    · refine List.pairwise_append.mpr ⟨hs.increasing, List.pairwise_singleton _ _, ?_⟩
      intro earlier hearlier later hlater haddress
      rw [List.mem_singleton.mp hlater] at haddress ⊢
      exact hfirst earlier hearlier haddress

variable {operation : Operation}

theorem ordered_operate (hs : s.Ordered) (hnow : operation.now = s.clock) :
    (s.operate operation).Ordered := by
  cases operation with
  | deliver delivery now => exact ordered_deliver hs delivery now
  | receive clientID address now =>
    cases hnow
    exact ordered_receive hs clientID address
  | create address owner attributes now =>
    rw [Office.operate]
    rcases create_cases s.manager address owner attributes now with hsame | ⟨-, hcreate⟩
    · rwa [hsame]
    · rw [hcreate]
      exact hs.insert (stores_empty s address rfl rfl)
  | removeClient clientID now =>
    refine ⟨hs.counter, ?_, hs.receipts, hs.increasing⟩
    intro address mailbox hlookup
    obtain ⟨hholds, hbacklog, hlater⟩ :=
      hs.stores address mailbox (lookup_removeClient.mp hlookup).1
    exact ⟨hholds, hbacklog, hlater⟩
  | cleanup now =>
    refine ⟨hs.counter, ?_, hs.receipts, hs.increasing⟩
    intro address after hlookup
    obtain ⟨before, hbefore, rfl, -⟩ := lookup_cleanup.mp hlookup
    obtain ⟨hholds, hbacklog, hlater⟩ := hs.stores address before hbefore
    have hsublist : (before.dropExpired now).messages.Sublist before.messages :=
      List.filter_sublist
    exact ⟨hholds.dropExpired now, hsublist.length_le.trans hbacklog,
      fun receipt hreceipt haddress message hmem =>
        hlater receipt hreceipt haddress message (hsublist.subset hmem)⟩

theorem ordered_run {maxMailboxes retention clock : Int} {operations : List Operation}
    (hrun : run Office.step (start maxMailboxes retention clock) operations = some s) :
    s.Ordered := by
  apply run_keeps _ _ hrun
  · intro s operation s' hs hstep
    obtain ⟨⟨hclock, -⟩, ⟨⟩⟩ := Option.ite_none_right_eq_some.mp hstep
    exact ordered_operate (hs.advance hclock) rfl
  · refine ⟨rfl, ?_, fun _ hmem => absurd hmem List.not_mem_nil, .nil⟩
    intro address mailbox hlookup
    change (∅ : KeyedMap Bytes Mailbox).lookup address = some mailbox at hlookup
    rw [AList.lookup_empty] at hlookup
    cases hlookup

end Invariant

/-- A message is returned to the owner of its mailbox; a mailbox without an owner
belongs to the first client that receives from it. -/
def Office.ReturnsToOwner (s s' : Office) : Prop :=
  s'.received = s.received ∨ ∃ receipt before after,
    s'.received = s.received ++ [receipt] ∧
      s.manager.mailboxes.lookup receipt.address = some before ∧
      receipt.message ∈ before.messages ∧
      (before.owner = receipt.clientID ∨ before.owner = []) ∧
      s'.manager.mailboxes.lookup receipt.address = some after ∧
      after.owner = receipt.clientID

def Office.KeepsOwners (s s' : Office) : Prop :=
  ∀ address before after, s.manager.mailboxes.lookup address = some before →
    s'.manager.mailboxes.lookup address = some after → before.owner ≠ [] →
    after.owner = before.owner

inductive Office.Accounts (s : Office) (operation : Operation) (s' : Office) (address : Bytes)
    (mailbox : Mailbox) (message : MailboxMessage) : Prop
  | stored (after : Mailbox) (hlookup : s'.manager.mailboxes.lookup address = some after)
      (hmem : message ∈ after.messages)
  | returned (clientID : Bytes)
      (hreceived : s'.received = s.received ++ [⟨address, clientID, message⟩])
  | expired (htimeout : message.timeout ≤ operation.now)
  | oldest (delivery : MailboxDelivery) (now : Int) (hdeliver : operation = .deliver delivery now)
      (haddress : delivery.address = address)
      (hfull : mailbox.messages.length = maxMailboxBacklog)
      (hhead : mailbox.messages.head? = some message)
  | ownerRemoved (now : Int) (howner : mailbox.owner ≠ [])
      (hremove : operation = .removeClient mailbox.owner now)

structure Office.Moves (s : Office) (operation : Operation) (s' : Office) : Prop where
  returns : s.ReturnsToOwner s'
  owners : s.KeepsOwners s'
  accounts : ∀ address mailbox message, s.manager.mailboxes.lookup address = some mailbox →
    message ∈ mailbox.messages → s.Accounts operation s' address mailbox message

section Moves

variable {s : Office} {operation : Operation} {address : Bytes} {mailbox : Mailbox}

theorem moves_insert (hreturns : s.ReturnsToOwner s')
    (hmailboxes : s'.manager.mailboxes = s.manager.mailboxes.insert address after)
    (howner : ∀ before, s.manager.mailboxes.lookup address = some before →
      before.owner ≠ [] → after.owner = before.owner)
    (hmessages : ∀ before message, s.manager.mailboxes.lookup address = some before →
      message ∈ before.messages → s.Accounts operation s' address before message) :
    s.Moves operation s' := by
  refine ⟨hreturns, ?_, ?_⟩
  · intro other before later hbefore hlater hset
    rw [hmailboxes, lookup_insert_eq] at hlater
    split at hlater
    · next heq =>
        cases hlater
        exact howner before (heq ▸ hbefore) hset
    · rw [hbefore] at hlater
      cases hlater
      rfl
  · intro other before message hbefore hmem
    by_cases heq : other = address
    · subst heq
      exact hmessages before message hbefore hmem
    · refine .stored before ?_ hmem
      rw [hmailboxes, lookup_insert_eq, if_neg heq]
      exact hbefore

theorem moves_same (hreceived : s'.received = s.received)
    (hmailboxes : s'.manager.mailboxes = s.manager.mailboxes) : s.Moves operation s' := by
  refine ⟨Or.inl hreceived, ?_, ?_⟩
  · intro address before after hbefore hafter _
    rw [hmailboxes, hbefore] at hafter
    cases hafter
    rfl
  · intro address mailbox message hlookup hmem
    exact .stored mailbox (by rw [hmailboxes, hlookup]) hmem

theorem store_owner (mailbox : Mailbox) (message : MailboxMessage) (now : Int) :
    (mailbox.store message now).owner = mailbox.owner := by
  unfold Mailbox.store
  dsimp only
  split
  · split
    · rfl
    · rfl
  · rfl

theorem moves_deliver (hs : s.Ordered) (delivery : MailboxDelivery) (now : Int) :
    s.Moves (.deliver delivery now) ({ s with clock := now }.deliver delivery now) := by
  rcases deliver_cases { s with clock := now } delivery now with hsame | ⟨-, hdeliver⟩
  · rw [hsame]
    exact moves_same rfl rfl
  · rw [hdeliver]
    refine moves_insert (Or.inl rfl) rfl ?_ ?_
    · intro before hbefore _
      rw [store_owner]
      change ((s.manager.mailboxes.lookup delivery.address).getD _).owner = before.owner
      rw [hbefore, Option.getD_some]
    · intro before message hbefore hmem
      have hfound : (s.manager.mailboxes.lookup delivery.address).getD
          { attributes := ∅, lastActivity := now } = before := by
        rw [hbefore, Option.getD_some]
      rcases store_cases before (delivery.message (s.manager.messageID + 1) s.delivered.length)
        now with ⟨-, hmessages, -⟩ | ⟨hmost, oldest, rest, hsplit, hmessages, -⟩
      · refine .stored _ (AList.lookup_insert _) ?_
        dsimp only
        rw [hfound, hmessages]
        exact List.mem_append_left _ hmem
      · rw [hsplit] at hmem
        rcases List.mem_cons.mp hmem with rfl | hrest
        · have hbacklog := (hs.stores _ before hbefore).backlog
          exact .oldest delivery now rfl rfl (le_antisymm hbacklog hmost) (by rw [hsplit]; rfl)
        · refine .stored _ (AList.lookup_insert _) ?_
          dsimp only
          rw [hfound, hmessages]
          exact List.mem_append_left _ hrest

theorem moves_receive (s : Office) (clientID address : Bytes) (now : Int) :
    s.Moves (.receive clientID address now)
      ({ s with clock := now }.receive clientID address now) := by
  rcases receive_cases { s with clock := now } clientID address now with
    hsame | ⟨mailbox, hlookup, howner, howned | ⟨message, left, htake, hreceive⟩⟩
  · rw [hsame]
    exact moves_same rfl rfl
  · rw [howned]
    refine moves_insert (Or.inl rfl) rfl ?_ ?_
    · intro before hbefore hset
      obtain rfl : before = mailbox := Option.some.inj (hbefore.symm.trans hlookup)
      exact (howner.resolve_right hset).symm
    · intro before message hbefore hmem
      obtain rfl : before = mailbox := Option.some.inj (hbefore.symm.trans hlookup)
      exact .stored _ (AList.lookup_insert _) hmem
  · rw [hreceive]
    refine moves_insert (Or.inr ⟨⟨address, clientID, message⟩, mailbox, _, rfl, hlookup,
      takeMessage_mem htake, howner, AList.lookup_insert _, rfl⟩) rfl ?_ ?_
    · intro before hbefore hset
      obtain rfl : before = mailbox := Option.some.inj (hbefore.symm.trans hlookup)
      exact (howner.resolve_right hset).symm
    · intro before kept hbefore hmem
      obtain rfl : before = mailbox := Option.some.inj (hbefore.symm.trans hlookup)
      obtain ⟨skipped, rest, hsplit, rfl, -, -⟩ := takeMessage_eq_some htake
      rw [hsplit] at hmem
      rcases List.mem_append.mp hmem with hskipped | htail
      · exact .stored _ (AList.lookup_insert _) (List.mem_append_left rest hskipped)
      · rcases List.mem_cons.mp htail with rfl | hrest
        · exact .returned clientID rfl
        · exact .stored _ (AList.lookup_insert _) (List.mem_append_right skipped hrest)

theorem moves_step (hs : s.Ordered) (hstep : s.step operation = some s') :
    s.Moves operation s' := by
  obtain ⟨⟨-, hclient⟩, ⟨⟩⟩ := Option.ite_none_right_eq_some.mp hstep
  cases operation with
  | deliver delivery now => exact moves_deliver hs delivery now
  | receive clientID address now => exact moves_receive s clientID address now
  | create address owner attributes now =>
    rw [Office.operate]
    rcases create_cases s.manager address owner attributes now with hsame | ⟨hnew, hcreate⟩
    · exact moves_same rfl (congrArg MailboxManager.mailboxes hsame)
    · refine moves_insert (Or.inl rfl) (congrArg MailboxManager.mailboxes hcreate) ?_ ?_
      · intro before hbefore
        rw [hnew] at hbefore
        cases hbefore
      · intro before message hbefore
        rw [hnew] at hbefore
        cases hbefore
  | removeClient clientID now =>
    refine ⟨Or.inl rfl, ?_, ?_⟩
    · intro address before after hbefore hafter _
      have hkept := (lookup_removeClient.mp hafter).1
      rw [hbefore] at hkept
      cases hkept
      rfl
    · intro address mailbox message hlookup hmem
      by_cases howner : mailbox.owner = clientID
      · subst howner
        exact .ownerRemoved now (fun hempty => hclient (congrArg some hempty)) rfl
      · exact .stored mailbox (lookup_removeClient.mpr ⟨hlookup, howner⟩) hmem
  | cleanup now =>
    refine ⟨Or.inl rfl, ?_, ?_⟩
    · intro address before after hbefore hafter _
      obtain ⟨mailbox, hmailbox, rfl, -⟩ := lookup_cleanup.mp hafter
      rw [hbefore] at hmailbox
      cases hmailbox
      rfl
    · intro address mailbox message hlookup hmem
      by_cases halive : message.timeout > now
      · have hkept : message ∈ (mailbox.dropExpired now).messages :=
          List.mem_filter.mpr ⟨hmem, decide_eq_true halive⟩
        refine .stored _ (lookup_cleanup.mpr ⟨mailbox, hlookup, rfl, ?_⟩) hkept
        rintro ⟨hempty, -⟩
        rw [List.length_eq_zero_iff.mp hempty] at hkept
        exact absurd hkept List.not_mem_nil
      · exact .expired (not_lt.mp halive)

end Moves

/-- The serial numbers and, as long as there are not more than fit, the ids that
were returned from the address. -/
def Office.serialsFrom (s : Office) (address : Bytes) : List Nat :=
  (s.received.filter fun receipt => receipt.address = address).map fun receipt =>
    receipt.message.serial

def Office.idsFrom (s : Office) (address : Bytes) : List UInt64 :=
  (s.received.filter fun receipt => receipt.address = address).map fun receipt =>
    receipt.message.id

structure Office.Exact (s : Office) : Prop where
  sent : ∀ receipt ∈ s.received, SentTo s.delivered receipt.address receipt.message
  once : (s.received.map fun receipt => receipt.message.serial).Nodup
  increasing : ∀ address, (s.serialsFrom address).Pairwise (· < ·)
  ids : s.delivered.length < 2 ^ 64 → ∀ address, (s.idsFrom address).Pairwise (· < ·)
  bytes : ∀ address mailbox, s.manager.mailboxes.lookup address = some mailbox →
    mailbox.bytesStored.toNat = bodyBytes mailbox.messages
  backlog : ∀ address mailbox, s.manager.mailboxes.lookup address = some mailbox →
    mailbox.messages.length ≤ maxMailboxBacklog

theorem Office.Ordered.exact {s : Office} (hs : s.Ordered) : s.Exact := by
  have hfrom : ∀ address, (s.received.filter fun receipt => receipt.address = address).Pairwise
      fun earlier later => earlier.message.serial < later.message.serial := by
    intro address
    apply (hs.increasing.sublist List.filter_sublist).imp_of_mem
    intro earlier later hearlier hlater hlt
    rw [List.mem_filter, decide_eq_true_iff] at hearlier hlater
    exact hlt (hearlier.2.trans hlater.2.symm)
  refine ⟨hs.receipts, ?_, ?_, ?_, ?_, ?_⟩
  · refine List.pairwise_map.mpr (hs.increasing.imp_of_mem ?_)
    intro earlier later hearlier hlater hlt hsame
    have haddress := (hs.receipts earlier hearlier).address_eq (hs.receipts later hlater) hsame
    exact absurd hsame (hlt haddress).ne
  · exact fun address => List.pairwise_map.mpr (hfrom address)
  · intro hcount address
    refine List.pairwise_map.mpr ((hfrom address).imp_of_mem ?_)
    intro earlier later hearlier hlater hlt
    have hsentEarlier := hs.receipts earlier (List.mem_filter.mp hearlier).1
    have hsentLater := hs.receipts later (List.mem_filter.mp hlater).1
    have hbound := hsentLater.serial_lt
    rw [hsentEarlier.id_eq, hsentLater.id_eq, UInt64.lt_iff_toNat_lt, UInt64.toNat_ofNat',
      UInt64.toNat_ofNat', Nat.mod_eq_of_lt (by omega), Nat.mod_eq_of_lt (by omega)]
    omega
  · intro address mailbox hlookup
    have hstores := hs.stores address mailbox hlookup
    exact hstores.holds.bytesStored_toNat hstores.backlog
  · exact fun address mailbox hlookup => (hs.stores address mailbox hlookup).backlog

/-- Each state that the operations lead to is exact about what was delivered,
returned and stored, and each operation from there accounts for every message. -/
theorem mailbox_semantics (maxMailboxes retention clock : Int) (operations : List Operation)
    {s : Office} (hrun : run Office.step (start maxMailboxes retention clock) operations = some s) :
    s.Exact ∧ ∀ operation s', s.step operation = some s' → s.Moves operation s' :=
  ⟨(ordered_run hrun).exact, fun _ _ hstep => moves_step (ordered_run hrun) hstep⟩

section Example

def letter (body : Bytes) (timeout : Int) : MailboxDelivery where
  address := ascii "orders"
  subject := ascii "new"
  sender := ascii "shop"
  tracker := []
  body := body
  attributes := ∅
  timeout := timeout
  timestamp := 0

def threeLetters : List Operation :=
  [.deliver (letter [1] 5) 0, .deliver (letter [2, 2] 50) 1, .deliver (letter [3, 3, 3] 50) 2,
    .receive (ascii "clerk") (ascii "orders") 9, .receive (ascii "thief") (ascii "orders") 9,
    .cleanup 10]

theorem threeLetters_semantics :
    ∃ s, run Office.step (start 4 1000 0) threeLetters = some s ∧
      s.idsFrom (ascii "orders") = [2] ∧
      (s.manager.mailboxes.lookup (ascii "orders")).map Mailbox.bytesStored = some 3 ∧
      s.Exact ∧ ∀ operation s', s.step operation = some s' → s.Moves operation s' :=
  ⟨_, rfl, by decide +kernel, by decide +kernel, mailbox_semantics 4 1000 0 threeLetters rfl⟩

end Example

end Zmq4.MalamuteMailbox

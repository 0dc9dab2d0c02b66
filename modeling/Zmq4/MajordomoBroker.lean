import Mathlib.Data.List.AList
import Zmq4.MajordomoCalls

/-!
The broker of the Majordomo protocol (`majordomo/broker.go`): its map of workers,
and the lists of available and busy workers of each service.

Workers are shared by pointer between the map and the lists.  A pointer is a
number here, and `heap` says what it points to.
-/

namespace Zmq4.MajordomoBroker

open ByteCodec ZmtpMessage ActionRuns MajordomoMessages
open MajordomoCalls (sendToWorker)

structure BrokerWorker where
  service : Bytes
  identity : Bytes
  expiry : Int
  deriving DecidableEq

structure PendingRequest where
  number : Nat
  client : Bytes
  service : Bytes
  body : Bytes
  created : Int
  deriving DecidableEq

structure Service where
  requests : List PendingRequest
  availableWorkers : List Nat
  busyWorkers : List Nat
  activeWorkers : Int
  deriving DecidableEq

def Service.empty : Service where
  requests := []
  availableWorkers := []
  busyWorkers := []
  activeWorkers := 0

def Service.members (service : Service) : List Nat :=
  service.availableWorkers ++ service.busyWorkers

structure Dispatch where
  request : PendingRequest
  worker : Nat
  msg : Msg

structure Options where
  heartbeatExpiry : Int
  requestTimeout : Int

/-- The broker with the requests it has accepted and those it has sent to workers. -/
structure Broker where
  now : Int
  heap : Nat → BrokerWorker
  next : Nat
  workers : AList fun _ : Bytes => Nat
  services : Bytes → Option Service
  accepted : List PendingRequest
  dispatched : List Dispatch

def newBroker (now : Int) : Broker where
  now := now
  heap _ := { service := [], identity := [], expiry := 0 }
  next := 0
  workers := ∅
  services _ := none
  accepted := []
  dispatched := []

inductive Action where
  /-- A message from the ROUTER, and how the sends of its dispatches end. -/
  | message (frames : List Bytes) (sends : List Bool)
  /-- A run of `cleanup`; `order` is that of the iteration over the workers. -/
  | cleanup (order : List Bytes)
  | elapse (nanoseconds : Nat)

section Lists

def moveWorkerToBusy (worker : Nat) (service : Service) : Service :=
  { service with
    availableWorkers := service.availableWorkers.erase worker
    busyWorkers := service.busyWorkers ++ [worker] }

def moveWorkerToAvailable (worker : Nat) (service : Service) : Service :=
  { service with
    busyWorkers := service.busyWorkers.erase worker
    availableWorkers :=
      if worker ∈ service.availableWorkers then service.availableWorkers
      else service.availableWorkers ++ [worker] }

def removeFromLists (worker : Nat) (service : Service) : Service :=
  { service with
    availableWorkers := service.availableWorkers.erase worker
    busyWorkers := service.busyWorkers.erase worker
    activeWorkers := service.activeWorkers - 1 }

def dispatchLoop (heap : Nat → BrokerWorker) :
    List Bool → Service → List Dispatch → Option (Service × List Dispatch)
  | [], service, sent =>
    if service.requests = [] ∨ service.availableWorkers = [] then some (service, sent) else none
  | succeeds :: sends, service, sent =>
    match service.requests, service.availableWorkers with
    | request :: requests, worker :: _ =>
      let service := moveWorkerToBusy worker { service with requests := requests }
      if succeeds then
        dispatchLoop heap sends service
          (sent ++ [{ request := request, worker := worker
                      msg := sendToWorker (heap worker).identity workerRequest request.client
                        request.body }])
      else
        dispatchLoop heap sends
          { moveWorkerToAvailable worker service with requests := request :: requests } sent
    | _, _ => some (service, sent)

end Lists

section Operations

variable (o : Options)

def Broker.service (b : Broker) (name : Bytes) : Service :=
  (b.services name).getD Service.empty

def Broker.setService (b : Broker) (name : Bytes) (service : Service) : Broker :=
  { b with services := Function.update b.services name (some service) }

def Broker.isExpired (b : Broker) (worker : Nat) : Bool :=
  (b.heap worker).expiry < b.now

def registerWorker (b : Broker) (identity name : Bytes) : Broker :=
  let worker := b.next
  let service := b.service name
  { b.setService name
      { service with
        availableWorkers := service.availableWorkers ++ [worker]
        activeWorkers := service.activeWorkers + 1 } with
    heap := Function.update b.heap worker
      { service := name, identity := identity, expiry := b.now + o.heartbeatExpiry }
    next := b.next + 1
    workers := b.workers.insert identity worker }

def removeWorker (b : Broker) (key : Bytes) (worker : Nat) : Broker :=
  let name := (b.heap worker).service
  let b := { b with workers := b.workers.erase key }
  match b.services name with
  | some service => b.setService name (removeFromLists worker service)
  | none => b

def disconnectWorker (b : Broker) (worker : Nat) : Broker :=
  removeWorker b (b.heap worker).identity worker

def renewExpiry (b : Broker) (worker : Nat) : Broker :=
  { b with
    heap := Function.update b.heap worker
      { b.heap worker with expiry := b.now + o.heartbeatExpiry } }

/-- `processWorkerMessage`.  What it sends to workers and clients changes nothing
here. -/
def processWorkerMessage (b : Broker) (identity : Bytes) (msg : Message) : Broker :=
  match b.workers.lookup identity with
  | some worker =>
    if msg.command = workerReady ∨ msg.command = workerDisconnect then disconnectWorker b worker
    else if msg.command = workerReply then
      let b := renewExpiry o b worker
      let name := (b.heap worker).service
      b.setService name (moveWorkerToAvailable worker (b.service name))
    else if msg.command = workerHeartbeat then renewExpiry o b worker
    else b
  | none =>
    if msg.command = workerReady then registerWorker o b identity msg.service else b

def dispatchRequests (b : Broker) (name : Bytes) (sends : List Bool) : Option Broker :=
  let service := b.service name
  let valid := service.availableWorkers.filter fun worker => !b.isExpired worker
  (dispatchLoop b.heap sends { service with availableWorkers := valid } b.dispatched).map
    fun (service, dispatched) => { b.setService name service with dispatched := dispatched }

def acceptRequest (b : Broker) (identity : Bytes) (msg : Message) : Broker :=
  let request :=
    { number := b.accepted.length, client := identity, service := msg.service, body := msg.body
      created := b.now }
  let service := b.service msg.service
  { b.setService msg.service { service with requests := service.requests ++ [request] } with
    accepted := b.accepted ++ [request] }

def processClientMessage (b : Broker) (identity : Bytes) (msg : Message) (sends : List Bool) :
    Option Broker :=
  dispatchRequests (acceptRequest b identity msg) msg.service sends

def cleanupWorker (b : Broker) (key : Bytes) : Broker :=
  match b.workers.lookup key with
  | some worker => if b.isExpired worker then removeWorker b key worker else b
  | none => b

def PendingRequest.isExpired (request : PendingRequest) (now ttl : Int) : Bool :=
  ttl < now - request.created

def cleanupRequests (b : Broker) : Broker :=
  { b with
    services := fun name =>
      (b.services name).map fun service =>
        { service with
          requests := service.requests.filter fun request =>
            !request.isExpired b.now o.requestTimeout } }

def cleanup (b : Broker) (order : List Bytes) : Option Broker :=
  if order.isPerm b.workers.keys then some (cleanupRequests o (order.foldl cleanupWorker b))
  else none

def step (b : Broker) : Action → Option Broker
  | .message frames sends =>
    match processMessage frames with
    | some (sender, .worker msg) => some (processWorkerMessage o b sender msg)
    | some (sender, .client msg) => processClientMessage b sender msg sends
    | none => some b
  | .cleanup order => cleanup o b order
  | .elapse nanoseconds => some { b with now := b.now + nanoseconds }

end Operations

variable {sends : List Bool}

section Moves

variable {service : Service} {heap : Nat → BrokerWorker}

theorem members_moveWorkerToAvailable (hnodup : service.members.Nodup) (worker : Nat) :
    (moveWorkerToAvailable worker service).members.Perm (worker :: service.members.erase worker) := by
  simp only [Service.members, moveWorkerToAvailable] at hnodup ⊢
  split
  · rename_i havailable
    have hbusy : worker ∉ service.busyWorkers := fun h =>
      (List.nodup_append.mp hnodup).2.2 worker havailable worker h rfl
    rw [List.erase_of_not_mem hbusy]
    exact List.perm_cons_erase (List.mem_append_left _ havailable)
  · rename_i havailable
    rw [List.erase_append_right _ havailable, List.append_assoc]
    exact List.perm_middle

structure Dispatched (heap : Nat → BrokerWorker) (service service' : Service)
    (new : List Dispatch) : Prop where
  members : service'.members.Perm service.members
  active : service'.activeWorkers = service.activeWorkers
  requests : new.map Dispatch.request ++ service'.requests = service.requests
  sent : ∀ d ∈ new, d.worker ∈ service.members ∧
    d.msg = sendToWorker (heap d.worker).identity workerRequest d.request.client d.request.body
  done : service'.requests = [] ∨ service'.availableWorkers = []

theorem Dispatched.nothing (hdone : service.requests = [] ∨ service.availableWorkers = []) :
    Dispatched heap service service [] where
  members := .refl _
  active := rfl
  requests := rfl
  sent _ hd := absurd hd List.not_mem_nil
  done := hdone

/-- The loop ends with no request or no worker left, whatever sends fail. -/
theorem dispatchLoop_eq_some {service' : Service} {sent sent' : List Dispatch}
    (hnodup : service.members.Nodup)
    (hloop : dispatchLoop heap sends service sent = some (service', sent')) :
    ∃ new, sent' = sent ++ new ∧ Dispatched heap service service' new := by
  induction sends generalizing service sent with
  | nil =>
    rw [dispatchLoop] at hloop
    split at hloop
    · rename_i hdone
      obtain ⟨rfl, rfl⟩ := Prod.mk.inj (Option.some.inj hloop)
      exact ⟨[], (List.append_nil _).symm, .nothing hdone⟩
    · cases hloop
  | cons succeeds sends ih =>
    rcases service with ⟨_ | ⟨request, requests⟩, _ | ⟨worker, later⟩, busy, active⟩
    · obtain ⟨rfl, rfl⟩ := Prod.mk.inj (Option.some.inj hloop)
      exact ⟨[], (List.append_nil _).symm, .nothing (.inl rfl)⟩
    · obtain ⟨rfl, rfl⟩ := Prod.mk.inj (Option.some.inj hloop)
      exact ⟨[], (List.append_nil _).symm, .nothing (.inl rfl)⟩
    · obtain ⟨rfl, rfl⟩ := Prod.mk.inj (Option.some.inj hloop)
      exact ⟨[], (List.append_nil _).symm, .nothing (.inr rfl)⟩
    have hworker : worker ∈ worker :: later ++ busy := List.mem_cons_self
    have hbusy : (moveWorkerToBusy worker ⟨requests, worker :: later, busy, active⟩).members.Perm
        (worker :: later ++ busy) := by
      simp only [Service.members, moveWorkerToBusy, List.erase_cons_head]
      rw [← List.append_assoc]
      exact List.perm_append_singleton worker _
    simp only [dispatchLoop] at hloop
    split at hloop
    · obtain ⟨new, rfl, hnew⟩ := ih (hbusy.nodup_iff.mpr hnodup) hloop
      refine ⟨_ :: new, List.append_assoc _ _ _, hnew.members.trans hbusy, hnew.active, ?_, ?_,
        hnew.done⟩
      · rw [List.map_cons, List.cons_append, hnew.requests]
        rfl
      · refine List.forall_mem_cons.mpr ⟨⟨hworker, rfl⟩, fun d hd => ?_⟩
        exact ⟨hbusy.mem_iff.mp (hnew.sent d hd).1, (hnew.sent d hd).2⟩
    · have hback := members_moveWorkerToAvailable (hbusy.nodup_iff.mpr hnodup) worker
      have hsame := (hback.trans (List.perm_cons_erase (hbusy.mem_iff.mpr hworker)).symm).trans hbusy
      obtain ⟨new, rfl, hnew⟩ := ih (by exact hsame.nodup_iff.mpr hnodup) hloop
      refine ⟨new, rfl, hnew.members.trans hsame, hnew.active, hnew.requests, ?_, hnew.done⟩
      exact fun d hd => ⟨hsame.mem_iff.mp (hnew.sent d hd).1, (hnew.sent d hd).2⟩

end Moves

section Sound

def registeredFor (b : Broker) (name key : Bytes) : Bool :=
  (b.workers.lookup key).any fun worker => (b.heap worker).service = name

def registeredCount (b : Broker) (name : Bytes) : Nat :=
  b.workers.keys.countP (registeredFor b name)

def Registered (b : Broker) (name : Bytes) (worker : Nat) : Prop :=
  b.workers.lookup (b.heap worker).identity = some worker ∧ (b.heap worker).service = name

structure Sound (b : Broker) : Prop where
  keyed : ∀ key worker, b.workers.lookup key = some worker →
    (b.heap worker).identity = key ∧ worker < b.next
  listed : ∀ name, ∀ worker ∈ (b.service name).members, Registered b name worker
  nodup : ∀ name, (b.service name).members.Nodup
  active : ∀ name, (b.service name).activeWorkers = registeredCount b name

@[simp]
theorem service_setService_self (b : Broker) (name : Bytes) (service : Service) :
    (b.setService name service).service name = service := by
  simp [Broker.service, Broker.setService]

variable {name other identity key : Bytes} {b b' : Broker} {worker : Nat}

theorem service_setService_ne (b : Broker) (hne : other ≠ name) (service : Service) :
    (b.setService name service).service other = b.service other := by
  simp [Broker.service, Broker.setService, Function.update_of_ne hne]

theorem forall_setService {P : Bytes → Service → Prop} {service : Service} (hself : P name service)
    (hothers : ∀ other, other ≠ name → P other (b.service other)) (other : Bytes) :
    P other ((b.setService name service).service other) := by
  rcases eq_or_ne other name with rfl | hne
  · rwa [service_setService_self]
  · rw [service_setService_ne b hne]
    exact hothers other hne

/-- Only the map, the lists, and the identities and services of the workers
matter. -/
theorem Sound.congr (hs : Sound b) (hworkers : b'.workers = b.workers) (hnext : b'.next = b.next)
    (hheap : ∀ worker, (b'.heap worker).identity = (b.heap worker).identity ∧
      (b'.heap worker).service = (b.heap worker).service)
    (hservices : ∀ name, (b'.service name).members = (b.service name).members ∧
      (b'.service name).activeWorkers = (b.service name).activeWorkers) : Sound b' := by
  have hcount : ∀ name, registeredCount b' name = registeredCount b name := by
    intro name
    simp only [registeredCount, hworkers]
    refine List.countP_congr fun key _ => ?_
    simp only [registeredFor, hworkers, (hheap _).2]
  constructor
  · intro key worker hlookup
    rw [hworkers] at hlookup
    rw [(hheap worker).1, hnext]
    exact hs.keyed key worker hlookup
  · intro name worker hworker
    rw [(hservices name).1] at hworker
    rw [Registered, hworkers, (hheap worker).1, (hheap worker).2]
    exact hs.listed name worker hworker
  · intro name
    rw [(hservices name).1]
    exact hs.nodup name
  · intro name
    rw [(hservices name).2, hcount]
    exact hs.active name

theorem Sound.setService (hs : Sound b) {service : Service}
    (hlisted : ∀ worker ∈ service.members, Registered b name worker)
    (hnodup : service.members.Nodup)
    (hactive : service.activeWorkers = (b.service name).activeWorkers) :
    Sound (b.setService name service) := by
  constructor
  · exact hs.keyed
  · exact forall_setService (P := fun name service => ∀ worker ∈ service.members,
      Registered b name worker) hlisted fun other _ => hs.listed other
  · exact forall_setService (P := fun _ service => service.members.Nodup) hnodup
      fun other _ => hs.nodup other
  · exact forall_setService (P := fun name service => service.activeWorkers =
      registeredCount b name) (hactive.trans (hs.active name)) fun other _ => hs.active other

theorem Sound.lt_next (hs : Sound b) (hworker : worker ∈ (b.service name).members) :
    worker < b.next :=
  (hs.keyed _ worker (hs.listed name worker hworker).1).2

variable {o : Options}

theorem renewExpiry_heap (b : Broker) (worker other : Nat) :
    ((renewExpiry o b worker).heap other).identity = (b.heap other).identity ∧
      ((renewExpiry o b worker).heap other).service = (b.heap other).service := by
  rcases eq_or_ne other worker with rfl | hne
  · simp [renewExpiry]
  · simp [renewExpiry, Function.update_of_ne hne]

theorem sound_renewExpiry (hs : Sound b) (worker : Nat) : Sound (renewExpiry o b worker) :=
  hs.congr rfl rfl (renewExpiry_heap b worker) fun _ => ⟨rfl, rfl⟩

theorem heap_registerWorker_of_lt (hlt : worker < b.next) :
    (registerWorker o b identity name).heap worker = b.heap worker :=
  Function.update_of_ne hlt.ne _ _

theorem heap_registerWorker_next (b : Broker) (identity name : Bytes) :
    (registerWorker o b identity name).heap b.next =
      { service := name, identity := identity, expiry := b.now + o.heartbeatExpiry } :=
  Function.update_self _ _ _

theorem registeredCount_register (hs : Sound b) (hnew : b.workers.lookup identity = none)
    (name other : Bytes) :
    registeredCount (registerWorker o b identity name) other =
      registeredCount b other + if name = other then 1 else 0 := by
  have hmem : identity ∉ b.workers.keys := AList.lookup_eq_none.mp hnew
  have hkeys : (registerWorker o b identity name).workers.keys = identity :: b.workers.keys := by
    simpa [registerWorker, AList.keys_insert] using hmem
  have hself : registeredFor (registerWorker o b identity name) other identity =
      decide (name = other) := by
    simp [registeredFor, registerWorker]
  have hold : b.workers.keys.countP (registeredFor (registerWorker o b identity name) other) =
      b.workers.keys.countP (registeredFor b other) := by
    refine List.countP_congr fun key hkey => ?_
    have hne : key ≠ identity := fun h => hmem (h ▸ hkey)
    have hlookup : (registerWorker o b identity name).workers.lookup key =
        b.workers.lookup key := AList.lookup_insert_ne hne
    rcases hworker : b.workers.lookup key with _ | worker
    · simp [registeredFor, hlookup, hworker]
    · simp [registeredFor, hlookup, hworker,
        heap_registerWorker_of_lt (hs.keyed key worker hworker).2]
  rw [registeredCount, hkeys, List.countP_cons, hold, hself]
  simp [registeredCount]

theorem service_registerWorker (b : Broker) (identity name : Bytes) :
    (registerWorker o b identity name).service name =
      { b.service name with
        availableWorkers := (b.service name).availableWorkers ++ [b.next]
        activeWorkers := (b.service name).activeWorkers + 1 } :=
  service_setService_self b name _

theorem service_registerWorker_ne (b : Broker) (identity : Bytes) (hne : other ≠ name) :
    (registerWorker o b identity name).service other = b.service other :=
  service_setService_ne b hne _

theorem members_registerWorker (b : Broker) (identity name : Bytes) :
    ((registerWorker o b identity name).service name).members.Perm
      (b.next :: (b.service name).members) := by
  rw [service_registerWorker, Service.members, List.append_assoc]
  exact List.perm_middle

theorem Registered.register (hs : Sound b) (hnew : b.workers.lookup identity = none) (name : Bytes)
    (hworker : Registered b other worker) :
    Registered (registerWorker o b identity name) other worker := by
  have hne : (b.heap worker).identity ≠ identity := by
    intro h
    have hlookup := hworker.1
    rw [h, hnew] at hlookup
    cases hlookup
  rw [Registered, heap_registerWorker_of_lt (hs.keyed _ worker hworker.1).2]
  exact ⟨(AList.lookup_insert_ne hne).trans hworker.1, hworker.2⟩

theorem sound_registerWorker (hs : Sound b) (hnew : b.workers.lookup identity = none)
    (name : Bytes) : Sound (registerWorker o b identity name) := by
  have hself : Registered (registerWorker o b identity name) name b.next := by
    rw [Registered, heap_registerWorker_next]
    exact ⟨AList.lookup_insert _, rfl⟩
  have hmembers := members_registerWorker (o := o) b identity name
  constructor
  · intro key worker hlookup
    rcases eq_or_ne key identity with rfl | hne
    · obtain rfl : b.next = worker := by simpa [registerWorker] using hlookup
      rw [heap_registerWorker_next]
      exact ⟨rfl, Nat.lt_succ_self _⟩
    · rw [show (registerWorker o b identity name).workers.lookup key = b.workers.lookup key from
        AList.lookup_insert_ne hne] at hlookup
      obtain ⟨hkey, hlt⟩ := hs.keyed key worker hlookup
      rw [heap_registerWorker_of_lt hlt]
      exact ⟨hkey, Nat.lt_succ_of_lt hlt⟩
  · intro other worker hworker
    rcases eq_or_ne other name with rfl | hne
    · rcases List.mem_cons.mp (hmembers.mem_iff.mp hworker) with rfl | hold
      · exact hself
      · exact (hs.listed other worker hold).register hs hnew other
    · rw [service_registerWorker_ne b identity hne] at hworker
      exact (hs.listed other worker hworker).register hs hnew name
  · refine forall_setService (b := b) (P := fun _ service => service.members.Nodup) ?_
      fun other _ => hs.nodup other
    rw [service_registerWorker] at hmembers
    rw [hmembers.nodup_iff, List.nodup_cons]
    exact ⟨fun h => (hs.lt_next h).ne rfl, hs.nodup name⟩
  · intro other
    rw [registeredCount_register hs hnew]
    rcases eq_or_ne other name with rfl | hne
    · rw [service_registerWorker]
      simp [hs.active other]
    · rw [service_registerWorker_ne b identity hne, hs.active other]
      simp [hne.symm]

theorem registeredCount_erase (hlookup : b.workers.lookup key = some worker) (other : Bytes) :
    registeredCount b other =
      registeredCount { b with workers := b.workers.erase key } other +
        if (b.heap worker).service = other then 1 else 0 := by
  have hkey : key ∈ b.workers.keys := by
    rw [← AList.mem_keys, ← AList.lookup_isSome, hlookup]
    rfl
  have hperm : b.workers.keys.Perm (key :: (b.workers.erase key).keys) := by
    rw [AList.keys_erase]
    exact @List.perm_cons_erase _ instBEqOfDecidableEq _ _ _ hkey
  have hself : registeredFor b other key = decide ((b.heap worker).service = other) := by
    simp [registeredFor, hlookup]
  have hrest : (b.workers.erase key).keys.countP (registeredFor b other) =
      registeredCount { b with workers := b.workers.erase key } other := by
    refine List.countP_congr fun later hlater => ?_
    have hne : later ≠ key := (AList.mem_erase.mp hlater).1
    simp only [registeredFor, AList.lookup_erase_ne hne]
  rw [registeredCount, hperm.countP_eq, List.countP_cons, hrest, hself]
  simp

theorem removeWorker_eq (hs : Sound b) (hlookup : b.workers.lookup key = some worker) :
    removeWorker b key worker =
      Broker.setService { b with workers := b.workers.erase key } (b.heap worker).service
        (removeFromLists worker (b.service (b.heap worker).service)) := by
  have hcount := registeredCount_erase hlookup (b.heap worker).service
  have hactive := hs.active (b.heap worker).service
  rcases hservice : b.services (b.heap worker).service with _ | service
  · rw [if_pos rfl] at hcount
    rw [Broker.service, hservice, Option.getD_none, hcount] at hactive
    simp only [Service.empty] at hactive
    omega
  · simp [removeWorker, Broker.service, hservice]

theorem members_removeFromLists {service : Service} (hnodup : service.members.Nodup) (worker : Nat) :
    (removeFromLists worker service).members = service.members.filter (· != worker) := by
  obtain ⟨havailable, hbusy, -⟩ := List.nodup_append.mp hnodup
  simp only [Service.members, removeFromLists, List.filter_append, havailable.erase_eq_filter,
    hbusy.erase_eq_filter]

theorem Registered.erase (hlookup : b.workers.lookup key = some worker) {later : Nat}
    (hne : later ≠ worker) (hlater : Registered b other later) :
    Registered { b with workers := b.workers.erase key } other later := by
  refine ⟨(AList.lookup_erase_ne fun h => hne ?_).trans hlater.1, hlater.2⟩
  have hsame := hlater.1
  rw [h, hlookup] at hsame
  exact (Option.some.inj hsame).symm

theorem sound_removeWorker (hs : Sound b) (hlookup : b.workers.lookup key = some worker) :
    Sound (removeWorker b key worker) := by
  rw [removeWorker_eq hs hlookup]
  generalize hname : (b.heap worker).service = name
  have hmembers := members_removeFromLists (hs.nodup name) worker
  constructor
  · intro other later hlater
    rcases eq_or_ne other key with rfl | hne
    · exact absurd hlater (by simp [Broker.setService])
    · exact hs.keyed other later ((AList.lookup_erase_ne hne).symm.trans hlater)
  · intro other later hlater
    rcases eq_or_ne other name with rfl | hne
    · rw [service_setService_self, hmembers, List.mem_filter] at hlater
      exact (hs.listed other later hlater.1).erase hlookup (by simpa using hlater.2)
    · rw [service_setService_ne _ hne] at hlater
      refine (hs.listed other later hlater).erase hlookup ?_
      rintro rfl
      exact hne ((hs.listed other later hlater).2.symm.trans hname)
  · refine forall_setService (P := fun _ service => service.members.Nodup) ?_
      fun other _ => hs.nodup other
    exact hmembers ▸ (hs.nodup name).filter _
  · intro other
    have hcount := registeredCount_erase hlookup other
    have hactive := hs.active other
    rcases eq_or_ne other name with rfl | hne
    · rw [if_pos hname] at hcount
      have hone : (b.service other).activeWorkers - 1 =
          registeredCount { b with workers := b.workers.erase key } other := by
        rw [hactive, hcount]
        omega
      rw [service_setService_self]
      exact hone
    · rw [if_neg (by rw [hname]; exact hne.symm), Nat.add_zero] at hcount
      rw [service_setService_ne _ hne]
      exact hactive.trans (congrArg Nat.cast hcount)

theorem Registered.of_lookup (hs : Sound b) (hlookup : b.workers.lookup key = some worker) :
    Registered b (b.heap worker).service worker := by
  refine ⟨?_, rfl⟩
  rw [(hs.keyed key worker hlookup).1]
  exact hlookup

theorem sound_moveToAvailable (hs : Sound b) (hworker : Registered b name worker) :
    Sound (b.setService name (moveWorkerToAvailable worker (b.service name))) := by
  have hmembers := members_moveWorkerToAvailable (hs.nodup name) worker
  refine hs.setService (fun other hother => ?_) ?_ rfl
  · rcases List.mem_cons.mp (hmembers.mem_iff.mp hother) with rfl | hold
    · exact hworker
    · exact hs.listed name other (List.mem_of_mem_erase hold)
  · rw [hmembers.nodup_iff, List.nodup_cons]
    exact ⟨(hs.nodup name).not_mem_erase, (hs.nodup name).erase worker⟩

theorem sound_processWorkerMessage (hs : Sound b) (identity : Bytes) (msg : Message) :
    Sound (processWorkerMessage o b identity msg) := by
  rw [processWorkerMessage]
  split
  · rename_i worker hlookup
    have hkey := (hs.keyed identity worker hlookup).1
    split
    · rw [disconnectWorker, hkey]
      exact sound_removeWorker hs hlookup
    · split
      · have hrenewed := sound_renewExpiry (o := o) hs worker
        exact sound_moveToAvailable hrenewed (.of_lookup hrenewed hlookup)
      · split
        · exact sound_renewExpiry hs worker
        · exact hs
  · rename_i hlookup
    split
    · exact sound_registerWorker hs hlookup msg.service
    · exact hs

theorem dispatchRequests_eq_some (hs : Sound b)
    (hdispatch : dispatchRequests b name sends = some b') :
    ∃ service new, b' = { b.setService name service with dispatched := b.dispatched ++ new } ∧
      Dispatched b.heap
        { b.service name with
          availableWorkers :=
            (b.service name).availableWorkers.filter fun worker => !b.isExpired worker }
        service new := by
  obtain ⟨⟨service, dispatched⟩, hloop, rfl⟩ := Option.map_eq_some_iff.mp hdispatch
  have hnodup : ((b.service name).availableWorkers.filter (fun worker => !b.isExpired worker) ++
      (b.service name).busyWorkers).Nodup :=
    (hs.nodup name).sublist (List.filter_sublist.append_right _)
  obtain ⟨new, rfl, hnew⟩ := dispatchLoop_eq_some (by exact hnodup) hloop
  exact ⟨service, new, rfl, hnew⟩

theorem sound_dispatchRequests (hs : Sound b)
    (hdispatch : dispatchRequests b name sends = some b') : Sound b' := by
  obtain ⟨service, new, rfl, hnew⟩ := dispatchRequests_eq_some hs hdispatch
  have hsublist : List.Sublist ((b.service name).availableWorkers.filter
      (fun worker => !b.isExpired worker) ++ (b.service name).busyWorkers)
      (b.service name).members := List.filter_sublist.append_right _
  have hset : Sound (b.setService name service) := by
    refine hs.setService (fun worker hworker => ?_) ?_ hnew.active
    · exact hs.listed name worker (hsublist.subset (hnew.members.mem_iff.mp hworker))
    · exact hnew.members.nodup_iff.mpr ((hs.nodup name).sublist hsublist)
  exact hset.congr rfl rfl (fun _ => ⟨rfl, rfl⟩) fun _ => ⟨rfl, rfl⟩

theorem service_acceptRequest (b : Broker) (identity : Bytes) (msg : Message) (name : Bytes) :
    ((acceptRequest b identity msg).service name).availableWorkers =
        (b.service name).availableWorkers ∧
      ((acceptRequest b identity msg).service name).busyWorkers = (b.service name).busyWorkers ∧
      ((acceptRequest b identity msg).service name).activeWorkers =
        (b.service name).activeWorkers := by
  rcases eq_or_ne name msg.service with rfl | hne
  · simp [acceptRequest, Broker.setService, Broker.service]
  · simp [acceptRequest, Broker.setService, Broker.service, Function.update_of_ne hne]

theorem members_acceptRequest (b : Broker) (identity : Bytes) (msg : Message) (name : Bytes) :
    ((acceptRequest b identity msg).service name).members = (b.service name).members := by
  obtain ⟨havailable, hbusy, -⟩ := service_acceptRequest b identity msg name
  rw [Service.members, havailable, hbusy]
  rfl

theorem sound_acceptRequest (hs : Sound b) (identity : Bytes) (msg : Message) :
    Sound (acceptRequest b identity msg) := by
  refine hs.congr rfl rfl (fun _ => ⟨rfl, rfl⟩) fun name => ?_
  exact ⟨members_acceptRequest b identity msg name, (service_acceptRequest b identity msg name).2.2⟩

/-- What the removal of a worker keeps, a cleanup of the workers keeps. -/
theorem foldl_cleanupWorker {I : Broker → Prop}
    (hremove : ∀ {b key worker}, Sound b → I b → b.workers.lookup key = some worker →
      I (removeWorker b key worker)) (order : List Bytes) (hs : Sound b) (hb : I b) :
    Sound (order.foldl cleanupWorker b) ∧ I (order.foldl cleanupWorker b) := by
  induction order generalizing b with
  | nil => exact ⟨hs, hb⟩
  | cons key rest ih =>
    rw [List.foldl_cons, cleanupWorker]
    split
    · rename_i worker hlookup
      split
      · exact ih (sound_removeWorker hs hlookup) (hremove hs hb hlookup)
      · exact ih hs hb
    · exact ih hs hb

theorem service_cleanupRequests (b : Broker) (name : Bytes) :
    (cleanupRequests o b).service name =
      { b.service name with
        requests := (b.service name).requests.filter fun request =>
          !request.isExpired b.now o.requestTimeout } := by
  rcases hservice : b.services name with _ | service
  · simp [cleanupRequests, Broker.service, hservice, Service.empty]
  · simp [cleanupRequests, Broker.service, hservice]

theorem sound_cleanupRequests (hs : Sound b) : Sound (cleanupRequests o b) := by
  refine hs.congr rfl rfl (fun _ => ⟨rfl, rfl⟩) fun name => ?_
  rw [service_cleanupRequests]
  exact ⟨rfl, rfl⟩

theorem step_cases {action : Action} (hstep : step o b action = some b') :
    (∃ frames sends sender msg, action = .message frames sends ∧
        processMessage frames = some (sender, .worker msg) ∧
        b' = processWorkerMessage o b sender msg) ∨
      (∃ frames sends sender msg, action = .message frames sends ∧
        processMessage frames = some (sender, .client msg) ∧
        dispatchRequests (acceptRequest b sender msg) msg.service sends = some b') ∨
      (∃ frames sends, action = .message frames sends ∧ processMessage frames = none ∧ b' = b) ∨
      (∃ order, action = .cleanup order ∧ b' = cleanupRequests o (order.foldl cleanupWorker b)) ∨
      ∃ nanoseconds, action = .elapse nanoseconds ∧ b' = { b with now := b.now + nanoseconds } := by
  cases action with
  | message frames sends =>
    rw [step] at hstep
    split at hstep
    · rename_i sender msg hmessage
      exact .inl ⟨frames, sends, sender, msg, rfl, hmessage, (Option.some.inj hstep).symm⟩
    · rename_i sender msg hmessage
      exact .inr (.inl ⟨frames, sends, sender, msg, rfl, hmessage, hstep⟩)
    · rename_i hmessage
      exact .inr (.inr (.inl ⟨frames, sends, rfl, hmessage, (Option.some.inj hstep).symm⟩))
  | cleanup order =>
    rw [step, MajordomoBroker.cleanup] at hstep
    split at hstep
    · exact .inr (.inr (.inr (.inl ⟨order, rfl, (Option.some.inj hstep).symm⟩)))
    · cases hstep
  | elapse nanoseconds =>
    exact .inr (.inr (.inr (.inr ⟨nanoseconds, rfl, (Option.some.inj hstep).symm⟩)))

theorem sound_step {action : Action} (hs : Sound b) (hstep : step o b action = some b') :
    Sound b' := by
  rcases step_cases hstep with ⟨_, _, sender, msg, _, _, rfl⟩ | ⟨_, _, sender, msg, _, _, hdispatch⟩ |
    ⟨_, _, _, _, rfl⟩ | ⟨order, _, rfl⟩ | ⟨_, _, rfl⟩
  · exact sound_processWorkerMessage hs sender msg
  · exact sound_dispatchRequests (sound_acceptRequest hs sender msg) hdispatch
  · exact hs
  · exact sound_cleanupRequests (foldl_cleanupWorker (I := fun _ => True)
      (fun _ _ _ => trivial) order hs trivial).1
  · exact hs.congr rfl rfl (fun _ => ⟨rfl, rfl⟩) fun _ => ⟨rfl, rfl⟩

theorem sound_newBroker (now : Int) : Sound (newBroker now) where
  keyed _ _ hlookup := by cases hlookup
  listed _ _ hworker := absurd hworker List.not_mem_nil
  nodup _ := List.nodup_nil
  active _ := rfl

/-- The lists of the broker are sound in every state it can reach. -/
theorem sound_of_run (o : Options) (now : Int) {actions : List Action} {b : Broker}
    (hrun : run (step o) (newBroker now) actions = some b) : Sound b :=
  run_keeps (fun _ _ _ => sound_step) (sound_newBroker now) hrun

def fromWorker (worker command service : Bytes) : List Bytes :=
  worker :: formatWorkerMessage { Message.empty with command := command, service := service }

def fromClient (client service body : Bytes) : List Bytes :=
  client :: [] :: formatClientRequest (newClientRequest service body)

def tenAndHundred : Options where
  heartbeatExpiry := 10
  requestTimeout := 100

def strandedWorker : List Action :=
  [.message (fromWorker [1] workerReady (ascii "echo")) [], .elapse 11,
    .message (fromClient [7] (ascii "echo") [5]) [],
    .message (fromWorker [1] workerHeartbeat []) []]

theorem sound_of_run_stranded :
    ∃ b, run (step tenAndHundred) (newBroker 0) strandedWorker = some b ∧ Sound b :=
  ⟨_, rfl, sound_of_run tenAndHundred 0
    (show run (step tenAndHundred) (newBroker 0) strandedWorker = some _ from rfl)⟩

end Sound

end Zmq4.MajordomoBroker

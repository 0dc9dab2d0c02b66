import Zmq4.MalamuteCredit
import Zmq4.MalamuteMessages

/-!
The service manager of a Malamute broker: requests go to a worker of the service
that has credit and a matching pattern, or wait in a queue until one registers.
The readings of the clock within one operation are taken to be one.  Counters,
times and names that nothing reads are left out.

A map is ranged over in any order: an operation carries hints, one for each
range, that say which.  Patterns are matched by `filepath.Match`, a parameter
that fails on a malformed pattern.
-/

namespace Zmq4.MalamuteService

open ByteCodec ActionRuns KeyedMaps
open DuplexProgram (Err)
open DafkaMessages (Headers)
open MalamuteMessages (maxMessageSize)
open MalamuteCredit (defaultCreditWindow)

def maxServiceName : Nat := 255

def maxServiceBacklog : Nat := 10000

structure ServiceWorker where
  pattern : Bytes
  credit : Int32
  attributes : Headers

structure ServiceReq where
  service : Bytes
  method : Bytes
  sender : Bytes
  tracker : Bytes
  body : Bytes
  attributes : Headers
  timeout : Int
  timestamp : Int

/-- The arrival says which of the accepted requests it is.  It is not in the
program, which numbers only the requests that it queues. -/
structure ServiceRequest where
  id : UInt64
  arrival : Nat
  service : Bytes
  method : Bytes
  sender : Bytes
  tracker : Bytes
  attributes : Headers
  body : Bytes
  timestamp : Int
  timeout : Int

abbrev Workers := KeyedMap Bytes ServiceWorker

structure Service where
  workers : Workers := ∅
  queue : List ServiceRequest := []
  lastActivity : Int

structure ServiceManager where
  maxServices : Int
  serviceTimeout : Int
  services : KeyedMap Bytes Service := ∅
  requestID : UInt64 := 0

structure Delivery where
  arrival : Nat
  service : Bytes
  method : Bytes
  clientID : Bytes
  deriving DecidableEq

def submitRequest (request : ServiceReq) : Except Err ServiceReq :=
  if request.body.length > maxMessageSize then
    .error (.text ("request too large: " ++ toString request.body.length ++ " bytes"))
  else .ok request

variable (globMatch : Bytes → Bytes → Option Bool)

def matchesPattern (method pattern : Bytes) : Bool :=
  if pattern = ascii "*" then true
  else
    match globMatch pattern method with
    | none => method == pattern
    | some matched => matched

def findAvailableWorker (hint : List Bytes) (workers : Workers) (method : Bytes) :
    Option (Bytes × ServiceWorker) :=
  (ranged hint workers).find? fun entry =>
    decide (entry.2.credit > 0) && matchesPattern globMatch method entry.2.pattern

def handOver (workers : Workers) (clientID : Bytes) (worker : ServiceWorker) : Workers :=
  workers.insert clientID { worker with credit := worker.credit - 1 }

/-- The loop over the queue: the requests it hands over, the requests it keeps,
and the workers it leaves.  Expired requests are in neither list. -/
def dispatchLoop (now : Int) :
    List (List Bytes) → List ServiceRequest → Workers →
      List Delivery × List ServiceRequest × Workers
  | _, [], workers => ([], [], workers)
  | hints, request :: queue, workers =>
    if request.timeout > now then
      match findAvailableWorker globMatch (hints.headD []) workers request.method with
      | some (clientID, worker) =>
        let (handed, kept, workers) :=
          dispatchLoop now hints.tail queue (handOver workers clientID worker)
        (⟨request.arrival, request.service, request.method, clientID⟩ :: handed, kept, workers)
      | none =>
        let (handed, kept, workers) := dispatchLoop now hints.tail queue workers
        (handed, request :: kept, workers)
    else dispatchLoop now hints queue workers

def dispatchQueuedRequests (hints : List (List Bytes)) (now : Int) (service : Service) :
    List Delivery × Service :=
  let (handed, kept, workers) := dispatchLoop globMatch now hints service.queue service.workers
  (handed, { service with queue := kept, workers })

namespace ServiceManager

def handleRegisterWorker (sm : ServiceManager) (serviceName clientID pattern : Bytes)
    (attributes : Headers) (hints : List (List Bytes)) (now : Int) :
    Except Err (List Delivery × ServiceManager) :=
  if serviceName ∉ sm.services ∧ (sm.services.keys.length : Int) ≥ sm.maxServices then
    .error (.text "maximum services exceeded")
  else
    let service := (sm.services.lookup serviceName).getD { lastActivity := now }
    let worker := { pattern, credit := defaultCreditWindow, attributes }
    let service := { service with
      workers := service.workers.insert clientID worker, lastActivity := now }
    let (handed, service) := dispatchQueuedRequests globMatch hints now service
    .ok (handed, { sm with services := sm.services.insert serviceName service })

/-- `RegisterWorker` checks the name before the command is queued. -/
def registerWorker (sm : ServiceManager) (serviceName clientID pattern : Bytes)
    (attributes : Headers) (hints : List (List Bytes)) (now : Int) :
    Except Err (List Delivery × ServiceManager) :=
  if serviceName.length = 0 ∨ serviceName.length > maxServiceName then
    .error (.text ("invalid service name length: " ++ toString serviceName.length))
  else sm.handleRegisterWorker globMatch serviceName clientID pattern attributes hints now

def handleUnregisterWorker (sm : ServiceManager) (serviceName clientID : Bytes) : ServiceManager :=
  match sm.services.lookup serviceName with
  | none => sm
  | some service =>
    let service := { service with workers := service.workers.erase clientID }
    if service.workers.keys.length = 0 ∧ service.queue.length = 0 then
      { sm with services := sm.services.erase serviceName }
    else { sm with services := sm.services.insert serviceName service }

def handleRemoveClient (sm : ServiceManager) (clientID : Bytes) : ServiceManager :=
  { sm with
    services := retain (fun _ service => !decide (service.workers.keys.length = 0 ∧
        service.queue.length = 0))
      (mapValues (fun _ service => { service with workers := service.workers.erase clientID })
        sm.services) }

def limitQueue (queue : List ServiceRequest) : List ServiceRequest :=
  if queue.length > maxServiceBacklog then queue.tail else queue

def queued (sm : ServiceManager) (request : ServiceReq) (arrival : Nat) : ServiceRequest where
  id := sm.requestID + 1
  arrival := arrival
  service := request.service
  method := request.method
  sender := request.sender
  tracker := request.tracker
  attributes := request.attributes
  body := request.body
  timestamp := request.timestamp
  timeout := request.timestamp + request.timeout

def processRequest (sm : ServiceManager) (request : ServiceReq) (arrival : Nat)
    (hint : List Bytes) (now : Int) : Option (List Delivery × ServiceManager) :=
  match sm.services.lookup request.service with
  -- the service is not available
  | none => none
  | some service =>
    match findAvailableWorker globMatch hint service.workers request.method with
    | none =>
      let queue := limitQueue (service.queue ++ [sm.queued request arrival])
      some ([], { sm with
        requestID := sm.requestID + 1
        services := sm.services.insert request.service { service with queue } })
    | some (clientID, worker) =>
      let service := { service with
        workers := handOver service.workers clientID worker, lastActivity := now }
      some ([⟨arrival, request.service, request.method, clientID⟩],
        { sm with services := sm.services.insert request.service service })

def cleanupExpiredRequests (sm : ServiceManager) (now : Int) : ServiceManager :=
  { sm with
    services := retain (fun _ service => !decide (service.workers.keys.length = 0 ∧
        service.queue.length = 0 ∧ now - service.lastActivity > sm.serviceTimeout))
      (mapValues (fun _ service => { service with
        queue := service.queue.filter fun request => decide (request.timeout > now) })
        sm.services) }

end ServiceManager

inductive Operation
  | register (serviceName clientID pattern : Bytes) (attributes : Headers)
      (hints : List (List Bytes)) (now : Int)
  | unregister (serviceName clientID : Bytes)
  | removeClient (clientID : Bytes)
  | request (request : ServiceReq) (hint : List Bytes) (now : Int)
  | cleanup (now : Int)

/-- The manager after some operations, with the requests it has accepted (queued
or handed over at once) and those it has handed over. -/
structure Exchange where
  manager : ServiceManager
  accepted : List ServiceReq := []
  delivered : List Delivery := []

def start (maxServices serviceTimeout : Int) : Exchange :=
  { manager := { maxServices, serviceTimeout } }

namespace Exchange

def register (s : Exchange) (serviceName clientID pattern : Bytes) (attributes : Headers)
    (hints : List (List Bytes)) (now : Int) : Exchange :=
  match s.manager.registerWorker globMatch serviceName clientID pattern attributes hints now with
  | .error _ => s
  | .ok (handed, manager) => { s with manager, delivered := s.delivered ++ handed }

def request (s : Exchange) (request : ServiceReq) (hint : List Bytes) (now : Int) : Exchange :=
  match submitRequest request with
  | .error _ => s
  | .ok request =>
    match s.manager.processRequest globMatch request s.accepted.length hint now with
    | none => s
    | some (handed, manager) =>
      { manager, accepted := s.accepted ++ [request], delivered := s.delivered ++ handed }

def step (s : Exchange) : Operation → Option Exchange
  | .register serviceName clientID pattern attributes hints now =>
    some (s.register globMatch serviceName clientID pattern attributes hints now)
  | .unregister serviceName clientID =>
    some { s with manager := s.manager.handleUnregisterWorker serviceName clientID }
  | .removeClient clientID => some { s with manager := s.manager.handleRemoveClient clientID }
  | .request request hint now => some (s.request globMatch request hint now)
  | .cleanup now => some { s with manager := s.manager.cleanupExpiredRequests now }

end Exchange

def Exhausted (workers : Workers) (method : Bytes) : Prop :=
  ∀ clientID worker, workers.lookup clientID = some worker → 0 < worker.credit →
    matchesPattern globMatch method worker.pattern = false

/-- The requests are handed over one after the other, each to a worker that is
registered then, has credit and a matching pattern, and costs it one credit. -/
inductive Hands : Workers → List Delivery → Workers → Prop
  | nil (workers : Workers) : Hands workers [] workers
  | cons {workers after : Workers} {delivery : Delivery} {rest : List Delivery}
      {worker : ServiceWorker} (hlookup : workers.lookup delivery.clientID = some worker)
      (hcredit : 0 < worker.credit)
      (hmatch : matchesPattern globMatch delivery.method worker.pattern = true)
      (hrest : Hands (handOver workers delivery.clientID worker) rest after) :
      Hands workers (delivery :: rest) after

def CreditNonneg (workers : Workers) : Prop :=
  ∀ clientID worker, workers.lookup clientID = some worker → 0 ≤ worker.credit

variable {handed : List Delivery} {hint : List Bytes} {delivery : Delivery}

section Workers

variable {globMatch} {workers after : Workers} {clientID method : Bytes} {worker : ServiceWorker}

theorem findAvailableWorker_eq_some
    (hfind : findAvailableWorker globMatch hint workers method = some (clientID, worker)) :
    workers.lookup clientID = some worker ∧ 0 < worker.credit ∧
      matchesPattern globMatch method worker.pattern = true := by
  have hmem := mem_ranged_iff.mp (List.mem_of_find?_eq_some hfind)
  have htest := List.find?_some hfind
  rw [Bool.and_eq_true, decide_eq_true_iff] at htest
  exact ⟨hmem, htest⟩

theorem findAvailableWorker_eq_none_iff :
    findAvailableWorker globMatch hint workers method = none ↔
      Exhausted globMatch workers method := by
  rw [findAvailableWorker, List.find?_eq_none]
  constructor
  · intro hnone clientID worker hlookup hcredit
    have htest := hnone (clientID, worker) (mem_ranged_iff.mpr hlookup)
    rw [Bool.and_eq_true, decide_eq_true_iff, not_and, Bool.not_eq_true] at htest
    exact htest hcredit
  · rintro hexhausted ⟨clientID, worker⟩ hmem
    rw [Bool.and_eq_true, decide_eq_true_iff, not_and, Bool.not_eq_true]
    exact hexhausted clientID worker (mem_ranged_iff.mp hmem)

theorem credit_pred {credit : Int32} (hcredit : 0 < credit) :
    (credit - 1).toInt = credit.toInt - 1 ∧ 1 ≤ credit.toInt := by
  have hpositive := Int32.lt_iff_toInt_lt.mp hcredit
  rw [show (0 : Int32).toInt = 0 from rfl] at hpositive
  have hlt := credit.toInt_lt
  exact ⟨MalamuteCredit.toInt_sub_of_fits (by change -2 ^ 31 ≤ credit.toInt - 1; omega)
    (by change credit.toInt - 1 < 2 ^ 31; omega), hpositive⟩

theorem lookup_handOver {other : Bytes} {found : ServiceWorker}
    (hlookup : workers.lookup clientID = some worker) (hcredit : 0 < worker.credit)
    (hfound : (handOver workers clientID worker).lookup other = some found) :
    ∃ before, workers.lookup other = some before ∧ found.pattern = before.pattern ∧
      (0 < found.credit → 0 < before.credit) ∧ (0 ≤ before.credit → 0 ≤ found.credit) := by
  rw [handOver, lookup_insert_eq] at hfound
  split at hfound
  · next heq =>
      subst heq
      cases hfound
      obtain ⟨hpred, hone⟩ := credit_pred hcredit
      refine ⟨worker, hlookup, rfl, fun _ => hcredit, fun _ => ?_⟩
      rw [Int32.le_iff_toInt_le, hpred, show (0 : Int32).toInt = 0 from rfl]
      omega
  · exact ⟨found, hfound, rfl, id, id⟩

theorem Exhausted.handOver (hexhausted : Exhausted globMatch workers method)
    (hlookup : workers.lookup clientID = some worker) (hcredit : 0 < worker.credit) :
    Exhausted globMatch (handOver workers clientID worker) method := by
  intro other found hfound hleft
  obtain ⟨before, hbefore, hpattern, hhad, -⟩ := lookup_handOver hlookup hcredit hfound
  rw [hpattern]
  exact hexhausted other before hbefore (hhad hleft)

theorem Exhausted.hands (hexhausted : Exhausted globMatch workers method)
    (hhands : Hands globMatch workers handed after) : Exhausted globMatch after method := by
  induction hhands with
  | nil => exact hexhausted
  | cons hlookup hcredit _ _ ih => exact ih (hexhausted.handOver hlookup hcredit)

theorem Hands.method_ne (hhands : Hands globMatch workers handed after)
    (hexhausted : Exhausted globMatch workers method) :
    ∀ delivery ∈ handed, delivery.method ≠ method := by
  induction hhands with
  | nil => exact fun _ hmem => absurd hmem List.not_mem_nil
  | cons hlookup hcredit hmatch _ ih =>
    intro delivery hmem
    rcases List.mem_cons.mp hmem with rfl | hrest
    · rintro rfl
      rw [hexhausted _ _ hlookup hcredit] at hmatch
      cases hmatch
    · exact ih (hexhausted.handOver hlookup hcredit) delivery hrest

theorem CreditNonneg.hands (hnonneg : CreditNonneg workers)
    (hhands : Hands globMatch workers handed after) : CreditNonneg after := by
  induction hhands with
  | nil => exact hnonneg
  | cons hlookup hcredit _ _ ih =>
    apply ih
    intro other found hfound
    obtain ⟨before, hbefore, -, -, hkept⟩ := lookup_handOver hlookup hcredit hfound
    exact hkept (hnonneg other before hbefore)

theorem hands_singleton (hfind : findAvailableWorker globMatch hint workers delivery.method =
      some (delivery.clientID, worker)) :
    Hands globMatch workers [delivery] (handOver workers delivery.clientID worker) := by
  obtain ⟨hlookup, hcredit, hmatch⟩ := findAvailableWorker_eq_some hfind
  exact .cons hlookup hcredit hmatch (.nil _)

end Workers

/-- What the loop over a queue does: it hands over some requests and keeps some
others, both in the order of the queue, and a request it keeps has no worker
left at the end and none of its method behind it is handed over. -/
structure Dispatches (queue : List ServiceRequest) (workers : Workers) (handed : List Delivery)
    (kept : List ServiceRequest) (after : Workers) : Prop where
  hands : Hands globMatch workers handed after
  kept_sublist : kept.Sublist queue
  handed_sublist : ∃ taken : List ServiceRequest, taken.Sublist queue ∧
    handed.map (fun delivery => (delivery.arrival, delivery.service, delivery.method)) =
      taken.map fun request => (request.arrival, request.service, request.method)
  exhausted : ∀ request ∈ kept, Exhausted globMatch after request.method
  ordered : queue.Pairwise (fun earlier later => earlier.arrival < later.arrival) →
    ∀ delivery ∈ handed, ∀ request ∈ kept, delivery.arrival ≠ request.arrival ∧
      (delivery.method = request.method → delivery.arrival < request.arrival)

variable {clientID : Bytes}

section Dispatch

variable {globMatch} {queue kept : List ServiceRequest} {workers after : Workers}
  {handed : List Delivery}

theorem Dispatches.mem_queue (hdispatch : Dispatches globMatch queue workers handed kept after)
    (hmem : delivery ∈ handed) :
    ∃ request ∈ queue, request.arrival = delivery.arrival ∧ request.service = delivery.service ∧
      request.method = delivery.method := by
  obtain ⟨taken, hsublist, heq⟩ := hdispatch.handed_sublist
  have hin := List.mem_map_of_mem (f := fun delivery : Delivery =>
    (delivery.arrival, delivery.service, delivery.method)) hmem
  rw [heq] at hin
  obtain ⟨request, hrequest, hsame⟩ := List.mem_map.mp hin
  obtain ⟨harrival, hrest⟩ := Prod.ext_iff.mp hsame
  obtain ⟨hservice, hmethod⟩ := Prod.ext_iff.mp hrest
  exact ⟨request, hsublist.subset hrequest, harrival, hservice, hmethod⟩

theorem Dispatches.handed_increasing
    (hdispatch : Dispatches globMatch queue workers handed kept after)
    (hsorted : queue.Pairwise fun earlier later => earlier.arrival < later.arrival) :
    handed.Pairwise fun earlier later => earlier.arrival < later.arrival := by
  obtain ⟨taken, hsublist, heq⟩ := hdispatch.handed_sublist
  have harrivals : handed.map Delivery.arrival = taken.map ServiceRequest.arrival := by
    have hfst := congrArg (List.map Prod.fst) heq
    rwa [List.map_map, List.map_map] at hfst
  have htaken : (taken.map ServiceRequest.arrival).Pairwise (· < ·) :=
    List.pairwise_map.mpr (hsorted.sublist hsublist)
  rw [← harrivals] at htaken
  exact List.pairwise_map.mp htaken

theorem Dispatches.hand {request : ServiceRequest} {worker : ServiceWorker}
    (hfind : findAvailableWorker globMatch hint workers request.method = some (clientID, worker))
    (hdispatch : Dispatches globMatch queue (handOver workers clientID worker) handed kept after) :
    Dispatches globMatch (request :: queue) workers
      (⟨request.arrival, request.service, request.method, clientID⟩ :: handed) kept after := by
  obtain ⟨hlookup, hcredit, hmatch⟩ := findAvailableWorker_eq_some hfind
  refine ⟨.cons hlookup hcredit hmatch hdispatch.hands, hdispatch.kept_sublist.cons request, ?_,
    hdispatch.exhausted, ?_⟩
  · obtain ⟨taken, hsublist, heq⟩ := hdispatch.handed_sublist
    exact ⟨request :: taken, hsublist.cons_cons request, by rw [List.map_cons, heq]; rfl⟩
  · intro hsorted delivery hmem later hlater
    obtain ⟨hfirst, hrest⟩ := List.pairwise_cons.mp hsorted
    rcases List.mem_cons.mp hmem with rfl | hhanded
    · have hlt := hfirst later (hdispatch.kept_sublist.subset hlater)
      exact ⟨hlt.ne, fun _ => hlt⟩
    · exact hdispatch.ordered hrest delivery hhanded later hlater

theorem Dispatches.keep {request : ServiceRequest}
    (hexhausted : Exhausted globMatch workers request.method)
    (hdispatch : Dispatches globMatch queue workers handed kept after) :
    Dispatches globMatch (request :: queue) workers handed (request :: kept) after := by
  refine ⟨hdispatch.hands, hdispatch.kept_sublist.cons_cons request, ?_, ?_, ?_⟩
  · obtain ⟨taken, hsublist, heq⟩ := hdispatch.handed_sublist
    exact ⟨taken, hsublist.cons request, heq⟩
  · exact List.forall_mem_cons.mpr ⟨hexhausted.hands hdispatch.hands, hdispatch.exhausted⟩
  · intro hsorted delivery hmem later hlater
    obtain ⟨hfirst, hrest⟩ := List.pairwise_cons.mp hsorted
    rcases List.mem_cons.mp hlater with rfl | hkept
    · obtain ⟨source, hsource, harrival, -⟩ := hdispatch.mem_queue hmem
      have hlt := hfirst source hsource
      rw [harrival] at hlt
      exact ⟨hlt.ne', fun hsame =>
        absurd hsame (hdispatch.hands.method_ne hexhausted delivery hmem)⟩
    · exact hdispatch.ordered hrest delivery hmem later hkept

theorem Dispatches.drop {request : ServiceRequest}
    (hdispatch : Dispatches globMatch queue workers handed kept after) :
    Dispatches globMatch (request :: queue) workers handed kept after := by
  obtain ⟨taken, hsublist, heq⟩ := hdispatch.handed_sublist
  refine ⟨hdispatch.hands, hdispatch.kept_sublist.cons request,
    ⟨taken, hsublist.cons request, heq⟩, hdispatch.exhausted, ?_⟩
  intro hsorted
  exact hdispatch.ordered (List.pairwise_cons.mp hsorted).2

theorem dispatchLoop_dispatches (now : Int) (hints : List (List Bytes))
    (queue : List ServiceRequest) (workers : Workers) :
    Dispatches globMatch queue workers (dispatchLoop globMatch now hints queue workers).1
      (dispatchLoop globMatch now hints queue workers).2.1
      (dispatchLoop globMatch now hints queue workers).2.2 := by
  induction queue generalizing hints workers with
  | nil =>
    exact ⟨.nil workers, .refl [], ⟨[], .refl [], rfl⟩,
      fun _ hmem => absurd hmem List.not_mem_nil, fun _ _ hmem => absurd hmem List.not_mem_nil⟩
  | cons request queue ih =>
    rw [dispatchLoop]
    split
    · rcases hfind : findAvailableWorker globMatch (hints.headD []) workers request.method with
        _ | ⟨clientID, worker⟩
      · exact (ih hints.tail workers).keep (findAvailableWorker_eq_none_iff.mp hfind)
      · exact (ih hints.tail (handOver workers clientID worker)).hand hfind
    · exact (ih hints workers).drop

end Dispatch

def AcceptedAs (accepted : List ServiceReq) (arrival : Nat) (service method : Bytes) : Prop :=
  ∃ request, accepted[arrival]? = some request ∧ request.service = service ∧
    request.method = method

/-- A service of the manager: its queue is in the order of arrival, behind all
requests of the same method that were handed over, and no worker is left for it. -/
structure Exchange.Serves (s : Exchange) (name : Bytes) (service : Service) : Prop where
  accepted : ∀ request ∈ service.queue, request.service = name ∧
    AcceptedAs s.accepted request.arrival name request.method
  sorted : service.queue.Pairwise fun earlier later => earlier.arrival < later.arrival
  exhausted : ∀ request ∈ service.queue, Exhausted globMatch service.workers request.method
  nonneg : CreditNonneg service.workers
  behind : ∀ delivery ∈ s.delivered, delivery.service = name → ∀ request ∈ service.queue,
    delivery.arrival ≠ request.arrival ∧
      (delivery.method = request.method → delivery.arrival < request.arrival)

structure Exchange.Fair (s : Exchange) : Prop where
  serves : ∀ name service, s.manager.services.lookup name = some service →
    s.Serves globMatch name service
  accepted : ∀ delivery ∈ s.delivered,
    AcceptedAs s.accepted delivery.arrival delivery.service delivery.method
  ordered : s.delivered.Pairwise fun earlier later => earlier.arrival ≠ later.arrival ∧
    (earlier.service = later.service → earlier.method = later.method →
      earlier.arrival < later.arrival)

section Accepted

variable {accepted : List ServiceReq} {arrival : Nat} {service method : Bytes}

theorem AcceptedAs.lt (haccepted : AcceptedAs accepted arrival service method) :
    arrival < accepted.length := by
  obtain ⟨request, hrequest, -⟩ := haccepted
  exact (List.getElem?_eq_some_iff.mp hrequest).1

theorem AcceptedAs.append (haccepted : AcceptedAs accepted arrival service method)
    (more : List ServiceReq) : AcceptedAs (accepted ++ more) arrival service method := by
  have hlt := haccepted.lt
  obtain ⟨request, hrequest, hsame⟩ := haccepted
  exact ⟨request, by rwa [List.getElem?_append_left hlt], hsame⟩

theorem acceptedAs_last (accepted : List ServiceReq) (request : ServiceReq) :
    AcceptedAs (accepted ++ [request]) accepted.length request.service request.method :=
  ⟨request, List.getElem?_concat_length, rfl, rfl⟩

end Accepted

section Operations

variable {globMatch} {s : Exchange} {name : Bytes} {sm : ServiceManager} {serviceName : Bytes}

theorem registerWorker_eq_ok {after : ServiceManager} {pattern : Bytes} {attributes : Headers}
    {hints : List (List Bytes)} {now : Int}
    (hregister : sm.registerWorker globMatch serviceName clientID pattern attributes hints now =
      .ok (handed, after)) :
    ∃ service kept workers,
      service = (sm.services.lookup serviceName).getD { lastActivity := now } ∧
      Dispatches globMatch service.queue
        (service.workers.insert clientID { pattern, credit := defaultCreditWindow, attributes })
        handed kept workers ∧
      after = { sm with
        services := sm.services.insert serviceName
          { workers, queue := kept, lastActivity := now } } := by
  unfold ServiceManager.registerWorker ServiceManager.handleRegisterWorker at hregister
  split at hregister
  · cases hregister
  · split at hregister
    · cases hregister
    · cases hregister
      exact ⟨_, _, _, rfl, dispatchLoop_dispatches now hints _ _, rfl⟩

variable (globMatch) in
theorem request_cases (s : Exchange) (request : ServiceReq) (hint : List Bytes) (now : Int) :
    s.request globMatch request hint now = s ∨
      ∃ service, s.manager.services.lookup request.service = some service ∧
        ((Exhausted globMatch service.workers request.method ∧
            s.request globMatch request hint now = { s with
              accepted := s.accepted ++ [request]
              manager := { s.manager with
                requestID := s.manager.requestID + 1
                services := s.manager.services.insert request.service { service with
                  queue := ServiceManager.limitQueue
                    (service.queue ++ [s.manager.queued request s.accepted.length]) } } }) ∨
          ∃ clientID worker, findAvailableWorker globMatch hint service.workers request.method =
              some (clientID, worker) ∧
            s.request globMatch request hint now = { s with
              accepted := s.accepted ++ [request]
              delivered := s.delivered ++
                [⟨s.accepted.length, request.service, request.method, clientID⟩]
              manager := { s.manager with
                services := s.manager.services.insert request.service { service with
                  workers := handOver service.workers clientID worker, lastActivity := now } } }) := by
  unfold Exchange.request submitRequest
  by_cases hsize : request.body.length > maxMessageSize
  · rw [if_pos hsize]
    exact Or.inl rfl
  · rw [if_neg hsize]
    dsimp only
    unfold ServiceManager.processRequest
    rcases hlookup : s.manager.services.lookup request.service with _ | service
    · exact Or.inl rfl
    · refine Or.inr ⟨service, rfl, ?_⟩
      dsimp only
      rcases hfind : findAvailableWorker globMatch hint service.workers request.method with
        _ | ⟨clientID, worker⟩
      · refine Or.inl ⟨findAvailableWorker_eq_none_iff.mp hfind, ?_⟩
        dsimp only
        rw [List.append_nil]
      · exact Or.inr ⟨clientID, worker, rfl, rfl⟩

variable {after : Service}

theorem lookup_unregister
    (hlookup : (sm.handleUnregisterWorker serviceName clientID).services.lookup name =
      some after) :
    ∃ before, sm.services.lookup name = some before ∧ after.queue = before.queue ∧
      ∀ other worker, after.workers.lookup other = some worker →
        before.workers.lookup other = some worker := by
  unfold ServiceManager.handleUnregisterWorker at hlookup
  rcases hservice : sm.services.lookup serviceName with _ | service
  · rw [hservice] at hlookup
    exact ⟨after, hlookup, rfl, fun _ _ => id⟩
  · rw [hservice] at hlookup
    dsimp only at hlookup
    split at hlookup
    · dsimp only at hlookup
      rw [lookup_erase_eq] at hlookup
      split at hlookup
      · cases hlookup
      · exact ⟨after, hlookup, rfl, fun _ _ => id⟩
    · dsimp only at hlookup
      rw [lookup_insert_eq] at hlookup
      split at hlookup
      · next heq =>
          cases hlookup
          refine ⟨service, heq ▸ hservice, rfl, fun other worker hworker => ?_⟩
          rw [lookup_erase_eq] at hworker
          exact (Option.ite_none_left_eq_some.mp hworker).2
      · exact ⟨after, hlookup, rfl, fun _ _ => id⟩

theorem lookup_removeClient
    (hlookup : (sm.handleRemoveClient clientID).services.lookup name = some after) :
    ∃ before, sm.services.lookup name = some before ∧ after.queue = before.queue ∧
      after.workers = before.workers.erase clientID := by
  obtain ⟨before, hbefore, rfl⟩ := lookup_of_retain_mapValues hlookup
  exact ⟨before, hbefore, rfl, rfl⟩

theorem lookup_cleanup {now : Int}
    (hlookup : (sm.cleanupExpiredRequests now).services.lookup name = some after) :
    ∃ before, sm.services.lookup name = some before ∧ after.queue.Sublist before.queue ∧
      after.workers = before.workers := by
  obtain ⟨before, hbefore, rfl⟩ := lookup_of_retain_mapValues hlookup
  exact ⟨before, hbefore, List.filter_sublist, rfl⟩

end Operations

variable {operation : Operation} {services : KeyedMap Bytes Service}

section Invariant

variable {globMatch} {s s' : Exchange} {name : Bytes} {service after : Service}

theorem fair_insert (hservices : s.manager.services = services.insert name after)
    (hothers : ∀ other service, other ≠ name → services.lookup other = some service →
      s.Serves globMatch other service) (hafter : s.Serves globMatch name after)
    (haccepted : ∀ delivery ∈ s.delivered,
      AcceptedAs s.accepted delivery.arrival delivery.service delivery.method)
    (hordered : s.delivered.Pairwise fun earlier later => earlier.arrival ≠ later.arrival ∧
      (earlier.service = later.service → earlier.method = later.method →
        earlier.arrival < later.arrival)) : s.Fair globMatch := by
  refine ⟨?_, haccepted, hordered⟩
  intro other service hlookup
  rw [hservices, lookup_insert_eq] at hlookup
  split at hlookup
  · next heq =>
      cases hlookup
      rwa [heq]
  · next hne => exact hothers other service hne hlookup

theorem Exchange.Serves.of_log (hserves : s.Serves globMatch name service)
    (haccepted : s'.accepted = s.accepted) (hdelivered : s'.delivered = s.delivered) :
    s'.Serves globMatch name service :=
  ⟨haccepted ▸ hserves.accepted, hserves.sorted, hserves.exhausted, hserves.nonneg,
    hdelivered ▸ hserves.behind⟩

theorem Exchange.Serves.fewer (hserves : s.Serves globMatch name service)
    (hqueue : after.queue.Sublist service.queue)
    (hworkers : ∀ clientID worker, after.workers.lookup clientID = some worker →
      service.workers.lookup clientID = some worker) : s.Serves globMatch name after := by
  refine ⟨fun request hmem => hserves.accepted request (hqueue.subset hmem),
    hserves.sorted.sublist hqueue, ?_, ?_, ?_⟩
  · intro request hmem clientID worker hlookup
    exact hserves.exhausted request (hqueue.subset hmem) clientID worker
      (hworkers clientID worker hlookup)
  · exact fun clientID worker hlookup =>
      hserves.nonneg clientID worker (hworkers clientID worker hlookup)
  · exact fun delivery hdelivery hservice request hmem =>
      hserves.behind delivery hdelivery hservice request (hqueue.subset hmem)

theorem Exchange.Fair.fewer {manager : ServiceManager} (hs : s.Fair globMatch)
    (hfewer : ∀ name after, manager.services.lookup name = some after →
      ∃ before, s.manager.services.lookup name = some before ∧
        after.queue.Sublist before.queue ∧ ∀ clientID worker,
          after.workers.lookup clientID = some worker →
          before.workers.lookup clientID = some worker) :
    Exchange.Fair globMatch { s with manager } := by
  refine ⟨?_, hs.accepted, hs.ordered⟩
  intro name after hlookup
  obtain ⟨before, hbefore, hqueue, hworkers⟩ := hfewer name after hlookup
  exact ((hs.serves name before hbefore).fewer hqueue hworkers).of_log rfl rfl

theorem Exchange.Fair.accept (hs : s.Fair globMatch) (request : ServiceReq) :
    Exchange.Fair globMatch { s with accepted := s.accepted ++ [request] } := by
  refine ⟨?_, fun delivery hmem => (hs.accepted delivery hmem).append _, hs.ordered⟩
  intro name service hlookup
  obtain ⟨haccepted, hsorted, hexhausted, hnonneg, hbehind⟩ := hs.serves name service hlookup
  refine ⟨?_, hsorted, hexhausted, hnonneg, hbehind⟩
  intro queued hmem
  obtain ⟨hname, hqueued⟩ := haccepted queued hmem
  exact ⟨hname, hqueued.append _⟩

structure Exchange.Follow (s : Exchange) (name : Bytes) (handed : List Delivery) : Prop where
  accepted : ∀ delivery ∈ handed, delivery.service = name ∧
    AcceptedAs s.accepted delivery.arrival name delivery.method
  after : ∀ earlier ∈ s.delivered, earlier.service = name → ∀ later ∈ handed,
    earlier.arrival ≠ later.arrival ∧
      (earlier.method = later.method → earlier.arrival < later.arrival)
  increasing : handed.Pairwise fun earlier later => earlier.arrival < later.arrival

theorem fair_handed (hs : s.Fair globMatch) (hfollow : s.Follow name handed)
    (hservices : s'.manager.services = s.manager.services.insert name after)
    (haccepted : s'.accepted = s.accepted) (hdelivered : s'.delivered = s.delivered ++ handed)
    (hafter : s'.Serves globMatch name after) : s'.Fair globMatch := by
  refine fair_insert hservices ?_ hafter ?_ ?_
  · intro other service hne hlookup
    obtain ⟨hqueued, hsorted, hexhausted, hnonneg, hbehind⟩ := hs.serves other service hlookup
    refine ⟨haccepted ▸ hqueued, hsorted, hexhausted, hnonneg, ?_⟩
    intro delivery hmem hservice
    rw [hdelivered] at hmem
    rcases List.mem_append.mp hmem with hold | hnew
    · exact hbehind delivery hold hservice
    · exact absurd (hservice.symm.trans (hfollow.accepted delivery hnew).1) hne
  · intro delivery hmem
    rw [hdelivered] at hmem
    rw [haccepted]
    rcases List.mem_append.mp hmem with hold | hnew
    · exact hs.accepted delivery hold
    · obtain ⟨hname, hnamed⟩ := hfollow.accepted delivery hnew
      rw [hname]
      exact hnamed
  · rw [hdelivered]
    refine List.pairwise_append.mpr ⟨hs.ordered, ?_, ?_⟩
    · exact hfollow.increasing.imp fun hlt => ⟨hlt.ne, fun _ _ => hlt⟩
    · intro earlier hearlier later hlater
      obtain ⟨hname, hnamed⟩ := hfollow.accepted later hlater
      by_cases hsame : earlier.service = name
      · obtain ⟨hne, hlt⟩ := hfollow.after earlier hearlier hsame later hlater
        exact ⟨hne, fun _ => hlt⟩
      · refine ⟨?_, fun hservice => absurd (hservice.trans hname) hsame⟩
        intro harrival
        have hold := hs.accepted earlier hearlier
        rw [harrival] at hold
        obtain ⟨request, hrequest, hservice, -⟩ := hold
        obtain ⟨request', hrequest', hservice', -⟩ := hnamed
        cases hrequest.symm.trans hrequest'
        exact hsame (hservice.symm.trans hservice')

theorem follow_dispatched {kept : List ServiceRequest} {workers remaining : Workers}
    (hserves : s.Serves globMatch name service)
    (hdispatch : Dispatches globMatch service.queue workers handed kept remaining) :
    s.Follow name handed := by
  refine ⟨?_, ?_, hdispatch.handed_increasing hserves.sorted⟩
  · intro delivery hmem
    obtain ⟨request, hrequest, harrival, hservice, hmethod⟩ := hdispatch.mem_queue hmem
    obtain ⟨hname, hqueued⟩ := hserves.accepted request hrequest
    rw [← harrival, ← hservice, ← hmethod]
    exact ⟨hname, hqueued⟩
  · intro earlier hearlier hservice later hlater
    obtain ⟨request, hrequest, harrival, -, hmethod⟩ := hdispatch.mem_queue hlater
    rw [← harrival, ← hmethod]
    exact hserves.behind earlier hearlier hservice request hrequest

theorem serves_getD (hs : s.Fair globMatch) (name : Bytes) (now : Int) :
    s.Serves globMatch name
      ((s.manager.services.lookup name).getD { lastActivity := now }) := by
  rcases hlookup : s.manager.services.lookup name with _ | service
  · have hempty : ∀ request : ServiceRequest, request ∉ ([] : List ServiceRequest) :=
      fun _ => List.not_mem_nil
    refine ⟨fun request hmem => absurd hmem (hempty request), .nil,
      fun request hmem => absurd hmem (hempty request), ?_,
      fun _ _ _ request hmem => absurd hmem (hempty request)⟩
    intro clientID worker hworker
    cases hworker
  · exact hs.serves name service hlookup

theorem fair_register (hs : s.Fair globMatch) (serviceName clientID pattern : Bytes)
    (attributes : Headers) (hints : List (List Bytes)) (now : Int) :
    (s.register globMatch serviceName clientID pattern attributes hints now).Fair globMatch := by
  unfold Exchange.register
  split
  · exact hs
  · next handed manager hregister =>
    obtain ⟨service, kept, remaining, rfl, hdispatch, rfl⟩ := registerWorker_eq_ok hregister
    have hserves := serves_getD hs serviceName now
    refine fair_handed hs (follow_dispatched hserves hdispatch) rfl rfl rfl ?_
    have hkept := hdispatch.kept_sublist
    refine ⟨fun request hmem => hserves.accepted request (hkept.subset hmem),
      hserves.sorted.sublist hkept, hdispatch.exhausted, ?_, ?_⟩
    · refine .hands ?_ hdispatch.hands
      intro other worker hlookup
      rw [lookup_insert_eq] at hlookup
      split at hlookup
      · cases hlookup
        exact (by decide : (0 : Int32) ≤ defaultCreditWindow)
      · exact hserves.nonneg other worker hlookup
    · intro delivery hmem hservice request hrequest
      rcases List.mem_append.mp hmem with hold | hnew
      · exact hserves.behind delivery hold hservice request (hkept.subset hrequest)
      · exact hdispatch.ordered hserves.sorted delivery hnew request hrequest

theorem serves_queued (hs : s.Fair globMatch) {request : ServiceReq}
    (hlookup : s.manager.services.lookup request.service = some service)
    (hexhausted : Exhausted globMatch service.workers request.method) :
    Exchange.Serves globMatch { s with accepted := s.accepted ++ [request] } request.service
      { service with
        queue := service.queue ++ [s.manager.queued request s.accepted.length] } := by
  have hserves := (hs.accept request).serves request.service service hlookup
  refine ⟨?_, ?_, ?_, hserves.nonneg, ?_⟩
  · exact List.forall_mem_append.mpr
      ⟨hserves.accepted, List.forall_mem_singleton.mpr ⟨rfl, acceptedAs_last s.accepted request⟩⟩
  · refine List.pairwise_append.mpr ⟨hserves.sorted, List.pairwise_singleton _ _, ?_⟩
    intro earlier hearlier later hlater
    rw [List.mem_singleton.mp hlater]
    exact ((hs.serves _ service hlookup).accepted earlier hearlier).2.lt
  · exact List.forall_mem_append.mpr ⟨hserves.exhausted, List.forall_mem_singleton.mpr hexhausted⟩
  · intro delivery hmem hservice queued hqueued
    rcases List.mem_append.mp hqueued with hold | hnew
    · exact hserves.behind delivery hmem hservice queued hold
    · rw [List.mem_singleton.mp hnew]
      have hlt := (hs.accepted delivery hmem).lt
      exact ⟨hlt.ne, fun _ => hlt⟩

theorem fair_request (hs : s.Fair globMatch) (request : ServiceReq) (hint : List Bytes)
    (now : Int) : (s.request globMatch request hint now).Fair globMatch := by
  rcases request_cases globMatch s request hint now with hsame |
    ⟨service, hlookup, ⟨hexhausted, hqueue⟩ | ⟨clientID, worker, hfind, hhand⟩⟩
  · rwa [hsame]
  · rw [hqueue]
    refine fair_insert rfl ?_ ?_ (hs.accept request).accepted hs.ordered
    · intro other kept _ hother
      exact ((hs.accept request).serves other kept hother).of_log rfl rfl
    · have hfull := serves_queued hs hlookup hexhausted
      refine .of_log (hfull.fewer ?_ fun _ _ => id) rfl rfl
      unfold ServiceManager.limitQueue
      split
      · exact List.tail_sublist _
      · exact .refl _
  · rw [hhand]
    have hserves := (hs.accept request).serves request.service service hlookup
    have hbefore := hs.serves request.service service hlookup
    have hhands : Hands globMatch service.workers
        [⟨s.accepted.length, request.service, request.method, clientID⟩]
        (handOver service.workers clientID worker) := hands_singleton hfind
    refine fair_handed (hs.accept request) ⟨?_, ?_, List.pairwise_singleton _ _⟩ rfl rfl rfl ?_
    · intro delivery hmem
      rw [List.mem_singleton.mp hmem]
      exact ⟨rfl, acceptedAs_last s.accepted request⟩
    · intro earlier hearlier _ later hlater
      rw [List.mem_singleton.mp hlater]
      have hlt := (hs.accepted earlier hearlier).lt
      exact ⟨hlt.ne, fun _ => hlt⟩
    · refine ⟨hserves.accepted, hserves.sorted,
        fun queued hmem => (hserves.exhausted queued hmem).hands hhands,
        hserves.nonneg.hands hhands, ?_⟩
      intro delivery hmem hservice queued hqueued
      rcases List.mem_append.mp hmem with hold | hnew
      · exact hserves.behind delivery hold hservice queued hqueued
      · have hlt := (hbefore.accepted queued hqueued).2.lt
        have hother := hhands.method_ne (hserves.exhausted queued hqueued) delivery hnew
        rw [List.mem_singleton.mp hnew] at hother ⊢
        exact ⟨hlt.ne', fun hsame => absurd hsame hother⟩

theorem fair_step (hs : s.Fair globMatch) (hstep : s.step globMatch operation = some s') :
    s'.Fair globMatch := by
  cases operation with
  | register serviceName clientID pattern attributes hints now =>
    cases hstep
    exact fair_register hs serviceName clientID pattern attributes hints now
  | unregister serviceName clientID =>
    cases hstep
    refine hs.fewer fun name after hlookup => ?_
    obtain ⟨before, hbefore, hqueue, hworkers⟩ := lookup_unregister hlookup
    exact ⟨before, hbefore, hqueue ▸ List.Sublist.refl _, hworkers⟩
  | removeClient clientID =>
    cases hstep
    refine hs.fewer fun name after hlookup => ?_
    obtain ⟨before, hbefore, hqueue, hworkers⟩ := lookup_removeClient hlookup
    refine ⟨before, hbefore, hqueue ▸ List.Sublist.refl _, fun other worker hworker => ?_⟩
    rw [hworkers, lookup_erase_eq] at hworker
    exact (Option.ite_none_left_eq_some.mp hworker).2
  | request request hint now =>
    cases hstep
    exact fair_request hs request hint now
  | cleanup now =>
    cases hstep
    refine hs.fewer fun name after hlookup => ?_
    obtain ⟨before, hbefore, hqueue, hworkers⟩ := lookup_cleanup hlookup
    exact ⟨before, hbefore, hqueue, fun _ _ hworker => hworkers ▸ hworker⟩

theorem fair_run {maxServices serviceTimeout : Int} {operations : List Operation}
    (hrun : run (Exchange.step globMatch) (start maxServices serviceTimeout) operations = some s) :
    s.Fair globMatch := by
  apply run_keeps _ _ hrun
  · intro s operation s' hs hstep
    exact fair_step hs hstep
  · exact ⟨nofun, nofun, .nil⟩

end Invariant

def Exchange.workersOf (s : Exchange) (name : Bytes) : Workers :=
  ((s.manager.services.lookup name).map Service.workers).getD ∅

/-- The workers of a service when the operation starts to hand over requests. -/
def Exchange.registered (s : Exchange) (operation : Operation) (name : Bytes) : Workers :=
  match operation with
  | .register serviceName clientID pattern attributes _ _ =>
    if serviceName = name then
      (s.workersOf name).insert clientID { pattern, credit := defaultCreditWindow, attributes }
    else s.workersOf name
  | .unregister _ _ | .removeClient _ | .request _ _ _ | .cleanup _ => s.workersOf name

/-- What an operation hands over are requests of one service, given to its
registered workers. -/
def Exchange.HandsOver (s : Exchange) (operation : Operation) (s' : Exchange) : Prop :=
  ∃ name handed, s'.delivered = s.delivered ++ handed ∧
    (∀ delivery ∈ handed, delivery.service = name) ∧
    (handed ≠ [] → Hands globMatch (s.registered operation name) handed (s'.workersOf name))

structure Exchange.Dispatched (s : Exchange) : Prop where
  accepted : ∀ delivery ∈ s.delivered,
    AcceptedAs s.accepted delivery.arrival delivery.service delivery.method
  once : (s.delivered.map Delivery.arrival).Nodup
  ordered : s.delivered.Pairwise fun earlier later => earlier.service = later.service →
    earlier.method = later.method → earlier.arrival < later.arrival
  nonneg : ∀ name service, s.manager.services.lookup name = some service →
    ∀ clientID worker, service.workers.lookup clientID = some worker → 0 ≤ worker.credit
  conserving : ∀ name service, s.manager.services.lookup name = some service →
    ∀ request ∈ service.queue, ∀ clientID worker,
      service.workers.lookup clientID = some worker → 0 < worker.credit →
      matchesPattern globMatch request.method worker.pattern = false

section Claims

variable {globMatch} {s s' : Exchange}

theorem Exchange.Fair.dispatched (hs : s.Fair globMatch) : s.Dispatched globMatch := by
  refine ⟨hs.accepted, ?_, ?_, ?_, ?_⟩
  · exact List.pairwise_map.mpr (hs.ordered.imp And.left)
  · exact hs.ordered.imp And.right
  · exact fun name service hlookup => (hs.serves name service hlookup).nonneg
  · exact fun name service hlookup => (hs.serves name service hlookup).exhausted

theorem handsOver_none (hsame : s'.delivered = s.delivered) : s.HandsOver globMatch operation s' :=
  ⟨[], [], by rw [hsame, List.append_nil], fun _ hmem => absurd hmem List.not_mem_nil,
    fun hne => absurd rfl hne⟩

theorem workersOf_insert {name : Bytes} {service : Service}
    (hservices : s.manager.services = services.insert name service) :
    s.workersOf name = service.workers := by
  rw [Exchange.workersOf, hservices, AList.lookup_insert]
  rfl

theorem handsOver_step (hs : s.Fair globMatch) (hstep : s.step globMatch operation = some s') :
    s.HandsOver globMatch operation s' := by
  cases operation with
  | register serviceName clientID pattern attributes hints now =>
    cases hstep
    unfold Exchange.register
    split
    · exact handsOver_none rfl
    · next handed manager hregister =>
      obtain ⟨service, kept, after, rfl, hdispatch, rfl⟩ := registerWorker_eq_ok hregister
      have hfollow := follow_dispatched (serves_getD hs serviceName now) hdispatch
      refine ⟨serviceName, handed, rfl, fun delivery hmem => (hfollow.accepted delivery hmem).1,
        fun _ => ?_⟩
      rw [workersOf_insert rfl, Exchange.registered, if_pos rfl, Exchange.workersOf]
      have hhands := hdispatch.hands
      rcases hlookup : s.manager.services.lookup serviceName with _ | service
      all_goals rwa [hlookup] at hhands
  | request request hint now =>
    cases hstep
    rcases request_cases globMatch s request hint now with hsame |
      ⟨service, hlookup, ⟨-, hqueue⟩ | ⟨clientID, worker, hfind, hhand⟩⟩
    · exact handsOver_none (by rw [hsame])
    · exact handsOver_none (by rw [hqueue])
    · rw [hhand]
      refine ⟨request.service, _, rfl, ?_, fun _ => ?_⟩
      · intro delivery hmem
        rw [List.mem_singleton.mp hmem]
      · have hworkers : s.workersOf request.service = service.workers := by
          rw [Exchange.workersOf, hlookup]
          rfl
        rw [workersOf_insert rfl, Exchange.registered, hworkers]
        exact hands_singleton hfind
  | unregister | removeClient | cleanup =>
    cases hstep
    exact handsOver_none rfl

end Claims

/-- In each state that the operations lead to, requests were handed over at most
once and in order, and none waits that a worker could take; each operation from
there hands requests only to workers that are registered, match and have credit. -/
theorem service_dispatch (maxServices serviceTimeout : Int) (operations : List Operation)
    {s : Exchange}
    (hrun : run (Exchange.step globMatch) (start maxServices serviceTimeout) operations = some s) :
    s.Dispatched globMatch ∧ ∀ operation s', s.step globMatch operation = some s' →
      s.HandsOver globMatch operation s' :=
  ⟨(fair_run hrun).dispatched, fun _ _ hstep => handsOver_step (fair_run hrun) hstep⟩

section Example

def literalMatch (pattern method : Bytes) : Option Bool :=
  some (pattern == method)

def job (method : Bytes) : ServiceReq where
  service := ascii "print"
  method := method
  sender := ascii "client"
  tracker := []
  body := []
  attributes := ∅
  timeout := 100
  timestamp := 0

def printJobs : List Operation :=
  [.register (ascii "print") (ascii "w1") (ascii "mono") ∅ [] 0,
    .request (job (ascii "colour")) [] 1, .request (job (ascii "mono")) [] 2,
    .request (job (ascii "colour")) [] 3,
    .register (ascii "print") (ascii "w2") (ascii "*") ∅ [[ascii "w2"], [ascii "w1"]] 4]

theorem printJobs_dispatch :
    ∃ s, run (Exchange.step literalMatch) (start 5 1000) printJobs = some s ∧
      s.delivered.map (fun delivery => (delivery.arrival, delivery.clientID)) =
        [(1, ascii "w1"), (0, ascii "w2"), (2, ascii "w2")] ∧
      s.Dispatched literalMatch ∧ ∀ operation s', s.step literalMatch operation = some s' →
        s.HandsOver literalMatch operation s' :=
  ⟨_, rfl, by decide +kernel, service_dispatch literalMatch 5 1000 printJobs rfl⟩

end Example

end Zmq4.MalamuteService

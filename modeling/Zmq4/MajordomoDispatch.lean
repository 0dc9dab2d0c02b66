import Zmq4.MajordomoBroker

namespace Zmq4.MajordomoDispatch

open ByteCodec ActionRuns MajordomoMessages MajordomoBroker
open MajordomoCalls (sendToWorker)

variable {b' : Broker} {key name : Bytes} {sends : List Bool} {service : Service} {action : Action}

section Usable

variable {o : Options}

/-- Each worker in the map is in one of the lists of its service. -/
def Usable (b : Broker) : Prop :=
  ∀ key worker, b.workers.lookup key = some worker →
    worker ∈ (b.service (b.heap worker).service).members

/-- No available worker of the service has expired when a request for it comes. -/
def NoneExpired (b : Broker) : Action → Prop
  | .message frames _ =>
    ∀ sender msg, processMessage frames = some (sender, .client msg) →
      ∀ worker ∈ (b.service msg.service).availableWorkers, b.isExpired worker = false
  | _ => True

variable {b : Broker}

theorem Usable.congr (hu : Usable b) (hworkers : b'.workers = b.workers)
    (hheap : ∀ worker, (b'.heap worker).service = (b.heap worker).service)
    (hservices : ∀ name, ∀ worker ∈ (b.service name).members, worker ∈ (b'.service name).members) :
    Usable b' := by
  intro key worker hlookup
  rw [hworkers] at hlookup
  rw [hheap worker]
  exact hservices _ worker (hu key worker hlookup)

theorem usable_setService (hu : Usable b)
    (hsubset : ∀ worker ∈ (b.service name).members, worker ∈ service.members) :
    Usable (b.setService name service) := by
  refine hu.congr rfl (fun _ => rfl) fun other worker hworker => ?_
  rcases eq_or_ne other name with rfl | hne
  · rw [service_setService_self]
    exact hsubset worker hworker
  · rwa [service_setService_ne b hne]

theorem usable_renewExpiry (hu : Usable b) (worker : Nat) : Usable (renewExpiry o b worker) := by
  refine hu.congr rfl (fun other => ?_) fun _ _ => id
  exact (renewExpiry_heap b worker other).2

theorem usable_removeWorker (hs : Sound b) (hu : Usable b) {worker : Nat}
    (hlookup : b.workers.lookup key = some worker) : Usable (removeWorker b key worker) := by
  rw [removeWorker_eq hs hlookup]
  intro other later hlater
  have hne : other ≠ key := by
    rintro rfl
    exact absurd hlater (by simp [Broker.setService])
  have hold : b.workers.lookup other = some later :=
    (AList.lookup_erase_ne hne).symm.trans hlater
  have hdistinct : later ≠ worker := by
    rintro rfl
    exact hne ((hs.keyed other later hold).1.symm.trans (hs.keyed key later hlookup).1)
  have hmember := hu other later hold
  change later ∈ (Broker.service _ (b.heap later).service).members
  generalize (b.heap later).service = name at hmember ⊢
  rcases eq_or_ne name (b.heap worker).service with rfl | hservice
  · rw [service_setService_self, members_removeFromLists (hs.nodup _), List.mem_filter]
    exact ⟨hmember, by simpa using hdistinct⟩
  · rw [service_setService_ne _ hservice]
    exact hmember

theorem usable_registerWorker (hs : Sound b) (hu : Usable b) (identity name : Bytes) :
    Usable (registerWorker o b identity name) := by
  intro key worker hlookup
  rcases eq_or_ne key identity with rfl | hne
  · obtain rfl : b.next = worker := by simpa [registerWorker] using hlookup
    rw [heap_registerWorker_next, (members_registerWorker b key name).mem_iff]
    exact List.mem_cons_self
  · have hold : b.workers.lookup key = some worker :=
      (AList.lookup_insert_ne hne).symm.trans hlookup
    rw [heap_registerWorker_of_lt (hs.keyed key worker hold).2]
    have hmember := hu key worker hold
    rcases eq_or_ne (b.heap worker).service name with heq | hservice
    · rw [heq] at hmember ⊢
      exact (members_registerWorker b identity name).mem_iff.mpr (List.mem_cons_of_mem _ hmember)
    · rwa [service_registerWorker_ne b identity hservice]

theorem usable_moveToAvailable (hs : Sound b) (hu : Usable b) (name : Bytes) (worker : Nat) :
    Usable (b.setService name (moveWorkerToAvailable worker (b.service name))) := by
  refine usable_setService hu fun other hother => ?_
  rw [(members_moveWorkerToAvailable (hs.nodup name) worker).mem_iff, List.mem_cons]
  rcases eq_or_ne other worker with rfl | hne
  · exact .inl rfl
  · exact .inr ((List.mem_erase_of_ne hne).mpr hother)

theorem usable_processWorkerMessage (hs : Sound b) (hu : Usable b) (identity : Bytes)
    (msg : Message) : Usable (processWorkerMessage o b identity msg) := by
  rw [processWorkerMessage]
  split
  · rename_i worker hlookup
    split
    · rw [disconnectWorker, (hs.keyed identity worker hlookup).1]
      exact usable_removeWorker hs hu hlookup
    · split
      · exact usable_moveToAvailable (sound_renewExpiry hs worker) (usable_renewExpiry hu worker) _ _
      · split
        · exact usable_renewExpiry hu worker
        · exact hu
  · split
    · exact usable_registerWorker hs hu identity msg.service
    · exact hu

/-- A dispatch strands the workers that it leaves out as expired: they stay in the
map. -/
theorem usable_dispatchRequests_iff (hs : Sound b) (hu : Usable b)
    (hdispatch : dispatchRequests b name sends = some b') :
    Usable b' ↔ ∀ worker ∈ (b.service name).availableWorkers, b.isExpired worker = false := by
  obtain ⟨service, new, rfl, hnew⟩ := dispatchRequests_eq_some hs hdispatch
  have hmembers : ∀ worker, worker ∈ service.members ↔
      (worker ∈ (b.service name).availableWorkers ∧ b.isExpired worker = false) ∨
        worker ∈ (b.service name).busyWorkers := by
    intro worker
    rw [hnew.members.mem_iff, Service.members, List.mem_append, List.mem_filter, Bool.not_eq_true']
  constructor
  · intro husable worker hworker
    obtain ⟨hlookup, hservice⟩ := hs.listed name worker (List.mem_append_left _ hworker)
    have hmember := husable _ worker hlookup
    change worker ∈ ((b.setService name service).service (b.heap worker).service).members at hmember
    rw [hservice, service_setService_self, hmembers] at hmember
    rcases hmember with hkept | hbusy
    · exact hkept.2
    · exact absurd rfl ((List.nodup_append.mp (hs.nodup name)).2.2 worker hworker worker hbusy)
  · intro hnone
    refine (usable_setService hu fun worker hworker => ?_).congr rfl (fun _ => rfl) fun _ _ => id
    rw [hmembers]
    rcases List.mem_append.mp hworker with havailable | hbusy
    · exact .inl ⟨havailable, hnone worker havailable⟩
    · exact .inr hbusy

theorem step_usable_iff (hs : Sound b) (hu : Usable b) (hstep : step o b action = some b') :
    Usable b' ↔ NoneExpired b action := by
  rcases step_cases hstep with ⟨frames, _, sender, msg, rfl, hmessage, rfl⟩ |
    ⟨frames, _, sender, msg, rfl, hmessage, hdispatch⟩ | ⟨frames, _, rfl, hmessage, rfl⟩ |
    ⟨order, rfl, rfl⟩ | ⟨_, rfl, rfl⟩
  · refine iff_of_true (usable_processWorkerMessage hs hu sender msg) fun other client hother => ?_
    rw [hmessage] at hother
    cases hother
  · have haccepted : Usable (acceptRequest b sender msg) := by
      refine hu.congr rfl (fun _ => rfl) fun name worker hworker => ?_
      rwa [members_acceptRequest]
    rw [usable_dispatchRequests_iff (sound_acceptRequest hs sender msg) haccepted hdispatch,
      (service_acceptRequest b sender msg msg.service).1]
    simp only [NoneExpired, hmessage, Option.some.injEq, Prod.mk.injEq, Incoming.client.injEq]
    exact ⟨fun hnone other client heq => heq.2 ▸ hnone, fun hall => hall sender msg ⟨rfl, rfl⟩⟩
  · refine iff_of_true hu fun other client hother => ?_
    rw [hmessage] at hother
    cases hother
  · refine iff_of_true ?_ trivial
    have hworkers := foldl_cleanupWorker (I := Usable)
      (fun hs hu hlookup => usable_removeWorker hs hu hlookup) order hs hu
    refine hworkers.2.congr rfl (fun _ => rfl) fun name worker hworker => ?_
    rwa [service_cleanupRequests]
  · exact iff_of_true (hu.congr rfl (fun _ => rfl) fun _ _ => id) trivial

/-- The broker keeps its workers usable as long as no available worker has expired
when a request comes. -/
theorem usable_iff_noneExpired (o : Options) (now : Int) {actions : List Action} {b : Broker}
    (hrun : run (step o) (newBroker now) actions = some b) :
    Always (step o) Usable (newBroker now) actions ↔
      Throughout (step o) NoneExpired (newBroker now) actions :=
  always_iff_throughout (fun _ _ _ hs _ hstep => sound_step hs hstep)
    (fun _ _ _ hs hu hstep => step_usable_iff hs hu hstep) (sound_newBroker now)
    (fun _ _ hlookup => by cases hlookup) hrun

theorem usable_iff_noneExpired_stranded :
    (∃ b, run (step tenAndHundred) (newBroker 0) strandedWorker = some b) ∧
      (Always (step tenAndHundred) Usable (newBroker 0) strandedWorker ↔
        Throughout (step tenAndHundred) NoneExpired (newBroker 0) strandedWorker) :=
  ⟨⟨_, rfl⟩, usable_iff_noneExpired tenAndHundred 0 rfl⟩

theorem worker_stranded :
    ∃ b, run (step tenAndHundred) (newBroker 0) strandedWorker = some b ∧
      b.workers.lookup [1] = some 0 ∧ (b.heap 0).service = ascii "echo" ∧ b.isExpired 0 = false ∧
      (b.service (ascii "echo")).members = [] :=
  ⟨_, rfl, by decide, by decide, by decide, by decide⟩

end Usable

section Conserving

variable {o : Options}

/-- No service has both a request that waits and an available worker that is not
expired. -/
def Conserving (b : Broker) : Prop :=
  ∀ name, (b.service name).requests ≠ [] →
    ∀ worker ∈ (b.service name).availableWorkers, b.isExpired worker = true

def freedService (b : Broker) (sender : Bytes) (msg : Message) : Option Bytes :=
  match b.workers.lookup sender with
  | none => if msg.command = workerReady then some msg.service else none
  | some worker =>
    let name := (b.heap worker).service
    if msg.command = workerReply then some name
    else if msg.command = workerHeartbeat ∧ worker ∈ (b.service name).availableWorkers then
      some name
    else none

/-- No request waits for the service that gets a worker from a message. -/
def FreesIdle (o : Options) (b : Broker) : Action → Prop
  | .message frames _ =>
    ∀ sender msg, processMessage frames = some (sender, .worker msg) →
      ∀ name, freedService b sender msg = some name →
        o.heartbeatExpiry < 0 ∨ (b.service name).requests = []
  | _ => True

variable {b : Broker} {worker : Nat} {name : Bytes}

theorem Conserving.mono (hc : Conserving b)
    (hrequests : ∀ name, (b.service name).requests = [] → (b'.service name).requests = [])
    (havailable : ∀ name, ∀ worker ∈ (b'.service name).availableWorkers,
      worker ∈ (b.service name).availableWorkers ∧
        (b.isExpired worker = true → b'.isExpired worker = true)) : Conserving b' := by
  intro name hwaiting worker hworker
  obtain ⟨hold, hexpired⟩ := havailable name worker hworker
  exact hexpired (hc name (mt (hrequests name) hwaiting) worker hold)

theorem isExpired_renewExpiry (b : Broker) (worker : Nat) :
    (renewExpiry o b worker).isExpired worker = decide (o.heartbeatExpiry < 0) := by
  simp [Broker.isExpired, renewExpiry]

variable {other : Nat}

theorem isExpired_renewExpiry_ne (b : Broker) (hne : other ≠ worker) :
    (renewExpiry o b worker).isExpired other = b.isExpired other := by
  simp [Broker.isExpired, renewExpiry, Function.update_of_ne hne]

theorem conserving_registerWorker_iff (hs : Sound b) (hc : Conserving b) (identity name : Bytes) :
    Conserving (registerWorker o b identity name) ↔
      o.heartbeatExpiry < 0 ∨ (b.service name).requests = [] := by
  have hself : (registerWorker o b identity name).isExpired b.next =
      decide (o.heartbeatExpiry < 0) := by
    rw [Broker.isExpired, heap_registerWorker_next]
    simp [registerWorker, Broker.setService]
  have hold : ∀ other, ∀ worker ∈ (b.service other).availableWorkers,
      (registerWorker o b identity name).isExpired worker = b.isExpired worker := by
    intro other worker hworker
    have hlt := hs.lt_next (List.mem_append_left _ hworker)
    rw [Broker.isExpired, heap_registerWorker_of_lt hlt]
    rfl
  have hservice := service_registerWorker (o := o) b identity name
  constructor
  · intro hconserving
    by_contra hnot
    rw [not_or] at hnot
    have hexpired := hconserving name (by rw [hservice]; exact hnot.2) b.next (by simp [hservice])
    rw [hself, decide_eq_true_eq] at hexpired
    exact hnot.1 hexpired
  · rintro hidle other hwaiting worker hworker
    rcases eq_or_ne other name with rfl | hne
    · rw [hservice] at hwaiting hworker
      rcases List.mem_append.mp hworker with havailable | hnew
      · rw [hold other worker havailable]
        exact hc other hwaiting worker havailable
      · rw [List.mem_singleton.mp hnew, hself, decide_eq_true_eq]
        exact hidle.resolve_right hwaiting
    · rw [service_registerWorker_ne b identity hne] at hwaiting hworker
      rw [hold other worker hworker]
      exact hc other hwaiting worker hworker

theorem ne_of_available (hs : Sound b) (hother : other ∈ (b.service name).availableWorkers)
    (hne : name ≠ (b.heap worker).service) :
    other ≠ worker := by
  rintro rfl
  exact hne (hs.listed name other (List.mem_append_left _ hother)).2.symm

theorem conserving_heartbeat_iff (hs : Sound b) (hc : Conserving b) (worker : Nat) :
    Conserving (renewExpiry o b worker) ↔
      (worker ∈ (b.service (b.heap worker).service).availableWorkers →
        o.heartbeatExpiry < 0 ∨ (b.service (b.heap worker).service).requests = []) := by
  constructor
  · intro hconserving hworker
    by_contra hnot
    rw [not_or] at hnot
    have hexpired := hconserving _ hnot.2 worker hworker
    rw [isExpired_renewExpiry, decide_eq_true_eq] at hexpired
    exact hnot.1 hexpired
  · intro hidle name hwaiting other hother
    rcases eq_or_ne other worker with rfl | hne
    · have hname : name = (b.heap other).service := by
        by_contra hne
        exact ne_of_available hs hother hne rfl
      rw [isExpired_renewExpiry, decide_eq_true_eq]
      subst hname
      exact (hidle hother).resolve_right hwaiting
    · rw [isExpired_renewExpiry_ne b hne]
      exact hc name hwaiting other hother

theorem mem_available_moveWorkerToAvailable :
    other ∈ (moveWorkerToAvailable worker service).availableWorkers ↔
      other ∈ service.availableWorkers ∨ other = worker := by
  rw [moveWorkerToAvailable]
  split
  · rename_i havailable
    exact ⟨.inl, fun h => h.elim id fun heq => heq ▸ havailable⟩
  · simp

theorem conserving_reply_iff (hs : Sound b) (hc : Conserving b)
    (hservice : (b.heap worker).service = name) :
    Conserving ((renewExpiry o b worker).setService name
        (moveWorkerToAvailable worker ((renewExpiry o b worker).service name))) ↔
      o.heartbeatExpiry < 0 ∨ (b.service name).requests = [] := by
  have hself := isExpired_renewExpiry (o := o) b worker
  constructor
  · intro hconserving
    by_contra hnot
    rw [not_or] at hnot
    have hexpired := hconserving name
      (by rw [service_setService_self]; exact hnot.2) worker
      (by rw [service_setService_self, mem_available_moveWorkerToAvailable]; exact .inr rfl)
    change (renewExpiry o b worker).isExpired worker = true at hexpired
    rw [hself, decide_eq_true_eq] at hexpired
    exact hnot.1 hexpired
  · intro hidle other hwaiting later hlater
    change (renewExpiry o b worker).isExpired later = true
    rcases eq_or_ne other name with rfl | hne
    · rw [service_setService_self] at hwaiting hlater
      rcases eq_or_ne later worker with rfl | hdistinct
      · rw [hself, decide_eq_true_eq]
        exact hidle.resolve_right hwaiting
      · rw [isExpired_renewExpiry_ne b hdistinct]
        have havailable := mem_available_moveWorkerToAvailable.mp hlater
        exact hc other hwaiting later (havailable.resolve_right hdistinct)
    · rw [service_setService_ne _ hne] at hwaiting hlater
      have hdistinct := ne_of_available hs hlater (hservice ▸ hne)
      rw [isExpired_renewExpiry_ne b hdistinct]
      exact hc other hwaiting later hlater

theorem service_removeWorker (hs : Sound b) (hlookup : b.workers.lookup key = some worker)
    (name : Bytes) :
    ((removeWorker b key worker).service name).requests = (b.service name).requests ∧
      ((removeWorker b key worker).service name).availableWorkers ⊆
        (b.service name).availableWorkers := by
  rw [removeWorker_eq hs hlookup]
  rcases eq_or_ne name (b.heap worker).service with rfl | hne
  · rw [service_setService_self]
    exact ⟨rfl, List.erase_subset⟩
  · rw [service_setService_ne _ hne]
    exact ⟨rfl, .refl _⟩

theorem conserving_removeWorker (hs : Sound b) (hc : Conserving b)
    (hlookup : b.workers.lookup key = some worker) :
    Conserving (removeWorker b key worker) := by
  refine hc.mono (fun name hnone => ?_) fun name other hother => ?_
  · rw [(service_removeWorker hs hlookup name).1, hnone]
  · refine ⟨(service_removeWorker hs hlookup name).2 hother, ?_⟩
    rw [removeWorker_eq hs hlookup]
    exact id

theorem conserving_processWorkerMessage_iff (hs : Sound b) (hc : Conserving b) (sender : Bytes)
    (msg : Message) :
    Conserving (processWorkerMessage o b sender msg) ↔
      ∀ name, freedService b sender msg = some name →
        o.heartbeatExpiry < 0 ∨ (b.service name).requests = [] := by
  rcases hlookup : b.workers.lookup sender with _ | worker
  · simp only [processWorkerMessage, freedService, hlookup]
    split
    · simp [conserving_registerWorker_iff hs hc]
    · simp [hc]
  · simp only [processWorkerMessage, freedService, hlookup]
    split
    · rename_i hgone
      have hreply : msg.command ≠ workerReply := by
        rcases hgone with h | h <;> rw [h] <;> decide
      have hheartbeat : msg.command ≠ workerHeartbeat := by
        rcases hgone with h | h <;> rw [h] <;> decide
      rw [disconnectWorker, (hs.keyed sender worker hlookup).1]
      simp [hreply, hheartbeat, conserving_removeWorker hs hc hlookup]
    · split
      · rw [(renewExpiry_heap b worker worker).2, conserving_reply_iff hs hc rfl]
        simp
      · split
        · rename_i hheartbeat
          rw [conserving_heartbeat_iff hs hc]
          simp [hheartbeat]
        · rename_i hheartbeat
          simp [hheartbeat, hc]

theorem conserving_dispatchRequests (hs : Sound b)
    (hothers : ∀ other, other ≠ name → (b.service other).requests ≠ [] →
      ∀ worker ∈ (b.service other).availableWorkers, b.isExpired worker = true)
    (hdispatch : dispatchRequests b name sends = some b') :
    Conserving b' := by
  obtain ⟨service, new, rfl, hnew⟩ := dispatchRequests_eq_some hs hdispatch
  intro other hwaiting worker hworker
  change ((b.setService name service).service other).requests ≠ [] at hwaiting
  change worker ∈ ((b.setService name service).service other).availableWorkers at hworker
  rcases eq_or_ne other name with rfl | hne
  · rw [service_setService_self] at hwaiting hworker
    rw [hnew.done.resolve_left hwaiting] at hworker
    exact absurd hworker List.not_mem_nil
  · rw [service_setService_ne _ hne] at hwaiting hworker
    exact hothers other hne hwaiting worker hworker

theorem step_conserving_iff (hs : Sound b) (hc : Conserving b) (hstep : step o b action = some b') :
    Conserving b' ↔ FreesIdle o b action := by
  rcases step_cases hstep with ⟨frames, _, sender, msg, rfl, hmessage, rfl⟩ |
    ⟨frames, _, sender, msg, rfl, hmessage, hdispatch⟩ | ⟨frames, _, rfl, hmessage, rfl⟩ |
    ⟨order, rfl, rfl⟩ | ⟨nanoseconds, rfl, rfl⟩
  · rw [conserving_processWorkerMessage_iff hs hc]
    simp only [FreesIdle, hmessage, Option.some.injEq, Prod.mk.injEq, Incoming.worker.injEq]
    constructor
    · rintro hidle _ _ ⟨rfl, rfl⟩
      exact hidle
    · intro hall
      exact hall sender msg ⟨rfl, rfl⟩
  · refine iff_of_true ?_ fun other worker hother => ?_
    · refine conserving_dispatchRequests (sound_acceptRequest hs sender msg) ?_ hdispatch
      intro other hne hwaiting worker hworker
      rw [show (acceptRequest b sender msg).service other = b.service other from
        service_setService_ne b hne _] at hwaiting hworker
      exact hc other hwaiting worker hworker
    · rw [hmessage] at hother
      cases hother
  · refine iff_of_true hc fun other worker hother => ?_
    rw [hmessage] at hother
    cases hother
  · refine iff_of_true ?_ trivial
    have hworkers := foldl_cleanupWorker (I := Conserving)
      (fun hs hc hlookup => conserving_removeWorker hs hc hlookup) order hs hc
    refine hworkers.2.mono (fun name hnone => ?_) fun name worker hworker => ?_
    · rw [service_cleanupRequests, hnone]
      rfl
    · rw [service_cleanupRequests] at hworker
      exact ⟨hworker, id⟩
  · refine iff_of_true (hc.mono (fun _ => id) fun name worker hworker => ⟨hworker, ?_⟩) trivial
    simp only [Broker.isExpired, decide_eq_true_eq]
    omega

/-- The broker leaves no request waiting as long as no request waits for the service
of a worker that becomes free. -/
theorem conserving_iff_freesIdle (o : Options) (now : Int) {actions : List Action} {b : Broker}
    (hrun : run (step o) (newBroker now) actions = some b) :
    Always (step o) Conserving (newBroker now) actions ↔
      Throughout (step o) (FreesIdle o) (newBroker now) actions :=
  always_iff_throughout (fun _ _ _ hs _ hstep => sound_step hs hstep)
    (fun _ _ _ hs hc hstep => step_conserving_iff hs hc hstep) (sound_newBroker now)
    (fun _ hwaiting => absurd rfl hwaiting) hrun

def lateWorker : List Action :=
  [.message (fromClient [7] (ascii "echo") [5]) [],
    .message (fromWorker [1] workerReady (ascii "echo")) []]

theorem conserving_iff_freesIdle_lateWorker :
    (∃ b, run (step tenAndHundred) (newBroker 0) lateWorker = some b) ∧
      (Always (step tenAndHundred) Conserving (newBroker 0) lateWorker ↔
        Throughout (step tenAndHundred) (FreesIdle tenAndHundred) (newBroker 0) lateWorker) :=
  ⟨⟨_, rfl⟩, conserving_iff_freesIdle tenAndHundred 0 rfl⟩

theorem request_left_waiting :
    ∃ b, run (step tenAndHundred) (newBroker 0) lateWorker = some b ∧
      (b.service (ascii "echo")).requests.map PendingRequest.body = [[5]] ∧
      (b.service (ascii "echo")).availableWorkers = [0] ∧ b.isExpired 0 = false :=
  ⟨_, rfl, by decide, by decide, by decide⟩

end Conserving

section Order

variable {o : Options}

def forService (name : Bytes) (requests : List PendingRequest) : List PendingRequest :=
  requests.filter fun request => request.service = name

theorem forService_append (name : Bytes) (first second : List PendingRequest) :
    forService name (first ++ second) = forService name first ++ forService name second :=
  List.filter_append first second

/-- What was sent and what waits, for each service, is what was accepted for it, in
that order and without those that were given up. -/
structure InOrder (b : Broker) : Prop where
  numbered : b.accepted.map PendingRequest.number = List.range b.accepted.length
  ordered : ∀ name, List.Sublist
    (forService name (b.dispatched.map Dispatch.request) ++ (b.service name).requests)
    (forService name b.accepted)

variable {b b' : Broker}

theorem InOrder.mono (hb : InOrder b) (haccepted : b'.accepted = b.accepted)
    (hdispatched : b'.dispatched = b.dispatched)
    (hrequests : ∀ name, List.Sublist (b'.service name).requests (b.service name).requests) :
    InOrder b' := by
  constructor
  · rw [haccepted]
    exact hb.numbered
  · intro name
    rw [haccepted, hdispatched]
    exact ((hrequests name).append_left _).trans (hb.ordered name)

structure SameRequests (b b' : Broker) : Prop where
  accepted : b'.accepted = b.accepted
  dispatched : b'.dispatched = b.dispatched
  requests : ∀ name, (b'.service name).requests = (b.service name).requests

theorem SameRequests.inOrder (hsame : SameRequests b b') (hb : InOrder b) : InOrder b' :=
  hb.mono hsame.accepted hsame.dispatched fun name => by rw [hsame.requests name]

theorem sameRequests_removeWorker (hs : Sound b) {worker : Nat}
    (hlookup : b.workers.lookup key = some worker) :
    SameRequests b (removeWorker b key worker) := by
  refine ⟨?_, ?_, fun name => (service_removeWorker hs hlookup name).1⟩
  · rw [removeWorker_eq hs hlookup]
    rfl
  · rw [removeWorker_eq hs hlookup]
    rfl

theorem sameRequests_processWorkerMessage (hs : Sound b) (sender : Bytes) (msg : Message) :
    SameRequests b (processWorkerMessage o b sender msg) := by
  rw [processWorkerMessage]
  split
  · rename_i worker hlookup
    split
    · rw [disconnectWorker, (hs.keyed sender worker hlookup).1]
      exact sameRequests_removeWorker hs hlookup
    · split
      · refine ⟨rfl, rfl, ?_⟩
        exact forall_setService (P := fun name service => service.requests =
          (b.service name).requests) rfl fun _ _ => rfl
      · split
        · exact ⟨rfl, rfl, fun _ => rfl⟩
        · exact ⟨rfl, rfl, fun _ => rfl⟩
  · split
    · refine ⟨rfl, rfl, ?_⟩
      exact forall_setService (b := b) (P := fun name service => service.requests =
        (b.service name).requests) rfl fun _ _ => rfl
    · exact ⟨rfl, rfl, fun _ => rfl⟩

theorem inOrder_acceptRequest (hb : InOrder b) (sender : Bytes) (msg : Message) :
    InOrder (acceptRequest b sender msg) := by
  have haccepted : (acceptRequest b sender msg).accepted = b.accepted ++
      [{ number := b.accepted.length, client := sender, service := msg.service, body := msg.body
         created := b.now }] := rfl
  constructor
  · rw [haccepted, List.map_append, hb.numbered, List.length_append, List.length_singleton,
      List.range_succ]
    rfl
  · intro name
    have hold := hb.ordered name
    rw [haccepted]
    rcases eq_or_ne name msg.service with rfl | hne
    · rw [show ((acceptRequest b sender msg).service msg.service).requests =
        (b.service msg.service).requests ++
          [{ number := b.accepted.length, client := sender, service := msg.service, body := msg.body
             created := b.now }] from congrArg Service.requests (service_setService_self b _ _)]
      rw [← List.append_assoc, forService_append]
      refine hold.append ?_
      simp [forService]
    · rw [show (acceptRequest b sender msg).service name = b.service name from
        service_setService_ne b hne _]
      rw [forService_append]
      exact hold.trans (List.sublist_append_left _ _)

theorem inOrder_dispatchRequests (hs : Sound b) (hb : InOrder b)
    (hdispatch : dispatchRequests b name sends = some b') : InOrder b' := by
  obtain ⟨service, new, rfl, hnew⟩ := dispatchRequests_eq_some hs hdispatch
  have hrequests : new.map Dispatch.request ++ service.requests = (b.service name).requests :=
    hnew.requests
  have hservice : ∀ request ∈ new.map Dispatch.request, request.service = name := by
    intro request hrequest
    have hwaiting : request ∈ (b.service name).requests := by
      rw [← hrequests]
      exact List.mem_append_left _ hrequest
    have haccepted := (hb.ordered name).subset (List.mem_append_right _ hwaiting)
    simpa [forService] using (List.mem_filter.mp haccepted).2
  refine ⟨hb.numbered, fun other => ?_⟩
  have hold := hb.ordered other
  change List.Sublist (forService other ((b.dispatched ++ new).map Dispatch.request) ++
    ((b.setService name service).service other).requests) (forService other b.accepted)
  rw [List.map_append, forService_append]
  rcases eq_or_ne other name with rfl | hne
  · have hall : forService other (new.map Dispatch.request) = new.map Dispatch.request := by
      rw [forService, List.filter_eq_self]
      simpa using hservice
    rw [hall, service_setService_self, List.append_assoc, hrequests]
    exact hold
  · have hnone : forService other (new.map Dispatch.request) = [] := by
      rw [forService, List.filter_eq_nil_iff]
      intro request hrequest
      simpa [hservice request hrequest] using hne.symm
    rw [hnone, service_setService_ne _ hne, List.append_nil]
    exact hold

theorem inOrder_step (hb : Sound b ∧ InOrder b) (hstep : step o b action = some b') :
    Sound b' ∧ InOrder b' := by
  obtain ⟨hs, horder⟩ := hb
  refine ⟨sound_step hs hstep, ?_⟩
  rcases step_cases hstep with ⟨_, _, sender, msg, _, _, rfl⟩ | ⟨_, _, sender, msg, _, _, hdispatch⟩ |
    ⟨_, _, _, _, rfl⟩ | ⟨order, _, rfl⟩ | ⟨_, _, rfl⟩
  · exact (sameRequests_processWorkerMessage hs sender msg).inOrder horder
  · exact inOrder_dispatchRequests (sound_acceptRequest hs sender msg)
      (inOrder_acceptRequest horder sender msg) hdispatch
  · exact horder
  · have hworkers := foldl_cleanupWorker (I := InOrder)
      (fun hs hb hlookup => (sameRequests_removeWorker hs hlookup).inOrder hb) order hs horder
    refine hworkers.2.mono rfl rfl fun name => ?_
    rw [service_cleanupRequests]
    exact List.filter_sublist
  · exact horder.mono rfl rfl fun _ => .refl _

/-- The requests a step sends go, with their own client and body, to workers
registered for their service. -/
def SendsProperly (o : Options) (b : Broker) (action : Action) : Prop :=
  ∀ b', step o b action = some b' →
    ∃ new, b'.dispatched = b.dispatched ++ new ∧
      ∀ d ∈ new, d.request ∈ b'.accepted ∧ Registered b' d.request.service d.worker ∧
        d.msg = sendToWorker (b'.heap d.worker).identity workerRequest d.request.client
          d.request.body

theorem sendsProperly (hb : Sound b ∧ InOrder b) (action : Action) : SendsProperly o b action := by
  intro b' hstep
  rcases step_cases hstep with ⟨_, _, sender, msg, _, _, rfl⟩ | ⟨_, _, sender, msg, _, _, hdispatch⟩ |
    ⟨_, _, _, _, rfl⟩ | ⟨order, _, rfl⟩ | ⟨_, _, rfl⟩
  · have hsame := (sameRequests_processWorkerMessage (o := o) hb.1 sender msg).dispatched
    exact ⟨[], hsame.trans (List.append_nil _).symm, nofun⟩
  · have hs := sound_acceptRequest hb.1 sender msg
    have horder := inOrder_acceptRequest hb.2 sender msg
    obtain ⟨service, new, rfl, hnew⟩ := dispatchRequests_eq_some hs hdispatch
    refine ⟨new, rfl, fun d hd => ?_⟩
    obtain ⟨hmember, hmsg⟩ := hnew.sent d hd
    have hwaiting : d.request ∈ ((acceptRequest b sender msg).service msg.service).requests := by
      have hrequest : d.request ∈ new.map Dispatch.request ++ service.requests :=
        List.mem_append_left _ (List.mem_map_of_mem hd)
      rw [hnew.requests] at hrequest
      exact hrequest
    have haccepted := (horder.ordered msg.service).subset (List.mem_append_right _ hwaiting)
    rw [forService, List.mem_filter, decide_eq_true_eq] at haccepted
    have hlisted := hs.listed msg.service d.worker
      ((List.filter_sublist.append_right _).subset hmember)
    refine ⟨haccepted.1, ?_, hmsg⟩
    rw [haccepted.2]
    exact hlisted
  · exact ⟨[], (List.append_nil _).symm, nofun⟩
  · have hworkers := foldl_cleanupWorker (I := fun c => c.dispatched = b.dispatched)
      (fun hs hc hlookup => (sameRequests_removeWorker hs hlookup).dispatched.trans hc) order hb.1
      rfl
    exact ⟨[], hworkers.2.trans (List.append_nil _).symm, nofun⟩
  · exact ⟨[], (List.append_nil _).symm, nofun⟩

theorem InOrder.nodup_dispatched (hb : InOrder b) :
    (b.dispatched.map fun d => d.request.number).Nodup := by
  have hnumbers : (b.accepted.map PendingRequest.number).Nodup := by
    rw [hb.numbered]
    exact List.nodup_range
  have hsublist : ∀ name, List.Sublist (forService name (b.dispatched.map Dispatch.request))
      (forService name b.accepted) :=
    fun name => (List.sublist_append_left _ _).trans (hb.ordered name)
  have hmem : ∀ request ∈ b.dispatched.map Dispatch.request, request ∈ b.accepted := by
    intro request hrequest
    have hservice : request ∈ forService request.service (b.dispatched.map Dispatch.request) :=
      List.mem_filter.mpr ⟨hrequest, by simp⟩
    exact (List.mem_filter.mp ((hsublist _).subset hservice)).1
  have hnodup : (b.dispatched.map Dispatch.request).Nodup := by
    refine List.nodup_iff_count_le_one.mpr fun request => ?_
    have hcount : (forService request.service (b.dispatched.map Dispatch.request)).count request =
        (b.dispatched.map Dispatch.request).count request := List.count_filter (by simp)
    rw [← hcount]
    exact List.nodup_iff_count_le_one.mp
      (((hnumbers.of_map _).filter _).sublist (hsublist request.service)) request
  have hmap := hnodup.map_on fun first hfirst second hsecond heq =>
    List.inj_on_of_nodup_map hnumbers (hmem first hfirst) (hmem second hsecond) heq
  rwa [List.map_map] at hmap

/-- Each request is sent at most once, to a worker registered for its service, and
those of one service in the order of their acceptance. -/
theorem dispatches_inOrder (o : Options) (now : Int) {actions : List Action} {b : Broker}
    (hrun : run (step o) (newBroker now) actions = some b) :
    Throughout (step o) (SendsProperly o) (newBroker now) actions ∧
      (b.dispatched.map fun d => d.request.number).Nodup ∧
      ∀ name, List.Sublist (forService name (b.dispatched.map Dispatch.request))
        (forService name b.accepted) := by
  have hstart : Sound (newBroker now) ∧ InOrder (newBroker now) :=
    ⟨sound_newBroker now, (⟨rfl, fun _ => .refl _⟩)⟩
  have hb := run_keeps (fun _ _ _ => inOrder_step) hstart hrun
  refine ⟨?_, hb.2.nodup_dispatched, fun name => ?_⟩
  · exact throughout_of_invariant (fun _ _ _ => inOrder_step) (fun _ action hc =>
      sendsProperly hc action) hstart actions
  · exact (List.sublist_append_left _ _).trans (hb.2.ordered name)

def retriedRequest : List Action :=
  [.message (fromWorker [1] workerReady (ascii "echo")) [],
    .message (fromClient [7] (ascii "echo") [5]) [false, true],
    .message (fromClient [9] (ascii "echo") [6]) []]

theorem dispatches_inOrder_retried :
    ∃ b, run (step tenAndHundred) (newBroker 0) retriedRequest = some b ∧
      Throughout (step tenAndHundred) (SendsProperly tenAndHundred) (newBroker 0) retriedRequest ∧
      (b.dispatched.map fun d => d.request.number).Nodup ∧
      ∀ name, List.Sublist (forService name (b.dispatched.map Dispatch.request))
        (forService name b.accepted) :=
  ⟨_, rfl, dispatches_inOrder tenAndHundred 0
    (show run (step tenAndHundred) (newBroker 0) retriedRequest = some _ from rfl)⟩

end Order

end Zmq4.MajordomoDispatch

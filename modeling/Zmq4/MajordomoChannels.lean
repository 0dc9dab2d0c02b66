import Zmq4.KeyedMaps
import Zmq4.MajordomoCalls
import Zmq4.OneShotChannels

namespace Zmq4.MajordomoChannels

open ByteCodec ActionRuns KeyedMaps OneShotChannels MajordomoMessages
open DuplexProgram (Err)
open ZmtpMessage (Msg)
open MajordomoCalls (AsyncReply requestFrame asyncProcessReply)

section Model

/-- The points in time are in nanoseconds. -/
structure PendingRequest where
  service : Bytes
  timestamp : Int
  replyCh : Nat

/-- A reply channel on which a reply is to be sent, unless it has been `sent`, and that
is to be closed then. -/
structure Job where
  replyCh : Nat
  reply : AsyncReply
  sent : Bool
  deriving DecidableEq

/-- Who has the mutex of the client: `RequestAsync` in its `Send`, or `cleanup` or
`Disconnect` in its loop. -/
inductive Holder where
  | nobody
  | sending (reqID : Bytes) (replyCh : Nat)
  | finishing (jobs : List Job)
  deriving DecidableEq

/-- `replying` are the calls of `processReply` that have found their request. -/
structure AsyncClient where
  running : Bool
  stopClosed : Bool
  requestID : Nat
  pending : KeyedMap Bytes PendingRequest
  holder : Holder
  replying : List Job
  channels : Channels AsyncReply

def newAsyncClient : AsyncClient where
  running := false
  stopClosed := false
  requestID := 0
  pending := ∅
  holder := .nobody
  replying := []
  channels := Channels.new

structure Timeout where
  duration : Int
  text : String

inductive Action where
  | connect (dialed : Bool)
  | requestAsync (service : Bytes) (now : Int)
  | sent (ok : Bool)
  | processReply (frames : List Bytes)
  | reply (i : Nat)
  | cleanup (now : Int) (hint : List Bytes)
  | disconnect (closed : Bool) (hint : List Bytes)
  | finish
  /-- The application reads from a reply channel. -/
  | receive (replyCh : Nat)

def requestAsync (c : AsyncClient) (service : Bytes) (now : Int) : AsyncClient :=
  if c.running then
    match validate service with
    | .error _ => c
    | .ok _ =>
      let requestID := (c.requestID + 1) % 2 ^ 64
      let reqID := requestFrame requestID
      let replyCh := c.channels.allocated
      { c with
        requestID := requestID
        pending := c.pending.insert reqID
          { service := service, timestamp := now, replyCh := replyCh }
        holder := .sending reqID replyCh
        channels := c.channels.make }
  else c

def requestSent (c : AsyncClient) (reqID : Bytes) (replyCh : Nat) (ok : Bool) : AsyncClient :=
  if ok then { c with holder := .nobody }
  else
    { c with
      pending := c.pending.erase reqID
      holder := .nobody
      channels := c.channels.close replyCh }

def finalReply (service : Bytes) (frames : List Bytes) : AsyncReply :=
  match parseClientMessage frames with
  | .error err =>
    { service := [], body := [], error := some (.wrap "mdp: invalid reply message" err) }
  | .ok reply =>
    if reply.service = service then
      { service := reply.service, body := reply.body, error := none }
    else
      { service := [], body := []
        error := some (.text ("mdp: service mismatch in reply: got " ++
          showBytes reply.service ++ ", expected " ++ showBytes service)) }

def processReply (c : AsyncClient) (reqID : Bytes) (frames : List Bytes) : AsyncClient :=
  match c.pending.lookup reqID with
  | none => c
  | some pending =>
    { c with
      pending := c.pending.erase reqID
      replying := c.replying ++
        [{ replyCh := pending.replyCh, reply := finalReply pending.service frames
           sent := false }] }

def Job.advance (job : Job) (channels : Channels AsyncReply) :
    Option (Option Job × Channels AsyncReply) :=
  if job.sent then some (none, channels.close job.replyCh)
  else
    (channels.send job.replyCh job.reply).map fun channels =>
      (some { job with sent := true }, channels)

def replyStep (c : AsyncClient) (i : Nat) : Option AsyncClient := do
  let job ← c.replying[i]?
  let (left, channels) ← job.advance c.channels
  some { c with
    replying := c.replying.take i ++ left.toList ++ c.replying.drop (i + 1)
    channels := channels }

/-- The loops of `cleanup` and `Disconnect`.  The entries go when the loop begins: the
mutex keeps everybody else from the map until it ends. -/
def finishAll (c : AsyncClient) (hint : List Bytes) (take : PendingRequest → Bool) (err : Err) :
    AsyncClient :=
  { c with
    pending := retain (fun _ pending => !take pending) c.pending
    holder := .finishing
      (((ranged hint c.pending).filter fun entry => take entry.2).map fun entry =>
        { replyCh := entry.2.replyCh, reply := { service := [], body := [], error := some err }
          sent := false }) }

def cleanup (timeout : Timeout) (c : AsyncClient) (now : Int) (hint : List Bytes) : AsyncClient :=
  finishAll c hint (fun pending => decide (now - pending.timestamp > timeout.duration))
    (.text ("mdp: request timeout after " ++ timeout.text))

/-- `closed` tells whether the socket closes without an error.  Closing `stopCh` again
makes the call panic. -/
def disconnect (c : AsyncClient) (closed : Bool) (hint : List Bytes) : AsyncClient :=
  if c.running then
    if c.stopClosed || !closed then { c with running := false, stopClosed := true }
    else
      finishAll { c with running := false, stopClosed := true } hint (fun _ => true)
        (.text "mdp: client disconnected")
  else c

/-- The one who has the mutex goes on, and leaves it after the last request. -/
def finishStep (c : AsyncClient) : Option AsyncClient :=
  match c.holder with
  | .finishing [] => some { c with holder := .nobody }
  | .finishing (job :: jobs) => do
      let (left, channels) ← job.advance c.channels
      some { c with holder := .finishing (left.toList ++ jobs), channels := channels }
  | _ => none

def locked (c : AsyncClient) (next : AsyncClient) : Option AsyncClient :=
  if c.holder = .nobody then some next else none

def step (timeout : Timeout) (c : AsyncClient) : Action → Option AsyncClient
  | .connect dialed => locked c { c with running := c.running || dialed }
  | .requestAsync service now => locked c (requestAsync c service now)
  | .sent ok =>
    match c.holder with
    | .sending reqID replyCh => some (requestSent c reqID replyCh ok)
    | _ => none
  | .processReply [] => some c
  | .processReply (reqID :: frames) => locked c (processReply c reqID frames)
  | .reply i => replyStep c i
  | .cleanup now hint => locked c (cleanup timeout c now hint)
  | .disconnect closed hint => locked c (disconnect c closed hint)
  | .finish => finishStep c
  | .receive replyCh =>
    (c.channels.receive replyCh).map fun channels => { c with channels := channels }

end Model

/-- `asyncProcessReply` sends the same reply. -/
theorem asyncProcessReply_eq_deliver {c : MajordomoCalls.AsyncClient} {msg : Msg} {reqID : Bytes}
    {frames : List Bytes} {pending : MajordomoCalls.PendingRequest}
    (hframes : msg.frames = reqID :: frames) (hpending : c.pending reqID = some pending) :
    asyncProcessReply c msg =
      { c with pending := Function.update c.pending reqID none }.deliver pending.replyCh
        (finalReply pending.service frames) := by
  rw [asyncProcessReply, finalReply]
  rcases hparse : parseClientMessage frames with err | reply
  · simp only [hframes, hpending, hparse]
  · by_cases hservice : reply.service = pending.service
    · simp only [hframes, hpending, hparse, if_pos hservice]
    · simp only [hframes, hpending, hparse, if_neg hservice]

section Ownership

def Job.claim (job : Job) : Nat × Bool :=
  (job.replyCh, job.sent)

def Holder.jobs : Holder → List Job
  | .finishing jobs => jobs
  | _ => []

def pendingClaims (m : KeyedMap Bytes PendingRequest) : List (Nat × Bool) :=
  (pairs m).map fun entry => (entry.2.replyCh, false)

/-- The reply channels of the pending requests and those that are taken. -/
def claims (c : AsyncClient) : List (Nat × Bool) :=
  pendingClaims c.pending ++ (c.holder.jobs.map Job.claim ++ c.replying.map Job.claim)

structure Owned (c : AsyncClient) : Prop where
  holds : Holds (claims c) c.channels
  sending : ∀ reqID replyCh, c.holder = .sending reqID replyCh →
    ∃ pending, c.pending.lookup reqID = some pending ∧ pending.replyCh = replyCh

variable {timeout : Timeout} {c d : AsyncClient}

theorem pendingClaims_erase {m : KeyedMap Bytes PendingRequest} {reqID : Bytes}
    {pending : PendingRequest} (hpending : m.lookup reqID = some pending) :
    ((pending.replyCh, false) :: pendingClaims (m.erase reqID)).Perm (pendingClaims m) :=
  (pairs_erase hpending).map fun entry : Bytes × PendingRequest => (entry.2.replyCh, false)

theorem advance_holds {job : Job} {others : List (Nat × Bool)} {channels : Channels AsyncReply}
    (hholds : Holds (job.claim :: others) channels) :
    ∃ left channels', job.advance channels = some (left, channels') ∧
      Holds (left.toList.map Job.claim ++ others) channels' := by
  rcases job with ⟨replyCh, reply, _ | _⟩
  · obtain ⟨channels', hsend, hholds'⟩ := holds_send hholds reply
    refine ⟨some ⟨replyCh, reply, true⟩, channels', ?_, hholds'⟩
    simp [Job.advance, hsend]
  · exact ⟨none, channels.close replyCh, rfl, holds_close hholds⟩

theorem replying_split {i : Nat} {job : Job} (hjob : c.replying[i]? = some job) :
    c.replying = c.replying.take i ++ job :: c.replying.drop (i + 1) := by
  obtain ⟨hi, rfl⟩ := List.getElem?_eq_some_iff.mp hjob
  rw [← List.drop_eq_getElem_cons hi, List.take_append_drop]

theorem replyStep_holds (hc : Holds (claims c) c.channels) {i : Nat} {job : Job}
    (hjob : c.replying[i]? = some job) :
    ∃ replying channels, replyStep c i =
        some { c with replying := replying, channels := channels } ∧
      Holds (pendingClaims c.pending ++ (c.holder.jobs.map Job.claim ++ replying.map Job.claim))
        channels := by
  have hclaims : (job.claim :: (pendingClaims c.pending ++ (c.holder.jobs.map Job.claim ++
      (c.replying.take i ++ c.replying.drop (i + 1)).map Job.claim))).Perm (claims c) := by
    rw [claims]
    nth_rewrite 3 [replying_split hjob]
    rw [List.perm_iff_count]
    intro claim
    simp only [List.map_append, List.map_cons, List.count_append, List.count_cons]
    omega
  obtain ⟨left, channels, hadvance, hholds⟩ := advance_holds (hc.perm hclaims)
  refine ⟨c.replying.take i ++ left.toList ++ c.replying.drop (i + 1), channels, ?_,
    hholds.perm ?_⟩
  · rw [replyStep, hjob]
    simp only [Option.bind_eq_bind, Option.bind_some, hadvance]
  · rw [List.perm_iff_count]
    intro claim
    simp only [List.map_append, List.count_append]
    omega

theorem finishStep_holds (hc : Holds (claims c) c.channels) {jobs : List Job}
    (hholder : c.holder = .finishing jobs) :
    ∃ holder channels, finishStep c = some { c with holder := holder, channels := channels } ∧
      (∀ reqID replyCh, holder ≠ .sending reqID replyCh) ∧
      Holds (pendingClaims c.pending ++ (holder.jobs.map Job.claim ++ c.replying.map Job.claim))
        channels := by
  rw [claims, hholder] at hc
  rcases jobs with _ | ⟨job, jobs⟩
  · refine ⟨.nobody, c.channels, ?_, nofun, hc⟩
    simp [finishStep, hholder]
  · have hclaims : (job.claim :: (pendingClaims c.pending ++ (jobs.map Job.claim ++
        c.replying.map Job.claim))).Perm (pendingClaims c.pending ++
          ((job :: jobs).map Job.claim ++ c.replying.map Job.claim)) := by
      rw [List.map_cons, List.cons_append]
      exact List.perm_middle.symm
    obtain ⟨left, channels, hadvance, hholds⟩ := advance_holds (hc.perm hclaims)
    refine ⟨.finishing (left.toList ++ jobs), channels, ?_, nofun, hholds.perm ?_⟩
    · simp [finishStep, hholder, hadvance]
    · rw [List.perm_iff_count]
      intro claim
      simp only [Holder.jobs, List.map_append, List.count_append]
      omega

theorem claims_of_nobody (hholder : c.holder = .nobody) :
    claims c = pendingClaims c.pending ++ c.replying.map Job.claim := by
  rw [claims, hholder]
  rfl

theorem requestAsync_owned (hc : Owned c) (hholder : c.holder = .nobody) (service : Bytes)
    (now : Int) : Owned (requestAsync c service now) := by
  rw [requestAsync]
  split
  · split
    · exact hc
    · constructor
      · have hholds := hc.holds
        rw [claims_of_nobody hholder] at hholds
        refine (holds_make hholds).sublist ?_
        rw [claims, pendingClaims, pairs_insert]
        apply List.Sublist.cons_cons
        exact ((pairs_erase_sublist _ _).map _).append (List.Sublist.refl _)
      · intro reqID replyCh heq
        cases heq
        exact ⟨_, AList.lookup_insert _, rfl⟩
  · exact hc

theorem requestSent_owned (hc : Owned c) {reqID : Bytes} {replyCh : Nat}
    (hholder : c.holder = .sending reqID replyCh) (ok : Bool) :
    Owned (requestSent c reqID replyCh ok) := by
  have hholds := hc.holds
  rw [claims, hholder] at hholds
  rw [requestSent]
  split
  · exact ⟨hholds, nofun⟩
  · obtain ⟨pending, hpending, rfl⟩ := hc.sending reqID replyCh hholder
    have hown := hholds.perm ((pendingClaims_erase hpending).append_right _)
    exact ⟨holds_close hown, nofun⟩

theorem processReply_owned (hc : Owned c) (hholder : c.holder = .nobody) (reqID : Bytes)
    (frames : List Bytes) : Owned (processReply c reqID frames) := by
  rw [processReply]
  split
  · exact hc
  next pending hpending =>
    refine ⟨hc.holds.perm ?_, ?_⟩
    · simp only [claims, hholder, Holder.jobs, List.map_nil, List.nil_append, List.map_append]
      rw [← List.append_assoc]
      refine List.perm_append_comm.trans ?_
      exact (pendingClaims_erase hpending).append_right _
    · intro _ _ hsending
      exact absurd (hholder.symm.trans hsending) nofun

theorem finishAll_owned (hc : Owned c) (hholder : c.holder = .nobody) (hint : List Bytes)
    (take : PendingRequest → Bool) (err : Err) : Owned (finishAll c hint take err) := by
  refine ⟨hc.holds.perm ?_, nofun⟩
  rw [claims_of_nobody hholder, claims, ← List.append_assoc]
  apply List.Perm.append_right
  refine List.perm_append_comm.trans ?_
  have hsplit := (pairs_split hint c.pending fun _ pending => take pending).map
    fun entry => (entry.2.replyCh, false)
  rw [List.map_append] at hsplit
  simpa only [finishAll, Holder.jobs, pendingClaims, List.map_map, Function.comp_def, Job.claim]
    using hsplit

theorem locked_owned {c' : AsyncClient} (hstep : locked c d = some c') (hnext : c.holder = .nobody → Owned d) :
    Owned c' := by
  obtain ⟨hholder, ⟨⟩⟩ := Option.ite_none_right_eq_some.mp hstep
  exact hnext hholder

theorem disconnect_owned (hc : Owned c) (hholder : c.holder = .nobody) (closed : Bool)
    (hint : List Bytes) : Owned (disconnect c closed hint) := by
  rw [disconnect]
  split
  · split
    · exact ⟨hc.holds, hc.sending⟩
    · apply finishAll_owned
      · exact ⟨hc.holds, hc.sending⟩
      · exact hholder
  · exact hc

theorem step_owned (hc : Owned c) {action : Action} (hstep : step timeout c action = some d) :
    Owned d := by
  rcases action with
    dialed | ⟨service, now⟩ | ok | (_ | ⟨reqID, frames⟩) | i | ⟨now, hint⟩ | ⟨closed, hint⟩ | _ |
      replyCh
  · exact locked_owned hstep fun _ => ⟨hc.holds, hc.sending⟩
  · exact locked_owned hstep fun hholder => requestAsync_owned hc hholder service now
  · rw [step] at hstep
    split at hstep
    next hholder =>
      cases hstep
      exact requestSent_owned hc hholder ok
    · exact absurd hstep nofun
  · cases hstep
    exact hc
  · exact locked_owned hstep fun hholder => processReply_owned hc hholder reqID frames
  · rcases hjob : c.replying[i]? with _ | job
    · simp [step, replyStep, hjob] at hstep
    · obtain ⟨replying, channels, hreply, hholds⟩ := replyStep_holds hc.holds hjob
      cases hreply.symm.trans hstep
      exact ⟨hholds, hc.sending⟩
  · exact locked_owned hstep fun hholder => finishAll_owned hc hholder hint _ _
  · exact locked_owned hstep fun hholder => disconnect_owned hc hholder closed hint
  · rcases hholder : c.holder with _ | _ | jobs
    · simp [step, finishStep, hholder] at hstep
    · simp [step, finishStep, hholder] at hstep
    · obtain ⟨holder, channels, hfinish, hnot, hholds⟩ := finishStep_holds hc.holds hholder
      cases hfinish.symm.trans hstep
      exact ⟨hholds, fun _ _ hsending => absurd hsending (hnot _ _)⟩
  · obtain ⟨channels, hreceive, ⟨⟩⟩ := Option.map_eq_some_iff.mp hstep
    exact ⟨holds_receive hc.holds hreceive, hc.sending⟩

end Ownership

/-- Each reply channel gets one reply and is closed once at most, with no send after the
close, and whoever has the mutex goes on without waiting for a reply channel. -/
structure OneShot (c : AsyncClient) : Prop where
  once : ∀ replyCh, (c.channels.cell replyCh).sends ≤ 1 ∧ (c.channels.cell replyCh).closes ≤ 1
  proper : c.channels.misused = false
  unblocked : ∀ jobs, c.holder = .finishing jobs → (finishStep c).isSome
  replying : ∀ i < c.replying.length, (replyStep c i).isSome

theorem Owned.oneShot {c : AsyncClient} (hc : Owned c) : OneShot c where
  once := hc.holds.once
  proper := hc.holds.proper
  unblocked := by
    intro jobs hholder
    obtain ⟨_, _, hfinish, -⟩ := finishStep_holds hc.holds hholder
    rw [hfinish]
    rfl
  replying := by
    intro i hi
    obtain ⟨_, _, hreply, -⟩ := replyStep_holds hc.holds (List.getElem?_eq_getElem hi)
    rw [hreply]
    rfl

/-- Whatever replies come, and whoever takes a pending request first, its reply channel
is used once. -/
theorem replyChannels_oneShot (timeout : Timeout) (actions : List Action) :
    Always (step timeout) OneShot newAsyncClient actions := by
  refine always_of_kept (I := Owned) (K := fun _ _ => True) ?_ ?_ ⟨holds_new, nofun⟩ ?_
  · exact fun _ _ _ hc _ hstep => step_owned hc hstep
  · exact fun _ hc => hc.oneShot
  · exact throughout_of_forall (fun _ _ _ => trivial) _

example :
    (run (step ⟨30, "30ns"⟩) newAsyncClient
      [.connect true, .requestAsync (ascii "echo") 0, .sent true, .disconnect true [], .finish,
        .finish, .finish]).map (fun c => ((c.channels.cell 0).sends, (c.channels.cell 0).closes)) =
      some (1, 1) := by
  decide

end Zmq4.MajordomoChannels

import Zmq4.ActionRuns
import Zmq4.RequestReply

namespace Zmq4.WriterPool

open ActionRuns DuplexProgram ZmtpMessage RequestReply

variable {κ ω : Type}

/-- The connections of an `mwriter`.  The semaphore is enabled with the first one
and stays enabled. -/
structure MWriter (κ ω : Type) where
  ws : List κ
  ready : Bool
  net : ω
  enabled : ws ≠ [] → ready = true

def newMWriter (net : ω) : MWriter κ ω where
  ws := []
  ready := false
  net := net
  enabled hne := absurd rfl hne

def addConn (mw : MWriter κ ω) (conn : κ) : MWriter κ ω where
  ws := mw.ws ++ [conn]
  ready := true
  net := mw.net
  enabled _ := rfl

def rmConn [DecidableEq κ] (mw : MWriter κ ω) (conn : κ) : MWriter κ ω where
  ws := mw.ws.erase conn
  ready := mw.ready
  net := mw.net
  enabled hne := mw.enabled fun hnil => hne (by rw [hnil, List.erase_nil])

/-- What the context does to the goroutine of one connection: it may be done before
`SendMsg` is called, or while the call is under way. -/
inductive Fate where
  | runs
  | cancelled
  | abandoned
  deriving DecidableEq

/-- A context with a deadline, as one call sees it. -/
structure Context (κ : Type) where
  expired : Bool
  err : Err
  fate : κ → Fate
  done : expired = true → ∀ conn, fate conn = .cancelled

section Write

variable (T : Transport κ ω)

/-- `Group.wrap` around `SendMsg`.  A call that the group no longer waits for still
takes its course. -/
def goSend (ctx : Context κ) (conn : κ) (msg : Msg) : Program ω (Option Err) :=
  match ctx.fate conn with
  | .cancelled => pure (some ctx.err)
  | .runs => rescue (do T.sendMsg conn msg; pure none) fun err => pure (some err)
  | .abandoned =>
    rescue (do T.sendMsg conn msg; pure (some ctx.err)) fun _ => pure (some ctx.err)

def groupSend (ctx : Context κ) (msg : Msg) : List κ → Program ω (Option Err)
  | [] => pure none
  | conn :: rest => do
      let err ← goSend T ctx conn msg
      let later ← groupSend ctx msg rest
      pure (err.or later)

def mwriterWrite (ctx : Context κ) (msg : Msg) : Program (MWriter κ ω) Unit := do
  let mw ← get
  if mw.ready = false ∧ ctx.expired = false then throw .blocked
  else
    let err ← zoom (fun mw => mw.net) (fun mw net => { mw with net := net })
      (groupSend T ctx msg mw.ws)
    match err with
    | some err => failWith err
    | none => pure ()

def socketSend (ctx : Context κ) (msg : Msg) : Program (MWriter κ ω) Unit :=
  mwriterWrite T ctx msg

def socketSendMulti (ctx : Context κ) (msg : Msg) : Program (MWriter κ ω) Unit :=
  mwriterWrite T ctx { msg with multipart := true }

end Write

section Runs

def recorded (T : Transport κ ω) : Transport κ (ω × List (κ × Msg)) where
  sendMsg conn msg := do
    zoom Prod.fst (fun net inner => (inner, net.2)) (T.sendMsg conn msg)
    modify fun net => (net.1, net.2 ++ [(conn, msg)])
  read conn := zoom Prod.fst (fun net inner => (inner, net.2)) (T.read conn)

abbrev Recorded (κ ω : Type) := MWriter κ (ω × List (κ × Msg))

inductive Action (κ : Type) where
  | addConn (conn : κ)
  | rmConn (conn : κ)
  | send (ctx : Context κ) (msg : Msg)
  | sendMulti (ctx : Context κ) (msg : Msg)

/-- The arguments of `mwriter.write` in a call of `Send` or `SendMulti`. -/
def Action.written : Action κ → Option (Context κ × Msg)
  | .send ctx msg => some (ctx, msg)
  | .sendMulti ctx msg => some (ctx, { msg with multipart := true })
  | _ => none

def returned {σ : Type} (x : Program σ Unit) (s : σ) : Option σ :=
  match x.run s with
  | .ok _ s' => some s'
  | .error (.fail _) s' => some s'
  | .error _ _ => none

variable [DecidableEq κ] (T : Transport κ ω)

def step (mw : Recorded κ ω) : Action κ → Option (Recorded κ ω)
  | .addConn conn => some (addConn mw conn)
  | .rmConn conn => some (rmConn mw conn)
  | .send ctx msg => returned (socketSend (recorded T) ctx msg) mw
  | .sendMulti ctx msg => returned (socketSendMulti (recorded T) ctx msg) mw

def AllWritten (ctx : Context κ) (msg : Msg) : List κ → ω → Prop
  | [], _ => True
  | conn :: rest, net =>
    ctx.fate conn ≠ .cancelled ∧
      ∃ net', (T.sendMsg conn msg).run net = .ok () net' ∧ AllWritten ctx msg rest net'

def WritesSucceed (mw : Recorded κ ω) (action : Action κ) : Prop :=
  ∀ ctx msg, action.written = some (ctx, msg) → AllWritten T ctx msg mw.ws mw.net.1

/-- A message sent while there are connections is written to exactly one of them. -/
def OneReceiver (mw : Recorded κ ω) (action : Action κ) : Prop :=
  ∀ ctx msg, action.written = some (ctx, msg) → mw.ws ≠ [] →
    ∃ mw', step T mw action = some mw' ∧ ∃ conn ∈ mw.ws, mw'.net.2 = mw.net.2 ++ [(conn, msg)]

def AtMostOneLive (mw : Recorded κ ω) (action : Action κ) : Prop :=
  action.written ≠ none → mw.ws.length ≤ 1

end Runs

variable {mw : Recorded κ ω} {conn : κ}

section Sends

variable {T : Transport κ ω} {ctx : Context κ} {msg : Msg}

theorem recorded_sendMsg {net net' : ω} (sent : List (κ × Msg))
    (hsend : (T.sendMsg conn msg).run net = .ok () net') :
    ((recorded T).sendMsg conn msg).run (net, sent) = .ok () (net', sent ++ [(conn, msg)]) := by
  have hzoom : (zoom Prod.fst (fun (net : ω × List (κ × Msg)) inner => (inner, net.2))
      (T.sendMsg conn msg)).run (net, sent) = .ok () (net', sent) := zoom_ok hsend
  exact bind_ok hzoom

theorem goSend_recorded {net net' : ω} (sent : List (κ × Msg)) (hlive : ctx.fate conn ≠ .cancelled)
    (hsend : (T.sendMsg conn msg).run net = .ok () net') :
    ∃ err, (goSend (recorded T) ctx conn msg).run (net, sent) =
      .ok err (net', sent ++ [(conn, msg)]) := by
  have hrecorded := recorded_sendMsg sent hsend
  unfold goSend
  split
  · next hfate => exact absurd hfate hlive
  · exact ⟨none, rescue_ok (bind_ok hrecorded)⟩
  · exact ⟨some ctx.err, rescue_ok (bind_ok hrecorded)⟩

theorem groupSend_recorded {conns : List κ} {net : ω} (sent : List (κ × Msg))
    (hall : AllWritten T ctx msg conns net) :
    ∃ err net', (groupSend (recorded T) ctx msg conns).run (net, sent) =
      .ok err (net', sent ++ conns.map fun conn => (conn, msg)) := by
  induction conns generalizing net sent with
  | nil =>
    refine ⟨none, net, ?_⟩
    rw [List.map_nil, List.append_nil]
    rfl
  | cons conn rest ih =>
    rcases hall with ⟨hlive, net₁, hsend, hrest⟩
    rcases goSend_recorded sent hlive hsend with ⟨err, hfirst⟩
    rcases ih (sent ++ [(conn, msg)]) hrest with ⟨later, net₂, hlater⟩
    refine ⟨err.or later, net₂, ?_⟩
    rw [groupSend, bind_ok hfirst, bind_ok hlater, List.append_assoc]
    rfl

theorem returned_mwriterWrite (hne : mw.ws ≠ []) (hall : AllWritten T ctx msg mw.ws mw.net.1) :
    ∃ mw', returned (mwriterWrite (recorded T) ctx msg) mw = some mw' ∧
      mw'.net.2 = mw.net.2 ++ mw.ws.map fun conn => (conn, msg) := by
  have hready : ¬ (mw.ready = false ∧ ctx.expired = false) := by
    rw [mw.enabled hne]
    exact fun h => Bool.noConfusion h.1
  rcases groupSend_recorded mw.net.2 hall with ⟨err, net', hgroup⟩
  have hzoom : (zoom (fun mw : Recorded κ ω => mw.net) (fun mw net => { mw with net := net })
      (groupSend (recorded T) ctx msg mw.ws)).run mw = .ok err { mw with net := _ } := zoom_ok hgroup
  refine ⟨{ mw with net := (net', mw.net.2 ++ mw.ws.map fun conn => (conn, msg)) }, ?_, rfl⟩
  unfold returned mwriterWrite
  rw [bind_ok (EStateM.run_get mw), if_neg hready, bind_ok hzoom]
  rcases err with _ | err <;> rfl

end Sends

section Distribution

variable [DecidableEq κ] {T : Transport κ ω}

theorem step_of_written {action : Action κ} {ctx : Context κ} {msg : Msg} (mw : Recorded κ ω)
    (hwritten : action.written = some (ctx, msg)) :
    step T mw action = returned (mwriterWrite (recorded T) ctx msg) mw := by
  rcases action with conn | conn | ⟨ctx', msg'⟩ | ⟨ctx', msg'⟩
  · exact absurd hwritten (by simp [Action.written])
  · exact absurd hwritten (by simp [Action.written])
  · rw [Action.written, Option.some.injEq, Prod.mk.injEq] at hwritten
    rw [← hwritten.1, ← hwritten.2]
    rfl
  · rw [Action.written, Option.some.injEq, Prod.mk.injEq] at hwritten
    rw [← hwritten.1, ← hwritten.2]
    rfl

theorem oneReceiver_iff {action : Action κ} (hsucceed : WritesSucceed T mw action) :
    OneReceiver T mw action ↔ AtMostOneLive mw action := by
  rcases hwritten : action.written with _ | ⟨ctx, msg⟩
  · simp [OneReceiver, AtMostOneLive, hwritten]
  have hstep := step_of_written (T := T) mw hwritten
  have hreach := fun hne => returned_mwriterWrite hne (hsucceed ctx msg hwritten)
  constructor
  · intro hone _
    rcases hws : mw.ws with _ | ⟨first, rest⟩
    · exact Nat.zero_le 1
    have hne : mw.ws ≠ [] := by rw [hws]; exact List.cons_ne_nil _ _
    rcases hone ctx msg hwritten hne with ⟨mw', hmw', conn, _, hnet⟩
    rcases hreach hne with ⟨mw'', hmw'', hall⟩
    rw [hstep, hmw'', Option.some.injEq] at hmw'
    rw [← hmw', hall, List.append_cancel_left_eq] at hnet
    have hlength := congrArg List.length hnet
    rw [List.length_map, List.length_singleton, hws] at hlength
    exact le_of_eq hlength
  · intro hlive ctx' msg' hwritten' hne
    rw [hwritten, Option.some.injEq, Prod.mk.injEq] at hwritten'
    rcases hreach hne with ⟨mw', hmw', hall⟩
    have hlength : mw.ws.length = 1 :=
      le_antisymm (hlive (by rw [hwritten]; exact Option.some_ne_none _))
        (List.length_pos_of_ne_nil hne)
    rcases List.length_eq_one_iff.mp hlength with ⟨conn, hws⟩
    refine ⟨mw', hstep.trans hmw', conn, ?_, ?_⟩
    · rw [hws]
      exact List.mem_singleton_self conn
    · rw [hall, hws, ← hwritten'.2]
      rfl

/-- In a run whose writes all succeed, every message goes to exactly one connection if
and only if no message is sent while there are two. -/
theorem oneReceiver_iff_atMostOneLive {net : ω} {actions : List (Action κ)}
    (hsucceed : Throughout (step T) (WritesSucceed T) (newMWriter (net, [])) actions) :
    Throughout (step T) (OneReceiver T) (newMWriter (net, [])) actions ↔
      Throughout (step T) AtMostOneLive (newMWriter (net, [])) actions :=
  throughout_congr (fun _ _ => oneReceiver_iff) hsucceed

def openTransport : Transport Nat Unit where
  sendMsg _ _ := pure ()
  read _ := throw .blocked

def patient : Context Nat where
  expired := false
  err := .text "context deadline exceeded"
  fate _ := .runs
  done h := Bool.noConfusion h

theorem writesSucceed_patient (actions : List (Action Nat))
    (hpatient : ∀ action ∈ actions, ∀ ctx msg, action.written = some (ctx, msg) → ctx = patient)
    (mw : Recorded Nat Unit) :
    Throughout (step openTransport) (WritesSucceed openTransport) mw actions := by
  refine throughout_of_forall (fun action haction mw ctx msg hwritten => ?_) mw
  rw [hpatient action haction ctx msg hwritten]
  induction mw.ws with
  | nil => exact trivial
  | cons conn rest ih => exact ⟨Fate.noConfusion, (), rfl, ih⟩

def work : Msg := newMsgFrom [[1]]

def replaced : List (Action Nat) :=
  [.addConn 0, .send patient work, .rmConn 0, .addConn 1, .sendMulti patient work]

theorem replaced_oneReceiver :
    Throughout (step openTransport) (OneReceiver openTransport) (newMWriter ((), [])) replaced := by
  have hsucceed := writesSucceed_patient replaced (by simp [replaced, Action.written])
  refine (oneReceiver_iff_atMostOneLive (hsucceed _)).mpr ?_
  refine (throughout_cons_iff rfl).mpr ⟨fun _ => by decide, ?_⟩
  refine (throughout_cons_iff rfl).mpr ⟨fun _ => by decide, ?_⟩
  refine (throughout_cons_iff rfl).mpr ⟨fun _ => by decide, ?_⟩
  refine (throughout_cons_iff rfl).mpr ⟨fun _ => by decide, ?_⟩
  exact (throughout_cons_iff rfl).mpr ⟨fun _ => by decide, trivial⟩

def crowded : List (Action Nat) :=
  [.addConn 0, .addConn 1, .send patient work]

/-- With two receivers the same message is written to both. -/
theorem crowded_sent_twice :
    Throughout (step openTransport) (WritesSucceed openTransport) (newMWriter ((), [])) crowded ∧
      (run (step openTransport) (newMWriter ((), [])) crowded).map (fun mw => mw.net.2) =
        some [(0, work), (1, work)] ∧
      ¬ Throughout (step openTransport) (OneReceiver openTransport) (newMWriter ((), [])) crowded := by
  have hsucceed := writesSucceed_patient crowded (by simp [crowded, Action.written])
    (newMWriter ((), []))
  refine ⟨hsucceed, rfl, fun hone => ?_⟩
  have hlive := (throughout_congr (fun _ _ => oneReceiver_iff) hsucceed).mp hone
  have hsecond := ((throughout_cons_iff rfl).mp hlive).2
  have hsend := ((throughout_cons_iff rfl).mp ((throughout_cons_iff rfl).mp hsecond).2).1
  exact absurd (hsend (Option.some_ne_none _)) (by decide)

end Distribution

section Success

variable (T : Transport κ ω)

/-- What happens to a socket: a call or a change of its connections, and whatever
happens on the connections between the calls. -/
inductive Event (κ ω : Type) where
  | call (action : Action κ)
  | drift (net : ω)

def Event.written : Event κ ω → Option (Context κ × Msg)
  | .call action => action.written
  | .drift _ => none

def stepEvent [DecidableEq κ] (mw : Recorded κ ω) : Event κ ω → Option (Recorded κ ω)
  | .call action => step T mw action
  | .drift net => some { mw with net := (net, mw.net.2) }

/-- When the call returns nil, `SendMsg` has returned nil for one of the
connections. -/
def SuccessMeansSent (mw : Recorded κ ω) (event : Event κ ω) : Prop :=
  ∀ ctx msg mw', event.written = some (ctx, msg) →
    (mwriterWrite (recorded T) ctx msg).run mw = .ok () mw' →
    ∃ sent, mw'.net.2 = mw.net.2 ++ sent ∧ ∃ conn ∈ mw.ws, (conn, msg) ∈ sent

/-- A call that finds no connection is still waiting for the first one. -/
def WaitsForFirst (mw : Recorded κ ω) (event : Event κ ω) : Prop :=
  ∀ ctx msg, event.written = some (ctx, msg) → mw.ws = [] →
    mw.ready = false ∧ ctx.expired = false

variable {T} {ctx : Context κ} {msg : Msg} {net net' : ω × List (κ × Msg)}

theorem goSend_eq_none (hgo : (goSend (recorded T) ctx conn msg).run net = .ok none net') :
    net'.2 = net.2 ++ [(conn, msg)] := by
  unfold goSend at hgo
  split at hgo
  · cases hgo
  · rcases rescue_eq_ok_iff.mp hgo with hsend | ⟨err, _, _, hnone⟩
    · rcases bind_eq_ok_iff.mp hsend with ⟨_, net₁, hsend, hlast⟩
      rcases bind_eq_ok_iff.mp hsend with ⟨_, net₂, hzoom, hrecord⟩
      rcases zoom_eq_ok_iff.mp hzoom with ⟨inner, _, hnet₂⟩
      cases hlast
      cases hrecord
      rw [← hnet₂]
    · cases hnone
  · rcases rescue_eq_ok_iff.mp hgo with hsend | ⟨err, _, _, hnone⟩
    · rcases bind_eq_ok_iff.mp hsend with ⟨_, net₁, _, hlast⟩
      cases hlast
    · cases hnone

theorem groupSend_eq_none {conns : List κ}
    (hgroup : (groupSend (recorded T) ctx msg conns).run net = .ok none net') :
    net'.2 = net.2 ++ conns.map fun conn => (conn, msg) := by
  induction conns generalizing net with
  | nil =>
    cases hgroup
    simp
  | cons conn rest ih =>
    rcases bind_eq_ok_iff.mp hgroup with ⟨err, net₁, hfirst, hgroup⟩
    rcases bind_eq_ok_iff.mp hgroup with ⟨later, net₂, hrest, hlast⟩
    obtain ⟨hnone, rfl⟩ : err.or later = none ∧ net₂ = net' := by simpa using hlast
    rcases Option.or_eq_none_iff.mp hnone with ⟨rfl, rfl⟩
    rw [ih hrest, goSend_eq_none hfirst]
    simp

theorem mwriterWrite_eq_ok {mw' : Recorded κ ω}
    (hwrite : (mwriterWrite (recorded T) ctx msg).run mw = .ok () mw') :
    ¬ (mw.ready = false ∧ ctx.expired = false) ∧
      mw'.net.2 = mw.net.2 ++ mw.ws.map fun conn => (conn, msg) := by
  rw [mwriterWrite, bind_ok (EStateM.run_get mw)] at hwrite
  split at hwrite
  · cases hwrite
  · next hpassed =>
      rcases bind_eq_ok_iff.mp hwrite with ⟨err, mw₁, hgroup, hlast⟩
      rcases zoom_eq_ok_iff.mp hgroup with ⟨net', hsends, rfl⟩
      rcases err with _ | err
      · cases hlast
        exact ⟨hpassed, groupSend_eq_none hsends⟩
      · cases hlast

theorem mwriterWrite_nil (hnil : mw.ws = []) (hpassed : ¬ (mw.ready = false ∧ ctx.expired = false))
    :
    (mwriterWrite (recorded T) ctx msg).run mw = .ok () mw := by
  have hgroup : (groupSend (recorded T) ctx msg mw.ws).run mw.net = .ok none mw.net := by
    rw [hnil]
    rfl
  have hzoom : (zoom (fun mw : Recorded κ ω => mw.net) (fun mw net => { mw with net := net })
      (groupSend (recorded T) ctx msg mw.ws)).run mw = .ok none mw := zoom_ok hgroup
  rw [mwriterWrite, bind_ok (EStateM.run_get mw), if_neg hpassed, bind_ok hzoom]
  rfl

variable {event : Event κ ω}

theorem successMeansSent_of_waits (hwaits : WaitsForFirst mw event) :
    SuccessMeansSent T mw event := by
  intro ctx msg mw' hwritten hwrite
  rcases mwriterWrite_eq_ok hwrite with ⟨hpassed, hsent⟩
  rcases hws : mw.ws with _ | ⟨conn, rest⟩
  · exact absurd (hwaits ctx msg hwritten hws) hpassed
  · refine ⟨_, hsent, conn, List.mem_cons_self, ?_⟩
    rw [hws]
    exact List.mem_cons_self

theorem waits_of_successMeansSent (hsuccess : SuccessMeansSent T mw event) :
    WaitsForFirst mw event := by
  intro ctx msg hwritten hnil
  by_contra hpassed
  rcases hsuccess ctx msg mw hwritten (mwriterWrite_nil hnil hpassed) with ⟨_, _, conn, hmem, _⟩
  rw [hnil] at hmem
  cases hmem

/-- In every history, nil means that the message was sent if and only if each call that
finds no connection is still waiting for the first one. -/
theorem successMeansSent_iff_waitsForFirst [DecidableEq κ] (net : ω) (events : List (Event κ ω)) :
    Throughout (stepEvent T) (SuccessMeansSent T) (newMWriter (net, [])) events ↔
      Throughout (stepEvent T) WaitsForFirst (newMWriter (net, [])) events := by
  refine throughout_congr (fun _ _ _ => ⟨?_, ?_⟩) (throughout_of_forall (fun _ _ _ => trivial) _)
  · exact waits_of_successMeansSent
  · exact successMeansSent_of_waits

def overdue : Context Nat where
  expired := true
  err := .text "context deadline exceeded"
  fate _ := .cancelled
  done _ _ := rfl

/-- Nil is returned after the deadline on a socket without connections, and at once on a
socket whose only connection is gone. -/
theorem nothing_sent :
    (socketSend (recorded openTransport) overdue work).run (newMWriter ((), [])) =
        .ok () (newMWriter ((), [])) ∧
      ¬ Throughout (stepEvent openTransport) (SuccessMeansSent openTransport)
        (newMWriter ((), [])) [.call (.send overdue work)] ∧
      ¬ Throughout (stepEvent openTransport) (SuccessMeansSent openTransport)
        (newMWriter ((), []))
        [.call (.addConn 0), .call (.rmConn 0), .call (.send patient work)] := by
  refine ⟨rfl, fun hsuccess => ?_, fun hsuccess => ?_⟩
  · have hwaits := waits_of_successMeansSent hsuccess.1 overdue work rfl rfl
    exact Bool.noConfusion hwaits.2
  · have hremoved := ((throughout_cons_iff rfl).mp hsuccess).2
    have hsend := ((throughout_cons_iff rfl).mp ((throughout_cons_iff rfl).mp hremoved).2).1
    have hwaits := waits_of_successMeansSent hsend patient work rfl rfl
    exact Bool.noConfusion hwaits.1

end Success

end Zmq4.WriterPool

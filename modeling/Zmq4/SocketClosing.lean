import Zmq4.SocketConnections

namespace Zmq4.SocketConnections

open ActionRuns Connection

/-- The phase of the worker that a connection which is not registered belongs to. -/
def Stage.phase (conn : Nat) : Stage → Option Phase
  | .opening => some (.opening conn)
  | .opened => some (.adding conn)
  | .unmade | .failed | .listed | .late | .removed => none

def Phase.conn : Phase → Option Nat
  | .opening conn | .adding conn => some conn
  | .checking | .connecting | .ended => none

theorem Stage.conn_of_phase {stage : Stage} {conn : Nat} {phase : Phase}
    (hphase : stage.phase conn = some phase) : phase.conn = some conn := by
  cases stage <;> cases hphase <;> rfl

namespace Socket

/-- `Close` has returned, and the accept loop and all calls of `Dial` have ended. -/
structure Quiet (s : Socket) : Prop where
  returned : s.returned = true
  ended : ∀ w ∈ s.workers, w.phase = .ended

def AllClosed (s : Socket) : Prop :=
  ∀ c, (s.link c).stage ≠ .unmade → (s.link c).closed = true

/-- No handshake has failed, and what was registered late or was removed has been
closed by its reader loop, by the writer, or after a heartbeat. -/
def Accounted (s : Socket) : Prop :=
  ∀ c, (s.link c).stage ≠ .failed ∧
    ((s.link c).stage = .late ∨ (s.link c).stage = .removed → (s.link c).closed = true)

/-- No handshake fails, no connection is registered after `Close` has gone through the
list, and none is removed before it has been closed. -/
def Tidy (s : Socket) : Action → Prop
  | .work _ .openFails => False
  | .work _ .addConn => s.walked = false
  | .rmConn => ∀ conn ∈ s.reaping.head?, conn ∈ s.conns →
      (s.link conn).closed = true ∨ writerCloses s.typ = true
  | _ => True

instance (s : Socket) (action : Action) : Decidable (s.Tidy action) := by
  unfold Tidy
  split <;> infer_instance

def InPhase (s : Socket) (phase : Phase) : Prop :=
  ∃ w ∈ s.workers, w.phase = phase

/-- A connection between `Accept` or `Dial` and `addConn` is in the hands of a
worker. -/
def Phased (s : Socket) : Prop :=
  ∀ c phase, (s.link c).stage.phase c = some phase → s.InPhase phase

variable {s s' : Socket}

section Workers

variable {worker : Nat} {w : Worker}

theorem InPhase.setPhase {phase : Phase} (hphase : s.InPhase phase)
    (hw : s.workers[worker]? = some w) (hne : phase ≠ w.phase) (kind : WorkerKind)
    (phase' : Phase) : (s.setPhase worker kind phase').InPhase phase := by
  obtain ⟨v, hv, rfl⟩ := hphase
  obtain ⟨index, hindex⟩ := List.mem_iff_getElem?.mp hv
  refine ⟨v, List.mem_iff_getElem?.mpr ⟨index, ?_⟩, rfl⟩
  rw [Socket.setPhase, List.getElem?_set_ne, hindex]
  rintro rfl
  rw [hw] at hindex
  exact hne (congrArg Worker.phase (Option.some.inj hindex)).symm

theorem Phased.setPhase (hs : s.Phased) {t : Socket} {conn : Nat} {phase : Phase}
    (hw : s.workers[worker]? = some w) (hconn : ∀ c, w.phase.conn = some c → c = conn)
    (hstages : ∀ c, c ≠ conn → (t.link c).stage = (s.link c).stage)
    (hphase : ∀ p, (t.link conn).stage.phase conn = some p → p = phase)
    (hworkers : t.workers = s.workers) (kind : WorkerKind) :
    (t.setPhase worker kind phase).Phased := by
  intro c p hp
  have hw' : t.workers[worker]? = some w := hworkers ▸ hw
  change (t.link c).stage.phase c = some p at hp
  by_cases hc : c = conn
  · subst hc
    rw [hphase p hp]
    refine ⟨{ kind, phase }, List.mem_set ?_ _, rfl⟩
    exact (List.getElem?_eq_some_iff.mp hw').1
  · rw [hstages c hc] at hp
    have hin : t.InPhase p := by
      rw [InPhase, hworkers]
      exact hs c p hp
    refine hin.setPhase hw' ?_ kind phase
    rintro rfl
    exact hc (hconn c (Stage.conn_of_phase hp))

theorem phased_work (hs : s.Phased) (hw : s.workers[worker]? = some w) {move : Move}
    (hwork : s.work worker w move = some s') : s'.Phased := by
  have hidle : ∀ phase, w.phase.conn = none → (s.setPhase worker w.kind phase).Phased := by
    intro phase hnone c p hp
    refine (hs c p hp).setPhase hw ?_ w.kind phase
    rintro rfl
    rw [Stage.conn_of_phase hp] at hnone
    contradiction
  have hheld : ∀ conn, w.phase.conn = some conn → ∀ c, w.phase.conn = some c → c = conn :=
    fun conn hconn c hc => Option.some.inj (hc.symm.trans hconn)
  have hothers : ∀ conn link c, c ≠ conn →
      ((s.setLink conn link).link c).stage = (s.link c).stage := fun conn link c hc => by
    rw [setLink_link_of_ne hc]
  cases move with
  | check =>
    obtain ⟨hphase, ⟨⟩⟩ := Option.ite_none_right_eq_some.mp hwork
    exact hidle _ (by rw [hphase]; rfl)
  | connect =>
    obtain ⟨⟨hphase, -⟩, ⟨⟩⟩ := Option.ite_none_right_eq_some.mp hwork
    refine hs.setPhase hw (fun c hc => ?_) (hothers s.made _) (fun p hp => ?_) rfl w.kind
    · simp [hphase, Phase.conn] at hc
    · simpa [connected, setLink, Stage.phase, eq_comm] using hp
  | connectFails retry =>
    obtain ⟨hphase, ⟨⟩⟩ := Option.ite_none_right_eq_some.mp hwork
    exact hidle _ (by rw [hphase]; rfl)
  | openFails =>
    obtain ⟨conn, hphase, _, rfl⟩ := work_openFails_eq_some hwork
    refine hs.setPhase hw (hheld conn (by rw [hphase]; rfl)) (hothers conn _) (fun p hp => ?_) rfl
      w.kind
    simp [setLink, Stage.phase] at hp
  | opens =>
    obtain ⟨conn, hphase, _, _, rfl⟩ := work_opens_eq_some hwork
    refine hs.setPhase hw (hheld conn (by rw [hphase]; rfl)) (hothers conn _) (fun p hp => ?_) rfl
      w.kind
    simpa [opened, setLink, Stage.phase, eq_comm] using hp
  | addConn =>
    obtain ⟨conn, hphase, _, rfl⟩ := work_addConn_eq_some hwork
    refine hs.setPhase (t := s.addConn conn) hw (hheld conn (by rw [hphase]; rfl))
      (hothers conn _) (fun p hp => ?_) rfl w.kind
    rw [addConn_stage] at hp
    cases hwalked : s.walked <;> simp [hwalked, Stage.phase] at hp

end Workers

/-- What the steps other than those of the workers and the reaper leave. -/
structure Carried (s s' : Socket) : Prop where
  stages : ∀ c, (s'.link c).stage = (s.link c).stage
  closed : ∀ c, (s.link c).closed = true → (s'.link c).closed = true
  workers : ∀ w ∈ s.workers, w ∈ s'.workers

theorem Carried.scheduleRmConn {conn : Nat} {link : Link}
    (hstage : link.stage = (s.link conn).stage)
    (hclosed : (s.link conn).closed = true → link.closed = true) :
    Carried s ((s.setLink conn link).scheduleRmConn conn) := by
  rw [scheduleRmConn_setLink]
  refine ⟨stage_setLink hstage, closed_setLink hclosed, fun w hw => ?_⟩
  dsimp only
  split
  · exact List.mem_append_left _ hw
  · exact hw

theorem Carried.setClosed {conn : Nat} {link : Link} (hstage : link.stage = (s.link conn).stage)
    (hclosed : (s.link conn).closed = true → link.closed = true) :
    Carried s ((s.setLink conn link).setClosed conn) := by
  rw [setClosed_setLink]
  split
  · exact ⟨stage_setLink hstage, closed_setLink hclosed, fun _ hw => hw⟩
  · exact .scheduleRmConn hstage hclosed

variable {action : Action}

theorem carried_step (hwork : ∀ worker move, action ≠ .work worker move) (hrm : action ≠ .rmConn)
    (hstep : s.step action = some s') : Carried s s' := by
  have hworkers : ∀ w ∈ s.workers, w ∈ s.workers := fun _ hw => hw
  cases action with
  | listen =>
    obtain ⟨-, ⟨⟩⟩ := Option.ite_none_right_eq_some.mp hstep
    exact ⟨fun _ => rfl, fun _ => id, fun w => List.mem_append_left _⟩
  | dial =>
    obtain rfl := Option.some.inj hstep
    exact ⟨fun _ => rfl, fun _ => id, fun w => List.mem_append_left _⟩
  | work worker move => exact absurd rfl (hwork worker move)
  | ioFails conn =>
    obtain ⟨-, ⟨⟩⟩ := Option.ite_none_right_eq_some.mp hstep
    exact .setClosed rfl id
  | heartbeatFinds | reap | close | closeReturns =>
    obtain ⟨-, ⟨⟩⟩ := Option.ite_none_right_eq_some.mp hstep
    exact ⟨fun _ => rfl, fun _ => id, hworkers⟩
  | heartbeatTimeout =>
    obtain ⟨conn, _, rfl⟩ := Option.map_eq_some_iff.mp hstep
    let idle := { s with beating := none }
    let given := { s.link conn with closed := true, beats := (s.link conn).beats + 1 }
    have hcarried : Carried idle ((idle.setLink conn given).scheduleRmConn conn) :=
      Carried.scheduleRmConn rfl fun _ => rfl
    exact ⟨hcarried.stages, hcarried.closed, hcarried.workers⟩
  | readFails conn ending =>
    obtain ⟨-, ⟨⟩⟩ := Option.ite_none_right_eq_some.mp hstep
    rw [Socket.readFails]
    dsimp only
    split
    · exact .setClosed rfl id
    · exact ⟨stage_setLink rfl, closed_setLink id, hworkers⟩
  | loopCancelled conn =>
    obtain ⟨-, ⟨⟩⟩ := Option.ite_none_right_eq_some.mp hstep
    exact ⟨stage_setLink rfl, closed_setLink id, hworkers⟩
  | loopReturns conn =>
    obtain ⟨_, _, rfl⟩ := step_loopReturns_eq_some hstep
    exact ⟨stage_setLink rfl, closed_setLink fun _ => rfl, hworkers⟩
  | rmConn => exact absurd rfl hrm
  | walk =>
    obtain ⟨-, ⟨⟩⟩ := Option.ite_none_right_eq_some.mp hstep
    refine ⟨fun c => ?_, fun c hclosed => ?_, hworkers⟩
    · rw [Socket.walk]
      dsimp only
      split <;> rfl
    · by_cases hc : c ∈ s.conns
      · rw [walk_link_of_mem hc]
      · rw [walk_link_of_not_mem hc, hclosed]

theorem Phased.carried (hs : s.Phased) (hcarried : Carried s s') : s'.Phased := by
  intro c phase hphase
  rw [hcarried.stages c] at hphase
  obtain ⟨w, hw, hwphase⟩ := hs c phase hphase
  exact ⟨w, hcarried.workers w hw, hwphase⟩

theorem rmConn_workers (conn : Nat) : (s.rmConn conn).workers = s.workers := by
  rw [rmConn]
  split <;> rfl

theorem rmConn_link (conn c : Nat) :
    (s.rmConn conn).link c = s.link c ∨
      c = conn ∧ conn ∈ s.conns ∧ (s.rmConn conn).link c = { s.link c with
        stage := .removed
        closed := (s.link c).closed || writerCloses s.typ } := by
  rw [rmConn]
  split
  · rename_i hmem
    by_cases hc : c = conn
    · subst hc
      exact .inr ⟨rfl, hmem, setLink_link_self ..⟩
    · exact .inl (setLink_link_of_ne hc)
  · exact .inl rfl

theorem step_kinds (hstep : s.step action = some s') :
    (action = .rmConn ∧
      ∃ conn rest, s.reaping = conn :: rest ∧ s' = { s with reaping := rest }.rmConn conn) ∨
    (∃ worker w move, action = .work worker move ∧ s.workers[worker]? = some w ∧
      s.work worker w move = some s') ∨ Carried s s' := by
  by_cases hrm : action = .rmConn
  · subst hrm
    exact .inl ⟨rfl, step_rmConn_eq_some hstep⟩
  by_cases hwork : ∃ worker move, action = .work worker move
  · obtain ⟨worker, move, rfl⟩ := hwork
    obtain ⟨w, hw, hmove⟩ := Option.bind_eq_some_iff.mp hstep
    exact .inr (.inl ⟨worker, w, move, rfl, hw, hmove⟩)
  · push Not at hwork
    exact .inr (.inr (carried_step hwork hrm hstep))

theorem phased_step (hs : s.Phased) (hstep : s.step action = some s') : s'.Phased := by
  rcases step_kinds hstep with ⟨-, conn, rest, -, rfl⟩ | ⟨worker, w, move, -, hw, hmove⟩ | hcarried
  · intro c phase hphase
    rcases rmConn_link conn c with hsame | ⟨_, _, hremoved⟩
    · rw [hsame] at hphase
      rw [InPhase, rmConn_workers]
      exact hs c phase hphase
    · rw [hremoved] at hphase
      contradiction
  · exact phased_work hs hw hmove
  · exact hs.carried hcarried

def Spotless (link : Link) : Prop :=
  link.stage ≠ .failed ∧ link.stage ≠ .late ∧ (link.stage = .removed → link.closed = true)

theorem spotless_work (hs : ∀ c, Spotless (s.link c)) {worker : Nat} {w : Worker} {move : Move}
    (htidy : s.Tidy (.work worker move)) (hmove : s.work worker w move = some s') (c : Nat) :
    Spotless (s'.link c) := by
  cases move with
  | check =>
    obtain ⟨-, ⟨⟩⟩ := Option.ite_none_right_eq_some.mp hmove
    exact hs c
  | connect =>
    obtain ⟨-, ⟨⟩⟩ := Option.ite_none_right_eq_some.mp hmove
    refine forall_setLink (P := fun _ => Spotless) hs ?_ c
    simp [Spotless]
  | connectFails retry =>
    obtain ⟨-, ⟨⟩⟩ := Option.ite_none_right_eq_some.mp hmove
    exact hs c
  | openFails => exact htidy.elim
  | opens =>
    obtain ⟨conn, _, _, _, rfl⟩ := work_opens_eq_some hmove
    refine forall_setLink (P := fun _ => Spotless) hs ?_ c
    simp [Spotless]
  | addConn =>
    obtain ⟨conn, _, _, rfl⟩ := work_addConn_eq_some hmove
    change s.walked = false at htidy
    refine forall_setLink (P := fun _ => Spotless) hs ?_ c
    simp [htidy, Spotless]

theorem spotless_step (hs : ∀ c, Spotless (s.link c)) (htidy : s.Tidy action)
    (hstep : s.step action = some s') (c : Nat) : Spotless (s'.link c) := by
  rcases step_kinds hstep with ⟨rfl, conn, rest, hreaping, rfl⟩ |
    ⟨worker, w, move, rfl, -, hmove⟩ | hcarried
  · rcases rmConn_link conn c with hsame | ⟨rfl, hmem, hremoved⟩
    · rw [hsame]
      exact hs c
    · rw [hremoved]
      refine ⟨nofun, nofun, fun _ => ?_⟩
      simpa using htidy c (by simp [hreaping]) hmem
  · exact spotless_work hs htidy hmove c
  · rw [Spotless, hcarried.stages c]
    exact ⟨(hs c).1, (hs c).2.1, fun hremoved => hcarried.closed c ((hs c).2.2 hremoved)⟩

theorem allClosed_of_accounted (htracked : s.Tracked) (hphased : s.Phased) (hquiet : s.Quiet)
    (haccounted : s.Accounted) : s.AllClosed := by
  have hidle : ∀ c, (s.link c).stage.phase c = none := by
    intro c
    by_contra hsome
    obtain ⟨phase, hphase⟩ := Option.ne_none_iff_exists'.mp hsome
    obtain ⟨w, hw, rfl⟩ := hphased c phase hphase
    have hconn := Stage.conn_of_phase hphase
    rw [hquiet.ended w hw] at hconn
    contradiction
  intro c hmade
  cases hstage : (s.link c).stage with
  | unmade => exact absurd hstage hmade
  | opening | opened => exact absurd (hidle c) (by simp [hstage, Stage.phase])
  | failed => exact absurd hstage (haccounted c).1
  | listed => exact (htracked.placed c).walked (htracked.ended (.inl hquiet.returned)) hstage
  | late => exact (haccounted c).2 (.inl hstage)
  | removed => exact (haccounted c).2 (.inr hstage)

theorem accounted_of_allClosed (htracked : s.Tracked) (hclosed : s.AllClosed) : s.Accounted := by
  intro c
  constructor
  · intro hfailed
    have hopen := ((htracked.placed c).ok.unregistered (by rw [hfailed]; rfl)).2.2
    rw [hclosed c (by simp [hfailed])] at hopen
    contradiction
  · rintro (hlate | hremoved)
    · exact hclosed c (by simp [hlate])
    · exact hclosed c (by simp [hremoved])

/-- For every interleaving of the accept loop, the calls of `Dial`, the reader loops,
the reaper and `Close`. -/
theorem allClosed_iff_accounted {typ : SocketType} {autoReconnect : Bool} {actions : List Action}
    (hrun : run step { typ, autoReconnect } actions = some s) (hquiet : s.Quiet) :
    (s.AllClosed ↔ s.Accounted) ∧
      (Throughout step Tidy { typ, autoReconnect } actions → s.AllClosed) := by
  have htracked : s.Tracked :=
    run_keeps (fun _ _ _ hs hstep => tracked_step hs hstep) (tracked_new typ autoReconnect) hrun
  have hphased : s.Phased :=
    run_keeps (fun _ _ _ hs hstep => phased_step hs hstep) (fun _ _ _ => by contradiction) hrun
  refine ⟨⟨accounted_of_allClosed htracked, allClosed_of_accounted htracked hphased hquiet⟩, ?_⟩
  intro htidy
  apply allClosed_of_accounted htracked hphased hquiet
  have hspotless : ∀ c, Spotless (s.link c) := by
    apply run_keeps_of_throughout (I := fun s => ∀ c, Spotless (s.link c)) _ htidy _ hrun
    · exact fun _ _ _ hs htidy hstep => spotless_step hs htidy hstep
    · exact fun c => ⟨nofun, nofun, nofun⟩
  intro c
  obtain ⟨hfailed, hlate, hremoved⟩ := hspotless c
  exact ⟨hfailed, fun hstage => hremoved (hstage.resolve_left hlate)⟩

def acceptAndDial : List Action :=
  [.listen, .work 0 .check, .work 0 .connect, .work 0 .opens, .work 0 .addConn, .dial,
    .work 1 .connect, .work 1 .opens, .work 1 .addConn, .close, .work 0 .check, .walk,
    .closeReturns]

theorem allClosed_acceptAndDial :
    ∃ s, run step { typ := .req, autoReconnect := false } acceptAndDial = some s ∧
      s.Quiet ∧ s.made = 2 ∧ s.AllClosed := by
  have hquiet : ∃ s, run step { typ := .req, autoReconnect := false } acceptAndDial = some s ∧
      s.Quiet ∧ s.made = 2 :=
    ⟨_, rfl, ⟨rfl, by decide⟩, rfl⟩
  obtain ⟨s, hrun, hquiet, hmade⟩ := hquiet
  exact ⟨s, hrun, hquiet, hmade, (allClosed_iff_accounted hrun hquiet).2 (by decide)⟩

/-- The handshake fails, the connection is registered late, or the reaper removes a
connection that a `Send` has found broken. -/
theorem open_after_close :
    (∃ s, run step { typ := .req, autoReconnect := false }
        [.listen, .work 0 .check, .work 0 .connect, .work 0 .openFails, .close, .walk,
          .closeReturns, .work 0 .check] = some s ∧
      s.Quiet ∧ (s.link 0).stage = .failed ∧ (s.link 0).closed = false) ∧
    (∃ s, run step { typ := .pull, autoReconnect := false }
        [.dial, .work 0 .connect, .work 0 .opens, .close, .walk, .closeReturns,
          .work 0 .addConn] = some s ∧
      s.Quiet ∧ (s.link 0).stage = .late ∧ (s.link 0).closed = false) ∧
    ∃ s, run step { typ := .push, autoReconnect := false }
        [.dial, .work 0 .connect, .work 0 .opens, .work 0 .addConn, .ioFails 0, .reap, .rmConn,
          .close, .walk, .closeReturns] = some s ∧
      s.Quiet ∧ (s.link 0).stage = .removed ∧ (s.link 0).closed = false :=
  ⟨⟨_, rfl, ⟨rfl, by decide⟩, rfl, rfl⟩, ⟨_, rfl, ⟨rfl, by decide⟩, rfl, rfl⟩,
    ⟨_, rfl, ⟨rfl, by decide⟩, rfl, rfl⟩⟩

end Socket

end Zmq4.SocketConnections

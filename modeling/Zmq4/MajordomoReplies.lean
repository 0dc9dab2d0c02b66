import Zmq4.ActionRuns
import Zmq4.MajordomoLedger

namespace Zmq4.MajordomoReplies

open ActionRuns ByteCodec CallScripts MajordomoLedger MajordomoMessages MajordomoWorker

section Runs

variable (handler : Bytes → Except Bytes Bytes) (o : WorkerOptions)

def Owes (w : Worker) : Prop :=
  (accountOf handler w.history).Owes

/-- The updates that wait for the manager make no difference to the answer of a
query that a reply depends on, and none of those queries times out. -/
def ReadsUpdates (w : Worker) : Action → Prop
  | .serveQuery =>
    match w.queryCh with
    | ⟨q, true⟩ :: _ =>
      q = .getExpectReply ∨ Owes handler w → w.settled.Gives q (some (w.manager.answer q))
    | _ => True
  | .timeout => ¬ Owes handler w
  | _ => True

/-- No channel overflows, and the broker does not end the session. -/
def InSession (w : Worker) : Action → Prop
  | .receive frames => NotDisconnect frames
  | .work =>
    match w.thread with
    | .done _ => True
    | .call op _ => op.Fits w
  | _ => True

instance (w : Worker) : Decidable (Owes handler w) :=
  inferInstanceAs (Decidable (Account.Owes _))

instance (w : Worker) (action : Action) : Decidable (ReadsUpdates handler w action) := by
  unfold ReadsUpdates
  repeat' split
  all_goals infer_instance

instance (w : Worker) (action : Action) : Decidable (InSession w action) := by
  unfold InSession
  repeat' split
  all_goals infer_instance

def ledgerOf (w : Worker) (lapsed : Prop) : Ledger :=
  ⟨w.settled, accountOf handler w.history, lapsed⟩

/-- The code that is left brings the replies to where they should be. -/
def Tracks (lapsed : Prop) (w : Worker) : Prop :=
  Ensures (effect handler) AtRest w.thread (ledgerOf handler w lapsed)

variable {handler o} {w w' : Worker} {lapsed : Prop}

theorem ledger_record (event : Event) :
    ledgerOf handler (w.record event) lapsed = (ledgerOf handler w lapsed).record handler event := by
  simp [ledgerOf, Ledger.record, Worker.record, Worker.settled, accountOf_concat]

theorem perform_effect {op : Op} {result : Worker × op.Answer}
    (hperform : perform handler w op = some result) (hfits : op.Fits w) :
    effect handler op (ledgerOf handler w lapsed) result.2 (ledgerOf handler result.1 lapsed) := by
  cases op with
  | updateState update =>
    obtain rfl := Option.some_inj.mp hperform
    rw [effect, Worker.pushUpdate, if_pos (by exact hfits)]
    simp [ledgerOf, Ledger.updateState, Worker.settled]
  | updateStats update =>
    rw [Op.Fits] at hfits
    rw [perform, if_pos hfits] at hperform
    obtain rfl := Option.some_inj.mp hperform
    rfl
  | sendQuery q =>
    rw [Op.Fits] at hfits
    rw [perform, if_pos hfits] at hperform
    obtain rfl := Option.some_inj.mp hperform
    exact ⟨rfl, rfl⟩
  | awaitResponse q => cases hperform
  | socket | getSocketManagerID | validateSecurityReadiness =>
    obtain rfl := Option.some_inj.mp hperform
    rfl
  | handler request =>
    obtain rfl := Option.some_inj.mp hperform
    exact ⟨rfl, ledger_record _⟩
  | refuse request =>
    obtain rfl := Option.some_inj.mp hperform
    exact ledger_record _
  | queue msg =>
    rw [Op.Fits] at hfits
    rw [perform, if_pos hfits] at hperform
    obtain rfl := Option.some_inj.mp hperform
    refine ⟨rfl, ?_⟩
    rw [Worker.pushMessage, Ledger.queue]
    split
    · rw [ledger_record]
      rfl
    · rfl

theorem work_tracks (hw : Tracks handler lapsed w) (hsession : InSession w .work)
    (hstep : work handler w = some w') : Tracks handler lapsed w' := by
  rw [work] at hstep
  rw [Tracks] at hw
  cases hthread : w.thread with
  | done counter => simp [hthread] at hstep
  | call op next =>
    rw [InSession, hthread] at hsession
    rw [hthread] at hstep hw
    obtain ⟨result, hperform, rfl⟩ := Option.map_eq_some_iff.mp hstep
    exact hw _ _ (perform_effect hperform hsession)

theorem begin_tracks (hw : Tracks handler lapsed w) {code : Nat → Thread (Option Nat)}
    (hcode : ∀ counter (l : Ledger), l.Open → Ensures (effect handler) AtRest (code counter) l)
    (hstep : begin w code = some w') : Tracks handler lapsed w' := by
  rw [begin] at hstep
  rw [Tracks] at hw
  split at hstep
  next counter hthread =>
    obtain rfl := Option.some_inj.mp hstep
    rw [hthread] at hw
    exact hcode counter _ (hw.2 rfl)
  next => cases hstep

theorem tracks_of_kept (hw : Tracks handler lapsed w) :
    Tracks handler (lapsed ∨ ¬ True) w := by
  rw [not_true_eq_false, or_false]
  exact hw

theorem lapse_none (l : Ledger) (q : Query) : l.Lapse q none ↔ ¬ ¬ l.account.Owes := by
  have hgives : ¬ l.flags.Gives q none := by
    cases q <;> rintro ⟨⟩
  simp [Ledger.Lapse, hgives]

theorem respond_tracks {q : Query} {next : Option q.Answer → Thread (Option Nat)}
    (hw : Tracks handler lapsed w) (hthread : w.thread = .call (.awaitResponse q) next)
    {answer : Option q.Answer} {p : Prop} (hp : (ledgerOf handler w lapsed).Lapse q answer ↔ p) :
    Ensures (effect handler) AtRest (next answer) (ledgerOf handler w (lapsed ∨ p)) := by
  rw [Tracks, hthread] at hw
  refine hw answer _ ?_
  show _ = (ledgerOf handler w lapsed).respond q answer
  rw [Ledger.respond, propext hp]
  rfl

theorem timeout_tracks (hw : Tracks handler lapsed w) (hstep : timeout w = some w') :
    Tracks handler (lapsed ∨ ¬ ReadsUpdates handler w .timeout) w' := by
  rw [timeout] at hstep
  split at hstep
  next q next hthread =>
    obtain rfl := Option.some_inj.mp hstep
    exact respond_tracks hw hthread (lapse_none _ q)
  next => cases hstep

theorem serveQuery_tracks (hw : Tracks handler lapsed w) (hstep : serveQuery w = some w') :
    Tracks handler (lapsed ∨ ¬ ReadsUpdates handler w .serveQuery) w' := by
  rw [serveQuery] at hstep
  rw [ReadsUpdates]
  split at hstep
  next => cases hstep
  next rest hqueries =>
    obtain rfl := Option.some_inj.mp hstep
    rw [hqueries]
    exact tracks_of_kept hw
  next queryType rest hqueries =>
    rw [hqueries]
    split at hstep
    next q next hthread =>
      split at hstep
      next hq =>
        subst hq
        obtain rfl := Option.some_inj.mp hstep
        exact respond_tracks hw hthread (by simp [Ledger.Lapse]; rfl)
      next => cases hstep
    next => cases hstep

theorem tracks_congr (hw : Tracks handler lapsed w) (hthread : w'.thread = w.thread)
    (hsettled : w'.settled = w.settled) (hhistory : w'.history = w.history) :
    Tracks handler lapsed w' := by
  rw [Tracks, ledgerOf] at hw ⊢
  rw [hthread, hsettled, hhistory]
  exact hw

theorem tracks_step {action : Action} (hw : Tracks handler lapsed w)
    (hsession : InSession w action) (hstep : step handler o w action = some w') :
    Tracks handler (lapsed ∨ ¬ ReadsUpdates handler w action) w' := by
  cases action with
  | receive frames =>
    refine tracks_of_kept (begin_tracks hw ?_ hstep)
    exact fun counter l hl => onMessage_ensures hl o counter hsession
  | socketError =>
    refine tracks_of_kept (begin_tracks hw ?_ hstep)
    exact fun _ l hl => leave_ensures hl.toBalanced
  | tick now =>
    refine tracks_of_kept (begin_tracks hw ?_ hstep)
    exact fun counter l hl => onTick_ensures hl o counter now
  | work => exact tracks_of_kept (work_tracks hw hsession hstep)
  | timeout => exact timeout_tracks hw hstep
  | serveQuery => exact serveQuery_tracks hw hstep
  | serveUpdate now =>
    rw [step] at hstep
    split at hstep
    · cases hstep
    · next update rest hupdates =>
        cases hstep
        refine tracks_of_kept (tracks_congr hw rfl ?_ rfl)
        simp only [Worker.settled, hupdates, List.foldl_cons]
        cases update <;> rfl
  | serveStats =>
    rw [step] at hstep
    split at hstep
    · cases hstep
    · cases hstep
      refine tracks_of_kept (tracks_congr hw rfl ?_ rfl)
      simp [Worker.settled, flags_updateStats]
  | send succeeds =>
    rw [step] at hstep
    split at hstep
    · cases hstep
    · cases hstep
      refine tracks_of_kept ?_
      split
      · exact hw
      · rw [Worker.pushUpdate]
        split
        · refine tracks_congr hw rfl ?_ rfl
          simp [Worker.settled, Flags.updateState]
        · exact hw

/-- A session that has not seen a request yet: the goroutine is in its loop, and
its updates so far leave the socket ready and no reply expected. -/
structure Connected (w : Worker) : Prop where
  inLoop : ∃ healthCheckCounter, w.thread = .done (some healthCheckCounter)
  ready : w.settled.socketReady = true
  idle : w.settled.expectReply = false
  fresh : w.history = []

theorem Connected.tracks (hw : Connected w) : Tracks handler False w := by
  obtain ⟨counter, hthread⟩ := hw.inLoop
  have haccount : accountOf handler w.history = .square := by
    rw [hw.fresh]
    rfl
  rw [Tracks, hthread]
  exact Ledger.Open.atRest ⟨⟨False.elim, fun _ => haccount, fun _ => hw.idle⟩, fun _ => hw.ready⟩ _

/-- Between two messages, each request of the session has been handed to the
handler and has got its reply if and only if each query that a reply depends on
was answered in time, and as if the updates before it had been applied. -/
theorem answersEach_iff_readsUpdates (hw : Connected w) {actions : List Action}
    (hsession : Throughout (step handler o) InSession w actions)
    (hrun : run (step handler o) w actions = some w')
    (hrest : ∃ healthCheckCounter, w'.thread = .done healthCheckCounter) :
    AnswersEach handler w'.history ↔
      Throughout (step handler o) (ReadsUpdates handler) w actions := by
  obtain ⟨counter, hthread⟩ := hrest
  have hw' : Tracks handler (False ∨ ¬ Throughout (step handler o) (ReadsUpdates handler) w actions)
      w' :=
    run_keeps_lapses (fun _ _ _ _ htracks hin hstep => tracks_step htracks hin hstep) hsession
      hw.tracks hrun
  rw [Tracks, hthread, false_or] at hw'
  obtain ⟨hbalanced, -⟩ := hw'
  rw [← accountOf_eq_square_iff]
  constructor
  · intro hsquare
    by_contra hlapsed
    exact hbalanced.lapsed hlapsed hsquare
  · intro hreads
    exact hbalanced.square (not_not.mpr hreads)

end Runs

section Schedules

def echo (body : Bytes) : Except Bytes Bytes :=
  .ok body

def threeBeats : WorkerOptions where
  heartbeatLiveness := 3
  heartbeatInterval := 2500

def connectedWorker : Worker where
  manager :=
    { connected := true
      running := true
      expectReply := false
      replyTo := []
      liveness := 3
      heartbeatAt := 2500
      socketReady := true
      totalRequests := 0
      totalReplies := 0
      totalErrors := 0
      reconnects := 1 }
  stateUpdateCh := []
  statsUpdateCh := []
  queryCh := []
  sendCh := []
  socket := true
  socketManagerID := 1
  securityReadiness := .ok ()
  thread := .done (some 0)
  history := []

theorem connected_connectedWorker : Connected connectedWorker where
  inLoop := ⟨0, rfl⟩
  ready := rfl
  idle := rfl
  fresh := rfl

def requestOf (client body : Bytes) : Message :=
  { Message.empty with
    command := workerRequest, clientEnvelope := [client], clientAddr := client, body := body }

def requestFrames (client body : Bytes) : List Bytes :=
  [[], workerProtocol, workerRequest, client, [], body]

def queryAnswered : List Action :=
  [.work, .serveQuery]

def requestComes (client body : Bytes) : List Action :=
  .receive (requestFrames client body) ::
    (queryAnswered ++ queryAnswered ++ [.work, .work, .work] ++ queryAnswered ++ [.work] ++
      queryAnswered)

def updatesFirst : List Action :=
  requestComes [1] [7] ++ [.serveUpdate 0, .work, .serveUpdate 0, .work, .work] ++
    queryAnswered ++ queryAnswered ++ queryAnswered ++ [.work, .work, .work]

def queryFirst : List Action :=
  requestComes [1] [7] ++ [.work, .work, .work] ++ queryAnswered ++
    [.serveUpdate 0, .serveUpdate 0] ++ requestComes [2] [8] ++ [.work]

theorem answersEach_iff_readsUpdates_updatesFirst :
    ∃ w, run (step echo threeBeats) connectedWorker updatesFirst = some w ∧
      AnswersEach echo w.history := by
  have hsession : Throughout (step echo threeBeats) InSession connectedWorker updatesFirst := by
    decide
  have hreads : Throughout (step echo threeBeats) (ReadsUpdates echo) connectedWorker
      updatesFirst := by
    decide
  refine ⟨_, rfl, ?_⟩
  exact (answersEach_iff_readsUpdates connected_connectedWorker hsession rfl ⟨_, rfl⟩).mpr hreads

/-- The first request gets no reply, and the worker refuses the second one. -/
theorem reply_dropped :
    Connected connectedWorker ∧
      Throughout (step echo threeBeats) InSession connectedWorker queryFirst ∧
      ∃ w, run (step echo threeBeats) connectedWorker queryFirst = some w ∧
        w.thread = .done (some 0) ∧ w.sendCh = [] ∧
        w.history = [.handled (requestOf [1] [7]), .refused (requestOf [2] [8])] := by
  refine ⟨connected_connectedWorker, ?_, _, rfl, rfl, rfl, rfl⟩
  decide

end Schedules

end Zmq4.MajordomoReplies

import Zmq4.MajordomoWorker

namespace Zmq4.MajordomoLedger

open ByteCodec CallScripts DuplexProgram MajordomoWorker
open MajordomoMessages hiding processMessage

variable {request : Message}

section Account

variable (handler : Bytes → Except Bytes Bytes)

def answerTo (body : Bytes) : Bytes :=
  match handler body with
  | .error err => ascii "Error: " ++ err
  | .ok reply => reply

def exchange (request : Message) : List Event :=
  [.handled request, .replied request.clientAddr (answerTo handler request.body)]

/-- Each request is handed to the handler, none is refused, and each gets its
reply, once, before the next one is taken up. -/
def AnswersEach (history : List Event) : Prop :=
  ∃ requests : List Message, history = requests.flatMap (exchange handler)

/-- Where the replies stand: none is missing, one is, or something has gone
wrong that no reply mends. -/
inductive Account where
  | square
  | owes (request : Message)
  | broken
  deriving DecidableEq

def Account.record : Account → Event → Account
  | .square, .handled request => .owes request
  | .owes request, .replied clientAddr body =>
    if clientAddr = request.clientAddr ∧ body = answerTo handler request.body then .square
    else .broken
  | _, _ => .broken

def accountOf (history : List Event) : Account :=
  history.foldl (Account.record handler) .square

def Account.Owes (account : Account) : Prop :=
  ∃ request, account = .owes request

instance : DecidablePred Account.Owes
  | .square => .isFalse fun h => nomatch h
  | .owes request => .isTrue ⟨request, rfl⟩
  | .broken => .isFalse fun h => nomatch h

variable {handler}

theorem record_broken (event : Event) : Account.record handler .broken event = .broken := by
  cases event <;> rfl

theorem record_handled_of_ne_square {account : Account} (haccount : account ≠ .square)
    (request : Message) : account.record handler (.handled request) = .broken := by
  cases account with
  | square => exact absurd rfl haccount
  | owes | broken => rfl

theorem record_refused (account : Account) (request : Message) :
    account.record handler (.refused request) = .broken := by
  cases account <;> rfl

theorem foldl_record_broken (history : List Event) :
    history.foldl (Account.record handler) .broken = .broken := by
  induction history with
  | nil => rfl
  | cons event rest ih => rw [List.foldl_cons, record_broken, ih]

theorem accountOf_concat (history : List Event) (event : Event) :
    accountOf handler (history ++ [event]) = (accountOf handler history).record handler event := by
  rw [accountOf, List.foldl_concat]
  rfl

theorem handled_of_accountOf {event : Event} {rest : List Event}
    (hsquare : accountOf handler (event :: rest) = .square) :
    ∃ request, event = .handled request ∧
      rest.foldl (Account.record handler) (.owes request) = .square := by
  cases event with
  | handled request => exact ⟨request, rfl, hsquare⟩
  | refused | replied =>
    change rest.foldl (Account.record handler) .broken = .square at hsquare
    rw [foldl_record_broken] at hsquare
    cases hsquare

theorem replied_of_owes {history : List Event}
    (hsquare : history.foldl (Account.record handler) (.owes request) = .square) :
    ∃ rest, history = .replied request.clientAddr (answerTo handler request.body) :: rest ∧
      accountOf handler rest = .square := by
  rcases history with _ | ⟨event, rest⟩
  · cases hsquare
  · rw [List.foldl_cons] at hsquare
    by_cases hreply : event = .replied request.clientAddr (answerTo handler request.body)
    · subst hreply
      refine ⟨rest, rfl, ?_⟩
      simpa [accountOf, Account.record] using hsquare
    · have hbroken : Account.record handler (.owes request) event = .broken := by
        cases event with
        | handled | refused => rfl
        | replied => simpa [Account.record] using hreply
      rw [hbroken, foldl_record_broken] at hsquare
      cases hsquare

theorem accountOf_eq_square_iff (history : List Event) :
    accountOf handler history = .square ↔ AnswersEach handler history := by
  constructor
  · intro hsquare
    induction hn : history.length using Nat.strongRecOn generalizing history with
    | ind n ih =>
      rcases history with _ | ⟨event, history⟩
      · exact ⟨[], rfl⟩
      · obtain ⟨request, rfl, howes⟩ := handled_of_accountOf hsquare
        obtain ⟨rest, rfl, hrest⟩ := replied_of_owes howes
        have hshorter : rest.length < n := by
          rw [← hn, List.length_cons, List.length_cons]
          omega
        obtain ⟨requests, rfl⟩ := ih rest.length hshorter rest hrest rfl
        exact ⟨request :: requests, rfl⟩
  · rintro ⟨requests, rfl⟩
    induction requests with
    | nil => rfl
    | cons request rest ih => simpa [accountOf, exchange, Account.record] using ih

end Account

section Ledger

/-- What the goroutine that processes messages could say of itself: the flags once
all its updates are applied, where its replies stand, and whether a query that a
reply depends on has been answered otherwise or not at all. -/
structure Ledger where
  flags : Flags
  account : Account
  lapsed : Prop

/-- A request is taken up whether or not the query before it is answered. -/
def Ledger.Lapse (l : Ledger) (q : Query) (answer : Option q.Answer) : Prop :=
  (q = .getExpectReply ∧ answer.isSome ∨ l.account.Owes) ∧ ¬ l.flags.Gives q answer

def Ledger.updateState (l : Ledger) (update : StateUpdate) : Ledger :=
  { l with flags := l.flags.updateState update }

def Ledger.respond (l : Ledger) (q : Query) (answer : Option q.Answer) : Ledger :=
  { l with lapsed := l.lapsed ∨ l.Lapse q answer }

variable (handler : Bytes → Except Bytes Bytes)

def Ledger.record (l : Ledger) (event : Event) : Ledger :=
  { l with account := l.account.record handler event }

def Ledger.queue (l : Ledger) (msg : WorkerMessage) : Ledger :=
  if msg.command = workerReply then l.record handler (.replied msg.clientAddr msg.body) else l

/-- What a call does to the ledger while no channel is full. -/
def effect : (op : Op) → Ledger → op.Answer → Ledger → Prop
  | .updateState update, l, _, l' => l' = l.updateState update
  | .updateStats _, l, _, l' => l' = l
  | .sendQuery _, l, sent, l' => sent = true ∧ l' = l
  | .awaitResponse q, l, answer, l' => l' = l.respond q answer
  | .socket, l, _, l' => l' = l
  | .getSocketManagerID, l, _, l' => l' = l
  | .validateSecurityReadiness, l, _, l' => l' = l
  | .handler request, l, result, l' =>
    result = handler request.body ∧ l' = l.record handler (.handled request)
  | .refuse request, l, _, l' => l' = l.record handler (.refused request)
  | .queue msg, l, queued, l' => queued = true ∧ l' = l.queue handler msg

end Ledger

variable {Q : Unit → Ledger → Prop} {q : Query}

section Calls

variable {handler : Bytes → Except Bytes Bytes} {l : Ledger}

theorem ensures_determined {op : Op} {answer : op.Answer} {l' : Ledger}
    (hop : ∀ other k, effect handler op l other k ↔ other = answer ∧ k = l')
    {Q : op.Answer → Ledger → Prop} :
    Ensures (effect handler) Q op.call l ↔ Q answer l' := by
  constructor
  · intro h
    exact h answer l' ((hop answer l').mpr ⟨rfl, rfl⟩)
  · intro h other k heffect
    obtain ⟨rfl, rfl⟩ := (hop other k).mp heffect
    exact h

theorem ensures_updateState (update : StateUpdate) :
    Ensures (effect handler) Q (updateState update) l ↔ Q () (l.updateState update) :=
  ensures_determined fun _ _ => (and_iff_right rfl).symm

theorem ensures_updateStats (update : StatsUpdate) :
    Ensures (effect handler) Q (updateStats update) l ↔ Q () l :=
  ensures_determined fun _ _ => (and_iff_right rfl).symm

theorem ensures_queryState {Q : Option q.Answer → Ledger → Prop} :
    Ensures (effect handler) Q (queryState q) l ↔ ∀ answer, Q answer (l.respond q answer) := by
  constructor
  · intro h answer
    exact h true l ⟨rfl, rfl⟩ answer _ rfl
  · rintro h _ _ ⟨rfl, rfl⟩ answer _ rfl
    exact h answer

theorem ensures_refuse (request : Message) :
    Ensures (effect handler) Q (Op.refuse request).call l ↔
      Q () (l.record handler (.refused request)) :=
  ensures_determined fun _ _ => (and_iff_right rfl).symm

theorem ensures_queue {Q : Bool → Ledger → Prop} (msg : WorkerMessage) :
    Ensures (effect handler) Q (Op.queue msg).call l ↔ Q true (l.queue handler msg) :=
  ensures_determined fun _ _ => Iff.rfl

theorem respond_of_gives {answer : Option q.Answer} (hgives : l.flags.Gives q answer) :
    l.respond q answer = l := by
  simp [Ledger.respond, Ledger.Lapse, hgives]

theorem lapsed_respond {answer : Option q.Answer} (howes : l.account.Owes)
    (hgives : ¬ l.flags.Gives q answer) : (l.respond q answer).lapsed :=
  Or.inr ⟨Or.inr howes, hgives⟩

theorem ensures_sendToBroker (command clientAddr body : Bytes) :
    Ensures (effect handler) Q (sendToBroker command clientAddr body) l ↔
      ∀ ready : Option Bool, Q () (if ready = some true then
        (l.respond .isSocketReady ready).queue handler ⟨command, clientAddr, body⟩
        else l.respond .isSocketReady ready) := by
  rw [sendToBroker, ensures_bind, ensures_queryState]
  refine forall_congr' fun ready => ?_
  by_cases hready : ready = some true
  · rw [if_neg (not_not.mpr hready), if_pos hready, ensures_bind, ensures_queue]
    rfl
  · rw [if_pos hready, if_neg hready, ensures_updateState]
    rfl

end Calls

section Requests

variable {handler : Bytes → Except Bytes Bytes} {l : Ledger}

/-- Between two messages: unless a query has lapsed, each request has its reply
and the next one is awaited. -/
structure Ledger.Balanced (l : Ledger) : Prop where
  lapsed : l.lapsed → l.account ≠ .square
  square : ¬ l.lapsed → l.account = .square
  idle : ¬ l.lapsed → l.flags.expectReply = false

structure Ledger.Open (l : Ledger) : Prop extends l.Balanced where
  ready : ¬ l.lapsed → l.flags.socketReady = true

theorem open_of_lapsed (hlapsed : l.lapsed) (haccount : l.account ≠ .square) : l.Open where
  lapsed := fun _ => haccount
  square := fun hkept => absurd hlapsed hkept
  idle := fun hkept => absurd hlapsed hkept
  ready := fun hkept => absurd hlapsed hkept

theorem open_record_refused (hlapsed : l.lapsed) (request : Message) :
    (l.record handler (.refused request)).Open := by
  refine open_of_lapsed hlapsed ?_
  show l.account.record handler (.refused request) ≠ .square
  rw [record_refused]
  rintro ⟨⟩

theorem queue_reply_account (clientAddr body : Bytes) :
    (l.queue handler ⟨workerReply, clientAddr, body⟩).account =
      l.account.record handler (.replied clientAddr body) := by
  rw [Ledger.queue, if_pos rfl]
  rfl

theorem queue_flags (msg : WorkerMessage) : (l.queue handler msg).flags = l.flags := by
  unfold Ledger.queue
  split <;> rfl

theorem queue_lapsed (msg : WorkerMessage) : (l.queue handler msg).lapsed ↔ l.lapsed := by
  unfold Ledger.queue
  split <;> rfl

theorem sendToBroker_fails (hlapsed : l.lapsed) {clientAddr body : Bytes}
    (haccount : l.account ≠ .square)
    (hreply : l.account.record handler (.replied clientAddr body) ≠ .square) :
    Ensures (effect handler) (fun _ l' => (l'.updateState .replyComplete).Open)
      (sendToBroker workerReply clientAddr body) l := by
  rw [ensures_sendToBroker]
  intro ready
  split
  · refine open_of_lapsed ((queue_lapsed _).mpr (Or.inl hlapsed)) ?_
    exact (queue_reply_account _ _).trans_ne hreply
  · exact open_of_lapsed (Or.inl hlapsed) haccount

theorem sendReply_rule {reply : Bytes}
    (hunexpected : ∀ answer, answer ≠ some true → Q () (l.respond .getExpectReply answer))
    (hnowhere : Q () ((l.respond .getExpectReply (some true)).respond .getReplyTo none))
    (hsend : ∀ replyAddr, Ensures (effect handler)
      (fun _ l' => Q () (l'.updateState .replyComplete)) (sendToBroker workerReply replyAddr reply)
      ((l.respond .getExpectReply (some true)).respond .getReplyTo (some replyAddr))) :
    Ensures (effect handler) Q (sendReply reply) l := by
  rw [sendReply, ensures_bind, ensures_queryState]
  intro expectReply
  rw [ensures_ite]
  refine ⟨hunexpected expectReply, fun hexpected => ?_⟩
  obtain rfl := not_not.mp hexpected
  rw [ensures_bind, ensures_queryState]
  intro replyTo
  rcases replyTo with _ | replyAddr
  · exact hnowhere
  · rw [ensures_bind]
    refine (hsend replyAddr).mono fun _ l' hl' => ?_
    rw [ensures_bind, ensures_updateState, ensures_updateStats]
    exact hl'

theorem sendReply_fails (hlapsed : l.lapsed) (haccount : l.account = .broken) (reply : Bytes) :
    Ensures (effect handler) (fun _ => Ledger.Open) (sendReply reply) l := by
  have hne : l.account ≠ .square := by
    rw [haccount]
    rintro ⟨⟩
  refine sendReply_rule (fun _ _ => open_of_lapsed (Or.inl hlapsed) hne)
    (open_of_lapsed (Or.inl (Or.inl hlapsed)) hne) fun replyAddr => ?_
  refine sendToBroker_fails (Or.inl (Or.inl hlapsed)) hne ?_
  show l.account.record handler _ ≠ .square
  rw [haccount, record_broken]
  rintro ⟨⟩

theorem sendToBroker_replies (hkept : ¬ l.lapsed) (haccount : l.account = .owes request)
    (hready : l.flags.socketReady = true) :
    Ensures (effect handler) (fun _ l' => (l'.updateState .replyComplete).Open)
      (sendToBroker workerReply request.clientAddr (answerTo handler request.body)) l := by
  rw [ensures_sendToBroker]
  intro ready
  split
  case isTrue htrue =>
    have hgives : l.flags.Gives .isSocketReady ready := by
      rw [Flags.Gives, hready]
      exact htrue
    rw [respond_of_gives hgives]
    have hsquare : (l.queue handler ⟨workerReply, request.clientAddr,
        answerTo handler request.body⟩).account = .square := by
      rw [queue_reply_account, haccount, Account.record, if_pos ⟨rfl, rfl⟩]
    refine ⟨⟨fun hlapsed => ?_, fun _ => hsquare, fun _ => rfl⟩, fun _ => ?_⟩
    · exact absurd ((queue_lapsed _).mp hlapsed) hkept
    · show (l.queue handler _).flags.socketReady = true
      rw [queue_flags, hready]
  case isFalse hfalse =>
    have hlapsed : (l.respond .isSocketReady ready).lapsed := by
      refine lapsed_respond ⟨request, haccount⟩ ?_
      rw [Flags.Gives, hready]
      exact hfalse
    refine open_of_lapsed hlapsed ?_
    show l.account ≠ .square
    rw [haccount]
    rintro ⟨⟩

theorem sendReply_ensures (hkept : ¬ l.lapsed) (haccount : l.account = .owes request)
    (hflags : l.flags = ⟨true, request.clientAddr, true⟩) :
    Ensures (effect handler) (fun _ => Ledger.Open)
      (sendReply (answerTo handler request.body)) l := by
  have howes : l.account.Owes := ⟨request, haccount⟩
  have hne : l.account ≠ .square := by
    rw [haccount]
    rintro ⟨⟩
  have hexpected : l.respond .getExpectReply (some true) = l := by
    refine respond_of_gives ?_
    rw [Flags.Gives, hflags]
  apply sendReply_rule
  · intro answer hanswer
    refine open_of_lapsed (lapsed_respond howes ?_) hne
    rw [Flags.Gives, hflags]
    exact hanswer
  · rw [hexpected]
    refine open_of_lapsed (lapsed_respond howes ?_) hne
    rintro ⟨⟩
  · intro replyAddr
    rw [hexpected]
    by_cases haddr : replyAddr = request.clientAddr
    · have hgives : l.flags.Gives .getReplyTo (some replyAddr) := by
        rw [Flags.Gives, hflags, haddr]
      rw [respond_of_gives hgives, haddr]
      exact sendToBroker_replies hkept haccount (by rw [hflags])
    · have hlapsed : (l.respond .getReplyTo (some replyAddr)).lapsed := by
        refine lapsed_respond howes ?_
        rw [Flags.Gives, hflags]
        rintro ⟨⟩
        exact haddr rfl
      refine sendToBroker_fails hlapsed hne ?_
      show l.account.record handler _ ≠ .square
      rw [haccount, Account.record, if_neg fun hreply => haddr hreply.1]
      rintro ⟨⟩

theorem respond_of_not_owes {answer : Option q.Answer} (hq : q = .getExpectReply → answer = none)
    (howes : ¬ l.account.Owes) :
    l.respond q answer = l := by
  have hlapse : ¬ l.Lapse q answer := by
    rintro ⟨⟨rfl, hsome⟩ | howes', -⟩
    · rw [hq rfl] at hsome
      cases hsome
    · exact howes howes'
  simp [Ledger.respond, hlapse]

theorem not_owes_of_square (hsquare : l.account = .square) : ¬ l.account.Owes := by
  rintro ⟨request, howes⟩
  rw [hsquare] at howes
  cases howes

theorem ensures_processRequest (request : Message) :
    Ensures (effect handler) Q (processRequest request) l ↔
      ∀ expectReply : Option Bool,
        (expectReply = some true → Q () ((l.respond .getExpectReply expectReply).record handler
          (.refused request))) ∧
        (expectReply ≠ some true →
          Ensures (effect handler) Q (sendReply (answerTo handler request.body))
            (((l.respond .getExpectReply expectReply).updateState
              (.expectReply request.clientAddr)).record handler (.handled request))) := by
  rw [processRequest, ensures_bind, ensures_queryState]
  refine forall_congr' fun expectReply => ?_
  rw [ensures_ite, ensures_refuse]
  refine and_congr_right fun _ => imp_congr_right fun _ => ?_
  rw [ensures_bind, ensures_updateState, ensures_bind, ensures_updateStats, ensures_bind,
    (ensures_determined fun _ _ => Iff.rfl)]
  rw [answerTo]
  cases handler request.body with
  | error err => rw [ensures_bind, ensures_updateStats]
  | ok reply => exact Iff.rfl

theorem processRequest_ensures (hopen : l.Open) (request : Message) :
    Ensures (effect handler) (fun _ => Ledger.Open) (processRequest request) l := by
  rw [ensures_processRequest]
  intro expectReply
  by_cases hlapsed : l.lapsed
  · constructor
    · intro _
      exact open_record_refused (Or.inl hlapsed) request
    · intro _
      refine sendReply_fails (Or.inl hlapsed) ?_ _
      exact record_handled_of_ne_square (hopen.lapsed hlapsed) request
  · have hsquare := hopen.square hlapsed
    constructor
    · rintro rfl
      refine open_record_refused (Or.inr ⟨Or.inl ⟨rfl, rfl⟩, ?_⟩) request
      rw [Flags.Gives, hopen.idle hlapsed]
      rintro ⟨⟩
    · intro hexpect
      have hrespond : l.respond .getExpectReply expectReply = l := by
        rcases expectReply with _ | _ | _
        · exact respond_of_not_owes (fun _ => rfl) (not_owes_of_square hsquare)
        · refine respond_of_gives ?_
          rw [Flags.Gives, hopen.idle hlapsed]
        · exact absurd rfl hexpect
      rw [hrespond]
      apply sendReply_ensures
      · exact hlapsed
      · show l.account.record handler (.handled request) = .owes request
        rw [hsquare, Account.record]
      · show l.flags.updateState (.expectReply request.clientAddr) = _
        rw [Flags.updateState, hopen.ready hlapsed]

end Requests

section Loop

variable {handler : Bytes → Except Bytes Bytes} {l : Ledger}

theorem respond_of_balanced (hl : l.Balanced) (hq : q ≠ .getExpectReply)
    (answer : Option q.Answer) : l.respond q answer = l := by
  by_cases hlapsed : l.lapsed
  · have hstill : (l.lapsed ∨ l.Lapse q answer) = l.lapsed := by simp [hlapsed]
    rw [Ledger.respond, hstill]
  · exact respond_of_not_owes (fun h => absurd h hq) (not_owes_of_square (hl.square hlapsed))

theorem queryState_ensures (hl : l.Balanced) (hq : q ≠ .getExpectReply) {α : Type}
    {next : Option q.Answer → Thread α} {Q : α → Ledger → Prop}
    (hQ : ∀ answer, Ensures (effect handler) Q (next answer) l) :
    Ensures (effect handler) Q (queryState q >>= next) l := by
  rw [ensures_bind, ensures_queryState]
  intro answer
  rw [respond_of_balanced hl hq]
  exact hQ answer

theorem ensures_read {op : Op} (hop : ∀ l answer l', effect handler op l answer l' → l' = l)
    {α : Type} {next : op.Answer → Thread α} {Q : α → Ledger → Prop}
    (hQ : ∀ answer, Ensures (effect handler) Q (next answer) l) :
    Ensures (effect handler) Q (op.call >>= next) l := by
  rw [ensures_bind]
  intro answer l' heffect
  obtain rfl := hop l answer l' heffect
  exact hQ answer

theorem validateConnectionState_ensures (hl : l.Balanced) {Q : Except Err Unit → Ledger → Prop}
    (hQ : ∀ result, Q result l) :
    Ensures (effect handler) Q validateConnectionState l := by
  rw [validateConnectionState]
  refine queryState_ensures hl (by decide) fun connected => ?_
  refine (ensures_ite _ _ _).mpr ⟨fun _ => hQ _, fun _ => ?_⟩
  refine queryState_ensures hl (by decide) fun socketReady => ?_
  refine (ensures_ite _ _ _).mpr ⟨fun _ => hQ _, fun _ => ?_⟩
  refine ensures_read (by exact fun _ _ _ h => h) fun socket => ?_
  refine (ensures_ite _ _ _).mpr ⟨fun _ => hQ _, fun _ => ?_⟩
  refine ensures_read (by exact fun _ _ _ h => h) fun currentManagerID => ?_
  refine (ensures_ite _ _ _).mpr ⟨fun _ => hQ _, fun _ => ?_⟩
  refine ensures_read (by exact fun _ _ _ h => h) fun security => ?_
  split
  · exact hQ _
  refine queryState_ensures hl (by decide) fun liveness => ?_
  exact (ensures_ite _ _ _).mpr ⟨fun _ => hQ _, fun _ => hQ _⟩

theorem Ledger.Balanced.updateState (hl : l.Balanced) {update : StateUpdate}
    (hupdate : ∀ f : Flags, f.expectReply = false → (f.updateState update).expectReply = false) :
    (l.updateState update).Balanced where
  lapsed := hl.lapsed
  square := hl.square
  idle := fun hkept => hupdate l.flags (hl.idle hkept)

theorem disconnect_ensures (hl : l.Balanced) (hQ : ∀ l' : Ledger, l'.Balanced → Q () l') :
    Ensures (effect handler) Q disconnect l := by
  rw [disconnect]
  refine queryState_ensures hl (by decide) fun connected => ?_
  refine (ensures_ite _ _ _).mpr ⟨fun _ => hQ l hl, fun _ => ?_⟩
  rw [ensures_bind, ensures_updateState, ensures_updateState]
  refine hQ _ ((hl.updateState ?_).updateState ?_)
  · exact fun f hf => hf
  · exact fun f hf => rfl

def NotDisconnect (frames : List Bytes) : Prop :=
  match parseWorkerMessage frames with
  | .error _ => True
  | .ok msg => msg.command ≠ workerDisconnect

instance (frames : List Bytes) : Decidable (NotDisconnect frames) :=
  match h : parseWorkerMessage frames with
  | .error _ => .isTrue (by simp [NotDisconnect, h])
  | .ok msg => decidable_of_iff (msg.command ≠ workerDisconnect) (by simp [NotDisconnect, h])

variable {frames : List Bytes}

theorem processMessage_ensures (hl : l.Open) (o : WorkerOptions) (hframes : NotDisconnect frames) :
    Ensures (effect handler) (fun _ => Ledger.Open) (processMessage o frames) l := by
  rw [processMessage, ensures_bind, ensures_updateState]
  split
  · exact hl
  next msg hparse =>
    rw [ensures_ite]
    refine ⟨fun _ => processRequest_ensures hl msg, fun _ => ?_⟩
    rw [ensures_ite]
    refine ⟨fun _ => hl, fun _ => ?_⟩
    rw [NotDisconnect, hparse] at hframes
    rw [if_neg hframes]
    exact hl

theorem sendHeartbeat_ensures (hl : l.Open) (o : WorkerOptions) (now : Int) (hQ : Q () l) :
    Ensures (effect handler) Q (sendHeartbeat o now) l := by
  rw [sendHeartbeat]
  refine queryState_ensures hl.toBalanced (by decide) fun connected => ?_
  refine (ensures_ite _ _ _).mpr ⟨fun _ => hQ, fun _ => ?_⟩
  rw [ensures_bind, ensures_sendToBroker]
  intro ready
  rw [respond_of_balanced hl.toBalanced (by decide), ensures_updateState]
  split <;> exact hQ

/-- Where the goroutine stands when it is back in its loop, or has left it. -/
def AtRest (healthCheckCounter : Option Nat) (l : Ledger) : Prop :=
  l.Balanced ∧ (healthCheckCounter.isSome → l.Open)

theorem Ledger.Open.atRest (hl : l.Open) (healthCheckCounter : Option Nat) :
    AtRest healthCheckCounter l :=
  ⟨hl.toBalanced, fun _ => hl⟩

theorem leave_ensures (hl : l.Balanced) :
    Ensures (effect handler) AtRest (do disconnect; return none) l := by
  rw [ensures_bind]
  refine disconnect_ensures hl fun l' hl' => ⟨hl', ?_⟩
  rintro ⟨⟩

theorem onMessage_ensures (hl : l.Open) (o : WorkerOptions) (healthCheckCounter : Nat)
    (hframes : NotDisconnect frames) :
    Ensures (effect handler) AtRest (onMessage o healthCheckCounter frames) l := by
  rw [onMessage, ensures_bind]
  refine validateConnectionState_ensures hl.toBalanced fun result => ?_
  rcases result with err | _
  · exact leave_ensures hl.toBalanced
  · rw [ensures_bind]
    exact (processMessage_ensures hl o hframes).mono fun _ l' hl' => hl'.atRest _

theorem checkHealth_ensures (hl : l.Balanced) (healthCheckCounter : Nat)
    {Q : Except Err Nat → Ledger → Prop} (hQ : ∀ result, Q result l) :
    Ensures (effect handler) Q (checkHealth healthCheckCounter) l := by
  rw [checkHealth, ensures_ite]
  refine ⟨fun _ => ?_, fun _ => hQ _⟩
  rw [ensures_bind]
  refine validateConnectionState_ensures hl fun result => ?_
  rcases result with err | _
  · exact hQ _
  · exact hQ _

theorem onTick_ensures (hl : l.Open) (o : WorkerOptions) (healthCheckCounter : Nat) (now : Int) :
    Ensures (effect handler) AtRest (onTick o healthCheckCounter now) l := by
  rw [onTick, ensures_bind]
  refine checkHealth_ensures hl.toBalanced healthCheckCounter fun result => ?_
  rcases result with err | counter
  · exact leave_ensures hl.toBalanced
  have hbroker : Ensures (effect handler) AtRest (checkBroker counter) l := by
    rw [checkBroker]
    refine queryState_ensures hl.toBalanced (by decide) fun liveness => ?_
    rw [ensures_ite]
    exact ⟨fun _ => leave_ensures hl.toBalanced, fun _ => hl.atRest _⟩
  rw [ensures_bind, checkHeartbeat]
  refine queryState_ensures hl.toBalanced (by decide) fun heartbeatTime => ?_
  rw [ensures_ite]
  exact ⟨fun _ => sendHeartbeat_ensures hl o now hbroker, fun _ => hbroker⟩

end Loop

end Zmq4.MajordomoLedger

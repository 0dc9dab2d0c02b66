import Zmq4.MajordomoCalls

namespace Zmq4.MajordomoClient

open ActionRuns ByteCodec DuplexProgram ProgramStreams ZmtpMessage ZmtpMetadata Connection
  FrameStream FramingRoundTrip ConnectionStreams RequestReply MajordomoMessages MajordomoCalls

variable {rest : Bytes}

section Wire

def Sendable (frames : List Bytes) : Prop :=
  frames ≠ [] ∧ ∀ frame ∈ frames, frame.length ≤ maxInt64

instance (frames : List Bytes) : Decidable (Sendable frames) :=
  inferInstanceAs (Decidable (_ ∧ _))

/-- The bytes of a message, and what `Conn.read` makes of the bytes that it has
taken: nothing as long as it waits for more. -/
structure Wire where
  encode : List Bytes → Bytes
  decode : Bytes → Option (Except Err (List Bytes))
  encode_ne_nil : ∀ {frames}, Sendable frames → encode frames ≠ []
  decode_whole : ∀ {frames}, Sendable frames → decode (encode frames) = some (.ok frames)
  decode_part : ∀ {frames part rest}, Sendable frames → part ++ rest = encode frames →
    rest ≠ [] → decode part = none

variable {σ : Type}

def inputOnly (sec : σ) (taken : Bytes) : Endpoint σ :=
  { sec := sec, conn := Conn.fresh Metadata.empty : Endpoint σ }.withInput taken

def decodeRead (S : Security σ) (sec : σ) (taken : Bytes) : Option (Except Err (List Bytes)) :=
  match (read S).run (inputOnly sec taken) with
  | .error _ _ => none
  | .ok msg _ =>
    match msg.err with
    | some err => some (.error err)
    | none => some (.ok msg.frames)

variable {S : Security σ} {sec : σ} {frames : List Bytes}

theorem read_inputOnly (hS : Transparent S) (hframes : Sendable frames) :
    (read S).run (inputOnly sec (encodeFrames frames)) =
      .ok (newMsgFrom frames) (inputOnly sec []) :=
  read_run S hframes.1 hframes.2 (List.append_nil _).symm (hS.contents_run frames sec)

theorem decodeRead_encodeFrames (hS : Transparent S) (hframes : Sendable frames) :
    decodeRead S sec (encodeFrames frames) = some (.ok frames) := by
  rw [decodeRead, read_inputOnly hS hframes]
  rfl

/-- What a read of the first bytes returned, a read of them all would return too, and
leave the rest. -/
theorem decodeRead_part {part : Bytes} (hS : Transparent S) (hframes : Sendable frames)
    (hbytes : part ++ rest = encodeFrames frames) (hrest : rest ≠ []) :
    decodeRead S sec part = none := by
  unfold decodeRead
  rcases hpart : (read S).run (inputOnly sec part) with ⟨msg, w⟩ | ⟨stop, w⟩
  · exfalso
    have hwhole := (read_streams S).of_ok hpart rest
    have hfeed : (endpointFeed σ).feed rest (inputOnly sec part) =
        inputOnly sec (encodeFrames frames) := by
      rw [← hbytes]
      rfl
    rw [hfeed, read_inputOnly hS hframes] at hwhole
    have hend : inputOnly sec [] = (endpointFeed σ).feed rest w := (EStateM.Result.ok.inj hwhole).2
    have hduplex : (inputOnly sec []).conn.rw = duplexFeed.feed rest w.conn.rw :=
      congrArg (fun w => w.conn.rw) hend
    unfold duplexFeed at hduplex
    dsimp only at hduplex
    split at hduplex
    · rename_i hclosed
      rw [← hduplex] at hclosed
      cases hclosed
    · have hinput := congrArg Duplex.input hduplex
      exact hrest (List.append_eq_nil_iff.mp hinput.symm).2
  · rfl

theorem encodeFrames_ne_nil (hframes : Sendable frames) : encodeFrames frames ≠ [] := by
  intro hnil
  have hlength := length_le_encodeFrames frames
  rw [hnil] at hlength
  exact hframes.1 (List.eq_nil_of_length_eq_zero (Nat.le_zero.mp hlength))

/-- Connections that carry frames as they are: NULL and PLAIN. -/
def frameWire (hS : Transparent S) (sec : σ) : Wire where
  encode := encodeFrames
  decode := decodeRead S sec
  encode_ne_nil := encodeFrames_ne_nil
  decode_whole := decodeRead_encodeFrames hS
  decode_part := decodeRead_part hS

end Wire

section Client

structure Pending where
  call : Nat
  frames : List Bytes
  deriving DecidableEq

/-- The connection of a REQ socket.  `used` tells whether a request has been sent over
it, which is what makes it the connection of `reqState`.  `stream` has the bytes from
the broker that nobody has taken yet. -/
structure Link where
  closed : Bool
  used : Bool
  waiting : List Pending
  stream : Bytes

def Link.fresh : Link where
  closed := false
  used := false
  waiting := []
  stream := []

/-- The goroutine of an attempt.  It looks up `c.socket` when it gets to run, `taken`
is what it has read since, and its result stays in a channel that only the `select`
of its attempt reads. -/
inductive Receiver where
  | created
  | reading (link : Nat) (taken : Bytes)
  | finished (result : Except Err (List Bytes))

structure Call where
  number : Nat
  service : Bytes
  body : Bytes
  retriesLeft : Nat

def Call.pending (call : Call) : Pending where
  call := call.number
  frames := [] :: formatClientRequest (newClientRequest call.service call.body)

namespace Link

def asked (link : Link) (call : Call) : Link :=
  { link with used := true, waiting := link.waiting ++ [call.pending] }

def answered (link : Link) (index : Nat) (bytes : Bytes) : Link :=
  { link with waiting := link.waiting.eraseIdx index, stream := link.stream ++ bytes }

end Link

inductive Thread where
  | idle
  | sending (call : Call)
  | waiting (call : Call) (attempt : Nat)
  | failed (call : Call)

structure Reply where
  call : Nat
  frames : List Bytes
  deriving DecidableEq

structure Return where
  call : Nat
  service : Bytes
  body : Bytes
  deriving DecidableEq

/-- A client and its broker.  `socket` is the index of the connection of `c.socket`,
and an attempt is the index of its goroutine.  The replies of the broker and the
bodies that `Request` returned are kept to compare them. -/
structure Client where
  socket : Nat
  links : List Link
  receivers : List Receiver
  thread : Thread
  calls : Nat
  replies : List Reply
  returned : List Return

inductive Action where
  | request (service body : Bytes)
  | send (ok : Bool)
  | start (attempt : Nat)
  | read (attempt : Nat)
  | abort (attempt : Nat) (err : Err)
  | receive
  | timeout
  | retry (dialed : Bool)
  | giveUp
  | answer (link index : Nat) (frames : List Bytes)
  | drop (link : Nat)

namespace Client

def connected : Client where
  socket := 0
  links := [.fresh]
  receivers := []
  thread := .idle
  calls := 0
  replies := []
  returned := []

def setReceiver (s : Client) (attempt : Nat) (receiver : Receiver) : Client :=
  { s with receivers := s.receivers.set attempt receiver }

def setLink (s : Client) (k : Nat) (link : Link) : Client :=
  { s with links := s.links.set k link }

def firstAttempt (retries : Int) (s : Client) (service body : Bytes) : Thread :=
  match validate service, (retries + 1).toNat with
  | .ok (), left + 1 =>
    .sending { number := s.calls, service := service, body := body, retriesLeft := left }
  -- an invalid service, or a negative number of retries: the loop has no round
  | _, _ => .idle

def request (retries : Int) (s : Client) (service body : Bytes) : Option Client :=
  match s.thread with
  | .idle =>
    some { s with thread := s.firstAttempt retries service body, calls := s.calls + 1 }
  | _ => none

def sent (s : Client) (call : Call) (link : Link) : Client :=
  { s.setLink s.socket (link.asked call) with
    receivers := s.receivers ++ [.created]
    thread := .waiting call s.receivers.length }

def send (s : Client) (ok : Bool) : Option Client :=
  match s.thread, s.links[s.socket]? with
  | .sending call, some link =>
    if ok = false then some { s with thread := .failed call }
    else if link.closed then none
    else some (s.sent call link)
  | _, _ => none

def start (s : Client) (attempt : Nat) : Option Client :=
  match s.receivers[attempt]?, s.links[s.socket]? with
  | some .created, some link =>
    if link.used then some (s.setReceiver attempt (.reading s.socket []))
    else some (s.setReceiver attempt (.finished (.error (.text "zmq4: no connections available"))))
  | _, _ => none

def after (W : Wire) (k : Nat) (taken : Bytes) : Receiver :=
  (W.decode taken).elim (.reading k taken) .finished

def read (W : Wire) (s : Client) (attempt : Nat) : Option Client :=
  match s.receivers[attempt]? with
  | some (.reading k taken) =>
    match s.links[k]? with
    | some link =>
      match link.closed, link.stream with
      | false, byte :: rest =>
        some ((s.setLink k { link with stream := rest }).setReceiver attempt
          (after W k (taken ++ [byte])))
      | _, _ => none
    | none => none
  | _ => none

def abort (s : Client) (attempt : Nat) (err : Err) : Option Client :=
  match s.receivers[attempt]? with
  | some (.reading k _) =>
    match s.links[k]? with
    | some link => if link.closed then some (s.setReceiver attempt (.finished (.error err))) else none
    | none => none
  | _ => none

def receive (s : Client) : Option Client :=
  match s.thread with
  | .waiting call attempt =>
    match s.receivers[attempt]? with
    | some (.finished (.ok frames)) =>
      match processReply (stripDelimiter (newMsgFrom frames)) call.service with
      | .ok body =>
        some { s with
          thread := .idle
          returned := s.returned ++ [⟨call.number, call.service, body⟩] }
      | .error _ => some { s with thread := .failed call }
    | some (.finished (.error _)) => some { s with thread := .failed call }
    | _ => none
  | _ => none

def timeout (s : Client) : Option Client :=
  match s.thread with
  | .waiting call _ => some { s with thread := .failed call }
  | _ => none

/-- `reconnect` closes the socket, also if it cannot replace it. -/
def reconnect (s : Client) (dialed : Bool) : Client :=
  let links := s.links.modify s.socket fun link => { link with closed := true }
  if dialed then { s with links := links ++ [.fresh], socket := s.links.length }
  else { s with links := links }

def retry (s : Client) (dialed : Bool) : Option Client :=
  match s.thread with
  | .failed call =>
    match call.retriesLeft with
    | left + 1 =>
      some { s.reconnect dialed with thread := .sending { call with retriesLeft := left } }
    | 0 => none
  | _ => none

def giveUp (s : Client) : Option Client :=
  match s.thread with
  | .failed call => if call.retriesLeft = 0 then some { s with thread := .idle } else none
  | _ => none

def answer (W : Wire) (s : Client) (k index : Nat) (frames : List Bytes) : Option Client :=
  match s.links[k]? with
  | some link =>
    match link.waiting[index]? with
    | some pending =>
      if link.closed = false ∧ Sendable frames then
        some { s.setLink k (link.answered index (W.encode frames)) with
          replies := s.replies ++ [⟨pending.call, frames⟩] }
      else none
    | none => none
  | none => none

def drop (s : Client) (k : Nat) : Option Client :=
  match s.links[k]? with
  | some link => some (s.setLink k { link with closed := true })
  | none => none

end Client

def step (W : Wire) (retries : Int) (s : Client) : Action → Option Client
  | .request service body => s.request retries service body
  | .send ok => s.send ok
  | .start attempt => s.start attempt
  | .read attempt => s.read W attempt
  | .abort attempt err => s.abort attempt err
  | .receive => s.receive
  | .timeout => s.timeout
  | .retry dialed => s.retry dialed
  | .giveUp => s.giveUp
  | .answer k index frames => s.answer W k index frames
  | .drop k => s.drop k

/-- Each body that `Request` returned is from a reply to that call. -/
def OwnReplies (s : Client) : Prop :=
  ∀ r ∈ s.returned, ∃ frames, ⟨r.call, frames⟩ ∈ s.replies ∧
    processReply (stripDelimiter (newMsgFrom frames)) r.service = .ok r.body

/-- The goroutine will not read from the connection. -/
def Receiver.Away (k : Nat) : Receiver → Prop
  | .created => False
  | .reading link _ => link ≠ k
  | .finished _ => True

instance (k : Nat) : DecidablePred (Receiver.Away k)
  | .created => .isFalse id
  | .reading link _ => inferInstanceAs (Decidable (link ≠ k))
  | .finished _ => .isTrue trivial

/-- No goroutine of an earlier attempt can read from the connection of the socket,
and no reply is left on it or still to come. -/
structure Clear (s : Client) : Prop where
  receivers : ∀ r ∈ s.receivers, r.Away s.socket
  link : ∀ link, s.links[s.socket]? = some link → link.waiting = [] ∧ link.stream = []

instance (s : Client) : Decidable (Clear s) :=
  decidable_of_iff ((∀ r ∈ s.receivers, r.Away s.socket) ∧
      ∀ link ∈ s.links[s.socket]?, link.waiting = [] ∧ link.stream = [])
    ⟨fun h => ⟨h.1, h.2⟩, fun h => ⟨h.receivers, h.link⟩⟩

/-- The request is sent over a connection that is clear. -/
def SendsClear (s : Client) : Action → Prop
  | .send true => Clear s
  | _ => True

instance (s : Client) : DecidablePred (SendsClear s)
  | .send true => inferInstanceAs (Decidable (Clear s))
  | .send false => .isTrue trivial
  | .request _ _ | .start _ | .read _ | .abort _ _ | .receive | .timeout | .retry _ | .giveUp
  | .answer _ _ _ | .drop _ => .isTrue trivial

end Client

variable {k index : Nat} {link : Link}

theorem getElem?_replaced {β : Type} {l : List β} {before : β} (hget : l[k]? = some before)
    (after : β) : (l.set k after)[k]? = some after :=
  List.getElem?_set_self (List.getElem?_eq_some_iff.mp hget).1

section Exclusive

/-- One request and its reply on a connection that a single goroutine reads: the
broker has the request, or the rest of its reply is on the way. -/
inductive Exchange (W : Wire) (replies : List Reply) (call : Nat) (taken : Bytes) (link : Link) :
    Prop where
  | asked (pending : Pending) : link.waiting = [pending] → pending.call = call →
      link.stream = [] → taken = [] → Exchange W replies call taken link
  | answered (frames : List Bytes) : link.waiting = [] → ⟨call, frames⟩ ∈ replies →
      Sendable frames → taken ++ link.stream = W.encode frames → link.stream ≠ [] →
      Exchange W replies call taken link

def Receiver.Own (W : Wire) (socket : Nat) (replies : List Reply) (call : Nat) (link : Link) :
    Receiver → Prop
  | .created => Exchange W replies call [] link
  | .reading k taken => k = socket ∧ Exchange W replies call taken link
  | .finished (.ok frames) => ⟨call, frames⟩ ∈ replies
  | .finished (.error _) => True

/-- The goroutine of the attempt has the connection of the socket to itself. -/
structure Exclusive (W : Wire) (s : Client) (call attempt : Nat) : Prop where
  others : ∀ other r, other ≠ attempt → s.receivers[other]? = some r → r.Away s.socket
  own : ∃ link r, s.links[s.socket]? = some link ∧ s.receivers[attempt]? = some r ∧
    r.Own W s.socket s.replies call link

structure Sound (W : Wire) (s : Client) : Prop where
  own : OwnReplies s
  exclusive : ∀ call attempt, s.thread = .waiting call attempt →
    Exclusive W s call.number attempt

variable {W : Wire} {retries : Int} {s t : Client} {call attempt : Nat}

variable {replies : List Reply} {taken : Bytes}

theorem Exchange.mono {more : List Reply} {link' : Link}
    (hexchange : Exchange W replies call taken link) (hwaiting : link'.waiting = link.waiting)
    (hstream : link'.stream = link.stream) :
    Exchange W (replies ++ more) call taken link' := by
  rcases hexchange with ⟨pending, hone, hcall, hempty, htaken⟩ |
    ⟨frames, hnone, hmem, hframes, hbytes, hrest⟩
  · exact .asked pending (hwaiting.trans hone) hcall (hstream.trans hempty) htaken
  · rw [← hstream] at hbytes hrest
    exact .answered frames (hwaiting.trans hnone) (List.mem_append_left more hmem) hframes hbytes
      hrest

theorem Exchange.take {byte : UInt8} (hexchange : Exchange W replies call taken link)
    (hstream : link.stream = byte :: rest) :
    (∃ frames, ⟨call, frames⟩ ∈ replies ∧ W.decode (taken ++ [byte]) = some (.ok frames)) ∨
      W.decode (taken ++ [byte]) = none ∧
        Exchange W replies call (taken ++ [byte]) { link with stream := rest } := by
  rcases hexchange with ⟨pending, hwaiting, hcall, hempty, htaken⟩ |
    ⟨frames, hwaiting, hmem, hframes, hbytes, hrest⟩
  · rw [hempty] at hstream
    cases hstream
  · rw [hstream] at hbytes
    have hnext : (taken ++ [byte]) ++ rest = W.encode frames := by simpa using hbytes
    rcases eq_or_ne rest [] with rfl | hmore
    · left
      refine ⟨frames, hmem, ?_⟩
      rw [List.append_nil] at hnext
      rw [hnext]
      exact W.decode_whole hframes
    · right
      exact ⟨W.decode_part hframes hnext hmore, .answered frames hwaiting hmem hframes hnext hmore⟩

variable {frames : List Bytes}

theorem Exchange.answer {pending : Pending} (hexchange : Exchange W replies call taken link)
    (hpending : link.waiting[index]? = some pending) (hframes : Sendable frames) :
    Exchange W (replies ++ [⟨pending.call, frames⟩]) call taken
      (link.answered index (W.encode frames)) := by
  rcases hexchange with ⟨own, hwaiting, hcall, hstream, htaken⟩ |
    ⟨_, hwaiting, _, _, _, _⟩
  · rw [hwaiting, List.getElem?_singleton] at hpending
    split at hpending
    · rename_i hindex
      cases hpending
      subst hindex hcall htaken
      have hbytes : (link.answered 0 (W.encode frames)).stream = W.encode frames := by
        rw [Link.answered, hstream]
        rfl
      refine .answered frames ?_ (List.mem_append_right _ (List.mem_singleton_self _)) hframes
        hbytes ?_
      · rw [Link.answered, hwaiting]
        rfl
      · rw [hbytes]
        exact W.encode_ne_nil hframes
    · cases hpending
  · rw [hwaiting] at hpending
    cases hpending

variable {r : Receiver}

namespace Receiver

theorem Own.of_exchange {socket : Nat} {replies' : List Reply} {link' : Link}
    (hown : r.Own W socket replies call link) (hreplies : ∀ reply ∈ replies, reply ∈ replies')
    (hexchange : ∀ taken, Exchange W replies call taken link →
      Exchange W replies' call taken link') :
    r.Own W socket replies' call link' := by
  rcases r with _ | ⟨k, taken⟩ | _ | frames
  · exact hexchange [] hown
  · exact ⟨hown.1, hexchange taken hown.2⟩
  · exact trivial
  · exact hreplies _ hown

end Receiver

namespace Exclusive

theorem set_own {links : List Link} (hs : Exclusive W s call attempt)
    (hlink : links[s.socket]? = some link) (hown : r.Own W s.socket s.replies call link) :
    Exclusive W ({ s with links := links }.setReceiver attempt r) call attempt := by
  obtain ⟨_, before, _, hbefore, _⟩ := hs.own
  constructor
  · intro other r' hne hr'
    have hsame : s.receivers[other]? = some r' := (List.getElem?_set_ne hne.symm).symm.trans hr'
    exact hs.others other r' hne hsame
  · exact ⟨link, r, hlink, getElem?_replaced hbefore r, hown⟩

theorem set_other {links : List Link} {other : Nat} (hs : Exclusive W s call attempt)
    (hlinks : links[s.socket]? = s.links[s.socket]?) (hne : other ≠ attempt)
    (haway : r.Away s.socket) :
    Exclusive W ({ s with links := links }.setReceiver other r) call attempt := by
  constructor
  · intro index r' hindex hr'
    have hset : (s.receivers.set other r)[index]? = some r' := hr'
    rcases eq_or_ne index other with rfl | hdifferent
    · rw [List.getElem?_set_self'] at hset
      obtain ⟨_, _, rfl⟩ := Option.map_eq_some_iff.mp hset
      exact haway
    · rw [List.getElem?_set_ne hdifferent.symm] at hset
      exact hs.others index r' hindex hset
  · obtain ⟨link, own, hlink, hget, hown⟩ := hs.own
    exact ⟨link, own, hlinks.trans hlink, (List.getElem?_set_ne hne).trans hget, hown⟩

theorem set_links {before after : Link} {more : List Reply} (hs : Exclusive W s call attempt)
    (hbefore : s.links[k]? = some before)
    (hexchange : ∀ taken, Exchange W s.replies call taken before →
      Exchange W (s.replies ++ more) call taken after) :
    Exclusive W { s.setLink k after with replies := s.replies ++ more } call attempt := by
  obtain ⟨link, r, hlink, hr, hown⟩ := hs.own
  refine ⟨hs.others, ?_⟩
  rcases eq_or_ne k s.socket with rfl | hne
  · obtain rfl : before = link := Option.some.inj (hbefore.symm.trans hlink)
    refine ⟨after, r, getElem?_replaced hlink after, hr, ?_⟩
    exact hown.of_exchange (fun _ hmem => List.mem_append_left more hmem) hexchange
  · refine ⟨link, r, (List.getElem?_set_ne hne).trans hlink, hr, ?_⟩
    exact hown.of_exchange (fun _ hmem => List.mem_append_left more hmem) fun _ hsame =>
      hsame.mono rfl rfl

theorem own_of (hs : Exclusive W s call attempt) (hlink : s.links[s.socket]? = some link)
    (hr : s.receivers[attempt]? = some r) :
    r.Own W s.socket s.replies call link := by
  obtain ⟨own, r', hown, hr', hok⟩ := hs.own
  obtain rfl : link = own := Option.some.inj (hlink.symm.trans hown)
  obtain rfl : r = r' := Option.some.inj (hr.symm.trans hr')
  exact hok

theorem away_after {socket : Nat} (hne : k ≠ socket) (taken : Bytes) :
    (Client.after W k taken).Away socket := by
  unfold Client.after
  rcases W.decode taken with _ | result
  · exact hne
  · exact trivial

end Exclusive

structure Beside (W : Wire) (s t : Client) : Prop where
  thread : t.thread = s.thread
  returned : t.returned = s.returned
  replies : ∀ reply ∈ s.replies, reply ∈ t.replies
  exclusive : ∀ {call attempt}, Exclusive W s call attempt → Exclusive W t call attempt

theorem beside_start {b : Nat} (hstep : s.start b = some t) : Beside W s t := by
  unfold Client.start at hstep
  split at hstep
  · rename_i link hcreated hlink
    have hexchange : ∀ {call attempt}, Exclusive W s call attempt →
        b = attempt ∧ Exchange W s.replies call [] link := by
      intro call attempt hs
      obtain rfl : b = attempt := by
        by_contra hne
        exact hs.others b _ hne hcreated
      exact ⟨rfl, hs.own_of hlink hcreated⟩
    split at hstep
    · cases hstep
      refine ⟨rfl, rfl, fun _ hmem => hmem, fun hs => ?_⟩
      obtain ⟨rfl, hasked⟩ := hexchange hs
      exact hs.set_own hlink ⟨rfl, hasked⟩
    · cases hstep
      refine ⟨rfl, rfl, fun _ hmem => hmem, fun hs => ?_⟩
      obtain ⟨rfl, _⟩ := hexchange hs
      exact hs.set_own hlink trivial
  · cases hstep

theorem beside_read {b : Nat} (hstep : s.read W b = some t) : Beside W s t := by
  unfold Client.read at hstep
  split at hstep
  · rename_i k taken hreading
    split at hstep
    · rename_i link hlink
      split at hstep
      · rename_i byte rest hclosed hstream
        cases hstep
        refine ⟨rfl, rfl, fun _ hmem => hmem, ?_⟩
        intro call attempt hs
        rcases eq_or_ne b attempt with rfl | hother
        · obtain ⟨own, _, hown, _, _⟩ := hs.own
          obtain rfl := (hs.own_of hown hreading).1
          apply hs.set_own (getElem?_replaced hlink _)
          have hexchange := (hs.own_of hlink hreading).2
          rcases hexchange.take hstream with ⟨frames, hmem, hdecode⟩ | ⟨hdecode, hnext⟩
          · rw [Client.after, hdecode]
            exact hmem
          · rw [Client.after, hdecode]
            exact ⟨rfl, hnext⟩
        · have hne : k ≠ s.socket := hs.others b _ hother hreading
          exact hs.set_other (List.getElem?_set_ne hne) hother (Exclusive.away_after hne _)
      · cases hstep
    · cases hstep
  · cases hstep

theorem beside_abort {b : Nat} {err : Err} (hstep : s.abort b err = some t) : Beside W s t := by
  unfold Client.abort at hstep
  split at hstep
  · split at hstep
    · obtain ⟨_, ⟨⟩⟩ := Option.ite_none_right_eq_some.mp hstep
      refine ⟨rfl, rfl, fun _ hmem => hmem, ?_⟩
      intro call attempt hs
      rcases eq_or_ne b attempt with rfl | hother
      · obtain ⟨link, _, hlink, _, _⟩ := hs.own
        exact hs.set_own hlink trivial
      · exact hs.set_other rfl hother trivial
    · cases hstep
  · cases hstep

theorem beside_answer (hstep : s.answer W k index frames = some t) : Beside W s t := by
  unfold Client.answer at hstep
  split at hstep
  · rename_i link hlink
    split at hstep
    · rename_i pending hpending
      obtain ⟨hopen, ⟨⟩⟩ := Option.ite_none_right_eq_some.mp hstep
      refine ⟨rfl, rfl, fun _ hmem => List.mem_append_left _ hmem, ?_⟩
      intro call attempt hs
      exact hs.set_links hlink fun _ hexchange => hexchange.answer hpending hopen.2
    · cases hstep
  · cases hstep

theorem beside_drop (hstep : s.drop k = some t) : Beside W s t := by
  unfold Client.drop at hstep
  split at hstep
  · rename_i link hlink
    cases hstep
    refine ⟨rfl, rfl, fun _ hmem => hmem, ?_⟩
    intro call attempt hs
    have hkeep : Exclusive W
        { s.setLink k { link with closed := true } with replies := s.replies ++ [] } call attempt :=
      hs.set_links hlink fun _ hexchange => hexchange.mono rfl rfl
    rwa [List.append_nil] at hkeep
  · cases hstep

end Exclusive

variable {service : Bytes} {call : Call}

section Runs

variable {W : Wire} {retries : Int} {s t : Client} {actions : List Action}

theorem Sound.beside (hs : Sound W s) (hstep : Beside W s t) : Sound W t := by
  constructor
  · intro r hr
    rw [hstep.returned] at hr
    obtain ⟨frames, hmem, hbody⟩ := hs.own r hr
    exact ⟨frames, hstep.replies _ hmem, hbody⟩
  · intro call attempt hthread
    rw [hstep.thread] at hthread
    exact hstep.exclusive (hs.exclusive call attempt hthread)

theorem Sound.away (hs : Sound W s) (hreturned : t.returned = s.returned)
    (hreplies : t.replies = s.replies)
    (hthread : ∀ call attempt, t.thread ≠ .waiting call attempt) : Sound W t := by
  constructor
  · intro r hr
    rw [hreturned] at hr
    rw [hreplies]
    exact hs.own r hr
  · intro call attempt hwaiting
    exact absurd hwaiting (hthread call attempt)

theorem Sound.request {body : Bytes} (hs : Sound W s)
    (hstep : s.request retries service body = some t) : Sound W t := by
  unfold Client.request at hstep
  split at hstep
  · cases hstep
    refine hs.away rfl rfl fun call attempt => ?_
    unfold Client.firstAttempt
    split
    · rintro ⟨⟩
    · rintro ⟨⟩
  · cases hstep

/-- Over a clear connection, the goroutine of the new attempt is the only one that will
read, and the request is the only one that the broker can answer. -/
theorem exclusive_sent (hlink : s.links[s.socket]? = some link) (hclear : Clear s) :
    Exclusive W (s.sent call link) call.number s.receivers.length := by
  constructor
  · intro other r hne hr
    have hget : (s.receivers ++ [Receiver.created])[other]? = some r := hr
    rcases lt_or_gt_of_ne hne with hlt | hgt
    · rw [List.getElem?_append_left hlt] at hget
      exact hclear.receivers r (List.mem_of_getElem? hget)
    · rw [List.getElem?_eq_none (by simp; omega)] at hget
      cases hget
  · obtain ⟨hwaiting, hstream⟩ := hclear.link link hlink
    refine ⟨_, .created, getElem?_replaced hlink _, List.getElem?_concat_length, ?_⟩
    refine .asked call.pending ?_ rfl hstream rfl
    rw [Link.asked, hwaiting]
    rfl

theorem Sound.send {ok : Bool} (hs : Sound W s) (hclear : ok = true → Clear s)
    (hstep : s.send ok = some t) : Sound W t := by
  unfold Client.send at hstep
  split at hstep
  · rename_i call link hthread hlink
    split at hstep
    · cases hstep
      exact hs.away rfl rfl nofun
    · rename_i hok
      split at hstep
      · cases hstep
      · cases hstep
        refine ⟨hs.own, ?_⟩
        rintro _ _ ⟨⟩
        exact exclusive_sent hlink (hclear (by simpa using hok))
  · cases hstep

theorem Sound.receive (hs : Sound W s) (hstep : s.receive = some t) : Sound W t := by
  unfold Client.receive at hstep
  split at hstep
  · rename_i call attempt hthread
    split at hstep
    · rename_i frames hfinished
      split at hstep
      · rename_i body hbody
        cases hstep
        obtain ⟨link, _, hlink, _, _⟩ := (hs.exclusive call attempt hthread).own
        have hreply : ⟨call.number, frames⟩ ∈ s.replies :=
          (hs.exclusive call attempt hthread).own_of hlink hfinished
        refine ⟨List.forall_mem_append.mpr ⟨hs.own, ?_⟩, nofun⟩
        exact List.forall_mem_singleton.mpr ⟨frames, hreply, hbody⟩
      · cases hstep
        exact hs.away rfl rfl nofun
    · cases hstep
      exact hs.away rfl rfl nofun
    · cases hstep
  · cases hstep

theorem Sound.timeout (hs : Sound W s) (hstep : s.timeout = some t) : Sound W t := by
  unfold Client.timeout at hstep
  split at hstep
  · cases hstep
    exact hs.away rfl rfl nofun
  · cases hstep

theorem Sound.retry {dialed : Bool} (hs : Sound W s) (hstep : s.retry dialed = some t) :
    Sound W t := by
  unfold Client.retry Client.reconnect at hstep
  split at hstep
  · split at hstep
    · cases hstep
      rcases dialed with _ | _
      · exact hs.away rfl rfl nofun
      · exact hs.away rfl rfl nofun
    · cases hstep
  · cases hstep

theorem Sound.giveUp (hs : Sound W s) (hstep : s.giveUp = some t) : Sound W t := by
  unfold Client.giveUp at hstep
  split at hstep
  · obtain ⟨_, ⟨⟩⟩ := Option.ite_none_right_eq_some.mp hstep
    exact hs.away rfl rfl nofun
  · cases hstep

theorem Sound.step {action : Action} (hs : Sound W s) (hclear : SendsClear s action)
    (hstep : step W retries s action = some t) : Sound W t := by
  cases action with
  | request service body => exact hs.request hstep
  | send ok =>
    refine hs.send ?_ hstep
    rintro rfl
    exact hclear
  | start attempt => exact hs.beside (beside_start hstep)
  | read attempt => exact hs.beside (beside_read hstep)
  | abort attempt err => exact hs.beside (beside_abort hstep)
  | receive => exact hs.receive hstep
  | timeout => exact hs.timeout hstep
  | retry dialed => exact hs.retry hstep
  | giveUp => exact hs.giveUp hstep
  | answer k index frames => exact hs.beside (beside_answer hstep)
  | drop k => exact hs.beside (beside_drop hstep)

theorem sound_connected : Sound W Client.connected :=
  ⟨nofun, nofun⟩

/-- A client that sends its requests over clear connections only never returns the
reply to another call. -/
theorem ownReplies_of_sendsClear (hrun : run (step W retries) Client.connected actions = some t)
    (hclear : Throughout (step W retries) SendsClear Client.connected actions) :
    OwnReplies t :=
  (run_keeps_of_throughout (fun _ _ _ hs hcond hstep => hs.step hcond hstep) hclear
    sound_connected hrun).own

end Runs

section Stale

variable {W : Wire} {retries : Int} {s : Client} {frames : List Bytes}

variable {link : Link} {pending : Pending} {body : Bytes} {attempt : Nat}

theorem step_read {taken : Bytes} {byte : UInt8}
    (hreading : s.receivers[attempt]? = some (.reading k taken)) (hlink : s.links[k]? = some link)
    (hopen : link.closed = false) (hstream : link.stream = byte :: rest) :
    step W retries s (.read attempt) =
      some ((s.setLink k { link with stream := rest }).setReceiver attempt
        (Client.after W k (taken ++ [byte]))) := by
  simp only [step, Client.read, hreading, hlink, hopen, hstream]

def replyFrames (service body : Bytes) : List Bytes :=
  formatClientReply (newClientReply service body)

def nullWire : Wire :=
  frameWire transparent_nullSecurity ()

def echo : Bytes := ascii "echo"

/-- The first call times out and gives up.  Its reply comes when the second one waits,
and the goroutine of the second one reads it. -/
def lateRun : List Action :=
  [.request echo [1], .send true, .start 0, .timeout, .giveUp, .request echo [2], .send true,
    .start 1, .answer 0 0 (replyFrames echo [1])] ++ List.replicate 26 (.read 1) ++ [.receive]

theorem not_ownReplies_lateRun :
    ∃ t, run (step nullWire 0) Client.connected lateRun = some t ∧
      t.returned = [⟨1, echo, [1]⟩] ∧ t.replies = [⟨0, replyFrames echo [1]⟩] ∧
      ¬ OwnReplies t := by
  have hend : (run (step nullWire 0) Client.connected lateRun).map
      (fun t => (t.returned, t.replies)) =
        some ([⟨1, echo, [1]⟩], [⟨0, replyFrames echo [1]⟩]) := by
    decide +kernel
  obtain ⟨t, hrun, hboth⟩ := Option.map_eq_some_iff.mp hend
  obtain ⟨hreturned, hreplies⟩ := Prod.mk.inj hboth
  refine ⟨t, hrun, hreturned, hreplies, ?_⟩
  intro hown
  have hlast : ⟨1, echo, [1]⟩ ∈ t.returned := by
    rw [hreturned]
    exact List.mem_singleton_self _
  obtain ⟨frames, hmem, _⟩ := hown _ hlast
  rw [hreplies, List.mem_singleton] at hmem
  cases congrArg Reply.call hmem

def answeredRun : List Action :=
  [.request echo [1], .send true, .start 0, .answer 0 0 (replyFrames echo [1])] ++
    List.replicate 26 (.read 0) ++ [.receive, .request echo [2], .send true]

theorem ownReplies_of_sendsClear_answeredRun :
    ∃ t, run (step nullWire 0) Client.connected answeredRun = some t ∧
      t.returned = [⟨0, echo, [1]⟩] ∧ OwnReplies t := by
  have hend : (run (step nullWire 0) Client.connected answeredRun).map (fun t => t.returned) =
      some [⟨0, echo, [1]⟩] := by
    decide +kernel
  have hclear : Throughout (step nullWire 0) SendsClear Client.connected answeredRun := by
    decide +kernel
  obtain ⟨t, hrun, hreturned⟩ := Option.map_eq_some_iff.mp hend
  exact ⟨t, hrun, hreturned, ownReplies_of_sendsClear hrun hclear⟩

end Stale

end Zmq4.MajordomoClient

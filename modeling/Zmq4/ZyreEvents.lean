import Mathlib.Data.List.Nodup
import Mathlib.Data.List.ReduceOption
import Zmq4.ActionRuns
import Zmq4.DuplexProgram

namespace Zmq4.ZyreEvents

open ByteCodec DuplexProgram ActionRuns

inductive EventType
  | enter
  | exit
  | join
  | leave
  | whisper
  | shout
  deriving DecidableEq

structure Event where
  type : EventType
  peerUUID : Bytes
  peerName : Bytes
  peerAddr : Bytes
  headers : List (Bytes × Bytes) := []
  timestamp : Int
  deriving DecidableEq

def newEnterEvent (peerUUID peerName peerAddr : Bytes) (headers : List (Bytes × Bytes))
    (now : Int) : Event where
  type := .enter
  peerUUID := peerUUID
  peerName := peerName
  peerAddr := peerAddr
  headers := headers
  timestamp := now

def newExitEvent (peerUUID peerName peerAddr : Bytes) (now : Int) : Event where
  type := .exit
  peerUUID := peerUUID
  peerName := peerName
  peerAddr := peerAddr
  timestamp := now

/-- The channel of a listener.  Receivers wait only while the buffer is empty. -/
structure Channel (α : Type) where
  capacity : Nat
  queue : List α := []
  waiting : Nat := 0
  received : List α := []
  idle : waiting = 0 ∨ queue = []

namespace Channel

variable {α : Type}

def make (capacity : Nat) : Channel α where
  capacity := capacity
  idle := Or.inl rfl

def hasRoom (c : Channel α) : Bool :=
  0 < c.waiting || c.queue.length < c.capacity

/-- A value goes to a receiver that waits, otherwise to the buffer. -/
def send (c : Channel α) (value : α) : Channel α :=
  if h : c.waiting = 0 then
    { c with
      queue := c.queue ++ [value]
      idle := Or.inl h }
  else
    { c with
      waiting := c.waiting - 1
      received := c.received ++ [value]
      idle := Or.inr (c.idle.resolve_left h) }

def receive (c : Channel α) : Channel α :=
  match h : c.queue with
  | [] =>
    { c with
      waiting := c.waiting + 1
      idle := Or.inr h }
  | value :: rest =>
    { c with
      queue := rest
      received := c.received ++ [value]
      idle := Or.inl (c.idle.resolve_right (by rw [h]; exact List.cons_ne_nil value rest)) }

def sent (c : Channel α) : List α :=
  c.received ++ c.queue

theorem sent_send (c : Channel α) (value : α) : (c.send value).sent = c.sent ++ [value] := by
  unfold send
  split
  · exact (List.append_assoc _ _ _).symm
  · next hwaiting =>
      have hqueue : c.queue = [] := c.idle.resolve_left hwaiting
      simp [sent, hqueue]

theorem sent_receive (c : Channel α) : c.receive.sent = c.sent := by
  unfold receive
  split
  · rfl
  · next value rest hqueue =>
      simp [sent, hqueue]

theorem send_ne (c : Channel α) (value : α) : c.send value ≠ c := by
  intro heq
  have hlength := congrArg (fun c => c.sent.length) heq
  simp [sent_send] at hlength

end Channel

variable {α : Type}

def deliverTo (listeners : List Nat) (value : α) (channels : Nat → Channel α) :
    Nat → Channel α :=
  fun listener =>
    if listener ∈ listeners then (channels listener).send value else channels listener

@[simp]
theorem deliverTo_nil (value : α) (channels : Nat → Channel α) :
    deliverTo [] value channels = channels := by
  funext listener
  simp [deliverTo]

variable {listeners : List Nat}

theorem deliverTo_of_not_mem {listener : Nat} (hnew : listener ∉ listeners) (value : α)
    (channels : Nat → Channel α) :
    deliverTo listeners value channels listener = channels listener :=
  if_neg hnew

/-- The array while the loop ranges over it.  The slice of the event channel is its
first `len` elements. -/
structure Ranging (α : Type) where
  slots : List Nat
  len : Nat
  channels : Nat → Channel α
  bound : len ≤ slots.length
  nodup : (slots.take len).Nodup

variable {skipped : Nat}

namespace Ranging

/-- `append(listeners[:i], listeners[i+1:]...)` moves what is behind `i` to the left.
The last element stays where it was, too. -/
def removed (slots : List Nat) (len i : Nat) : List Nat :=
  (slots.take len).eraseIdx i ++ slots.drop (len - 1)

variable {slots : List Nat} {len : Nat}

theorem length_eraseIdx_take {i : Nat} (hbound : len ≤ slots.length) (hi : i < len) :
    ((slots.take len).eraseIdx i).length = len - 1 := by
  rw [List.length_eraseIdx_of_lt (by rw [List.length_take]; omega), List.length_take]
  omega

theorem take_removed {i : Nat} (hbound : len ≤ slots.length) (hi : i < len) :
    (removed slots len i).take (len - 1) = (slots.take len).eraseIdx i := by
  rw [removed, List.take_append_of_le_length (length_eraseIdx_take hbound hi).ge]
  exact List.take_of_length_le (length_eraseIdx_take hbound hi).le

def remove (r : Ranging α) (i : Nat) (hi : i < r.len) : Ranging α where
  slots := removed r.slots r.len i
  len := r.len - 1
  channels := r.channels
  bound := by
    rw [removed, List.length_append, length_eraseIdx_take r.bound hi]
    omega
  nodup := by
    rw [take_removed r.bound hi]
    exact r.nodup.sublist (List.eraseIdx_sublist _ _)

def deliver (r : Ranging α) (listener : Nat) (value : α) : Ranging α :=
  { r with
    channels := Function.update r.channels listener ((r.channels listener).send value) }

/-- One iteration.  The range reads the array that was there when it began. -/
def visit (value : α) (r : Ranging α) (i : Nat) : Except Stop (Ranging α) :=
  match r.slots[i]? with
  | none => .ok r
  | some listener =>
    if (r.channels listener).hasRoom then .ok (r.deliver listener value)
    else if hi : i < r.len then .ok (r.remove i hi)
    else .error (.panicked "slice bounds out of range")

def visits (value : α) (first count : Nat) (r : Ranging α) : Except Stop (Ranging α) :=
  (List.range' first count).foldlM (visit value) r

variable {r r' : Ranging α} {value : α} {i listener : Nat}

theorem getElem?_removed (hbound : len ≤ slots.length) (hi : i < len) (j : Nat) :
    (removed slots len i)[j]? =
      if j < len - 1 then (if j < i then slots[j]? else slots[j + 1]?) else slots[j]? := by
  rw [removed, List.getElem?_append, length_eraseIdx_take hbound hi]
  split
  · next hj =>
      rw [List.getElem?_eraseIdx, List.getElem?_take_of_lt (by omega),
        List.getElem?_take_of_lt (by omega)]
  · next hj =>
      rw [List.getElem?_drop]
      congr 1
      omega

theorem visit_room (value : α) (hslot : r.slots[i]? = some listener)
    (hroom : (r.channels listener).hasRoom = true) :
    visit value r i = .ok (r.deliver listener value) := by
  simp only [visit, hslot]
  exact if_pos hroom

theorem visit_full (value : α) (hslot : r.slots[i]? = some listener)
    (hfull : (r.channels listener).hasRoom = false) (hi : i < r.len) :
    visit value r i = .ok (r.remove i hi) := by
  simp only [visit, hslot]
  rw [if_neg (Bool.not_eq_true _ ▸ hfull), dif_pos hi]

theorem visits_zero (value : α) (first : Nat) : r.visits value first 0 = .ok r :=
  rfl

theorem visits_succ (value : α) (first count : Nat) :
    r.visits value first (count + 1) =
      (visit value r first).bind (visits value (first + 1) count) := by
  rw [visits, List.range'_succ, List.foldlM_cons]
  rfl

theorem visits_add (value : α) (first count more : Nat) :
    r.visits value first (count + more) =
      (r.visits value first count).bind (visits value (first + count) more) := by
  rw [visits, ← List.range'_append_1, List.foldlM_append]
  rfl

theorem visits_room {before row rest : List Nat} (hslots : r.slots = before ++ (row ++ rest))
    (hnodup : row.Nodup) (hroom : ∀ listener ∈ row, (r.channels listener).hasRoom = true) :
    r.visits value before.length row.length =
      .ok { r with channels := deliverTo row value r.channels } := by
  induction row generalizing before r with
  | nil =>
    rw [deliverTo_nil]
    exact visits_zero value before.length
  | cons listener row ih =>
    obtain ⟨hnew, hrow⟩ := List.nodup_cons.mp hnodup
    have hslot : r.slots[before.length]? = some listener := by
      simp [hslots]
    have hslots' : (r.deliver listener value).slots =
        (before ++ [listener]) ++ (row ++ rest) := by
      rw [deliver, hslots]
      simp
    have hroom' : ∀ other ∈ row,
        ((r.deliver listener value).channels other).hasRoom = true := by
      intro other hother
      have hne : other ≠ listener := fun heq => hnew (heq ▸ hother)
      have hsame : (r.deliver listener value).channels other = r.channels other :=
        Function.update_of_ne hne _ _
      rw [hsame]
      exact hroom other (List.mem_cons_of_mem listener hother)
    have hrest := ih hslots' hrow hroom'
    rw [List.length_append, List.length_singleton] at hrest
    rw [List.length_cons, visits_succ,
      visit_room value hslot (hroom listener List.mem_cons_self), Except.bind, hrest]
    simp only [deliver]
    congr 2
    funext other
    rcases eq_or_ne other listener with rfl | hne
    · simp [deliverTo, hnew]
    · simp [deliverTo, hne]

/-- The listener `skipped` is in a place that the range has passed, and in no other. -/
structure Skips (skipped place : Nat) (channel : Channel α) (r : Ranging α) : Prop where
  slot : r.slots[place]? = some skipped
  later : ∀ j, place < j → r.slots[j]? ≠ some skipped
  inside : place < r.len
  channel_eq : r.channels skipped = channel

variable {channel : Channel α}

theorem skips_visit {place : Nat} (hr : Skips skipped place channel r) (hi : place < i)
    (hvisit : visit value r i = .ok r') :
    Skips skipped place channel r' := by
  simp only [visit] at hvisit
  split at hvisit
  · cases hvisit
    exact hr
  · next listener hslot =>
      split at hvisit
      · cases hvisit
        have hne : skipped ≠ listener := by
          rintro rfl
          exact hr.later i hi hslot
        exact
          { slot := hr.slot
            later := hr.later
            inside := hr.inside
            channel_eq := (Function.update_of_ne hne _ _).trans hr.channel_eq }
      · split at hvisit
        · next hlen =>
            cases hvisit
            refine ⟨?_, ?_, ?_, hr.channel_eq⟩
            · rw [remove, getElem?_removed r.bound hlen, if_pos (by omega), if_pos hi]
              exact hr.slot
            · intro j hj
              rw [remove, getElem?_removed r.bound hlen]
              split
              · split
                · exact hr.later j hj
                · exact hr.later (j + 1) (by omega)
              · exact hr.later j hj
            · change place < r.len - 1
              omega
        · cases hvisit

theorem skips_visits {place first count : Nat} (hr : Skips skipped place channel r)
    (hfirst : place < first) (hvisits : r.visits value first count = .ok r') :
    Skips skipped place channel r' := by
  induction count generalizing first r with
  | zero =>
    cases hvisits
    exact hr
  | succ count ih =>
    rw [visits_succ] at hvisits
    rcases hvisit : visit value r first with stop | middle
    · rw [hvisit] at hvisits
      cases hvisits
    · rw [hvisit] at hvisits
      exact ih (skips_visit hr hfirst hvisit) (by omega) hvisits

end Ranging

/-- `listeners` are the channels that are subscribed, by number.  A receive from
`events` gives nil once it is closed and empty; `distributed` has what the loop has
received so far. -/
structure EventChannel (ε : Type) where
  events : List ε := []
  bufferSize : Nat
  closing : Bool := false
  listeners : List Nat := []
  channels : Nat → Channel (Option ε) := fun _ => .make 0
  distributed : List (Option ε) := []
  nodup : listeners.Nodup

def newEventChannel (ε : Type) (bufferSize : Nat) : EventChannel ε where
  bufferSize := bufferSize
  nodup := List.nodup_nil

inductive Action (ε : Type)
  | publish (event : ε)
  | close
  | distribute
  | receive (listener : Nat)

def Action.published {ε : Type} : Action ε → Option ε
  | .publish event => some event
  | .close | .distribute | .receive _ => none

namespace EventChannel

variable {ε : Type}

def subscribe (ec : EventChannel ε) (bufferSize listener : Nat) (hnew : listener ∉ ec.listeners) :
    EventChannel ε :=
  { ec with
    listeners := ec.listeners ++ [listener]
    channels := Function.update ec.channels listener (.make bufferSize)
    nodup := by
      rw [← List.concat_eq_append]
      exact List.Nodup.concat hnew ec.nodup }

def publish (ec : EventChannel ε) (event : ε) : EventChannel ε :=
  if ec.closing then ec
  else if ec.events.length < ec.bufferSize then { ec with events := ec.events ++ [event] }
  else ec

def close (ec : EventChannel ε) : EventChannel ε :=
  if ec.closing then ec else { ec with closing := true }

def ranging (ec : EventChannel ε) : Ranging (Option ε) where
  slots := ec.listeners
  len := ec.listeners.length
  channels := ec.channels
  bound := le_rfl
  nodup := by
    rw [List.take_length]
    exact ec.nodup

/-- The slice and the channels after the loop has ranged over the listeners. -/
def after (ec : EventChannel ε) (r : Ranging (Option ε)) : EventChannel ε :=
  { ec with
    listeners := r.slots.take r.len
    channels := r.channels
    nodup := r.nodup }

def distribute (ec : EventChannel ε) (value : Option ε) : Except Stop (EventChannel ε) :=
  (ec.ranging.visits value 0 ec.listeners.length).map ec.after

def take (ec : EventChannel ε) : Option (Option ε × EventChannel ε) :=
  match ec.events with
  | event :: rest =>
    some (some event, { ec with
      events := rest
      distributed := ec.distributed ++ [some event] })
  | [] =>
    if ec.closing then some (none, { ec with distributed := ec.distributed ++ [none] }) else none

def step (ec : EventChannel ε) : Action ε → Option (EventChannel ε)
  | .publish event => some (ec.publish event)
  | .close => some ec.close
  | .distribute => ec.take.bind fun (value, ec) => (ec.distribute value).toOption
  | .receive listener =>
    some { ec with
      channels := Function.update ec.channels listener (ec.channels listener).receive }

def hasRoom (ec : EventChannel ε) (listener : Nat) : Bool :=
  (ec.channels listener).hasRoom

/-- The loop does not panic, each listener with room gets the value once, and the
others are removed. -/
def Distributes (ec : EventChannel ε) (value : Option ε) : Prop :=
  ∃ ec', ec.distribute value = .ok ec' ∧ ec'.listeners = ec.listeners.filter ec.hasRoom ∧
    ec'.channels = deliverTo (ec.listeners.filter ec.hasRoom) value ec.channels

def Right (ec : EventChannel ε) : Action ε → Prop
  | .distribute => ∀ value ec', ec.take = some (value, ec') → ec'.Distributes value
  | .publish _ | .close | .receive _ => True

/-- A listener without room is the last or the last but one, and the only one. -/
def sparedFrom (hasRoom : Nat → Bool) : List Nat → Bool
  | [] => true
  | listener :: rest =>
    (hasRoom listener || (rest.length ≤ 1 && rest.all hasRoom)) && sparedFrom hasRoom rest

def Spared (ec : EventChannel ε) : Action ε → Prop
  | .distribute => ec.take.isSome → sparedFrom ec.hasRoom ec.listeners = true
  | .publish _ | .close | .receive _ => True

variable {ec ec' : EventChannel ε} {value : Option ε}

section Cases

variable {row rest : List Nat} {full : Nat}

theorem sparedFrom_of_all {hasRoom : Nat → Bool}
    (hroom : ∀ listener ∈ listeners, hasRoom listener = true) :
    sparedFrom hasRoom listeners = true := by
  induction listeners with
  | nil => rfl
  | cons listener rest ih =>
    rw [List.forall_mem_cons] at hroom
    rw [sparedFrom, hroom.1, ih hroom.2]
    rfl

theorem sparedFrom_append {hasRoom : Nat → Bool} (hrow : ∀ listener ∈ row, hasRoom listener = true)
    (hfull : hasRoom full = false) :
    sparedFrom hasRoom (row ++ full :: rest) = true ↔
      rest.length ≤ 1 ∧ ∀ listener ∈ rest, hasRoom listener = true := by
  induction row with
  | nil =>
    rw [List.nil_append, sparedFrom, hfull]
    simp only [Bool.false_or, Bool.and_eq_true, decide_eq_true_eq, List.all_eq_true]
    exact ⟨And.left, fun hrest => ⟨hrest, sparedFrom_of_all hrest.2⟩⟩
  | cons listener row ih =>
    rw [List.forall_mem_cons] at hrow
    rw [List.cons_append, sparedFrom, hrow.1, Bool.true_or, Bool.true_and]
    exact ih hrow.2

theorem visits_first_full (value : Option ε) (hlisteners : ec.listeners = row ++ full :: rest)
    (hrow : ∀ listener ∈ row, ec.hasRoom listener = true) (hfull : ec.hasRoom full = false) :
    ∃ r, ec.ranging.visits value 0 (row.length + 1) = .ok r ∧
      r.slots = row ++ (rest ++ (full :: rest).drop rest.length) ∧
      r.len = row.length + rest.length ∧ r.channels = deliverTo row value ec.channels := by
  have hnodup := ec.nodup
  rw [hlisteners, List.nodup_append'] at hnodup
  obtain ⟨hnodupRow, -, hdisjoint⟩ := hnodup
  have hnew : full ∉ row := fun hmem => hdisjoint hmem List.mem_cons_self
  have hslots : ec.ranging.slots = [] ++ (row ++ full :: rest) := hlisteners
  have hvisits : ec.ranging.visits value 0 row.length =
      .ok { ec.ranging with channels := deliverTo row value ec.channels } :=
    Ranging.visits_room hslots hnodupRow hrow
  have hslot : ec.ranging.slots[row.length]? = some full := by
    change ec.listeners[row.length]? = some full
    simp [hlisteners]
  have hchannel : (deliverTo row value ec.channels full).hasRoom = false := by
    rw [deliverTo_of_not_mem hnew]
    exact hfull
  have hlen : row.length < ec.ranging.len := by
    change row.length < ec.listeners.length
    simp [hlisteners]
  have hvisit := Ranging.visit_full
    (r := { ec.ranging with channels := deliverTo row value ec.channels }) value hslot hchannel hlen
  refine ⟨Ranging.remove { ec.ranging with channels := deliverTo row value ec.channels }
    row.length hlen, ?_, ?_, ?_, rfl⟩
  · rw [Ranging.visits_add, hvisits, Except.bind, Nat.zero_add, Ranging.visits_succ, hvisit]
    rfl
  · change Ranging.removed ec.listeners ec.listeners.length row.length = _
    rw [Ranging.removed, List.take_length, hlisteners, List.eraseIdx_append_of_length_le le_rfl]
    simp
  · change ec.listeners.length - 1 = _
    rw [hlisteners]
    simp

variable {r : Ranging (Option ε)}

theorem distributes_of_visits (hvisits : ec.ranging.visits value 0 ec.listeners.length = .ok r)
    (hlisteners : r.slots.take r.len = ec.listeners.filter ec.hasRoom)
    (hchannels : r.channels = deliverTo (ec.listeners.filter ec.hasRoom) value ec.channels) :
    ec.Distributes value := by
  refine ⟨ec.after r, ?_, hlisteners, hchannels⟩
  rw [distribute, hvisits]
  rfl

theorem distributes_of_all (value : Option ε)
    (hroom : ∀ listener ∈ ec.listeners, ec.hasRoom listener = true) : ec.Distributes value := by
  have hslots : ec.ranging.slots = [] ++ (ec.listeners ++ []) := by
    rw [List.append_nil]
    rfl
  have hvisits : ec.ranging.visits value 0 ec.listeners.length =
      .ok { ec.ranging with channels := deliverTo ec.listeners value ec.channels } :=
    Ranging.visits_room hslots ec.nodup hroom
  have hfilter : ec.listeners.filter ec.hasRoom = ec.listeners := List.filter_eq_self.mpr hroom
  apply distributes_of_visits hvisits
  · rw [hfilter]
    exact List.take_length
  · rw [hfilter]

theorem filter_hasRoom (hlisteners : ec.listeners = row ++ full :: rest)
    (hrow : ∀ listener ∈ row, ec.hasRoom listener = true) (hfull : ec.hasRoom full = false) :
    ec.listeners.filter ec.hasRoom = row ++ rest.filter ec.hasRoom := by
  rw [hlisteners, List.filter_append, List.filter_cons_of_neg (by simp [hfull]),
    List.filter_eq_self.mpr hrow]

theorem visits_split (hlisteners : ec.listeners = row ++ full :: rest)
    (hvisits : ec.ranging.visits value 0 (row.length + 1) = .ok r) :
    ec.ranging.visits value 0 ec.listeners.length =
      r.visits value (row.length + 1) rest.length := by
  have hlength : ec.listeners.length = row.length + 1 + rest.length := by
    rw [hlisteners, List.length_append, List.length_cons]
    omega
  rw [hlength, Ranging.visits_add, hvisits, Nat.zero_add]
  rfl

theorem distributes_last (value : Option ε) (hlisteners : ec.listeners = row ++ [full])
    (hrow : ∀ listener ∈ row, ec.hasRoom listener = true) (hfull : ec.hasRoom full = false) :
    ec.Distributes value := by
  obtain ⟨r, hvisits, hslots, hlen, hchannels⟩ := visits_first_full value hlisteners hrow hfull
  have hfilter := filter_hasRoom hlisteners hrow hfull
  have hall := (visits_split hlisteners hvisits).trans (Ranging.visits_zero value _)
  apply distributes_of_visits hall
  · rw [hslots, hlen, hfilter]
    simp
  · rw [hchannels, hfilter]
    simp

variable {last : Nat}

theorem visits_last_but_one (value : Option ε) (hlisteners : ec.listeners = row ++ [full, last])
    (hrow : ∀ listener ∈ row, ec.hasRoom listener = true) (hfull : ec.hasRoom full = false) :
    ∃ r : Ranging (Option ε),
      ec.ranging.visits value 0 ec.listeners.length = r.visits value (row.length + 1) 1 ∧
      r.slots = row ++ [last, last] ∧ r.len = row.length + 1 ∧
      r.channels = deliverTo row value ec.channels ∧ r.channels last = ec.channels last := by
  obtain ⟨r, hvisits, hslots, hlen, hchannels⟩ := visits_first_full value hlisteners hrow hfull
  have hnew : last ∉ row := by
    have hnodup := ec.nodup
    rw [hlisteners, List.nodup_append'] at hnodup
    exact fun hmem => hnodup.2.2 hmem (List.mem_cons_of_mem full List.mem_cons_self)
  refine ⟨r, visits_split hlisteners hvisits, hslots, hlen, hchannels, ?_⟩
  rw [hchannels, deliverTo_of_not_mem hnew]

theorem distributes_last_but_one (value : Option ε)
    (hlisteners : ec.listeners = row ++ [full, last])
    (hrow : ∀ listener ∈ row, ec.hasRoom listener = true) (hfull : ec.hasRoom full = false)
    (hlast : ec.hasRoom last = true) : ec.Distributes value := by
  obtain ⟨r, hvisits, hslots, hlen, hchannels, hchannel⟩ :=
    visits_last_but_one value hlisteners hrow hfull
  have hslot : r.slots[row.length + 1]? = some last := by
    rw [hslots]
    simp
  have hfilter : ec.listeners.filter ec.hasRoom = row ++ [last] := by
    rw [filter_hasRoom hlisteners hrow hfull]
    simp [hlast]
  rw [Ranging.visits_succ, Ranging.visit_room value hslot (hchannel ▸ hlast)] at hvisits
  apply distributes_of_visits hvisits
  · change r.slots.take r.len = _
    rw [hslots, hlen, hfilter, List.take_length_add_append]
    rfl
  · change Function.update r.channels last ((r.channels last).send value) = _
    rw [hchannel, hchannels, hfilter]
    funext other
    rcases eq_or_ne other last with rfl | hne
    · simp [deliverTo]
    · simp [deliverTo, hne]

theorem not_distributes_last_two (value : Option ε)
    (hlisteners : ec.listeners = row ++ [full, last])
    (hrow : ∀ listener ∈ row, ec.hasRoom listener = true) (hfull : ec.hasRoom full = false)
    (hlast : ec.hasRoom last = false) : ¬ ec.Distributes value := by
  obtain ⟨r, hvisits, hslots, hlen, -, hchannel⟩ :=
    visits_last_but_one value hlisteners hrow hfull
  have hslot : r.slots[row.length + 1]? = some last := by
    rw [hslots]
    simp
  rw [Ranging.visits_succ, Ranging.visit] at hvisits
  simp only [hslot] at hvisits
  rw [if_neg (Bool.not_eq_true _ ▸ hchannel ▸ hlast), dif_neg (by rw [hlen]; exact lt_irrefl _)]
    at hvisits
  rintro ⟨ec', hok, -⟩
  rw [distribute, hvisits] at hok
  cases hok

theorem not_distributes_skipped (value : Option ε) {next : Nat} {others : List Nat}
    (hlisteners : ec.listeners = row ++ full :: skipped :: next :: others)
    (hrow : ∀ listener ∈ row, ec.hasRoom listener = true) (hfull : ec.hasRoom full = false) :
    ¬ ec.Distributes value := by
  obtain ⟨r, hvisits, hslots, hlen, hchannels⟩ := visits_first_full value hlisteners hrow hfull
  have hnodup := ec.nodup
  rw [hlisteners, List.nodup_append'] at hnodup
  obtain ⟨-, htail, hdisjoint⟩ := hnodup
  have hnew : skipped ∉ row :=
    fun hmem => hdisjoint hmem (List.mem_cons_of_mem full List.mem_cons_self)
  have hbehind : skipped ∉ next :: others := (List.nodup_cons.mp (List.nodup_cons.mp htail).2).1
  have hskips : Ranging.Skips skipped row.length (ec.channels skipped) r := by
    refine ⟨?_, ?_, ?_, ?_⟩
    · rw [hslots]
      simp
    · intro j hj hslot
      rw [hslots, List.getElem?_append_right hj.le] at hslot
      obtain ⟨k, hk⟩ : ∃ k, j - row.length = k + 1 := ⟨j - row.length - 1, by omega⟩
      rw [hk, List.cons_append, List.getElem?_cons_succ] at hslot
      rcases List.mem_append.mp (List.mem_of_getElem? hslot) with hmem | hmem
      · exact hbehind hmem
      · simp only [List.length_cons, List.drop_succ_cons] at hmem
        exact hbehind (List.mem_of_mem_drop hmem)
    · rw [hlen, List.length_cons]
      omega
    · rw [hchannels, deliverTo_of_not_mem hnew]
  rintro ⟨ec', hok, hremoved, hdelivered⟩
  rw [distribute, visits_split hlisteners hvisits] at hok
  rcases hrest : r.visits value (row.length + 1) (skipped :: next :: others).length with stop | r'
  · rw [hrest] at hok
    cases hok
  · rw [hrest] at hok
    cases hok
    have hskipped := Ranging.skips_visits hskips (Nat.lt_succ_self _) hrest
    have hmember : skipped ∈ ec.listeners := by
      rw [hlisteners]
      simp
    rcases hroom : ec.hasRoom skipped with _ | _
    · have hstays : skipped ∈ r'.slots.take r'.len :=
        List.mem_of_getElem? ((List.getElem?_take_of_lt hskipped.inside).trans hskipped.slot)
      change r'.slots.take r'.len = _ at hremoved
      rw [hremoved, List.mem_filter, hroom] at hstays
      exact nomatch hstays.2
    · have hgot := congrFun hdelivered skipped
      rw [deliverTo, if_pos (List.mem_filter.mpr ⟨hmember, hroom⟩)] at hgot
      exact Channel.send_ne _ _ (hgot.symm.trans hskipped.channel_eq)

/-- The distribution of a value is right if and only if each listener has room, or
only the last one or only the last but one has none. -/
theorem distributes_iff (value : Option ε) :
    ec.Distributes value ↔ sparedFrom ec.hasRoom ec.listeners = true := by
  rcases hfind : ec.listeners.find? (fun listener => !ec.hasRoom listener) with _ | full
  · have hroom : ∀ listener ∈ ec.listeners, ec.hasRoom listener = true := by
      simpa using hfind
    exact iff_of_true (distributes_of_all value hroom) (sparedFrom_of_all hroom)
  · obtain ⟨hfull, row, rest, hlisteners, hrow⟩ := List.find?_eq_some_iff_append.mp hfind
    replace hfull : ec.hasRoom full = false := by simpa using hfull
    replace hrow : ∀ listener ∈ row, ec.hasRoom listener = true := by simpa using hrow
    rw [hlisteners, sparedFrom_append hrow hfull]
    match rest with
    | [] => exact iff_of_true (distributes_last value hlisteners hrow hfull) (by simp)
    | [last] =>
      rcases hlast : ec.hasRoom last with _ | _
      · exact iff_of_false (not_distributes_last_two value hlisteners hrow hfull hlast)
          (by simp [hlast])
      · exact iff_of_true (distributes_last_but_one value hlisteners hrow hfull hlast)
          (by simp [hlast])
    | skipped :: next :: others =>
      exact iff_of_false (not_distributes_skipped value hlisteners hrow hfull) (by simp)

end Cases

theorem take_same (htake : ec.take = some (value, ec')) :
    ec'.listeners = ec.listeners ∧ ec'.channels = ec.channels ∧
      ec'.distributed = ec.distributed ++ [value] ∧ value.toList ++ ec'.events = ec.events := by
  unfold take at htake
  split at htake
  · next hevents =>
      cases htake
      exact ⟨rfl, rfl, rfl, hevents.symm⟩
  · obtain ⟨-, htake⟩ := Option.ite_none_right_eq_some.mp htake
    cases htake
    exact ⟨rfl, rfl, rfl, rfl⟩

theorem right_iff_spared (ec : EventChannel ε) (action : Action ε) :
    ec.Right action ↔ ec.Spared action := by
  cases action with
  | distribute =>
    rcases htake : ec.take with _ | ⟨value, taken⟩
    · simp [Right, Spared, htake]
    · obtain ⟨hlisteners, hchannels, -⟩ := take_same htake
      have hroom : taken.hasRoom = ec.hasRoom := by
        funext listener
        rw [hasRoom, hasRoom, hchannels]
      have hiff : taken.Distributes value ↔ _ := distributes_iff value
      rw [hlisteners, hroom] at hiff
      simp [Right, Spared, htake, hiff]
  | publish | close | receive => exact Iff.rfl

/-- Since `start`, each listener has been sent some of the values that were taken,
each once and in their order.  Those that are still subscribed were sent all. -/
def Served (start ec : EventChannel ε) : Prop :=
  ∃ taken, ec.distributed = start.distributed ++ taken ∧
    ∀ listener, ∃ got, got.Sublist taken ∧
      (ec.channels listener).sent = (start.channels listener).sent ++ got ∧
      (listener ∈ ec.listeners → got = taken)

variable {start : EventChannel ε}

theorem served_of_same (hserved : Served start ec) (hdistributed : ec'.distributed = ec.distributed)
    (hlisteners : ec'.listeners = ec.listeners)
    (hsent : ∀ listener, (ec'.channels listener).sent = (ec.channels listener).sent) :
    Served start ec' := by
  obtain ⟨taken, htaken, hall⟩ := hserved
  refine ⟨taken, hdistributed.trans htaken, fun listener => ?_⟩
  obtain ⟨got, hgot, hlistener, hmember⟩ := hall listener
  refine ⟨got, hgot, (hsent listener).trans hlistener, ?_⟩
  rw [hlisteners]
  exact hmember

theorem distribute_same (hdistribute : ec.distribute value = .ok ec') :
    ec'.distributed = ec.distributed ∧ ec'.events = ec.events := by
  unfold distribute at hdistribute
  rcases hvisits : ec.ranging.visits value 0 ec.listeners.length with stop | r
  · rw [hvisits] at hdistribute
    cases hdistribute
  · rw [hvisits] at hdistribute
    cases hdistribute
    exact ⟨rfl, rfl⟩

theorem served_distribute (hserved : Served start ec) (hright : ec.Right .distribute)
    (hstep : ec.step .distribute = some ec') :
    Served start ec' := by
  obtain ⟨⟨value, middle⟩, htake, hdistribute⟩ := Option.bind_eq_some_iff.mp hstep
  obtain ⟨hlisteners, hchannels, hdistributed, -⟩ := take_same htake
  obtain ⟨after, hafter, hleft, hdelivered⟩ := hright value middle htake
  dsimp only at hdistribute
  rw [hafter] at hdistribute
  obtain rfl : after = ec' := Option.some.inj hdistribute
  obtain ⟨taken, htaken, hall⟩ := hserved
  refine ⟨taken ++ [value], ?_, fun listener => ?_⟩
  · rw [(distribute_same hafter).1, hdistributed, htaken, List.append_assoc]
  · obtain ⟨got, hgot, hsent, hmember⟩ := hall listener
    rw [hleft, hdelivered, deliverTo]
    split
    · next hroom =>
        refine ⟨got ++ [value], hgot.append (.refl [value]), ?_, fun _ => ?_⟩
        · rw [Channel.sent_send, hchannels, hsent, List.append_assoc]
        · rw [hmember (hlisteners ▸ (List.mem_filter.mp hroom).1)]
    · next hfull =>
        refine ⟨got, hgot.trans (List.sublist_append_left taken [value]), ?_, fun hroom => ?_⟩
        · rw [hchannels, hsent]
        · exact absurd hroom hfull

theorem served_step {action : Action ε} (hserved : Served start ec) (hright : ec.Right action)
    (hstep : ec.step action = some ec') : Served start ec' := by
  cases action with
  | publish event =>
    cases hstep
    unfold publish
    split_ifs <;> exact served_of_same hserved rfl rfl fun _ => rfl
  | close =>
    cases hstep
    unfold close
    split_ifs <;> exact served_of_same hserved rfl rfl fun _ => rfl
  | distribute => exact served_distribute hserved hright hstep
  | receive listener =>
    cases hstep
    refine served_of_same hserved rfl rfl fun other => ?_
    rcases eq_or_ne other listener with rfl | hne
    · simp [Channel.sent_receive]
    · simp [hne]

/-- Since `start`, the loop has taken what was queued before and then some of the values
that were published, in their order. -/
def Ordered (start ec : EventChannel ε) (published : List ε) : Prop :=
  ∃ queued, queued.Sublist published ∧
    ec.distributed.reduceOption ++ ec.events =
      start.distributed.reduceOption ++ start.events ++ queued

theorem ordered_step {action : Action ε} (hstep : ec.step action = some ec') :
    Ordered ec ec' action.published.toList := by
  cases action with
  | publish event =>
    cases hstep
    unfold publish
    split_ifs
    · exact ⟨[], List.nil_sublist _, (List.append_nil _).symm⟩
    · exact ⟨[event], .refl _, (List.append_assoc _ _ _).symm⟩
    · exact ⟨[], List.nil_sublist _, (List.append_nil _).symm⟩
  | close =>
    cases hstep
    unfold close
    split_ifs <;> exact ⟨[], .refl _, (List.append_nil _).symm⟩
  | distribute =>
    obtain ⟨⟨value, middle⟩, htake, hdistribute⟩ := Option.bind_eq_some_iff.mp hstep
    obtain ⟨-, -, hdistributed, hevents⟩ := take_same htake
    dsimp only at hdistribute
    rcases hafter : middle.distribute value with stop | after
    · rw [hafter] at hdistribute
      cases hdistribute
    rw [hafter] at hdistribute
    obtain rfl : after = ec' := Option.some.inj hdistribute
    obtain ⟨hsame, hleft⟩ := distribute_same hafter
    refine ⟨[], .refl _, ?_⟩
    rw [hsame, hleft, hdistributed, ← hevents, List.reduceOption_append, List.append_assoc]
    cases value <;> simp
  | receive listener =>
    cases hstep
    exact ⟨[], .refl _, (List.append_nil _).symm⟩

theorem ordered_run {actions : List (Action ε)} (hrun : run step ec actions = some ec') :
    Ordered ec ec' (actions.filterMap Action.published) := by
  induction actions generalizing ec with
  | nil =>
    cases hrun
    exact ⟨[], .refl _, (List.append_nil _).symm⟩
  | cons action rest ih =>
    obtain ⟨middle, hstep, hrest⟩ := run_cons_eq_some_iff.mp hrun
    obtain ⟨first, hfirst, hmiddle⟩ := ordered_step hstep
    obtain ⟨later, hlater, hend⟩ := ih hrest
    refine ⟨first ++ later, ?_, by rw [hend, hmiddle, List.append_assoc]⟩
    have happend : (action :: rest).filterMap Action.published =
        action.published.toList ++ rest.filterMap Action.published := by
      rcases hpublished : action.published with _ | event <;> simp [hpublished]
    exact happend ▸ hfirst.append hlater

/-- In a run, the loop never panics, each listener with room is sent each value, once
and in order, and exactly the others are removed, if and only if in each distribution
all listeners have room except at most one, which is one of the last two. -/
theorem distribution_iff_spared (ec : EventChannel ε) (actions : List (Action ε)) :
    (Throughout step Right ec actions ∧
        ∀ ec', run step ec actions = some ec' →
          Served ec ec' ∧ Ordered ec ec' (actions.filterMap Action.published)) ↔
      Throughout step Spared ec actions := by
  have hiff : Throughout step Right ec actions ↔ Throughout step Spared ec actions :=
    throughout_congr (H := fun _ _ => True) (fun ec action _ => right_iff_spared ec action)
      (throughout_of_forall (fun _ _ _ => trivial) ec)
  rw [← hiff, and_iff_left_iff_imp]
  intro hright ec' hrun
  refine ⟨?_, ordered_run hrun⟩
  exact run_keeps_of_throughout (I := Served ec)
    (fun s action s' hserved hright hstep => served_step hserved hright hstep) hright
    ⟨[], (List.append_nil _).symm, fun _ =>
      ⟨[], .refl [], (List.append_nil _).symm, fun _ => rfl⟩⟩ hrun

def threeListeners : EventChannel Nat :=
  (((newEventChannel Nat 10).subscribe 0 0 (by decide)).subscribe 5 1 (by decide)).subscribe 5 2
    (by decide)

def twoFullListeners : EventChannel Nat :=
  ((newEventChannel Nat 10).subscribe 0 0 (by decide)).subscribe 0 1 (by decide)

/-- The second listener is skipped and the third gets the event twice.  With two
listeners to remove the loop panics. -/
theorem full_listener_skips_and_panics :
    (∃ ec, run step threeListeners [.publish 7, .distribute] = some ec ∧
        threeListeners.hasRoom 1 = true ∧ (ec.channels 1).sent = [] ∧
        (ec.channels 2).sent = [some 7, some 7]) ∧
      (∃ ec, run step twoFullListeners [.publish 7] = some ec ∧
        ec.distribute (some 7) = .error (.panicked "slice bounds out of range")) :=
  ⟨⟨_, rfl, rfl, rfl, rfl⟩, ⟨_, rfl, rfl⟩⟩

end EventChannel

end Zmq4.ZyreEvents

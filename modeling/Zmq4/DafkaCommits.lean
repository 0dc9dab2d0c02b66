import Zmq4.DafkaConsumer
import Zmq4.KeyedMaps

namespace Zmq4.DafkaCommits

open ByteCodec ActionRuns KeyedMaps
open DafkaMessages (Record)
open DafkaStore (Pair)
open DafkaConsumer hiding Action step

/-- The fields of a `PartitionState` besides `LastOffset`, which the consumer has. -/
structure Position where
  pair : Pair
  committedOffset : UInt64

abbrev CommitRequest := List (Pair × UInt64)

def commitQueue : Nat := 100

/-- A consumer with its commits.  `snapshots` has the requests of calls of `Commit` and
`commitOffsets` that have read the offsets and are not in the queue yet, `processing`
the one that `commitLoop` has taken. -/
structure CommitSession where
  session : Session
  positions : KeyedMap Bytes Position
  snapshots : List CommitRequest
  commits : List CommitRequest
  processing : Option CommitRequest

/-- A step of the consumer; a call of `Commit` or `commitOffsets` that reads the offsets,
gets to the queue or gives up; `commitLoop` that takes a request and applies it. -/
inductive Action where
  | consumer (action : DafkaConsumer.Action)
  | snapshot
  | queue (i : Nat)
  | giveUp (i : Nat)
  | take
  | apply

def CommitSession.start (topics : List Bytes) : CommitSession where
  session := Session.start topics
  positions := ∅
  snapshots := []
  commits := []
  processing := none

namespace CommitSession

def lastOffset (s : CommitSession) (key : Bytes) : Option UInt64 :=
  s.session.consumer.lastOffsets.lookup key

def committedOffset (s : CommitSession) (key : Bytes) : Option UInt64 :=
  (s.positions.lookup key).map Position.committedOffset

def currentOffsets (s : CommitSession) : CommitRequest :=
  s.positions.entries.map fun entry => (entry.2.pair, (s.lastOffset entry.1).getD 0)

end CommitSession

def addPosition (positions : KeyedMap Bytes Position) (record : Record) :
    KeyedMap Bytes Position :=
  if (recordPair record).key ∈ positions then positions
  else
    positions.insert (recordPair record).key
      { pair := recordPair record, committedOffset := 0 }

def commitOffset (positions : KeyedMap Bytes Position) (entry : Pair × UInt64) :
    KeyedMap Bytes Position :=
  match positions.lookup entry.1.key with
  | some position => positions.insert entry.1.key { position with committedOffset := entry.2 }
  | none => positions

def processCommitRequest (positions : KeyedMap Bytes Position) (request : CommitRequest) :
    KeyedMap Bytes Position :=
  request.foldl commitOffset positions

def updatedRecord (s : Session) : DafkaConsumer.Action → Option Record
  | .update i => s.updating[i]?
  | _ => none

def step (config : ConsumerConfig) (s : CommitSession) : Action → Option CommitSession
  | .consumer action =>
    (DafkaConsumer.step config s.session action).map fun session =>
      { s with
        session := session
        positions := (updatedRecord s.session action).elim s.positions (addPosition s.positions) }
  | .snapshot => some { s with snapshots := s.snapshots ++ [s.currentOffsets] }
  | .queue i =>
    s.snapshots[i]?.map fun request =>
      { s with
        snapshots := s.snapshots.eraseIdx i
        commits :=
          if s.commits.length < commitQueue then s.commits ++ [request] else s.commits }
  | .giveUp i =>
    s.snapshots[i]?.map fun _ => { s with snapshots := s.snapshots.eraseIdx i }
  | .take =>
    if s.processing = none then
      s.commits.head?.map fun request =>
        { s with commits := s.commits.tail, processing := some request }
    else none
  | .apply =>
    s.processing.map fun request =>
      { s with
        positions := processCommitRequest s.positions request
        processing := none }

def offsetFor (request : CommitRequest) (key : Bytes) : Option UInt64 :=
  ((request.filter fun entry => entry.1.key = key).map Prod.snd).getLast?

/-- An offset that was there is still there, or a later one. -/
def NotBelow (before after : Option UInt64) : Prop :=
  ∀ x, before = some x → ∃ y, after = some y ∧ x ≤ y

def Ascends (config : ConsumerConfig) (pair : Pair) (s : CommitSession) (action : Action) : Prop :=
  ∀ t, step config s action = some t →
    NotBelow (s.lastOffset pair.key) (t.lastOffset pair.key) ∧
      NotBelow (s.committedOffset pair.key) (t.committedOffset pair.key)

/-- A record or a commit that is applied to the partition is not behind the one
before. -/
def AppliesLater (pair : Pair) (s : CommitSession) : Action → Prop
  | .consumer action =>
    ∀ record, updatedRecord s.session action = some record →
      (recordPair record).key = pair.key →
        ∀ last, s.lastOffset pair.key = some last → last ≤ record.offset
  | .apply =>
    ∀ request, s.processing = some request →
      ∀ offset, offsetFor request pair.key = some offset →
        ∀ committed, s.committedOffset pair.key = some committed → committed ≤ offset
  | _ => True

section Steps

variable {config : ConsumerConfig} {pair : Pair} {s t : CommitSession} {action : Action}

theorem NotBelow.refl (offset : Option UInt64) : NotBelow offset offset :=
  fun x hx => ⟨x, hx, UInt64.le_refl x⟩

theorem lookup_commitOffset (positions : KeyedMap Bytes Position) (entry : Pair × UInt64)
    (key : Bytes) :
    (commitOffset positions entry).lookup key =
      (positions.lookup key).map fun position =>
        if entry.1.key = key then { position with committedOffset := entry.2 } else position := by
  rw [commitOffset]
  split
  · next position hposition =>
      rw [lookup_insert_eq]
      by_cases hkey : entry.1.key = key
      · subst hkey
        simp [hposition]
      · rw [if_neg (Ne.symm hkey)]
        simp [hkey]
  · next hnone =>
      by_cases hkey : entry.1.key = key
      · subst hkey
        simp [hnone]
      · simp [hkey]

theorem lookup_processCommitRequest (positions : KeyedMap Bytes Position)
    (request : CommitRequest) (key : Bytes) :
    (processCommitRequest positions request).lookup key =
      (positions.lookup key).map fun position =>
        { position with
          committedOffset := (offsetFor request key).getD position.committedOffset } := by
  induction request using List.reverseRecOn with
  | nil => simp [processCommitRequest, offsetFor]
  | append_singleton request entry ih =>
    rw [processCommitRequest] at ih ⊢
    rw [List.foldl_append, List.foldl_cons, List.foldl_nil, lookup_commitOffset, ih,
      Option.map_map]
    congr 1
    funext position
    by_cases hkey : entry.1.key = key
    · simp [offsetFor, List.filter_append, hkey]
    · simp [offsetFor, List.filter_append, hkey]

theorem pushRecord_lastOffsets (c : Consumer) (record : Record) :
    (c.pushRecord record).lastOffsets = c.lastOffsets := by
  rw [Consumer.pushRecord]
  split
  · rfl
  · rfl

theorem takeRecord_eq_some {c rest : Consumer} {record : Record}
    (htake : c.takeRecord = some (record, rest)) :
    c.records = record :: rest.records ∧ rest.lastOffsets = c.lastOffsets := by
  rw [Consumer.takeRecord] at htake
  split at htake
  · cases htake
  · next first later hrecords =>
      cases htake
      exact ⟨hrecords, rfl⟩

theorem takeRequest_eq_some {c rest : Consumer} (htake : c.takeRequest = some rest) :
    rest.records = c.records ∧ rest.lastOffsets = c.lastOffsets := by
  rw [Consumer.takeRequest] at htake
  split at htake
  · cases htake
  · cases htake
    exact ⟨rfl, rfl⟩

theorem lastOffsets_consumerStep {s t : Session} {action : DafkaConsumer.Action}
    (hstep : DafkaConsumer.step config s action = some t) :
    t.consumer.lastOffsets =
      (updatedRecord s action).elim s.consumer.lastOffsets fun record =>
        s.consumer.lastOffsets.insert (recordPair record).key record.offset := by
  cases action with
  | receive data now =>
    cases hstep
    simp only [processSubscriptionMessage_eq, updatedRecord, Option.elim]
    split
    · rw [deliver_eq, pushRecord_lastOffsets, Consumer.requestMissingRecords]
      split
      · rfl
      · split
        · rfl
        · rfl
    · rfl
  | poll | recv =>
    obtain ⟨taken, htake, rfl⟩ := Option.map_eq_some_iff.mp hstep
    exact (takeRecord_eq_some htake).2
  | update i =>
    obtain ⟨record, hrecord, rfl⟩ := Option.map_eq_some_iff.mp hstep
    simp only [updatedRecord, hrecord, Option.elim]
    rfl
  | fetch =>
    obtain ⟨consumer, htake, rfl⟩ := Option.map_eq_some_iff.mp hstep
    exact (takeRequest_eq_some htake).2

theorem lookup_addPosition (positions : KeyedMap Bytes Position) (record : Record) (key : Bytes) :
    (addPosition positions record).lookup key =
      (positions.lookup key).or
        (if key = (recordPair record).key then
          some { pair := recordPair record, committedOffset := 0 } else none) := by
  rw [addPosition]
  split
  · next hold =>
    obtain ⟨position, hposition⟩ := Option.isSome_iff_exists.mp (AList.lookup_isSome.mpr hold)
    split
    · next hkey => rw [hkey, hposition, Option.some_or]
    · rw [Option.or_none]
  · next hnew =>
    rw [← AList.lookup_eq_none] at hnew
    rw [lookup_insert_eq]
    split
    · next hkey => rw [hkey, hnew, Option.none_or]
    · rw [Option.or_none]

theorem consumer_ascends_iff {action : DafkaConsumer.Action}
    (hstep : step config s (.consumer action) = some t) :
    (NotBelow (s.lastOffset pair.key) (t.lastOffset pair.key) ∧
        NotBelow (s.committedOffset pair.key) (t.committedOffset pair.key)) ↔
      AppliesLater pair s (.consumer action) := by
  obtain ⟨session, hsession, rfl⟩ := Option.map_eq_some_iff.mp hstep
  have hlast := lastOffsets_consumerStep hsession
  simp only [AppliesLater, CommitSession.lastOffset, CommitSession.committedOffset, hlast]
  cases updatedRecord s.session action with
  | none => simp [NotBelow.refl]
  | some record =>
    have hcommitted : NotBelow ((s.positions.lookup pair.key).map Position.committedOffset)
        (((addPosition s.positions record).lookup pair.key).map Position.committedOffset) := by
      intro committed hbefore
      obtain ⟨position, hposition, rfl⟩ := Option.map_eq_some_iff.mp hbefore
      exact ⟨_, by rw [lookup_addPosition, hposition]; rfl, UInt64.le_refl _⟩
    simp only [Option.elim, hcommitted, and_true, lookup_insert_eq, Option.some.injEq]
    constructor
    · intro hkept updated hupdated hkey last hbefore
      subst hupdated
      rw [if_pos hkey.symm] at hkept
      obtain ⟨after, hafter, hle⟩ := hkept last hbefore
      rwa [← Option.some.inj hafter] at hle
    · intro hlater last hbefore
      split
      · next hkey => exact ⟨_, rfl, hlater record rfl hkey.symm last hbefore⟩
      · exact ⟨last, hbefore, UInt64.le_refl _⟩

theorem apply_ascends_iff (hstep : step config s .apply = some t) :
    (NotBelow (s.lastOffset pair.key) (t.lastOffset pair.key) ∧
        NotBelow (s.committedOffset pair.key) (t.committedOffset pair.key)) ↔
      AppliesLater pair s .apply := by
  obtain ⟨request, hrequest, rfl⟩ := Option.map_eq_some_iff.mp hstep
  have hlast : NotBelow (s.lastOffset pair.key) (s.lastOffset pair.key) := .refl _
  simp only [AppliesLater, hrequest, CommitSession.committedOffset, lookup_processCommitRequest,
    Option.map_map, Option.some.injEq, forall_eq']
  refine (and_iff_right hlast).trans ?_
  cases hposition : s.positions.lookup pair.key with
  | none => simp [NotBelow]
  | some position =>
    cases hoffset : offsetFor request pair.key with
    | none | some => simp [NotBelow]

theorem ascends_of_appliesLater (hlater : AppliesLater pair s action) :
    Ascends config pair s action := by
  intro t hstep
  cases action with
  | consumer action => exact (consumer_ascends_iff hstep).mpr hlater
  | apply => exact (apply_ascends_iff hstep).mpr hlater
  | snapshot =>
    cases hstep
    exact ⟨.refl _, .refl _⟩
  | queue | giveUp =>
    obtain ⟨request, -, rfl⟩ := Option.map_eq_some_iff.mp hstep
    exact ⟨.refl _, .refl _⟩
  | take =>
    obtain ⟨-, htake⟩ := Option.ite_none_right_eq_some.mp hstep
    obtain ⟨request, -, rfl⟩ := Option.map_eq_some_iff.mp htake
    exact ⟨.refl _, .refl _⟩

theorem ascends_iff : Ascends config pair s action ↔ AppliesLater pair s action := by
  refine ⟨?_, ascends_of_appliesLater⟩
  intro hascends
  by_cases henabled : step config s action = none
  · cases action with
    | consumer action =>
      intro record hrecord
      have hsession := Option.map_eq_none_iff.mp henabled
      cases action with
      | update i =>
        rw [updatedRecord] at hrecord
        simp [DafkaConsumer.step, hrecord] at hsession
      | _ => cases hrecord
    | apply =>
      intro request hrequest
      rw [Option.map_eq_none_iff.mp henabled] at hrequest
      contradiction
    | _ => exact trivial
  · obtain ⟨t, hstep⟩ := Option.ne_none_iff_exists'.mp henabled
    cases action with
    | consumer action => exact (consumer_ascends_iff hstep).mp (hascends t hstep)
    | apply => exact (apply_ascends_iff hstep).mp (hascends t hstep)
    | _ => exact trivial

end Steps

/-! ### Offsets in order -/

def keyOffsets (key : Bytes) (records : List Record) : List UInt64 :=
  (records.filter fun record => (recordPair record).key = key).map Record.offset

def waiting (s : Session) : List Record :=
  s.updating ++ s.consumer.records

/-- A record of the partition does not arrive behind a later one, the calls of `Poll` and
`Consume` update the partition in the order in which they took their records, and the
commits get to the queue in the order in which they read the offsets. -/
def InTurn (pair : Pair) (s : CommitSession) : Action → Prop
  | .consumer action =>
    (∀ record, s.session.arrival action = some record → (recordPair record).key = pair.key →
      ∀ earlier ∈ keyOffsets pair.key s.session.arrived, earlier ≤ record.offset) ∧
    ∀ i, action = .update i → i = 0
  | .queue i => i = 0
  | _ => True

namespace CommitSession

def requests (s : CommitSession) : List CommitRequest :=
  s.processing.toList ++ s.commits ++ s.snapshots

/-- The offsets of a partition on their way through the consumer, in the order in which
they leave it: `CommittedOffset`, those of the commits, `LastOffset`, and those of the
records that wait. -/
def offsets (s : CommitSession) (key : Bytes) : List UInt64 :=
  (s.committedOffset key).toList ++ (s.requests.filterMap (fun request => offsetFor request key) ++
    ((s.lastOffset key).toList ++ keyOffsets key (waiting s.session)))

end CommitSession

/-- The first committed offset of a partition is 0, wherever its records begin. -/
structure Ordered (key : Bytes) (s : CommitSession) : Prop where
  named : ∀ other position, s.positions.lookup other = some position →
    position.pair.key = other ∧ (s.lastOffset other).isSome
  ascends : (s.offsets key).Pairwise (· ≤ ·)
  arrived : ∀ offset ∈ s.offsets key, offset = 0 ∨ offset ∈ keyOffsets key s.session.arrived

section Order

variable {config : ConsumerConfig} {pair : Pair} {key : Bytes} {s t : CommitSession}
  {action : Action}

@[simp] theorem keyOffsets_append (key : Bytes) (first second : List Record) :
    keyOffsets key (first ++ second) = keyOffsets key first ++ keyOffsets key second := by
  simp [keyOffsets]

theorem keyOffsets_singleton (key : Bytes) (record : Record) :
    keyOffsets key [record] = if (recordPair record).key = key then [record.offset] else [] := by
  by_cases hkey : (recordPair record).key = key
  · simp [keyOffsets, hkey]
  · simp [keyOffsets, hkey]

theorem lastOffset_consumerStep {action : DafkaConsumer.Action}
    (hstep : step config s (.consumer action) = some t) (key : Bytes) :
    t.lastOffset key =
      (updatedRecord s.session action).elim (s.lastOffset key) fun record =>
        if key = (recordPair record).key then some record.offset else s.lastOffset key := by
  obtain ⟨session, hsession, rfl⟩ := Option.map_eq_some_iff.mp hstep
  simp only [CommitSession.lastOffset, lastOffsets_consumerStep hsession]
  cases updatedRecord s.session action with
  | none => rfl
  | some record => exact lookup_insert_eq _ _ _ _

theorem waiting_consumerStep {s t : Session} {action : DafkaConsumer.Action}
    (hstep : DafkaConsumer.step config s action = some t) (hturn : ∀ i, action = .update i → i = 0) :
    ((updatedRecord s action).toList ++ waiting t).Sublist
        (waiting s ++ (s.arrival action).toList) ∧
      t.arrived = s.arrived ++ (s.arrival action).toList := by
  cases action with
  | receive data now =>
    cases hstep
    refine ⟨?_, rfl⟩
    simp only [waiting, updatedRecord, Session.arrival, processSubscriptionMessage_eq,
      Option.toList_none, List.nil_append, List.append_assoc]
    apply List.Sublist.append_left
    cases recordOf s.consumer.subscriptions data now with
    | none => simp
    | some record =>
      rw [Option.elim_some, deliver_eq, Consumer.pushRecord, requestMissingRecords_records]
      split
      · simp
      · rw [requestMissingRecords_records]
        exact List.sublist_append_left _ _
  | poll | recv =>
    obtain ⟨⟨record, rest⟩, htake, rfl⟩ := Option.map_eq_some_iff.mp hstep
    simp [waiting, updatedRecord, Session.arrival, (takeRecord_eq_some htake).1]
  | update i =>
    obtain rfl := hturn i rfl
    obtain ⟨record, hrecord, rfl⟩ := Option.map_eq_some_iff.mp hstep
    rcases hupdating : s.updating with _ | ⟨first, rest⟩
    · simp [hupdating] at hrecord
    · simp [waiting, updatedRecord, Session.arrival, hupdating, Consumer.updatePartitionState]
  | fetch =>
    obtain ⟨consumer, htake, rfl⟩ := Option.map_eq_some_iff.mp hstep
    simp [waiting, updatedRecord, Session.arrival, (takeRequest_eq_some htake).1]

theorem offsets_consumerStep {action : DafkaConsumer.Action}
    (hstep : step config s (.consumer action) = some t)
    (hturn : ∀ i, action = .update i → i = 0) (key : Bytes) :
    (t.offsets key).Sublist
        (0 :: (s.offsets key ++ keyOffsets key (s.session.arrival action).toList)) ∧
      t.session.arrived = s.session.arrived ++ (s.session.arrival action).toList := by
  have hlast := lastOffset_consumerStep hstep key
  obtain ⟨session, hsession, rfl⟩ := Option.map_eq_some_iff.mp hstep
  obtain ⟨hwaiting, harrived⟩ := waiting_consumerStep hsession hturn
  refine ⟨?_, harrived⟩
  have hsublist : (keyOffsets key _).Sublist (keyOffsets key _) := (hwaiting.filter _).map _
  rw [keyOffsets_append, keyOffsets_append] at hsublist
  simp only [CommitSession.offsets, hlast, CommitSession.committedOffset, CommitSession.requests,
    ← List.cons_append, List.append_assoc]
  cases hupdated : updatedRecord s.session action with
  | none =>
    rw [hupdated] at hsublist
    refine List.Sublist.append (List.sublist_cons_self _ _) ?_
    exact (hsublist.append_left _).append_left _
  | some record =>
    rw [hupdated, Option.toList_some, keyOffsets_singleton] at hsublist
    apply List.Sublist.append
    · rw [Option.elim, lookup_addPosition]
      cases s.positions.lookup key with
      | none => split <;> simp
      | some position => exact List.sublist_cons_self _ _
    · apply List.Sublist.append_left
      refine List.Sublist.trans ?_ (hsublist.append_left (s.lastOffset key).toList)
      by_cases hkey : key = (recordPair record).key
      · simp [hkey]
      · simp [hkey, Ne.symm hkey]

theorem named_consumerStep (hs : Ordered key s) {action : DafkaConsumer.Action}
    (hstep : step config s (.consumer action) = some t) {other : Bytes} {position : Position}
    (hposition : t.positions.lookup other = some position) :
    position.pair.key = other ∧ (t.lastOffset other).isSome := by
  rw [lastOffset_consumerStep hstep]
  obtain ⟨session, hsession, rfl⟩ := Option.map_eq_some_iff.mp hstep
  cases hupdated : updatedRecord s.session action with
  | none =>
    simp only [hupdated, Option.elim] at hposition ⊢
    exact hs.named other position hposition
  | some record =>
    simp only [hupdated, Option.elim, lookup_addPosition, Option.or_eq_some_iff] at hposition ⊢
    rcases hposition with hold | ⟨-, hnew⟩
    · obtain ⟨hname, hsome⟩ := hs.named other position hold
      refine ⟨hname, ?_⟩
      split
      · rfl
      · exact hsome
    · obtain ⟨hkey, ⟨⟩⟩ := Option.ite_none_right_eq_some.mp hnew
      exact ⟨hkey.symm, by rw [if_pos hkey]; rfl⟩

/-- Offsets that leave take nothing from the order, and new ones come last. -/
theorem ordered_of_sublist (hs : Ordered key s) {new : List UInt64}
    (hsorted : new.Pairwise (· ≤ ·))
    (hlater : ∀ later ∈ new, ∀ earlier ∈ keyOffsets key s.session.arrived, earlier ≤ later)
    (hnamed : ∀ other position, t.positions.lookup other = some position →
      position.pair.key = other ∧ (t.lastOffset other).isSome)
    (hoffsets : (t.offsets key).Sublist (0 :: (s.offsets key ++ new)))
    (harrived : keyOffsets key t.session.arrived = keyOffsets key s.session.arrived ++ new) :
    Ordered key t := by
  refine ⟨hnamed, .sublist hoffsets ?_, ?_⟩
  · rw [List.pairwise_cons, List.pairwise_append]
    refine ⟨fun _ _ => UInt64.zero_le, hs.ascends, hsorted, ?_⟩
    intro earlier hearlier later hmem
    rcases hs.arrived earlier hearlier with rfl | harrived
    · exact UInt64.zero_le
    · exact hlater later hmem earlier harrived
  · intro offset hoffset
    rw [harrived, List.mem_append]
    rcases List.mem_cons.mp (hoffsets.mem hoffset) with rfl | hmem
    · exact .inl rfl
    · rcases List.mem_append.mp hmem with hold | hnew
      · exact (hs.arrived offset hold).imp_right .inl
      · exact .inr (.inr hnew)

theorem ordered_of_fewer (hs : Ordered key s) (hsession : t.session = s.session)
    (hpositions : ∀ other position, t.positions.lookup other = some position →
      ∃ before, s.positions.lookup other = some before ∧ position.pair = before.pair)
    (hoffsets : (t.offsets key).Sublist (s.offsets key)) : Ordered key t := by
  refine ordered_of_sublist hs List.Pairwise.nil nofun ?_ ?_ (by rw [hsession, List.append_nil])
  · intro other position hposition
    obtain ⟨before, hbefore, hpair⟩ := hpositions other position hposition
    rw [hpair, CommitSession.lastOffset, hsession]
    exact hs.named other before hbefore
  · rw [List.append_nil]
    exact hoffsets.cons 0

theorem offsetFor_currentOffsets (hs : Ordered key s) {offset : UInt64}
    (hoffset : offsetFor s.currentOffsets key = some offset) : s.lastOffset key = some offset := by
  have hmem := List.mem_of_getLast? hoffset
  rw [List.mem_map] at hmem
  obtain ⟨entry, hentry, rfl⟩ := hmem
  rw [List.mem_filter, decide_eq_true_eq, CommitSession.currentOffsets, List.mem_map] at hentry
  obtain ⟨⟨⟨other, position⟩, hposition, rfl⟩, hkey⟩ := hentry
  obtain ⟨hname, hsome⟩ := hs.named other position (lookup_eq_some_iff_mem.mpr hposition)
  obtain rfl : other = key := hname.symm.trans hkey
  obtain ⟨last, hlast⟩ := Option.isSome_iff_exists.mp hsome
  simp [hlast]

theorem offsets_snapshot (s : CommitSession) (key : Bytes) :
    ({ s with snapshots := s.snapshots ++ [s.currentOffsets] } : CommitSession).offsets key =
      (s.committedOffset key).toList ++ s.requests.filterMap (fun request => offsetFor request key) ++
        ((offsetFor s.currentOffsets key).toList ++
          ((s.lastOffset key).toList ++ keyOffsets key (waiting s.session))) := by
  cases hoffset : offsetFor s.currentOffsets key with
  | none | some =>
    simp [CommitSession.offsets, CommitSession.requests, hoffset, CommitSession.committedOffset,
      CommitSession.lastOffset]

theorem pairwise_repeat {before after : List UInt64} {offset : UInt64}
    (hsorted : (before ++ offset :: after).Pairwise (· ≤ ·)) :
    (before ++ offset :: offset :: after).Pairwise (· ≤ ·) := by
  rw [List.pairwise_append, List.pairwise_cons] at hsorted ⊢
  obtain ⟨hbefore, ⟨hfirst, hafter⟩, hcross⟩ := hsorted
  refine ⟨hbefore, ⟨?_, List.pairwise_cons.mpr ⟨hfirst, hafter⟩⟩, ?_⟩
  · exact List.forall_mem_cons.mpr ⟨UInt64.le_refl _, hfirst⟩
  · intro earlier hearlier later hlater
    rcases List.mem_cons.mp hlater with rfl | hmem
    · exact hcross earlier hearlier _ List.mem_cons_self
    · exact hcross earlier hearlier later hmem

theorem ordered_snapshot (hs : Ordered key s) :
    Ordered key { s with snapshots := s.snapshots ++ [s.currentOffsets] } := by
  have hsorted := hs.ascends
  have harrived := hs.arrived
  rw [CommitSession.offsets, ← List.append_assoc] at hsorted harrived
  cases hoffset : offsetFor s.currentOffsets key with
  | none =>
    refine ⟨hs.named, ?_, ?_⟩ <;> rw [offsets_snapshot, hoffset]
    · exact hsorted
    · exact harrived
  | some offset =>
    have hlast := offsetFor_currentOffsets hs hoffset
    rw [hlast] at hsorted harrived
    refine ⟨hs.named, ?_, ?_⟩ <;> rw [offsets_snapshot, hoffset, hlast]
    · exact pairwise_repeat hsorted
    · intro other hother
      apply harrived other
      simpa using hother

theorem ordered_apply (hs : Ordered key s) {request : CommitRequest}
    (hrequest : s.processing = some request) :
    Ordered key { s with
      positions := processCommitRequest s.positions request
      processing := none } := by
  refine ordered_of_fewer hs rfl ?_ ?_
  · intro other position hposition
    simp only [lookup_processCommitRequest, Option.map_eq_some_iff] at hposition
    obtain ⟨before, hbefore, rfl⟩ := hposition
    exact ⟨before, hbefore, rfl⟩
  · simp only [CommitSession.offsets, CommitSession.committedOffset, CommitSession.requests,
      CommitSession.lastOffset, lookup_processCommitRequest, hrequest, Option.map_map]
    cases s.positions.lookup key <;> cases hoffset : offsetFor request key <;> simp [hoffset]

theorem ordered_of_requests (hs : Ordered key s) (hsession : t.session = s.session)
    (hpositions : t.positions = s.positions) (hrequests : t.requests.Sublist s.requests) :
    Ordered key t := by
  refine ordered_of_fewer hs hsession ?_ ?_
  · rw [hpositions]
    exact fun _ position hposition => ⟨position, hposition, rfl⟩
  · simp only [CommitSession.offsets, CommitSession.committedOffset, CommitSession.lastOffset,
      hsession, hpositions]
    exact ((hrequests.filterMap _).append_right _).append_left _

theorem ordered_step (hs : Ordered pair.key s) (hturn : InTurn pair s action)
    (hstep : step config s action = some t) : Ordered pair.key t := by
  cases action with
  | consumer action =>
    obtain ⟨hoffsets, harrived⟩ := offsets_consumerStep hstep hturn.2 pair.key
    refine ordered_of_sublist hs ?_ ?_ (fun other position => named_consumerStep hs hstep) hoffsets
      (by rw [harrived, keyOffsets_append])
    · cases s.session.arrival action with
      | none => simp [keyOffsets]
      | some record =>
        rw [Option.toList_some, keyOffsets_singleton]
        split <;> simp
    · intro later hlater
      rw [keyOffsets, List.mem_map] at hlater
      obtain ⟨record, hrecord, rfl⟩ := hlater
      rw [List.mem_filter, Option.mem_toList, decide_eq_true_eq] at hrecord
      exact hturn.1 record hrecord.1 hrecord.2
  | snapshot =>
    cases hstep
    exact ordered_snapshot hs
  | queue i =>
    obtain rfl : i = 0 := hturn
    obtain ⟨request, hrequest, rfl⟩ := Option.map_eq_some_iff.mp hstep
    refine ordered_of_requests hs rfl rfl ?_
    rcases hsnapshots : s.snapshots with _ | ⟨first, rest⟩
    · simp [hsnapshots] at hrequest
    · obtain rfl : first = request := by simpa [hsnapshots] using hrequest
      simp only [CommitSession.requests, hsnapshots, List.eraseIdx_cons_zero]
      split <;> simp
  | giveUp i =>
    obtain ⟨request, -, rfl⟩ := Option.map_eq_some_iff.mp hstep
    refine ordered_of_requests hs rfl rfl ?_
    exact (List.eraseIdx_sublist _ _).append_left _
  | take =>
    obtain ⟨hidle, htake⟩ := Option.ite_none_right_eq_some.mp hstep
    obtain ⟨request, hrequest, rfl⟩ := Option.map_eq_some_iff.mp htake
    refine ordered_of_requests hs rfl rfl ?_
    rcases hcommits : s.commits with _ | ⟨first, rest⟩
    · simp [hcommits] at hrequest
    · obtain rfl : first = request := by simpa [hcommits] using hrequest
      simp [CommitSession.requests, hidle, hcommits]
  | apply =>
    obtain ⟨request, hrequest, rfl⟩ := Option.map_eq_some_iff.mp hstep
    exact ordered_apply hs hrequest

theorem Ordered.appliesLater (hs : Ordered pair.key s) (action : Action) :
    AppliesLater pair s action := by
  have hsorted := hs.ascends
  cases action with
  | consumer action =>
    intro record hrecord hkey last hlast
    have hmem : record ∈ waiting s.session := by
      cases action with
      | update i => exact List.mem_append_left _ (List.mem_of_getElem? hrecord)
      | _ => cases hrecord
    have hoffset : record.offset ∈ keyOffsets pair.key (waiting s.session) :=
      List.mem_map.mpr ⟨record, List.mem_filter.mpr ⟨hmem, by simpa using hkey⟩, rfl⟩
    rw [CommitSession.offsets, hlast, ← List.append_assoc] at hsorted
    exact (List.pairwise_cons.mp (List.pairwise_append.mp hsorted).2.1).1 _ hoffset
  | apply =>
    intro request hrequest offset hoffset committed hcommitted
    rw [CommitSession.offsets, CommitSession.requests, hrequest, hcommitted] at hsorted
    simp only [Option.toList_some, List.cons_append, List.filterMap_cons, hoffset] at hsorted
    exact (List.pairwise_cons.mp hsorted).1 offset List.mem_cons_self
  | _ => exact trivial

end Order

/-- The offsets of a partition never decrease if and only if no record and no commit is
applied behind the one before.  That is so if the records arrive in order and the calls
of the application take their turns. -/
theorem offsets_ascend_iff (config : ConsumerConfig) (pair : Pair) (topics : List Bytes)
    (actions : List Action) :
    (Throughout (step config) (Ascends config pair) (CommitSession.start topics) actions ↔
      Throughout (step config) (AppliesLater pair) (CommitSession.start topics) actions) ∧
    (Throughout (step config) (InTurn pair) (CommitSession.start topics) actions →
      Throughout (step config) (Ascends config pair) (CommitSession.start topics) actions) := by
  constructor
  · apply throughout_congr (H := fun _ _ => True)
    · exact fun _ _ _ => ascends_iff
    · exact throughout_of_forall (fun _ _ _ => trivial) _
  · apply throughout_of_kept (I := Ordered pair.key)
    · exact fun s action t hs hturn hstep => ordered_step hs hturn hstep
    · exact fun s action hs _ => ascends_of_appliesLater (hs.appliesLater action)
    · exact ⟨nofun, .nil, nofun⟩

def pollRecord : List Action :=
  [.consumer .poll, .consumer (.update 0)]

/-- Two records arrive in the wrong order.  And of two commits, the one that has read the
offsets first gets to the queue last. -/
theorem offsets_move_backwards :
    (∃ s t, run (step ⟨1000⟩) (CommitSession.start [ascii "t"])
        ([.consumer (.receive (bareFrame 1) 0), .consumer (.receive (bareFrame 0) 0)] ++
          pollRecord) = some s ∧
      run (step ⟨1000⟩) s pollRecord = some t ∧
      s.lastOffset textPair.key = some 1 ∧ t.lastOffset textPair.key = some 0) ∧
    ∃ s t, run (step ⟨1000⟩) (CommitSession.start [ascii "t"])
        ([.consumer (.receive (bareFrame 0) 0), .consumer (.receive (bareFrame 1) 0)] ++
          pollRecord ++ [.snapshot] ++ pollRecord ++
          [.snapshot, .queue 1, .take, .apply]) = some s ∧
      run (step ⟨1000⟩) s [.queue 0, .take, .apply] = some t ∧
      s.committedOffset textPair.key = some 1 ∧ t.committedOffset textPair.key = some 0 :=
  ⟨⟨_, _, rfl, rfl, rfl, rfl⟩, ⟨_, _, rfl, rfl, rfl, rfl⟩⟩

end Zmq4.DafkaCommits

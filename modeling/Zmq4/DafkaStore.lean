import Zmq4.ActionPurge
import Zmq4.DafkaIndex

namespace Zmq4.DafkaStore

open ByteCodec DafkaMessages DafkaLog DafkaIndex ActionPurge
open DuplexProgram hiding readFull

structure Pair where
  topic : Bytes
  partition : Bytes
  deriving DecidableEq

namespace Pair

def key (pair : Pair) : Bytes :=
  pair.topic ++ ascii ":" ++ pair.partition

def logName (pair : Pair) : Bytes :=
  pair.topic ++ ascii "-" ++ pair.partition ++ ascii ".log"

def new (pair : Pair) : PartitionStore :=
  newPartition pair.topic pair.partition

end Pair

def pairOf (p : PartitionStore) : Pair :=
  ⟨p.topic, p.partition⟩

def recordPair (w : Write) : Pair :=
  ⟨w.record.topic, w.record.partition⟩

/-- The data directory, and the partitions in memory. -/
structure Store where
  files : AList fun _ : Bytes => Bytes
  partitions : AList fun _ : Bytes => PartitionStore

namespace Store

def empty : Store where
  files := ∅
  partitions := ∅

def lookup (s : Store) (key : Bytes) : Option PartitionStore :=
  s.partitions.lookup key

def content (s : Store) (name : Bytes) : Bytes :=
  (s.files.lookup name).getD []

def put (s : Store) (key : Bytes) (p : PartitionStore) : Store :=
  { s with partitions := s.partitions.insert key p }

def setFile (s : Store) (name file : Bytes) : Store :=
  { s with files := s.files.insert name file }

@[simp] theorem lookup_put_self (s : Store) (key : Bytes) (p : PartitionStore) :
    (s.put key p).lookup key = some p :=
  AList.lookup_insert _

theorem lookup_put_of_ne (s : Store) {key other : Bytes} (p : PartitionStore) (hne : other ≠ key) :
    (s.put key p).lookup other = s.lookup other :=
  AList.lookup_insert_ne hne

@[simp] theorem content_put (s : Store) (key : Bytes) (p : PartitionStore) (name : Bytes) :
    (s.put key p).content name = s.content name :=
  rfl

@[simp] theorem content_setFile_self (s : Store) (name file : Bytes) :
    (s.setFile name file).content name = file := by
  simp [content, setFile]

theorem content_setFile_of_ne (s : Store) {name other : Bytes} (file : Bytes)
    (hne : other ≠ name) : (s.setFile name file).content other = s.content other := by
  rw [content, setFile, AList.lookup_insert_ne hne]
  rfl

@[simp] theorem lookup_empty (key : Bytes) : empty.lookup key = none :=
  AList.lookup_empty key

@[simp] theorem content_empty (name : Bytes) : empty.content name = [] := by
  simp [content, empty]

end Store

def wrapStop (message : String) : Stop → Stop
  | .fail err => .fail (.wrap message err)
  | stop => stop

/-- The names are such that the file can be opened. -/
def createPartition (s : Store) (pair : Pair) : Store × Except Stop PartitionStore :=
  (s.setFile pair.logName (s.content pair.logName),
    (loadPartitionIndex (s.content pair.logName) pair.new).mapError
      (wrapStop "failed to load partition index"))

/-- The part of `storeRecord` under the mutex of the store. -/
def acquire (s : Store) (pair : Pair) : Store × Option Stop :=
  match s.lookup pair.key with
  | some _ => (s, none)
  | none =>
    match createPartition s pair with
    | (s', .error stop) => (s', some stop)
    | (s', .ok p) => (s'.put pair.key p, none)

/-- `writeRecord` on the partition that is found at the key, with its own file. -/
def writeTo (s : Store) (pair : Pair) (w : Write) : Store :=
  match s.lookup pair.key with
  | none => s
  | some p =>
    let log := writeRecord (s.content (pairOf p).logName) p w
    (s.setFile (pairOf p).logName log.1).put pair.key log.2

def storeRecord (s : Store) (w : Write) : Store × Option Stop :=
  match acquire s (recordPair w) with
  | (s', some stop) => (s', some stop)
  | (s', none) => (writeTo s' (recordPair w) w, none)

def partitionNotFound (pair : Pair) : Stop :=
  .fail (.text ("partition not found: " ++ showBytes pair.key))

def readFrom (s : Store) (p : PartitionStore) (offset : UInt64) (count : UInt32) :
    List Record × Option Stop :=
  readRecords (s.content (pairOf p).logName) p count.toNat offset

def processFetchRequest (s : Store) (pair : Pair) (offset : UInt64) (count : UInt32) :
    List Record × Option Stop :=
  match s.lookup pair.key with
  | none => ([], some (partitionNotFound pair))
  | some p => readFrom s p offset count

section Partitions

variable {s t : Store} {pair other : Pair} {p : PartitionStore}

theorem acquire_found (hfound : s.lookup pair.key = some p) : acquire s pair = (s, none) := by
  rw [acquire, hfound]

theorem acquire_created (hnone : s.lookup pair.key = none)
    (hload : loadPartitionIndex (s.content pair.logName) pair.new = .ok p) :
    acquire s pair =
      ((s.setFile pair.logName (s.content pair.logName)).put pair.key p, none) := by
  rw [acquire, hnone, createPartition, hload]
  rfl

theorem acquire_failed {stop : Stop} (hnone : s.lookup pair.key = none)
    (hload : loadPartitionIndex (s.content pair.logName) pair.new = .error stop) :
    acquire s pair =
      (s.setFile pair.logName (s.content pair.logName),
        some (wrapStop "failed to load partition index" stop)) := by
  rw [acquire, hnone, createPartition, hload]
  rfl

theorem writeTo_found (hfound : s.lookup pair.key = some p) (w : Write) :
    writeTo s pair w =
      (s.setFile (pairOf p).logName (s.content (pairOf p).logName ++ w.bytes)).put pair.key
        (p.enter w.record.offset (s.content (pairOf p).logName).length) := by
  rw [writeTo, hfound]
  rfl

theorem writeTo_none (hnone : s.lookup pair.key = none) (w : Write) : writeTo s pair w = s := by
  rw [writeTo, hnone]

/-- The partition at the key of a pair is the partition of that pair. -/
def Named (s : Store) (pair : Pair) : Prop :=
  ∀ p, s.lookup pair.key = some p → pairOf p = pair

theorem acquire_named (hnamed : Named s pair) : Named (acquire s pair).1 pair := by
  rcases hfound : s.lookup pair.key with _ | p
  · rcases hload : loadPartitionIndex (s.content pair.logName) pair.new with stop | p
    · rw [acquire_failed hfound hload]
      exact hnamed
    · rw [acquire_created hfound hload]
      intro q hq
      rw [Store.lookup_put_self, Option.some.injEq] at hq
      subst hq
      obtain ⟨htopic, hpartition⟩ := loadFrom_names hload
      rw [pairOf, htopic, hpartition]
      rfl
  · rw [acquire_found hfound]
    exact hnamed

theorem writeTo_named (hnamed : Named s pair) (w : Write) : Named (writeTo s pair w) pair := by
  rcases hfound : s.lookup pair.key with _ | p
  · rw [writeTo_none hfound]
    exact hnamed
  · rw [writeTo_found hfound]
    intro q hq
    rw [Store.lookup_put_self, Option.some.injEq] at hq
    subst hq
    exact hnamed p hfound

structure SameFor (pair : Pair) (s t : Store) : Prop where
  lookup_eq : s.lookup pair.key = t.lookup pair.key
  content_eq : s.content pair.logName = t.content pair.logName

/-- Names that are neither joined to the same key nor to the same file name. -/
structure Apart (first second : Pair) : Prop where
  key_ne : first.key ≠ second.key
  logName_ne : first.logName ≠ second.logName

theorem acquire_apart (hapart : Apart other pair) (s : Store) :
    SameFor other (acquire s pair).1 s := by
  have hfile := s.content_setFile_of_ne (s.content pair.logName) hapart.logName_ne
  rcases hfound : s.lookup pair.key with _ | p
  · rcases hload : loadPartitionIndex (s.content pair.logName) pair.new with stop | p
    · rw [acquire_failed hfound hload]
      exact ⟨rfl, hfile⟩
    · rw [acquire_created hfound hload]
      exact ⟨Store.lookup_put_of_ne _ p hapart.key_ne, hfile⟩
  · rw [acquire_found hfound]
    exact ⟨rfl, rfl⟩

theorem writeTo_apart (hapart : Apart other pair) (hnamed : Named s pair) (w : Write) :
    SameFor other (writeTo s pair w) s := by
  rcases hfound : s.lookup pair.key with _ | p
  · rw [writeTo_none hfound]
    exact ⟨rfl, rfl⟩
  · rw [writeTo_found hfound, hnamed p hfound]
    exact ⟨Store.lookup_put_of_ne _ _ hapart.key_ne,
      Store.content_setFile_of_ne _ _ hapart.logName_ne⟩

theorem acquire_same (hsame : SameFor pair s t) :
    (acquire s pair).2 = (acquire t pair).2 ∧
      SameFor pair (acquire s pair).1 (acquire t pair).1 := by
  rcases hfound : s.lookup pair.key with _ | p
  · have hfound' := hsame.lookup_eq ▸ hfound
    rcases hload : loadPartitionIndex (s.content pair.logName) pair.new with stop | p
    · have hload' := hsame.content_eq ▸ hload
      rw [acquire_failed hfound hload, acquire_failed hfound' hload', hsame.content_eq]
      exact ⟨rfl, ⟨hsame.lookup_eq, by simp⟩⟩
    · have hload' := hsame.content_eq ▸ hload
      rw [acquire_created hfound hload, acquire_created hfound' hload', hsame.content_eq]
      exact ⟨rfl, ⟨by simp, by simp⟩⟩
  · rw [acquire_found hfound, acquire_found (hsame.lookup_eq ▸ hfound)]
    exact ⟨rfl, hsame⟩

theorem writeTo_same (hsame : SameFor pair s t) (hnamed : Named s pair) (w : Write) :
    SameFor pair (writeTo s pair w) (writeTo t pair w) := by
  rcases hfound : s.lookup pair.key with _ | p
  · rw [writeTo_none hfound, writeTo_none (hsame.lookup_eq ▸ hfound)]
    exact hsame
  · rw [writeTo_found hfound, writeTo_found (hsame.lookup_eq ▸ hfound), hnamed p hfound,
      hsame.content_eq]
    exact ⟨by simp, by simp⟩

theorem fetch_same (hsame : SameFor pair s t) (hnamed : Named s pair) (offset : UInt64)
    (count : UInt32) :
    processFetchRequest s pair offset count = processFetchRequest t pair offset count := by
  rw [processFetchRequest, processFetchRequest, ← hsame.lookup_eq]
  rcases hfound : s.lookup pair.key with _ | p
  · rfl
  · simp only [readFrom, hnamed p hfound, hsame.content_eq]

end Partitions

section Isolation

/-- The steps of the requests.  `storeRecord` acquires its partition and then
writes to it, `processFetchRequest` finds the partition and then reads from it,
and the two loops get in between each other's steps. -/
inductive Action where
  | acquire (pair : Pair)
  | write (w : Write)
  | find (pair : Pair)
  | read (pair : Pair) (offset : UInt64) (count : UInt32)

inductive Answer where
  | done
  | failed (stop : Stop)
  | records (result : List Record × Option Stop)

def Action.pair : Action → Pair
  | .acquire pair => pair
  | .write w => recordPair w
  | .find pair => pair
  | .read pair _ _ => pair

def outcome : Option Stop → Answer
  | none => .done
  | some stop => .failed stop

def findPartition (s : Store) (pair : Pair) : Option Stop :=
  if (s.lookup pair.key).isSome then none else some (partitionNotFound pair)

def step (s : Store) : Action → Store × Answer
  | .acquire pair => ((acquire s pair).1, outcome (acquire s pair).2)
  | .write w => (writeTo s (recordPair w) w, .done)
  | .find pair => (s, outcome (findPartition s pair))
  | .read pair offset count => (s, .records (processFetchRequest s pair offset count))

def seenBy (pair : Pair) (action : Action) : Bool :=
  action.pair = pair

/-- What is answered to requests for the first pair is the same without the
requests for the second. -/
def Isolated (first second : Pair) : Prop :=
  ∀ actions : List Action, (∀ action ∈ actions, action.pair = first ∨ action.pair = second) →
    answers step (seenBy first) Store.empty actions =
      answers step (seenBy first) Store.empty (actions.filter (seenBy first))

variable {s t : Store} {first second : Pair}

theorem step_same (hsame : SameFor first s t) (hnamed : Named s first) {action : Action}
    (haction : action.pair = first) :
    (step s action).2 = (step t action).2 ∧ SameFor first (step s action).1 (step t action).1 ∧
      Named (step s action).1 first := by
  subst haction
  rcases action with pair | w | pair | ⟨pair, offset, count⟩
  · obtain ⟨hanswer, hnext⟩ := acquire_same hsame
    exact ⟨congrArg outcome hanswer, hnext, acquire_named hnamed⟩
  · exact ⟨rfl, writeTo_same hsame hnamed w, writeTo_named hnamed w⟩
  · have hfind : findPartition s pair = findPartition t pair := by
      rw [findPartition, findPartition, show s.lookup pair.key = t.lookup pair.key from
        hsame.lookup_eq]
    exact ⟨congrArg outcome hfind, hsame, hnamed⟩
  · exact ⟨congrArg Answer.records (fetch_same hsame hnamed offset count), hsame, hnamed⟩

theorem step_apart (hapart : Apart first second) (hnamed : Named s second) {action : Action}
    (haction : action.pair = second) :
    SameFor first (step s action).1 s ∧ Named (step s action).1 second := by
  subst haction
  rcases action with pair | w | pair | ⟨pair, offset, count⟩
  · exact ⟨acquire_apart hapart s, acquire_named hnamed⟩
  · exact ⟨writeTo_apart hapart hnamed w, writeTo_named hnamed w⟩
  · exact ⟨⟨rfl, rfl⟩, hnamed⟩
  · exact ⟨⟨rfl, rfl⟩, hnamed⟩

/-- The states with and without the requests for the second pair. -/
structure Alike (first second : Pair) (s t : Store) : Prop where
  same : SameFor first s t
  named : Named s first
  other_named : Named s second

theorem named_of_sameFor (hsame : SameFor first s t) (hnamed : Named t first) : Named s first :=
  fun p hp => hnamed p (hsame.lookup_eq ▸ hp)

theorem SameFor.trans {u : Store} (hst : SameFor first s t) (htu : SameFor first t u) :
    SameFor first s u :=
  ⟨hst.lookup_eq.trans htu.lookup_eq, hst.content_eq.trans htu.content_eq⟩

theorem Apart.symm (hapart : Apart first second) : Apart second first :=
  ⟨hapart.key_ne.symm, hapart.logName_ne.symm⟩

theorem isolated_of_apart (hapart : Apart first second) : Isolated first second := by
  have hempty : ∀ pair, Named Store.empty pair := by
    intro pair p hp
    rw [Store.lookup_empty] at hp
    cases hp
  intro actions hactions
  refine answers_purge (R := Alike first second) ?_ ?_ hactions
    ⟨⟨rfl, rfl⟩, hempty first, hempty second⟩
  · rintro s t action ⟨hsame, hnamed, hother⟩ - hseen
    have hfirst : action.pair = first := of_decide_eq_true hseen
    obtain ⟨hanswer, hnext, hnamed'⟩ := step_same hsame hnamed hfirst
    obtain ⟨hkept, -⟩ := step_apart hapart.symm hnamed hfirst
    exact ⟨hanswer, hnext, hnamed', named_of_sameFor hkept hother⟩
  · rintro s t action ⟨hsame, hnamed, hother⟩ hpair hhidden
    have hsecond : action.pair = second := hpair.resolve_left (of_decide_eq_false hhidden)
    obtain ⟨hkept, hother'⟩ := step_apart hapart hother hsecond
    exact ⟨hkept.trans hsame, named_of_sameFor hkept hnamed, hother'⟩

theorem acquire_empty_file {pair : Pair} (hnone : s.lookup pair.key = none)
    (hfile : s.content pair.logName = []) :
    acquire s pair = ((s.setFile pair.logName []).put pair.key pair.new, none) := by
  have hload : loadPartitionIndex (s.content pair.logName) pair.new = .ok pair.new := by
    rw [hfile]
    exact loadFrom_nil 0 _
  rw [acquire_created hnone hload, hfile]

theorem not_isolated_of_key (hne : first ≠ second) (hkey : first.key = second.key) :
    ¬ Isolated first second := by
  intro hisolated
  have hhidden : seenBy first (.acquire second) = false := decide_eq_false hne.symm
  have hseen : seenBy first (.find first) = true := decide_eq_true rfl
  have hanswers := hisolated [.acquire second, .find first] (by simp [Action.pair])
  rw [answers_hidden hhidden, answers_seen hseen, List.filter_cons_of_neg (by simp [hhidden]),
    List.filter_cons_of_pos hseen, List.filter_nil, answers_seen hseen] at hanswers
  have hfound : findPartition (step Store.empty (.acquire second)).1 first = none := by
    simp [findPartition, step, acquire_empty_file, hkey]
  have hmissing : findPartition Store.empty first = some (partitionNotFound first) := by
    simp [findPartition]
  simp only [step, answers, List.cons.injEq, and_true] at hanswers hfound
  rw [hfound, hmissing] at hanswers
  cases hanswers

def plainWrite (pair : Pair) : Write where
  record :=
    { topic := pair.topic, partition := pair.partition, offset := 0, key := [], value := []
      headers := (∅ : AList fun _ : Bytes => Bytes).toFinmap, timestamp := 0 }
  range := ⟨∅, rfl⟩
  now := 0

@[simp] theorem recordPair_plainWrite (pair : Pair) : recordPair (plainWrite pair) = pair :=
  rfl

theorem fits_plainWrite (pair : Pair) : Fits (plainWrite pair).record := by
  refine ⟨by simp [plainWrite], by simp [plainWrite], ?_, fun key value hlookup => ?_⟩
  · rw [← (plainWrite pair).range.entries_length]
    exact Nat.two_pow_pos 8
  · have hmem := ((plainWrite pair).range.mem_entries_iff ⟨key, value⟩).mpr hlookup
    cases hmem

theorem reloads_plainWrite (pair other : Pair) :
    Reloads pair.topic pair.partition [plainWrite other] := by
  apply reloads_of_no_headers
  · intro w hw
    rw [List.mem_singleton.mp hw]
    rfl
  · intro w hw
    rw [List.mem_singleton.mp hw]
    exact Nat.two_pow_pos 32

theorem storeRecord_acquired {w : Write} (hacquire : acquire s (recordPair w) = (t, none)) :
    storeRecord s w = (writeTo t (recordPair w) w, none) := by
  rw [storeRecord, hacquire]

theorem storeRecord_empty (w : Write) :
    storeRecord Store.empty w =
      ((((Store.empty.setFile (recordPair w).logName []).put (recordPair w).key
          (recordPair w).new).setFile (recordPair w).logName w.bytes).put (recordPair w).key
            ((recordPair w).new.enter w.record.offset 0), none) := by
  have hacquire := acquire_empty_file (Store.lookup_empty (recordPair w).key)
    (Store.content_empty (recordPair w).logName)
  have hfound := Store.lookup_put_self (Store.empty.setFile (recordPair w).logName [])
    (recordPair w).key (recordPair w).new
  have hcontent : ((Store.empty.setFile (recordPair w).logName []).put (recordPair w).key
      (recordPair w).new).content (pairOf (recordPair w).new).logName = [] := by
    rw [Store.content_put]
    exact Store.content_setFile_self _ _ _
  rw [storeRecord_acquired hacquire, writeTo_found hfound, hcontent]
  rfl

theorem fetch_shared (hkey : first.key ≠ second.key) (hfile : first.logName = second.logName) :
    Returns
      (processFetchRequest (acquire (storeRecord Store.empty (plainWrite second)).1 first).1
        first 0 1) [plainWrite second] := by
  have hnone : (storeRecord Store.empty (plainWrite second)).1.lookup first.key = none := by
    rw [storeRecord_empty, recordPair_plainWrite]
    exact (Store.lookup_put_of_ne _ _ hkey).trans (Store.lookup_put_of_ne _ _ hkey)
  have hcontent : (storeRecord Store.empty (plainWrite second)).1.content first.logName =
      (plainWrite second).bytes := by
    rw [storeRecord_empty, hfile, Store.content_put]
    exact Store.content_setFile_self _ _ _
  have hload : loadPartitionIndex
      ((storeRecord Store.empty (plainWrite second)).1.content first.logName) first.new =
        .ok (writeAll [] first.new [plainWrite second]).2 := by
    rw [hcontent]
    exact reloads_plainWrite first second
  rw [acquire_created hnone hload, processFetchRequest, Store.lookup_put_self, hcontent]
  have hread := (readRecords_returns_iff
    (indexed_writeAll first.topic first.partition [plainWrite second]) 1 0).mpr
  have hone : fetchable [plainWrite second] 1 0 = [plainWrite second] := rfl
  rw [hone] at hread
  have hreturns := hread (by
    intro w hw
    rw [List.mem_singleton.mp hw]
    exact fits_plainWrite second)
  simp only [readFrom, Store.content_put]
  rw [show pairOf (writeAll [] first.new [plainWrite second]).2 = first from rfl,
    Store.content_setFile_self]
  exact hreturns

theorem fetch_unshared (pair : Pair) :
    processFetchRequest (acquire Store.empty pair).1 pair 0 1 = ([], none) := by
  rw [acquire_empty_file (Store.lookup_empty pair.key) (Store.content_empty pair.logName),
    processFetchRequest, Store.lookup_put_self]
  rfl

theorem not_isolated_of_logName (hkey : first.key ≠ second.key)
    (hfile : first.logName = second.logName) : ¬ Isolated first second := by
  intro hisolated
  have hne : second ≠ first := fun heq => hkey (by rw [heq])
  have hacquired : seenBy first (.acquire second) = false := decide_eq_false hne
  have hwritten : seenBy first (.write (plainWrite second)) = false := decide_eq_false hne
  have hacquire : seenBy first (.acquire first) = true := decide_eq_true rfl
  have hread : seenBy first (.read first 0 1) = true := decide_eq_true rfl
  have hstored : storeRecord Store.empty (plainWrite second) =
      (writeTo (acquire Store.empty second).1 second (plainWrite second), none) := by
    apply storeRecord_acquired
    rw [recordPair_plainWrite, acquire_empty_file (Store.lookup_empty _) (Store.content_empty _)]
  have hshared := fetch_shared hkey hfile
  have hanswers := hisolated
    [.acquire second, .write (plainWrite second), .acquire first, .read first 0 1]
    (by simp [Action.pair])
  rw [answers_hidden hacquired, answers_hidden hwritten, answers_seen hacquire, answers_seen hread,
    List.filter_cons_of_neg (by simp [hacquired]), List.filter_cons_of_neg (by simp [hwritten]),
    List.filter_cons_of_pos hacquire, List.filter_cons_of_pos hread, List.filter_nil,
    answers_seen hacquire, answers_seen hread] at hanswers
  simp only [step, recordPair_plainWrite, List.cons.injEq, Answer.records.injEq] at hanswers
  rw [hstored, hanswers.2.1, fetch_unshared] at hshared
  cases hshared.2

/-- Two pairs are isolated if and only if their names are neither joined to the
same key nor to the same file name. -/
theorem isolated_iff (hne : first ≠ second) :
    Isolated first second ↔ first.key ≠ second.key ∧ first.logName ≠ second.logName := by
  constructor
  · intro hisolated
    have hkey : first.key ≠ second.key :=
      fun heq => not_isolated_of_key hne heq hisolated
    exact ⟨hkey, fun heq => not_isolated_of_logName hkey heq hisolated⟩
  · rintro ⟨hkey, hfile⟩
    exact isolated_of_apart ⟨hkey, hfile⟩

theorem isolated_iff_topics :
    (⟨ascii "a", ascii "p"⟩ : Pair) ≠ ⟨ascii "b", ascii "p"⟩ ∧
      Isolated ⟨ascii "a", ascii "p"⟩ ⟨ascii "b", ascii "p"⟩ :=
  ⟨by decide, (isolated_iff (by decide)).mpr (by decide)⟩

/-- Names with a colon can share their key, names with a dash their file. -/
theorem not_isolated_separators :
    (⟨ascii "a:b", ascii "c"⟩ : Pair) ≠ ⟨ascii "a", ascii "b:c"⟩ ∧
      ¬ Isolated ⟨ascii "a:b", ascii "c"⟩ ⟨ascii "a", ascii "b:c"⟩ ∧
      (⟨ascii "a-b", ascii "c"⟩ : Pair) ≠ ⟨ascii "a", ascii "b-c"⟩ ∧
      ¬ Isolated ⟨ascii "a-b", ascii "c"⟩ ⟨ascii "a", ascii "b-c"⟩ := by
  refine ⟨by decide, not_isolated_of_key (by decide) (by decide), by decide, ?_⟩
  exact not_isolated_of_logName (by decide) (by decide)

end Isolation

section Restart

def nameParts (name : Bytes) : List Bytes :=
  [name]

def loadFile (s : Store) (file : Bytes) : Except Stop Store :=
  if ¬ ascii ".log" <:+ file then .ok s
  else
    match nameParts (file.take (file.length - 4)) with
    | topic :: partition :: _ =>
      match createPartition s ⟨topic, partition⟩ with
      | (_, .error stop) =>
        .error (wrapStop ("failed to load partition " ++
          showBytes (Pair.key ⟨topic, partition⟩)) stop)
      | (s', .ok p) => .ok (s'.put (Pair.key ⟨topic, partition⟩) p)
    | _ => .ok s

/-- The data directory is listed by name. -/
def loadPartitions (s : Store) : Except Stop Store :=
  (s.files.keys.mergeSort fun first second => first ≤ second).foldlM loadFile s

def restarted (s : Store) : Store :=
  { s with partitions := ∅ }

def storeAll (writes : List Write) : Store × List Pair :=
  writes.foldl (fun log w =>
    match storeRecord log.1 w with
    | (s', some _) => (s', log.2)
    | (s', none) => (s', recordPair w :: log.2)) (Store.empty, [])

def Holds (s : Store) (pair : Pair) : Prop :=
  ∃ p, s.lookup pair.key = some p ∧ pairOf p = pair

def FindsPartitions (writes : List Write) : Prop :=
  ∃ s, loadPartitions (restarted (storeAll writes).1) = .ok s ∧
    ∀ pair, Holds s pair ↔ pair ∈ (storeAll writes).2

theorem loadFile_eq (s : Store) (file : Bytes) : loadFile s file = .ok s := by
  rw [loadFile]
  split
  · rfl
  · rfl

theorem loadPartitions_eq (s : Store) : loadPartitions s = .ok s := by
  rw [loadPartitions]
  induction s.files.keys.mergeSort fun first second => first ≤ second with
  | nil => rfl
  | cons file rest ih =>
    rw [List.foldlM_cons, loadFile_eq]
    exact ih

theorem not_holds_restarted (s : Store) (pair : Pair) : ¬ Holds (restarted s) pair := by
  rintro ⟨p, hfound, -⟩
  rw [Store.lookup, restarted, AList.lookup_empty] at hfound
  cases hfound

theorem not_findsPartitions_of_mem {writes : List Write} {pair : Pair}
    (hstored : pair ∈ (storeAll writes).2) : ¬ FindsPartitions writes := by
  rintro ⟨s, hload, hholds⟩
  rw [loadPartitions_eq] at hload
  cases hload
  exact not_holds_restarted _ pair ((hholds pair).mpr hstored)

/-- A restart finds its partitions only if there are none. -/
theorem findsPartitions_iff (writes : List Write) :
    FindsPartitions writes ↔ (storeAll writes).2 = [] := by
  constructor
  · intro hfinds
    apply List.eq_nil_iff_forall_not_mem.mpr
    intro pair hstored
    exact not_findsPartitions_of_mem hstored hfinds
  · intro hnone
    refine ⟨_, loadPartitions_eq _, fun pair => ?_⟩
    rw [hnone]
    exact iff_of_false (not_holds_restarted _ pair) List.not_mem_nil

theorem not_findsPartitions_plainWrite :
    (storeAll [plainWrite ⟨ascii "t", ascii "p"⟩]).2 = [⟨ascii "t", ascii "p"⟩] ∧
      ¬ FindsPartitions [plainWrite ⟨ascii "t", ascii "p"⟩] ∧
      (loadPartitions (restarted (storeAll [plainWrite ⟨ascii "t", ascii "p"⟩]).1)).map
          (processFetchRequest · ⟨ascii "t", ascii "p"⟩ 0 1) =
        .ok ([], some (partitionNotFound ⟨ascii "t", ascii "p"⟩)) := by
  have hstored : (storeAll [plainWrite ⟨ascii "t", ascii "p"⟩]).2 = [⟨ascii "t", ascii "p"⟩] := by
    rw [storeAll, List.foldl_cons, List.foldl_nil, storeRecord_empty]
    rfl
  refine ⟨hstored, ?_, ?_⟩
  · exact not_findsPartitions_of_mem (hstored ▸ List.mem_singleton_self _)
  · rw [loadPartitions_eq, Except.map, processFetchRequest,
      show (restarted _).lookup _ = none from AList.lookup_empty _]

end Restart

end Zmq4.DafkaStore

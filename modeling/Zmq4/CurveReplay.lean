import Mathlib.Data.List.Forall2
import Zmq4.CurveFrames

namespace Zmq4.CurveReplay

open ByteCodec DuplexProgram ZmtpMessage BoxScheme CurveMechanism CurveFrames

variable (B : NaclBox)

def encryptAll : List (Bytes × Bool) → Program CurveSecurity (List Bytes)
  | [] => pure []
  | (data, hasMore) :: rest => do
      let body ← encryptWithFlags B data hasMore
      let bodies ← encryptAll rest
      pure (body :: bodies)

def acceptAll : List (Nat × Bytes) → CurveSecurity → List (Nat × Bytes)
  | [], _ => []
  | (number, body) :: rest, r =>
    match (decryptWithFlags B body).run r with
    | .ok (content, _) r' => (number, content) :: acceptAll rest r'
    | .error _ r' => acceptAll rest r'

def deliver (bodies : List Bytes) (delivered : List Nat) : List (Nat × Bytes) :=
  delivered.map fun number => (number, bodies.getD number [])

def AtMostOnce (receiver : CurveSecurity) (bodies : List Bytes) (delivered : List Nat) : Prop :=
  ((acceptAll B (deliver bodies delivered) receiver).map Prod.fst).Nodup

variable {B} {bodies : List Bytes} {sent : List (Bytes × Bool)}

theorem encryptAll_bodies {s s' : CurveSecurity} {recipient secret : Key}
    (hkeys : s.messageKeys = some (recipient, secret))
    (hrun : (encryptAll B sent).run s = .ok bodies s') :
    List.Forall₂ (fun message body => ∃ counter : Bytes, counter.length = 8 ∧
      body = messageBytes B counter recipient secret message.1 message.2) sent bodies := by
  induction sent generalizing s bodies with
  | nil =>
    obtain ⟨rfl, -⟩ : bodies = [] ∧ s' = s := by simpa [encryptAll, eq_comm] using hrun
    exact .nil
  | cons message rest ih =>
    obtain ⟨data, hasMore⟩ := message
    rw [encryptAll, bind_eq_ok_iff] at hrun
    obtain ⟨body, s₁, hbody, hrun⟩ := hrun
    rw [bind_eq_ok_iff] at hrun
    obtain ⟨others, s₂, hothers, hpure⟩ := hrun
    obtain ⟨rfl, rfl⟩ : body :: others = bodies ∧ s₂ = s' := by simpa using hpure
    by_cases hfits : data.length + 25 ≤ maxInt64
    · rw [encryptWithFlags_run B hkeys hfits] at hbody
      obtain ⟨rfl, rfl⟩ := by simpa using hbody
      refine .cons ⟨s.sendCounter, sendCounter_length s, rfl⟩ (ih ?_ hothers)
      exact (messageKeys_countSend s).trans hkeys
    · obtain ⟨s'', hpanic⟩ := encryptWithFlags_too_long B hkeys hfits hasMore
      simp [hpanic] at hbody

variable {delivered : List Nat}

/-- The receiver accepts every body again each time it is delivered: nothing
that it did before matters. -/
theorem acceptAll_deliver {r : CurveSecurity} {own peer : Key}
    (hkeys : r.messageKeys = some (B.publicOf own, peer))
    (hbodies : List.Forall₂ (fun message body => ∃ counter : Bytes, counter.length = 8 ∧
      body = messageBytes B counter (B.publicOf peer) own message.1 message.2) sent bodies)
    (hdelivered : ∀ number ∈ delivered, number < bodies.length) :
    acceptAll B (deliver bodies delivered) r =
      delivered.map fun number => (number, (sent.map Prod.fst).getD number []) := by
  induction delivered generalizing r with
  | nil => rfl
  | cons number rest ih =>
    have hnumber := hdelivered number (by simp)
    have hsentNumber : number < sent.length := hbodies.length_eq ▸ hnumber
    obtain ⟨counter, hcounter, hbody⟩ := hbodies.get hsentNumber hnumber
    obtain ⟨call, hdecrypt⟩ := decryptWithFlags_run B hkeys hcounter
      (B.openBox_sealBox _ (messageNonce counter) own peer) _
    have hget : bodies.getD number [] = bodies.get ⟨number, hnumber⟩ := by
      simp [List.getD_eq_getElem?_getD, hnumber]
    have hrest := ih (r := r.called call) hkeys fun n hn => hdelivered n (by simp [hn])
    rw [deliver, List.map_cons, ← deliver, acceptAll, hget, hbody, hdecrypt]
    simp only [List.map_cons, hrest]
    simp [List.getD_eq_getElem?_getD, hsentNumber]

theorem atMostOnce_of_keys {sender receiver sender' : CurveSecurity} {own peer : Key}
    (hsender : sender.messageKeys = some (B.publicOf peer, own))
    (hreceiver : receiver.messageKeys = some (B.publicOf own, peer)) (sent : List (Bytes × Bool))
    (hsent : (encryptAll B sent).run sender = .ok bodies sender')
    (hdelivered : ∀ number ∈ delivered, number < bodies.length) :
    AtMostOnce B receiver bodies delivered ↔ delivered.Nodup := by
  rw [AtMostOnce, acceptAll_deliver hreceiver (encryptAll_bodies hsender hsent) hdelivered,
    List.map_map]
  change (delivered.map id).Nodup ↔ delivered.Nodup
  rw [List.map_id]

/-- After a handshake, whichever side receives, no message is accepted twice
exactly when none is delivered twice. -/
theorem atMostOnce_iff_nodup {c s sender receiver sender' : CurveSecurity} {client server : Key}
    (hcs : Established B c s client server)
    (hrole : sender = c ∧ receiver = s ∨ sender = s ∧ receiver = c)
    (sent : List (Bytes × Bool)) {bodies : List Bytes}
    (hsent : (encryptAll B sent).run sender = .ok bodies sender')
    {delivered : List Nat} (hdelivered : ∀ number ∈ delivered, number < bodies.length) :
    AtMostOnce B receiver bodies delivered ↔ delivered.Nodup := by
  obtain ⟨hclient, hserver⟩ := hcs.sendReady
  rcases hrole with ⟨rfl, rfl⟩ | ⟨rfl, rfl⟩
  · exact atMostOnce_of_keys hclient.keys hserver.keys sent hsent hdelivered
  · exact atMostOnce_of_keys hserver.keys hclient.keys sent hsent hdelivered

theorem reordered_at_most_once :
    ∃ bodies sender', (encryptAll xorBox [([1], false), ([2], true)]).run
        (establishedSide xorBox false (plainKey 1) (plainKey 2)) = .ok bodies sender' ∧
      AtMostOnce xorBox (establishedSide xorBox true (plainKey 1) (plainKey 2)) bodies [1, 0] := by
  refine ⟨_, _, rfl, ?_⟩
  refine (atMostOnce_iff_nodup (established_sides xorBox (plainKey 1) (plainKey 2))
    (Or.inl ⟨rfl, rfl⟩) [([1], false), ([2], true)] rfl ?_).mpr ?_
  · decide
  · decide

theorem replayed_message_accepted :
    ∃ bodies sender', (encryptAll xorBox [([1], false)]).run
        (establishedSide xorBox false (plainKey 1) (plainKey 2)) = .ok bodies sender' ∧
      Established xorBox (establishedSide xorBox false (plainKey 1) (plainKey 2))
        (establishedSide xorBox true (plainKey 1) (plainKey 2)) (plainKey 1) (plainKey 2) ∧
      ¬ AtMostOnce xorBox (establishedSide xorBox true (plainKey 1) (plainKey 2)) bodies
        [0, 0] := by
  have hcs := established_sides xorBox (plainKey 1) (plainKey 2)
  refine ⟨_, _, rfl, hcs, ?_⟩
  rw [atMostOnce_of_keys hcs.sendReady.1.keys hcs.sendReady.2.keys
    [([1], false)] rfl (by decide)]
  decide

end Zmq4.CurveReplay

import Mathlib.Data.List.Nodup
import Zmq4.CurveExchange

namespace Zmq4.CurveNonces

open ByteCodec DuplexProgram ProgramEffects ZmtpMessage ZmtpMetadata Connection CommandStream
  BoxScheme CurveMechanism CurveFrames CurveHandshake CurveHandshakeRun CurveHandshakeEffects

section Layouts

def counterOf (isServer : Bool) (number : Nat) : Nat :=
  if isServer then 2 * number + 1 else 2 * number + 2

def numberedNonce (isServer : Bool) (number : Nat) : Nonce :=
  messageNonce (littleEndian 8 (counterOf isServer number))

theorem messageNonce_bytes {counter : Bytes} (hcounter : counter.length = 8) :
    (messageNonce counter).bytes = counter ++ ascii "CurveZMQMESSAGE-" := by
  apply FixedBytes.ofCopy_bytes
  rw [List.length_append, hcounter]
  rfl

theorem numberedNonce_inj {first second : Bool} {i j : Nat} (hi : i + 1 < 2 ^ 63)
    (hj : j + 1 < 2 ^ 63) (heq : numberedNonce first i = numberedNonce second j) :
    first = second ∧ i = j := by
  have hbytes := congrArg FixedBytes.bytes heq
  rw [numberedNonce, numberedNonce, messageNonce_bytes (littleEndian_length 8 _),
    messageNonce_bytes (littleEndian_length 8 _), List.append_left_inj] at hbytes
  have hrange : ∀ isServer number, number + 1 < 2 ^ 63 → counterOf isServer number < 256 ^ 8 := by
    intro isServer number hnumber
    unfold counterOf
    split <;> omega
  have hcounter := congrArg littleEndianValue hbytes
  rw [littleEndianValue_littleEndian (hrange first i hi),
    littleEndianValue_littleEndian (hrange second j hj)] at hcounter
  cases first <;> cases second <;> simp only [counterOf] at hcounter ⊢ <;> simp at hcounter ⊢ <;>
    omega

/-- Handshake nonces end in zeros, where a MESSAGE nonce has letters. -/
theorem handshakeNonce_ne_numberedNonce {nonce : Nonce}
    (hnonce : nonce ∈ [helloNonce, initiateNonce, vouchNonce, cookieNonce, readyNonce])
    (isServer : Bool) (number : Nat) : nonce ≠ numberedNonce isServer number := by
  rintro rfl
  have htext : ∀ nonce ∈ [helloNonce, initiateNonce, vouchNonce, cookieNonce, readyNonce],
      nonce.bytes.drop 16 = zeros 8 := by
    decide
  have hzeros := htext _ hnonce
  rw [numberedNonce, messageNonce_bytes (littleEndian_length 8 _), List.drop_append,
    littleEndian_length, List.drop_eq_nil_of_le (by simp)] at hzeros
  exact absurd hzeros (by decide)

end Layouts

variable {early : List Nonce} {s : CurveSecurity}

section Side

/-- One side has sealed boxes with the nonces `early` in its handshake and then
`count` MESSAGEs. -/
structure Counts (isServer : Bool) (early : List Nonce) (count : Nat) (s : CurveSecurity) :
    Prop where
  role : s.isServer = isServer
  counter : (if isServer then s.serverNonce else s.clientNonce).toNat =
    if isServer then 2 * count - 1 else 2 * count
  nonces : sealNonces s.calls = early ++ (List.range count).map (numberedNonce isServer)

variable {count : Nat}

theorem nextCounter_toNat {counter first : UInt64} (hlow : 1 ≤ first.toNat)
    (hhigh : first.toNat ≤ 2) (hcounter : counter.toNat = 2 * count + first.toNat - 2)
    (hcount : count + 1 < 2 ^ 63) :
    (if counter = 0 then first else counter + 2).toNat = 2 * count + first.toNat := by
  split
  · rename_i hzero
    rw [hzero, UInt64.toNat_zero] at hcounter
    omega
  · rename_i hzero
    have hpositive : counter.toNat ≠ 0 := by
      rw [← UInt64.toNat_zero]
      exact fun heq => hzero (UInt64.toNat_inj.mp heq)
    rw [UInt64.toNat_add, show (2 : UInt64).toNat = 2 from rfl]
    omega

theorem Counts.countSend {isServer : Bool} (hs : Counts isServer early count s)
    (hcount : count + 1 < 2 ^ 63) :
    s.countSend.2.toNat = counterOf isServer count ∧
      (if isServer then s.countSend.1.serverNonce else s.countSend.1.clientNonce) =
        s.countSend.2 := by
  have hcounter := hs.counter
  cases isServer with
  | true =>
    simp only [CurveSecurity.countSend, counterOf, hs.role, if_true] at hcounter ⊢
    exact ⟨nextCounter_toNat (show 1 ≤ (1 : UInt64).toNat by decide) (by decide) hcounter hcount,
      trivial⟩
  | false =>
    simp only [CurveSecurity.countSend, counterOf, hs.role, Bool.false_eq_true, if_false]
      at hcounter ⊢
    exact ⟨nextCounter_toNat (show 1 ≤ (2 : UInt64).toNat by decide) (by decide) hcounter hcount,
      trivial⟩

theorem Counts.afterMessage {isServer : Bool} (hs : Counts isServer early count s)
    (hcount : count + 1 < 2 ^ 63) (recipient secret : Key) (data : Bytes) :
    Counts isServer early (count + 1) (CurveFrames.afterMessage s recipient secret data) := by
  obtain ⟨hvalue, hstored⟩ := hs.countSend hcount
  have hcalls : s.countSend.1.calls = s.calls := by
    unfold CurveSecurity.countSend
    split <;> rfl
  refine ⟨(countSend_frame s).2.trans hs.role, ?_, ?_⟩
  · change (if isServer then s.countSend.1.serverNonce else s.countSend.1.clientNonce).toNat = _
    rw [hstored, hvalue, counterOf]
    split <;> omega
  · change sealNonces (s.countSend.1.calls ++ [.sealed data (messageNonce s.sendCounter) recipient
      secret]) = _
    rw [hcalls, sealNonces_append, hs.nonces, List.range_succ, List.map_append,
      ← List.append_assoc, CurveSecurity.sendCounter, hvalue]
    rfl

end Side

section Connection

variable (B : NaclBox)

structure MessageStep where
  byServer : Bool
  data : Bytes
  hasMore : Bool

def MessageStep.exec (step : MessageStep) (s : CurveSecurity) : CurveSecurity :=
  finalState ((encryptWithFlags B step.data step.hasMore).run s)

def messageRun : List MessageStep → CurveSecurity × CurveSecurity → CurveSecurity × CurveSecurity
  | [], sides => sides
  | step :: rest, (c, s) =>
    if step.byServer then messageRun rest (c, step.exec B s)
    else messageRun rest (step.exec B c, s)

theorem MessageStep.exec_eq {recipient secret : Key} (hs : SendReady s recipient secret)
    (step : MessageStep) :
    step.exec B s = CurveFrames.afterMessage s recipient secret step.data := by
  obtain ⟨client, server, hready, htransient⟩ := messageKeys_eq_some hs.keys
  rw [MessageStep.exec, encryptWithFlags, bind_ok (EStateM.run_get s)]
  simp only [hready, htransient]
  rw [bind_ok (nextSendNonce_run s), bind_ok (sealMessage_run B _ _ _ _ _)]
  split <;> rfl

theorem messageRun_counts {recipient secret recipient' secret' : Key} {early' : List Nonce}
    {steps : List MessageStep} {c : CurveSecurity} {n m : Nat} (hc : SendReady c recipient secret)
    (hs : SendReady s recipient' secret') (hcCounts : Counts false early n c)
    (hsCounts : Counts true early' m s) (hn : n + steps.countP (!·.byServer) < 2 ^ 63)
    (hm : m + steps.countP (·.byServer) < 2 ^ 63) :
    Counts false early (n + steps.countP (!·.byServer)) (messageRun B steps (c, s)).1 ∧
      Counts true early' (m + steps.countP (·.byServer)) (messageRun B steps (c, s)).2 := by
  induction steps generalizing c s n m with
  | nil => exact ⟨hcCounts, hsCounts⟩
  | cons step rest ih =>
    rw [messageRun]
    cases hside : step.byServer with
    | true =>
      simp only [List.countP_cons, hside, Bool.not_true, Bool.false_eq_true, if_false, if_true,
        Nat.add_zero] at hn hm ⊢
      rw [step.exec_eq B hs]
      have hnext := ih hc (hs.afterMessage step.data) hcCounts
        (hsCounts.afterMessage (by omega) recipient' secret' step.data) hn (by omega)
      rwa [show m + (rest.countP (·.byServer) + 1) = m + 1 + rest.countP (·.byServer) by omega]
    | false =>
      simp only [List.countP_cons, hside, Bool.not_false, Bool.false_eq_true, if_false, if_true,
        Nat.add_zero] at hn hm ⊢
      rw [step.exec_eq B hc]
      have hnext := ih (hc.afterMessage step.data) hs
        (hcCounts.afterMessage (by omega) recipient secret step.data) hsCounts (by omega) hm
      rwa [show n + (rest.countP (!·.byServer) + 1) = n + 1 + rest.countP (!·.byServer) by omega]

def sharedNonces (client server : Key) (calls : List BoxCall) : List Nonce :=
  calls.filterMap fun call =>
    match call with
    | .sealed _ nonce recipient secret =>
      if recipient = B.publicOf server ∧ secret = client ∨
          recipient = B.publicOf client ∧ secret = server then some nonce
      else none
    | .opened _ _ _ _ _ => none

theorem sharedNonces_sublist (client server : Key) (calls : List BoxCall) :
    (sharedNonces B client server calls).Sublist (sealNonces calls) := by
  induction calls with
  | nil => exact .slnil
  | cons call calls ih =>
    cases call with
    | opened box nonce sender secret result => exact ih
    | sealed message nonce recipient secret =>
      simp only [sharedNonces, sealNonces, List.filterMap_cons] at ih ⊢
      split
      · rename_i hnone
        exact ih.trans (List.sublist_cons_self _ _)
      · rename_i used hused
        split at hused
        · cases hused
          exact ih.cons_cons _
        · cases hused

theorem nonces_nodup {n m : Nat} (hn : n < 2 ^ 63) (hm : m < 2 ^ 63) :
    (([helloNonce, initiateNonce, vouchNonce] ++ (List.range n).map (numberedNonce false)) ++
      ([cookieNonce, readyNonce] ++ (List.range m).map (numberedNonce true))).Nodup := by
  have hside : ∀ isServer k, k < 2 ^ 63 →
      ((List.range k).map (numberedNonce isServer)).Nodup := by
    intro isServer k hk
    refine .map_on ?_ List.nodup_range
    intro i hi j hj heq
    rw [List.mem_range] at hi hj
    exact (numberedNonce_inj (by omega) (by omega) heq).2
  have hnumbered : ((List.range n).map (numberedNonce false) ++
      (List.range m).map (numberedNonce true)).Nodup := by
    refine List.nodup_append.mpr ⟨hside false n hn, hside true m hm, ?_⟩
    intro first hfirst second hsecond heq
    obtain ⟨i, hi, rfl⟩ := List.mem_map.mp hfirst
    obtain ⟨j, hj, rfl⟩ := List.mem_map.mp hsecond
    rw [List.mem_range] at hi hj
    exact absurd (numberedNonce_inj (by omega) (by omega) heq).1 (by decide)
  rw [List.append_assoc]
  refine ((List.perm_append_comm_assoc _ _ _).append_left _).nodup_iff.mpr ?_
  rw [← List.append_assoc]
  refine List.nodup_append.mpr ⟨by decide, hnumbered, ?_⟩
  intro first hfirst second hsecond
  rcases List.mem_append.mp hsecond with hclient | hserver
  · obtain ⟨i, -, rfl⟩ := List.mem_map.mp hclient
    exact handshakeNonce_ne_numberedNonce hfirst false i
  · obtain ⟨i, -, rfl⟩ := List.mem_map.mp hserver
    exact handshakeNonce_ne_numberedNonce hfirst true i

variable {B} {P : Platform} {w w' : Endpoint CurveSecurity}

theorem sealNonces_of_emitted (hcalls : w.sec.calls = [])
    (hnonces : endpointNonces w' = endpointNonces w ++ early) :
    sealNonces w'.sec.calls = early := by
  rw [endpointNonces, endpointNonces, hcalls] at hnonces
  exact hnonces

variable {generated : Except Err KeyPair}

theorem clientHandshake_counts (hcalls : w.sec.calls = [])
    (hrun : (clientHandshake B P generated).run w = .ok () w') (hrole : w'.sec.isServer = false) :
    Counts false [helloNonce, initiateNonce, vouchNonce] 0 w'.sec := by
  have hnonces := clientHandshake_emits generated w () w' hrun
  obtain ⟨_, _, hrun⟩ := tail_eq_ok hrun
  obtain ⟨_, _, hrun⟩ := tail_eq_ok hrun
  obtain ⟨_, _, hrun⟩ := tail_eq_ok hrun
  obtain ⟨_, w₁, hfinish⟩ := tail_eq_ok hrun
  cases hfinish
  exact ⟨hrole, rfl, sealNonces_of_emitted hcalls hnonces⟩

theorem serverHandshake_counts {sealedAt openedAt : Int64} (hcalls : w.sec.calls = [])
    (hrun : (serverHandshake B P generated sealedAt openedAt).run w = .ok () w')
    (hrole : w'.sec.isServer = true) : Counts true [cookieNonce, readyNonce] 0 w'.sec := by
  have hnonces := serverHandshake_emits generated sealedAt openedAt w () w' hrun
  obtain ⟨_, _, hrun⟩ := tail_eq_ok hrun
  obtain ⟨_, w₁, hfinish⟩ := tail_eq_ok hrun
  cases hfinish
  exact ⟨hrole, rfl, sealNonces_of_emitted hcalls hnonces⟩

/-- Two sides that completed a handshake with each other never seal two boxes
for their shared key with the same nonce. -/
theorem shared_nonces_nodup {clientKeys serverKeys : KeyPair} {serverPermanent client server : Key}
    {clientConn serverConn : Conn} {sealedAt openedAt : Int64} {c s : Endpoint CurveSecurity}
    (hclient : (clientHandshake B P (.ok (B.pairOf client))).run
      ⟨newClientSecurity clientKeys serverPermanent, clientConn⟩ = .ok () c)
    (hserver : (serverHandshake B P (.ok (B.pairOf server)) sealedAt openedAt).run
      ⟨newServerSecurity serverKeys, serverConn⟩ = .ok () s)
    (hcs : Established B c.sec s.sec client server) (steps : List MessageStep)
    (hclientSteps : steps.countP (!·.byServer) < 2 ^ 63)
    (hserverSteps : steps.countP (·.byServer) < 2 ^ 63) :
    (sharedNonces B client server (messageRun B steps (c.sec, s.sec)).1.calls ++
      sharedNonces B client server (messageRun B steps (c.sec, s.sec)).2.calls).Nodup := by
  obtain ⟨hclientReady, hserverReady⟩ := hcs.sendReady
  obtain ⟨hclientCounts, hserverCounts⟩ := messageRun_counts B hclientReady hserverReady
    (clientHandshake_counts rfl hclient hcs.clientRole)
    (serverHandshake_counts rfl hserver hcs.serverRole)
    (by omega : 0 + steps.countP (!·.byServer) < 2 ^ 63)
    (by omega : 0 + steps.countP (·.byServer) < 2 ^ 63)
  have hall := nonces_nodup (n := 0 + steps.countP (!·.byServer))
    (m := 0 + steps.countP (·.byServer)) (by omega) (by omega)
  rw [← hclientCounts.nonces, ← hserverCounts.nonces] at hall
  exact hall.sublist ((sharedNonces_sublist B client server _).append
    (sharedNonces_sublist B client server _))

def threeMessages : List MessageStep :=
  [⟨false, [1], false⟩, ⟨true, [2], false⟩, ⟨false, [3], true⟩]

set_option maxRecDepth 4000 in
theorem three_messages_nonces_nodup :
    ∃ c s, Established xorBox c s (plainKey 3) (plainKey 4) ∧
      (sharedNonces xorBox (plainKey 3) (plainKey 4)
          (messageRun xorBox threeMessages (c, s)).1.calls ++
        sharedNonces xorBox (plainKey 3) (plainKey 4)
          (messageRun xorBox threeMessages (c, s)).2.calls).Nodup := by
  obtain ⟨own, hown⟩ := (opened_openMetadata .req []).marshalZmtp plainPlatform
  obtain ⟨own', hown'⟩ := (opened_openMetadata .rep []).marshalZmtp plainPlatform
  have hclient := clientHandshake_run xorBox (P := plainPlatform) (w := .withInput
    ⟨newClientSecurity (xorBox.pairOf (plainKey 1)) (plainKey 2), .fresh (openMetadata .req [])⟩
    (commandWire ⟨cmdWelcome, (xorBox.publicOf (plainKey 4)).bytes ++ (zeros 96 ++ zeros 40)⟩ ++
      (commandWire ⟨cmdReady, xorBox.sealBox [] readyNonce (xorBox.publicOf (plainKey 3))
        (plainKey 4)⟩ ++ []))) ⟨rfl, rfl⟩ (zeros_length 96) hown
    (show xorBox.openBox _ _ _ (xorBox.pairOf (plainKey 3)).secretKey = _ from
      xorBox.openBox_sealBox [] readyNonce (plainKey 4) (plainKey 3)) rfl (by decide) rfl
  have hfits := sealedInitiate_fits xorBox (xorBox.isPair_pairOf (plainKey 2)) (plainKey 1)
    (plainKey 3) (plainKey 4) (show (unmarshalZmtp plainPlatform []).run .empty = _ from rfl)
    (by decide)
  have haccepts := serverAccepts_run xorBox (w := .withInput
    ⟨newServerSecurity (xorBox.pairOf (plainKey 2)), .fresh (openMetadata .rep [])⟩
    (commandWire _ ++ (commandWire _ ++ []))) ⟨rfl, rfl⟩ (xorBox.isPair_pairOf (plainKey 2)) rfl
    (show 40 ≤ (zeros 40).length by decide) (show (0 : Int64) - 0 ≤ 60 by decide) hfits rfl
  have hserver := serverHandshake_run xorBox haccepts ⟨rfl, rfl⟩ hown' rfl rfl
  refine ⟨_, _, ?established,
    shared_nonces_nodup hclient hserver ?established threeMessages (by decide) (by decide)⟩
  exact ⟨rfl, rfl, ⟨_, rfl, rfl⟩, ⟨_, rfl, rfl⟩, ⟨rfl, rfl⟩, ⟨rfl, rfl⟩⟩

end Connection

end Zmq4.CurveNonces

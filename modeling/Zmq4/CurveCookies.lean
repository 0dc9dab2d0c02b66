import Zmq4.CurveHandshakeEffects

namespace Zmq4.CurveCookies

open ByteCodec DuplexProgram ProgramEffects ZmtpMessage Connection CommandStream
  BoxScheme CurveMechanism CurveFrames CurveHandshake CurveHandshakeRun CurveHandshakeEffects

structure ServerRun where
  sec : CurveSecurity
  conn : Conn
  generated : Except Err KeyPair
  sealedAt : Int64

def ServerRun.start (keys : KeyPair) (run : ServerRun) : Endpoint CurveSecurity where
  sec := { run.sec with keyPair := keys, calls := [] }
  conn := run.conn

def sealedUnder (keys : KeyPair) (calls : List BoxCall) : List (Nonce × Bytes) :=
  calls.filterMap fun call =>
    match call with
    | .sealed message nonce recipient secret =>
      if recipient = keys.publicKey ∧ secret = keys.secretKey then some (nonce, message) else none
    | .opened _ _ _ _ _ => none

variable (B : NaclBox) (keys : KeyPair)

/-- The cookies of a run: what it has sealed under the permanent pair when the
WELCOME is through, or when it failed before. -/
def ServerRun.cookies (run : ServerRun) : List (Nonce × Bytes) :=
  sealedUnder keys (finalState
    ((serverWelcomes B run.generated run.sealedAt).run (run.start keys))).sec.calls

def CookiesApart (runs : List ServerRun) : Prop :=
  (runs.flatMap (ServerRun.cookies B keys)).Pairwise fun first second =>
    first.1 = second.1 → first.2 = second.2

def FreshKeys (runs : List ServerRun) : Prop :=
  runs.Pairwise fun first second => ∀ pair pair', first.generated = .ok pair →
    second.generated = .ok pair' → pair.secretKey ≠ pair'.secretKey

structure ServerRun.Welcomes (run : ServerRun) : Prop where
  notClosed : run.conn.closed = false
  hello : ∃ wire cmd rest, CommandFrame wire cmd ∧ run.conn.rw.input = wire ++ rest ∧
    AcceptableHello cmd
  generates : ∃ pair, run.generated = .ok pair

section Cookies

variable {B} {keys}

theorem sealedUnder_append (calls later : List BoxCall) :
    sealedUnder keys (calls ++ later) = sealedUnder keys calls ++ sealedUnder keys later :=
  List.filterMap_append

theorem lasting_sealedUnder : Lasting (fun w => sealedUnder keys w.sec.calls) where
  input _ _ _ := rfl
  closed _ := rfl
  peerMeta _ _ := rfl
  fields _ _ hcalls _ _ := congrArg (sealedUnder keys) hcalls
  opened w _ _ _ _ _ := (sealedUnder_append w.sec.calls _).trans (List.append_nil _)

theorem sendWelcome_cookie {w : Endpoint CurveSecurity} {client server : KeyPair}
    (hkeys : w.sec.keyPair = keys) (hclient : w.sec.clientTransient = some client)
    (hserver : w.sec.serverTransient = some server) (now : Int64) :
    sealedUnder keys (finalState ((sendWelcome B now).run w)).sec.calls =
      sealedUnder keys w.sec.calls ++
        [(cookieNonce, cookiePlain client.publicKey server.secretKey now)] := by
  subst hkeys
  rw [sendWelcome, bind_ok (getSec_run w), bind_ok (deref_run hserver w),
    bind_ok (deref_run hclient w), bind_ok (seal_run B _ _ _ _ w)]
  refine (Keeps.bind (f := fun v : Endpoint CurveSecurity => sealedUnder w.sec.keyPair
    v.sec.calls) (Keeps.require _) (fun _ v => ?_) _).trans ?_
  · exact congrArg (fun s : CurveSecurity => sealedUnder w.sec.keyPair s.calls)
      (sendCmd_keeps_sec rfl _ v)
  · refine (sealedUnder_append w.sec.calls _).trans ?_
    simp [sealedUnder]

variable {run : ServerRun} (keys)

theorem cookies_of_welcomes (hwelcomes : run.Welcomes) {pair : KeyPair}
    (hpair : run.generated = .ok pair) :
    ∃ plain, run.cookies B keys = [(cookieNonce, plain)] ∧
      slice plain 32 64 = pair.secretKey.bytes := by
  obtain ⟨wire, cmd, rest, hwire, hinput, hcmd⟩ := hwelcomes.hello
  let begun := (run.start keys).withSec { (run.start keys).sec with handshakeState := .init }
  let clientTransient := keyOf (slice cmd.body 64 96)
  have hhello := (serverHello_eq_ok_iff B (w := begun)
    (show HandshakeState.init ≠ .complete by decide)).mpr
      ⟨hwelcomes.notClosed, wire, cmd, rest, hwire, hinput, hcmd, rfl⟩
  refine ⟨cookiePlain clientTransient pair.secretKey run.sealedAt, ?_,
    slice_append (key_length clientTransient) (by rw [key_length])⟩
  let keyed := (begun.withInput rest).withSec
    { begun.sec with
      clientTransient := some (publicOnly clientTransient)
      serverTransient := some pair
      handshakeState := .hello }
  rw [ServerRun.cookies, serverWelcomes, hpair, bind_ok (setState_run .init (run.start keys)),
    bind_ok hhello, bind_ok (serverKeys_run pair _), serverWelcome,
    bind_ok (setState_run .welcome _), finalState_wrapping]
  exact sendWelcome_cookie (w := keyed.withSec { keyed.sec with handshakeState := .welcome }) rfl
    (show _ = some (publicOnly clientTransient) from rfl) (show _ = some pair from rfl) run.sealedAt

theorem cookies_of_not_welcomes (hwelcomes : ¬ run.Welcomes) : run.cookies B keys = [] := by
  let begun := (run.start keys).withSec { (run.start keys).sec with handshakeState := .init }
  rw [ServerRun.cookies, serverWelcomes, bind_ok (setState_run .init (run.start keys))]
  cases hhello : (serverHello B).run begun with
  | error stop w₁ =>
    rw [bind_error hhello]
    exact (serverHello_keeps lasting_sealedUnder).of_error hhello
  | ok u w₁ =>
    obtain ⟨hopen, wire, cmd, rest, hwire, hinput, hcmd, -⟩ := (serverHello_eq_ok_iff B (w := begun)
      (show HandshakeState.init ≠ .complete by decide)).mp hhello
    have hfails : ∀ u w₂, (serverKeys run.generated).run w₁ ≠ .ok u w₂ := by
      intro u w₂ hkeys
      cases hgenerated : run.generated with
      | ok pair => exact hwelcomes ⟨hopen, ⟨wire, cmd, rest, hwire, hinput, hcmd⟩, pair, hgenerated⟩
      | error err =>
        rw [hgenerated] at hkeys
        cases hkeys
    rw [bind_ok hhello]
    exact (Keeps.bind_stuck (serverKeys_keeps lasting_sealedUnder _) hfails).1.trans
      ((serverHello_keeps lasting_sealedUnder).of_ok hhello)

theorem cookies_clash {first second : ServerRun} (hfirst : first.Welcomes)
    (hsecond : second.Welcomes) {pair pair' : KeyPair} (hpair : first.generated = .ok pair)
    (hpair' : second.generated = .ok pair') (hdistinct : pair.secretKey ≠ pair'.secretKey) :
    ∃ cookie ∈ first.cookies B keys, ∃ cookie' ∈ second.cookies B keys,
      cookie.1 = cookie'.1 ∧ cookie.2 ≠ cookie'.2 := by
  obtain ⟨plain, hcookies, hsecret⟩ := cookies_of_welcomes (B := B) keys hfirst hpair
  obtain ⟨plain', hcookies', hsecret'⟩ := cookies_of_welcomes (B := B) keys hsecond hpair'
  refine ⟨(cookieNonce, plain), by simp [hcookies], (cookieNonce, plain'), by simp [hcookies'],
    rfl, ?_⟩
  intro hplain
  apply hdistinct
  apply FixedBytes.ext_bytes
  change plain = plain' at hplain
  rw [← hsecret, ← hsecret', hplain]

end Cookies

/-- With fresh transient keys, the nonce of the cookies is safe for one run
only. -/
theorem cookiesApart_iff {runs : List ServerRun} (hfresh : FreshKeys runs) :
    CookiesApart B keys runs ↔
      runs.Pairwise fun first second => ¬ (first.Welcomes ∧ second.Welcomes) := by
  rw [CookiesApart, List.pairwise_flatMap]
  have hsingle : ∀ run ∈ runs, (run.cookies B keys).Pairwise fun first second =>
      first.1 = second.1 → first.2 = second.2 := by
    intro run _
    by_cases hwelcomes : run.Welcomes
    · obtain ⟨pair, hpair⟩ := hwelcomes.generates
      obtain ⟨plain, hcookies, -⟩ := cookies_of_welcomes (B := B) keys hwelcomes hpair
      rw [hcookies]
      exact List.pairwise_singleton _ _
    · rw [cookies_of_not_welcomes keys hwelcomes]
      exact .nil
  constructor
  · rintro ⟨-, hapart⟩
    refine (hapart.and hfresh).imp ?_
    rintro first second ⟨hsame, hdistinct⟩ ⟨hfirst, hsecond⟩
    obtain ⟨pair, hpair⟩ := hfirst.generates
    obtain ⟨pair', hpair'⟩ := hsecond.generates
    obtain ⟨cookie, hcookie, cookie', hcookie', hnonce, hplain⟩ :=
      cookies_clash (B := B) keys hfirst hsecond hpair hpair' (hdistinct pair pair' hpair hpair')
    exact hplain (hsame cookie hcookie cookie' hcookie' hnonce)
  · intro hlone
    refine ⟨hsingle, hlone.imp ?_⟩
    intro first second hnot cookie hcookie cookie' hcookie'
    by_cases hfirst : first.Welcomes
    · rw [cookies_of_not_welcomes keys fun hsecond => hnot ⟨hfirst, hsecond⟩] at hcookie'
      cases hcookie'
    · rw [cookies_of_not_welcomes keys hfirst] at hcookie
      cases hcookie

def runOn (input : Bytes) (transient : Key) : ServerRun where
  sec := newServerSecurity (xorBox.pairOf (plainKey 2))
  conn := (Endpoint.withInput ⟨(), Conn.fresh (openMetadata .rep [])⟩ input).conn
  generated := .ok (xorBox.pairOf transient)
  sealedAt := 0

def someHello : Cmd where
  name := cmdHello
  body := helloBody (xorBox.publicOf (plainKey 1)) (zeros 40)

theorem runOn_hello_welcomes (transient : Key) :
    (runOn (commandWire someHello) transient).Welcomes where
  notClosed := rfl
  hello := by
    have hsize : 1 + someHello.name.length + someHello.body.length ≤ maxInt64 := by
      rw [someHello, helloBody_length _ (by decide)]
      decide
    have hframe : CommandFrame (commandWire someHello) someHello :=
      commandFrame_commandWire (by decide) hsize
    have haccepts := acceptHello_run (establishedEnd true) (xorBox.publicOf (plainKey 1))
      (show 40 ≤ (zeros 40).length by decide)
    exact ⟨_, someHello, [], hframe, (List.append_nil _).symm,
      (acceptHello_eq_ok_iff.mp haccepts).1⟩
  generates := ⟨_, rfl⟩

theorem freshKeys_pair {input input' : Bytes} {transient transient' : Key}
    (hne : transient ≠ transient') :
    FreshKeys [runOn input transient, runOn input' transient'] := by
  refine List.pairwise_pair.mpr ?_
  rintro pair pair' ⟨⟩ ⟨⟩
  exact hne

theorem lone_cookie_apart :
    CookiesApart xorBox (xorBox.pairOf (plainKey 2))
      [runOn (commandWire someHello) (plainKey 3), runOn [] (plainKey 4)] := by
  refine (cookiesApart_iff xorBox _ (freshKeys_pair (by decide))).mpr ?_
  refine List.pairwise_pair.mpr ?_
  rintro ⟨-, -, ⟨wire, cmd, rest, ⟨flag, field, body, rfl, -⟩, hinput, -⟩, -⟩
  cases hinput

theorem two_cookies_clash :
    FreshKeys [runOn (commandWire someHello) (plainKey 3),
      runOn (commandWire someHello) (plainKey 4)] ∧
    ¬ CookiesApart xorBox (xorBox.pairOf (plainKey 2))
      [runOn (commandWire someHello) (plainKey 3), runOn (commandWire someHello) (plainKey 4)] := by
  refine ⟨freshKeys_pair (by decide), ?_⟩
  rw [CookiesApart, List.pairwise_flatMap]
  rintro ⟨-, hapart⟩
  obtain ⟨cookie, hcookie, cookie', hcookie', hnonce, hplain⟩ :=
    cookies_clash (B := xorBox) (xorBox.pairOf (plainKey 2)) (runOn_hello_welcomes (plainKey 3))
      (runOn_hello_welcomes (plainKey 4)) rfl rfl (by decide)
  exact hplain (List.pairwise_pair.mp hapart cookie hcookie cookie' hcookie' hnonce)

end Zmq4.CurveCookies

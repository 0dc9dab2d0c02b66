import Mathlib.Data.List.Rotate
import Zmq4.ActionRuns
import Zmq4.RequestReply

namespace Zmq4.RequestRoundRobin

open DuplexProgram ActionRuns ZmtpMessage RequestReply

variable {κ : Type}

/-- What `SendMsg` answers to the attempts of a write in turn, and the connections
tried so far. -/
structure Attempts (κ : Type) where
  answers : Nat → Option Err
  tried : List κ

def Attempts.sendMsg (conn : κ) : Program (Attempts κ) Unit := fun net =>
  match net.answers net.tried.length with
  | none => .ok () { net with tried := net.tried ++ [conn] }
  | some err => .error (.fail err) { net with tried := net.tried ++ [conn] }

def attempts : Transport κ (Attempts κ) where
  sendMsg conn _ := Attempts.sendMsg conn
  read _ := throw .blocked

abbrev ReqWriter (κ : Type) := ReqSocket κ (Attempts κ)

namespace ReqWriter

def write (s : ReqWriter κ) (msg : Msg) (answers : Nat → Option Err) :
    EStateM.Result Stop (ReqWriter κ) Unit :=
  (reqWriterWrite attempts msg).run { s with net := { answers, tried := [] } }

inductive Action (κ : Type)
  | addConn (conn : κ)
  | rmConn (conn : κ)
  | write (msg : Msg) (answers : Nat → Option Err)

/-- A connection is added once, when it has been opened.  A write that panics has no
next state. -/
def step [DecidableEq κ] (s : ReqWriter κ) : Action κ → Option (ReqWriter κ)
  | .addConn conn => if conn ∈ s.conns then none else some { s with conns := s.conns ++ [conn] }
  | .rmConn conn =>
    some { s with
      conns := s.conns.erase conn
      lastConn := if s.lastConn = some conn then none else s.lastConn }
  | .write msg answers =>
    match s.write msg answers with
    | .ok () s' => some s'
    | .error (.fail _) s' => some s'
    | .error _ _ => none

def newReqWriter (κ : Type) : ReqWriter κ where
  conns := []
  nextConn := 0
  lastConn := none
  net := { answers := fun _ => none, tried := [] }

/-- The write tries the connections in a cyclic order that has the last successful one
at its end.  It stops at the first that accepts, which becomes the last successful
one, and fails when none does. -/
def InTurn (s : ReqWriter κ) (answers : Nat → Option Err)
    (result : EStateM.Result Stop (ReqWriter κ) Unit) : Prop :=
  ∃ row, s.conns ~r row ∧ (∀ last, s.lastConn = some last → row.getLast? = some last) ∧
    match result with
    | .ok () s' =>
      ∃ before conn after, row = before ++ conn :: after ∧ s'.net.tried = before ++ [conn] ∧
        (∀ i < before.length, answers i ≠ none) ∧ answers before.length = none ∧
        s'.lastConn = some conn
    | .error (.fail _) s' => s'.net.tried = row ∧ ∀ i < row.length, answers i ≠ none
    | .error _ _ => False

def TakesTurns (s : ReqWriter κ) : Action κ → Prop
  | .write msg answers => s.InTurn answers (s.write msg answers)
  | .addConn _ | .rmConn _ => True

def cursor (s : ReqWriter κ) : Nat :=
  s.nextConn % s.conns.length

/-- There is no connection, or the cursor is behind the last successful one and either
at the front or followed by a connection that accepts. -/
def Fair (s : ReqWriter κ) : Action κ → Prop
  | .write _ answers =>
    s.conns = [] ∨
      (∀ last, s.lastConn = some last → (s.conns.rotate s.cursor).getLast? = some last) ∧
        (s.cursor = 0 ∨ ∃ i, i + s.cursor < s.conns.length ∧ answers i = none)
  | .addConn _ | .rmConn _ => True

section Attempts

variable {s : ReqWriter κ} {msg : Msg} {answers : Nat → Option Err} {left i : Nat}
  {err : Option Err}

def tries (s : ReqWriter κ) (answers : Nat → Option Err) (i : Nat) : ReqWriter κ :=
  { s with net := { answers, tried := (s.conns.drop s.cursor).take i } }

theorem tryConns_out_of_range (hi : s.conns.length ≤ i + s.cursor) :
    (tryConns attempts msg (left + 1) i err).run (s.tries answers i) =
      .error (.panicked "index out of range") (s.tries answers i) := by
  have hnone : (s.tries answers i).conns[i + (s.tries answers i).nextConn %
      (s.tries answers i).conns.length]? = none :=
    List.getElem?_eq_none hi
  rw [tryConns, bind_ok (EStateM.run_get _)]
  dsimp only
  rw [hnone]
  rfl

theorem length_tries (answers : Nat → Option Err) (hi : i + s.cursor ≤ s.conns.length) :
    (s.tries answers i).net.tried.length = i := by
  rw [tries, List.length_take, List.length_drop]
  omega

theorem tries_succ {conn : κ} (answers : Nat → Option Err)
    (hconn : s.conns[i + s.cursor]? = some conn) :
    { s.tries answers i with
      net := { answers, tried := (s.tries answers i).net.tried ++ [conn] } } =
        s.tries answers (i + 1) := by
  unfold tries
  rw [List.take_add_one, List.getElem?_drop, Nat.add_comm, hconn]
  rfl

section Round

variable {conn : κ} (hconn : s.conns[i + s.cursor]? = some conn)

include hconn

theorem tryConns_round :
    (tryConns attempts msg (left + 1) i err).run (s.tries answers i) =
      (rescue (tryConn attempts msg (i + s.cursor) conn) fun failure =>
        tryConns attempts msg left (i + 1) (some failure)).run (s.tries answers i) := by
  have hcur : (s.tries answers i).conns[i + (s.tries answers i).nextConn %
      (s.tries answers i).conns.length]? = some conn := hconn
  rw [tryConns, bind_ok (EStateM.run_get _)]
  dsimp only
  rw [hcur]
  rfl

theorem answer_tries : (s.tries answers i).net.answers (s.tries answers i).net.tried.length =
    answers i := by
  rw [length_tries answers (List.getElem?_eq_some_iff.mp hconn).1.le]
  rfl

theorem tryConns_refused {failure : Err} (hanswer : answers i = some failure) :
    (tryConns attempts msg (left + 1) i err).run (s.tries answers i) =
      (tryConns attempts msg left (i + 1) (some failure)).run (s.tries answers (i + 1)) := by
  have hsend : (onReqNet (attempts.sendMsg conn msg)).run (s.tries answers i) =
      .error (.fail failure) (s.tries answers (i + 1)) := by
    rw [← tries_succ answers hconn]
    refine zoom_error ?_
    simp only [attempts, Attempts.sendMsg, EStateM.run, (answer_tries hconn).trans hanswer]
    rfl
  rw [tryConns_round hconn]
  exact rescue_fail (bind_error hsend)

theorem tryConns_accepted (hanswer : answers i = none) :
    (tryConns attempts msg (left + 1) i err).run (s.tries answers i) =
      .ok () { s.tries answers (i + 1) with
        nextConn := i + s.cursor + 1 % s.conns.length
        lastConn := some conn } := by
  have hsend : (onReqNet (attempts.sendMsg conn msg)).run (s.tries answers i) =
      .ok () (s.tries answers (i + 1)) := by
    rw [← tries_succ answers hconn]
    refine zoom_ok ?_
    simp only [attempts, Attempts.sendMsg, EStateM.run, (answer_tries hconn).trans hanswer]
    rfl
  rw [tryConns_round hconn]
  exact rescue_ok (bind_ok hsend)

end Round

variable (msg)

theorem write_after (hi : i + s.cursor ≤ s.conns.length) (hrefused : ∀ m < i, answers m ≠ none) :
    ∃ err, s.write msg answers =
      (tryConns attempts (requestMsg msg) (s.conns.length - i) i err).run (s.tries answers i) := by
  induction i with
  | zero =>
    refine ⟨none, ?_⟩
    rw [write, reqWriterWrite, bind_ok (EStateM.run_get _)]
    rfl
  | succ i ih =>
    obtain ⟨err, hrun⟩ := ih (by omega) fun m hm => hrefused m (by omega)
    obtain ⟨failure, hfailure⟩ := Option.ne_none_iff_exists'.mp (hrefused i (by omega))
    have hlt : i + s.cursor < s.conns.length := by omega
    refine ⟨some failure, ?_⟩
    rw [hrun, show s.conns.length - i = s.conns.length - (i + 1) + 1 by omega]
    exact tryConns_refused (List.getElem?_eq_getElem hlt) hfailure

theorem write_accepted {j : Nat} (hj : j + s.cursor < s.conns.length)
    (hrefused : ∀ m < j, answers m ≠ none) (hanswer : answers j = none) :
    s.write msg answers = .ok () { s.tries answers (j + 1) with
      nextConn := j + s.cursor + 1 % s.conns.length
      lastConn := some s.conns[j + s.cursor] } := by
  obtain ⟨err, hrun⟩ := write_after msg hj.le hrefused
  rw [hrun, show s.conns.length - j = s.conns.length - j - 1 + 1 by omega]
  exact tryConns_accepted (List.getElem?_eq_getElem hj) hanswer

section Refused

variable (hrefused : ∀ m, m + s.cursor < s.conns.length → answers m ≠ none)

include hrefused

theorem write_fails (hcursor : s.cursor = 0) :
    ∃ failure, s.write msg answers = .error (.fail failure) (s.tries answers s.conns.length) := by
  have hall : s.conns.length + s.cursor ≤ s.conns.length := by omega
  obtain ⟨err, hrun⟩ := write_after msg hall fun m hm => hrefused m (by omega)
  refine ⟨noConnections err, ?_⟩
  rw [hrun, Nat.sub_self]
  rfl

theorem write_panics (hcursor : s.cursor ≠ 0) (hle : s.cursor ≤ s.conns.length) :
    ∃ s', s.write msg answers = .error (.panicked "index out of range") s' := by
  have hall : s.conns.length - s.cursor + s.cursor ≤ s.conns.length := by omega
  obtain ⟨err, hrun⟩ := write_after msg hall fun m hm => hrefused m (by omega)
  rw [show s.conns.length - (s.conns.length - s.cursor) = s.cursor - 1 + 1 by omega] at hrun
  exact ⟨_, hrun.trans (tryConns_out_of_range (by omega))⟩

end Refused

theorem write_empty (hnil : s.conns = []) :
    s.write msg answers = .error (.fail (noConnections none)) (s.tries answers s.conns.length) := by
  have hwrite : s.write msg answers =
      (tryConns attempts (requestMsg msg) s.conns.length 0 none).run
        { s with net := { answers, tried := [] } } := by
    rw [write, reqWriterWrite, bind_ok (EStateM.run_get _)]
  rw [hwrite, tries, hnil, List.drop_nil, List.take_nil]
  rfl

variable (s answers)

theorem write_cases :
    (∃ j, ∃ hj : j + s.cursor < s.conns.length, (∀ m < j, answers m ≠ none) ∧ answers j = none ∧
      s.write msg answers = .ok () { s.tries answers (j + 1) with
        nextConn := j + s.cursor + 1 % s.conns.length
        lastConn := some s.conns[j + s.cursor] }) ∨
    (∀ m, m + s.cursor < s.conns.length → answers m ≠ none) ∧
      ((s.conns = [] ∨ s.cursor = 0) ∧
        (∃ failure, s.write msg answers = .error (.fail failure) (s.tries answers s.conns.length)) ∨
      (s.conns ≠ [] ∧ s.cursor ≠ 0) ∧
        ∃ s', s.write msg answers = .error (.panicked "index out of range") s') := by
  by_cases haccepts : ∃ i, i + s.cursor < s.conns.length ∧ answers i = none
  · left
    obtain ⟨hj, hanswer⟩ := Nat.find_spec haccepts
    have hrefused : ∀ m < Nat.find haccepts, answers m ≠ none := by
      intro m hm hnone
      exact Nat.find_min haccepts hm ⟨by omega, hnone⟩
    exact ⟨_, hj, hrefused, hanswer, write_accepted msg hj hrefused hanswer⟩
  · have hrefused : ∀ m, m + s.cursor < s.conns.length → answers m ≠ none :=
      fun m hm hnone => haccepts ⟨m, hm, hnone⟩
    refine Or.inr ⟨hrefused, ?_⟩
    rcases eq_or_ne s.conns [] with hnil | hne
    · exact Or.inl ⟨Or.inl hnil, _, write_empty msg hnil⟩
    have hcursor : s.cursor < s.conns.length := Nat.mod_lt _ (List.length_pos_of_ne_nil hne)
    rcases eq_or_ne s.cursor 0 with hzero | hpos
    · exact Or.inl ⟨Or.inr hzero, write_fails msg hrefused hzero⟩
    · exact Or.inr ⟨⟨hne, hpos⟩, write_panics msg hrefused hpos hcursor.le⟩

end Attempts

section Turns

variable {s : ReqWriter κ} {answers : Nat → Option Err} {row : List κ}

theorem eq_rotate_of_head (hnodup : s.conns.Nodup) (hrow : s.conns ~r row)
    (hcursor : s.cursor < s.conns.length) (hhead : row.head? = s.conns[s.cursor]?) :
    row = s.conns.rotate s.cursor := by
  obtain ⟨start, rfl⟩ := hrow
  have hlt : start % s.conns.length < s.conns.length := Nat.mod_lt _ (by omega)
  rw [← List.rotate_mod, List.head?_rotate hlt] at hhead
  rw [← List.rotate_mod, (List.getElem?_inj hlt hnodup).mp hhead]

theorem head_tries {j : Nat} (hcursor : s.cursor < s.conns.length) :
    (s.tries answers (j + 1)).net.tried.head? = s.conns[s.cursor]? := by
  rw [tries, List.drop_eq_getElem_cons hcursor, List.take_succ_cons, List.head?_cons,
    List.getElem?_eq_getElem hcursor]

theorem rotate_split {j : Nat} (hj : j + s.cursor < s.conns.length) :
    ∃ after, s.conns.rotate s.cursor =
      (s.conns.drop s.cursor).take j ++ s.conns[j + s.cursor] :: after := by
  have hlength : j < (s.conns.drop s.cursor).length := by
    rw [List.length_drop]
    omega
  have hconn : (s.conns.drop s.cursor)[j] = s.conns[j + s.cursor] := by
    rw [List.getElem_drop]
    simp only [Nat.add_comm]
  have hdrop := List.take_append_drop j (s.conns.drop s.cursor)
  rw [List.drop_eq_getElem_cons hlength, hconn] at hdrop
  refine ⟨(s.conns.drop s.cursor).drop (j + 1) ++ s.conns.take s.cursor, ?_⟩
  rw [List.rotate_eq_drop_append_take (by omega), ← List.cons_append, ← List.append_assoc, hdrop]

theorem inTurn_accepted_iff {s' : ReqWriter κ} {j : Nat} (hnodup : s.conns.Nodup)
    (hj : j + s.cursor < s.conns.length) (hrefused : ∀ m < j, answers m ≠ none)
    (hanswer : answers j = none) (htried : s'.net.tried = (s.tries answers (j + 1)).net.tried)
    (hlast : s'.lastConn = some s.conns[j + s.cursor]) :
    s.InTurn answers (.ok () s') ↔
      ∀ last, s.lastConn = some last → (s.conns.rotate s.cursor).getLast? = some last := by
  have hcursor : s.cursor < s.conns.length := by omega
  constructor
  · rintro ⟨row, hrow, hbehind, before, conn, after, hsplit, htried', -⟩
    have hhead : row.head? = s.conns[s.cursor]? := by
      have htries : (s.tries answers (j + 1)).net.tried.head? = _ := head_tries hcursor
      rw [← htries, ← htried, htried', hsplit]
      cases before <;> rfl
    rw [← eq_rotate_of_head hnodup hrow hcursor hhead]
    exact hbehind
  · intro hbehind
    obtain ⟨after, hsplit⟩ := rotate_split hj
    have hbefore : ((s.conns.drop s.cursor).take j).length = j := length_tries answers hj.le
    refine ⟨_, ⟨s.cursor, rfl⟩, hbehind, _, _, after, hsplit, ?_, ?_, ?_, hlast⟩
    · rw [htried, ← tries_succ answers (List.getElem?_eq_getElem hj)]
      rfl
    · rw [hbefore]
      exact hrefused
    · rw [hbefore]
      exact hanswer

theorem inTurn_refused_iff {failure : Err} (hfront : s.conns = [] ∨ s.cursor = 0)
    (hrefused : ∀ m, m + s.cursor < s.conns.length → answers m ≠ none) :
    s.InTurn answers (.error (.fail failure) (s.tries answers s.conns.length)) ↔
      ∀ last, s.lastConn = some last → s.conns.getLast? = some last := by
  have htried : (s.tries answers s.conns.length).net.tried = s.conns := by
    rw [tries]
    rcases hfront with hnil | hzero
    · rw [hnil, List.drop_nil, List.take_nil]
    · rw [hzero, List.drop_zero, List.take_length]
  constructor
  · rintro ⟨row, -, hbehind, hrow, -⟩
    rw [← hrow, htried] at hbehind
    exact hbehind
  · intro hbehind
    refine ⟨s.conns, .refl _, hbehind, htried, ?_⟩
    intro i hi
    rcases hfront with hnil | hzero
    · rw [hnil] at hi
      cases hi
    · exact hrefused i (by omega)

theorem takesTurns_write_iff (hnodup : s.conns.Nodup)
    (hlast : ∀ last, s.lastConn = some last → last ∈ s.conns) (msg : Msg) :
    s.TakesTurns (.write msg answers) ↔ s.Fair (.write msg answers) := by
  rw [TakesTurns, Fair]
  rcases write_cases s msg answers with ⟨j, hj, hrefused, hanswer, hwrite⟩ |
    ⟨hrefused, ⟨hfront, failure, hwrite⟩ | ⟨⟨hne, hpos⟩, s', hwrite⟩⟩
  · have hne : s.conns ≠ [] := List.ne_nil_of_length_pos (by omega)
    rw [hwrite, or_iff_right hne, and_iff_left (Or.inr ⟨j, hj, hanswer⟩)]
    exact inTurn_accepted_iff hnodup hj hrefused hanswer rfl rfl
  · rw [hwrite, inTurn_refused_iff hfront hrefused]
    have hempty : s.conns = [] → ∀ last, s.lastConn = some last → s.conns.getLast? = some last := by
      intro hnil last hsome
      have hmem := hlast last hsome
      rw [hnil] at hmem
      cases hmem
    rcases hfront with hnil | hzero
    · exact iff_of_true (hempty hnil) (Or.inl hnil)
    · rw [and_iff_left (Or.inl hzero), hzero, List.rotate_zero]
      exact ⟨Or.inr, fun hfair => hfair.elim hempty id⟩
  · rw [hwrite]
    apply iff_of_false
    · rintro ⟨row, -, -, hfalse⟩
      exact hfalse
    · rintro (hnil | ⟨-, hzero | ⟨i, hi, hnone⟩⟩)
      · exact hne hnil
      · exact hpos hzero
      · exact hrefused i hi hnone

end Turns

section Runs

variable [DecidableEq κ] {s s' : ReqWriter κ} {action : Action κ}

/-- A connection is registered once, and the last successful one until it is
removed. -/
structure Registered (s : ReqWriter κ) : Prop where
  nodup : s.conns.Nodup
  last : ∀ last, s.lastConn = some last → last ∈ s.conns

theorem registered_step (hs : s.Registered) (hstep : s.step action = some s') : s'.Registered := by
  cases action with
  | addConn conn =>
    obtain ⟨hnew, ⟨⟩⟩ := Option.ite_none_left_eq_some.mp hstep
    constructor
    · exact List.concat_eq_append ▸ hs.nodup.concat hnew
    · exact fun last hlast => List.mem_append_left _ (hs.last last hlast)
  | rmConn conn =>
    cases hstep
    constructor
    · exact hs.nodup.erase conn
    · intro last hlast
      obtain ⟨hne, hlast⟩ := Option.ite_none_left_eq_some.mp hlast
      have hother : last ≠ conn := fun heq => hne (heq ▸ hlast)
      exact (List.mem_erase_of_ne hother).mpr (hs.last last hlast)
  | write msg answers =>
    rw [step] at hstep
    rcases write_cases s msg answers with ⟨j, hj, -, -, hwrite⟩ |
      ⟨-, ⟨-, failure, hwrite⟩ | ⟨-, crashed, hwrite⟩⟩
    · rw [hwrite] at hstep
      cases hstep
      refine ⟨hs.nodup, fun last hlast => ?_⟩
      cases hlast
      exact List.getElem_mem hj
    · rw [hwrite] at hstep
      cases hstep
      exact ⟨hs.nodup, hs.last⟩
    · rw [hwrite] at hstep
      cases hstep

/-- In every run, whatever `SendMsg` answers: all writes take turns if and only if each
of them is fair. -/
theorem writes_take_turns_iff (actions : List (Action κ)) :
    Throughout step TakesTurns (newReqWriter κ) actions ↔
      Throughout step Fair (newReqWriter κ) actions := by
  have hregistered : Throughout step (fun s _ => s.Registered) (newReqWriter κ) actions := by
    apply throughout_of_invariant (I := Registered)
    · exact fun s action s' hs hstep => registered_step hs hstep
    · exact fun s action hs => hs
    · exact ⟨List.nodup_nil, nofun⟩
  apply throughout_congr _ hregistered
  intro s action hs
  cases action with
  | addConn | rmConn => exact Iff.rfl
  | write msg answers => exact takesTurns_write_iff hs.nodup hs.last msg

end Runs

def request : Msg :=
  newMsgFrom [[1]]

/-- With two connections and the cursor at the second, a write that the second one
refuses panics, although the first one would accept it.  A single connection that has
taken a request is first in turn again when another one has been added. -/
theorem refused_write_panics :
    (∃ s s', run step (newReqWriter Nat) [.addConn 0, .addConn 1, .write request fun _ => none] =
          some s ∧
        s.write request (fun i => if i = 0 then some .eof else none) =
          .error (.panicked "index out of range") s') ∧
      ∃ s s', run step (newReqWriter Nat) [.addConn 0, .write request fun _ => none, .addConn 1] =
          some s ∧
        s.write request (fun _ => none) = .ok () s' ∧ s.lastConn = some 0 ∧ s'.net.tried = [0] :=
  ⟨⟨_, _, rfl, rfl⟩, ⟨_, _, rfl, rfl, rfl, rfl⟩⟩

end ReqWriter

end Zmq4.RequestRoundRobin

import Zmq4.BufferReader

namespace Zmq4.CutBuffers

open ByteCodec BufferReader
open DuplexProgram hiding readFull

variable {α β : Type}

def Refuses (x : Reader α) (buffer : Bytes) : Prop :=
  ∃ err rest, x.run buffer = .error (.fail err) rest

variable {f : α → Reader β} {a : α}

namespace Refuses

variable {x : Reader α} {buffer : Bytes}

theorem bind (hx : Refuses x buffer) (f : α → Reader β) : Refuses (x >>= f) buffer := by
  obtain ⟨err, rest, hrun⟩ := hx
  exact ⟨err, rest, bind_error hrun⟩

theorem bind_of_ok {rest : Bytes} (hx : x.run buffer = .ok a rest) (hf : Refuses (f a) rest) :
    Refuses (x >>= f) buffer := by
  obtain ⟨err, left, hrun⟩ := hf
  exact ⟨err, left, (bind_ok hx).trans hrun⟩

theorem wrapping (hx : Refuses x buffer) (message : String) :
    Refuses (wrapping message x) buffer := by
  obtain ⟨err, rest, hrun⟩ := hx
  exact ⟨.wrap message err, rest, (rescue_fail hrun).trans rfl⟩

theorem decode (hx : Refuses x buffer) : ∃ err, decode x buffer = .error (.fail err) := by
  obtain ⟨err, rest, hrun⟩ := hx
  exact ⟨err, by rw [BufferReader.decode, hrun]⟩

theorem onRest (hx : Refuses x buffer) : Refuses (onRest x) buffer := by
  obtain ⟨err, hdecode⟩ := hx.decode
  have hrest : readRest.run buffer = .ok buffer [] := rfl
  refine ⟨err, [], ?_⟩
  rw [BufferReader.onRest, bind_ok hrest, hdecode]
  rfl

end Refuses

theorem refuses_readByte_nil : Refuses readByte [] :=
  ⟨.eof, [], rfl⟩

theorem refuses_readSome_nil (size : Nat) : Refuses (readSome size) [] :=
  ⟨.eof, [], rfl⟩

theorem refuses_readFull {size : Nat} {buffer : Bytes} (hshort : buffer.length < size) :
    Refuses (readFull size) buffer := by
  refine ⟨if buffer = [] then .eof else .unexpectedEof, [], ?_⟩
  exact if_neg (by omega)

theorem refuses_readUint {width : Nat} {buffer : Bytes} (hshort : buffer.length < width) :
    Refuses (readUint width) buffer :=
  (refuses_readFull hshort).bind _

structure Cut (x : Reader α) (field : Bytes) (slack : Nat) : Prop where
  slack_le : slack ≤ field.length
  refuses : ∀ d, d <+: field → d.length < field.length → d.length + slack ≤ field.length →
    Refuses x d
  accepts : ∀ d, d <+: field → d.length < field.length → field.length < d.length + slack →
    ∃ a, x.run d = .ok a []

def ReadsOn (x : Reader α) (field : Bytes) (a : α) : Prop :=
  ∀ rest, x.run (field ++ rest) = .ok a rest ∨ rest = [] ∧ Refuses x field

variable {field : Bytes}

theorem readsOn_of_reads {x : Reader α} (hx : Reads x field a) : ReadsOn x field a :=
  fun rest => Or.inl (hx rest)

theorem ReadsOn.wrapping {x : Reader α} (message : String) (hx : ReadsOn x field a) :
    ReadsOn (wrapping message x) field a := by
  intro rest
  rcases hx rest with hrun | ⟨hrest, hrefuses⟩
  · exact Or.inl (wrapping_ok hrun)
  · exact Or.inr ⟨hrest, hrefuses.wrapping message⟩

theorem readsOn_readSome (field : Bytes) : ReadsOn (readSome field.length) field field := by
  intro rest
  rcases eq_or_ne field [] with rfl | hne
  · rcases eq_or_ne rest [] with rfl | hrest
    · exact Or.inr ⟨rfl, refuses_readSome_nil 0⟩
    · exact Or.inl (by simp [readSome, EStateM.run, hrest])
  · exact Or.inl (reads_readSome hne rest)

namespace Cut

variable {x : Reader α} {k : Nat} {field : Bytes}

theorem of_nil : Cut x [] 0 where
  slack_le := le_rfl
  refuses _ _ hlt := absurd hlt (Nat.not_lt_zero _)
  accepts _ _ hlt := absurd hlt (Nat.not_lt_zero _)

theorem pure (a : α) : Cut (Pure.pure a) [] 0 :=
  of_nil

/-- Behind a field whose prefixes are all refused anything may follow.  If a
prefix can be taken for the field, the next reader has to refuse the empty
rest. -/
theorem bind {first second : Bytes} {j : Nat} (hx : Cut x first j) (hread : ReadsOn x first a)
    (hnext : j = 0 ∨ ∀ b, Refuses (f b) []) (hf : Cut (f a) second k) :
    Cut (x >>= f) (first ++ second) k := by
  have hslack := hf.slack_le
  have hshort : ∀ d, d <+: first → d.length < first.length → Refuses (x >>= f) d := by
    intro d hd hlt
    rcases Nat.lt_or_ge first.length (d.length + j) with htaken | hrefused
    · obtain ⟨b, hrun⟩ := hx.accepts d hd hlt htaken
      rcases hnext with rfl | hnext
      · omega
      · exact .bind_of_ok hrun (hnext b)
    · exact (hx.refuses d hd hlt hrefused).bind f
  constructor
  · rw [List.length_append]
    omega
  · intro d hd hlt hcut
    rw [List.length_append] at hlt hcut
    rcases Nat.lt_or_ge d.length first.length with hin | hbehind
    · exact hshort d (List.prefix_of_prefix_length_le hd (List.prefix_append _ _) hin.le) hin
    · obtain ⟨rest, rfl⟩ := List.prefix_of_prefix_length_le (List.prefix_append _ _) hd hbehind
      have hrest : rest <+: second := (List.prefix_append_right_inj first).mp hd
      rw [List.length_append] at hlt hcut
      rcases hread rest with hrun | ⟨rfl, hrefuses⟩
      · exact .bind_of_ok hrun (hf.refuses rest hrest (by omega) (by omega))
      · rw [List.append_nil]
        exact hrefuses.bind f
  · intro d hd hlt htaken
    rw [List.length_append] at hlt htaken
    obtain ⟨rest, rfl⟩ := List.prefix_of_prefix_length_le (List.prefix_append first second) hd
      (by omega)
    have hrest : rest <+: second := (List.prefix_append_right_inj first).mp hd
    rw [List.length_append] at hlt htaken
    rcases hread rest with hrun | ⟨rfl, -⟩
    · obtain ⟨b, hok⟩ := hf.accepts rest hrest (by omega) (by omega)
      exact ⟨b, (bind_ok hrun).trans hok⟩
    · simp only [List.length_nil] at htaken
      omega

theorem bind_last (hx : Cut x field k) (hf : ∀ a, ∃ b, (f a).run [] = .ok b []) :
    Cut (x >>= f) field k where
  slack_le := hx.slack_le
  refuses d hd hlt hcut := (hx.refuses d hd hlt hcut).bind f
  accepts d hd hlt htaken := by
    obtain ⟨a, hrun⟩ := hx.accepts d hd hlt htaken
    obtain ⟨b, hlast⟩ := hf a
    exact ⟨b, (bind_ok hrun).trans hlast⟩

theorem bind_pure {f : α → β} (hx : Cut x field k) : Cut (x >>= fun a => Pure.pure (f a)) field k :=
  hx.bind_last fun a => ⟨f a, rfl⟩

theorem wrapping (message : String) (hx : Cut x field k) : Cut (wrapping message x) field k where
  slack_le := hx.slack_le
  refuses d hd hlt hcut := (hx.refuses d hd hlt hcut).wrapping message
  accepts d hd hlt htaken := by
    obtain ⟨a, hrun⟩ := hx.accepts d hd hlt htaken
    exact ⟨a, wrapping_ok hrun⟩

theorem onRest (hx : Cut x field k) :
    Cut (onRest x) field k where
  slack_le := hx.slack_le
  refuses d hd hlt hcut := (hx.refuses d hd hlt hcut).onRest
  accepts d hd hlt htaken := by
    obtain ⟨a, hrun⟩ := hx.accepts d hd hlt htaken
    exact ⟨a, onRest_ok hrun⟩

/-- A strict prefix is refused if and only if the cut leaves the last `slack`
bytes out as a whole. -/
theorem decode_error_iff {d : Bytes} (hx : Cut x field k) (hd : d <+: field)
    (hlt : d.length < field.length) :
    (∃ err, decode x d = .error (.fail err)) ↔ d.length + k ≤ field.length := by
  rcases Nat.lt_or_ge field.length (d.length + k) with htaken | hcut
  · obtain ⟨a, hrun⟩ := hx.accepts d hd hlt htaken
    have hok := decode_ok hrun
    constructor
    · rintro ⟨err, herr⟩
      rw [hok] at herr
      cases herr
    · intro hcut
      omega
  · exact ⟨fun _ => hcut, fun _ => (hx.refuses d hd hlt hcut).decode⟩

theorem of_singleton {byte : UInt8} (hx : Refuses x []) : Cut x [byte] 0 where
  slack_le := Nat.zero_le _
  refuses d _ hlt _ := by
    have hnil : d = [] := List.eq_nil_of_length_eq_zero (Nat.lt_one_iff.mp hlt)
    rwa [hnil]
  accepts d _ hlt htaken := by omega

end Cut

theorem cut_readByte (byte : UInt8) : Cut readByte [byte] 0 :=
  Cut.of_singleton refuses_readByte_nil

theorem cut_readUint (width value : Nat) : Cut (readUint width) (bigEndian width value) 0 where
  slack_le := Nat.zero_le _
  refuses d _ hlt _ := refuses_readUint (by rwa [bigEndian_length] at hlt)
  accepts d _ hlt htaken := by omega

theorem cut_readSome (field : Bytes) : Cut (readSome field.length) field field.length where
  slack_le := le_rfl
  refuses d _ _ hcut := by
    have hnil : d = [] := List.eq_nil_of_length_eq_zero (by omega)
    rw [hnil]
    exact refuses_readSome_nil _
  accepts d _ hlt htaken := by
    have hne : d ≠ [] := List.ne_nil_of_length_pos (by omega)
    refine ⟨(d ++ zeros field.length).take field.length, ?_⟩
    simp [readSome, EStateM.run, hne, List.drop_eq_nil_of_le hlt.le]

structure Framed (w : Except Err Bytes) (x : Reader α) (a : α) (slack : Nat) : Prop where
  codes : Codes w x a
  cut : ∀ bytes, w = .ok bytes → Cut x bytes slack

namespace Framed

variable {x : Reader α} {a : α} {k : Nat} {w : Except Err Bytes}

theorem of_reads (hread : Reads x field a) (hcut : Cut x field k) :
    Framed (.ok field) x a k where
  codes := .of_reads hread
  cut := by
    rintro bytes ⟨⟩
    exact hcut

theorem of_error {err : Err} : Framed (.error err) x a k where
  codes := by rintro bytes ⟨⟩
  cut := by rintro bytes ⟨⟩

theorem followedBy {v : Except Err Bytes} {b : β} {j : Nat} (hx : Framed w x a j)
    (hnext : j = 0 ∨ ∀ c, Refuses (f c) []) (hf : Framed v (f a) b k) :
    Framed (followedBy w v) (x >>= f) b k where
  codes := hx.codes.followedBy hf.codes
  cut := by
    intro bytes hbytes
    obtain ⟨first, second, hw, hv, rfl⟩ := followedBy_eq_ok_iff.mp hbytes
    exact (hx.cut first hw).bind (readsOn_of_reads (hx.codes first hw)) hnext (hf.cut second hv)

theorem append {first second : Bytes} {b : β} {j : Nat} (hx : Framed (.ok first) x a j)
    (hnext : j = 0 ∨ ∀ c, Refuses (f c) []) (hf : Framed (.ok second) (f a) b k) :
    Framed (.ok (first ++ second)) (x >>= f) b k :=
  hx.followedBy hnext hf

theorem bind_pure {f : α → β} (hx : Framed w x a k) :
    Framed w (x >>= fun a => pure (f a)) (f a) k where
  codes := hx.codes.bind_pure
  cut bytes hw := (hx.cut bytes hw).bind_pure

theorem wrapping (message : String) (hx : Framed w x a k) : Framed w (wrapping message x) a k where
  codes := hx.codes.wrapping message
  cut bytes hw := (hx.cut bytes hw).wrapping message

end Framed

end Zmq4.CutBuffers

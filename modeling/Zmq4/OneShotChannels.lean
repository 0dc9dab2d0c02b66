import Mathlib.Data.List.Nodup

namespace Zmq4.OneShotChannels

variable {α : Type}

/-- A channel, with the numbers of sends and closes so far. -/
structure Channel (α : Type) where
  buffer : List α
  sends : Nat
  closes : Nat

def Channel.new : Channel α where
  buffer := []
  sends := 0
  closes := 0

/-- `misused` is set when a channel is closed again or a send finds it closed. -/
structure Channels (α : Type) where
  allocated : Nat
  cell : Nat → Channel α
  misused : Bool

namespace Channels

def new : Channels α where
  allocated := 0
  cell _ := Channel.new
  misused := false

def make (s : Channels α) : Channels α :=
  { s with allocated := s.allocated + 1 }

/-- A send on a full channel has to wait. -/
def send (s : Channels α) (ch : Nat) (a : α) : Option (Channels α) :=
  if 0 < (s.cell ch).closes then some { s with misused := true }
  else if (s.cell ch).buffer.length < 1 then
    some { s with
      cell := Function.update s.cell ch
        { buffer := (s.cell ch).buffer ++ [a]
          sends := (s.cell ch).sends + 1
          closes := (s.cell ch).closes } }
  else none

def close (s : Channels α) (ch : Nat) : Channels α :=
  { s with
    cell := Function.update s.cell ch { s.cell ch with closes := (s.cell ch).closes + 1 }
    misused := s.misused || decide (0 < (s.cell ch).closes) }

def receive (s : Channels α) (ch : Nat) : Option (Channels α) :=
  if (s.cell ch).buffer = [] then none
  else some { s with
    cell := Function.update s.cell ch { s.cell ch with buffer := (s.cell ch).buffer.tail } }

end Channels

/-- The channel is still to be sent on, or has been sent on, and is still to be closed. -/
structure Open (s : Channels α) (ch : Nat) (sent : Bool) : Prop where
  allocated : ch < s.allocated
  closes : (s.cell ch).closes = 0
  sends : (s.cell ch).sends = sent.toNat
  room : sent = false → (s.cell ch).buffer = []

/-- The claims are to different channels that are open. -/
structure Holds (claims : List (Nat × Bool)) (s : Channels α) : Prop where
  nodup : (claims.map Prod.fst).Nodup
  claimed : ∀ claim ∈ claims, Open s claim.1 claim.2
  once : ∀ ch, (s.cell ch).sends ≤ 1 ∧ (s.cell ch).closes ≤ 1
  unused : ∀ ch, s.allocated ≤ ch → s.cell ch = Channel.new
  proper : s.misused = false

variable {s t : Channels α} {claims claims' : List (Nat × Bool)} {ch : Nat} {sent : Bool}

theorem holds_new : Holds [] (Channels.new : Channels α) where
  nodup := List.nodup_nil
  claimed _ hclaim := absurd hclaim List.not_mem_nil
  once _ := ⟨Nat.zero_le 1, Nat.zero_le 1⟩
  unused _ _ := rfl
  proper := rfl

theorem Holds.perm (hs : Holds claims s) (hclaims : claims'.Perm claims) : Holds claims' s where
  nodup := (hclaims.map Prod.fst).nodup_iff.mpr hs.nodup
  claimed claim hclaim := hs.claimed claim (hclaims.mem_iff.mp hclaim)
  once := hs.once
  unused := hs.unused
  proper := hs.proper

theorem Holds.sublist (hs : Holds claims s) (hclaims : claims'.Sublist claims) :
    Holds claims' s where
  nodup := (hclaims.map Prod.fst).nodup hs.nodup
  claimed claim hclaim := hs.claimed claim (hclaims.subset hclaim)
  once := hs.once
  unused := hs.unused
  proper := hs.proper

theorem holds_make (hs : Holds claims s) : Holds ((s.allocated, false) :: claims) s.make where
  nodup := by
    rw [List.map_cons, List.nodup_cons]
    refine ⟨?_, hs.nodup⟩
    intro hmem
    obtain ⟨claim, hclaim, hch⟩ := List.mem_map.mp hmem
    exact absurd (hs.claimed claim hclaim).allocated (by omega)
  claimed := by
    intro claim hclaim
    rcases List.mem_cons.mp hclaim with rfl | hearlier
    · have hnew := hs.unused s.allocated (Nat.le_refl _)
      refine ⟨Nat.lt_succ_self _, ?_, ?_, fun _ => ?_⟩
      · exact congrArg Channel.closes hnew
      · exact congrArg Channel.sends hnew
      · exact congrArg Channel.buffer hnew
    · have hopen := hs.claimed claim hearlier
      exact ⟨Nat.lt_succ_of_lt hopen.allocated, hopen.closes, hopen.sends, hopen.room⟩
  once := hs.once
  unused other hother := hs.unused other (Nat.le_of_succ_le hother)
  proper := hs.proper

variable {cell : Channel α}

theorem open_update {misused : Bool} {other : Nat} (hopen : Open s other sent) (hne : other ≠ ch) :
    Open { s with cell := Function.update s.cell ch cell, misused := misused } other sent := by
  have hsame : Function.update s.cell ch cell other = s.cell other :=
    Function.update_of_ne hne _ _
  constructor
  · exact hopen.allocated
  · exact (congrArg Channel.closes hsame).trans hopen.closes
  · exact (congrArg Channel.sends hsame).trans hopen.sends
  · exact fun hunsent => (congrArg Channel.buffer hsame).trans (hopen.room hunsent)

theorem claimed_update (hs : Holds ((ch, sent) :: claims) s) {misused : Bool} :
    ∀ claim ∈ claims,
      Open { s with cell := Function.update s.cell ch cell, misused := misused }
        claim.1 claim.2 := by
  intro claim hclaim
  apply open_update (hs.claimed claim (List.mem_cons_of_mem _ hclaim))
  intro hch
  exact (List.nodup_cons.mp hs.nodup).1 (List.mem_map.mpr ⟨claim, hclaim, hch⟩)

theorem unused_update (hs : Holds ((ch, sent) :: claims) s) {other : Nat}
    (hother : s.allocated ≤ other) : Function.update s.cell ch cell other = Channel.new := by
  have hne : other ≠ ch := by
    rintro rfl
    have hallocated := (hs.claimed _ List.mem_cons_self).allocated
    exact absurd hallocated (Nat.not_lt.mpr hother)
  rw [Function.update_of_ne hne]
  exact hs.unused other hother

theorem once_update (hs : Holds claims s) (hcell : cell.sends ≤ 1 ∧ cell.closes ≤ 1) (other : Nat) :
    (Function.update s.cell ch cell other).sends ≤ 1 ∧
      (Function.update s.cell ch cell other).closes ≤ 1 := by
  by_cases hother : other = ch
  · subst hother
    rw [Function.update_self]
    exact hcell
  · rw [Function.update_of_ne hother]
    exact hs.once other

theorem holds_send (hs : Holds ((ch, false) :: claims) s) (a : α) :
    ∃ t, s.send ch a = some t ∧ Holds ((ch, true) :: claims) t := by
  have hopen := hs.claimed (ch, false) List.mem_cons_self
  have hbuffer : (s.cell ch).buffer = [] := hopen.room rfl
  have hsends : (s.cell ch).sends = 0 := hopen.sends
  have hcloses : (s.cell ch).closes = 0 := hopen.closes
  have hsend : s.send ch a = some { s with
      cell := Function.update s.cell ch ⟨[a], 1, 0⟩ } := by
    simp [Channels.send, hcloses, hbuffer, hsends]
  refine ⟨_, hsend, hs.nodup, ?_, ?_, ?_, hs.proper⟩
  · exact List.forall_mem_cons.mpr ⟨⟨hopen.allocated, by simp, by simp, nofun⟩, claimed_update hs⟩
  · exact once_update hs ⟨Nat.le_refl 1, Nat.zero_le 1⟩
  · exact fun other hother => unused_update hs hother

theorem holds_close (hs : Holds ((ch, sent) :: claims) s) : Holds claims (s.close ch) where
  nodup := (List.nodup_cons.mp hs.nodup).2
  claimed := claimed_update hs
  once := by
    have hcloses : (s.cell ch).closes = 0 := (hs.claimed _ List.mem_cons_self).closes
    exact once_update hs ⟨(hs.once ch).1, by simp [hcloses]⟩
  unused := fun _ hother => unused_update hs hother
  proper := by
    have hcloses : (s.cell ch).closes = 0 := (hs.claimed _ List.mem_cons_self).closes
    simp [Channels.close, hs.proper, hcloses]

theorem holds_receive (hs : Holds claims s) (hreceive : s.receive ch = some t) :
    Holds claims t := by
  obtain ⟨hbuffer, ⟨⟩⟩ := Option.ite_none_left_eq_some.mp hreceive
  refine ⟨hs.nodup, ?_, once_update hs (hs.once ch), ?_, hs.proper⟩
  · intro claim hclaim
    have hopen := hs.claimed claim hclaim
    by_cases hch : claim.1 = ch
    · subst hch
      refine ⟨hopen.allocated, by simp [hopen.closes], by simp [hopen.sends], ?_⟩
      intro hunsent
      exact absurd (hopen.room hunsent) hbuffer
    · exact open_update hopen hch
  · intro other hother
    have hne : other ≠ ch := by
      rintro rfl
      exact hbuffer (congrArg Channel.buffer (hs.unused other hother))
    exact (Function.update_of_ne hne _ _).trans (hs.unused other hother)

end Zmq4.OneShotChannels

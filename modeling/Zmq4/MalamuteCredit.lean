import Zmq4.DuplexProgram
import Zmq4.ActionRuns
import Zmq4.KeyedMaps

/-!
The credit controller of a Malamute broker: what its loops and the calls under
its mutex do to the credit of the clients.  The counters that nothing reads (the
numbers of requests, confirmations and denials, the statistics) and the low
watermark are left out.
-/

namespace Zmq4.MalamuteCredit

open ByteCodec ActionRuns KeyedMaps
open DuplexProgram (Err)

def defaultCreditWindow : Int32 := 1000

def minCreditWindow : Int32 := 10

def maxCreditWindow : Int32 := 100000

/-- Points in time and durations are in nanoseconds. -/
def second : Int := 1000000000

def minute : Int := 60 * second

def hour : Int := 60 * minute

structure ClientCredit where
  available : Int32 := 0
  total : Int32 := 0
  used : Int32 := 0
  lastRequest : Int
  deriving DecidableEq

structure CreditController where
  windowSize : Int32
  highWatermark : Int32
  clientCredits : KeyedMap Bytes ClientCredit

structure CreditRequest where
  clientID : Bytes
  amount : Int32
  deriving DecidableEq

structure CreditResponse where
  granted : Int32
  available : Int32
  error : Option Err

def newCreditController (windowSize : Int32) : CreditController :=
  let windowSize := if windowSize ≤ 0 then defaultCreditWindow else windowSize
  { windowSize, highWatermark := windowSize * 3 / 4, clientCredits := ∅ }

namespace CreditController

def calculateGrantedCredit (cc : CreditController) (clientCredit : ClientCredit)
    (requested : Int32) : Int32 :=
  if clientCredit.available ≥ cc.highWatermark then 0
  else if clientCredit.total ≥ cc.windowSize then 0
  else
    let available := cc.windowSize - clientCredit.total
    let granted := if requested > available then available else requested
    if granted > cc.windowSize / 2 then cc.windowSize / 2 else granted

def processRequest (cc : CreditController) (request : CreditRequest) (now : Int) :
    CreditResponse × CreditController :=
  let found := (cc.clientCredits.lookup request.clientID).getD { lastRequest := now }
  let clientCredit := { found with lastRequest := now }
  let granted := cc.calculateGrantedCredit clientCredit request.amount
  if granted > 0 then
    let clientCredit := { clientCredit with
      available := clientCredit.available + granted, total := clientCredit.total + granted }
    ({ granted, available := clientCredit.available, error := none },
      { cc with clientCredits := cc.clientCredits.insert request.clientID clientCredit })
  else
    ({ granted := 0, available := clientCredit.available,
       error := some (.text "insufficient credit available") },
      { cc with clientCredits := cc.clientCredits.insert request.clientID clientCredit })

/-- `ConfirmCredit` and `ReturnCredit` differ in a reason that nothing reads. -/
def processConfirmation (cc : CreditController) (clientID : Bytes) (amount : Int32) :
    CreditController :=
  match cc.clientCredits.lookup clientID with
  | none => cc
  | some clientCredit =>
    if amount > 0 then
      let used := clientCredit.used - amount
      let used := if used < 0 then 0 else used
      { cc with clientCredits := cc.clientCredits.insert clientID { clientCredit with used } }
    else cc

def useCredit (cc : CreditController) (clientID : Bytes) (amount : Int32) :
    Except Err CreditController :=
  match cc.clientCredits.lookup clientID with
  | none => .error (.text ("client not found: " ++ showBytes clientID))
  | some clientCredit =>
    if clientCredit.available < amount then
      .error (.text ("insufficient credit: available=" ++ toString clientCredit.available ++
        ", requested=" ++ toString amount))
    else
      let clientCredit := { clientCredit with
        available := clientCredit.available - amount, used := clientCredit.used + amount }
      .ok { cc with clientCredits := cc.clientCredits.insert clientID clientCredit }

def checkCredit (cc : CreditController) (clientID : Bytes) (amount : Int32) : Bool :=
  match cc.clientCredits.lookup clientID with
  | none => false
  | some clientCredit => clientCredit.available ≥ amount

def setWindowSize (cc : CreditController) (size : Int32) : Except Err CreditController :=
  if size < minCreditWindow ∨ size > maxCreditWindow then
    .error (.text ("invalid window size: " ++ toString size))
  else .ok { cc with windowSize := size, highWatermark := size * 3 / 4 }

def removeClient (cc : CreditController) (clientID : Bytes) : CreditController :=
  { cc with clientCredits := cc.clientCredits.erase clientID }

def cleanupInactiveClients (cc : CreditController) (now : Int) : CreditController :=
  let cutoff := now - 60 * minute
  { cc with clientCredits := retain (fun _ clientCredit =>
      !decide (clientCredit.lastRequest < cutoff ∧ clientCredit.available = 0 ∧
        clientCredit.used = 0)) cc.clientCredits }

end CreditController

inductive Operation
  | request (request : CreditRequest) (now : Int)
  | use (clientID : Bytes) (amount : Int32)
  | confirm (clientID : Bytes) (amount : Int32)
  | setWindowSize (size : Int32)
  | cleanup (now : Int)
  | remove (clientID : Bytes)

/-- The controller after some operations, with the largest window it was ever
configured with. -/
structure Metered where
  controller : CreditController
  largestWindow : Int

def start (windowSize : Int32) : Metered :=
  { controller := newCreditController windowSize,
    largestWindow := (newCreditController windowSize).windowSize.toInt }

def Metered.configured (m : Metered) (cc : CreditController) : Metered :=
  { controller := cc, largestWindow := max m.largestWindow cc.windowSize.toInt }

/-- An operation that returns an error changes nothing. -/
def Metered.step (m : Metered) : Operation → Option Metered
  | .request request now =>
    some { m with controller := (m.controller.processRequest request now).2 }
  | .use clientID amount =>
    some { m with controller := (m.controller.useCredit clientID amount).toOption.getD m.controller }
  | .confirm clientID amount =>
    some { m with controller := m.controller.processConfirmation clientID amount }
  | .setWindowSize size =>
    some (m.configured ((m.controller.setWindowSize size).toOption.getD m.controller))
  | .cleanup now => some { m with controller := m.controller.cleanupInactiveClients now }
  | .remove clientID => some { m with controller := m.controller.removeClient clientID }

/-- Available and used credit are not negative, and together they are all the
credit the client was granted. -/
structure ClientCredit.Conserved (clientCredit : ClientCredit) (bound : Int) : Prop where
  available_nonneg : 0 ≤ clientCredit.available.toInt
  used_nonneg : 0 ≤ clientCredit.used.toInt
  balanced : clientCredit.available.toInt + clientCredit.used.toInt = clientCredit.total.toInt
  total_le : clientCredit.total.toInt ≤ bound

/-- A client that has returned what it used and has nothing left is granted some
credit whenever it asks for some. -/
def CreditController.GrantsAgain (cc : CreditController) (clientCredit : ClientCredit) : Prop :=
  clientCredit.used = 0 → clientCredit.available = 0 →
    ∀ amount, 0 < amount → 0 < cc.calculateGrantedCredit clientCredit amount

def CreditController.Sound (cc : CreditController) (bound : Int) (clientCredit : ClientCredit) :
    Prop :=
  clientCredit.Conserved bound ∧ cc.GrantsAgain clientCredit

def Metered.Conserves (m : Metered) : Prop :=
  ∀ clientID clientCredit, m.controller.clientCredits.lookup clientID = some clientCredit →
    m.controller.Sound m.largestWindow clientCredit

def CreditController.GrantsWithinBounds (cc : CreditController) (clientCredit : ClientCredit)
    (requested : Int32) : Prop :=
  let granted := (cc.calculateGrantedCredit clientCredit requested).toInt
  0 < granted ∧ granted ≤ requested.toInt ∧
    granted ≤ cc.windowSize.toInt - clientCredit.total.toInt ∧
    granted ≤ max 1 (cc.windowSize.toInt / 2)

/-- The window lets a client without credit have some: half of it is at least 1
and three times it did not overflow. -/
def CreditController.Serves (cc : CreditController) : Prop :=
  2 ≤ cc.windowSize.toInt ∧ 0 < cc.highWatermark.toInt

def Metered.KeepsCredit (m : Metered) : Operation → Prop
  | .request request _ =>
    request.clientID ∈ m.controller.clientCredits ∨ m.controller.Serves
  | .use clientID amount =>
    ∀ clientCredit, m.controller.clientCredits.lookup clientID = some clientCredit →
      amount ≤ clientCredit.available → -clientCredit.used.toInt ≤ amount.toInt
  | .confirm clientID amount =>
    ∀ clientCredit, m.controller.clientCredits.lookup clientID = some clientCredit →
      0 < amount → clientCredit.used = 0
  | .setWindowSize _ | .cleanup _ | .remove _ => True

section Words

variable {a b : Int32}

theorem toInt_add_of_fits (hlow : -2 ^ 31 ≤ a.toInt + b.toInt)
    (hhigh : a.toInt + b.toInt < 2 ^ 31) : (a + b).toInt = a.toInt + b.toInt := by
  rw [Int32.toInt_add]
  exact Int.bmod_eq_of_le (by omega) (by omega)

theorem toInt_sub_of_fits (hlow : -2 ^ 31 ≤ a.toInt - b.toInt)
    (hhigh : a.toInt - b.toInt < 2 ^ 31) : (a - b).toInt = a.toInt - b.toInt := by
  rw [Int32.toInt_sub]
  exact Int.bmod_eq_of_le (by omega) (by omega)

theorem toInt_half (hnonneg : 0 ≤ a.toInt) : (a / 2).toInt = a.toInt / 2 := by
  have hlt := a.toInt_lt
  rw [Int32.toInt_div, show (2 : Int32).toInt = 2 from rfl, Int.tdiv_eq_ediv_of_nonneg hnonneg]
  exact Int.bmod_eq_of_le (by omega) (by omega)

theorem toInt_threeQuarters (hnonneg : 0 ≤ a.toInt) (hfits : a.toInt * 3 < 2 ^ 31) :
    (a * 3 / 4).toInt = a.toInt * 3 / 4 := by
  have hmul : (a * 3).toInt = a.toInt * 3 := by
    rw [Int32.toInt_mul, show (3 : Int32).toInt = 3 from rfl]
    exact Int.bmod_eq_of_le (by omega) (by omega)
  rw [Int32.toInt_div, hmul, show (4 : Int32).toInt = 4 from rfl,
    Int.tdiv_eq_ediv_of_nonneg (by omega)]
  exact Int.bmod_eq_of_le (by omega) (by omega)

end Words

section Grants

variable {cc : CreditController} {clientCredit : ClientCredit} {bound : Int}

theorem calculateGrantedCredit_toInt (hwindow : 0 < cc.windowSize.toInt)
    (hfits : cc.windowSize.toInt - clientCredit.total.toInt < 2 ^ 31) (requested : Int32) :
    (cc.calculateGrantedCredit clientCredit requested).toInt =
      if cc.highWatermark.toInt ≤ clientCredit.available.toInt ∨
          cc.windowSize.toInt ≤ clientCredit.total.toInt then 0
      else min requested.toInt
        (min (cc.windowSize.toInt - clientCredit.total.toInt) (cc.windowSize.toInt / 2)) := by
  have hlt := cc.windowSize.toInt_lt
  have hhalf : (cc.windowSize / 2).toInt = cc.windowSize.toInt / 2 := toInt_half hwindow.le
  simp only [CreditController.calculateGrantedCredit, ge_iff_le, gt_iff_lt,
    Int32.le_iff_toInt_le, Int32.lt_iff_toInt_lt]
  by_cases hhigh : cc.highWatermark.toInt ≤ clientCredit.available.toInt
  · simp [hhigh]
  by_cases hfull : cc.windowSize.toInt ≤ clientCredit.total.toInt
  · simp [hfull]
  have hroom : (cc.windowSize - clientCredit.total).toInt =
      cc.windowSize.toInt - clientCredit.total.toInt :=
    toInt_sub_of_fits (by omega) (by omega)
  rw [if_neg hhigh, if_neg hfull, if_neg (not_or.mpr ⟨hhigh, hfull⟩), hroom, hhalf]
  split_ifs <;> omega

theorem grantsAgain_iff (hwindow : 0 < cc.windowSize.toInt) (hcredit : clientCredit.Conserved bound) :
    cc.GrantsAgain clientCredit ↔
      (clientCredit.used = 0 → clientCredit.available = 0 → cc.Serves) := by
  refine imp_congr_right fun hused => imp_congr_right fun havailable => ?_
  have htotal : clientCredit.total.toInt = 0 := by
    have hbalanced := hcredit.balanced
    rw [hused, havailable] at hbalanced
    exact hbalanced.symm
  have hlt := cc.windowSize.toInt_lt
  have hfits : cc.windowSize.toInt - clientCredit.total.toInt < 2 ^ 31 := by omega
  have hgranted := calculateGrantedCredit_toInt hwindow hfits
  rw [htotal, havailable, show (0 : Int32).toInt = 0 from rfl] at hgranted
  constructor
  · intro hgrants
    have hone := Int32.lt_iff_toInt_lt.mp (hgrants 1 (by decide))
    rw [hgranted, show (0 : Int32).toInt = 0 from rfl] at hone
    split at hone
    · omega
    · exact ⟨by omega, by omega⟩
  · rintro ⟨htwo, hhigh⟩ amount hamount
    have hpositive := Int32.lt_iff_toInt_lt.mp hamount
    rw [Int32.lt_iff_toInt_lt, hgranted]
    rw [show (0 : Int32).toInt = 0 from rfl] at hpositive ⊢
    rw [if_neg (by omega)]
    omega

theorem calculateGrantedCredit_nonpos (hwindow : 0 < cc.windowSize.toInt)
    (hwide : 2 ^ 31 ≤ cc.windowSize.toInt - clientCredit.total.toInt) {requested : Int32}
    (hrequested : 0 < requested.toInt) :
    (cc.calculateGrantedCredit clientCredit requested).toInt ≤ 0 := by
  have hlt := cc.windowSize.toInt_lt
  have hle := clientCredit.total.le_toInt
  have hhalf : (cc.windowSize / 2).toInt = cc.windowSize.toInt / 2 := toInt_half hwindow.le
  have hroom : (cc.windowSize - clientCredit.total).toInt < 0 := by
    rw [Int32.toInt_sub, Int.bmod_def]
    omega
  simp only [CreditController.calculateGrantedCredit, gt_iff_lt, Int32.lt_iff_toInt_lt]
  split_ifs <;> first | exact Int.le_refl 0 | omega

/-- Three quarters of the window are computed in 32 bits. -/
theorem grantsWithinBounds_iff {windowSize requested : Int32} (hwindow : 0 < windowSize)
    (htotal : clientCredit.total < windowSize)
    (hrequested : 0 < requested) :
    (newCreditController windowSize).GrantsWithinBounds clientCredit requested ↔
      2 ≤ windowSize.toInt ∧ windowSize.toInt - clientCredit.total.toInt < 2 ^ 31 ∧
        clientCredit.available < windowSize * 3 / 4 := by
  have hsize : (newCreditController windowSize).windowSize = windowSize :=
    if_neg (Int32.not_le.mpr hwindow)
  have hhigh : (newCreditController windowSize).highWatermark = windowSize * 3 / 4 :=
    congrArg (· * 3 / 4) hsize
  rw [Int32.lt_iff_toInt_lt] at hwindow htotal hrequested ⊢
  rw [show (0 : Int32).toInt = 0 from rfl] at hwindow hrequested
  rw [← hsize] at hwindow
  by_cases hfits : windowSize.toInt - clientCredit.total.toInt < 2 ^ 31
  · have hgranted := calculateGrantedCredit_toInt hwindow (hsize ▸ hfits) requested
    rw [hsize] at hwindow
    simp only [CreditController.GrantsWithinBounds, hgranted, hsize, hhigh]
    split_ifs with hnone
    · omega
    · omega
  · have hgranted := calculateGrantedCredit_nonpos hwindow (hsize ▸ not_lt.mp hfits) hrequested
    constructor
    · rintro ⟨hpositive, -⟩
      omega
    · rintro ⟨-, hroom, -⟩
      exact absurd hroom hfits

theorem grantsWithinBounds_iff_ten :
    (newCreditController 10).GrantsWithinBounds { lastRequest := 0 } 3 :=
  (grantsWithinBounds_iff (by decide) (by decide) (by decide)).mpr (by decide)

/-- Half of a window of 1 is 0, and three times `2 ^ 30` is negative in 32 bits. -/
theorem calculateGrantedCredit_zero :
    (newCreditController 1).calculateGrantedCredit { lastRequest := 0 } 1 = 0 ∧
      (newCreditController 1073741824).calculateGrantedCredit { lastRequest := 0 } 1 = 0 := by
  decide

end Grants

section Steps

variable {m : Metered} {clientID : Bytes} {clientCredit : ClientCredit}

/-- The windows a controller has been configured with so far. -/
structure Metered.Configured (m : Metered) : Prop where
  window_pos : 0 < m.controller.windowSize.toInt
  window_le : m.controller.windowSize.toInt ≤ m.largestWindow
  serves : ∀ clientID ∈ m.controller.clientCredits, m.controller.Serves

theorem Metered.Conserves.sound (hP : m.Conserves)
    (hlookup : m.controller.clientCredits.lookup clientID = some clientCredit) :
    clientCredit.Conserved m.largestWindow :=
  (hP clientID clientCredit hlookup).1

theorem conserves_insert_iff (hP : m.Conserves) :
    Metered.Conserves { m with controller := { m.controller with
      clientCredits := m.controller.clientCredits.insert clientID clientCredit } } ↔
      m.controller.Sound m.largestWindow clientCredit := by
  constructor
  · intro hafter
    exact hafter clientID clientCredit (AList.lookup_insert _)
  · intro hsound other otherCredit hlookup
    change (m.controller.clientCredits.insert clientID clientCredit).lookup other = _ at hlookup
    rw [lookup_insert_eq] at hlookup
    split at hlookup
    · cases hlookup
      exact hsound
    · exact hP other otherCredit hlookup

theorem sound_iff (hwindow : 0 < m.controller.windowSize.toInt) :
    m.controller.Sound m.largestWindow clientCredit ↔
      clientCredit.Conserved m.largestWindow ∧
        (clientCredit.used = 0 → clientCredit.available = 0 → m.controller.Serves) :=
  and_congr_right fun hcredit => grantsAgain_iff hwindow hcredit

theorem Metered.Configured.serves_of_lookup (hJ : m.Configured)
    (hlookup : m.controller.clientCredits.lookup clientID = some clientCredit) :
    m.controller.Serves := by
  apply hJ.serves clientID
  rw [← AList.lookup_isSome, hlookup]
  rfl

theorem Metered.Configured.conserved_getD (hJ : m.Configured) (hP : m.Conserves) (now : Int) :
    ClientCredit.Conserved { (m.controller.clientCredits.lookup clientID).getD
      { lastRequest := now } with lastRequest := now } m.largestWindow := by
  rcases hlookup : m.controller.clientCredits.lookup clientID with _ | clientCredit
  · have hlargest := hJ.window_pos.le.trans hJ.window_le
    exact ⟨le_rfl, le_rfl, rfl, hlargest⟩
  · obtain ⟨havailable, hused, hbalanced, htotal⟩ := hP.sound hlookup
    exact ⟨havailable, hused, hbalanced, htotal⟩

variable {cc : CreditController}

theorem conserved_granted {bound : Int} {requested : Int32} (hwindow : 0 < cc.windowSize.toInt)
    (hbound : cc.windowSize.toInt ≤ bound) (hcredit : clientCredit.Conserved bound)
    (hgranted : 0 < cc.calculateGrantedCredit clientCredit requested) :
    cc.Serves ∧ ClientCredit.Conserved { clientCredit with
      available := clientCredit.available + cc.calculateGrantedCredit clientCredit requested,
      total := clientCredit.total + cc.calculateGrantedCredit clientCredit requested } bound := by
  obtain ⟨havailable, hused, hbalanced, htotal⟩ := hcredit
  have hlt := cc.windowSize.toInt_lt
  have hfits : cc.windowSize.toInt - clientCredit.total.toInt < 2 ^ 31 := by omega
  have hvalue := calculateGrantedCredit_toInt hwindow hfits requested
  have hpositive := Int32.lt_iff_toInt_lt.mp hgranted
  rw [show (0 : Int32).toInt = 0 from rfl] at hpositive
  split at hvalue
  · omega
  · have hmore : (clientCredit.available +
        cc.calculateGrantedCredit clientCredit requested).toInt = _ :=
      toInt_add_of_fits (by omega) (by omega)
    have hsum : (clientCredit.total +
        cc.calculateGrantedCredit clientCredit requested).toInt = _ :=
      toInt_add_of_fits (by omega) (by omega)
    refine ⟨⟨by omega, by omega⟩, ?_, hused, ?_, ?_⟩ <;> simp only [hmore, hsum] <;> omega

theorem conserves_processRequest_iff (hJ : m.Configured) (hP : m.Conserves)
    (request : CreditRequest) (now : Int) :
    Metered.Conserves { m with controller := (m.controller.processRequest request now).2 } ↔
      m.KeepsCredit (.request request now) := by
  have hfound : ClientCredit.Conserved { (m.controller.clientCredits.lookup
      request.clientID).getD { lastRequest := now } with lastRequest := now } m.largestWindow :=
    hJ.conserved_getD hP now
  unfold CreditController.processRequest
  dsimp only
  split
  · next hgranted =>
      obtain ⟨hserves, hconserved⟩ := conserved_granted hJ.window_pos hJ.window_le hfound hgranted
      refine iff_of_true ?_ (Or.inr hserves)
      exact (conserves_insert_iff hP).mpr ((sound_iff hJ.window_pos).mpr
        ⟨hconserved, fun _ _ => hserves⟩)
  · rw [conserves_insert_iff hP, sound_iff hJ.window_pos]
    rcases hlookup : m.controller.clientCredits.lookup request.clientID with _ | clientCredit
    · rw [hlookup] at hfound
      constructor
      · rintro ⟨-, hserves⟩
        exact Or.inr (hserves rfl rfl)
      · rintro (hmem | hserves)
        · exact absurd hmem (AList.lookup_eq_none.mp hlookup)
        · exact ⟨hfound, fun _ _ => hserves⟩
    · rw [hlookup] at hfound
      have hmem : request.clientID ∈ m.controller.clientCredits := by
        rw [← AList.lookup_isSome, hlookup]
        rfl
      exact iff_of_true ⟨hfound, fun _ _ => hJ.serves_of_lookup hlookup⟩ (Or.inl hmem)

theorem conserves_useCredit_iff (hJ : m.Configured) (hP : m.Conserves) (amount : Int32) :
    Metered.Conserves { m with
      controller := (m.controller.useCredit clientID amount).toOption.getD m.controller } ↔
      m.KeepsCredit (.use clientID amount) := by
  unfold CreditController.useCredit
  rcases hlookup : m.controller.clientCredits.lookup clientID with _ | clientCredit
  · exact iff_of_true hP (by simp [Metered.KeepsCredit, hlookup])
  · have hkeeps : m.KeepsCredit (.use clientID amount) ↔
        (amount ≤ clientCredit.available → -clientCredit.used.toInt ≤ amount.toInt) := by
      simp [Metered.KeepsCredit, hlookup]
    rw [hkeeps]
    dsimp only
    split
    · next hless =>
        rw [Int32.lt_iff_toInt_lt] at hless
        refine iff_of_true hP fun hle => ?_
        rw [Int32.le_iff_toInt_le] at hle
        omega
    · next hless =>
        rw [Int32.lt_iff_toInt_lt] at hless
        obtain ⟨havailable, hused, hbalanced, htotal⟩ := hP.sound hlookup
        have hlow := amount.le_toInt
        have hhigh := clientCredit.total.toInt_lt
        have hsum : (clientCredit.used + amount).toInt = _ :=
          toInt_add_of_fits (by omega) (by omega)
        have hserves := hJ.serves_of_lookup hlookup
        apply (conserves_insert_iff hP).trans
        rw [sound_iff hJ.window_pos, Int32.le_iff_toInt_le]
        constructor
        · rintro ⟨hconserved, -⟩ hle
          have hleft := hconserved.used_nonneg
          rw [hsum] at hleft
          omega
        · intro hle
          have hbound := hle (by omega)
          have hrest : (clientCredit.available - amount).toInt = _ :=
            toInt_sub_of_fits (by omega) (by omega)
          refine ⟨⟨?_, ?_, ?_, htotal⟩, fun _ _ => hserves⟩ <;> simp only [hrest, hsum] <;> omega

theorem conserves_processConfirmation_iff (hJ : m.Configured) (hP : m.Conserves)
    (amount : Int32) :
    Metered.Conserves { m with
      controller := m.controller.processConfirmation clientID amount } ↔
      m.KeepsCredit (.confirm clientID amount) := by
  unfold CreditController.processConfirmation
  rcases hlookup : m.controller.clientCredits.lookup clientID with _ | clientCredit
  · exact iff_of_true hP (by simp [Metered.KeepsCredit, hlookup])
  · have hkeeps : m.KeepsCredit (.confirm clientID amount) ↔
        (0 < amount → clientCredit.used.toInt = 0) := by
      simp [Metered.KeepsCredit, hlookup, ← Int32.toInt_inj]
    rw [hkeeps]
    dsimp only
    by_cases hamount : amount > 0
    · rw [if_pos hamount]
      have hpositive := Int32.lt_iff_toInt_lt.mp hamount
      rw [show (0 : Int32).toInt = 0 from rfl] at hpositive
      obtain ⟨havailable, hused, hbalanced, htotal⟩ := hP.sound hlookup
      have hserves := hJ.serves_of_lookup hlookup
      have hless : (clientCredit.used - amount).toInt = _ :=
        toInt_sub_of_fits (by have := amount.toInt_lt; omega)
          (by have := clientCredit.used.toInt_lt; omega)
      apply (conserves_insert_iff hP).trans
      rw [sound_iff hJ.window_pos]
      constructor
      · rintro ⟨hconserved, -⟩ -
        have hafter := hconserved.balanced
        dsimp only at hafter
        split at hafter
        · rw [show (0 : Int32).toInt = 0 from rfl] at hafter
          omega
        · omega
      · intro hkept
        have hzero := hkept hamount
        have hclamp : clientCredit.used - amount < 0 := by
          rw [Int32.lt_iff_toInt_lt, hless, show (0 : Int32).toInt = 0 from rfl]
          omega
        rw [if_pos hclamp]
        refine ⟨⟨havailable, le_rfl, ?_, htotal⟩, fun _ _ => hserves⟩
        rw [← hbalanced, hzero]
        rfl
    · rw [if_neg hamount]
      exact iff_of_true hP fun hpositive => absurd hpositive hamount

theorem serves_setWindowSize {after : CreditController} {size : Int32}
    (hset : cc.setWindowSize size = .ok after) :
    0 < after.windowSize.toInt ∧ after.Serves ∧ after.clientCredits = cc.clientCredits := by
  unfold CreditController.setWindowSize at hset
  split at hset
  · cases hset
  · next hvalid =>
      obtain rfl := Except.ok.inj hset
      rw [not_or, Int32.lt_iff_toInt_lt, gt_iff_lt, Int32.lt_iff_toInt_lt,
        show minCreditWindow.toInt = 10 from rfl, show maxCreditWindow.toInt = 100000 from rfl]
        at hvalid
      obtain ⟨hlow, hhigh⟩ := hvalid
      have hwatermark := toInt_threeQuarters (a := size) (by omega) (by omega)
      refine ⟨?_, ⟨?_, ?_⟩, rfl⟩ <;> simp only [hwatermark] <;> omega

theorem conserves_configured (hP : m.Conserves) (hJ : m.Configured) (size : Int32) :
    (m.configured ((m.controller.setWindowSize size).toOption.getD m.controller)).Conserves ∧
      (m.configured ((m.controller.setWindowSize size).toOption.getD m.controller)).Configured := by
  have hlargest : max m.largestWindow m.controller.windowSize.toInt = m.largestWindow :=
    max_eq_left hJ.window_le
  rcases hset : m.controller.setWindowSize size with err | after
  · rw [Metered.configured, Except.toOption, Option.getD_none, hlargest]
    exact ⟨hP, hJ⟩
  · obtain ⟨hpositive, hserves, hsame⟩ := serves_setWindowSize hset
    rw [Metered.configured, Except.toOption, Option.getD_some]
    refine ⟨?_, hpositive, le_max_right _ _, fun _ _ => hserves⟩
    intro clientID clientCredit hlookup
    obtain ⟨havailable, hused, hbalanced, htotal⟩ := hP.sound (hsame ▸ hlookup)
    have hconserved : clientCredit.Conserved (max m.largestWindow after.windowSize.toInt) :=
      ⟨havailable, hused, hbalanced, htotal.trans (le_max_left _ _)⟩
    exact ⟨hconserved, (grantsAgain_iff hpositive hconserved).mpr fun _ _ => hserves⟩

variable {clientCredits : KeyedMap Bytes ClientCredit}

theorem Metered.Conserves.of_fewer (hP : m.Conserves)
    (hfewer : ∀ clientID clientCredit, clientCredits.lookup clientID = some clientCredit →
      m.controller.clientCredits.lookup clientID = some clientCredit) :
    Metered.Conserves { m with controller := { m.controller with clientCredits } } :=
  fun clientID clientCredit hlookup => hP clientID clientCredit (hfewer clientID clientCredit hlookup)

theorem lookup_cleanup {now : Int}
    (hlookup : (cc.cleanupInactiveClients now).clientCredits.lookup clientID = some clientCredit) :
    cc.clientCredits.lookup clientID = some clientCredit :=
  (lookup_retain_eq_some_iff.mp hlookup).1

theorem lookup_remove {gone : Bytes}
    (hlookup : (cc.removeClient gone).clientCredits.lookup clientID = some clientCredit) :
    cc.clientCredits.lookup clientID = some clientCredit := by
  change (cc.clientCredits.erase gone).lookup clientID = _ at hlookup
  rw [lookup_erase_eq] at hlookup
  exact (Option.ite_none_left_eq_some.mp hlookup).2

variable {operation : Operation}

theorem conserves_step_iff (hJ : m.Configured) (hP : m.Conserves) {after : Metered}
    (hstep : m.step operation = some after) :
    after.Conserves ↔ m.KeepsCredit operation := by
  cases operation with
  | request request now =>
    cases hstep
    exact conserves_processRequest_iff hJ hP request now
  | use clientID amount =>
    cases hstep
    exact conserves_useCredit_iff hJ hP amount
  | confirm clientID amount =>
    cases hstep
    exact conserves_processConfirmation_iff hJ hP amount
  | setWindowSize size =>
    cases hstep
    exact iff_of_true (conserves_configured hP hJ size).1 trivial
  | cleanup now =>
    cases hstep
    exact iff_of_true (hP.of_fewer fun _ _ => lookup_cleanup) trivial
  | remove clientID =>
    cases hstep
    exact iff_of_true (hP.of_fewer fun _ _ => lookup_remove) trivial

theorem Metered.Configured.of_fewer (hJ : m.Configured)
    (hfewer : ∀ clientID clientCredit, clientCredits.lookup clientID = some clientCredit →
      m.controller.clientCredits.lookup clientID = some clientCredit) :
    Metered.Configured { m with controller := { m.controller with clientCredits } } := by
  refine ⟨hJ.window_pos, hJ.window_le, ?_⟩
  intro clientID hmem
  obtain ⟨clientCredit, hlookup⟩ := Option.isSome_iff_exists.mp (AList.lookup_isSome.mpr hmem)
  exact hJ.serves_of_lookup (hfewer clientID clientCredit hlookup)

theorem configured_step (hJ : m.Configured) (hP : m.Conserves) {after : Metered}
    (hafter : after.Conserves) (hstep : m.step operation = some after) :
    after.Configured := by
  have hkept := (conserves_step_iff hJ hP hstep).mp hafter
  have hinsert : m.controller.Serves → ∀ clientID clientCredit, Metered.Configured { m with
      controller := { m.controller with
        clientCredits := m.controller.clientCredits.insert clientID clientCredit } } :=
    fun hserves _ _ => ⟨hJ.window_pos, hJ.window_le, fun _ _ => hserves⟩
  cases operation with
  | request request now =>
    cases hstep
    unfold CreditController.processRequest
    dsimp only
    split <;> exact hinsert (hkept.elim (hJ.serves _) id) _ _
  | use clientID amount =>
    cases hstep
    unfold CreditController.useCredit
    rcases hlookup : m.controller.clientCredits.lookup clientID with _ | before
    · exact hJ
    · dsimp only
      split
      · exact hJ
      · exact hinsert (hJ.serves_of_lookup hlookup) _ _
  | confirm clientID amount =>
    cases hstep
    unfold CreditController.processConfirmation
    rcases hlookup : m.controller.clientCredits.lookup clientID with _ | before
    · exact hJ
    · dsimp only
      split
      · exact hinsert (hJ.serves_of_lookup hlookup) _ _
      · exact hJ
  | setWindowSize size =>
    cases hstep
    exact (conserves_configured hP hJ size).2
  | cleanup now =>
    cases hstep
    exact hJ.of_fewer fun _ _ => lookup_cleanup
  | remove clientID =>
    cases hstep
    exact hJ.of_fewer fun _ _ => lookup_remove

end Steps

theorem configured_start (windowSize : Int32) : (start windowSize).Configured := by
  refine ⟨?_, le_rfl, ?_⟩
  · change 0 < (if windowSize ≤ 0 then defaultCreditWindow else windowSize).toInt
    split
    · decide
    · next hpositive =>
        rw [Int32.le_iff_toInt_le, show (0 : Int32).toInt = 0 from rfl] at hpositive
        omega
  · intro clientID hmem
    exact absurd hmem (AList.notMem_empty clientID)

theorem conserves_start (windowSize : Int32) : (start windowSize).Conserves := by
  intro clientID clientCredit hlookup
  change (∅ : KeyedMap Bytes ClientCredit).lookup clientID = some clientCredit at hlookup
  rw [AList.lookup_empty] at hlookup
  cases hlookup

theorem run_isSome (m : Metered) (operations : List Operation) :
    ∃ after, run Metered.step m operations = some after := by
  induction operations generalizing m with
  | nil => exact ⟨m, rfl⟩
  | cons operation rest ih =>
    cases operation with
    | _ => exact ih _

/-- The credit is conserved after each operation if and only if each operation
keeps it: no credit in use is ever confirmed, none is used below zero, and the
window serves the clients that ask for the first time. -/
theorem credit_conserved_iff (windowSize : Int32) (operations : List Operation) :
    Always Metered.step Metered.Conserves (start windowSize) operations ↔
      Throughout Metered.step Metered.KeepsCredit (start windowSize) operations := by
  obtain ⟨after, hrun⟩ := run_isSome (start windowSize) operations
  apply always_iff_throughout (J := fun m => m.Configured ∧ m.Conserves) _ _
    ⟨configured_start windowSize, conserves_start windowSize⟩ (conserves_start windowSize) hrun
  · rintro m operation m' ⟨hJ, hP⟩ hafter hstep
    exact ⟨configured_step hJ hP hafter hstep, hafter⟩
  · rintro m operation m' ⟨hJ, -⟩ hP hstep
    exact conserves_step_iff hJ hP hstep

section Example

def worker : Bytes := ascii "worker"

def returningWorker : List Operation :=
  [.request ⟨worker, 5⟩ 0, .use worker 5, .confirm worker 5,
    .request ⟨worker, 5⟩ 1, .use worker 5, .confirm worker 5]

theorem returningWorker_refused :
    ∃ m, run Metered.step (start 10) returningWorker = some m ∧
      m.controller.clientCredits.lookup worker =
        some { available := 0, total := 10, used := 0, lastRequest := 1 } ∧
      ¬ m.Conserves ∧
      ¬ ∃ amount, 0 < m.controller.calculateGrantedCredit
        { available := 0, total := 10, used := 0, lastRequest := 1 } amount := by
  refine ⟨_, rfl, by decide +kernel, ?_, ?_⟩
  · intro hconserves
    have hsound := hconserves worker { available := 0, total := 10, used := 0, lastRequest := 1 }
      (by decide +kernel)
    exact absurd hsound.1.balanced (by decide)
  · rintro ⟨amount, hgranted⟩
    rw [CreditController.calculateGrantedCredit, if_neg (by decide +kernel),
      if_pos (by decide +kernel)] at hgranted
    exact absurd hgranted (by decide)

end Example

end Zmq4.MalamuteCredit

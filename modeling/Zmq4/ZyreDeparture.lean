import Zmq4.ZyrePeers

namespace Zmq4.ZyreDeparture

open ByteCodec ActionRuns ZyreEvents ZyrePeers

def beaconSize : Nat := 22

/-- The datagram of `sendBeacon`. -/
def beaconBytes (uuid : UUID) (port : UInt16) : Bytes :=
  ascii "ZRE" ++ (1 :: (uuid.bytes ++ bigEndian 2 port.toNat))

/-- `uuid` is the one of the node that has received `data`. -/
def parseBeacon (uuid : UUID) (data sourceIP : Bytes) : Option Discovery :=
  if data.length ≠ beaconSize then none
  else if slice data 0 3 ≠ ascii "ZRE" ∨ slice data 3 4 ≠ [1] then none
  else
    let found := FixedBytes.ofCopy 16 (slice data 4 20)
    if found = uuid then none
    else some {
      uuid := found, port := UInt16.ofNat (bigEndianValue (slice data 20 22)), addr := sourceIP }

inductive Loop
  | select
  /-- A tick has found the port not to be 0. -/
  | sending
  | ended
  deriving DecidableEq

/-- What happened since `Stop` has set the port: whether a tick was taken, and the
datagrams that were broadcast. -/
structure Beacon where
  uuid : UUID
  port : UInt16
  loop : Loop := .select
  leaving : Bool := false
  cancelled : Bool := false
  ticked : Bool := false
  sent : List Bytes := []

inductive Action
  /-- The command loop sets the port, for a call other than the one of `Stop`. -/
  | setPort (port : UInt16)
  | stopSetPort
  | tick
  | sendBeacon
  | cancel
  | exit

namespace Beacon

/-- The loop reads the port at a tick and again in `sendBeacon`.  After `cancel` it may
still take a tick. -/
def step (b : Beacon) : Action → Option Beacon
  | .setPort port => some { b with port }
  | .stopSetPort => some { b with port := 0, leaving := true }
  | .tick =>
    if b.loop = .select then
      some { b with
        loop := if b.port > 0 then .sending else .select, ticked := b.ticked || b.leaving }
    else none
  | .sendBeacon =>
    if b.loop = .sending then
      some { b with
        loop := .select
        sent := if b.leaving then b.sent ++ [beaconBytes b.uuid b.port] else b.sent }
    else none
  | .cancel => if b.leaving then some { b with cancelled := true } else none
  | .exit => if b.loop = .select ∧ b.cancelled then some { b with loop := .ended } else none

/-- `Stop` does not come between a tick and its broadcast. -/
def Apart (b : Beacon) : Action → Prop
  | .stopSetPort => b.loop ≠ .sending
  | .setPort _ | .tick | .sendBeacon | .cancel | .exit => True

end Beacon

end Zmq4.ZyreDeparture

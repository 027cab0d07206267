import IslandSurvival.Model.Message

/-! `SYN`: the ring of frame slots through which a game's messages are relayed. This file has the
    operations that touch nothing but the ring; the broadcast loop of `Run` is with the room. -/

namespace IslandSurvival

def oneFrameBufferSize : Nat := 32
def synBufferSize : Nat := 64
def synAllowedDelay : Int := 3
def synAllowedExist : Int := 20

/-- `mess` holds the first `m_num` cells of `m_mess`; the cells beyond are never read. -/
structure OneFrame where
  mess : List CMessage
deriving DecidableEq, Repr

namespace OneFrame

def num (frame : OneFrame) : Nat := frame.mess.length

def init : OneFrame := { mess := [] }

def add (mess : CMessage) (frame : OneFrame) : Ret × OneFrame :=
  if frame.num ≥ oneFrameBufferSize then
    (.fail, frame)
  else
    (.success, { mess := frame.mess ++ [mess] })

end OneFrame

structure Syn where
  oneframe : Nat → OneFrame
  head : Int
  headFrame : Int
  nowFrame : Int
  initTime : Int

namespace Syn

/-- `SYN::SYN`: the `OneFrame` constructors empty the slots; the counters stay as the memory was. -/
def new (garbage : Syn) : Syn := { garbage with oneframe := fun _ => .init }

def updateTime (nowtime : Int) (syn : Syn) : Syn :=
  { syn with nowFrame := toInt32 ((nowtime - syn.initTime).tdiv 20000 + 1) }

/-- `Init` reads the clock twice: for `m_init_time`, and in `UpdateTime`. -/
def init (nowtime nowtime' : Int) (syn : Syn) : Syn :=
  updateTime nowtime' { syn with oneframe := fun _ => .init, initTime := nowtime, head := 0, headFrame := 1 }

/-- `m_oneframe[i]`, which must be one of the slots of the array. -/
def slot (i : Int) : Except Fault Nat :=
  if 0 ≤ i ∧ i < synBufferSize then .ok i.toNat else .error .outOfBounds

/-- Where `Add` puts a message: on time into the slot of its frame, late into the head slot, and
    nowhere when it is too far ahead or too old. -/
def slotFor (messframe : Int) (syn : Syn) : Except Fault (Option Nat) := do
  if messframe > (← add32 syn.nowFrame 3) then
    return none
  else if (← add32 messframe synAllowedDelay) ≥ syn.nowFrame then
    let diff ← sub32 messframe syn.headFrame
    return some (← slot ((← add32 syn.head diff).tmod synBufferSize))
  else if (← add32 messframe synAllowedExist) ≥ syn.nowFrame then
    return some (← slot syn.head)
  else
    return none

/-- `OneFrame::Add` on slot `i`. -/
def store (i : Nat) (mess : CMessage) (syn : Syn) : Syn :=
  { syn with oneframe := Function.update syn.oneframe i ((syn.oneframe i).add mess).2 }

/-- `SYN::Add` at time `nowtime`, with the slot it picks and the number of messages that are there. -/
def add (nowtime : Int) (mess : CMessage) (syn : Syn) : Except Fault (Syn × Option (Nat × Nat)) := do
  let syn := syn.updateTime nowtime
  match ← syn.slotFor mess.head.framenum.toInt with
  | none => return (syn, none)
  | some i => return (syn.store i mess, some (i, (syn.oneframe i).num))

end Syn

end IslandSurvival

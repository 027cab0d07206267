import IslandSurvival.Model.Room
import IslandSurvival.Model.TcpSocket

/-! The state of the server, the environment it runs in, and the actions of which its functions are
    made. The singletons of the source are the parts of one state. `Room` and `TcpSocket` objects live
    at pointers and are never freed, so a pointer is a number and the heap a function. -/

namespace IslandSurvival

abbrev Map (α : Type) := Std.ExtTreeMap Int α compare
abbrev IntSet := Std.ExtTreeSet Int compare

/-- The order of `std::pair` in `m_sec_fd`. -/
def comparePair : Int × Int → Int × Int → Ordering :=
  compareLex (compareOn Prod.fst) (compareOn Prod.snd)

instance : Std.TransCmp comparePair :=
  inferInstanceAs (Std.TransCmp (compareLex (compareOn Prod.fst) (compareOn Prod.snd)))

instance : Std.LawfulEqCmp comparePair where
  eq_of_compare := by
    rintro ⟨a, b⟩ ⟨c, d⟩ h
    simp only [comparePair, compareLex, compareOn, Ordering.then_eq_eq, Std.compare_eq_iff_eq] at h
    rw [h.1, h.2]

abbrev PairSet := Std.ExtTreeSet (Int × Int) comparePair

abbrev RoomPtr := Nat
abbrev SockPtr := Nat

/-! ## The environment -/

structure EpollEvent where
  fd : Int
  err : Bool
  hup : Bool
  inn : Bool
deriving DecidableEq, Repr

/-- What a database query gives: an error, or the first row of the result, if any. -/
inductive QueryAnswer
  | error
  | row (columns : Option (List (Option Bytes)))
deriving DecidableEq, Repr

/-- Everything outside the program. System calls are numbered through the run and the environment
    answers each by its number; `clock` is `gettimeofday` in microseconds. -/
structure Env where
  pb : Protobuf
  clock : Nat → Int
  epollWait : Nat → List EpollEvent
  accept : Nat → Option Int
  setNonBlock : Nat → Bool
  recv : Nat → RecvAnswer
  send : Nat → SendAnswer
  rand : Nat → Int
  query : Nat → QueryAnswer
  /-- what an uninitialised local holds -/
  uninit : Nat → Int

/-! ## The trace -/

/-- What a run did, in the words of the functions that did it. -/
inductive Event
  | epoll (event : EpollEvent)
  | accept (fd : Int)
  | recv (fd : Int) (received : Bytes)
  | extract (fd : Int) (data : Bytes)
  /-- `ProcessRequest` for a message of connection `fd`, logged in as `userId` or not -/
  | request (fd : Int) (userId : Option Int) (mess : CMessage)
  | query (sql : Bytes) (length : Nat) (answer : QueryAnswer)
  | playerLogin (fd userId : Int)
  | sendTo (userId : Int) (mess : CMessage)
  | write (fd : Int) (data taken : Bytes) (status : WriteStatus)
  /-- an encoding that is longer than `send_data_` -/
  | overrun (fd : Int) (mess : CMessage)
  /-- `SendMessageToClient` saw `write_status_error` -/
  | writeError (userId fd : Int)
  | close (fd : Int)
  /-- an expired connection, and the element that the loop of `Heartbeat::OnTick` holds as next -/
  | expire (fd : Int) (next : Option (Int × Int))
  | roomInit (room : RoomPtr)
  /-- a room is put on the free list, with its online slots -/
  | recycle (room : RoomPtr) (online : List Nat)
  /-- the team of a slot is set, or the request for it is done: with the team mode and the other online
      slots that then have its team -/
  | team (room : RoomPtr) (pos : Nat) (teamMode : Int) (sharing : List Nat)
  | broadcast (room : RoomPtr) (mess : CMessage)
  | deliver (room : RoomPtr) (pos : Nat) (mess : CMessage)
  | leave (room : RoomPtr) (pos : Nat) (status : RoomStatus)
  /-- the comparison of the counters in `DeletePlayer`, with the slots that are counted wrongly -/
  | leaveCheck (room : RoomPtr) (overcounted : List Nat) (passes : Bool)
  | gameLoading (room : RoomPtr) (now : Int)
  | loadReport (room : RoomPtr) (pos : Nat)
  | loadTimeout (room : RoomPtr) (now : Int)
  /-- `m_status = room_status_ingame`, with the online slots that had not reported -/
  | gameStart (room : RoomPtr) (unreported : List Nat)
  | gameEnd (userId : Int) (room : RoomPtr) (status : RoomStatus)
  /-- `SYN::Add` or `SYN::GetNowFrame` is called, with the status of the room -/
  | synUse (room : RoomPtr) (status : RoomStatus)
  /-- `SYN::Add`, with the slot it picks and the number of messages that are there -/
  | synAdd (room : RoomPtr) (mess : CMessage) (slot : Option (Nat × Nat))
  | frameBegin (room : RoomPtr) (frame : Int)
  | synSend (room : RoomPtr) (mess : CMessage)
  | synSent (room : RoomPtr)
  | frameEnd (room : RoomPtr) (frame : Int)
deriving DecidableEq, Repr

@[simp] def Room.teamSet (p : RoomPtr) (pos : Nat) (r : Room) : Event := .team p pos r.teamMode (r.sharing pos)

/-! ## The state -/

inductive PersonStatus
  | inHall | inRoom
deriving DecidableEq, Repr

structure Person where
  name : Bytes
  status : PersonStatus
  userId : Int
deriving DecidableEq, Repr

structure Server where
  -- `MessageHandler`
  listenFd : Int
  connects : Map SockPtr
  userIdToFd : Map Int
  fdToUserId : Map Int
  freeConns : List SockPtr
  recvData : Nat → UInt8
  -- `Heartbeat`
  secFd : PairSet
  fdToSec : Map Int
  -- `PersonManager`
  persons : Map Person
  -- `RoomManager` and the static counter of `CreateRoom`
  freeRoom : List RoomPtr
  belongRoom : Map RoomPtr
  rooms : Map RoomPtr
  nextRoomId : Int
  -- the local of `main`
  presec : Int
  -- the heap
  room : RoomPtr → Room
  roomCnt : Nat
  sock : SockPtr → TcpSocket
  sockCnt : Nat
  -- the kernel: open descriptors, those registered with epoll, and the system calls made
  openFds : IntSet
  epoll : IntSet
  sys : Nat
  -- newest first
  trace : List Event

abbrev M := EStateM Fault Server

/-- The state after static initialisation and `Init`: nobody is connected and no object is allocated,
    whatever the memory and the descriptors in use. -/
structure Server.Booted (s : Server) : Prop where
  connects : s.connects = ∅
  userIdToFd : s.userIdToFd = ∅
  fdToUserId : s.fdToUserId = ∅
  freeConns : s.freeConns = []
  secFd : s.secFd = ∅
  fdToSec : s.fdToSec = ∅
  persons : s.persons = ∅
  freeRoom : s.freeRoom = []
  belongRoom : s.belongRoom = ∅
  rooms : s.rooms = ∅
  nextRoomId : s.nextRoomId = 1000
  roomCnt : s.roomCnt = 0
  sockCnt : s.sockCnt = 0
  listenFd : s.listenFd ∈ s.openFds
  epoll : ∀ fd, fd ∈ s.epoll ↔ fd = s.listenFd
  trace : s.trace = []

/-! ## Actions -/

namespace Server

def log (e : Event) (s : Server) : Server := { s with trace := e :: s.trace }

def tickSys (n : Nat) (s : Server) : Server := { s with sys := s.sys + n }

def setRoom (p : RoomPtr) (r : Room) (s : Server) : Server := { s with room := Function.update s.room p r }

def setSock (c : SockPtr) (sock : TcpSocket) (s : Server) : Server := { s with sock := Function.update s.sock c sock }

end Server

def log (e : Event) : M Unit := modify (Server.log e)

def getRoom (p : RoomPtr) : M Room := return (← get).room p

def modifyRoom (p : RoomPtr) (f : Room → Room) : M Unit := modify fun s => s.setRoom p (f (s.room p))

/-- A computation that may be undefined. -/
def guarded {α : Type} (x : Except Fault α) : M α :=
  match x with
  | .ok a => return a
  | .error e => throw e

section
variable (env : Env)

/-- `GetNowTimeUs` -/
def getNowTimeUs : M Int := do
  let s ← get
  set (s.tickSys 1)
  return env.clock s.sys

/-- `GetNowTimeSecond`, the seconds as an `int32_t` -/
def getNowTimeSecond : M Int := do
  return toInt32 ((← getNowTimeUs env) / 1000000)

end

end IslandSurvival

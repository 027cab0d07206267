import IslandSurvival.Model.MessageHandler

/-! `main`: what `Init` prepares, and the states between the turns of the loop. -/

namespace IslandSurvival

/-- What the system answers while the server starts, as far as a caller looks at it -/
structure Startup where
  /-- `epoll_create`; without a descriptor, nothing can be registered -/
  epollCreate : Bool
  /-- `socket`; without a descriptor, the next call fails -/
  socket : Option Int
  reuseAddr : Bool
  bind : Bool
  listen : Bool
  setNonBlock : Bool
  mysqlInit : Bool
  /-- whether the file with the address of the database opens -/
  config : Bool
  mysqlRealConnect : Bool

/-- The state after static initialisation: nobody is connected and no object is allocated. -/
structure Server.Fresh (s : Server) : Prop where
  connects : s.connects = ∅
  userIdToFd : s.userIdToFd = ∅
  fdToUserId : s.fdToUserId = ∅
  freeConns : s.freeConns = []
  secFd : s.secFd = ∅
  fdToSec : s.fdToSec = ∅
  persons : s.persons = ∅
  freeRoom : s.freeRoom = []
  belongRoom : s.belongRoom = ∅
  rooms : s.rooms = ∅
  nextRoomId : s.nextRoomId = 1000
  roomCnt : s.roomCnt = 0
  sockCnt : s.sockCnt = 0
  epoll : ∀ fd, fd ∉ s.epoll
  trace : s.trace = []

/-- `TcpSocket::ReadyForListen` of the listening socket -/
def readyForListen (startup : Startup) (s : Server) : Ret × Server :=
  match startup.socket with
  | none => (.error, { s with listenFd := -1 })
  | some fd =>
    let s := { s with listenFd := fd, openFds := s.openFds.insert fd }
    if startup.reuseAddr && startup.bind && startup.listen && startup.setNonBlock then (.success, s) else (.error, s)

/-- `AddToEpoll` of the listening socket, which only logs that it failed -/
def addToEpoll (startup : Startup) (fd : Int) (s : Server) : Server :=
  if startup.epollCreate then { s with epoll := s.epoll.insert fd } else s

/-- `MessageHandler::Init` -/
def initServer (startup : Startup) (s : Server) : Ret × Server :=
  match readyForListen startup s with
  | (.success, s) => (.success, addToEpoll startup s.listenFd s)
  | (_, s) => (.fail, s)

/-- `Login::Init` -/
def Login.init (startup : Startup) : Ret :=
  if startup.mysqlInit && startup.config && startup.mysqlRealConnect then .success else .fail

variable (env : Env)

/-- `main` before its loop; `none` where it returns. -/
def boot (startup : Startup) (s : Server) : Option Server :=
  match initServer startup s with
  | (.success, s) =>
    if Login.init startup = .success then
      some { s.tickSys 1 with presec := toInt32 (env.clock s.sys / 1000000) }
    else
      none
  | _ => none

/-- The states of `main` between two turns of its loop, when there is an epoll descriptor -/
inductive Main : Server → Prop
  | boot {startup : Startup} {s t : Server} (fresh : s.Fresh) (polls : startup.epollCreate = true)
      (booted : boot env startup s = some t) : Main t
  | turn {s t u : Server} {n : Nat} (h : Main s) (tick : runOnTick env s = .ok () t)
      (receive : receiveMessage env t = .ok n u) : Main u

end IslandSurvival

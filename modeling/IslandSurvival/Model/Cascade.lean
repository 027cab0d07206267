import IslandSurvival.Model.Managers

/-! The functions that call each other in a circle: a failed write in a broadcast deletes the client,
    which logs its user out, which removes the user from its room, which broadcasts again.

    The circle is cut at `DeleteClientByFD`: every function below takes it as the argument `del`, and
    `deleteClientFuel` ties the knot, each nested deletion with one unit of fuel less. A connection is
    erased before anything is broadcast, so the number of connections is fuel enough. -/

namespace IslandSurvival

def maxMessageLen : Nat := 4096

/-- The results of `SendMessageToClient` and `SendMessageByConnfd`: `fail` without a connection, else
    the status of `SendData`. -/
inductive SendResult
  | fail
  | status (ws : WriteStatus)
deriving DecidableEq, Repr

section
variable (env : Env)

/-- `SendMessageByConnfd`. The encoding goes through `send_data_`, a buffer of `MAX_MESSAGE_LEN`. -/
def sendMessageByConnfd (fd : Int) (mess : CMessage) : M SendResult := do
  let s ← get
  match s.connects[fd]? with
  | none => return .fail
  | some c =>
    let data := mess.encode env.pb
    if data.length > maxMessageLen then
      log (.overrun fd mess)
      throw .outOfBounds
    else
      let out ← guarded ((s.sock c).sendData (fun n => env.send (s.sys + n)) data)
      set (((s.setSock c out.sock).tickSys out.calls).log (.write fd data out.taken out.status))
      return .status out.status

variable (del : Int → M Unit)

def sendMessageToClient (userId : Int) (mess : CMessage) : M SendResult := do
  log (.sendTo userId mess)
  match (← get).userIdToFd[userId]? with
  | none => return .fail
  | some fd =>
    let ret ← sendMessageByConnfd env fd mess
    if ret = .status .error then
      log (.writeError userId fd)
      del fd
      return ret
    else
      return ret

namespace Room

/-- One turn of the loop of `SendMessageToEveryone`. -/
def deliver (p : RoomPtr) (mess : CMessage) (i : Nat) : M Unit := do
  let r ← getRoom p
  if r.isOnline i then
    log (.deliver p i mess)
    discard (sendMessageToClient env del (r.players i) mess)
  else
    return ()

/-- `for(i = 1; i <= m_player_cnt; i++)`, where a turn may change the bound. There are
    `max_player_cnt` slots. -/
def forSlots (p : RoomPtr) (body : Nat → M Unit) : Nat → Nat → M Unit
  | 0, i => do
    if i ≤ (← getRoom p).playerCnt then throw .outOfBounds else return ()
  | fuel + 1, i => do
    if i ≤ (← getRoom p).playerCnt then
      body i
      forSlots p body fuel (i + 1)
    else
      return ()

def sendMessageToEveryone (p : RoomPtr) (mess : CMessage) : M Unit := do
  log (.broadcast p mess)
  forSlots p (deliver env del p mess) maxPlayerCnt 1

def sendGameLoading (p : RoomPtr) : M Unit := do
  if (← getRoom p).status ≠ .waiting then
    return ()
  else
    let s ← get
    set (s.tickSys 1)
    let rand := (env.rand s.sys).emod 10007
    sendMessageToEveryone env del p (.build Msg.scGameLoading (-1) (.scGameLoading rand))
    let now ← getNowTimeSecond env
    modify fun s => (s.setRoom p ((s.room p).startLoading now)).log (.gameLoading p now)

def sendGameStart (p : RoomPtr) : M Unit := do
  if (← getRoom p).status ≠ .loading then
    return ()
  else
    sendMessageToEveryone env del p (.build Msg.scGameStart (-1) .scGameStart)
    let now ← getNowTimeUs env
    let now' ← getNowTimeUs env
    modify fun s => (s.setRoom p ((s.room p).startGame now now')).log (.gameStart p (s.room p).unreported)

end Room

/-! ## `SYN` -/

namespace Syn

def getNowFrame (p : RoomPtr) : M Int := do
  log (.synUse p (← getRoom p).status)
  let now ← getNowTimeUs env
  modifyRoom p fun r => { r with syn := r.syn.updateTime now }
  return (← getRoom p).syn.nowFrame

/-- `SYN::Add` of room `p` -/
def addTo (p : RoomPtr) (mess : CMessage) : M Unit := do
  log (.synUse p (← getRoom p).status)
  let now ← getNowTimeUs env
  let r ← getRoom p
  let (syn, slot) ← guarded (r.syn.add now mess)
  modify fun s => (s.setRoom p { r with syn }).log (.synAdd p mess slot)

/-- A message leaves the ring. -/
def broadcast (p : RoomPtr) (mess : CMessage) : M Unit := do
  log (.synSend p mess)
  Room.sendMessageToEveryone env del p mess
  log (.synSent p)

/-- `m_oneframe[m_head].m_mess[i].m_head.m_framenum = m_head_frame` -/
def stamp (h i : Nat) (syn : Syn) : Syn :=
  let mess := (syn.oneframe h).mess.modify i fun mess => mess.setFramenum syn.headFrame
  { syn with oneframe := Function.update syn.oneframe h { mess } }

/-- The loop over the messages of the head slot, whose number may grow while it runs; a slot has
    `OneFrameBufferSize` cells. -/
def sendSlot (p : RoomPtr) : Nat → Nat → M Unit
  | 0, i => do
    let syn := (← getRoom p).syn
    let h ← guarded (slot syn.head)
    if i < (syn.oneframe h).num then throw .outOfBounds else return ()
  | fuel + 1, i => do
    let syn := (← getRoom p).syn
    let h ← guarded (slot syn.head)
    match (syn.oneframe h).mess[i]? with
    | none => return ()
    | some mess =>
      modifyRoom p fun r => { r with syn := r.syn.stamp h i }
      broadcast env del p (mess.setFramenum syn.headFrame)
      sendSlot p fuel (i + 1)

/-- `m_oneframe[m_head].Init()` -/
def clear (h : Nat) (syn : Syn) : Syn := { syn with oneframe := Function.update syn.oneframe h .init }

/-- The `SCFrameMess` that stands for an empty frame. -/
def sendFrameMess (p : RoomPtr) : M Unit := do
  let syn := (← getRoom p).syn
  let h ← guarded (slot syn.head)
  if (syn.oneframe h).num = 0 then
    broadcast env del p (.build Msg.scFrameMess (.ofInt syn.headFrame) (.scFrameMess (syn.oneframe h).num))
  else
    return ()

def sendHeadFrameToAll (p : RoomPtr) : M Unit := do
  let frame := (← getRoom p).syn.headFrame
  log (.frameBegin p frame)
  sendFrameMess env del p
  sendSlot env del p oneFrameBufferSize 0
  let h ← guarded (slot (← getRoom p).syn.head)
  modify fun s => (s.setRoom p { s.room p with syn := (s.room p).syn.clear h }).log (.frameEnd p frame)

/-- `m_head = (m_head+1)%SYNBufferSize; m_head_frame++;` -/
def advance (syn : Syn) : Except Fault Syn := do
  let head ← add32 syn.head 1
  let headFrame ← add32 syn.headFrame 1
  return { syn with head := head.tmod synBufferSize, headFrame }

/-- `m_head_frame + SYN_AllowedDelay + 1 <= m_now_frame` -/
def due (syn : Syn) : Except Fault Bool := do
  let bound ← add32 (← add32 syn.headFrame synAllowedDelay) 1
  return bound ≤ syn.nowFrame

def runLoop (p : RoomPtr) : Nat → M Unit
  | 0 => throw .fuel
  | fuel + 1 => do
    if ← guarded (← getRoom p).syn.due then
      sendHeadFrameToAll env del p
      let r ← getRoom p
      let syn ← guarded r.syn.advance
      modifyRoom p fun r => { r with syn }
      runLoop p fuel
    else
      return ()

/-- The loop of `Run` counts `m_head_frame` up to a 32-bit number. -/
def runFuel : Nat := 4294967296

def run (p : RoomPtr) : M Unit := do
  let now ← getNowTimeUs env
  modifyRoom p fun r => { r with syn := r.syn.updateTime now }
  runLoop env del p runFuel

end Syn

/-! ## Departures -/

namespace Room

/-- `GetDetailInfo` as a message. -/
def detailMessage (p : RoomPtr) (s : Server) : CMessage :=
  .build Msg.scPullOneRoomDetail (-1)
    (.scPullOneRoomDetail (some ((s.room p).getDetailInfo (PersonManager.getPersonName s))))

def exitGameMessage (pos : Nat) (framenum : Int32) : CMessage :=
  .build Msg.scPlayerExitGame framenum (.scPlayerExitGame pos)

def deletePlayer (p : RoomPtr) (userId : Int) : M Ret := do
  let r ← getRoom p
  let pos := r.getPlayerId userId
  if pos = 0 then
    return .fail
  else
    match r.status with
    | .waiting =>
      modify fun s => (s.setRoom p (r.removeSlot pos)).log (.leave p pos .waiting)
      sendMessageToEveryone env del p (detailMessage p (← get))
      modify fun s => (PersonManager.changePersonStatus userId .inHall s).2
      return .success
    | .loading =>
      modify fun s => (s.setRoom p (r.setOffline pos)).log (.leave p pos .loading)
      sendMessageToEveryone env del p (exitGameMessage pos (-1))
      let r ← getRoom p
      if r.isLoadingSucceed pos then
        modifyRoom p (unloadSlot pos)
        return .success
      else
        log (.leaveCheck p r.overcounted (r.loadingSucceedCnt ≥ r.onlinePlayerCnt))
        if r.loadingSucceedCnt ≥ r.onlinePlayerCnt then
          sendGameStart env del p
          return .success
        else
          return .success
    | .ingame =>
      modify fun s => (s.setRoom p (r.setOffline pos)).log (.leave p pos .ingame)
      let frame ← Syn.getNowFrame env p
      Syn.addTo env p (exitGameMessage pos (.ofInt frame))
      return .success

end Room

namespace RoomManager

def deletePlayerFromRoom (userId : Int) : M Ret := do
  match (← get).belongRoom[userId]? with
  | none => return .fail
  | some p =>
    modify fun s => { s with belongRoom := s.belongRoom.erase userId }
    Room.deletePlayer env del p userId

end RoomManager

namespace PersonManager

/-- `PersonLogout`, with `Person::OnExit` -/
def personLogout (userId : Int) : M Ret := do
  match (← get).persons[userId]? with
  | none => return .fail
  | some person =>
    match person.status with
    | .inHall => pure ()
    | .inRoom => discard (RoomManager.deletePlayerFromRoom env del person.userId)
    modify fun s => { s with persons := s.persons.erase userId }
    return .success

end PersonManager

def playerLogout (userId : Int) : M Unit := do
  match (← get).userIdToFd[userId]? with
  | none => return ()
  | some fd =>
    modify fun s => { s with userIdToFd := s.userIdToFd.erase userId }
    discard (PersonManager.personLogout env del userId)
    modify fun s => { s with fdToUserId := s.fdToUserId.erase fd }

/-- The connection part of `DeleteClientByFD`: `close` also takes the descriptor out of epoll. -/
def dropConnection (fd : Int) (c : SockPtr) (s : Server) : Server :=
  let s := (Heartbeat.erase fd s).2
  let sock := s.sock c
  let s := { s with epoll := s.epoll.erase fd }
  let s :=
    if sock.isUsing then
      { s.setSock c { sock with isUsing := false } with
        openFds := s.openFds.erase sock.iSockfd
        epoll := s.epoll.erase sock.iSockfd }
    else
      s
  { s with connects := s.connects.erase fd, freeConns := s.freeConns ++ [c] }.log (.close fd)

/-- The body of `DeleteClientByFD` -/
def deleteClientStep (fd : Int) : M Unit := do
  match (← get).connects[fd]? with
  | none => return ()
  | some c =>
    modify (dropConnection fd c)
    match (← get).fdToUserId[fd]? with
    | none => return ()
    | some userId => playerLogout env del userId

end

section
variable (env : Env)

def deleteClientFuel : Nat → Int → M Unit
  | 0, fd => deleteClientStep env (fun _ => throw .fuel) fd
  | fuel + 1, fd => deleteClientStep env (deleteClientFuel fuel) fd

def deleteClientByFd (fd : Int) : M Unit := do
  deleteClientFuel env (← get).connects.size fd

def deleteClientByUserId (userId : Int) : M Unit := do
  match (← get).userIdToFd[userId]? with
  | none => return ()
  | some fd => deleteClientByFd env fd

end

end IslandSurvival

import IslandSurvival.Model.Cascade

/-! `RoomManager`, and the functions of `Room` that call back into it. -/

namespace IslandSurvival

section
variable (env : Env)

namespace Room

def addPlayer (p : RoomPtr) (userId : Int) : M JoinResult := do
  let r ← getRoom p
  if r.status = .waiting then
    if r.playerCnt ≥ maxPlayerCnt then
      return .addPlayerFull
    else
      let r := r.addSlot userId
      modify fun s =>
        (PersonManager.changePersonStatus userId .inRoom (s.setRoom p r)).2.log (r.teamSet p r.playerCnt)
      return .addPlayerSucceed
  else
    return .addPlayerNoWaiting

/-- `AddLoadingSucceed`; `true` when everybody who is online has loaded. -/
def addLoadingSucceed (p : RoomPtr) (userId : Int) : M Bool := do
  let r ← getRoom p
  if r.status ≠ .loading then
    discard (RoomManager.deletePlayerFromRoom env (deleteClientByFd env) userId)
    return false
  else
    let pos := r.getPlayerId userId
    if pos = 0 then
      return false
    else if r.isLoadingSucceed pos then
      return false
    else
      modify fun s => (s.setRoom p (r.loadSlot pos)).log (.loadReport p pos)
      return decide ((r.loadSlot pos).loadingSucceedCnt ≥ (r.loadSlot pos).onlinePlayerCnt)

def gameEnd (p : RoomPtr) (userId : Int) : M Ret := do
  let r ← getRoom p
  log (.gameEnd userId p r.status)
  if r.status = .ingame then
    let pos := r.getPlayerId userId
    if pos ≠ 0 then
      modify fun s => (PersonManager.changePersonStatus userId .inHall (s.setRoom p (r.setOffline pos))).2
      return .success
    else
      return .fail
  else
    return .fail

/-- One turn of the loop of `OnTick` over the players that take too long to load. -/
def kickUnloaded (p : RoomPtr) (i : Nat) : M Unit := do
  let r ← getRoom p
  if r.isOnline i && !r.isLoadingSucceed i then
    deleteClientByUserId env (r.players i)
  else
    return ()

def onTick (p : RoomPtr) : M Unit := do
  let r ← getRoom p
  match r.status with
  | .loading =>
    let now ← getNowTimeSecond env
    if (← guarded (sub32 now r.loadingTimeSecond)) ≥ maxLoadingTimeSecond then
      log (.loadTimeout p now)
      forSlots p (kickUnloaded env p) maxPlayerCnt 1
      sendGameStart env (deleteClientByFd env) p
    else
      return ()
  | .ingame => Syn.run env (deleteClientByFd env) p
  | .waiting => return ()

end Room

namespace RoomManager

/-- A room for `CreateRoom`: the first recycled one, or a new one with a new number. -/
def takeRoom (s : Server) : RoomPtr × Int × Server :=
  match s.freeRoom with
  | p :: rest => (p, (s.room p).roomId, { s with freeRoom := rest })
  | [] =>
    (s.roomCnt, s.nextRoomId, { s.setRoom s.roomCnt (.new (s.room s.roomCnt)) with
      roomCnt := s.roomCnt + 1
      nextRoomId := s.nextRoomId + 1 })

/-- `CreateRoom`, with the room number that it returns by reference. -/
def createRoom (userId gameMode teamMode : Int) : M (Ret × Int) := do
  let s ← get
  if userId ∈ s.belongRoom then
    return (.fail, 0)
  else
    let (p, roomId, s) := takeRoom s
    let s := { s with belongRoom := s.belongRoom.insert userId p, rooms := s.rooms.insert roomId p }
    set ((s.setRoom p ((s.room p).init gameMode teamMode roomId)).log (.roomInit p))
    discard (Room.addPlayer p userId)
    return (.success, roomId)

def joinRoom (userId roomId : Int) : M JoinResult := do
  let s ← get
  match s.rooms[roomId]? with
  | none => return .joinRoomNotExist
  | some p =>
    if userId ∈ s.belongRoom then
      return .joinRoomErrorFail
    else
      let ret ← Room.addPlayer p userId
      if ret = .addPlayerSucceed then
        modify fun s => { s with belongRoom := s.belongRoom.insert userId p }
        return ret
      else
        return ret

def gameEndFromRoom (userId : Int) : M Ret := do
  match (← get).belongRoom[userId]? with
  | none => return .fail
  | some p =>
    modify fun s => { s with belongRoom := s.belongRoom.erase userId }
    Room.gameEnd p userId

def getRoomByUserId (s : Server) (userId : Int) : Option RoomPtr := s.belongRoom[userId]?

def getRoomByRoomId (s : Server) (roomId : Int) : Option RoomPtr := s.rooms[roomId]?

def getAllRoomInfo (s : Server) : List PBRoomInfo :=
  (s.rooms.toList.filter fun entry => (s.room entry.2).status = .waiting).map fun entry =>
    (s.room entry.2).getRoomInfo

/-- `GetDetailRoomInfo` as a message; without the room, `room_info` is not set. -/
def detailMessage (roomId : Int) (s : Server) : CMessage :=
  match s.rooms[roomId]? with
  | none => .build Msg.scPullOneRoomDetail (-1) (.scPullOneRoomDetail none)
  | some p => Room.detailMessage p s

/-- One turn of `OnTick`: a room that nobody is left in is recycled after its tick. -/
def tickRoom (id : Int) (p : RoomPtr) : M Unit := do
  Room.onTick env p
  let r ← getRoom p
  if r.onlinePlayerCnt ≤ 0 then
    modify fun s =>
      { s with freeRoom := s.freeRoom ++ [p], rooms := s.rooms.erase id }.log (.recycle p r.onlineSlots)
  else
    return ()

/-- The rooms from the iterator on. Nothing below `Room::OnTick` adds or removes a room, so the
    elements ahead of the iterator are those of the start. -/
def tickRooms : List (Int × RoomPtr) → M Unit
  | [] => return ()
  | (id, p) :: rest => do
    tickRoom env id p
    tickRooms rest

def onTick : M Unit := do
  tickRooms env (← get).rooms.toList

end RoomManager

end

end IslandSurvival

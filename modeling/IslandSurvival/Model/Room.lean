import IslandSurvival.Model.Syn

/-! The record of a `Room` and the member functions that touch nothing else. Arrays indexed by the
    slot number are functions; slot 0 is unused, as in the source. -/

namespace IslandSurvival

def maxPlayerCnt : Nat := 8
def maxLoadingTimeSecond : Int := 180

inductive RoomStatus
  | waiting | loading | ingame
deriving DecidableEq, Repr

/-- The results of `JoinRoom`, with the numbers the client sees. -/
inductive JoinResult
  | joinRoomNotExist | addPlayerNoWaiting | addPlayerFull | addPlayerSucceed | joinRoomErrorFail
deriving DecidableEq, Repr

def JoinResult.code : JoinResult → Int
  | joinRoomNotExist => 0
  | addPlayerNoWaiting => 1
  | addPlayerFull => 2
  | addPlayerSucceed => 3
  | joinRoomErrorFail => 4

structure Room where
  syn : Syn
  roomId : Int
  players : Nat → Int
  teamId : Nat → Int
  isOnline : Nat → Bool
  isLoadingSucceed : Nat → Bool
  playerCnt : Nat
  onlinePlayerCnt : Int
  status : RoomStatus
  loadingSucceedCnt : Int
  loadingTimeSecond : Int
  gameMode : Int
  teamMode : Int
  gameOption : Int

namespace Room

/-- `Room::Room`: only the ring is constructed, the other members stay as the memory was. -/
def new (garbage : Room) : Room := { garbage with syn := .new garbage.syn }

def init (gameMode teamMode roomId : Int) (r : Room) : Room :=
  { r with
    isOnline := fun _ => false
    status := .waiting
    playerCnt := 0
    onlinePlayerCnt := 0
    gameMode, teamMode, roomId
    gameOption := 10 }

/-- The slot numbers in use, in the order of the loops over them. -/
def slots (r : Room) : List Nat := List.range' 1 r.playerCnt

/-- The first online slot of a user, 0 if there is none. -/
def getPlayerId (r : Room) (userId : Int) : Nat :=
  (r.slots.find? fun i => r.isOnline i && r.players i == userId).getD 0

/-- The update of a successful `AddPlayer`. -/
def addSlot (userId : Int) (r : Room) : Room :=
  let pos := r.playerCnt + 1
  { r with
    playerCnt := pos
    onlinePlayerCnt := r.onlinePlayerCnt + 1
    players := Function.update r.players pos userId
    teamId := Function.update r.teamId pos (if r.teamMode = 1 then pos else 1)
    isOnline := Function.update r.isOnline pos true }

/-- An array after the entries behind `pos` moved down by one. -/
def shift {α : Type} (a : Nat → α) (pos cnt : Nat) : Nat → α :=
  fun i => if pos ≤ i ∧ i < cnt then a (i + 1) else a i

/-- The update of `DeletePlayer` while waiting. Teams move with the players in team mode 2 only. -/
def removeSlot (pos : Nat) (r : Room) : Room :=
  { r with
    players := shift r.players pos r.playerCnt
    teamId := if r.teamMode = 2 then shift r.teamId pos r.playerCnt else r.teamId
    isOnline := Function.update r.isOnline r.playerCnt false
    playerCnt := r.playerCnt - 1
    onlinePlayerCnt := r.onlinePlayerCnt - 1 }

/-- The update of `DeletePlayer` in the other two statuses, and of `GameEnd`. -/
def setOffline (pos : Nat) (r : Room) : Room :=
  { r with
    isOnline := Function.update r.isOnline pos false
    onlinePlayerCnt := r.onlinePlayerCnt - 1 }

/-- A loaded player that left while loading is uncounted. -/
def unloadSlot (pos : Nat) (r : Room) : Room :=
  { r with
    loadingSucceedCnt := r.loadingSucceedCnt - 1
    isLoadingSucceed := Function.update r.isLoadingSucceed pos false }

def loadSlot (pos : Nat) (r : Room) : Room :=
  { r with
    isLoadingSucceed := Function.update r.isLoadingSucceed pos true
    loadingSucceedCnt := r.loadingSucceedCnt + 1 }

/-- The update at the end of `SendGameLoading`. -/
def startLoading (now : Int) (r : Room) : Room :=
  { r with
    status := .loading
    loadingSucceedCnt := 0
    loadingTimeSecond := now
    isLoadingSucceed := fun _ => false }

/-- The update at the end of `SendGameStart`. -/
def startGame (now now' : Int) (r : Room) : Room :=
  { r with syn := r.syn.init now now', status := .ingame }

def changeTeamId (userId teamId : Int) (r : Room) : Ret × Room :=
  let pos := r.getPlayerId userId
  if pos = 0 then
    (.fail, r)
  else
    (.success, { r with teamId := Function.update r.teamId pos teamId })

def changeGameOption (userId gameOption : Int) (r : Room) : Ret × Room :=
  let pos := r.getPlayerId userId
  if pos = 0 then
    (.fail, r)
  else if pos = 1 then
    (.success, { r with gameOption })
  else
    (.fail, r)

def getRoomInfo (r : Room) : PBRoomInfo where
  id := r.roomId
  have_ := r.onlinePlayerCnt
  limit := maxPlayerCnt
  gameMode := r.gameMode
  teamMode := r.teamMode

/-- `GetDetailInfo`, with the names of `PERSONMANAGER->GetPersonName`. -/
def getDetailInfo (name : Int → Bytes) (r : Room) : PBDetailRoomInfo :=
  let present := r.slots.filter r.isOnline
  { gameOption := r.gameOption
    players := present.map fun i => name (r.players i)
    teamId := present.map r.teamId
    playerId := present.map fun i => (i : Int) }

def onlineSlots (r : Room) : List Nat := r.slots.filter r.isOnline

/-- The other online slots with the team of slot `pos`, which is 0 for a user that is not in the room. -/
def sharing (pos : Nat) (r : Room) : List Nat :=
  if pos = 0 then [] else r.onlineSlots.filter fun i => i != pos && r.teamId i == r.teamId pos

/-- The online slots whose player has not reported that loading succeeded. -/
def unreported (r : Room) : List Nat := r.slots.filter fun i => r.isOnline i && !r.isLoadingSucceed i

/-- The slots that count as loaded although their player has left. -/
def overcounted (r : Room) : List Nat := r.slots.filter fun i => !r.isOnline i && r.isLoadingSucceed i

end Room

end IslandSurvival

import IslandSurvival.Lib.Memory
import IslandSurvival.Model.Base

/-! Messages: the payloads of `proto_islandsurvival.proto`, the message numbers, and the 16-byte
    header of `CMessage.cpp`. -/

namespace IslandSurvival

/-! ## Payloads -/

structure PBRoomInfo where
  id : Int
  have_ : Int
  limit : Int
  gameMode : Int
  teamMode : Int
deriving DecidableEq, Repr

structure PBDetailRoomInfo where
  players : List Bytes
  teamId : List Int
  playerId : List Int
  gameOption : Int
deriving DecidableEq, Repr

/-- The content of a protobuf message object. Floats are kept as their bits. -/
inductive Proto
  | csLogin (id passwd : Bytes)
  | scLogin (result : Int)
  | csRegist (id passwd : Bytes)
  | scRegist (result : Int)
  | csChangeTeam (teamId gameOption : Option Int)
  | csPullAllRoomInfo
  | scPullAllRoomInfo (rooms : List PBRoomInfo)
  | csCreateRoom (gameMode teamMode : Int)
  | scCreateRoom (result : Bool) (roomId : Int)
  | csJoinRoom (roomId : Int)
  | scJoinRoom (result : Int)
  | csPlayerExitRoom
  | scPlayerExitRoom (result : Int)
  | scPullOneRoomDetail (roomInfo : Option PBDetailRoomInfo)
  | csReadyToStart
  | scGameLoading (rand : Int)
  | csLoadSucceed
  | scGameStart
  | scPlayerExitGame (player : Int)
  | csChoseRole (roleId : Int)
  | scChoseRole (roleId playerId : Int)
  | scFrameMess (operation : Int)
  | csMove (dir : Int)
  | scMove (dir playerId : Int)
  | csKill (killer bekilled : Int)
  | scKill (killer bekilled : Int)
  | csGamePause
  | scGamePause
  | csSkill (skillId : Int) (posX posZ : UInt32) (targetId : Int)
  | scSkill (skillId : Int) (posX posZ : UInt32) (targetId attackerId : Int)
  | csHeartbeat
  | csGameEnd
  | scGameEnd
deriving DecidableEq, Repr

/-- The message classes registered with `REGISTE_MESSAGE_ID`. -/
inductive PBType
  | csLogin | csRegist | csChangeTeam | csPullAllRoomInfo | csCreateRoom | csJoinRoom | csPlayerExitRoom
  | csReadyToStart | csLoadSucceed | csChoseRole | csMove | csKill | csGamePause | csSkill | csHeartbeat
  | csGameEnd
deriving DecidableEq, Repr

/-- The registered class of a payload; the server's own messages have none. -/
def Proto.type? : Proto → Option PBType
  | csLogin .. => some .csLogin
  | csRegist .. => some .csRegist
  | csChangeTeam .. => some .csChangeTeam
  | csPullAllRoomInfo => some .csPullAllRoomInfo
  | csCreateRoom .. => some .csCreateRoom
  | csJoinRoom .. => some .csJoinRoom
  | csPlayerExitRoom => some .csPlayerExitRoom
  | csReadyToStart => some .csReadyToStart
  | csLoadSucceed => some .csLoadSucceed
  | csChoseRole .. => some .csChoseRole
  | csMove .. => some .csMove
  | csKill .. => some .csKill
  | csGamePause => some .csGamePause
  | csSkill .. => some .csSkill
  | csHeartbeat => some .csHeartbeat
  | csGameEnd => some .csGameEnd
  | _ => none

/-- The vendored protobuf runtime: `SerializeToString`, and what `ParseFromString` leaves in a message
    object of a class together with its return value. A message object never changes its class. -/
structure Protobuf where
  serializeToString : Proto → Bytes
  parseFromString : PBType → Bytes → Proto × Bool
  parse_type : ∀ t code, (parseFromString t code).1.type? = some t

/-! ## Message numbers -/

namespace Msg

def csLogin : Int32 := 0x0000
def scLogin : Int32 := 0x0001
def csRegist : Int32 := 0x0002
def scRegist : Int32 := 0x0003
def csChangeTeam : Int32 := 0x0006
def csPullAllRoomInfo : Int32 := 0x0007
def scPullAllRoomInfo : Int32 := 0x0008
def csCreateRoom : Int32 := 0x0009
def scCreateRoom : Int32 := 0x000a
def csJoinRoom : Int32 := 0x000b
def scJoinRoom : Int32 := 0x000c
def csPlayerExitRoom : Int32 := 0x000d
def scPlayerExitRoom : Int32 := 0x000e
def scPullOneRoomDetail : Int32 := 0x000f
def csReadyToStart : Int32 := 0x0010
def scGameLoading : Int32 := 0x0011
def csLoadSucceed : Int32 := 0x0012
def scGameStart : Int32 := 0x0013
def scPlayerExitGame : Int32 := 0x0014
def csChoseRole : Int32 := 0x0015
def scChoseRole : Int32 := 0x0016
def scFrameMess : Int32 := 0x0017
def csMove : Int32 := 0x0018
def scMove : Int32 := 0x0019
def csKill : Int32 := 0x001a
def scKill : Int32 := 0x001b
def csGamePause : Int32 := 0x001c
def scGamePause : Int32 := 0x001d
def csSkill : Int32 := 0x001e
def scSkill : Int32 := 0x001f
def csHeartbeat : Int32 := 0x0020
def csGameEnd : Int32 := 0x0021
def scGameEnd : Int32 := 0x0022

end Msg

/-! ## The header -/

structure CMessageHead where
  packetlen : Int32
  messageId : Int32
  framenum : Int32
  messageHash : UInt32
deriving DecidableEq, Repr

/-- `CMessageHead::Size`, the four 4-byte fields. -/
def headSize : Nat := 16

/-- `htonl`: the four bytes of a word, the most significant first. -/
def htonl (v : UInt32) : Bytes :=
  [.ofNat (v.toNat / 16777216), .ofNat (v.toNat / 65536), .ofNat (v.toNat / 256), .ofNat v.toNat]

/-- `ntohl` of the four bytes of `m` at `off`. -/
@[irreducible] def ntohl (m : Nat → UInt8) (off : Nat) : UInt32 :=
  .ofNat ((m off).toNat * 16777216 + (m (off + 1)).toNat * 65536 + (m (off + 2)).toNat * 256 + (m (off + 3)).toNat)

def CMessageHead.encode (h : CMessageHead) : Bytes :=
  htonl h.packetlen.toUInt32 ++ htonl h.messageId.toUInt32 ++ htonl h.framenum.toUInt32 ++ htonl h.messageHash

def CMessageHead.decode (ins : Nat → UInt8) (inLen : Nat) : Option CMessageHead :=
  if inLen ≠ headSize then
    none
  else
    some {
      packetlen := (ntohl ins 0).toInt32
      messageId := (ntohl ins 4).toInt32
      framenum := (ntohl ins 8).toInt32
      messageHash := ntohl ins 12 }

/-! ## Messages -/

/-- `m_proto` is `none` where the C++ pointer is null. -/
structure CMessage where
  head : CMessageHead
  proto : Option Proto
deriving DecidableEq, Repr

/-- A message as the handlers build one: the constructor zeroes the hash, `encode` sets the length. -/
def CMessage.build (messageId framenum : Int32) (proto : Proto) : CMessage where
  head := { packetlen := 0, messageId, framenum, messageHash := 0 }
  proto := some proto

def CMessage.setFramenum (mess : CMessage) (framenum : Int) : CMessage :=
  { mess with head := { mess.head with framenum := .ofInt framenum } }

/-- The bytes that `CMessage::encode` writes. -/
def CMessage.encode (pb : Protobuf) (mess : CMessage) : Bytes :=
  match mess.proto with
  | none => []
  | some proto =>
    let code := pb.serializeToString proto
    { mess.head with packetlen := .ofNat (code.length + headSize) }.encode ++ code

/-- `CMessage::decode` into a message whose `m_proto` is an object of class `type`. The result of
    `ParseFromString` is not checked. -/
def CMessage.decode (pb : Protobuf) (type : Option PBType) (ins : Nat → UInt8) (inLen : Nat) : Option CMessage :=
  match type with
  | none => none
  | some type =>
    if inLen < headSize then
      none
    else
      match CMessageHead.decode ins headSize with
      | none => none
      | some head =>
        if (inLen : Int) ≠ head.packetlen.toInt then
          none
        else
          let code := Memory.read ins headSize (inLen - headSize)
          some { head, proto := some (pb.parseFromString type code).1 }

end IslandSurvival

import IslandSurvival.Lib.WireFormat
import IslandSurvival.Model.Message
import Mathlib.Algebra.Order.BigOperators.Group.List
import Mathlib.Algebra.Order.Ring.Nat

/-! What the vendored protobuf runtime makes of the messages: `SerializeToString`, as the code generated from
    `proto_islandsurvival.proto` writes the fields, and the sizes that `ByteSize` computes before. -/

namespace IslandSurvival

/-- `WriteInt32`; a field of type `int32` holds 32 bits. -/
def writeInt32 (field : Nat) (v : Int) : Bytes := WireFormat.int32 field (toInt32 v)

def PBRoomInfo.serialize (info : PBRoomInfo) : Bytes :=
  writeInt32 1 info.id ++ writeInt32 2 info.have_ ++ writeInt32 3 info.limit ++ writeInt32 4 info.gameMode ++
    writeInt32 5 info.teamMode

def PBDetailRoomInfo.serialize (info : PBDetailRoomInfo) : Bytes :=
  info.players.flatMap (WireFormat.lengthDelimited 1) ++ info.teamId.flatMap (writeInt32 2) ++
    info.playerId.flatMap (writeInt32 3) ++ writeInt32 4 info.gameOption

def Proto.serialize : Proto → Bytes
  | csLogin id passwd => WireFormat.lengthDelimited 1 id ++ WireFormat.lengthDelimited 2 passwd
  | scLogin result => writeInt32 1 result
  | csRegist id passwd => WireFormat.lengthDelimited 1 id ++ WireFormat.lengthDelimited 2 passwd
  | scRegist result => writeInt32 1 result
  | csChangeTeam teamId gameOption => (teamId.map (writeInt32 1)).getD [] ++ (gameOption.map (writeInt32 2)).getD []
  | csPullAllRoomInfo => []
  | scPullAllRoomInfo rooms => rooms.flatMap fun info => WireFormat.lengthDelimited 1 info.serialize
  | csCreateRoom gameMode teamMode => writeInt32 1 gameMode ++ writeInt32 2 teamMode
  | scCreateRoom result roomId => WireFormat.bool 1 result ++ writeInt32 2 roomId
  | csJoinRoom roomId => writeInt32 1 roomId
  | scJoinRoom result => writeInt32 1 result
  | csPlayerExitRoom => []
  | scPlayerExitRoom result => writeInt32 1 result
  | scPullOneRoomDetail roomInfo => (roomInfo.map fun info => WireFormat.lengthDelimited 1 info.serialize).getD []
  | csReadyToStart => []
  | scGameLoading rand => writeInt32 1 rand
  | csLoadSucceed => []
  | scGameStart => []
  | scPlayerExitGame player => writeInt32 1 player
  | csChoseRole roleId => writeInt32 1 roleId
  | scChoseRole roleId playerId => writeInt32 1 roleId ++ writeInt32 2 playerId
  | scFrameMess operation => writeInt32 1 operation
  | csMove dir => writeInt32 1 dir
  | scMove dir playerId => writeInt32 1 dir ++ writeInt32 2 playerId
  | csKill killer bekilled => writeInt32 1 killer ++ writeInt32 2 bekilled
  | scKill killer bekilled => writeInt32 1 killer ++ writeInt32 2 bekilled
  | csGamePause => []
  | scGamePause => []
  | csSkill skillId posX posZ targetId =>
    writeInt32 1 skillId ++ WireFormat.fixed32 2 posX ++ WireFormat.fixed32 3 posZ ++ writeInt32 4 targetId
  | scSkill skillId posX posZ targetId attackerId =>
    writeInt32 1 skillId ++ WireFormat.fixed32 2 posX ++ WireFormat.fixed32 3 posZ ++ writeInt32 4 targetId ++
      writeInt32 5 attackerId
  | csHeartbeat => []
  | csGameEnd => []
  | scGameEnd => []

/-- The runtime writes messages as the generated code says. -/
def Protobuf.Generated (pb : Protobuf) : Prop := ∀ proto, pb.serializeToString proto = proto.serialize

/-! ## Sizes -/

/-- `Int32Size`, with the tag -/
def int32Size (v : Int) : Nat := 1 + WireFormat.signedVarintSize (toInt32 v)

/-- `StringSize` or `MessageSizeNoVirtual`, with the tag -/
def delimitedSize (n : Nat) : Nat := 1 + WireFormat.varintSize n + n

def PBRoomInfo.byteSize (info : PBRoomInfo) : Nat :=
  int32Size info.id + int32Size info.have_ + int32Size info.limit + int32Size info.gameMode + int32Size info.teamMode

def PBDetailRoomInfo.byteSize (info : PBDetailRoomInfo) : Nat :=
  (info.players.map fun name => delimitedSize name.length).sum + (info.teamId.map int32Size).sum +
    (info.playerId.map int32Size).sum + int32Size info.gameOption

end IslandSurvival

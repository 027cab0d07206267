import IslandSurvival.Lib.WireParse
import IslandSurvival.Model.Serialize

/-! `ParseFromString` of the vendored protobuf runtime, into objects of the registered classes, and the runtime as a
    whole. The code generated from `proto_islandsurvival.proto` knows the fields of a class; unknown fields are kept
    aside, where the server never looks, and a string that is not UTF-8 is only logged. -/

namespace IslandSurvival
open WireFormat (Descriptor Object)

/-- The fields of a class in `proto_islandsurvival.proto` -/
def PBType.descriptor : PBType → Descriptor
  | csLogin => [⟨1, .string, true⟩, ⟨2, .string, true⟩]
  | csRegist => [⟨1, .string, true⟩, ⟨2, .string, true⟩]
  | csChangeTeam => [⟨1, .int32, false⟩, ⟨2, .int32, false⟩]
  | csPullAllRoomInfo => []
  | csCreateRoom => [⟨1, .int32, true⟩, ⟨2, .int32, true⟩]
  | csJoinRoom => [⟨1, .int32, true⟩]
  | csPlayerExitRoom => []
  | csReadyToStart => []
  | csLoadSucceed => []
  | csChoseRole => [⟨1, .int32, true⟩]
  | csMove => [⟨1, .int32, true⟩]
  | csKill => [⟨1, .int32, true⟩, ⟨2, .int32, true⟩]
  | csGamePause => []
  | csSkill => [⟨1, .int32, true⟩, ⟨2, .fixed32, true⟩, ⟨3, .fixed32, true⟩, ⟨4, .int32, true⟩]
  | csHeartbeat => []
  | csGameEnd => []

/-! ## Accessors

A field that the object does not have reads as its default. -/

section
variable (obj : Object) (number : Nat)

def getInt32? : Option Int :=
  match obj number with
  | some (.int32 v) => some v
  | _ => none

def getInt32 : Int := (getInt32? obj number).getD 0

def getFloat : UInt32 :=
  match obj number with
  | some (.fixed32 v) => v
  | _ => 0

def getString : Bytes :=
  match obj number with
  | some (.string data) => data
  | _ => []

end

/-- What the handlers read from an object of a class -/
def PBType.content (obj : Object) : PBType → Proto
  | csLogin => .csLogin (getString obj 1) (getString obj 2)
  | csRegist => .csRegist (getString obj 1) (getString obj 2)
  | csChangeTeam => .csChangeTeam (getInt32? obj 1) (getInt32? obj 2)
  | csPullAllRoomInfo => .csPullAllRoomInfo
  | csCreateRoom => .csCreateRoom (getInt32 obj 1) (getInt32 obj 2)
  | csJoinRoom => .csJoinRoom (getInt32 obj 1)
  | csPlayerExitRoom => .csPlayerExitRoom
  | csReadyToStart => .csReadyToStart
  | csLoadSucceed => .csLoadSucceed
  | csChoseRole => .csChoseRole (getInt32 obj 1)
  | csMove => .csMove (getInt32 obj 1)
  | csKill => .csKill (getInt32 obj 1) (getInt32 obj 2)
  | csGamePause => .csGamePause
  | csSkill => .csSkill (getInt32 obj 1) (getFloat obj 2) (getFloat obj 3) (getInt32 obj 4)
  | csHeartbeat => .csHeartbeat
  | csGameEnd => .csGameEnd

def PBType.parseFromString (type : PBType) (code : Bytes) : Proto × Bool :=
  let (obj, ok) := WireFormat.parse type.descriptor code
  (type.content obj, ok)

theorem PBType.type_content (type : PBType) (obj : Object) : (type.content obj).type? = some type := by
  cases type <;> rfl

def Protobuf.runtime : Protobuf where
  serializeToString := Proto.serialize
  parseFromString := PBType.parseFromString
  parse_type type code := type.type_content (WireFormat.parse type.descriptor code).1

end IslandSurvival

import IslandSurvival.Model.Parse
import IslandSurvival.Theorems.Reassembly

/-! The runtime's own parser: what the server reads from the body of a request, be it one that the runtime wrote or any
    other bytes. -/

namespace IslandSurvival
open WireFormat (Descriptor Entry Message Object Payload)

/-! ### Requests as they are written -/

/-- The numbers of a request are 32-bit ones, as its fields are. -/
def Proto.Fits : Proto → Prop
  | csChangeTeam teamId gameOption => (∀ v ∈ teamId, int32Min ≤ v ∧ v ≤ int32Max) ∧ ∀ v ∈ gameOption, int32Min ≤ v ∧ v ≤ int32Max
  | csCreateRoom gameMode teamMode => (int32Min ≤ gameMode ∧ gameMode ≤ int32Max) ∧ int32Min ≤ teamMode ∧ teamMode ≤ int32Max
  | csJoinRoom roomId => int32Min ≤ roomId ∧ roomId ≤ int32Max
  | csChoseRole roleId => int32Min ≤ roleId ∧ roleId ≤ int32Max
  | csMove dir => int32Min ≤ dir ∧ dir ≤ int32Max
  | csKill killer bekilled => (int32Min ≤ killer ∧ killer ≤ int32Max) ∧ int32Min ≤ bekilled ∧ bekilled ≤ int32Max
  | csSkill skillId _ _ targetId => (int32Min ≤ skillId ∧ skillId ≤ int32Max) ∧ int32Min ≤ targetId ∧ targetId ≤ int32Max
  | _ => True

section
variable {d : Descriptor} {number : Nat} {fields : List (Nat × WireFormat.Value)} {b : Bytes} {v : Int}

theorem toInt32_of_fits (fits : int32Min ≤ v ∧ v ≤ int32Max) : toInt32 v = v := by
  unfold toInt32 int32Min int32Max at *
  rw [Int.bmod_def]
  omega

theorem entry_int32 (takes : d.takes (number * 8) = some .int32) (few : 0 < number ∧ number < 16)
    (fits : int32Min ≤ v ∧ v ≤ int32Max) : Entry d (some (number, .int32 v)) (writeInt32 number v) := by
  rw [writeInt32, toInt32_of_fits fits]
  exact .written few.1 (by omega) takes (.written_int32 fits.1 fits.2)

theorem entry_fixed32 (takes : d.takes (number * 8 + 5) = some .fixed32) (few : 0 < number ∧ number < 16) (v : UInt32) :
    Entry d (some (number, .fixed32 v)) (WireFormat.fixed32 number v) :=
  .written few.1 (by omega) takes (.written_fixed32 v)

theorem entry_string (takes : d.takes (number * 8 + 2) = some .string) (few : 0 < number ∧ number < 16) {data : Bytes}
    (small : (WireFormat.lengthDelimited number data).length < 2147483648) :
    Entry d (some (number, .string data)) (WireFormat.lengthDelimited number data) := by
  have le := WireFormat.length_le_lengthDelimited number data
  rw [WireFormat.lengthDelimited, List.append_assoc (WireFormat.tag number 2)]
  exact .written few.1 (by omega) takes (.written_string (by omega))

end

/-- The fields that a request sets -/
def Proto.fields : Proto → List (Nat × WireFormat.Value)
  | csLogin id passwd | csRegist id passwd => [(1, .string id), (2, .string passwd)]
  | csChangeTeam teamId gameOption =>
    (teamId.map fun v => (1, .int32 v)).toList ++ (gameOption.map fun v => (2, .int32 v)).toList
  | csCreateRoom a b | csKill a b => [(1, .int32 a), (2, .int32 b)]
  | csJoinRoom v | csChoseRole v | csMove v => [(1, .int32 v)]
  | csSkill skillId posX posZ targetId => [(1, .int32 skillId), (2, .fixed32 posX), (3, .fixed32 posZ), (4, .int32 targetId)]
  | _ => []

theorem message_serialize {proto : Proto} {type : PBType} (typed : proto.type? = some type) (fits : proto.Fits)
    (small : proto.serialize.length < 2147483648) : Message type.descriptor proto.fields proto.serialize := by
  cases proto with
  | csLogin id passwd =>
    cases typed
    rw [Proto.serialize, List.length_append] at small
    exact .cons (entry_string rfl (by decide) (by omega)) (.one (entry_string rfl (by decide) (by omega)))
  | csRegist id passwd =>
    cases typed
    rw [Proto.serialize, List.length_append] at small
    exact .cons (entry_string rfl (by decide) (by omega)) (.one (entry_string rfl (by decide) (by omega)))
  | csChangeTeam teamId gameOption =>
    cases typed
    rcases teamId with _ | team <;> rcases gameOption with _ | option
    · exact .nil
    · exact .one (entry_int32 rfl (by decide) (fits.2 option rfl))
    · show Message _ [(1, .int32 team)] (writeInt32 1 team ++ [])
      rw [List.append_nil]
      exact .one (entry_int32 rfl (by decide) (fits.1 team rfl))
    · exact .cons (entry_int32 rfl (by decide) (fits.1 team rfl)) (.one (entry_int32 rfl (by decide) (fits.2 option rfl)))
  | csCreateRoom gameMode teamMode | csKill killer bekilled =>
    cases typed
    exact .cons (entry_int32 rfl (by decide) fits.1) (.one (entry_int32 rfl (by decide) fits.2))
  | csJoinRoom v | csChoseRole v | csMove v =>
    cases typed
    exact .one (entry_int32 rfl (by decide) fits)
  | csSkill skillId posX posZ targetId =>
    cases typed
    exact ((Message.one (entry_int32 rfl (by decide) fits.1)).append (.one (entry_fixed32 rfl (by decide) posX))).append
      (.one (entry_fixed32 rfl (by decide) posZ)) |>.append (.one (entry_int32 rfl (by decide) fits.2))
  | csPullAllRoomInfo | csPlayerExitRoom | csReadyToStart | csLoadSucceed | csGamePause | csHeartbeat | csGameEnd =>
    cases typed
    exact .nil
  | _ => cases typed

/-- What the runtime writes, it reads. -/
theorem parse_serialize {proto : Proto} {type : PBType} (typed : proto.type? = some type) (fits : proto.Fits)
    (small : proto.serialize.length < 2147483648) : type.parseFromString proto.serialize = (proto, true) := by
  have read : WireFormat.mergeAll type.descriptor .empty proto.serialize = (Object.empty.store proto.fields, true) :=
    WireFormat.mergeAll_eq_true_iff.mpr ⟨_, message_serialize typed fits small, rfl⟩
  unfold WireFormat.mergeAll at read
  rw [PBType.parseFromString, WireFormat.parse, read]
  cases proto with
  | csChangeTeam teamId gameOption =>
    cases typed
    rcases teamId with _ | team <;> rcases gameOption with _ | option <;> rfl
  | _ => cases typed <;> rfl

/-! ### Any other bytes -/

section
variable {type : PBType} {a b code : Bytes} {fields : List (Nat × WireFormat.Value)} {obj : Object}

/-- What a body of a class is made of: entries that are there as a whole, known to the class or not -/
def Complete (type : PBType) (code : Bytes) : Prop := ∃ fields, Message type.descriptor fields code

theorem parseFromString_eq : type.parseFromString code =
    (type.content (WireFormat.mergeAll type.descriptor .empty code).1, (WireFormat.mergeAll type.descriptor .empty code).2 &&
      type.descriptor.initialized (WireFormat.mergeAll type.descriptor .empty code).1) := rfl

/-- `ParseFromString` returns true for the bodies that are complete and have the required fields. Of any other body it
    leaves in the object the complete entries before the first broken one, and if this is a string of the class the
    part of it that is there, and `CMessage::decode` goes on with that. -/
theorem parse_any_body (type : PBType) (code : Bytes) : ∃ fields front rest,
    Message type.descriptor fields front ∧ front ++ rest = code ∧
    (∀ entry a b, Entry type.descriptor entry a → a ++ b ≠ rest) ∧
    ((type.parseFromString code).2 = true ↔
      rest = [] ∧ ∀ f ∈ type.descriptor, f.required = true → ∃ v, (f.number, v) ∈ fields) ∧
    ((type.parseFromString code).1 = type.content (Object.empty.store fields) ∧
        (∀ n v, ¬WireFormat.CutString type.descriptor (Object.empty.store fields) rest n v) ∨
      ∃ n v, WireFormat.CutString type.descriptor (Object.empty.store fields) rest n v ∧
        (type.parseFromString code).1 = type.content ((Object.empty.store fields).set n (some v))) := by
  obtain ⟨fields, front, rest, message, eq, broken, consumed, left⟩ :=
    WireFormat.mergeAll_cases type.descriptor Object.empty code
  refine ⟨fields, front, rest, message, eq, broken, ?_, ?_⟩
  · rw [parseFromString_eq, Bool.and_eq_true, consumed]
    refine and_congr_right fun none => ?_
    rcases left with ⟨stored, -⟩ | ⟨n, v, cut, -⟩
    · rw [stored]
      exact WireFormat.initialized_store
    · obtain ⟨tag, a, b, varint, append, -⟩ := cut.tag_eq
      have pos := varint.length_pos
      rw [none] at append
      rw [(List.append_eq_nil_iff.mp append).1] at pos
      exact absurd pos (Nat.lt_irrefl 0)
  · rcases left with ⟨stored, whole⟩ | ⟨n, v, cut, stored⟩
    · exact .inl ⟨congrArg type.content stored, whole⟩
    · exact .inr ⟨n, v, cut, congrArg type.content stored⟩

/-- Bodies of a class are put together by writing one behind the other: the fields of the later one count, those that
    it does not have come from the earlier one. What the class does not know is as good as not there. -/
theorem bodies_compose (front : Complete type a) :
    (∀ u, Entry type.descriptor none u → type.parseFromString (a ++ u ++ b) = type.parseFromString (a ++ b)) ∧
    (Complete type b → ∀ n, (WireFormat.parse type.descriptor (a ++ b)).1 n =
      ((WireFormat.parse type.descriptor b).1 n).or ((WireFormat.parse type.descriptor a).1 n)) ∧
    (Complete type b → (type.parseFromString a).2 ∨ (type.parseFromString b).2 → (type.parseFromString (a ++ b)).2) := by
  obtain ⟨fields, message⟩ := front
  have read : ∀ {code fields}, Message type.descriptor fields code →
      WireFormat.mergeAll type.descriptor .empty code = (Object.empty.store fields, true) :=
    fun message => WireFormat.mergeAll_eq_true_iff.mpr ⟨_, message, rfl⟩
  refine ⟨fun u unknown => ?_, ?_, ?_⟩
  · simp only [parseFromString_eq, List.append_assoc, WireFormat.mergeAll_message message, WireFormat.mergeAll_entry unknown]
    rfl
  · rintro ⟨fields', message'⟩ n
    simp only [WireFormat.parse_eq, read message, read message', read (message.append message'), WireFormat.Object.store_append]
    exact WireFormat.Object.store_apply n
  · rintro ⟨fields', message'⟩
    simp only [parseFromString_eq, read message, read message', read (message.append message'), Bool.true_and,
      WireFormat.initialized_store, List.mem_append]
    rintro (all | all) f mem required
    · obtain ⟨v, here⟩ := all f mem required
      exact ⟨v, .inl here⟩
    · obtain ⟨v, here⟩ := all f mem required
      exact ⟨v, .inr here⟩

/-- Two `CSMove` bodies, and between them a group that the class does not know -/
theorem bodies_compose_move : PBType.csMove.parseFromString (writeInt32 1 5 ++ [19, 20] ++ writeInt32 1 7) =
    PBType.csMove.parseFromString (writeInt32 1 5 ++ writeInt32 1 7) ∧
    (PBType.csMove.parseFromString (writeInt32 1 5 ++ writeInt32 1 7)).2 := by
  have front : Complete .csMove (writeInt32 1 5) := ⟨_, .one (entry_int32 rfl (by decide) (by decide))⟩
  have back : Complete .csMove (writeInt32 1 7) := ⟨_, .one (entry_int32 rfl (by decide) (by decide))⟩
  have group : Entry PBType.csMove.descriptor none [19, 20] := by
    have read : WireFormat.readEntry PBType.csMove.descriptor [19, 20] = some (none, []) := by decide +kernel
    obtain ⟨s, item, eq⟩ := (WireFormat.reads_entry _).sound read
    rw [List.append_nil] at eq
    exact eq ▸ item
  exact ⟨(bodies_compose front).1 _ group, (bodies_compose front).2.2 back (.inl (by decide +kernel))⟩

def Proto.strings : Proto → List Bytes
  | csLogin id passwd => [id, passwd]
  | csRegist id passwd => [id, passwd]
  | _ => []

/-- A value that bytes can hold: a number of 32 bits, or a part of the bytes -/
def FromBody (code : Bytes) : WireFormat.Value → Prop
  | .int32 v => int32Min ≤ v ∧ v ≤ int32Max
  | .fixed32 _ => True
  | .string data => data <:+: code

theorem FromBody.mono {v : WireFormat.Value} (h : FromBody a v) (part : a <:+: b) : FromBody b v := by
  cases v with
  | string data => exact List.IsInfix.trans h part
  | _ => exact h

theorem Delimited.part {data : Bytes} (delimited : WireFormat.Delimited data code) : data <:+: code := by
  obtain ⟨length, -, -, rfl⟩ := delimited
  exact (List.suffix_append length data).isInfix

theorem fromBody_payload {kind : WireFormat.Kind} {v : WireFormat.Value} (payload : Payload kind v code) : FromBody code v := by
  cases payload with
  | int32 _ => exact toInt32_bounds _
  | fixed32 => trivial
  | string delimited => exact Delimited.part delimited

theorem fromBody_message (message : Message type.descriptor fields code) : ∀ field ∈ fields, FromBody code field.2 := by
  induction message with
  | nil => exact fun field mem => absurd mem List.not_mem_nil
  | @cons entry fields a b item _ ih =>
    intro field mem
    rcases List.mem_append.mp mem with here | later
    · cases item with
      | @known tag kind value a b _ _ _ payload =>
        obtain rfl := List.mem_singleton.mp here
        refine (fromBody_payload payload).mono ?_
        exact (List.suffix_append a b).isInfix.trans (List.prefix_append _ _).isInfix
      | unknown => exact absurd here List.not_mem_nil
    · exact (ih field later).mono (List.suffix_append a b).isInfix

/-- An object all of whose values are from some bytes -/
def Object.From (code : Bytes) (obj : Object) : Prop := ∀ n v, obj n = some v → FromBody code v

theorem Object.From.empty : Object.From code Object.empty := by
  intro n v eq
  cases eq

theorem Object.From.set {n : Nat} {v : WireFormat.Value} (h : Object.From code obj) (value : FromBody code v) :
    Object.From code (obj.set n (some v)) := by
  intro m w eq
  unfold WireFormat.Object.set at eq
  by_cases same : m = n
  · subst same
    rw [Function.update_self] at eq
    exact Option.some.inj eq ▸ value
  · rw [Function.update_of_ne same] at eq
    exact h m w eq

theorem Object.From.store (h : Object.From code obj) (values : ∀ field ∈ fields, FromBody code field.2) :
    Object.From code (obj.store fields) := by
  induction fields generalizing obj with
  | nil => exact h
  | cons field fields ih =>
    exact ih (h.set (values field List.mem_cons_self)) fun f mem => values f (List.mem_cons_of_mem _ mem)

theorem fromBody_cut {n : Nat} {v : WireFormat.Value} (h : Object.From code obj)
    (cut : WireFormat.CutString type.descriptor obj a n v) (part : a <:+: code) : FromBody code v := by
  cases cut with
  | @noLength tag a b =>
    rcases eq : obj (tag / 8) with _ | old
    · exact List.nil_infix
    · exact h _ old eq
  | @tooLong tag n a x data =>
    refine List.IsInfix.trans ?_ part
    exact (List.suffix_append x data).isInfix.trans (List.suffix_append a _).isInfix

theorem fits_getInt32 (h : Object.From code obj) (n : Nat) : int32Min ≤ getInt32 obj n ∧ getInt32 obj n ≤ int32Max := by
  unfold getInt32 getInt32?
  split
  · exact h n _ ‹_›
  · decide

theorem fits_getInt32? (h : Object.From code obj) (n : Nat) : ∀ v ∈ getInt32? obj n, int32Min ≤ v ∧ v ≤ int32Max := by
  unfold getInt32?
  split
  · rintro v ⟨⟩
    exact h n _ ‹_›
  · exact fun v mem => absurd mem (Option.not_mem_none v)

theorem part_getString (h : Object.From code obj) (n : Nat) : getString obj n <:+: code := by
  unfold getString
  split
  · exact h n _ ‹_›
  · exact List.nil_infix

/-- Whatever a body is, well formed or not: what the handlers read from it are 32-bit numbers and parts of the body. -/
theorem parse_invents_nothing (type : PBType) (code : Bytes) : (type.parseFromString code).1.Fits ∧
    ∀ s ∈ (type.parseFromString code).1.strings, s <:+: code := by
  have from_ : Object.From code (WireFormat.mergeAll type.descriptor .empty code).1 := by
    obtain ⟨fields, front, rest, message, rfl, -, -, left⟩ := WireFormat.mergeAll_cases type.descriptor Object.empty code
    have stored : Object.From (front ++ rest) (Object.empty.store fields) :=
      Object.From.empty.store fun field mem =>
        (fromBody_message message field mem).mono (List.prefix_append _ _).isInfix
    rcases left with ⟨eq, -⟩ | ⟨n, v, cut, eq⟩
    · rw [eq]
      exact stored
    · rw [eq]
      exact stored.set (fromBody_cut stored cut (List.suffix_append _ _).isInfix)
  rw [parseFromString_eq]
  generalize (WireFormat.mergeAll type.descriptor .empty code).1 = obj at from_
  have int := fits_getInt32 from_
  have opt := fits_getInt32? from_
  have str := part_getString from_
  cases type with
  | csLogin | csRegist => exact ⟨trivial, by simpa [PBType.content, Proto.strings] using ⟨str 1, str 2⟩⟩
  | csChangeTeam => exact ⟨⟨opt 1, opt 2⟩, fun s mem => absurd mem List.not_mem_nil⟩
  | csCreateRoom | csKill => exact ⟨⟨int 1, int 2⟩, fun s mem => absurd mem List.not_mem_nil⟩
  | csJoinRoom | csChoseRole | csMove => exact ⟨int 1, fun s mem => absurd mem List.not_mem_nil⟩
  | csSkill => exact ⟨⟨int 1, int 4⟩, fun s mem => absurd mem List.not_mem_nil⟩
  | _ => exact ⟨trivial, fun s mem => absurd mem List.not_mem_nil⟩

end

/-! ### Requests on their way -/

/-- A message that a client may send: its payload is a request of the class that its number stands for. -/
structure CMessage.Request (mess : CMessage) : Prop where
  payload : ∃ proto type, mess.proto = some proto ∧ proto.type? = some type ∧
    Register.boot.createMessage mess.head.messageId = some type ∧ proto.Fits
  short : (mess.encode .runtime).length ≤ maxMessageLen

/-- A message as it arrives, with its length in the header -/
def CMessage.delivered (mess : CMessage) : CMessage :=
  { mess with head := { mess.head with packetlen := .ofNat (mess.encode .runtime).length } }

section
variable {mess : CMessage}

theorem CMessage.Request.legalFrame (request : mess.Request) : LegalFrame (mess.encode .runtime) := by
  obtain ⟨proto, type, content, -⟩ := request.payload
  refine CMessage.legalFrame_encode (fun empty => ?_) request.short
  have length := congrArg List.length (@CMessage.encode_eq .runtime _ _ content)
  rw [empty, List.length_append, CMessageHead.length_encode] at length
  simp only [List.length_nil, headSize] at length
  omega

theorem CMessage.Request.parse (request : mess.Request) (m : Nat → UInt8) :
    parseStrToMessage .runtime (Memory.write m 0 (mess.encode .runtime)) (mess.encode .runtime).length =
      some mess.delivered := by
  obtain ⟨proto, type, content, typed, registered, fits⟩ := request.payload
  have length := congrArg List.length (@CMessage.encode_eq .runtime _ _ content)
  have short := request.short
  rw [List.length_append] at length
  have small : proto.serialize.length < 2147483648 :=
    Nat.lt_of_le_of_lt (Nat.le_trans (length ▸ Nat.le_add_left _ _) short) (by decide)
  rw [parse_encode content registered short (parse_serialize typed fits small), delivered, content]

end

namespace Receivers
variable {rs : Receivers}

/-- However the requests of a client are cut into chunks, and whatever other connections do in between, the server
    takes them in order and once each, and reads from them what the client put in. A request is never taken late: where
    `get_one_message` finds no more and everything arrived, all of them are there. -/
theorem requests_decoded (uses : List Use) (fresh : Fresh rs) : ∃ rs', useAll uses rs = .ok rs' ∧
    ∀ (c : SockPtr) (requests : List CMessage), (∀ mess ∈ requests, mess.Request) →
      rs'.received c <+: (requests.map (·.encode .runtime)).flatten →
      (rs'.extracted c).length ≤ requests.length ∧
      (∀ m, (rs'.extracted c).map (fun f => parseStrToMessage .runtime (Memory.write m 0 f) f.length) =
        (requests.take (rs'.extracted c).length).map fun mess => some mess.delivered) ∧
      (rs'.received c = (requests.map (·.encode .runtime)).flatten →
        ((rs'.sock c).getOneMessage maxMessageLen).1 ≠ .success → (rs'.extracted c).length = requests.length) := by
  obtain ⟨rs', run, cut⟩ := useAll_cut uses rs fun c => fresh.cut c
  refine ⟨rs', run, fun c requests legal arrived => ?_⟩
  have whole : ∀ f ∈ requests.map (·.encode .runtime), (TcpSocket.cutter maxMessageLen).Whole f := by
    intro f hf
    obtain ⟨mess, mem, rfl⟩ := List.mem_map.mp hf
    exact (legal mess mem).legalFrame.whole
  have pre : rs'.extracted c <+: requests.map (·.encode .runtime) := by
    obtain ⟨k, frames, -⟩ := Cutter.frames_of_prefix whole arrived
    refine List.IsPrefix.trans ?_ (List.take_prefix k _)
    rw [← frames, (cut c).frames]
    exact List.prefix_append _ _
  have eq : rs'.extracted c = (requests.take (rs'.extracted c).length).map (·.encode .runtime) := by
    rw [List.map_take]
    exact List.prefix_iff_eq_take.mp pre
  refine ⟨by simpa using pre.length_le, fun m => ?_, fun all stuck => ?_⟩
  · conv_lhs => rw [eq, List.map_map]
    refine List.map_congr_left fun mess mem => ?_
    rw [Function.comp_apply]
    exact (legal mess (List.mem_of_mem_take mem)).parse m
  · have none : (TcpSocket.cutter maxMessageLen).next (rs'.sock c).unread = none := by
      rcases next : (TcpSocket.cutter maxMessageLen).next (rs'.sock c).unread with _ | n
      · rfl
      · rw [TcpSocket.getOneMessage_some next] at stuck
        exact absurd rfl stuck
    have frames := (cut c).frames
    rw [all, Cutter.frames_flatten whole, Cutter.frames_of_none none, List.append_nil] at frames
    rw [← frames, List.length_map]

def request : CMessage := .build Msg.csMove 9 (.csMove (-3))

/-- A `CSMove` in two chunks, and the begin of another one -/
def chunks : List Use :=
  [.recv 0 fun n => if n = 0 then .data ((request.encode .runtime).take 17) else .again, .get 0,
    .recv 0 fun n => if n = 0 then .data ((request.encode .runtime).drop 17 ++ (request.encode .runtime).take 3) else .again,
    .get 0]

theorem requests_decoded_move : ∃ rs, useAll chunks blank = .ok rs ∧ ∀ m,
    (rs.extracted 0).map (fun f => parseStrToMessage .runtime (Memory.write m 0 f) f.length) = [some request.delivered] := by
  obtain ⟨rs, run, decoded⟩ := @requests_decoded blank chunks ⟨fun _ => ⟨Script.sock, 4, rfl⟩, fun _ => rfl, fun _ => rfl⟩
  have ends : (useAll chunks blank).toOption.map (fun rs => (rs.received 0, (rs.extracted 0).length)) =
      some (request.encode .runtime ++ (request.encode .runtime).take 3, 1) := by decide +kernel
  rw [run] at ends
  obtain ⟨received, extracted⟩ := Prod.mk.inj (Option.some.inj ends)
  have legal : ∀ mess ∈ [request, request], mess.Request := by
    intro mess mem
    simp only [List.mem_cons, List.not_mem_nil, or_false, or_self] at mem
    subst mem
    exact ⟨⟨_, .csMove, rfl, rfl, by decide +kernel, by decide, by decide⟩, by decide +kernel⟩
  have read := (decoded 0 [request, request] legal (by rw [received]; decide +kernel)).2.1
  exact ⟨rs, run, fun m => by rw [read, extracted]; rfl⟩

end Receivers

end IslandSurvival

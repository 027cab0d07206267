import IslandSurvival.Theorems.Scenario

/-! Messages as bytes. The length field that `encode` writes is read by the framing of `TcpSocket` and again by
    `decode`, and the number of a message is read once at a fixed offset, for the prototype, and once with the
    header, for the processor. -/

namespace IslandSurvival

/-! ### Words -/

/-- A word is read back from its bytes. -/
theorem ntohl_of_read {m : Nat → UInt8} {off : Nat} {v : UInt32} (h : Memory.read m off 4 = htonl v) : ntohl m off = v := by
  have cells : [m off, m (off + 1), m (off + 2), m (off + 3)] = htonl v := h
  simp only [htonl, List.cons.injEq, and_true] at cells
  obtain ⟨h₀, h₁, h₂, h₃⟩ := cells
  unfold ntohl
  rw [h₀, h₁, h₂, h₃]
  refine UInt32.toNat_inj.mp ?_
  have bound := v.toNat_lt
  simp only [UInt8.toNat_ofNat', UInt32.toNat_ofNat']
  omega

/-- Four bytes are those of the word read from them. -/
theorem htonl_ntohl (m : Nat → UInt8) (off : Nat) : htonl (ntohl m off) = Memory.read m off 4 := by
  have cells : Memory.read m off 4 = [m off, m (off + 1), m (off + 2), m (off + 3)] := rfl
  rw [cells]
  unfold ntohl htonl
  have b₀ := (m off).toNat_lt
  have b₁ := (m (off + 1)).toNat_lt
  have b₂ := (m (off + 2)).toNat_lt
  have b₃ := (m (off + 3)).toNat_lt
  simp only [List.cons.injEq, and_true, UInt32.toNat_ofNat']
  refine ⟨?_, ?_, ?_, ?_⟩ <;> refine UInt8.toNat_inj.mp ?_ <;> rw [UInt8.toNat_ofNat'] <;> omega

/-- The word depends on its four bytes. -/
theorem ntohl_congr {m m' : Nat → UInt8} {off off' : Nat} (h : Memory.read m off 4 = Memory.read m' off' 4) :
    ntohl m off = ntohl m' off' :=
  ntohl_of_read (h.trans (htonl_ntohl m' off').symm)

/-! ### The header -/

namespace CMessageHead

@[simp] theorem length_encode (h : CMessageHead) : h.encode.length = headSize := rfl

/-- The blocks of the header -/
theorem read_words (m : Nat → UInt8) : Memory.read m 0 headSize =
    Memory.read m 0 4 ++ Memory.read m 4 4 ++ Memory.read m 8 4 ++ Memory.read m 12 4 := rfl

/-- A header is decoded from its encoding. -/
theorem decode_of_read {m : Nat → UInt8} {h : CMessageHead} (bytes : Memory.read m 0 headSize = h.encode) :
    decode m headSize = some h := by
  rw [read_words, encode] at bytes
  obtain ⟨bytes, hash⟩ := List.append_inj' bytes rfl
  obtain ⟨bytes, frame⟩ := List.append_inj' bytes rfl
  obtain ⟨len, id⟩ := List.append_inj' bytes rfl
  simp [decode, ntohl_of_read len, ntohl_of_read id, ntohl_of_read frame, ntohl_of_read hash]

/-- The fields of 16 bytes -/
theorem decode_eq (m : Nat → UInt8) : decode m headSize = some
    { packetlen := (ntohl m 0).toInt32, messageId := (ntohl m 4).toInt32, framenum := (ntohl m 8).toInt32,
      messageHash := ntohl m 12 } := by
  simp [decode]

/-- 16 bytes are the encoding of the header that is decoded from them. -/
theorem encode_of_decode {m : Nat → UInt8} {h : CMessageHead} (decoded : decode m headSize = some h) :
    h.encode = Memory.read m 0 headSize := by
  rw [decode_eq, Option.some.injEq] at decoded
  subst decoded
  simp [encode, htonl_ntohl, read_words]

/-- The headers are the strings of 16 bytes. -/
theorem encode_bijective : Function.Bijective fun h : CMessageHead =>
    (⟨h.encode, length_encode h⟩ : { bytes : Bytes // bytes.length = headSize }) := by
  constructor
  · intro h h' same
    have bytes : h.encode = h'.encode := congrArg Subtype.val same
    have here : decode (Memory.write (fun _ => 0) 0 h.encode) headSize = some h := decode_of_read Memory.read_write
    have there : decode (Memory.write (fun _ => 0) 0 h'.encode) headSize = some h' := decode_of_read Memory.read_write
    rw [bytes] at here
    exact Option.some.inj (here.symm.trans there)
  · rintro ⟨bytes, len⟩
    have decoded := decode_eq (Memory.write (fun _ => 0) 0 bytes)
    exact ⟨_, Subtype.ext ((encode_of_decode decoded).trans (Memory.read_write_of_length_le len))⟩

end CMessageHead

/-! ### The register -/

namespace Register

/-- A use of `REGISTE_MESSAGE_ID(ID, PB_TYPE, PROCESSOR)` -/
structure MacroUse where
  id : Int32
  pbType : PBType
  processor : PBType
deriving DecidableEq, Repr

/-- What the constructor of the macro does. -/
def construct (use : MacroUse) (reg : Register) : Register :=
  (reg.registMessage use.id use.pbType).registProcessor use.id use.processor

/-- The register after the constructors of some uses ran, in that order. -/
def constructed (uses : List MacroUse) : Register := uses.foldl (fun reg use => reg.construct use) empty

/-- The use that a number is registered by -/
def registered (uses : List MacroUse) (id : Int32) : Option MacroUse := uses.find? fun use => use.id = id

/-- A use of the macro in a processor's file names the class of the file twice. -/
def MacroUse.ofSource (use : Int32 × PBType) : MacroUse := { id := use.1, pbType := use.2, processor := use.2 }

variable {use : MacroUse} {reg : Register} {id : Int32}

theorem construct_protoType : (reg.construct use).protoType id =
    (reg.protoType id).or (if use.id = id then some use.pbType else none) := by
  have same : (reg.construct use).protoType = (reg.registMessage use.id use.pbType).protoType := by
    unfold construct registProcessor
    split <;> rfl
  rw [same, registMessage]
  split
  · rename_i taken
    split
    · rename_i here
      obtain ⟨t, ht⟩ := Option.isSome_iff_exists.mp (here ▸ taken)
      simp [ht]
    · simp
  · rename_i free
    by_cases here : id = use.id
    · subst here
      rw [Option.not_isSome_iff_eq_none] at free
      simp [free]
    · simp [Function.update_of_ne here, Ne.symm here]

theorem construct_processor : (reg.construct use).processor id =
    (reg.processor id).or (if use.id = id then some use.processor else none) := by
  have same : (reg.registMessage use.id use.pbType).processor = reg.processor := by
    unfold registMessage
    split <;> rfl
  rw [construct, registProcessor, same]
  split
  · rename_i taken
    rw [same]
    split
    · rename_i here
      obtain ⟨t, ht⟩ := Option.isSome_iff_exists.mp (here ▸ taken)
      simp [ht]
    · simp
  · rename_i free
    by_cases here : id = use.id
    · subst here
      rw [Option.not_isSome_iff_eq_none] at free
      simp [free]
    · simp [Function.update_of_ne here, Ne.symm here]

theorem foldl_construct (id : Int32) : ∀ (uses : List MacroUse) (reg : Register),
    (uses.foldl (fun reg use => reg.construct use) reg).protoType id =
        (reg.protoType id).or ((registered uses id).map MacroUse.pbType) ∧
      (uses.foldl (fun reg use => reg.construct use) reg).processor id =
        (reg.processor id).or ((registered uses id).map MacroUse.processor)
  | [], reg => by simp [registered]
  | use :: uses, reg => by
    obtain ⟨protoType, processor⟩ := foldl_construct id uses (reg.construct use)
    rw [List.foldl_cons, protoType, processor, construct_protoType, construct_processor, Option.or_assoc, Option.or_assoc]
    by_cases here : use.id = id
    · simp [registered, here]
    · simp [registered, here]

/-- The prototype of a number and its processor are those of the first use for the number. -/
theorem constructed_protoType (uses : List MacroUse) (id : Int32) :
    (constructed uses).protoType id = (registered uses id).map MacroUse.pbType := by
  simpa [constructed, empty] using (foldl_construct id uses empty).1

theorem constructed_processor (uses : List MacroUse) (id : Int32) :
    (constructed uses).processor id = (registered uses id).map MacroUse.processor := by
  simpa [constructed, empty] using (foldl_construct id uses empty).2

/-- The register of the server -/
theorem boot_eq : boot = constructed (uses.map MacroUse.ofSource) := by
  rw [boot, constructed, List.foldl_map]
  rfl

theorem boot_processor_of (id : Int32) (type : PBType)
    (found : registered (uses.map MacroUse.ofSource) id = some (.ofSource (id, type))) : boot.processor id = some type := by
  rw [boot_eq, constructed_processor, found]
  rfl

theorem createMessage_eq (id : Int32) (reg : Register) : reg.createMessage id = reg.protoType id := (rfl)

theorem boot_paired : boot.protoType = boot.processor := by
  funext id
  rw [boot_eq, constructed_protoType, constructed_processor]
  cases found : registered (uses.map MacroUse.ofSource) id with
  | none => rfl
  | some use =>
    obtain ⟨source, -, rfl⟩ := List.mem_map.mp (List.mem_of_find?_eq_some found)
    rfl

/-- `ParseStrToMessage` with any register -/
def parse (reg : Register) (pb : Protobuf) (data : Nat → UInt8) (size : Nat) : Option CMessage :=
  CMessage.decode pb (reg.createMessage (ntohl data 4).toInt32) data size

theorem parseStrToMessage_eq (pb : Protobuf) (data : Nat → UInt8) (size : Nat) :
    parseStrToMessage pb data size = boot.parse pb data size := by
  rw [parseStrToMessage, parse]

end Register

/-! ### Decoding -/

section
variable {pb : Protobuf} {data : Nat → UInt8} {size : Nat} {mess : CMessage}

/-- The conditions under which a message is decoded, and the message -/
theorem CMessage.decode_eq_some_iff {type : Option PBType} : decode pb type data size = some mess ↔
    headSize ≤ size ∧ (size : Int) = (ntohl data 0).toInt32.toInt ∧ ∃ t, type = some t ∧ mess =
      { head := { packetlen := (ntohl data 0).toInt32, messageId := (ntohl data 4).toInt32,
                  framenum := (ntohl data 8).toInt32, messageHash := ntohl data 12 }
        proto := some (pb.parseFromString t (Memory.read data headSize (size - headSize))).1 } := by
  cases type with
  | none => simp [decode]
  | some t =>
    simp only [decode, CMessageHead.decode_eq, Option.some.injEq, exists_eq_left']
    split
    · rename_i short
      simp [Nat.not_le_of_lt short]
    · rename_i long
      split
      · rename_i differs
        simp [differs]
      · rename_i same
        simp only [ne_eq, not_not] at same
        simp [Nat.le_of_not_lt long, same, eq_comm]

/-- The number of a decoded message is that of the bytes, and its content is of the class it was decoded as. -/
theorem CMessage.decode_eq_some {type : Option PBType} (h : decode pb type data size = some mess) :
    ∃ t, type = some t ∧ mess.head.messageId = (ntohl data 4).toInt32 ∧
      ∃ proto, mess.proto = some proto ∧ proto.type? = some t := by
  obtain ⟨-, -, t, typed, rfl⟩ := decode_eq_some_iff.mp h
  exact ⟨t, typed, rfl, _, rfl, pb.parse_type _ _⟩

/-- A message that can be parsed has a processor, for the class of its content. -/
theorem processor_of_parsed (parsed : parseStrToMessage pb data size = some mess) :
    ∃ type, Register.boot.processor mess.head.messageId = some type ∧
      ∃ proto, mess.proto = some proto ∧ proto.type? = some type := by
  rw [parseStrToMessage] at parsed
  obtain ⟨type, registered, id, content⟩ := CMessage.decode_eq_some parsed
  rw [Register.createMessage_eq, Register.boot_paired, ← id] at registered
  exact ⟨type, registered, content⟩

/-- Whatever the uses of the macro and their order, a message that can be parsed is processed by the processor of
    the use that also gave the prototype of its content. -/
theorem parsed_by_one_use {uses : List Register.MacroUse} (parsed : (Register.constructed uses).parse pb data size = some mess) :
    ∃ use ∈ uses, Register.registered uses mess.head.messageId = some use ∧
      (Register.constructed uses).createMessage (ntohl data 4).toInt32 = some use.pbType ∧
      (Register.constructed uses).processor mess.head.messageId = some use.processor ∧
      ∃ proto, mess.proto = some proto ∧ proto.type? = some use.pbType ∧
        ((∀ use ∈ uses, ∃ source ∈ Register.uses, use = .ofSource source) → proto.type? = some use.processor) := by
  obtain ⟨type, registered, id, proto, content, ofType⟩ := CMessage.decode_eq_some parsed
  rw [Register.createMessage_eq, Register.constructed_protoType, ← id] at registered
  obtain ⟨use, found, rfl⟩ := Option.map_eq_some_iff.mp registered
  have mem : use ∈ uses := List.mem_of_find?_eq_some found
  refine ⟨use, mem, found, ?_, ?_, proto, content, ofType, fun source => ?_⟩
  · rw [Register.createMessage_eq, Register.constructed_protoType, ← id, found]
    rfl
  · rw [Register.constructed_processor, found]
    rfl
  · obtain ⟨use', -, rfl⟩ := source use mem
    exact ofType

end

/-- Two uses for one number, of which the second does not count -/
theorem parsed_by_one_use_twice : ∃ use ∈ [Register.MacroUse.mk 0x18 .csMove .csMove, .mk 0x18 .csKill .csKill],
    (Register.constructed [.mk 0x18 .csMove .csMove, .mk 0x18 .csKill .csKill]).processor 0x18 = some use.processor := by
  have parsed : (Register.constructed [.mk 0x18 .csMove .csMove, .mk 0x18 .csKill .csKill]).parse Script.pb
      (Script.received 0x18) 16 = some (Script.parsed 0x18 (.csMove 1)) := by decide +kernel
  obtain ⟨use, mem, -, -, processor, -⟩ := parsed_by_one_use parsed
  exact ⟨use, mem, processor⟩

/-! ### Parsing -/

section
variable {pb : Protobuf} {data : Nat → UInt8} {size : Nat} {mess : CMessage} {type : PBType}

/-- The bytes of a frame up to its body: it is long enough, as long as its length field says, and its number is
    registered for the class. -/
def Framed (data : Nat → UInt8) (size : Nat) (type : PBType) : Prop :=
  headSize ≤ size ∧ (ntohl data 0).toNat = size ∧ Register.boot.createMessage (ntohl data 4).toInt32 = some type

/-- The body of a frame is a valid serialization of the class: `ParseFromString` returns true. -/
def ValidBody (pb : Protobuf) (data : Nat → UInt8) (size : Nat) (type : PBType) : Prop :=
  (pb.parseFromString type (Memory.read data headSize (size - headSize))).2 = true

/-- A short length is read alike with and without sign. -/
theorem toInt32_eq_iff {v : UInt32} {n : Nat} (h : n < 2147483648) : (n : Int) = v.toInt32.toInt ↔ v.toNat = n := by
  have bound := v.toNat_lt
  have signed : v.toInt32.toInt = (v.toNat : Int).bmod (2 ^ 32) := BitVec.toInt_eq_toNat_bmod v.toBitVec
  rw [signed, Int.bmod_def]
  split <;> omega

/-- What `ParseStrToMessage` looks at -/
theorem parse_isSome_iff (h : size ≤ maxMessageLen) :
    (parseStrToMessage pb data size).isSome ↔ ∃ type, Framed data size type := by
  have short : size < 2147483648 := Nat.lt_of_le_of_lt h (by decide)
  simp only [Option.isSome_iff_exists, parseStrToMessage, CMessage.decode_eq_some_iff, toInt32_eq_iff short, Framed]
  constructor
  · rintro ⟨mess, long, len, type, registered, -⟩
    exact ⟨type, long, len, registered⟩
  · rintro ⟨type, long, len, registered⟩
    exact ⟨_, long, len, type, registered, rfl⟩

/-- Of a frame that is not a message of a registered class, only one with a broken body is accepted. -/
theorem parse_strict_iff (h : size ≤ maxMessageLen) :
    ((parseStrToMessage pb data size).isSome ↔ ∃ type, Framed data size type ∧ ValidBody pb data size type) ↔
      ∀ type, Framed data size type → ValidBody pb data size type := by
  rw [parse_isSome_iff h]
  constructor
  · intro strict type framed
    obtain ⟨type', framed', valid⟩ := strict.mp ⟨type, framed⟩
    obtain rfl : type = type' := Option.some.inj (framed.2.2.symm.trans framed'.2.2)
    exact valid
  · intro valid
    constructor
    · rintro ⟨type, framed⟩
      exact ⟨type, framed, valid type framed⟩
    · rintro ⟨type, framed, -⟩
      exact ⟨type, framed⟩

/-- The runtime of the script, for which the required field of a `CSMove` has to be there. -/
def Script.strictPb : Protobuf where
  serializeToString := Script.pb.serializeToString
  parseFromString
    | .csMove, [] => (.csMove 0, false)
    | type, code => Script.pb.parseFromString type code
  parse_type type code := by
    split
    · rfl
    · exact Script.pb.parse_type _ _

theorem parse_strict_load :
    (parseStrToMessage Script.strictPb (Script.received 0x12) 16).isSome ↔
      ∃ type, Framed (Script.received 0x12) 16 type ∧ ValidBody Script.strictPb (Script.received 0x12) 16 type := by
  refine (parse_strict_iff (by decide)).mpr fun type framed => ?_
  have load : Register.boot.createMessage 0x12 = some .csLoadSucceed := by decide +kernel
  have here : (ntohl (Script.received 0x12) 4).toInt32 = 0x12 := by decide +kernel
  obtain rfl : PBType.csLoadSucceed = type := Option.some.inj (load.symm.trans (here ▸ framed.2.2))
  rfl

/-- A `CSMove` without its required field is accepted. -/
theorem broken_body_accepted :
    ¬((parseStrToMessage Script.strictPb (Script.received 0x18) 16).isSome ↔
      ∃ type, Framed (Script.received 0x18) 16 type ∧ ValidBody Script.strictPb (Script.received 0x18) 16 type) := by
  intro strict
  have accepted : (parseStrToMessage Script.strictPb (Script.received 0x18) 16).isSome := by decide +kernel
  obtain ⟨type, framed, valid⟩ := strict.mp accepted
  have move : Register.boot.createMessage 0x18 = some .csMove := by decide +kernel
  have here : (ntohl (Script.received 0x18) 4).toInt32 = 0x18 := by decide +kernel
  obtain rfl : PBType.csMove = type := Option.some.inj (move.symm.trans (here ▸ framed.2.2))
  cases valid

/-- The bytes of an encoded message -/
theorem CMessage.encode_eq {proto : Proto} (content : mess.proto = some proto) : mess.encode pb =
    { mess.head with packetlen := .ofNat (mess.encode pb).length }.encode ++ pb.serializeToString proto := by
  simp only [encode, content, List.length_append, CMessageHead.length_encode]
  rw [Nat.add_comm]

/-- The word at the begin of an encoded message is its length. -/
theorem CMessage.length_word {proto : Proto} (content : mess.proto = some proto)
    (len : (mess.encode pb).length ≤ maxMessageLen) {m : Nat → UInt8} {off : Nat}
    (bytes : Memory.read m off (mess.encode pb).length = mess.encode pb) :
    4 < (mess.encode pb).length ∧ (ntohl m off).toInt32.toInt = (mess.encode pb).length := by
  have eq := @encode_eq pb _ _ content
  have long : headSize ≤ (mess.encode pb).length := by
    rw [eq, List.length_append, CMessageHead.length_encode]
    exact Nat.le_add_right _ _
  have long' : 4 ≤ (mess.encode pb).length := Nat.le_trans (by decide) long
  refine ⟨Nat.lt_of_lt_of_le (by decide) long, ?_⟩
  have word : Memory.read m off 4 = htonl (Int32.ofNat (mess.encode pb).length).toUInt32 := by
    have front := congrArg (List.take 4) bytes
    rw [Memory.take_read long'] at front
    rw [front]
    generalize (mess.encode pb).length = n at eq
    rw [eq]
    rfl
  rw [ntohl_of_read word, Int32.toInt32_toUInt32, Int32.toInt_ofNat_of_lt]
  exact Nat.lt_of_le_of_lt len (by decide)

/-- An encoded message at the head of the receive buffer is extracted. -/
theorem TcpSocket.getOneMessage_encode {proto : Proto} (content : mess.proto = some proto)
    (len : (mess.encode pb).length ≤ maxMessageLen) {sock : TcpSocket} {rest : Bytes}
    (arrived : sock.unread = mess.encode pb ++ rest) :
    ∃ sock', sock.getOneMessage maxMessageLen = (.success, mess.encode pb, sock') ∧ sock'.unread = rest := by
  have size := congrArg List.length arrived
  rw [unread, Memory.length_read, List.length_append] at size
  have bytes : Memory.read sock.recvBuffer sock.recvHead (mess.encode pb).length = mess.encode pb := by
    have front := congrArg (List.take (mess.encode pb).length) arrived
    rwa [unread, Memory.take_read (by omega), List.take_left] at front
  have behind : Memory.read sock.recvBuffer (sock.recvHead + (mess.encode pb).length)
      (sock.recvTail - sock.recvHead - (mess.encode pb).length) = rest := by
    have back := congrArg (List.drop (mess.encode pb).length) arrived
    rwa [unread, Memory.drop_read (by omega), List.drop_left] at back
  obtain ⟨long, word⟩ := CMessage.length_word content len bytes
  refine ⟨{ sock with recvHead := sock.recvHead + (mess.encode pb).length }, ?_, ?_⟩
  · rw [getOneMessage, if_neg (by omega)]
    simp only [word]
    rw [if_neg (by omega), if_neg (by omega), Int.toNat_natCast, bytes]
  · rw [unread, ← Nat.sub_sub]
    exact behind

/-- The bytes of a message are parsed to a message with the same fields, whatever was in the buffer before. -/
theorem parse_encode {proto : Proto} (content : mess.proto = some proto)
    (registered : Register.boot.createMessage mess.head.messageId = some type)
    (len : (mess.encode pb).length ≤ maxMessageLen)
    (undo : pb.parseFromString type (pb.serializeToString proto) = (proto, true)) (m : Nat → UInt8) :
    parseStrToMessage pb (Memory.write m 0 (mess.encode pb)) (mess.encode pb).length =
      some { head := { mess.head with packetlen := .ofNat (mess.encode pb).length }, proto := some proto } := by
  have eq := @CMessage.encode_eq pb _ _ content
  have bytes : Memory.read (Memory.write m 0 (mess.encode pb)) 0 (mess.encode pb).length = mess.encode pb :=
    Memory.read_write
  have word := CMessage.length_word content len bytes
  generalize Memory.write m 0 (mess.encode pb) = data at bytes word
  generalize hcode : mess.encode pb = code at bytes word eq len
  have size : code.length = headSize + (pb.serializeToString proto).length := by
    conv_lhs => rw [eq]
    simp
  have head : Memory.read data 0 headSize = { mess.head with packetlen := .ofNat code.length }.encode := by
    have front := congrArg (List.take headSize) bytes
    rw [Memory.take_read (by omega)] at front
    rw [front]
    conv_lhs => rw [eq]
    exact List.take_left' rfl
  have body : Memory.read data headSize (code.length - headSize) = pb.serializeToString proto := by
    have back := congrArg (List.drop headSize) bytes
    rw [Memory.drop_read (by omega), Nat.zero_add] at back
    rw [back]
    conv_lhs => rw [eq]
    exact List.drop_left' rfl
  have decoded := CMessageHead.decode_of_read head
  rw [CMessageHead.decode_eq, Option.some.injEq] at decoded
  rw [parseStrToMessage, CMessage.decode_eq_some_iff, decoded]
  have id : (ntohl data 4).toInt32 = mess.head.messageId := congrArg CMessageHead.messageId decoded
  refine ⟨by omega, word.2.symm, type, ?_, ?_⟩
  · rw [id]
    exact registered
  · rw [body, undo]

end

/-- An encoded message that arrives is extracted and parsed to the same message, whatever follows it and whatever
    was in the buffer of the server before; and a header is the same as its 16 bytes. -/
theorem codec_round_trip {pb : Protobuf} {mess : CMessage} {proto : Proto} {type : PBType}
    (content : mess.proto = some proto) (registered : Register.boot.createMessage mess.head.messageId = some type)
    (len : (mess.encode pb).length ≤ maxMessageLen)
    (undo : pb.parseFromString type (pb.serializeToString proto) = (proto, true)) :
    (∀ (sock : TcpSocket) (rest : Bytes) (m : Nat → UInt8), sock.unread = mess.encode pb ++ rest →
      ∃ sock', sock.getOneMessage maxMessageLen = (.success, mess.encode pb, sock') ∧ sock'.unread = rest ∧
        ∃ mess', parseStrToMessage pb (Memory.write m 0 (mess.encode pb)) (mess.encode pb).length = some mess' ∧
          mess'.head.messageId = mess.head.messageId ∧ mess'.head.framenum = mess.head.framenum ∧
          mess'.head.messageHash = mess.head.messageHash ∧ mess'.proto = mess.proto) ∧
    (Function.Bijective fun h : CMessageHead =>
      (⟨h.encode, h.length_encode⟩ : { bytes : Bytes // bytes.length = headSize })) ∧
    ∀ (h : CMessageHead) (m : Nat → UInt8), CMessageHead.decode m headSize = some h ↔ Memory.read m 0 headSize = h.encode := by
  refine ⟨?_, CMessageHead.encode_bijective, ?_⟩
  · intro sock rest m arrived
    obtain ⟨sock', extracted, unread⟩ := TcpSocket.getOneMessage_encode content len arrived
    have parsed := parse_encode content registered len undo m
    exact ⟨sock', extracted, unread, _, parsed, rfl, rfl, rfl, content.symm⟩
  · intro h m
    exact ⟨fun decoded => (CMessageHead.encode_of_decode decoded).symm, CMessageHead.decode_of_read⟩

/-- A `CSPullAllRoomInfo` with a negative frame number -/
def Script.pullRooms : CMessage where
  head := { packetlen := 0, messageId := Msg.csPullAllRoomInfo, framenum := -1, messageHash := 0xffffffff }
  proto := some .csPullAllRoomInfo

theorem codec_round_trip_pullRooms :
    parseStrToMessage Script.pb (Memory.write (fun _ => 7) 0 (Script.pullRooms.encode Script.pb)) 16 =
      some { head := { Script.pullRooms.head with packetlen := 16 }, proto := some .csPullAllRoomInfo } ∧
    ∀ (sock : TcpSocket) (rest : Bytes), sock.unread = Script.pullRooms.encode Script.pb ++ rest →
      ∃ sock', sock.getOneMessage maxMessageLen = (.success, Script.pullRooms.encode Script.pb, sock') ∧
        sock'.unread = rest := by
  refine ⟨by decide +kernel, fun sock rest arrived => ?_⟩
  obtain ⟨sock', extracted, unread, -⟩ := (@codec_round_trip Script.pb Script.pullRooms
    .csPullAllRoomInfo .csPullAllRoomInfo rfl (by decide +kernel) (by decide) rfl).1
      sock rest (fun _ => 7) arrived
  exact ⟨sock', extracted, unread⟩

end IslandSurvival

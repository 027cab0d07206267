import IslandSurvival.Theorems.Streams

/-! Frames over several connections. However the stream of a connection is split by `recv`, and whatever other
    connections do in between with the buffer that they share, its frames are extracted in order and once each. -/

namespace IslandSurvival

/-! ### The parser and its buffer -/

section
variable {pb : Protobuf} {data data' : Nat → UInt8} {size : Nat}

theorem read_of_read (same : Memory.read data 0 size = Memory.read data' 0 size) {off n : Nat} (h : off + n ≤ size) :
    Memory.read data off n = Memory.read data' off n := by
  have cells := congrArg (fun l => (l.drop off).take n) same
  simp only [Memory.drop_read (show off ≤ size by omega)] at cells
  rwa [Memory.take_read (by omega), Memory.take_read (by omega), Nat.zero_add] at cells

/-- `ParseStrToMessage` depends on the bytes of the message only. -/
theorem parse_congr (same : Memory.read data 0 size = Memory.read data' 0 size) :
    parseStrToMessage pb data size = parseStrToMessage pb data' size := by
  by_cases long : headSize ≤ size
  · have word : ∀ off, off + 4 ≤ headSize → ntohl data off = ntohl data' off := fun off h =>
      ntohl_congr (read_of_read same (Nat.le_trans h long))
    have body : Memory.read data headSize (size - headSize) = Memory.read data' headSize (size - headSize) :=
      read_of_read same (Nat.le_of_eq (Nat.add_sub_cancel' long))
    refine Option.ext fun mess => ?_
    simp only [parseStrToMessage, CMessage.decode_eq_some_iff, body, word 0 (by decide), word 4 (by decide),
      word 8 (by decide), word 12 (by decide)]
  · refine Option.ext fun mess => ?_
    simp only [parseStrToMessage, CMessage.decode_eq_some_iff, long, false_and]

/-- What is left in the buffer behind a message, or was there before it, does not matter. -/
theorem parse_residue (f : Bytes) (m : Nat → UInt8) :
    parseStrToMessage pb (Memory.write m 0 f) f.length = parseStrToMessage pb (Memory.write (fun _ => 0) 0 f) f.length :=
  parse_congr (Memory.read_write.trans Memory.read_write.symm)

end

/-! ### Connections that share a buffer -/

/-- A frame as `get_one_message` takes it: 16 to 4096 bytes, the first four of which are their number. -/
structure LegalFrame (f : Bytes) : Prop where
  long : headSize ≤ f.length
  short : f.length ≤ maxMessageLen
  length : TcpSocket.lengthField f = f.length

theorem LegalFrame.whole {f : Bytes} (legal : LegalFrame f) : (TcpSocket.cutter maxMessageLen).Whole f := by
  have long : 4 < f.length := Nat.lt_of_lt_of_le (by decide) legal.long
  have short := legal.short
  rw [Cutter.Whole, TcpSocket.next_cutter, legal.length, if_neg (by omega), if_pos (by omega), Int.toNat_natCast]

/-- The encoding of a message with an object is a frame, if it is not too long. -/
theorem CMessage.legalFrame_encode {pb : Protobuf} {mess : CMessage} (content : mess.encode pb ≠ [])
    (short : (mess.encode pb).length ≤ maxMessageLen) : LegalFrame (mess.encode pb) := by
  cases object : mess.proto with
  | none => exact absurd (by rw [encode, object]) content
  | some proto =>
    have eq := @CMessage.encode_eq pb _ _ object
    have bytes : Memory.read (fun i => (mess.encode pb).getD i 0) 0 (mess.encode pb).length = mess.encode pb :=
      (Memory.read_getD (Nat.le_refl _)).trans List.take_length
    refine ⟨?_, short, (CMessage.length_word object short bytes).2⟩
    rw [eq, List.length_append, CMessageHead.length_encode]
    exact Nat.le_add_right _ _

/-- What the server does with the receiving side of its connections -/
inductive Use
  /-- `RecvData`, with the answers of the kernel -/
  | recv (c : SockPtr) (kernel : Nat → RecvAnswer)
  /-- `get_one_message` into `recv_data_` -/
  | get (c : SockPtr)

/-- The sockets and `recv_data_`, with what was received and extracted so far. -/
structure Receivers where
  sock : SockPtr → TcpSocket
  recvData : Nat → UInt8
  received : SockPtr → Bytes
  extracted : SockPtr → List Bytes

namespace Receivers

def use (rs : Receivers) : Use → Except Fault Receivers
  | .recv c kernel =>
    match (rs.sock c).recvData kernel with
    | .error e => .error e
    | .ok out => .ok { rs with
      sock := Function.update rs.sock c out.sock
      received := Function.update rs.received c (rs.received c ++ out.received) }
  | .get c =>
    match (rs.sock c).getOneMessage maxMessageLen with
    | (.success, data, sock) => .ok { rs with
      sock := Function.update rs.sock c sock
      recvData := Memory.write rs.recvData 0 data
      extracted := Function.update rs.extracted c (rs.extracted c ++ [data]) }
    | _ => .ok rs

def useAll : List Use → Receivers → Except Fault Receivers
  | [], rs => .ok rs
  | u :: uses, rs =>
    match rs.use u with
    | .error e => .error e
    | .ok rs => useAll uses rs

/-- Sockets of new connections, from which nothing was received -/
structure Fresh (rs : Receivers) : Prop where
  init : ∀ c, ∃ sock fd, rs.sock c = { TcpSocket.init sock with iSockfd := fd, isUsing := true }
  received : ∀ c, rs.received c = []
  extracted : ∀ c, rs.extracted c = []

/-- What was received is what was extracted and what is unread, cut by the same rule. -/
structure Cut (rs : Receivers) (c : SockPtr) : Prop where
  valid : (rs.sock c).Valid
  using_ : (rs.sock c).isUsing = true
  frames : (TcpSocket.cutter maxMessageLen).frames (rs.received c) =
    rs.extracted c ++ (TcpSocket.cutter maxMessageLen).frames (rs.sock c).unread
  rest : (TcpSocket.cutter maxMessageLen).rest (rs.received c) = (TcpSocket.cutter maxMessageLen).rest (rs.sock c).unread

variable {rs rs' : Receivers} {c : SockPtr}

theorem Fresh.cut (fresh : Fresh rs) (c : SockPtr) : Cut rs c := by
  obtain ⟨sock, fd, init⟩ := fresh.init c
  have none : (rs.sock c).unread = [] := by
    rw [init]
    rfl
  refine ⟨?_, by rw [init], ?_, by rw [none, fresh.received]⟩
  · rw [init]
    exact ⟨Nat.le_refl _, Nat.zero_le _, Nat.le_refl _, Nat.zero_le _⟩
  · rw [none, fresh.received, fresh.extracted, List.nil_append]

/-- A use of one socket keeps the rule for all of them. -/
theorem use_cut (u : Use) (h : ∀ c, Cut rs c) : ∃ rs', rs.use u = .ok rs' ∧ ∀ c, Cut rs' c := by
  cases u with
  | recv c kernel =>
    obtain ⟨out, run, done⟩ := TcpSocket.recvData_spec kernel (h c).valid (h c).using_
    refine ⟨_, by simp only [use, run]; rfl, fun d => ?_⟩
    by_cases hd : d = c
    · subst hd
      have inUse : out.sock.isUsing = true := by
        obtain ⟨_, _, _, same⟩ := done.same
        rw [same]
        exact (h d).using_
      refine ⟨by simpa using done.valid, by simpa using inUse, ?_, ?_⟩
      · simp only [Function.update_self]
        rw [done.unread, Cutter.frames_append, Cutter.frames_append (rs.sock d).unread, (h d).frames, (h d).rest,
          List.append_assoc]
      · simp only [Function.update_self]
        rw [done.unread, Cutter.rest_append, Cutter.rest_append (rs.sock d).unread, (h d).rest]
    · have here := h d
      exact ⟨by simpa [hd] using here.valid, by simpa [hd] using here.using_, by simpa [hd] using here.frames,
        by simpa [hd] using here.rest⟩
  | get c =>
    cases next : (TcpSocket.cutter maxMessageLen).next (rs.sock c).unread with
    | none =>
      obtain ⟨ret, fails, got⟩ := TcpSocket.getOneMessage_none next
      refine ⟨rs, ?_, h⟩
      simp only [use, got]
      split
      · rename_i heq
        exact absurd (congrArg Prod.fst heq) fails
      · rfl
    | some n =>
      have got := TcpSocket.getOneMessage_some next
      refine ⟨_, by simp only [use, got]; rfl, fun d => ?_⟩
      by_cases hd : d = c
      · subst hd
        have fits := ((TcpSocket.cutter maxMessageLen).fits next).2
        rw [TcpSocket.length_unread] at fits
        have unread : TcpSocket.unread { rs.sock d with recvHead := (rs.sock d).recvHead + n } = (rs.sock d).unread.drop n := by
          rw [TcpSocket.unread, TcpSocket.unread, Memory.drop_read fits, Nat.sub_sub]
        have valid := (h d).valid
        have head := valid.recvHead
        refine ⟨?_, by simpa using (h d).using_, ?_, ?_⟩
        · simp only [Function.update_self]
          exact ⟨by simp only; omega, valid.recvTail, valid.sendHead, valid.sendTail⟩
        · simp only [Function.update_self]
          rw [unread, (h d).frames, Cutter.frames_of_some next, List.append_assoc]
          rfl
        · simp only [Function.update_self]
          rw [unread, (h d).rest, Cutter.rest_of_some next]
      · have here := h d
        exact ⟨by simpa [hd] using here.valid, by simpa [hd] using here.using_, by simpa [hd] using here.frames,
          by simpa [hd] using here.rest⟩

theorem useAll_cut : ∀ (uses : List Use) (rs : Receivers), (∀ c, Cut rs c) → ∃ rs', useAll uses rs = .ok rs' ∧ ∀ c, Cut rs' c
  | [], rs, h => ⟨rs, rfl, h⟩
  | u :: uses, rs, h => by
    obtain ⟨rs₁, run, h₁⟩ := use_cut u h
    obtain ⟨rs₂, runs, h₂⟩ := useAll_cut uses rs₁ h₁
    exact ⟨rs₂, by simp only [useAll, run, runs], h₂⟩

/-- Of a connection that is sent legal frames, exactly these are extracted, in order and once each; where no more
    can be extracted, what is unread is a proper part of the next one. -/
theorem frames_reassembled (pb : Protobuf) (uses : List Use) (fresh : Fresh rs) : ∃ rs', useAll uses rs = .ok rs' ∧
    ∀ (c : SockPtr) (fs : List Bytes), (∀ f ∈ fs, LegalFrame f) → rs'.received c <+: fs.flatten →
      rs'.extracted c <+: fs ∧ (rs'.extracted c).flatten ++ (rs'.sock c).unread = rs'.received c ∧
      (((rs'.sock c).getOneMessage maxMessageLen).1 ≠ .success →
        (rs'.sock c).unread = [] ∧ rs'.extracted c = fs ∨
          ∃ f, fs[(rs'.extracted c).length]? = some f ∧ (rs'.sock c).unread <+: f ∧ (rs'.sock c).unread ≠ f) ∧
      ∀ f ∈ rs'.extracted c, ∀ m, parseStrToMessage pb (Memory.write m 0 f) f.length =
        parseStrToMessage pb (Memory.write (fun _ => 0) 0 f) f.length := by
  obtain ⟨rs', run, cut⟩ := useAll_cut uses rs fun c => fresh.cut c
  refine ⟨rs', run, fun c fs legal arrived => ?_⟩
  obtain ⟨k, frames, left⟩ := Cutter.frames_of_prefix (fun f hf => (legal f hf).whole) arrived
  have pre : rs'.extracted c <+: fs := by
    refine List.IsPrefix.trans ?_ (List.take_prefix k fs)
    rw [← frames, (cut c).frames]
    exact List.prefix_append _ _
  refine ⟨pre, ?_, fun stuck => ?_, fun f _ m => parse_residue f m⟩
  · have whole := @Cutter.flatten_frames _ (TcpSocket.cutter maxMessageLen) (rs'.received c)
    rw [(cut c).frames, (cut c).rest, List.flatten_append, List.append_assoc, Cutter.flatten_frames] at whole
    exact whole
  · have none : (TcpSocket.cutter maxMessageLen).next (rs'.sock c).unread = none := by
      cases next : (TcpSocket.cutter maxMessageLen).next (rs'.sock c).unread with
      | none => rfl
      | some n =>
        rw [TcpSocket.getOneMessage_some next] at stuck
        exact absurd rfl stuck
    have all := (cut c).frames
    have rest := (cut c).rest
    rw [Cutter.frames_of_none none, List.append_nil, frames] at all
    rw [Cutter.rest_of_none none] at rest
    rw [rest] at left
    rcases left with ⟨empty, enough⟩ | ⟨f, next, part⟩
    · exact .inl ⟨empty, by rw [← all, List.take_of_length_le enough]⟩
    · have length : (rs'.extracted c).length = k := by
        rw [← all, List.length_take]
        have := (List.getElem?_eq_some_iff.mp next).1
        omega
      exact .inr ⟨f, by rw [length]; exact next, part⟩

/-- A `CSMove` in two parts, with the first half of the next one behind it. -/
def script : List Use :=
  [.recv 0 fun n => if n = 0 then .data ((Script.request 0x18).take 5) else .again, .get 0,
    .recv 0 fun n => if n = 0 then .data ((Script.request 0x18).drop 5 ++ (Script.request 0x18).take 3) else .again, .get 0]

def blank : Receivers where
  sock _ := { Script.sock.init with iSockfd := 4, isUsing := true }
  recvData _ := 0
  received _ := []
  extracted _ := []

theorem frames_reassembled_move : ∃ rs, useAll script blank = .ok rs ∧ rs.extracted 0 <+: [Script.request 0x18, Script.request 0x18] ∧
    rs.extracted 0 = [Script.request 0x18] := by
  obtain ⟨rs, run, reassembled⟩ := @frames_reassembled blank Script.pb script
    ⟨fun _ => ⟨Script.sock, 4, rfl⟩, fun _ => rfl, fun _ => rfl⟩
  have ends : (useAll script blank).toOption.map (fun rs => (rs.received 0, rs.extracted 0)) =
      some (Script.request 0x18 ++ (Script.request 0x18).take 3, [Script.request 0x18]) := by decide +kernel
  rw [run] at ends
  obtain ⟨received, extracted⟩ := Prod.mk.inj (Option.some.inj ends)
  have legal : ∀ f ∈ [Script.request 0x18, Script.request 0x18], LegalFrame f := by
    intro f hf
    simp only [List.mem_cons, List.not_mem_nil, or_false, or_self] at hf
    subst hf
    exact ⟨by decide, by decide, by decide +kernel⟩
  exact ⟨rs, run, (reassembled 0 _ legal (by rw [received]; decide)).1, extracted⟩

end Receivers

end IslandSurvival

import IslandSurvival.Theorems.Sends

/-! The receive buffer. Whatever the kernel answers, the head and the tail stay in the buffer, and `RecvData` asks for
    bytes only while there is room for some. -/

namespace IslandSurvival
namespace TcpSocket

/-! ### The calls of `recv` -/

/-- A call of `recv` in `RecvData`: the socket at this time, and what the kernel answers -/
structure RecvCall where
  sock : TcpSocket
  answer : RecvAnswer

namespace RecvCall

/-- `recv_buffer_size - m_recv_tail` -/
def size (call : RecvCall) : Nat := recvBufferSize - call.sock.recvTail

/-- The bytes that are written to the buffer -/
def got (call : RecvCall) : Bytes :=
  match call.answer with
  | .data bytes => bytes.take call.size
  | _ => []

/-- `received_byte` -/
def result (call : RecvCall) : Int :=
  match call.answer with
  | .data _ => call.got.length
  | .eof => 0
  | .again | .error => -1

/-- The socket after the call -/
def next (call : RecvCall) : TcpSocket :=
  { call.sock with
    recvBuffer := Memory.write call.sock.recvBuffer call.sock.recvTail call.got
    recvTail := call.sock.recvTail + call.got.length }

/-- The call writes to the free end of the buffer, which is not empty. -/
structure Inside (call : RecvCall) : Prop where
  recvHead : call.sock.recvHead ≤ call.sock.recvTail
  positive : 0 < call.size
  fits : call.sock.recvTail + call.size ≤ recvBufferSize
  got : call.got.length ≤ call.size
  /-- The result is 0 at the end of the stream, where the kernel has no bytes and will have none. -/
  zero : call.result = 0 → call.answer = .eof ∨ call.answer = .data []

end RecvCall

/-- The calls of the loop in `RecvData` from call `n` of the kernel on, with the status and the socket in the end -/
inductive RecvRun (kernel : Nat → RecvAnswer) : Nat → TcpSocket → List RecvCall → ReadStatus → TcpSocket → Prop
  | full {n sock} (stuck : sock.tryMoveReceDataAhead = none) : RecvRun kernel n sock [] .notFinish sock
  | again {n sock sock'} (moved : sock.tryMoveReceDataAhead = some sock') (again : kernel n = .again) :
      RecvRun kernel n sock [⟨sock', kernel n⟩] .success sock'
  | failed {n sock sock'} (moved : sock.tryMoveReceDataAhead = some sock') (other : kernel n ≠ .again)
      (none : RecvCall.got ⟨sock', kernel n⟩ = []) : RecvRun kernel n sock [⟨sock', kernel n⟩] .error sock'
  | got {n sock sock' calls status out} (moved : sock.tryMoveReceDataAhead = some sock')
      (some : RecvCall.got ⟨sock', kernel n⟩ ≠ [])
      (rest : RecvRun kernel (n + 1) (RecvCall.next ⟨sock', kernel n⟩) calls status out) :
      RecvRun kernel n sock (⟨sock', kernel n⟩ :: calls) status out

section
variable {kernel : Nat → RecvAnswer} {sock sock' : TcpSocket} {calls : List RecvCall} {status : ReadStatus} {n : Nat}
  {out : RecvOutcome}

/-- The loop makes these calls, and what it received is what they gave. -/
theorem recvLoop_run : ∀ {fuel n : Nat} {received : Bytes} {sock : TcpSocket},
    recvLoop kernel fuel n received sock = .ok out → ∃ calls, RecvRun kernel n sock calls out.status out.sock ∧
      out.calls = n + calls.length ∧ out.received = received ++ calls.flatMap RecvCall.got
  | 0, _, _, _, run => by cases run
  | fuel + 1, n, received, sock, run => by
    unfold recvLoop at run
    split at run
    · rename_i stuck
      obtain rfl := Except.ok.inj run
      exact ⟨[], .full stuck, rfl, (List.append_nil _).symm⟩
    · rename_i sock' moved
      split at run
      · rename_i bytes answer
        have got : RecvCall.got ⟨sock', kernel n⟩ = bytes.take (recvBufferSize - sock'.recvTail) := by
          simp [RecvCall.got, RecvCall.size, answer]
        simp only at run
        split at run
        · rename_i none
          obtain rfl := Except.ok.inj run
          refine ⟨_, .failed moved (by simp [answer]) (got.trans none), rfl, ?_⟩
          simp [got, none]
        · rename_i some
          obtain ⟨calls, rest, count, received'⟩ := recvLoop_run run
          rw [← got] at rest some
          refine ⟨_, .got moved some rest, ?_, ?_⟩
          · rw [count, List.length_cons]
            omega
          · rw [received', List.flatMap_cons, got, List.append_assoc]
      · rename_i answer
        obtain rfl := Except.ok.inj run
        exact ⟨_, .again moved answer, rfl, by simp [RecvCall.got, answer]⟩
      · rename_i answer
        obtain rfl := Except.ok.inj run
        exact ⟨_, .failed moved (by simp [answer]) (by simp [RecvCall.got, answer]), rfl, by simp [RecvCall.got, answer]⟩
      · rename_i answer
        obtain rfl := Except.ok.inj run
        exact ⟨_, .failed moved (by simp [answer]) (by simp [RecvCall.got, answer]), rfl, by simp [RecvCall.got, answer]⟩

theorem RecvCall.inside {call : RecvCall} (valid : call.sock.Valid) (room : call.sock.recvTail < recvBufferSize) :
    call.Inside where
  recvHead := valid.recvHead
  positive := Nat.sub_pos_of_lt room
  fits := by
    unfold size
    omega
  got := by
    unfold got
    split
    · exact List.length_take_le _ _
    · exact Nat.zero_le _
  zero none := by
    cases answer : call.answer with
    | eof => exact .inl rfl
    | data bytes =>
      have positive : 0 < call.size := Nat.sub_pos_of_lt room
      simp only [result, got, answer, List.length_take] at none
      obtain rfl : bytes = [] := List.eq_nil_iff_length_eq_zero.mpr (by omega)
      exact .inr rfl
    | again => simp [result, answer] at none
    | error => simp [result, answer] at none

/-- Beyond the end of the buffer nothing is written. -/
def SameBeyond (sock sock' : TcpSocket) : Prop := ∀ i, recvBufferSize ≤ i → sock'.recvBuffer i = sock.recvBuffer i

theorem SameBeyond.write {off : Nat} {data : Bytes} (fits : off + data.length ≤ recvBufferSize) (sock' : TcpSocket)
    (buffer : sock'.recvBuffer = Memory.write sock.recvBuffer off data) : SameBeyond sock sock' := by
  intro i beyond
  rw [buffer]
  exact Memory.write_apply_ge (Nat.le_trans fits beyond)

theorem tryMoveReceDataAhead_beyond (valid : sock.Valid) (moved : sock.tryMoveReceDataAhead = some sock') :
    SameBeyond sock sock' := by
  unfold tryMoveReceDataAhead at moved
  split at moved
  · split at moved
    · obtain rfl := Option.some.inj moved
      exact .write (by rw [Nat.zero_add]; exact valid.length_unread) _ rfl
    · cases moved
  · obtain rfl := Option.some.inj moved
    exact fun _ _ => rfl

theorem RecvRun.inside {end_ : TcpSocket} (run : RecvRun kernel n sock calls status end_) (valid : sock.Valid) :
    (∀ call ∈ calls, call.Inside) ∧ SameBeyond sock end_ := by
  induction run with
  | full _ => exact ⟨List.forall_mem_nil _, fun _ _ => rfl⟩
  | again moved _ =>
    obtain ⟨valid', -, -, room⟩ := tryMoveReceDataAhead_eq_some valid moved
    exact ⟨List.forall_mem_singleton.mpr (RecvCall.inside valid' room), tryMoveReceDataAhead_beyond valid moved⟩
  | failed moved _ _ =>
    obtain ⟨valid', -, -, room⟩ := tryMoveReceDataAhead_eq_some valid moved
    exact ⟨List.forall_mem_singleton.mpr (RecvCall.inside valid' room), tryMoveReceDataAhead_beyond valid moved⟩
  | @got n sock sock' calls status out moved _ _ ih =>
    obtain ⟨valid', -, -, room⟩ := tryMoveReceDataAhead_eq_some valid moved
    have inside : RecvCall.Inside ⟨sock', kernel n⟩ := RecvCall.inside valid' room
    have fits : sock'.recvTail + (RecvCall.got ⟨sock', kernel n⟩).length ≤ recvBufferSize :=
      Nat.le_trans (Nat.add_le_add_left inside.got _) inside.fits
    have next : (RecvCall.next ⟨sock', kernel n⟩).Valid :=
      ⟨Nat.le_trans valid'.recvHead (Nat.le_add_right _ _), fits, valid'.sendHead, valid'.sendTail⟩
    obtain ⟨later, beyond⟩ := ih next
    refine ⟨List.forall_mem_cons.mpr ⟨inside, later⟩, fun i above => ?_⟩
    rw [beyond i above, SameBeyond.write fits (RecvCall.next ⟨sock', kernel n⟩) rfl i above]
    exact tryMoveReceDataAhead_beyond valid moved i above

/-! ### Runs -/

/-- `RecvData` begins with this: a buffer in which nothing is left is used from its front. -/
def rewound (sock : TcpSocket) : TcpSocket :=
  if sock.recvTail = sock.recvHead then { sock with recvHead := 0, recvTail := 0 } else sock

/-- The calls of `recv` in a call of `RecvData` -/
def RecvCalls (kernel : Nat → RecvAnswer) (sock : TcpSocket) (calls : List RecvCall) (out : RecvOutcome) : Prop :=
  if sock.isUsing then RecvRun kernel 0 sock.rewound calls out.status out.sock else calls = [] ∧ out.sock = sock

theorem Valid.rewound (valid : sock.Valid) : sock.rewound.Valid := by
  unfold TcpSocket.rewound
  split
  · exact ⟨Nat.le_refl _, Nat.zero_le _, valid.sendHead, valid.sendTail⟩
  · exact valid

theorem recvData_run (run : sock.recvData kernel = .ok out) : ∃ calls, RecvCalls kernel sock calls out ∧
    out.calls = calls.length ∧ out.received = calls.flatMap RecvCall.got := by
  unfold recvData at run
  split at run
  · rename_i unused
    obtain rfl := Except.ok.inj run
    refine ⟨[], ?_, rfl, rfl⟩
    rw [RecvCalls, unused, if_neg Bool.false_ne_true]
    exact ⟨rfl, rfl⟩
  · rename_i used
    obtain ⟨calls, run, count, received⟩ := recvLoop_run run
    rw [Bool.not_eq_false] at used
    refine ⟨calls, ?_, by omega, by rw [received, List.nil_append]⟩
    rw [RecvCalls, if_pos used]
    exact run

theorem RecvCalls.inside (run : RecvCalls kernel sock calls out) (valid : sock.Valid) :
    (∀ call ∈ calls, call.Inside) ∧ SameBeyond sock out.sock := by
  unfold RecvCalls at run
  split at run
  · obtain ⟨inside, beyond⟩ := RecvRun.inside run valid.rewound
    refine ⟨inside, fun i above => (beyond i above).trans ?_⟩
    unfold TcpSocket.rewound
    split <;> rfl
  · obtain ⟨rfl, same⟩ := run
    exact ⟨List.forall_mem_nil _, fun _ _ => by rw [same]⟩

/-- A message that is extracted lies in what is unread and in the buffer of the caller. -/
theorem getOneMessage_fits (maxSize : Nat) :
    (sock.getOneMessage maxSize).2.1.length ≤ maxSize ∧ (sock.getOneMessage maxSize).2.1 <+: sock.unread := by
  cases cut : (cutter maxSize).next sock.unread with
  | none =>
    obtain ⟨ret, -, same⟩ := getOneMessage_none cut
    rw [same]
    exact ⟨Nat.zero_le _, List.nil_prefix⟩
  | some n =>
    rw [getOneMessage_some cut]
    refine ⟨Nat.le_trans (List.length_take_le _ _) ?_, List.take_prefix _ _⟩
    rw [next_cutter] at cut
    split at cut
    · cases cut
    · split at cut
      · obtain rfl := Option.some.inj cut
        omega
      · cases cut

end

/-- The states of a socket from `Init` on, whatever is called, and however the kernel answers -/
inductive Receives : TcpSocket → Prop
  | init (sock : TcpSocket) (fd : Int) (isUsing : Bool) : Receives { sock.init with iSockfd := fd, isUsing }
  | recv {sock out} (h : Receives sock) (kernel : Nat → RecvAnswer) (run : sock.recvData kernel = .ok out) :
      Receives out.sock
  | extract {sock} (h : Receives sock) (maxSize : Nat) : Receives (sock.getOneMessage maxSize).2.2
  | send {sock out} (h : Receives sock) (kernel : Nat → SendAnswer) (data : Bytes) (size : data.length ≤ sendBufferSize)
      (run : sock.sendData kernel data = .ok out) : Receives out.sock

section
variable {sock : TcpSocket}

theorem recvData_valid {kernel : Nat → RecvAnswer} (valid : sock.Valid) : ∃ out, sock.recvData kernel = .ok out ∧
    out.sock.Valid ∧ out.received.length ≤ recvBufferSize - (sock.recvTail - sock.recvHead) := by
  cases used : sock.isUsing with
  | false =>
    refine ⟨{ sock, status := .error, received := [], calls := 0 }, ?_, valid, Nat.zero_le _⟩
    rw [recvData, if_pos used]
  | true =>
    obtain ⟨out, run, received⟩ := recvData_spec kernel valid used
    refine ⟨out, run, received.valid, ?_⟩
    have fits := received.valid.length_unread
    rw [received.unread, List.length_append, TcpSocket.length_unread] at fits
    omega

theorem Receives.valid (h : Receives sock) : sock.Valid := by
  induction h with
  | init _ _ _ => exact ⟨Nat.le_refl _, Nat.zero_le _, Nat.le_refl _, Nat.zero_le _⟩
  | @recv sock out _ kernel run ih =>
    obtain ⟨out', run', valid, -⟩ := @recvData_valid sock kernel ih
    obtain rfl := Except.ok.inj (run.symm.trans run')
    exact valid
  | extract _ maxSize ih => exact (getOneMessage_same maxSize ih).1
  | @send sock out _ kernel data size run ih =>
    cases used : sock.isUsing with
    | false =>
      unfold sendData at run
      split at run
      · obtain rfl := Except.ok.inj run
        exact ih
      · obtain rfl := Except.ok.inj run
        exact ih
    | true =>
      obtain ⟨out', run', sent⟩ := sendData_spec kernel ih used size
      obtain rfl := Except.ok.inj (run.symm.trans run')
      exact sent.valid

/-- Whatever is called and however the kernel answers, the head and the tail stay in the buffer. `RecvData` returns, reads
    no more than there was room for, calls `recv` for at least one byte within the buffer each time, and writes nothing
    beyond it; and `get_one_message` writes no more than the buffer of its caller takes. -/
theorem receive_buffer_safe (h : Receives sock) :
    sock.recvHead ≤ sock.recvTail ∧ sock.recvTail ≤ recvBufferSize ∧
    (∀ kernel, ∃ out calls, sock.recvData kernel = .ok out ∧ RecvCalls kernel sock calls out ∧
      out.received = calls.flatMap RecvCall.got ∧ (∀ call ∈ calls, call.Inside) ∧ SameBeyond sock out.sock ∧
      out.received.length ≤ recvBufferSize - (sock.recvTail - sock.recvHead)) ∧
    ∀ maxSize, (sock.getOneMessage maxSize).2.1.length ≤ maxSize ∧ (sock.getOneMessage maxSize).2.1 <+: sock.unread := by
  have valid := h.valid
  refine ⟨valid.recvHead, valid.recvTail, fun kernel => ?_, getOneMessage_fits⟩
  obtain ⟨out, run, -, bounded⟩ := @recvData_valid sock kernel valid
  obtain ⟨calls, called, -, received⟩ := recvData_run run
  obtain ⟨inside, beyond⟩ := called.inside valid
  exact ⟨out, calls, run, called, received, inside, beyond, bounded⟩

end

/-- A frame is received and extracted. -/
theorem receive_buffer_safe_frame : ∃ sock, Receives sock ∧ sock.recvHead = 16 ∧ sock.recvTail = 16 ∧
    ∀ kernel, ∃ out, sock.recvData kernel = .ok out ∧ out.received.length ≤ recvBufferSize := by
  have start : Receives { Script.sock.init with iSockfd := 4, isUsing := true } := .init Script.sock 4 true
  obtain ⟨out, run, -⟩ := @recvData_valid _ (fun n => if n = 0 then .data (Script.request 0x18) else .again) start.valid
  have extracted := (start.recv _ run).extract maxMessageLen
  have ends : (recvData (fun n => if n = 0 then .data (Script.request 0x18) else .again)
      { Script.sock.init with iSockfd := 4, isUsing := true }).toOption.map (fun out =>
        ((out.sock.getOneMessage maxMessageLen).2.2.recvHead, (out.sock.getOneMessage maxMessageLen).2.2.recvTail)) =
          some (16, 16) := by decide +kernel
  rw [run] at ends
  obtain ⟨head, tail⟩ := Prod.mk.inj (Option.some.inj ends)
  obtain ⟨-, -, reads, -⟩ := receive_buffer_safe extracted
  refine ⟨_, extracted, head, tail, fun kernel => ?_⟩
  obtain ⟨out', _, run', -, -, -, -, bounded⟩ := reads kernel
  exact ⟨out', run', Nat.le_trans bounded (Nat.sub_le _ _)⟩

end TcpSocket

end IslandSurvival

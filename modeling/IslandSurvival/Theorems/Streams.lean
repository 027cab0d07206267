import IslandSurvival.Lib.Framing
import IslandSurvival.Theorems.Codec

/-! What a `TcpSocket` does with the two streams of its connection: what is received is unread until it is
    extracted, and what is sent is pending until the kernel takes it. -/

namespace IslandSurvival
namespace TcpSocket

/-- The heads and tails lie in the buffers. -/
structure Valid (sock : TcpSocket) : Prop where
  recvHead : sock.recvHead ≤ sock.recvTail
  recvTail : sock.recvTail ≤ recvBufferSize
  sendHead : sock.sendHead ≤ sock.sendTail
  sendTail : sock.sendTail ≤ sendBufferSize

/-- `sock'` differs from `sock` in what is received. -/
def SameSend (sock sock' : TcpSocket) : Prop :=
  ∃ recvHead recvTail recvBuffer, sock' = { sock with recvHead, recvTail, recvBuffer }

/-- `sock'` differs from `sock` in what is to be sent. -/
def SameRecv (sock sock' : TcpSocket) : Prop :=
  ∃ sendHead sendTail sendBuffer, sock' = { sock with sendHead, sendTail, sendBuffer }

section
variable {sock sock' sock'' : TcpSocket}

theorem SameSend.refl : SameSend sock sock := ⟨_, _, _, rfl⟩

theorem SameSend.trans (h : SameSend sock sock') (h' : SameSend sock' sock'') : SameSend sock sock'' := by
  obtain ⟨_, _, _, rfl⟩ := h
  obtain ⟨_, _, _, rfl⟩ := h'
  exact ⟨_, _, _, rfl⟩

theorem SameSend.pending (h : SameSend sock sock') : sock'.pending = sock.pending := by
  obtain ⟨_, _, _, rfl⟩ := h
  rfl

theorem SameRecv.refl : SameRecv sock sock := ⟨_, _, _, rfl⟩

theorem SameRecv.trans (h : SameRecv sock sock') (h' : SameRecv sock' sock'') : SameRecv sock sock'' := by
  obtain ⟨_, _, _, rfl⟩ := h
  obtain ⟨_, _, _, rfl⟩ := h'
  exact ⟨_, _, _, rfl⟩

theorem SameRecv.unread (h : SameRecv sock sock') : sock'.unread = sock.unread := by
  obtain ⟨_, _, _, rfl⟩ := h
  rfl

theorem length_unread : sock.unread.length = sock.recvTail - sock.recvHead := by simp [unread]

theorem length_pending : sock.pending.length = sock.sendTail - sock.sendHead := by simp [pending]

theorem Valid.length_unread (h : sock.Valid) : sock.unread.length ≤ recvBufferSize := by
  rw [TcpSocket.length_unread]
  exact Nat.le_trans (Nat.sub_le _ _) h.recvTail

theorem Valid.length_pending (h : sock.Valid) : sock.pending.length ≤ sendBufferSize := by
  rw [TcpSocket.length_pending]
  exact Nat.le_trans (Nat.sub_le _ _) h.sendTail

/-! ### Receiving -/

theorem tryMoveReceDataAhead_eq_none (h : sock.tryMoveReceDataAhead = none) :
    sock.recvHead = 0 ∧ sock.recvTail = recvBufferSize := by
  unfold tryMoveReceDataAhead at h
  split at h
  · rename_i full
    split at h
    · cases h
    · exact ⟨by omega, full⟩
  · cases h

/-- A move to the front keeps what is unread and makes room behind it. -/
theorem tryMoveReceDataAhead_eq_some (valid : sock.Valid) (h : sock.tryMoveReceDataAhead = some sock') :
    sock'.Valid ∧ SameSend sock sock' ∧ sock'.unread = sock.unread ∧ sock'.recvTail < recvBufferSize := by
  unfold tryMoveReceDataAhead at h
  split at h
  · rename_i full
    split at h
    · rename_i head
      obtain rfl := Option.some.inj h
      have front := valid.recvHead
      refine ⟨⟨Nat.zero_le _, by simp only; omega, valid.sendHead, valid.sendTail⟩, ⟨_, _, _, rfl⟩, ?_, by simp only; omega⟩
      show Memory.read (Memory.write sock.recvBuffer 0 sock.unread) 0 (sock.recvTail - sock.recvHead) = sock.unread
      exact Memory.read_write_of_length_le (@TcpSocket.length_unread sock)
    · cases h
  · rename_i room
    obtain rfl := Option.some.inj h
    exact ⟨valid, .refl, rfl, Nat.lt_of_le_of_ne valid.recvTail room⟩

/-- What arrives is appended to what is unread. -/
theorem unread_append (valid : sock.Valid) (got : Bytes) :
    unread { sock with
      recvBuffer := Memory.write sock.recvBuffer sock.recvTail got
      recvTail := sock.recvTail + got.length } = sock.unread ++ got := by
  have head := valid.recvHead
  simp only [unread]
  rw [show sock.recvTail + got.length - sock.recvHead = (sock.recvTail - sock.recvHead) + got.length by omega]
  exact Memory.read_write_append (by omega)

/-- How a call of `RecvData` ends -/
structure Received (kernel : Nat → RecvAnswer) (sock : TcpSocket) (got : Bytes) (out : RecvOutcome) : Prop where
  valid : out.sock.Valid
  same : SameSend sock out.sock
  unread : out.sock.unread = sock.unread ++ got
  /-- Only a full buffer stops it early. -/
  full : out.status = .notFinish → out.sock.unread.length = recvBufferSize
  /-- An error is one of the kernel: the end of the stream or a failure. -/
  failed : out.status = .error → ∃ n, ∀ bytes, bytes ≠ [] → kernel n ≠ .data bytes ∧ kernel n ≠ .again

theorem recvLoop_spec (kernel : Nat → RecvAnswer) : ∀ (fuel calls : Nat) (received : Bytes) (sock : TcpSocket), sock.Valid →
    recvBufferSize < fuel + sock.unread.length → ∃ out got, recvLoop kernel fuel calls received sock = .ok out ∧
      out.received = received ++ got ∧ Received kernel sock got out
  | 0, _, _, sock, valid, enough => by
    have := valid.length_unread
    omega
  | fuel + 1, calls, received, sock, valid, enough => by
    unfold recvLoop
    cases moved : sock.tryMoveReceDataAhead with
    | none =>
      obtain ⟨head, tail⟩ := tryMoveReceDataAhead_eq_none moved
      refine ⟨_, [], rfl, (List.append_nil _).symm, valid, .refl, (List.append_nil _).symm, fun _ => ?_, fun error => ?_⟩
      · simp [TcpSocket.length_unread, head, tail]
      · cases error
    | some sock' =>
      obtain ⟨valid', same, unread, room⟩ := tryMoveReceDataAhead_eq_some valid moved
      have stop : ∀ status, status ≠ .notFinish →
          (status = .error → ∃ n, ∀ bytes, bytes ≠ [] → kernel n ≠ .data bytes ∧ kernel n ≠ .again) →
          Received kernel sock [] { sock := sock', status, received, calls := calls + 1 } := fun status finished failed =>
        ⟨valid', same, by simp [unread], fun notFinish => absurd notFinish finished, failed⟩
      cases answer : kernel calls with
      | data bytes =>
        simp only
        split
        · rename_i none
          have empty : bytes = [] := by
            rcases List.take_eq_nil_iff.mp none with zero | empty
            · omega
            · exact empty
          refine ⟨_, [], rfl, (List.append_nil _).symm, stop _ (by simp) fun _ => ⟨calls, fun other some => ?_⟩⟩
          rw [answer, empty]
          simp [Ne.symm some]
        · rename_i some
          have length : 0 < (bytes.take (recvBufferSize - sock'.recvTail)).length := List.length_pos_iff.mpr some
          have fits : (bytes.take (recvBufferSize - sock'.recvTail)).length ≤ recvBufferSize - sock'.recvTail := List.length_take_le _ _
          generalize bytes.take (recvBufferSize - sock'.recvTail) = now at length fits
          have appended := unread_append valid' now
          obtain ⟨out, got, run, received', done⟩ := recvLoop_spec kernel fuel (calls + 1) (received ++ now) { sock' with
              recvBuffer := Memory.write sock'.recvBuffer sock'.recvTail now
              recvTail := sock'.recvTail + now.length }
            ⟨Nat.le_trans valid'.recvHead (Nat.le_add_right _ _), by simp only; omega, valid'.sendHead, valid'.sendTail⟩ (by
              rw [appended, List.length_append, unread]
              omega)
          refine ⟨out, now ++ got, run, ?_, done.valid, same.trans (.trans ⟨_, _, _, rfl⟩ done.same), ?_, done.full, done.failed⟩
          · rw [received', List.append_assoc]
          · rw [done.unread, appended, unread, List.append_assoc]
      | again => exact ⟨_, [], rfl, (List.append_nil _).symm, stop _ (by simp) (by simp)⟩
      | eof => exact ⟨_, [], rfl, (List.append_nil _).symm, stop _ (by simp) fun _ => ⟨calls, fun _ _ => by simp [answer]⟩⟩
      | error => exact ⟨_, [], rfl, (List.append_nil _).symm, stop _ (by simp) fun _ => ⟨calls, fun _ _ => by simp [answer]⟩⟩

/-- `RecvData` of a socket in use always returns. -/
theorem recvData_spec (kernel : Nat → RecvAnswer) (valid : sock.Valid) (using_ : sock.isUsing = true) :
    ∃ out, sock.recvData kernel = .ok out ∧ Received kernel sock out.received out := by
  unfold recvData
  rw [if_neg (by simp [using_])]
  split
  · rename_i empty
    have none : sock.unread = [] := List.length_eq_zero_iff.mp (by rw [TcpSocket.length_unread]; omega)
    have none' : unread { sock with recvHead := 0, recvTail := 0 } = [] := rfl
    obtain ⟨out, got, run, received, done⟩ := recvLoop_spec kernel (recvBufferSize - 0 + 1) 0 []
      { sock with recvHead := 0, recvTail := 0 } ⟨Nat.le_refl _, Nat.zero_le _, valid.sendHead, valid.sendTail⟩ (by omega)
    rw [List.nil_append] at received
    subst received
    exact ⟨out, run, done.valid, .trans ⟨_, _, _, rfl⟩ done.same, by rw [done.unread, none, none'], done.full, done.failed⟩
  · obtain ⟨out, got, run, received, done⟩ := recvLoop_spec kernel (recvBufferSize - (sock.recvTail - sock.recvHead) + 1) 0 []
      sock valid (by rw [TcpSocket.length_unread]; omega)
    rw [List.nil_append] at received
    subst received
    exact ⟨out, run, done⟩

/-! ### Frames -/

/-- The length field at the head of a stream -/
def lengthField (u : Bytes) : Int := (ntohl (u.getD · 0) 0).toInt32.toInt

theorem lengthField_append {u : Bytes} (long : 4 ≤ u.length) (v : Bytes) : lengthField (u ++ v) = lengthField u := by
  unfold lengthField
  rw [ntohl_congr]
  rw [Memory.read_getD (by rw [List.length_append]; omega), Memory.read_getD long, List.take_append_of_le_length long]

theorem lengthField_unread (long : 4 ≤ sock.unread.length) :
    lengthField sock.unread = (ntohl sock.recvBuffer sock.recvHead).toInt32.toInt := by
  unfold lengthField
  rw [@ntohl_congr _ _ _ sock.recvHead]
  rw [Memory.read_getD long, unread, Memory.take_read (by rwa [TcpSocket.length_unread] at long)]

/-- What `get_one_message` takes for the end of the first frame, with a buffer of `maxSize` bytes -/
def cutter (maxSize : Nat) : Cutter UInt8 where
  next u :=
    if u.length ≤ 4 then
      none
    else if 0 < lengthField u ∧ lengthField u ≤ u.length ∧ lengthField u ≤ maxSize then
      some (lengthField u).toNat
    else
      none
  fits h := by
    split at h
    · cases h
    · split at h
      · rename_i legal
        obtain rfl := Option.some.inj h
        omega
      · cases h
  stable v h := by
    split at h
    · cases h
    · rename_i long
      split at h
      · rename_i legal
        rw [lengthField_append (by omega), List.length_append, if_neg (by omega), if_pos (by omega)]
        exact h
      · cases h

theorem next_cutter (maxSize : Nat) (u : Bytes) : (cutter maxSize).next u =
    if u.length ≤ 4 then
      none
    else if 0 < lengthField u ∧ lengthField u ≤ u.length ∧ lengthField u ≤ maxSize then
      some (lengthField u).toNat
    else
      none := rfl

/-- `get_one_message` cuts the first frame of what is unread. -/
theorem getOneMessage_some {maxSize n : Nat} (h : (cutter maxSize).next sock.unread = some n) :
    sock.getOneMessage maxSize = (.success, sock.unread.take n, { sock with recvHead := sock.recvHead + n }) := by
  have fits := (cutter maxSize).fits h
  rw [next_cutter] at h
  split at h
  · cases h
  · rename_i long
    rw [lengthField_unread (by omega)] at h
    split at h
    · rename_i legal
      obtain rfl := Option.some.inj h
      rw [TcpSocket.length_unread] at long legal fits
      unfold getOneMessage
      rw [if_neg (by omega), if_neg (by omega), if_neg (by omega)]
      simp only [unread, Memory.take_read fits.2]
    · cases h

theorem getOneMessage_none {maxSize : Nat} (h : (cutter maxSize).next sock.unread = none) :
    ∃ ret, ret ≠ .success ∧ sock.getOneMessage maxSize = (ret, [], sock) := by
  rw [next_cutter] at h
  unfold getOneMessage
  split at h
  · rename_i short
    rw [TcpSocket.length_unread] at short
    exact ⟨.fail, by simp, by rw [if_pos (by omega)]⟩
  · rename_i long
    rw [lengthField_unread (by omega)] at h
    split at h
    · cases h
    · rename_i illegal
      rw [TcpSocket.length_unread] at long illegal
      rw [if_neg (by omega)]
      by_cases positive : (ntohl sock.recvBuffer sock.recvHead).toInt32.toInt ≤ 0
      · exact ⟨.error, by simp, by simp [positive]⟩
      · refine ⟨.fail, by simp, ?_⟩
        simp only [if_neg positive]
        rw [if_pos (by omega)]

/-! ### Sending -/

/-- How a call of `SendData` ends -/
structure Sent (kernel : Nat → SendAnswer) (data : Bytes) (sock : TcpSocket) (out : SendOutcome) (taken : Bytes) : Prop where
  valid : out.sock.Valid
  same : SameRecv sock out.sock
  success : out.status = .success → taken ++ out.sock.pending = sock.pending ++ data
  /-- A message is skipped when the kernel does not take the backlog and the message does not fit behind it. -/
  skipped : out.status = .notFinish → taken ++ out.sock.pending = sock.pending ∧ out.sock.pending ≠ [] ∧
    sendBufferSize < out.sock.pending.length + data.length
  failed : out.status = .error → taken ++ out.sock.pending <+: sock.pending ++ data ∧
    taken ++ out.sock.pending ≠ sock.pending ++ data ∧ ∃ n, kernel n = .error

theorem clamp_le {count n : Nat} (h : 0 < n) : 0 < SendAnswer.clamp count n ∧ SendAnswer.clamp count n ≤ n := by
  unfold SendAnswer.clamp
  omega

theorem sendRest_spec (kernel : Nat → SendAnswer) : ∀ (fuel calls : Nat) (taken data : Bytes) (sock : TcpSocket), sock.Valid →
    sock.sendTail = 0 → data.length ≤ sendBufferSize → data.length < fuel →
      ∃ out now, sendRest kernel fuel calls taken data sock = .ok out ∧ out.taken = taken ++ now ∧
        out.status ≠ .notFinish ∧ Sent kernel data sock out now
  | 0, _, _, _, _, _, _, _, enough => absurd enough (Nat.not_lt_zero _)
  | fuel + 1, calls, taken, data, sock, valid, empty, size, enough => by
    have head : sock.sendHead = 0 := by have := valid.sendHead; omega
    have none : sock.pending = [] := List.length_eq_zero_iff.mp (by rw [TcpSocket.length_pending]; omega)
    unfold sendRest
    split
    · rename_i done
      subst done
      exact ⟨_, [], rfl, (List.append_nil _).symm, by simp, valid, .refl, fun _ => by simp, by simp, by simp⟩
    · rename_i some
      have pos : 0 < data.length := List.length_pos_iff.mpr some
      cases answer : kernel calls with
      | take count =>
        simp only
        obtain ⟨pos, le⟩ := @clamp_le count _ pos
        generalize SendAnswer.clamp count data.length = n at pos le
        obtain ⟨out, now, run, taken', finished, done⟩ := sendRest_spec kernel fuel (calls + 1) (taken ++ data.take n)
          (data.drop n) sock valid empty (by rw [List.length_drop]; omega) (by rw [List.length_drop]; omega)
        refine ⟨out, data.take n ++ now, run, ?_, finished, done.valid, done.same, fun success => ?_,
          fun notFinish => absurd notFinish finished, fun error => ?_⟩
        · rw [taken', List.append_assoc]
        · rw [List.append_assoc, done.success success, none, List.nil_append, List.nil_append, List.take_append_drop]
        · obtain ⟨pre, part, failed⟩ := done.failed error
          rw [none, List.nil_append] at pre part
          have whole : sock.pending ++ data = data.take n ++ data.drop n := by
            rw [none, List.nil_append, List.take_append_drop]
          refine ⟨?_, ?_, failed⟩
          · rw [List.append_assoc, whole]
            exact (List.prefix_append_right_inj _).mpr pre
          · rw [List.append_assoc, whole]
            exact fun same => part (List.append_cancel_left same)
      | error =>
        refine ⟨_, [], rfl, (List.append_nil _).symm, by simp, valid, .refl, by simp, by simp, fun _ => ⟨?_, ?_, calls, answer⟩⟩
        · simp [none]
        · simp [none, Ne.symm some]
      | again =>
        simp only
        rw [if_pos (by omega)]
        refine ⟨_, [], rfl, (List.append_nil _).symm, by simp,
          ⟨valid.recvHead, valid.recvTail, by simp only; omega, by simp only; omega⟩, ⟨_, _, _, rfl⟩, fun _ => ?_, by simp, by simp⟩
        have back : Memory.read (Memory.write sock.sendBuffer 0 data) 0 data.length = data := Memory.read_write
        simp [pending, head, empty, back]

/-- What is appended to the send buffer is pending behind the rest. -/
theorem pending_append (valid : sock.Valid) (data : Bytes) :
    pending { sock with
      sendBuffer := Memory.write sock.sendBuffer sock.sendTail data
      sendTail := sock.sendTail + data.length } = sock.pending ++ data := by
  have head := valid.sendHead
  simp only [pending]
  rw [show sock.sendTail + data.length - sock.sendHead = (sock.sendTail - sock.sendHead) + data.length by omega]
  exact Memory.read_write_append (by omega)

theorem sendLoop_spec (kernel : Nat → SendAnswer) (data : Bytes) (some : data ≠ []) (size : data.length ≤ sendBufferSize) :
    ∀ (fuel calls : Nat) (taken : Bytes) (sock : TcpSocket), sock.Valid → sock.pending.length < fuel →
      ∃ out now, sendLoop kernel data fuel calls taken sock = .ok out ∧ out.taken = taken ++ now ∧ Sent kernel data sock out now
  | 0, _, _, _, _, enough => absurd enough (Nat.not_lt_zero _)
  | fuel + 1, calls, taken, sock, valid, enough => by
    have head := valid.sendHead
    have tail := valid.sendTail
    rw [TcpSocket.length_pending] at enough
    unfold sendLoop
    split
    · rename_i backlog
      cases answer : kernel calls with
      | take count =>
        simp only
        obtain ⟨pos, le⟩ := @clamp_le count _ backlog
        generalize SendAnswer.clamp count (sock.sendTail - sock.sendHead) = n at pos le
        have drained : pending { sock with sendHead := sock.sendHead + n } = sock.pending.drop n := by
          rw [pending, pending, Memory.drop_read le, Nat.sub_sub]
        have front : Memory.read sock.sendBuffer sock.sendHead n = sock.pending.take n := by
          rw [pending, Memory.take_read le]
        obtain ⟨out, now, run, taken', done⟩ := sendLoop_spec kernel data some size fuel (calls + 1)
          (taken ++ Memory.read sock.sendBuffer sock.sendHead n) { sock with sendHead := sock.sendHead + n }
          ⟨valid.recvHead, valid.recvTail, by simp only; omega, tail⟩ (by
            rw [TcpSocket.length_pending]
            simp only
            omega)
        refine ⟨out, sock.pending.take n ++ now, run, ?_, done.valid, .trans ⟨_, _, _, rfl⟩ done.same, fun success => ?_,
          fun notFinish => ?_, fun error => ?_⟩
        · rw [taken', front, List.append_assoc]
        · rw [List.append_assoc, done.success success, drained, ← List.append_assoc, List.take_append_drop]
        · obtain ⟨kept, rest⟩ := done.skipped notFinish
          refine ⟨?_, rest⟩
          rw [List.append_assoc, kept, drained, List.take_append_drop]
        · obtain ⟨pre, part, failed⟩ := done.failed error
          rw [drained] at pre part
          have whole : sock.pending ++ data = sock.pending.take n ++ (sock.pending.drop n ++ data) := by
            rw [← List.append_assoc, List.take_append_drop]
          refine ⟨?_, ?_, failed⟩
          · rw [List.append_assoc, whole]
            exact (List.prefix_append_right_inj _).mpr pre
          · rw [List.append_assoc, whole]
            exact fun same => part (List.append_cancel_left same)
      | error =>
        refine ⟨_, [], rfl, (List.append_nil _).symm, valid, .refl, by simp, by simp,
          fun _ => ⟨List.prefix_append _ _, ?_, calls, answer⟩⟩
        simpa using some.symm
      | again =>
        simp only
        have moved : pending { sock with
            sendBuffer := Memory.write sock.sendBuffer 0 sock.pending
            sendTail := sock.sendTail - sock.sendHead
            sendHead := 0 } = sock.pending := by
          show Memory.read (Memory.write sock.sendBuffer 0 sock.pending) 0 (sock.sendTail - sock.sendHead) = sock.pending
          exact Memory.read_write_of_length_le (@TcpSocket.length_pending sock)
        have valid' : Valid { sock with
            sendBuffer := Memory.write sock.sendBuffer 0 sock.pending
            sendTail := sock.sendTail - sock.sendHead
            sendHead := 0 } :=
          ⟨valid.recvHead, valid.recvTail, Nat.zero_le _, by simp only; omega⟩
        split
        · rename_i fits
          refine ⟨_, [], rfl, (List.append_nil _).symm, ⟨valid.recvHead, valid.recvTail, by simp only; omega, by simp only; omega⟩,
            ⟨_, _, _, rfl⟩, fun _ => ?_, by simp, by simp⟩
          have appended := pending_append valid' data
          rw [moved] at appended
          exact appended
        · rename_i full
          refine ⟨_, [], rfl, (List.append_nil _).symm, valid', ⟨_, _, _, rfl⟩, by simp, fun _ => ?_, by simp⟩
          refine ⟨by rw [List.nil_append]; exact moved, ?_, ?_⟩
          · rw [← List.length_pos_iff, TcpSocket.length_pending]
            exact backlog
          · rw [TcpSocket.length_pending]
            simp only
            omega
    · rename_i drained
      rw [if_pos (by omega)]
      have none : sock.pending = [] := List.length_eq_zero_iff.mp (by rw [TcpSocket.length_pending]; omega)
      obtain ⟨out, now, run, taken', finished, done⟩ := sendRest_spec kernel (data.length + 1) calls taken data
        { sock with sendHead := 0, sendTail := 0 } ⟨valid.recvHead, valid.recvTail, Nat.le_refl _, Nat.zero_le _⟩ rfl size
        (Nat.lt_succ_self _)
      have none' : pending { sock with sendHead := 0, sendTail := 0 } = [] := rfl
      refine ⟨out, now, run, taken', done.valid, .trans ⟨_, _, _, rfl⟩ done.same, fun success => ?_,
        fun notFinish => absurd notFinish finished, fun error => ?_⟩
      · rw [done.success success, none, none']
      · rw [none, ← none']
        exact done.failed error

/-- `SendData` of a socket in use always returns. -/
theorem sendData_spec (kernel : Nat → SendAnswer) {data : Bytes} (valid : sock.Valid) (using_ : sock.isUsing = true)
    (size : data.length ≤ sendBufferSize) :
    ∃ out, sock.sendData kernel data = .ok out ∧ Sent kernel data sock out out.taken := by
  unfold sendData
  split
  · rename_i empty
    subst empty
    exact ⟨_, rfl, valid, .refl, fun _ => by simp, by simp, by simp⟩
  · rename_i some
    rw [if_neg (by simp [using_])]
    obtain ⟨out, now, run, taken, done⟩ := sendLoop_spec kernel data some size (sock.sendTail - sock.sendHead + 1) 0 [] sock valid
      (by rw [TcpSocket.length_pending]; omega)
    rw [List.nil_append] at taken
    subst taken
    exact ⟨out, run, done⟩

end

end TcpSocket
end IslandSurvival

import IslandSurvival.Theorems.Streams

/-! The calls of `SendData` on one connection. What the kernel took and what is still pending are the data of
    the calls that succeeded. -/

namespace IslandSurvival
namespace TcpSocket

variable {sock sock' : TcpSocket} {kernel : Nat → SendAnswer} {data : Bytes} {out : SendOutcome}

/-! ### Errors -/

/-- Into an empty buffer everything fits, so an error is the answer of one of the `send` calls. -/
theorem sendRest_error : ∀ (fuel calls : Nat) (taken data : Bytes), sock.sendTail = 0 → data.length ≤ sendBufferSize →
    sendRest kernel fuel calls taken data sock = .ok out → out.status = .error →
      ∃ n, calls ≤ n ∧ n < out.calls ∧ kernel n = .error
  | 0, _, _, _, _, _, run, _ => by cases run
  | fuel + 1, calls, taken, data, empty, size, run, error => by
    unfold sendRest at run
    split at run
    · cases run
      cases error
    · cases answer : kernel calls with
      | take count =>
        simp only [answer] at run
        obtain ⟨n, first, last, failed⟩ := sendRest_error fuel (calls + 1) _ _ empty
          (by rw [List.length_drop]; omega) run error
        exact ⟨n, by omega, last, failed⟩
      | again =>
        simp only [answer] at run
        rw [if_pos (by omega)] at run
        cases run
        cases error
      | error =>
        simp only [answer] at run
        cases run
        exact ⟨calls, Nat.le_refl _, Nat.lt_succ_self _, answer⟩

theorem sendLoop_error (size : data.length ≤ sendBufferSize) : ∀ (fuel calls : Nat) (taken : Bytes) (sock : TcpSocket),
    sendLoop kernel data fuel calls taken sock = .ok out → out.status = .error →
      ∃ n, calls ≤ n ∧ n < out.calls ∧ kernel n = .error
  | 0, _, _, _, run, _ => by cases run
  | fuel + 1, calls, taken, sock, run, error => by
    unfold sendLoop at run
    split at run
    · cases answer : kernel calls with
      | take count =>
        simp only [answer] at run
        obtain ⟨n, first, last, failed⟩ := sendLoop_error size fuel (calls + 1) _ _ run error
        exact ⟨n, by omega, last, failed⟩
      | again =>
        simp only [answer] at run
        split at run
        · cases run
          cases error
        · cases run
          cases error
      | error =>
        simp only [answer] at run
        cases run
        exact ⟨calls, Nat.le_refl _, Nat.lt_succ_self _, answer⟩
    · split at run
      · exact sendRest_error _ calls taken data rfl size run error
      · cases run
        cases error

/-- `SendData` of a socket in use fails only when the kernel does. -/
theorem sendData_error (using_ : sock.isUsing = true) (size : data.length ≤ sendBufferSize)
    (run : sock.sendData kernel data = .ok out) (error : out.status = .error) : ∃ n < out.calls, kernel n = .error := by
  unfold sendData at run
  split at run
  · cases run
    cases error
  · rw [if_neg (by simp [using_])] at run
    obtain ⟨n, -, last, failed⟩ := sendLoop_error size _ 0 [] sock run error
    exact ⟨n, last, failed⟩

/-! ### A connection -/

/-- One call of `SendData`, with the answers of the kernel -/
structure SendCall where
  kernel : Nat → SendAnswer
  data : Bytes
  out : SendOutcome

/-- What the kernel has taken -/
def takenBy (calls : List SendCall) : Bytes := calls.flatMap fun call => call.out.taken

/-- The data of the calls that succeeded -/
def acceptedBy (calls : List SendCall) : Bytes :=
  (calls.filter fun call => call.out.status = .success).flatMap fun call => call.data

/-- The calls of `SendData` on a connection, from the moment `AcceptClient` has set it up. In between, `RecvData`
    and `get_one_message` work on the same socket. -/
inductive Sends : List SendCall → TcpSocket → Prop
  | accept (sock : TcpSocket) (fd : Int) : Sends [] { sock.init with iSockfd := fd, isUsing := true }
  | send {calls sock out} (h : Sends calls sock) (kernel : Nat → SendAnswer) (data : Bytes) (some : data ≠ [])
      (size : data.length ≤ sendBufferSize) (run : sock.sendData kernel data = .ok out) :
      Sends (calls ++ [⟨kernel, data, out⟩]) out.sock
  | recv {calls sock out} (h : Sends calls sock) (kernel : Nat → RecvAnswer) (run : sock.recvData kernel = .ok out) :
      Sends calls out.sock
  | extract {calls sock} (h : Sends calls sock) (maxSize : Nat) : Sends calls (sock.getOneMessage maxSize).2.2

/-- The books of a connection: as long as no call failed, every byte of a call that succeeded was taken or is
    pending, in order, and no other byte is. -/
structure Accounts (calls : List SendCall) (sock : TcpSocket) : Prop where
  valid : sock.Valid
  inUse : sock.isUsing = true
  failed : ∀ call ∈ calls, call.out.status = .error → ∃ n < call.out.calls, call.kernel n = .error
  balanced : (∀ call ∈ calls, call.out.status ≠ .error) → takenBy calls ++ sock.pending = acceptedBy calls

variable {calls : List SendCall}

theorem takenBy_concat (call : SendCall) : takenBy (calls ++ [call]) = takenBy calls ++ call.out.taken := by
  simp [takenBy]

theorem acceptedBy_concat (call : SendCall) :
    acceptedBy (calls ++ [call]) = acceptedBy calls ++ if call.out.status = .success then call.data else [] := by
  unfold acceptedBy
  rw [List.filter_append, List.flatMap_append]
  by_cases success : call.out.status = .success
  · simp [success]
  · simp [success]

theorem SameRecv.isUsing (h : SameRecv sock sock') : sock'.isUsing = sock.isUsing := by
  obtain ⟨_, _, _, rfl⟩ := h
  rfl

theorem SameSend.isUsing (h : SameSend sock sock') : sock'.isUsing = sock.isUsing := by
  obtain ⟨_, _, _, rfl⟩ := h
  rfl

theorem getOneMessage_same (maxSize : Nat) (valid : sock.Valid) :
    (sock.getOneMessage maxSize).2.2.Valid ∧ SameSend sock (sock.getOneMessage maxSize).2.2 := by
  cases cut : (cutter maxSize).next sock.unread with
  | none =>
    obtain ⟨ret, -, same⟩ := getOneMessage_none cut
    rw [same]
    exact ⟨valid, .refl⟩
  | some n =>
    have fits := ((cutter maxSize).fits cut).2
    have front := valid.recvHead
    rw [TcpSocket.length_unread] at fits
    rw [getOneMessage_some cut]
    exact ⟨⟨by simp only; omega, valid.recvTail, valid.sendHead, valid.sendTail⟩, _, _, _, rfl⟩

namespace Accounts

theorem accept (sock : TcpSocket) (fd : Int) : Accounts [] { sock.init with iSockfd := fd, isUsing := true } where
  valid := ⟨Nat.le_refl _, Nat.zero_le _, Nat.le_refl _, Nat.zero_le _⟩
  inUse := rfl
  failed _ mem := absurd mem List.not_mem_nil
  balanced _ := rfl

/-- What is received does not touch the books. -/
theorem received (h : Accounts calls sock) (valid : sock'.Valid) (same : SameSend sock sock') : Accounts calls sock' where
  valid := valid
  inUse := same.isUsing.trans h.inUse
  failed := h.failed
  balanced fine := by rw [same.pending, h.balanced fine]

/-- The outcomes of one call: its data is booked, or nothing is. -/
theorem sent (h : Accounts calls sock) (size : data.length ≤ sendBufferSize) (run : sock.sendData kernel data = .ok out) :
    Accounts (calls ++ [⟨kernel, data, out⟩]) out.sock := by
  obtain ⟨out', run', sent⟩ := sendData_spec kernel h.valid h.inUse size
  obtain rfl : out' = out := Except.ok.inj (run'.symm.trans run)
  refine ⟨sent.valid, sent.same.isUsing.trans h.inUse, ?_, fun fine => ?_⟩
  · rintro call mem error
    rcases List.mem_append.mp mem with old | new
    · exact h.failed call old error
    · obtain rfl := List.mem_singleton.mp new
      exact sendData_error h.inUse size run error
  · have before := h.balanced fun call mem => fine call (List.mem_append_left _ mem)
    have status := fine ⟨kernel, data, out'⟩ (List.mem_append_right _ List.mem_cons_self)
    rw [takenBy_concat, acceptedBy_concat, List.append_assoc, ← before]
    cases result : out'.status with
    | success => rw [if_pos rfl, sent.success result, List.append_assoc]
    | notFinish => rw [if_neg (by simp), (sent.skipped result).1, List.append_nil]
    | error => exact absurd result status

end Accounts

theorem Sends.accounts (h : Sends calls sock) : Accounts calls sock := by
  induction h with
  | accept sock fd => exact .accept sock fd
  | send _ kernel data _ size run ih => exact ih.sent size run
  | recv _ kernel run ih =>
    obtain ⟨out', run', received⟩ := recvData_spec kernel ih.valid ih.inUse
    obtain rfl := Except.ok.inj (run'.symm.trans run)
    exact ih.received received.valid received.same
  | extract _ maxSize ih =>
    obtain ⟨valid, same⟩ := getOneMessage_same maxSize ih.valid
    exact ih.received valid same

/-- On every connection, whatever the kernel answers, the next call of `SendData` returns, the pending bytes lie in
    the buffer, a call fails only when one of its `send` calls did, and until then the bytes that the kernel took
    followed by the pending ones are the data of the calls that succeeded. -/
theorem sends_accounted (h : Sends calls sock) :
    (∀ (kernel : Nat → SendAnswer) (data : Bytes), data ≠ [] → data.length ≤ sendBufferSize →
      ∃ out, sock.sendData kernel data = .ok out) ∧
    (sock.sendHead ≤ sock.sendTail ∧ sock.sendTail ≤ sendBufferSize) ∧
    (∀ call ∈ calls, call.out.status = .error → ∃ n < call.out.calls, call.kernel n = .error) ∧
    ((∀ call ∈ calls, call.out.status ≠ .error) →
      takenBy calls ++ Memory.read sock.sendBuffer sock.sendHead (sock.sendTail - sock.sendHead) = acceptedBy calls) := by
  have books := h.accounts
  refine ⟨fun kernel data _ size => ?_, ⟨books.valid.sendHead, books.valid.sendTail⟩, books.failed, books.balanced⟩
  obtain ⟨out, run, -⟩ := sendData_spec kernel books.valid books.inUse size
  exact ⟨out, run⟩

/-- The kernel takes one byte of three and then nothing. -/
theorem sends_accounted_partial : ∃ calls sock, Sends calls sock ∧ takenBy calls = [1] ∧ sock.pending = [2, 3] ∧
    acceptedBy calls = [1] ++ [2, 3] := by
  have start := Sends.accept
    { iSockfd := 0, recvHead := 0, recvTail := 0, recvBuffer := fun _ => 0, sendHead := 0, sendTail := 0,
      sendBuffer := fun _ => 0, isUsing := false } 4
  have run := start.send (fun n => if n = 0 then .take 1 else .again) [1, 2, 3] (by decide) (by decide) rfl
  obtain ⟨-, -, -, balanced⟩ := sends_accounted run
  exact ⟨_, _, run, rfl, by decide, (balanced (by simp)).symm⟩

end TcpSocket
end IslandSurvival

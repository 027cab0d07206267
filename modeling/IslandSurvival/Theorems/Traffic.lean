import IslandSurvival.Theorems.Sockets

/-! The frames of a connection. What was extracted from it is what the rule for frames cuts from the bytes received. And
    `SendData` takes a message whole or not at all, so as long as no write fails, what the kernel took can be cut into
    messages again, whichever of them were skipped. -/

namespace IslandSurvival

/-- What went out on a connection since it was accepted -/
structure Outgoing where
  taken : Bytes
  /-- the encodings for which `SendData` returned `write_status_success`, oldest first -/
  stored : List Bytes
  /-- `SendData` never returned `write_status_error` -/
  sound : Bool

namespace Outgoing

def idle : Outgoing := { taken := [], stored := [], sound := true }

/-- A call of `SendData`; a message without an object has an empty encoding. -/
def write (data taken : Bytes) (status : WriteStatus) (o : Outgoing) : Outgoing where
  taken := o.taken ++ taken
  stored := if status = .success ∧ data ≠ [] then o.stored ++ [data] else o.stored
  sound := o.sound && decide (status ≠ .error)

/-- What went out on the connection that has descriptor `fd` -/
def ofTrace (fd : Int) : List Event → Outgoing
  | [] => idle
  | .accept fd' :: older => if fd' = fd then idle else ofTrace fd older
  | .write fd' data taken status :: older =>
    let o := ofTrace fd older
    if fd' = fd then o.write data taken status else o
  | _ :: older => ofTrace fd older

end Outgoing

/-- An object of a connection, and the frames that went over it -/
structure Carries (env : Env) (sock : TcpSocket) (w : Wire) (o : Outgoing) : Prop where
  frames : (TcpSocket.cutter maxMessageLen).frames w.received =
    w.extracted ++ (TcpSocket.cutter maxMessageLen).frames sock.unread
  rest : (TcpSocket.cutter maxMessageLen).rest w.received = (TcpSocket.cutter maxMessageLen).rest sock.unread
  stream : o.sound = true → o.taken ++ sock.pending = o.stored.flatten
  legal : ∀ data ∈ o.stored, LegalFrame data ∧ ∃ mess : CMessage, data = mess.encode env.pb

namespace Carries

variable {env : Env} {sock sock' : TcpSocket} {w : Wire} {o : Outgoing}

theorem idle (unread : sock.unread = []) (pending : sock.pending = []) : Carries env sock .idle .idle where
  frames := by
    rw [unread]
    rfl
  rest := by
    rw [unread]
    rfl
  stream _ := pending
  legal _ mem := absurd mem List.not_mem_nil

theorem congr (h : Carries env sock w o) (unread : sock'.unread = sock.unread) (pending : sock'.pending = sock.pending) :
    Carries env sock' w o where
  frames := unread ▸ h.frames
  rest := unread ▸ h.rest
  stream := pending ▸ h.stream
  legal := h.legal

theorem recv {kernel : Nat → RecvAnswer} {out : TcpSocket.RecvOutcome} (h : Carries env sock w o) (valid : sock.Valid)
    (inUse : sock.isUsing = true) (run : sock.recvData kernel = .ok out) :
    Carries env out.sock { w with received := w.received ++ out.received } o := by
  obtain ⟨out', run', done⟩ := TcpSocket.recvData_spec kernel valid inUse
  obtain rfl := Except.ok.inj (run.symm.trans run')
  refine ⟨?_, ?_, ?_, h.legal⟩
  · rw [done.unread, Cutter.frames_append, Cutter.frames_append sock.unread, h.frames, h.rest, List.append_assoc]
  · rw [done.unread, Cutter.rest_append, Cutter.rest_append sock.unread, h.rest]
  · rw [done.same.pending]
    exact h.stream

theorem extract {data : Bytes} (h : Carries env sock w o)
    (got : sock.getOneMessage maxMessageLen = (.success, data, sock')) :
    Carries env sock' { w with extracted := w.extracted ++ [data] } o := by
  cases next : (TcpSocket.cutter maxMessageLen).next sock.unread with
  | none =>
    obtain ⟨ret, fails, run⟩ := TcpSocket.getOneMessage_none next
    exact absurd (congrArg Prod.fst (run.symm.trans got)) fails
  | some n =>
    have fits := ((TcpSocket.cutter maxMessageLen).fits next).2
    rw [TcpSocket.length_unread] at fits
    have run := TcpSocket.getOneMessage_some next
    obtain ⟨rfl, rfl⟩ : sock.unread.take n = data ∧ { sock with recvHead := sock.recvHead + n } = sock' := by
      simpa using run.symm.trans got
    have behind : TcpSocket.unread { sock with recvHead := sock.recvHead + n } = sock.unread.drop n := by
      rw [TcpSocket.unread, TcpSocket.unread, Memory.drop_read fits, Nat.sub_sub]
    refine ⟨?_, ?_, h.stream, h.legal⟩
    · rw [behind, h.frames, Cutter.frames_of_some next, List.append_assoc, List.singleton_append]
    · rw [behind, h.rest, Cutter.rest_of_some next]

theorem write {kernel : Nat → SendAnswer} {mess : CMessage} {out : TcpSocket.SendOutcome} (h : Carries env sock w o)
    (valid : sock.Valid) (inUse : sock.isUsing = true) (size : (mess.encode env.pb).length ≤ maxMessageLen)
    (run : sock.sendData kernel (mess.encode env.pb) = .ok out) :
    Carries env out.sock (w.write (mess.encode env.pb) out.taken out.status)
      (o.write (mess.encode env.pb) out.taken out.status) := by
  obtain ⟨out', run', done⟩ := TcpSocket.sendData_spec kernel valid inUse (Nat.le_trans size (by decide))
  obtain rfl := Except.ok.inj (run.symm.trans run')
  have unread := done.same.unread
  refine ⟨unread ▸ h.frames, unread ▸ h.rest, fun sound => ?_, fun data mem => ?_⟩
  · simp only [Outgoing.write, Bool.and_eq_true, decide_eq_true_eq] at sound ⊢
    obtain ⟨sound, status⟩ := sound
    have before := h.stream sound
    cases result : out.status with
    | success =>
      have stored : (if WriteStatus.success = .success ∧ mess.encode env.pb ≠ [] then o.stored ++ [mess.encode env.pb]
          else o.stored).flatten = o.stored.flatten ++ mess.encode env.pb := by
        by_cases empty : mess.encode env.pb = []
        · rw [if_neg fun both => both.2 empty, empty, List.append_nil]
        · rw [if_pos ⟨rfl, empty⟩, List.flatten_append, List.flatten_singleton]
      rw [stored, List.append_assoc, done.success result, ← List.append_assoc, before]
    | notFinish =>
      rw [if_neg (by simp), List.append_assoc, (done.skipped result).1, before]
    | error => exact absurd result status
  · unfold Outgoing.write at mem
    simp only at mem
    split at mem
    · rename_i accepted
      rcases List.mem_append.mp mem with old | new
      · exact h.legal data old
      · obtain rfl := List.mem_singleton.mp new
        exact ⟨CMessage.legalFrame_encode accepted.2 size, mess, rfl⟩
    · exact h.legal data mem

end Carries

/-! ### Every connection -/

/-- A socket that is given to the kernel's `accept` is not that of a connection, and no other is touched. -/
theorem acceptSocket_others {env : Env} {s s' t : Server} {c : SockPtr} {ret : Ret} (pool : Pool s)
    (sock : getFreeTcpSocket s = (c, s')) (acc : acceptClient env c s' = (ret, t)) {fd : Int} {d : SockPtr}
    (conn : s.connects[fd]? = some d) : t.sock d = s.sock d := by
  obtain ⟨-, spare, -⟩ := pool.getFree sock
  have other : d ≠ c := by
    rintro rfl
    refine spare.unused fd ?_
    obtain ⟨_, _, _, rfl⟩ := getFreeTcpSocket_eq sock
    exact conn
  have first : s'.sock d = s.sock d := by
    unfold getFreeTcpSocket at sock
    split at sock
    · obtain ⟨rfl, rfl⟩ := Prod.mk.inj sock
      exact Function.update_of_ne other _ _
    · obtain ⟨rfl, rfl⟩ := Prod.mk.inj sock
      exact Function.update_of_ne other _ _
  have second : t.sock d = s'.sock d := by
    unfold acceptClient at acc
    split at acc
    · obtain ⟨-, rfl⟩ := Prod.mk.inj acc
      exact Function.update_of_ne other _ _
    · obtain ⟨-, rfl⟩ := Prod.mk.inj acc
      exact Function.update_of_ne other _ _
  rw [second, first]

section
variable {env : Env} {k l : List Frame} {s t : Server}

/-- Every connection carries what went over it. -/
def Carried (env : Env) (s : Server) : Prop := ∀ (fd : Int) (c : SockPtr), s.connects[fd]? = some c →
  Carries env (s.sock c) (Wire.ofTrace fd s.trace) (Outgoing.ofTrace fd s.trace)

/-- What `accept` does to a socket off the connections changes none of them. -/
theorem Carried.spare {s' : Server} {c : SockPtr} {ret : Ret} (h : Carried env s) (pool : Pool s)
    (sock : getFreeTcpSocket s = (c, s')) (acc : acceptClient env c s' = (ret, t)) : Carried env t := by
  intro fd d conn
  have same := @acceptSocket_others _ _ _ _ _ _ pool sock acc fd d
  obtain ⟨_, _, _, _, _, rfl⟩ := acceptSocket_eq sock acc
  exact (h fd d conn).congr (congrArg TcpSocket.unread (same conn)) (congrArg TcpSocket.pending (same conn))

/-- An event at the object of one connection -/
theorem Carried.update {fd : Int} {c : SockPtr} {sock : TcpSocket} (h : Carried env s) (pool : Pool s)
    (conn : s.connects[fd]? = some c) {w : Int → Wire} {o : Int → Outgoing} (here : Carries env sock (w fd) (o fd))
    (there : ∀ fd', fd' ≠ fd → w fd' = Wire.ofTrace fd' s.trace ∧ o fd' = Outgoing.ofTrace fd' s.trace) (fd' : Int)
    (c' : SockPtr) (conn' : s.connects[fd']? = some c') : Carries env (Function.update s.sock c sock c') (w fd') (o fd') := by
  by_cases same : fd' = fd
  · subst same
    obtain rfl : c = c' := Option.some.inj (conn.symm.trans conn')
    rw [Function.update_self]
    exact here
  · have apart : c' ≠ c := by
      rintro rfl
      exact same (Sockets.distinct pool conn' conn)
    obtain ⟨wire, out⟩ := there fd' same
    rw [Function.update_of_ne apart, wire, out]
    exact h fd' c' conn'

theorem carried_step (move : Step env k s l t) (pool : Pool s) (h : Carried env s) : Carried env t := by
  have pool' := pool_step move pool
  cases move with
  | @write _ _ fd c mess out conn len sent =>
    have served := Sockets.served pool conn
    refine h.update pool conn ?_ fun fd' other => ⟨if_neg (Ne.symm other), if_neg (Ne.symm other)⟩
    have wire : Wire.ofTrace fd (.write fd (mess.encode env.pb) out.taken out.status :: s.trace) =
        (Wire.ofTrace fd s.trace).write (mess.encode env.pb) out.taken out.status := if_pos rfl
    have own : Outgoing.ofTrace fd (.write fd (mess.encode env.pb) out.taken out.status :: s.trace) =
        (Outgoing.ofTrace fd s.trace).write (mess.encode env.pb) out.taken out.status := if_pos rfl
    exact wire ▸ own ▸ (h fd c conn).write served.valid served.inUse len sent
  | @drop _ _ fd c _ conn =>
    have served := Sockets.served pool conn
    obtain ⟨_, _, erased⟩ := Heartbeat.erase_eq fd s
    intro fd' c' conn'
    unfold dropConnection at conn' ⊢
    rw [erased] at conn' ⊢
    simp only [served.inUse, if_true, Server.log, Server.setSock] at conn' ⊢
    rw [Map.getElem?_erase] at conn'
    split at conn'
    · cases conn'
    · rename_i other
      have apart : c' ≠ c := by
        rintro rfl
        exact other (Sockets.distinct pool conn conn')
      rw [Function.update_of_ne apart]
      exact h fd' c' conn'
  | left =>
    rw [PersonManager.changePersonStatus_eq]
    exact h
  | @enter _ _ fd user _ _ _ _ _ _ _ person =>
    obtain ⟨_, _, _, trace, hs⟩ := @entered _ _ (loginArg fd user) _ _ person
    have same := @entered_trace _ _ (loginArg fd user) _ _ person
    rw [hs] at same ⊢
    rcases same with rfl | rfl
    · exact h
    · exact h
  | heartbeat _ old =>
    obtain ⟨_, _, rfl⟩ := Heartbeat.erased old
    exact h
  | create _ _ _ _ _ =>
    obtain ⟨_, _, _, _, _, _, _, hs⟩ := RoomManager.created_eq _ _ _ s
    rw [hs]
    exact h
  | join _ _ _ _ _ _ =>
    rw [RoomManager.joined_eq]
    exact h
  | gameEnd _ _ _ =>
    rw [PersonManager.changePersonStatus_eq]
    exact h
  | acceptFail sock acc _ =>
    have spare := h.spare pool sock acc
    exact spare
  | acceptLost sock acc _ => exact h.spare pool sock acc
  | @accept _ c s' t nowsec sock acc _ =>
    intro fd d conn
    have served := Sockets.served pool' conn
    obtain ⟨_, _, _, hs⟩ := accepted_eq c nowsec t
    rw [hs] at conn served ⊢
    simp only at conn served ⊢
    rw [Map.getElem?_insert] at conn
    split at conn
    · rename_i new
      obtain rfl := Option.some.inj conn
      have wire : Wire.ofTrace fd (.accept (t.sock c).iSockfd :: t.trace) = .idle := if_pos new
      have out : Outgoing.ofTrace fd (.accept (t.sock c).iSockfd :: t.trace) = .idle := if_pos new
      have received := served.received
      have own := served.own
      rw [wire] at received own
      rw [wire, out]
      exact .idle received.symm (List.sublist_nil.mp own)
    · rename_i old
      have wire : Wire.ofTrace fd (.accept (t.sock c).iSockfd :: t.trace) = Wire.ofTrace fd t.trace := if_neg old
      have out : Outgoing.ofTrace fd (.accept (t.sock c).iSockfd :: t.trace) = Outgoing.ofTrace fd t.trace := if_neg old
      rw [wire, out]
      exact h.spare pool sock acc fd d conn
  | @recv _ fd c out conn got =>
    have served := Sockets.served pool conn
    refine h.update pool conn ?_ fun fd' other => ⟨if_neg (Ne.symm other), rfl⟩
    have wire : Wire.ofTrace fd (.recv fd out.received :: s.trace) =
        { Wire.ofTrace fd s.trace with received := (Wire.ofTrace fd s.trace).received ++ out.received } := if_pos rfl
    exact wire ▸ (h fd c conn).recv served.valid served.inUse got
  | @extract _ fd c data sock conn got =>
    refine h.update pool conn ?_ fun fd' other => ⟨if_neg (Ne.symm other), rfl⟩
    have wire : Wire.ofTrace fd (.extract fd data :: s.trace) =
        { Wire.ofTrace fd s.trace with extracted := (Wire.ofTrace fd s.trace).extracted ++ [data] } := if_pos rfl
    exact wire ▸ (h fd c conn).extract got
  | everyone may => cases may <;> exact h
  | _ => exact h

theorem Config.carried (h : Config env k s) : Carried env s := by
  induction h with
  | boot booted =>
    intro fd c conn
    rw [booted.connects] at conn
    simp at conn
  | step reached move ih => exact carried_step move reached.pool ih

/-- At any moment of a run and whatever was skipped: as long as no write to a connection failed since it was accepted, what
    went out and what waits are whole messages. The client that cuts what it gets as the server does has the first of
    them, and of the next one a proper part. -/
theorem replies_framed (h : Config env k s) {fd : Int} {c : SockPtr} (conn : s.connects[fd]? = some c)
    (sound : (Outgoing.ofTrace fd s.trace).sound = true) :
    ∃ messages : List CMessage, (Outgoing.ofTrace fd s.trace).stored = messages.map (·.encode env.pb) ∧
      (Outgoing.ofTrace fd s.trace).taken ++ (s.sock c).pending = (messages.map (·.encode env.pb)).flatten ∧
      ∃ n, (TcpSocket.cutter maxMessageLen).frames (Outgoing.ofTrace fd s.trace).taken =
          (messages.take n).map (·.encode env.pb) ∧
        ((TcpSocket.cutter maxMessageLen).rest (Outgoing.ofTrace fd s.trace).taken = [] ∧ messages.length ≤ n ∨
          ∃ mess, messages[n]? = some mess ∧
            (TcpSocket.cutter maxMessageLen).rest (Outgoing.ofTrace fd s.trace).taken <+: mess.encode env.pb ∧
            (TcpSocket.cutter maxMessageLen).rest (Outgoing.ofTrace fd s.trace).taken ≠ mess.encode env.pb) := by
  have carries := h.carried fd c conn
  obtain ⟨messages, stored⟩ : ∃ messages : List CMessage,
      (Outgoing.ofTrace fd s.trace).stored = messages.map (·.encode env.pb) := by
    have each := fun data mem => (carries.legal data mem).2
    generalize (Outgoing.ofTrace fd s.trace).stored = stored at each
    induction stored with
    | nil => exact ⟨[], rfl⟩
    | cons data stored ih =>
      obtain ⟨mess, rfl⟩ := each _ List.mem_cons_self
      obtain ⟨messages, rfl⟩ := ih fun data mem => each data (List.mem_cons_of_mem _ mem)
      exact ⟨mess :: messages, rfl⟩
  have stream := carries.stream sound
  have whole : ∀ f ∈ messages.map (·.encode env.pb), (TcpSocket.cutter maxMessageLen).Whole f := by
    intro f mem
    exact (carries.legal f (stored ▸ mem)).1.whole
  rw [stored] at stream
  obtain ⟨n, frames, left⟩ := Cutter.frames_of_prefix whole ⟨(s.sock c).pending, stream⟩
  refine ⟨messages, stored, stream, n, by rw [frames, List.map_take], ?_⟩
  rcases left with ⟨none, all⟩ | ⟨f, next, part, proper⟩
  · exact .inl ⟨none, by rwa [List.length_map] at all⟩
  · rw [List.getElem?_map, Option.map_eq_some_iff] at next
    obtain ⟨mess, here, rfl⟩ := next
    exact .inr ⟨mess, here, part, proper⟩

end

/-- The client is sent the outcome of its login, of which the kernel takes 12 bytes. -/
def Script.slowClient : Env := { oneClient (request 0) with send := fun n => if n = 11 then .take 12 else .again }

theorem replies_framed_slowClient : ∃ s c, ∃ messages : List CMessage, Reachable Script.slowClient s ∧
    s.connects[(4 : Int)]? = some c ∧ (Outgoing.ofTrace 4 s.trace).taken.length = 12 ∧
    (Outgoing.ofTrace 4 s.trace).taken ++ (s.sock c).pending = (messages.map (·.encode Script.pb)).flatten := by
  obtain ⟨s, reachable, test⟩ := exists_of_ends 2
    (fun s => s.connects[(4 : Int)]?.isSome && (Outgoing.ofTrace 4 s.trace).sound &&
      (Outgoing.ofTrace 4 s.trace).taken.length == 12)
    (Script.reachable Script.slowClient) (by decide +kernel)
  simp only [Bool.and_eq_true, beq_iff_eq] at test
  obtain ⟨⟨connected, sound⟩, taken⟩ := test
  obtain ⟨c, conn⟩ := Option.isSome_iff_exists.mp connected
  obtain ⟨messages, -, stream, -⟩ := replies_framed reachable.config conn sound
  exact ⟨s, c, messages, reachable, conn, taken, stream⟩

end IslandSurvival

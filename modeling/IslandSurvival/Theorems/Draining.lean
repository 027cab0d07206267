import IslandSurvival.Theorems.Sockets
import IslandSurvival.Theorems.Stack

/-! The message loop of a readable connection. It takes every whole frame out of the receive buffer; what is left
    is the begin of a frame, unless a length field is not legal. -/

namespace IslandSurvival

open Prog

/-! ### What a request does to the receive buffers -/

section
variable {env : Env} {k l : List Frame} {s t : Server}

/-- The connections of `t` are connections of `s`, with the same bytes unread. -/
def KeepsUnread (s t : Server) : Prop :=
  ∀ (fd : Int) (c : SockPtr), t.connects[fd]? = some c → s.connects[fd]? = some c ∧ (t.sock c).unread = (s.sock c).unread

theorem KeepsUnread.refl : KeepsUnread s s := fun _ _ conn => ⟨conn, rfl⟩

theorem KeepsUnread.trans {s₁ : Server} (h : KeepsUnread s s₁) (h' : KeepsUnread s₁ t) : KeepsUnread s t := by
  intro fd c conn
  obtain ⟨conn₁, same₁⟩ := h' fd c conn
  obtain ⟨conn₀, same₀⟩ := h fd c conn₁
  exact ⟨conn₀, same₁.trans same₀⟩

theorem KeepsUnread.of_eq (connects : t.connects = s.connects) (sock : t.sock = s.sock) : KeepsUnread s t := by
  intro fd c conn
  rw [connects] at conn
  exact ⟨conn, by rw [sock]⟩

/-- Below the main loop, no connection is received from or accepted. -/
theorem unread_step (move : Step env k s l t) (pool : Pool s) (pending : k ≠ []) : KeepsUnread s t := by
  cases move with
  | @write _ _ fd c mess out conn len sent =>
    have served := Sockets.served pool conn
    obtain ⟨out', run, done⟩ := TcpSocket.sendData_spec (fun n => env.send (s.sys + n)) served.valid served.inUse
      (Nat.le_trans len (by decide))
    obtain rfl := Except.ok.inj (sent.symm.trans run)
    intro fd' c' conn'
    refine ⟨conn', ?_⟩
    show (Function.update s.sock c out.sock c').unread = (s.sock c').unread
    by_cases same : c' = c
    · subst same
      rw [Function.update_self]
      exact done.same.unread
    · rw [Function.update_of_ne same]
  | @drop _ _ fd c _ conn =>
    have served := Sockets.served pool conn
    obtain ⟨_, _, erased⟩ := Heartbeat.erase_eq fd s
    intro fd' c' conn'
    unfold dropConnection at conn' ⊢
    rw [erased] at conn' ⊢
    simp only [served.inUse, if_true, Server.log, Server.setSock] at conn' ⊢
    rw [Map.getElem?_erase] at conn'
    split at conn'
    · cases conn'
    · rename_i other
      have hc : c' ≠ c := by
        rintro rfl
        exact other (Sockets.distinct pool conn conn')
      exact ⟨conn', by rw [Function.update_of_ne hc]⟩
  | left =>
    rw [PersonManager.changePersonStatus_eq]
    exact .of_eq rfl rfl
  | @enter _ _ fd user _ _ _ _ _ _ _ person =>
    obtain ⟨_, _, _, _, hs⟩ := @entered _ _ (loginArg fd user) _ _ person
    rw [hs]
    exact .of_eq rfl rfl
  | heartbeat _ old =>
    obtain ⟨_, _, rfl⟩ := Heartbeat.erased old
    exact .of_eq rfl rfl
  | create _ _ _ _ _ =>
    obtain ⟨_, _, _, _, _, _, _, hs⟩ := RoomManager.created_eq _ _ _ s
    rw [hs]
    exact .of_eq rfl rfl
  | join _ _ _ _ _ _ =>
    rw [RoomManager.joined_eq]
    exact .of_eq rfl rfl
  | gameEnd _ _ _ =>
    rw [PersonManager.changePersonStatus_eq]
    exact .of_eq rfl rfl
  | acceptFail _ _ _ => exact absurd rfl pending
  | acceptLost _ _ _ => exact absurd rfl pending
  | accept _ _ _ _ => exact absurd rfl pending
  | recv _ _ => exact absurd rfl pending
  | extract _ _ => exact absurd rfl pending
  | _ => exact .of_eq rfl rfl

theorem stable_unread (env : Env) {base : List Frame} (pending : base ≠ []) (s : Server) :
    Stable env base fun _ t => Pool t ∧ KeepsUnread s t where
  step {k _ _ _} move h := ⟨pool_step move h.1, h.2.trans (unread_step move h.1 (List.append_ne_nil_of_right_ne_nil k pending))⟩

/-! ### The message loop -/

variable {fd : Int} {c : SockPtr} {mess : CMessage}

theorem dispatch_unread (pool : Pool s) (conn : s.connects[fd]? = some c) :
    wp (dispatch env fd mess) (fun _ t => Pool t ∧ KeepsUnread s t) (fun _ _ => True) s := by
  rw [dispatch_eq]
  simp only [wp_bind, wp_get]
  split
  · rename_i answered
    simp only [wp_bind, wp_log, wp_discard]
    have st := @stable_unread env [.handling fd s.fdToUserId[fd]? mess] (by simp) s
    refine wp_mono (processRequest_spec (k := []) st rfl rfl conn rfl answered ⟨?_, ?_⟩) (fun _ t ht => ht) fun _ _ _ => trivial
    · exact pool_step (@Step.request env _ _ _ mess conn) pool
    · exact .of_eq rfl rfl
  · exact ⟨pool, .refl⟩

/-- A message is extracted if there is a whole frame, which is the first one. -/
theorem extractMessage_rest (pool : Pool s) :
    wp (extractMessage fd) (fun size t => Pool t ∧ ∃ c, s.connects[fd]? = some c ∧ t.connects[fd]? = some c ∧
      (TcpSocket.cutter maxMessageLen).rest (t.sock c).unread = (TcpSocket.cutter maxMessageLen).rest (s.sock c).unread ∧
      (size = none → (t.sock c).unread = (TcpSocket.cutter maxMessageLen).rest (s.sock c).unread)) (fun _ _ => True) s := by
  simp only [extractMessage, wp_bind, wp_get]
  cases conn : s.connects[fd]? with
  | none => trivial
  | some c =>
    simp only
    cases next : (TcpSocket.cutter maxMessageLen).next (s.sock c).unread with
    | none =>
      obtain ⟨ret, fails, got⟩ := TcpSocket.getOneMessage_none next
      rw [got]
      cases ret with
      | success => exact absurd rfl fails
      | fail => exact ⟨pool, c, rfl, conn, rfl, fun _ => (Cutter.rest_of_none next).symm⟩
      | error => exact ⟨pool, c, rfl, conn, rfl, fun _ => (Cutter.rest_of_none next).symm⟩
    | some n =>
      have got := TcpSocket.getOneMessage_some next
      have fits := ((TcpSocket.cutter maxMessageLen).fits next).2
      rw [TcpSocket.length_unread] at fits
      have behind : TcpSocket.unread { s.sock c with recvHead := (s.sock c).recvHead + n } = (s.sock c).unread.drop n := by
        rw [TcpSocket.unread, TcpSocket.unread, Memory.drop_read fits, Nat.sub_sub]
      rw [got]
      refine ⟨pool_step (@Step.extract Script.quiet _ _ _ _ _ conn got) pool, c, rfl, conn, ?_, by simp⟩
      show (TcpSocket.cutter maxMessageLen).rest (Function.update s.sock c { s.sock c with recvHead := (s.sock c).recvHead + n } c).unread = _
      rw [Function.update_self, behind, ← Cutter.rest_of_some next]

/-- Handling a message leaves the connection with the same bytes unread, if it leaves it open. -/
theorem handleMessage_unread (env : Env) (pool : Pool s) (size : Nat) (conn : s.connects[fd]? = some c) :
    wp (handleMessage env fd size) (fun _ t => Pool t ∧ KeepsUnread s t) (fun _ _ => True) s := by
  simp only [handleMessage, wp_bind, wp_get]
  split
  · exact ⟨pool, .refl⟩
  · simp only [wp_bind, wp_pure]
    exact dispatch_unread pool conn

/-- What is left in the receive buffer when the message loop returns -/
theorem messageLoop_rest : ∀ (fuel cnt : Nat) (s : Server), Pool s →
    wp (messageLoop env fd fuel cnt) (fun _ t => Pool t ∧ ∃ c, s.connects[fd]? = some c ∧ t.connects[fd]? = some c ∧
      (t.sock c).unread = (TcpSocket.cutter maxMessageLen).rest (s.sock c).unread) (fun _ _ => True) s
  | 0, _, _, _ => trivial
  | fuel + 1, cnt, s, pool => by
    simp only [messageLoop, wp_bind]
    refine wp_post (extractMessage_rest pool) fun size t extracted => ?_
    obtain ⟨pool₁, c, conn, conn₁, same, last⟩ := extracted
    cases size with
    | none => exact ⟨pool₁, c, conn, conn₁, last rfl⟩
    | some size =>
      simp only [wp_bind]
      refine wp_post (handleMessage_unread env pool₁ size conn₁) fun n t₂ handled => ?_
      obtain ⟨pool₂, keeps⟩ := handled
      refine wp_post (messageLoop_rest fuel (cnt + n) t₂ pool₂) fun _ t₃ left => ?_
      obtain ⟨pool₃, c', here, there, rest⟩ := left
      obtain ⟨before, unread⟩ := keeps fd c' here
      obtain rfl : c = c' := Option.some.inj (conn₁.symm.trans before)
      exact ⟨pool₃, c, conn, there, by rw [rest, unread, same]⟩

/-! ### A deletion -/

/-- A deletion removes its connection for good. -/
theorem deleteClientStep_removes {del : Int → M Unit} {base : List Frame}
    (hd : ∀ s, Deletes base (fun _ t => Pool t ∧ KeepsUnread s t) del) (pending : base ≠ []) (pool : Pool s) :
    wp (deleteClientStep env del fd) (fun _ t => Pool t ∧ KeepsUnread s t ∧ t.connects[fd]? = none) (fun _ _ => True) s := by
  simp only [deleteClientStep, wp_bind, wp_get]
  cases conn : s.connects[fd]? with
  | none => exact ⟨pool, .refl, conn⟩
  | some c =>
    simp only [wp_bind, wp_modify, wp_get]
    have move : Step env (.kick 0 fd :: base) s (.drop fd :: .kick 0 fd :: base) (dropConnection fd c s) := .drop .kick conn
    have pool₁ := pool_step move pool
    have keeps₁ := unread_step move pool (by simp)
    have gone : (dropConnection fd c s).connects[fd]? = none := by
      obtain ⟨_, _, _, _, _, hs⟩ := dropConnection_eq fd c s
      rw [hs]
      simp
    have still : ∀ t, KeepsUnread (dropConnection fd c s) t → t.connects[fd]? = none := by
      intro t keeps
      cases back : t.connects[fd]? with
      | none => rfl
      | some c' => exact absurd (keeps fd c' back).1 (by rw [gone]; simp)
    cases user : (dropConnection fd c s).fdToUserId[fd]? with
    | none => exact ⟨pool₁, keeps₁, gone⟩
    | some userId =>
      have st := stable_unread env pending (dropConnection fd c s)
      refine wp_mono (playerLogout_spec (k := []) st (hd _) user ⟨pool₁, .refl⟩) (fun _ t kept => ?_) fun _ _ _ => trivial
      obtain ⟨pool', keeps⟩ := kept
      exact ⟨pool', keeps₁.trans keeps, still t keeps⟩

theorem deleteClientByFd_removes (pool : Pool s) :
    wp (deleteClientByFd env fd) (fun _ t => Pool t ∧ KeepsUnread s t ∧ t.connects[fd]? = none) (fun _ _ => True) s := by
  have base : [Frame.expiring 0 none] ≠ [] := by simp
  simp only [deleteClientByFd, wp_bind, wp_get]
  cases s.connects.size with
  | zero => exact deleteClientStep_removes (fun _ k _ _ _ h => ⟨k, h⟩) base pool
  | succ fuel => exact deleteClientStep_removes (fun s => deleteClientFuel_spec (stable_unread env base s) fuel) base pool

/-! ### A readable event -/

/-- What is left of a stream is a proper part of a legal frame. -/
def PartOfFrame (u : Bytes) : Prop := ∃ f, LegalFrame f ∧ u <+: f ∧ u ≠ f

theorem PartOfFrame.short {u : Bytes} (h : PartOfFrame u) : u.length < maxMessageLen := by
  obtain ⟨f, legal, part, proper⟩ := h
  have le := part.length_le
  have ne : u.length ≠ f.length := fun same => proper (part.eq_of_length same)
  have short := legal.short
  omega

/-- The length field of a part of a frame that is as long as the field is one of a legal frame. -/
theorem PartOfFrame.lengthField {u : Bytes} (h : PartOfFrame u) (long : 4 ≤ u.length) :
    (headSize : Int) ≤ TcpSocket.lengthField u := by
  obtain ⟨f, legal, ⟨v, rfl⟩, -⟩ := h
  rw [← TcpSocket.lengthField_append long v, legal.length]
  exact Int.ofNat_le.mpr legal.long

/-- `RecvData` only adds to the calls of `recv`. -/
theorem TcpSocket.recvLoop_calls {kernel : Nat → RecvAnswer} : ∀ {fuel calls : Nat} {received : Bytes} {sock : TcpSocket}
    {out : RecvOutcome}, recvLoop kernel fuel calls received sock = .ok out → calls ≤ out.calls
  | 0, _, _, _, _, run => by cases run
  | fuel + 1, calls, received, sock, out, run => by
    unfold recvLoop at run
    split at run
    · obtain rfl := Except.ok.inj run
      exact Nat.le_refl _
    · split at run
      · simp only at run
        split at run
        · obtain rfl := Except.ok.inj run
          exact Nat.le_succ _
        · exact Nat.le_of_succ_le (recvLoop_calls run)
      all_goals
        obtain rfl := Except.ok.inj run
        exact Nat.le_succ _

/-- A turn of `RecvData` with room in the buffer calls `recv`. -/
theorem TcpSocket.recvLoop_reads {kernel : Nat → RecvAnswer} {fuel calls : Nat} {received : Bytes} {sock : TcpSocket}
    {out : RecvOutcome} (room : sock.tryMoveReceDataAhead ≠ none)
    (run : recvLoop kernel (fuel + 1) calls received sock = .ok out) : calls < out.calls := by
  unfold recvLoop at run
  split at run
  · contradiction
  · split at run
    · simp only at run
      split at run
      · obtain rfl := Except.ok.inj run
        exact Nat.lt_succ_self _
      · exact Nat.lt_of_succ_le (recvLoop_calls run)
    all_goals
      obtain rfl := Except.ok.inj run
      exact Nat.lt_succ_self _

/-- `RecvData` reads from the socket, if the buffer is not full. -/
theorem TcpSocket.recvData_reads {sock : TcpSocket} (inUse : sock.isUsing = true) (room : sock.unread.length < recvBufferSize)
    {kernel : Nat → RecvAnswer} {out : RecvOutcome} (run : sock.recvData kernel = .ok out) : 0 < out.calls := by
  unfold recvData at run
  rw [if_neg (by simp [inUse])] at run
  split at run
  · rename_i empty
    exact recvLoop_reads (by simp [tryMoveReceDataAhead, recvBufferSize]) run
  · refine recvLoop_reads (fun full => ?_) run
    obtain ⟨head, tail⟩ := tryMoveReceDataAhead_eq_none full
    rw [TcpSocket.length_unread, head, tail] at room
    exact Nat.lt_irrefl _ room

/-- A readable connection is closed, or left with the rest of the stream that its frames are cut from. -/
theorem readClient_rest {out : TcpSocket.RecvOutcome} (pool : Pool s) (conn : s.connects[fd]? = some c)
    (recv : (s.sock c).recvData (fun n => env.recv (s.sys + n)) = .ok out) :
    wp (readClient env fd c) (fun _ t => (out.status = .error → t.connects[fd]? = none) ∧
      (out.status ≠ .error → Pool t ∧ t.connects[fd]? = some c ∧
        (t.sock c).unread = (TcpSocket.cutter maxMessageLen).rest ((s.sock c).unread ++ out.received)))
      (fun _ _ => True) s := by
  have served := Sockets.served pool conn
  obtain ⟨out', run, done⟩ := TcpSocket.recvData_spec (fun n => env.recv (s.sys + n)) served.valid served.inUse
  obtain rfl := Except.ok.inj (recv.symm.trans run)
  have pool₁ := pool_step (@Step.recv env _ _ _ _ conn recv) pool
  simp only [readClient, recvData, wp_bind, wp_get]
  refine wp_guarded (fun out' got => ?_) fun _ _ => trivial
  obtain rfl := Except.ok.inj (recv.symm.trans got)
  simp only [wp_set, wp_pure]
  refine wp_post (messageLoop_rest _ 0 _ pool₁) fun cnt t left => ?_
  obtain ⟨pool₂, c', conn₁, conn₂, rest⟩ := left
  obtain rfl : c = c' := Option.some.inj (conn.symm.trans conn₁)
  have unread : (Function.update s.sock c out.sock c).unread = (s.sock c).unread ++ out.received := by
    rw [Function.update_self]
    exact done.unread
  have rest : (t.sock c).unread = (TcpSocket.cutter maxMessageLen).rest ((s.sock c).unread ++ out.received) :=
    unread ▸ rest
  split
  · rename_i failed
    simp only [wp_bind, wp_pure]
    refine wp_post (deleteClientByFd_removes pool₂) fun _ t' removed => ?_
    obtain ⟨-, -, gone⟩ := removed
    exact ⟨fun _ => gone, fun ok => absurd failed ok⟩
  · rename_i ok
    exact ⟨fun failed => absurd failed ok, fun _ => ⟨pool₂, conn₂, rest⟩⟩

/-- A readable event of a connection is handled by `readClient`. -/
theorem handleEvent_readable {ev : EpollEvent} (readable : ev.err = false ∧ ev.hup = false ∧ ev.inn = true)
    (client : ev.fd ≠ s.listenFd) (conn : s.connects[ev.fd]? = some c) :
    handleEvent env ev s = readClient env ev.fd c (s.log (.epoll ev)) := by
  obtain ⟨err, hup, inn⟩ := readable
  have conn' : (s.log (.epoll ev)).connects[ev.fd]? = some c := conn
  show (if ev.err || ev.hup || !ev.inn then _ else _ : M Nat) (s.log (.epoll ev)) = _
  rw [if_neg (by simp [err, hup, inn])]
  rw [if_neg (show ¬ev.fd = (s.log (.epoll ev)).listenFd from client), conn']

/-- A connection after an event: closed, or with a proper part of a legal frame unread, so that the next `RecvData`
    reads from the socket. -/
def Drained (fd : Int) (s : Server) : Prop :=
  s.connects[fd]? = none ∨ ∃ c, s.connects[fd]? = some c ∧ PartOfFrame (s.sock c).unread ∧
    ∀ kernel out, (s.sock c).recvData kernel = .ok out → 0 < out.calls

/-- After a readable event a connection is closed or has a proper part of a legal frame unread, if and only if the
    peer is disconnected or its stream, cut at the length fields from 1 to 4096, ends in a proper part of a legal frame. -/
theorem drained_iff (h : Config env [] s) {ev : EpollEvent} (readable : ev.err = false ∧ ev.hup = false ∧ ev.inn = true)
    (client : ev.fd ≠ s.listenFd) (conn : s.connects[ev.fd]? = some c) {out : TcpSocket.RecvOutcome}
    (recv : (s.sock c).recvData (fun n => env.recv (s.sys + n)) = .ok out) {n : Nat}
    (run : handleEvent env ev s = .ok n t) :
    Drained ev.fd t ↔ out.status = .error ∨
      PartOfFrame ((TcpSocket.cutter maxMessageLen).rest ((s.sock c).unread ++ out.received)) := by
  have pool : Pool (s.log (.epoll ev)) := pool_step (@Step.epoll env _ ev) h.pool
  rw [handleEvent_readable readable client conn] at run
  obtain ⟨failed, stays⟩ := wp_ok (readClient_rest pool conn recv) run
  by_cases error : out.status = .error
  · exact ⟨fun _ => .inl error, fun _ => .inl (failed error)⟩
  · obtain ⟨pool', conn', unread⟩ := stays error
    have unread : (t.sock c).unread = (TcpSocket.cutter maxMessageLen).rest ((s.sock c).unread ++ out.received) := unread
    rw [← unread]
    constructor
    · rintro (gone | ⟨c', here, part, -⟩)
      · rw [gone] at conn'
        cases conn'
      · obtain rfl : c' = c := Option.some.inj (here.symm.trans conn')
        exact .inr part
    · rintro (failed | part)
      · exact absurd failed error
      · have served := Sockets.served pool' conn'
        exact .inr ⟨c, conn', part, fun kernel out => TcpSocket.recvData_reads served.inUse (Nat.lt_trans part.short (by decide))⟩

end

/-- A client is connected; what it sends next is `bytes`. -/
def Script.sends (bytes : Bytes) : Env := { oneClient [] with
  recv := fun n => if n = 5 then .data bytes else .again }

/-- An event of the client that is connected -/
theorem Script.handled (bytes : Bytes) (test : Server → Bool)
    (ends : Ends (sends bytes) 1 server (fun s => s.connects[(4 : Int)]? == some 0 && decide (s.listenFd = 3) &&
      match handleEvent (sends bytes) (readable 4) s with
      | .ok _ t => test t
      | .error _ _ => false) = true) :
    ∃ s n t, Reachable (sends bytes) s ∧ s.connects[(4 : Int)]? = some 0 ∧ s.listenFd = 3 ∧
      handleEvent (sends bytes) (readable 4) s = .ok n t ∧ test t = true := by
  obtain ⟨s, reachable, tested⟩ := exists_of_ends 1 _ (Script.reachable (sends bytes)) ends
  simp only [Bool.and_eq_true, beq_iff_eq, decide_eq_true_eq] at tested
  obtain ⟨⟨conn, listen⟩, tested⟩ := tested
  split at tested
  · rename_i n t run
    exact ⟨s, n, t, reachable, conn, listen, run, tested⟩
  · cases tested

/-- Five zero bytes are no part of a frame, and stay in the buffer. -/
theorem zeros_stay : ∃ s n t, Reachable (Script.sends [0, 0, 0, 0, 0]) s ∧
    handleEvent (Script.sends [0, 0, 0, 0, 0]) (Script.readable 4) s = .ok n t ∧
    s.connects[(4 : Int)]? = some 0 ∧ ¬Drained 4 t := by
  obtain ⟨s, n, t, reachable, conn, -, run, test⟩ := Script.handled [0, 0, 0, 0, 0]
    (fun t => t.connects[(4 : Int)]? == some 0 && (t.sock 0).unread == [0, 0, 0, 0, 0]) (by decide +kernel)
  simp only [Bool.and_eq_true, beq_iff_eq] at test
  refine ⟨s, n, t, reachable, run, conn, ?_⟩
  rintro (gone | ⟨c, here, ⟨f, legal, part, proper⟩, -⟩)
  · simp [gone] at test
  · obtain rfl := Option.some.inj (here.symm.trans test.1)
    have part : PartOfFrame (t.sock 0).unread := ⟨f, legal, part, proper⟩
    rw [test.2] at part
    exact absurd (part.lengthField (by decide)) (by decide +kernel)

/-- After a whole frame nothing is left in the buffer. -/
theorem drained_after_frame : ∃ s out n t, Reachable (Script.sends (Script.request 0)) s ∧
    (s.sock 0).recvData (fun n => (Script.sends (Script.request 0)).recv (s.sys + n)) = .ok out ∧
    handleEvent (Script.sends (Script.request 0)) (Script.readable 4) s = .ok n t ∧ Drained 4 t ∧
    (out.status = .error ∨ PartOfFrame ((TcpSocket.cutter maxMessageLen).rest ((s.sock 0).unread ++ out.received))) := by
  obtain ⟨s, n, t, reachable, conn, listen, run, test⟩ := Script.handled (Script.request 0)
    (fun t => t.connects[(4 : Int)]? == some 0 && (t.sock 0).unread == [] && (t.sock 0).isUsing) (by decide +kernel)
  simp only [Bool.and_eq_true, beq_iff_eq] at test
  obtain ⟨⟨conn', unread⟩, inUse⟩ := test
  have served := Sockets.served reachable.config.pool conn
  obtain ⟨out, recv, -⟩ := TcpSocket.recvData_spec (fun n => (Script.sends (Script.request 0)).recv (s.sys + n))
    served.valid served.inUse
  have part : PartOfFrame (t.sock 0).unread := by
    rw [unread]
    exact ⟨Script.request 0, ⟨by decide, by decide, by decide +kernel⟩, List.nil_prefix, by decide⟩
  have drained : Drained 4 t :=
    .inr ⟨0, conn', part, fun _ _ => TcpSocket.recvData_reads inUse (Nat.lt_trans part.short (by decide))⟩
  have client : (Script.readable 4).fd ≠ s.listenFd := by rw [listen]; decide
  exact ⟨s, out, n, t, reachable, recv, run, drained,
    (drained_iff reachable.config ⟨rfl, rfl, rfl⟩ client conn recv run).mp drained⟩

end IslandSurvival

import IslandSurvival.Theorems.Reassembly
import Mathlib.Data.List.Nodup

/-! The `TcpSocket` objects. A connection has an object of its own, which goes to the pool when the connection is
    closed; what an object holds is of the connection that it is used for. -/

namespace IslandSurvival

/-! ### The streams of a connection -/

/-- What went over a connection since it was accepted -/
structure Wire where
  received : Bytes
  extracted : List Bytes
  taken : Bytes
  /-- the encodings handed to `SendData` -/
  offered : Bytes
  /-- no `send` failed, and no message came while the backlog had no room for it -/
  roomy : Bool
  /-- `SendData` returned `write_status_success` every time -/
  smooth : Bool

namespace Wire

def idle : Wire := { received := [], extracted := [], taken := [], offered := [], roomy := true, smooth := true }

/-- The kernel takes the whole backlog, or what it leaves has room behind it for the message. -/
def Room (w : Wire) (data taken : Bytes) : Prop :=
  w.offered.length - w.taken.length ≤ taken.length ∨
    w.offered.length - w.taken.length - taken.length + data.length ≤ sendBufferSize

instance {w : Wire} {data taken : Bytes} : Decidable (Room w data taken) := inferInstanceAs (Decidable (_ ∨ _))

/-- A call of `SendData` -/
def write (data taken : Bytes) (status : WriteStatus) (w : Wire) : Wire :=
  { w with
    taken := w.taken ++ taken
    offered := w.offered ++ data
    roomy := w.roomy && decide (status ≠ .error ∧ w.Room data taken)
    smooth := w.smooth && decide (status = .success) }

/-- The wire of the connection that has descriptor `fd` -/
def ofTrace (fd : Int) : List Event → Wire
  | [] => idle
  | .accept fd' :: older => if fd' = fd then idle else ofTrace fd older
  | .recv fd' got :: older =>
    let w := ofTrace fd older
    if fd' = fd then { w with received := w.received ++ got } else w
  | .extract fd' data :: older =>
    let w := ofTrace fd older
    if fd' = fd then { w with extracted := w.extracted ++ [data] } else w
  | .write fd' data taken status :: older =>
    let w := ofTrace fd older
    if fd' = fd then w.write data taken status else w
  | _ :: older => ofTrace fd older

end Wire

/-- The object of a connection, and what it holds of the streams of the connection -/
structure Served (fd : Int) (sock : TcpSocket) (w : Wire) : Prop where
  valid : sock.Valid
  inUse : sock.isUsing = true
  descriptor : sock.iSockfd = fd
  received : w.received = w.extracted.flatten ++ sock.unread
  own : (w.taken ++ sock.pending).Sublist w.offered
  /-- With room for every message, nothing is skipped. -/
  whole : w.roomy = true ↔ w.taken ++ sock.pending = w.offered
  smooth : w.smooth = w.roomy

namespace Served

variable {fd : Int} {sock : TcpSocket} {w : Wire}

theorem fresh (sock : TcpSocket) (fd : Int) :
    Served fd { sock.init with iSockfd := fd, isUsing := true } .idle where
  valid := ⟨Nat.le_refl _, Nat.zero_le _, Nat.le_refl _, Nat.zero_le _⟩
  inUse := rfl
  descriptor := rfl
  received := rfl
  own := List.Sublist.refl _
  whole := ⟨fun _ => rfl, fun _ => rfl⟩
  smooth := rfl

theorem recv {kernel : Nat → RecvAnswer} {out : TcpSocket.RecvOutcome} (h : Served fd sock w)
    (got : sock.recvData kernel = .ok out) : Served fd out.sock { w with received := w.received ++ out.received } := by
  obtain ⟨out', run, done⟩ := TcpSocket.recvData_spec kernel h.valid h.inUse
  obtain rfl := Except.ok.inj (got.symm.trans run)
  have pending := done.same.pending
  obtain ⟨_, _, _, same⟩ := done.same
  refine ⟨done.valid, by rw [same]; exact h.inUse, by rw [same]; exact h.descriptor, ?_, ?_, ?_, h.smooth⟩
  · rw [done.unread, ← List.append_assoc, ← h.received]
  · rw [pending]
    exact h.own
  · rw [pending]
    exact h.whole

theorem extract {data : Bytes} {sock' : TcpSocket} (h : Served fd sock w)
    (got : sock.getOneMessage maxMessageLen = (.success, data, sock')) :
    Served fd sock' { w with extracted := w.extracted ++ [data] } := by
  cases next : (TcpSocket.cutter maxMessageLen).next sock.unread with
  | none =>
    obtain ⟨ret, fails, run⟩ := TcpSocket.getOneMessage_none next
    exact absurd (congrArg Prod.fst (run.symm.trans got)) fails
  | some n =>
    have fits := ((TcpSocket.cutter maxMessageLen).fits next).2
    rw [TcpSocket.length_unread] at fits
    have run := TcpSocket.getOneMessage_some next
    obtain ⟨rfl, rfl⟩ : sock.unread.take n = data ∧ { sock with recvHead := sock.recvHead + n } = sock' := by
      simpa using run.symm.trans got
    have valid := h.valid
    have head := valid.recvHead
    refine ⟨⟨by simp only; omega, valid.recvTail, valid.sendHead, valid.sendTail⟩, h.inUse, h.descriptor, ?_, h.own, h.whole,
      h.smooth⟩
    have behind : TcpSocket.unread { sock with recvHead := sock.recvHead + n } = sock.unread.drop n := by
      rw [TcpSocket.unread, TcpSocket.unread, Memory.drop_read fits, Nat.sub_sub]
    rw [behind, List.flatten_append, List.flatten_singleton, List.append_assoc, List.take_append_drop]
    exact h.received

theorem write {kernel : Nat → SendAnswer} {data : Bytes} {out : TcpSocket.SendOutcome} (h : Served fd sock w)
    (size : data.length ≤ maxMessageLen) (run : sock.sendData kernel data = .ok out) :
    Served fd out.sock (w.write data out.taken out.status) := by
  obtain ⟨out', run', done⟩ := TcpSocket.sendData_spec kernel h.valid h.inUse (Nat.le_trans size (by decide))
  obtain rfl := Except.ok.inj (run.symm.trans run')
  have unread := done.same.unread
  have same := done.same
  obtain ⟨_, _, _, same⟩ := same
  have grows : (out.taken ++ out.sock.pending).Sublist (sock.pending ++ data) := by
    cases status : out.status with
    | success => rw [done.success status]
    | notFinish =>
      rw [(done.skipped status).1]
      exact List.sublist_append_left _ _
    | error => exact (done.failed status).1.sublist
  have own : (w.taken ++ out.taken ++ out.sock.pending).Sublist (w.taken ++ sock.pending ++ data) := by
    rw [List.append_assoc, List.append_assoc]
    exact List.Sublist.append_left grows w.taken
  refine ⟨done.valid, by rw [same]; exact h.inUse, by rw [same]; exact h.descriptor, ?_,
    own.trans (List.Sublist.append_right h.own data), ?_, ?_⟩
  · rw [unread]
    exact h.received
  · have limit := done.valid.length_pending
    have before := h.own.length_le
    have step := grows.length_le
    simp only [List.length_append] at before step
    have room : w.Room data out.taken ↔ w.offered.length - w.taken.length ≤ out.taken.length ∨
      w.offered.length - w.taken.length - out.taken.length + data.length ≤ sendBufferSize := Iff.rfl
    simp only [Wire.write, Bool.and_eq_true, decide_eq_true_eq, h.whole, room]
    constructor
    · rintro ⟨clean, status, room⟩
      have total := congrArg List.length clean
      rw [List.length_append] at total
      cases result : out.status with
      | success => rw [List.append_assoc, done.success result, ← List.append_assoc, clean]
      | notFinish =>
        obtain ⟨kept, some, full⟩ := done.skipped result
        have length := congrArg List.length kept
        have pos := List.length_pos_iff.mpr some
        rw [List.length_append] at length
        omega
      | error => exact absurd result status
    · intro all
      have total := congrArg List.length all
      simp only [List.length_append] at total
      have clean : w.taken ++ sock.pending = w.offered :=
        h.own.eq_of_length (by rw [List.length_append]; omega)
      cases result : out.status with
      | success => exact ⟨clean, by simp, by omega⟩
      | notFinish =>
        obtain ⟨kept, -, full⟩ := done.skipped result
        have length := congrArg List.length kept
        rw [List.length_append] at length
        omega
      | error =>
        obtain ⟨pre, part, -⟩ := done.failed result
        refine absurd (pre.eq_of_length ?_) part
        simp only [List.length_append]
        omega
  · have limit := done.valid.length_pending
    simp only [Wire.write, h.smooth]
    cases roomy : w.roomy with
    | false => rfl
    | true =>
      have total := congrArg List.length (h.whole.mp roomy)
      rw [List.length_append] at total
      have room : w.Room data out.taken ↔ w.offered.length - w.taken.length ≤ out.taken.length ∨
        w.offered.length - w.taken.length - out.taken.length + data.length ≤ sendBufferSize := Iff.rfl
      simp only [Bool.true_and, decide_eq_decide, room]
      cases result : out.status with
      | success =>
        have length := congrArg List.length (done.success result)
        simp only [List.length_append] at length
        simp only [ne_eq, reduceCtorEq, not_false_eq_true, true_and, true_iff]
        omega
      | notFinish =>
        obtain ⟨kept, some, full⟩ := done.skipped result
        have length := congrArg List.length kept
        have pos := List.length_pos_iff.mpr some
        rw [List.length_append] at length
        simp only [reduceCtorEq, ne_eq, not_false_eq_true, true_and, false_iff]
        omega
      | error => simp

end Served

/-! ### The pool -/

/-- Connections have objects of their own, outside the pool, for descriptors that are open. -/
structure Sockets (connects : Map SockPtr) (openFds : IntSet) (sock : SockPtr → TcpSocket) (freeConns : List SockPtr)
    (sockCnt : Nat) (wire : Int → Wire) : Prop where
  served : ∀ {fd : Int} {c : SockPtr}, connects[fd]? = some c → Served fd (sock c) (wire fd)
  opened : ∀ {fd : Int}, fd ∈ connects → fd ∈ openFds
  allocated : ∀ {fd : Int} {c : SockPtr}, connects[fd]? = some c → c < sockCnt
  pooled : ∀ {c : SockPtr}, c ∈ freeConns → c < sockCnt ∧ ∀ fd : Int, connects[fd]? ≠ some c
  nodup : freeConns.Nodup

namespace Sockets

variable {connects : Map SockPtr} {openFds : IntSet} {sock : SockPtr → TcpSocket} {freeConns : List SockPtr}
  {sockCnt : Nat} {wire : Int → Wire} {fd fd' : Int} {c : SockPtr}

theorem empty : Sockets ∅ openFds sock [] 0 wire where
  served := by simp
  opened := by simp
  allocated := by simp
  pooled := by simp
  nodup := List.nodup_nil

/-- No two connections have the same object. -/
theorem distinct (h : Sockets connects openFds sock freeConns sockCnt wire) (conn : connects[fd]? = some c)
    (conn' : connects[fd']? = some c) : fd = fd' :=
  (h.served conn).descriptor.symm.trans (h.served conn').descriptor

/-- A connection uses its object. -/
theorem use (h : Sockets connects openFds sock freeConns sockCnt wire) (conn : connects[fd]? = some c)
    {sock' : TcpSocket} {w : Wire} (now : Served fd sock' w) :
    Sockets connects openFds (Function.update sock c sock') freeConns sockCnt (Function.update wire fd w) where
  served {fd' d} conn' := by
    by_cases hd : d = c
    · subst hd
      obtain rfl := h.distinct conn conn'
      rwa [Function.update_self, Function.update_self]
    · have other : fd' ≠ fd := by
        rintro rfl
        exact hd (Option.some.inj (conn'.symm.trans conn))
      rw [Function.update_of_ne hd, Function.update_of_ne other]
      exact h.served conn'
  opened := h.opened
  allocated := h.allocated
  pooled := h.pooled
  nodup := h.nodup

/-- The object of a connection that is closed goes to the pool. -/
theorem drop (h : Sockets connects openFds sock freeConns sockCnt wire) (conn : connects[fd]? = some c)
    (closed : TcpSocket) : Sockets (connects.erase fd) (openFds.erase fd) (Function.update sock c closed)
      (freeConns ++ [c]) sockCnt wire where
  served {fd' d} conn' := by
    rw [Map.getElem?_erase] at conn'
    split at conn'
    · cases conn'
    · rename_i other
      have hd : d ≠ c := by
        rintro rfl
        exact other (h.distinct conn conn')
      rw [Function.update_of_ne hd]
      exact h.served conn'
  opened {fd'} mem := by
    obtain ⟨other, mem⟩ := Map.mem_erase.mp mem
    simp [other, h.opened mem]
  allocated {fd' d} conn' := by
    rw [Map.getElem?_erase] at conn'
    split at conn'
    · cases conn'
    · exact h.allocated conn'
  pooled {d} mem := by
    rcases List.mem_append.mp mem with mem | mem
    · refine ⟨(h.pooled mem).1, fun fd' conn' => ?_⟩
      rw [Map.getElem?_erase] at conn'
      split at conn'
      · cases conn'
      · exact (h.pooled mem).2 fd' conn'
    · obtain rfl := List.mem_singleton.mp mem
      refine ⟨h.allocated conn, fun fd' conn' => ?_⟩
      rw [Map.getElem?_erase] at conn'
      split at conn'
      · cases conn'
      · rename_i other
        exact other (h.distinct conn conn')
  nodup := by
    refine List.nodup_append.mpr ⟨h.nodup, List.nodup_singleton c, ?_⟩
    rintro d mem e last rfl
    obtain rfl := List.mem_singleton.mp last
    exact (h.pooled mem).2 fd conn

/-- An object that is out of the pool, and that no connection has yet -/
structure Spare (connects : Map SockPtr) (freeConns : List SockPtr) (sockCnt : Nat) (c : SockPtr) : Prop where
  unused : ∀ fd : Int, connects[fd]? ≠ some c
  outside : c ∉ freeConns
  allocated : c < sockCnt

/-- What is done with a spare object does not matter to the connections. -/
theorem spare (h : Sockets connects openFds sock freeConns sockCnt wire) (out : Spare connects freeConns sockCnt c)
    (new : TcpSocket) : Sockets connects openFds (Function.update sock c new) freeConns sockCnt wire where
  served {fd d} conn := by
    have hd : d ≠ c := by
      rintro rfl
      exact out.unused fd conn
    rw [Function.update_of_ne hd]
    exact h.served conn
  opened := h.opened
  allocated := h.allocated
  pooled := h.pooled
  nodup := h.nodup

theorem openFd (h : Sockets connects openFds sock freeConns sockCnt wire) (fd : Int) :
    Sockets connects (openFds.insert fd) sock freeConns sockCnt wire where
  served := h.served
  opened mem := by simp [h.opened mem]
  allocated := h.allocated
  pooled := h.pooled
  nodup := h.nodup

/-- A spare object goes back to the pool. -/
theorem giveBack (h : Sockets connects openFds sock freeConns sockCnt wire) (out : Spare connects freeConns sockCnt c) :
    Sockets connects openFds sock (freeConns ++ [c]) sockCnt wire where
  served := h.served
  opened := h.opened
  allocated := h.allocated
  pooled {d} mem := by
    rcases List.mem_append.mp mem with mem | mem
    · exact h.pooled mem
    · obtain rfl := List.mem_singleton.mp mem
      exact ⟨out.allocated, out.unused⟩
  nodup := by
    refine List.nodup_append.mpr ⟨h.nodup, List.nodup_singleton c, ?_⟩
    rintro d mem e last rfl
    obtain rfl := List.mem_singleton.mp last
    exact out.outside mem

/-- A spare object becomes that of a new connection. -/
theorem accept (h : Sockets connects openFds sock freeConns sockCnt wire) (out : Spare connects freeConns sockCnt c)
    (opened : fd ∈ openFds) {w : Wire} (served : Served fd (sock c) w) :
    Sockets (connects.insert fd c) openFds sock freeConns sockCnt (Function.update wire fd w) where
  served {fd' d} conn := by
    rw [Map.getElem?_insert] at conn
    split at conn
    · rename_i same
      obtain rfl := Option.some.inj conn
      subst same
      rwa [Function.update_self]
    · rename_i other
      rw [Function.update_of_ne (Ne.symm other)]
      exact h.served conn
  opened {fd'} mem := by
    rcases Map.mem_insert.mp mem with rfl | mem
    · exact opened
    · exact h.opened mem
  allocated {fd' d} conn := by
    rw [Map.getElem?_insert] at conn
    split at conn
    · obtain rfl := Option.some.inj conn
      exact out.allocated
    · exact h.allocated conn
  pooled {d} mem := by
    refine ⟨(h.pooled mem).1, fun fd' conn => ?_⟩
    rw [Map.getElem?_insert] at conn
    split at conn
    · obtain rfl := Option.some.inj conn
      exact out.outside mem
    · exact (h.pooled mem).2 fd' conn
  nodup := h.nodup

end Sockets

/-- The sockets of a state -/
def Pool (s : Server) : Prop :=
  Sockets s.connects s.openFds s.sock s.freeConns s.sockCnt fun fd => .ofTrace fd s.trace

section
variable {env : Env} {s t : Server} {c : SockPtr} {ret : Ret}

/-- `GetFreeTcpSocket` takes an object out of the pool, or a new one. -/
theorem Pool.getFree (h : Pool s) (free : getFreeTcpSocket s = (c, t)) : Pool t ∧
    Sockets.Spare t.connects t.freeConns t.sockCnt c ∧ ∃ old, t.sock c = TcpSocket.init old := by
  unfold getFreeTcpSocket at free
  split at free
  · rename_i d rest pool
    obtain ⟨rfl, rfl⟩ := Prod.mk.inj free
    have nodup := Sockets.nodup h
    rw [pool] at nodup
    obtain ⟨outside, nodup⟩ := List.nodup_cons.mp nodup
    have here := Sockets.pooled h (c := d) (by rw [pool]; exact List.mem_cons_self)
    have spare : Sockets.Spare s.connects rest s.sockCnt d := ⟨here.2, outside, here.1⟩
    refine ⟨Sockets.spare ⟨Sockets.served h, Sockets.opened h, Sockets.allocated h, fun mem => ?_, nodup⟩ spare _, spare, s.sock d, ?_⟩
    · exact Sockets.pooled h (by rw [pool]; exact List.mem_cons_of_mem _ mem)
    · simp [Server.setSock]
  · rename_i pool
    obtain ⟨rfl, rfl⟩ := Prod.mk.inj free
    have spare : Sockets.Spare s.connects s.freeConns (s.sockCnt + 1) s.sockCnt := by
      refine ⟨fun fd conn => ?_, by rw [pool]; exact List.not_mem_nil, Nat.lt_succ_self _⟩
      exact Nat.lt_irrefl _ (Sockets.allocated h conn)
    refine ⟨Sockets.spare ⟨Sockets.served h, Sockets.opened h, fun conn => ?_, fun mem => ?_, Sockets.nodup h⟩ spare _,
      spare, s.sock s.sockCnt, ?_⟩
    · exact Nat.lt_succ_of_lt (Sockets.allocated h conn)
    · exact (Sockets.pooled h mem).imp_left Nat.lt_succ_of_lt
    · simp [Server.setSock]

/-- `AcceptClient` with a spare object -/
theorem Pool.acceptClient (h : Pool s) (spare : Sockets.Spare s.connects s.freeConns s.sockCnt c)
    (acc : acceptClient env c s = (ret, t)) : Pool t ∧ Sockets.Spare t.connects t.freeConns t.sockCnt c ∧
      (ret = .success → ∃ fd, fd ∉ s.openFds ∧ fd ∈ t.openFds ∧
        t.sock c = { s.sock c with iSockfd := fd, isUsing := true }) := by
  unfold IslandSurvival.acceptClient at acc
  split at acc
  · obtain ⟨rfl, rfl⟩ := Prod.mk.inj acc
    exact ⟨Sockets.spare h spare _, spare, by simp⟩
  · rename_i fd got
    obtain ⟨hret, rfl⟩ := Prod.mk.inj acc
    refine ⟨Sockets.openFd (Sockets.spare h spare _) fd, spare, fun success => ?_⟩
    have nonBlock : env.setNonBlock (s.sys + 1) = true := by
      by_contra blocks
      simp only [Bool.not_eq_true] at blocks
      rw [blocks] at hret
      rw [← hret] at success
      cases success
    have new : fd ∉ s.openFds := by
      unfold kernelAccept at got
      split at got
      · cases got
      · split at got
        · rename_i free
          obtain rfl := Option.some.inj got
          exact free.2
        · cases got
    exact ⟨fd, new, by simp [Server.tickSys], by simp [Server.setSock, Server.tickSys, nonBlock]⟩

end

/-- An event of a connection changes its own wire. -/
theorem Wire.ofTrace_update (fd : Int) (e : Event) (older : List Event) {w : Wire}
    (own : Wire.ofTrace fd (e :: older) = w) (other : ∀ fd', fd' ≠ fd → Wire.ofTrace fd' (e :: older) = Wire.ofTrace fd' older) :
    (fun fd' => Wire.ofTrace fd' (e :: older)) = Function.update (fun fd' => Wire.ofTrace fd' older) fd w := by
  funext fd'
  by_cases same : fd' = fd
  · subst same
    rw [own, Function.update_self]
  · rw [other fd' same, Function.update_of_ne same]

section
variable {env : Env} {k l : List Frame} {s t : Server}

theorem dropConnection_pool {fd : Int} {c : SockPtr} (h : Pool s) (conn : s.connects[fd]? = some c) :
    Pool (dropConnection fd c s) := by
  obtain ⟨secFd, fdToSec, erased⟩ := Heartbeat.erase_eq fd s
  have served := Sockets.served h conn
  unfold dropConnection
  rw [erased]
  simp only [served.inUse, served.descriptor, if_true]
  exact Sockets.drop h conn _

theorem pool_step (move : Step env k s l t) (h : Pool s) : Pool t := by
  cases move with
  | @write _ _ fd c mess out conn len sent =>
    have now := (Sockets.served h conn).write len sent
    have wires := Wire.ofTrace_update fd (.write fd (CMessage.encode env.pb mess) out.taken out.status)
      s.trace (if_pos rfl) fun fd' other => if_neg (Ne.symm other)
    have after := Sockets.use h conn now
    simp only [← wires] at after
    exact after
  | drop _ conn => exact dropConnection_pool h conn
  | left =>
    rw [PersonManager.changePersonStatus_eq]
    exact h
  | @enter _ _ fd user _ _ _ _ _ _ _ person =>
    obtain ⟨_, _, _, trace, hs⟩ := @entered _ _ (loginArg fd user) _ _ person
    have same := @entered_trace _ _ (loginArg fd user) _ _ person
    rw [hs] at same ⊢
    rcases same with rfl | rfl
    · exact h
    · exact h
  | heartbeat _ old =>
    obtain ⟨_, _, rfl⟩ := Heartbeat.erased old
    exact h
  | create _ _ _ _ _ =>
    obtain ⟨_, _, _, _, _, _, _, hs⟩ := RoomManager.created_eq _ _ _ s
    rw [hs]
    exact h
  | join _ _ _ _ _ _ =>
    rw [RoomManager.joined_eq]
    exact h
  | gameEnd _ _ _ =>
    rw [PersonManager.changePersonStatus_eq]
    exact h
  | acceptFail sock acc fails =>
    obtain ⟨h₁, spare, -⟩ := h.getFree sock
    obtain ⟨h₂, spare, -⟩ := h₁.acceptClient spare acc
    exact Sockets.giveBack h₂ spare
  | acceptLost sock acc _ =>
    obtain ⟨h₁, spare, -⟩ := h.getFree sock
    exact (h₁.acceptClient spare acc).1
  | @accept _ c s' t nowsec sock acc _ =>
    obtain ⟨h₁, spare, old, init⟩ := h.getFree sock
    obtain ⟨h₂, spare, success⟩ := h₁.acceptClient spare acc
    obtain ⟨fd, -, opened, socket⟩ := success rfl
    rw [init] at socket
    have descriptor : (t.sock c).iSockfd = fd := by rw [socket]
    obtain ⟨_, _, _, hs⟩ := accepted_eq c nowsec t
    rw [hs, descriptor]
    have wires := Wire.ofTrace_update fd (.accept fd) t.trace (if_pos rfl)
      fun fd' other => if_neg (Ne.symm other)
    have after := Sockets.accept h₂ spare opened (socket ▸ Served.fresh old fd)
    simp only [← wires] at after
    exact after
  | @recv _ fd c out conn got =>
    have now := (Sockets.served h conn).recv got
    have wires := Wire.ofTrace_update fd (.recv fd out.received) s.trace (if_pos rfl)
      fun fd' other => if_neg (Ne.symm other)
    have after := Sockets.use h conn now
    simp only [← wires] at after
    exact after
  | @extract _ fd c data sock conn got =>
    have now := (Sockets.served h conn).extract got
    have wires := Wire.ofTrace_update fd (.extract fd data) s.trace (if_pos rfl)
      fun fd' other => if_neg (Ne.symm other)
    have after := Sockets.use h conn now
    simp only [← wires] at after
    exact after
  | everyone may => cases may <;> exact h
  | _ => exact h

theorem Config.pool (h : Config env k s) : Pool s := by
  induction h with
  | boot booted =>
    unfold Pool
    rw [booted.connects, booted.freeConns, booted.sockCnt]
    exact Sockets.empty
  | step _ move ih => exact pool_step move ih

end

/-! ### Separate streams -/

/-- Every connection has an object of its own, and the pool has every object once. -/
structure ObjectsSeparate (s : Server) : Prop where
  distinct : ∀ (fd fd' : Int) (c : SockPtr), s.connects[fd]? = some c → s.connects[fd']? = some c → fd = fd'
  outside : ∀ (fd : Int) (c : SockPtr), s.connects[fd]? = some c → c ∉ s.freeConns
  nodup : s.freeConns.Nodup

/-- What the connection of `fd` extracts and sends is its own, since it was accepted: the bytes extracted are the
    first that it received, the bytes sent or waiting were given to it, and what is parsed of the buffer that all
    connections share are the bytes extracted. -/
structure StreamsSeparate (env : Env) (fd : Int) (c : SockPtr) (s : Server) : Prop where
  received : (Wire.ofTrace fd s.trace).received = (Wire.ofTrace fd s.trace).extracted.flatten ++ (s.sock c).unread
  sent : ((Wire.ofTrace fd s.trace).taken ++ (s.sock c).pending).Sublist (Wire.ofTrace fd s.trace).offered
  parsed : ∀ data sock, (s.sock c).getOneMessage maxMessageLen = (.success, data, sock) →
    parseStrToMessage env.pb (Memory.write s.recvData 0 data) data.length =
      parseStrToMessage env.pb (Memory.write (fun _ => 0) 0 data) data.length

section
variable {env : Env} {k : List Frame} {s : Server}

/-- Between two steps of the main loop the objects are separate, and at every moment of a run the streams are. -/
theorem connections_separate : (∀ s, Reachable env s → ObjectsSeparate s) ∧
    ∀ k s, Config env k s → ∀ (fd : Int) (c : SockPtr), s.connects[fd]? = some c → StreamsSeparate env fd c s := by
  constructor
  · intro s reachable
    have pool : Pool s := reachable.config.pool
    exact ⟨fun _ _ _ conn conn' => Sockets.distinct pool conn conn',
      fun fd c conn free => (Sockets.pooled pool free).2 fd conn, Sockets.nodup pool⟩
  · intro k s config fd c conn
    have served := Sockets.served config.pool conn
    exact ⟨served.received, served.own, fun data _ _ => parse_residue data s.recvData⟩

/-- A connection that is open has been sent all its messages, up to those that are waiting, if and only if no `send`
    on it failed and its backlog had room for every message. -/
theorem nothing_skipped_iff (h : Reachable env s) {fd : Int} {c : SockPtr} (conn : s.connects[fd]? = some c) :
    (Wire.ofTrace fd s.trace).taken ++ (s.sock c).pending = (Wire.ofTrace fd s.trace).offered ↔
      (Wire.ofTrace fd s.trace).roomy = true :=
  (Sockets.served h.config.pool conn).whole.symm

end

/-- Player 1 has logged in. -/
theorem Script.connected : ∃ s c, Reachable (oneClient (request 0)) s ∧ s.connects[(4 : Int)]? = some c := by
  obtain ⟨s, reachable, connected⟩ := exists_of_ends 2 (fun s => s.connects[(4 : Int)]?.isSome)
    (reachable (oneClient (request 0))) (by decide +kernel)
  obtain ⟨c, conn⟩ := Option.isSome_iff_exists.mp connected
  exact ⟨s, c, reachable, conn⟩

theorem connections_separate_login : ∃ s c, Reachable (Script.oneClient (Script.request 0)) s ∧
    ObjectsSeparate s ∧ StreamsSeparate (Script.oneClient (Script.request 0)) 4 c s := by
  obtain ⟨s, c, reachable, conn⟩ := Script.connected
  exact ⟨s, c, reachable, connections_separate.1 s reachable, connections_separate.2 [] s reachable.config 4 c conn⟩

/-- The reply to a login is not skipped. -/
theorem nothing_skipped_login : ∃ s c, Reachable (Script.oneClient (Script.request 0)) s ∧
    s.connects[(4 : Int)]? = some c ∧
    (Wire.ofTrace 4 s.trace).taken ++ (s.sock c).pending = (Wire.ofTrace 4 s.trace).offered := by
  obtain ⟨s, reachable, test⟩ := exists_of_ends 2
    (fun s => s.connects[(4 : Int)]?.isSome && (Wire.ofTrace 4 s.trace).roomy)
    (Script.reachable (Script.oneClient (Script.request 0))) (by decide +kernel)
  rw [Bool.and_eq_true] at test
  obtain ⟨c, conn⟩ := Option.isSome_iff_exists.mp test.1
  exact ⟨s, c, reachable, conn, (nothing_skipped_iff reachable conn).mpr test.2⟩

/-- A runtime for which the details of a room are the name of its only player, 4000 letters. -/
def Script.namePb : Protobuf where
  serializeToString
    | .scPullOneRoomDetail _ => List.replicate 4000 97
    | _ => []
  parseFromString
    | .csLogin, _ => (.csLogin (List.replicate 4000 97) [97], true)
    | type, code => Script.pb.parseFromString type code
  parse_type type code := by
    split
    · rfl
    · exact Script.pb.parse_type _ _

/-- Player 1 creates a room and changes its team again and again, but does not read what the server sends. -/
def Script.stalled : Env :=
  { oneClient (request 0 ++ request 9 ++ (List.replicate 49 (request 6)).flatten) with
    pb := namePb
    send := fun _ => .again }

/-- The 49th details of the room are skipped, and the player stays connected. -/
theorem details_skipped : ∃ s c, Reachable Script.stalled s ∧ s.connects[(4 : Int)]? = some c ∧
    s.fdToUserId[(4 : Int)]? = some 1 ∧
    (Wire.ofTrace 4 s.trace).taken ++ (s.sock c).pending ≠ (Wire.ofTrace 4 s.trace).offered := by
  obtain ⟨s, reachable, test⟩ := exists_of_ends 2
    (fun s => s.connects[(4 : Int)]?.isSome && s.fdToUserId[(4 : Int)]? == some 1 && !(Wire.ofTrace 4 s.trace).smooth)
    (Script.reachable Script.stalled) (by decide +kernel)
  simp only [Bool.and_eq_true, beq_iff_eq, Bool.not_eq_true'] at test
  obtain ⟨⟨connected, user⟩, skipped⟩ := test
  obtain ⟨c, conn⟩ := Option.isSome_iff_exists.mp connected
  have served := Sockets.served reachable.config.pool conn
  refine ⟨s, c, reachable, conn, user, fun same => ?_⟩
  have roomy := served.whole.mpr same
  rw [← served.smooth, skipped] at roomy
  cases roomy

end IslandSurvival

import IslandSurvival.Theorems.Faults
import IslandSurvival.Theorems.Sockets

/-! How deep deletions nest. A deletion erases its connection before it sends anything, and only a failed write on a
    connection that is still there sets off the next one. -/

namespace IslandSurvival

open Prog

/-! ### Connections that are closed -/

/-- The descriptors that are closed, the last one first -/
def closes : List Event → List Int
  | [] => []
  | .close fd :: older => fd :: closes older
  | _ :: older => closes older

/-- From `s` to `t` the connections of `closed` are deleted, and nothing else happens to the connections. -/
structure ShrinksBy (closed : List Int) (s t : Server) : Prop where
  closes : closes t.trace = closed ++ closes s.trace
  nodup : closed.Nodup
  connected : ∀ fd ∈ closed, fd ∈ s.connects
  connects : ∀ fd : Int, t.connects[fd]? = if fd ∈ closed then none else s.connects[fd]?
  size : t.connects.size + closed.length = s.connects.size

/-- From `s` to `t` connections are deleted, each of them once. -/
def Shrinks (s t : Server) : Prop := ∃ closed, ShrinksBy closed s t

namespace Shrinks

variable {s t u : Server}

theorem keeps (connects : t.connects = s.connects) (trace : closes t.trace = closes s.trace) : Shrinks s t :=
  ⟨[], trace, List.nodup_nil, nofun, fun fd => by simp [connects], by simp [connects]⟩

theorem refl (s : Server) : Shrinks s s := keeps rfl rfl

theorem trans (h : Shrinks s t) (h' : Shrinks t u) : Shrinks s u := by
  obtain ⟨closed, h⟩ := h
  obtain ⟨closed', h'⟩ := h'
  have apart : ∀ fd ∈ closed', fd ∉ closed := by
    intro fd mem gone
    have there := h'.connected fd mem
    have none := h.connects fd
    rw [if_pos gone] at none
    exact Map.notMem_of_getElem? none there
  refine ⟨closed' ++ closed, ?_, ?_, fun fd mem => ?_, fun fd => ?_, ?_⟩
  · rw [h'.closes, h.closes, List.append_assoc]
  · exact List.nodup_append.mpr ⟨h'.nodup, h.nodup, fun fd mem fd' mem' same => apart fd mem (same ▸ mem')⟩
  · rcases List.mem_append.mp mem with mem | mem
    · have there := h'.connected fd mem
      rw [Map.mem_iff] at there ⊢
      obtain ⟨c, conn⟩ := there
      rw [h.connects, if_neg (apart fd mem)] at conn
      exact ⟨c, conn⟩
    · exact h.connected fd mem
  · rw [h'.connects, h.connects]
    simp only [List.mem_append]
    split <;> simp_all
  · rw [List.length_append, ← h.size, ← h'.size]
    omega

theorem size_le (h : Shrinks s t) : t.connects.size ≤ s.connects.size := by
  obtain ⟨closed, h⟩ := h
  have := h.size
  omega

end Shrinks

variable {s t : Server}

/-- A connected descriptor is counted. -/
theorem Map.size_pos {α : Type} {m : Map α} {a : Int} (mem : a ∈ m) : 0 < m.size := by
  rw [Nat.pos_iff_ne_zero]
  intro zero
  exact Std.ExtTreeMap.eq_empty_iff_forall_not_mem.mp (Std.ExtTreeMap.eq_empty_iff_size_eq_zero.mpr zero) a mem

theorem Map.size_erase {α : Type} {m : Map α} {a : Int} (mem : a ∈ m) : (m.erase a).size + 1 = m.size := by
  have pos := Map.size_pos mem
  rw [Std.ExtTreeMap.size_erase, if_pos (Std.ExtTreeMap.contains_iff_mem.mpr mem)]
  omega

theorem Shrinks.drop {fd : Int} {c : SockPtr} (conn : s.connects[fd]? = some c) : Shrinks s (dropConnection fd c s) := by
  obtain ⟨_, _, _, _, _, hs⟩ := dropConnection_eq fd c s
  have mem : fd ∈ s.connects := Map.mem_of_getElem? conn
  rw [hs]
  refine ⟨[fd], rfl, by simp, by simp [mem], fun fd' => ?_, Map.size_erase mem⟩
  simp only [Map.getElem?_erase, List.mem_singleton, eq_comm]

/-! ### Failed writes -/

/-- The descriptors on which `SendMessageToClient` saw a failed write, the last one first -/
def failures : List Event → List Int
  | [] => []
  | .writeError _ fd :: older => fd :: failures older
  | _ :: older => failures older

/-- From `s` to `t` connections are deleted, and those on which a write failed are among them. -/
structure Falls (s t : Server) : Prop where
  shrinks : Shrinks s t
  failed : ∃ failed, failures t.trace = failed ++ failures s.trace ∧ ∀ fd ∈ failed, fd ∉ t.connects

theorem Shrinks.absent {fd : Int} (h : Shrinks s t) (absent : fd ∉ s.connects) : fd ∉ t.connects := by
  obtain ⟨closed, h⟩ := h
  intro mem
  obtain ⟨c, conn⟩ := Map.mem_iff.mp mem
  rw [h.connects] at conn
  split at conn
  · cases conn
  · exact absent (Map.mem_of_getElem? conn)

namespace Falls

variable {u : Server} {fd : Int}

theorem keeps (connects : t.connects = s.connects) (trace : closes t.trace = closes s.trace)
    (failed : failures t.trace = failures s.trace) : Falls s t :=
  ⟨.keeps connects trace, [], failed, nofun⟩

theorem refl (s : Server) : Falls s s := keeps rfl rfl rfl

theorem trans (h : Falls s t) (h' : Falls t u) : Falls s u := by
  obtain ⟨failed, trace, gone⟩ := h.failed
  obtain ⟨failed', trace', gone'⟩ := h'.failed
  refine ⟨h.shrinks.trans h'.shrinks, failed' ++ failed, by rw [trace', trace, List.append_assoc], fun fd mem => ?_⟩
  rcases List.mem_append.mp mem with mem | mem
  · exact gone' fd mem
  · exact h'.shrinks.absent (gone fd mem)

theorem drop {c : SockPtr} (conn : s.connects[fd]? = some c) : Falls s (dropConnection fd c s) := by
  refine ⟨.drop conn, [], ?_, nofun⟩
  obtain ⟨_, _, _, _, _, hs⟩ := dropConnection_eq fd c s
  rw [hs]
  rfl

/-- A failed write that is followed by the deletion of its connection -/
theorem kick {userId : Int} (h : Falls (s.log (.writeError userId fd)) t) (gone : fd ∉ t.connects) : Falls s t := by
  obtain ⟨closed, shrinks⟩ := h.shrinks
  obtain ⟨failed, trace, absent⟩ := h.failed
  refine ⟨⟨closed, shrinks.closes, shrinks.nodup, shrinks.connected, shrinks.connects, shrinks.size⟩,
    failed ++ [fd], ?_, fun fd' mem => ?_⟩
  · rw [trace, List.append_assoc]
    rfl
  · rcases List.mem_append.mp mem with mem | here
    · exact absent fd' mem
    · obtain rfl := List.mem_singleton.mp here
      exact gone

end Falls

/-! ### Nested deletions -/

/-- `DeleteClientByFD` that can be active at most `n` times at once -/
def deleteNested (env : Env) : Nat → Int → M Unit
  | 0, _ => throw .fuel
  | n + 1, fd => deleteClientStep env (deleteNested env n) fd

/-- While at most `n` clients are connected, `c` and `c'` do the same, and do not run out of fuel. -/
def Within {α : Type} (n : Nat) (c c' : M α) : Prop :=
  ∀ s, s.connects.size ≤ n → Alike (· ≠ .fuel) Falls c c' s

/-- `del` and `del'` delete a client in the same way, when at most `n` are connected. -/
def Deleters (n : Nat) (del del' : Int → M Unit) : Prop :=
  ∀ fd s, fd ∈ s.connects → s.connects.size ≤ n →
    Alike (· ≠ .fuel) (fun s t => Falls s t ∧ fd ∉ t.connects) (del fd) (del' fd) s

namespace Within

variable {α β : Type} {n : Nat} {c c' : M α}

theorem of (h : ∀ s, wp c (fun _ t => Falls s t) (fun e t => e ≠ .fuel ∧ Falls s t) s) : Within n c c :=
  fun s _ => .of (h s)

theorem pure {a : α} : Within n (pure a : M α) (pure a) := .of Falls.refl

theorem get : Within n (get : M Server) get := .of Falls.refl

theorem throw {e : Fault} (other : e ≠ .fuel) : Within n (throw e : M α) (throw e) := .of fun s => ⟨other, .refl s⟩

theorem bind {f f' : α → M β} (hc : Within n c c') (hf : ∀ a, Within n (f a) (f' a)) : Within n (c >>= f) (c' >>= f') :=
  fun s size => .bind .trans (hc s size) fun a t falls => hf a t (Nat.le_trans falls.shrinks.size_le size)

theorem discard (hc : Within n c c') : Within n (discard c) (discard c') :=
  fun s size => .discard .trans .refl (hc s size)

theorem ite {b : Prop} [Decidable b] {d d' : M α} (hc : Within n c c') (hd : Within n d d') :
    Within n (if b then c else d) (if b then c' else d') := by
  split
  · exact hc
  · exact hd

/-- An update that leaves the connections alone -/
theorem modify {f : Server → Server} (connects : ∀ s, (f s).connects = s.connects)
    (trace : ∀ s, closes (f s).trace = closes s.trace) (failed : ∀ s, failures (f s).trace = failures s.trace) :
    Within n (modify f) (modify f) :=
  .of fun s => .keeps (connects s) (trace s) (failed s)

theorem getRoom {p : RoomPtr} : Within n (getRoom p) (getRoom p) := .of Falls.refl

theorem modifyRoom {p : RoomPtr} {f : Room → Room} : Within n (modifyRoom p f) (modifyRoom p f) :=
  .modify (fun _ => rfl) (fun _ => rfl) fun _ => rfl

theorem now {env : Env} : Within n (getNowTimeUs env) (getNowTimeUs env) := .of fun _ => .keeps rfl rfl rfl

theorem guarded {x : Except Fault α} (h : ∀ e, x = .error e → e ≠ .fuel) : Within n (guarded x) (guarded x) :=
  .of fun s => wp_guarded (fun _ _ => .refl s) fun e failed => ⟨h e failed, .refl s⟩

end Within

/-! ### Computations that do not run out of fuel -/

namespace TcpSocket

variable {kernel : Nat → SendAnswer} {data : Bytes}

theorem sendRest_returns : ∀ {fuel calls : Nat} {taken data : Bytes} {sock : TcpSocket}, data.length < fuel →
    ∃ out, sendRest kernel fuel calls taken data sock = .ok out
  | 0, _, _, _, _, enough => absurd enough (Nat.not_lt_zero _)
  | fuel + 1, calls, taken, data, sock, enough => by
    unfold sendRest
    split
    · exact ⟨_, rfl⟩
    · rename_i some
      have pos : 0 < data.length := List.length_pos_iff.mpr some
      cases kernel calls with
      | take count =>
        obtain ⟨pos, -⟩ := @clamp_le count _ pos
        exact sendRest_returns (by rw [List.length_drop]; omega)
      | error => exact ⟨_, rfl⟩
      | again =>
        simp only
        split
        · exact ⟨_, rfl⟩
        · exact ⟨_, rfl⟩

theorem sendLoop_returns : ∀ {fuel calls : Nat} {taken : Bytes} {sock : TcpSocket}, sock.sendTail - sock.sendHead < fuel →
    ∃ out, sendLoop kernel data fuel calls taken sock = .ok out
  | 0, _, _, _, enough => absurd enough (Nat.not_lt_zero _)
  | fuel + 1, calls, taken, sock, enough => by
    unfold sendLoop
    split
    · rename_i backlog
      cases kernel calls with
      | take count =>
        obtain ⟨pos, -⟩ := @clamp_le count _ backlog
        exact sendLoop_returns (by simp only; omega)
      | error => exact ⟨_, rfl⟩
      | again =>
        simp only
        split
        · exact ⟨_, rfl⟩
        · exact ⟨_, rfl⟩
    · split
      · exact sendRest_returns (Nat.lt_succ_self _)
      · exact ⟨_, rfl⟩

/-- `SendData` of any socket returns. -/
theorem sendData_returns (sock : TcpSocket) : ∃ out, sock.sendData kernel data = .ok out := by
  unfold sendData
  split
  · exact ⟨_, rfl⟩
  · split
    · exact ⟨_, rfl⟩
    · exact sendLoop_returns (Nat.lt_succ_self _)

end TcpSocket

theorem Except.bind_ne_fuel {α β : Type} {x : Except Fault α} {f : α → Except Fault β}
    (hx : ∀ e, x = .error e → e ≠ .fuel) (hf : ∀ a e, f a = .error e → e ≠ .fuel) :
    ∀ e, x >>= f = .error e → e ≠ .fuel := by
  intro e failed
  cases x with
  | ok a => exact hf a e failed
  | error e' =>
    obtain rfl : e' = e := Except.error.inj failed
    exact hx _ rfl

theorem checked_ne_fuel {a : Int} {e : Fault} (failed : checked a = .error e) : e ≠ .fuel := by
  unfold checked at failed
  split at failed <;> cases failed
  simp

namespace Syn

theorem slot_ne_fuel {i : Int} {e : Fault} (failed : slot i = .error e) : e ≠ .fuel := by
  unfold slot at failed
  split at failed <;> cases failed
  simp

theorem slotFor_ne_fuel (messframe : Int) (syn : Syn) : ∀ e, syn.slotFor messframe = .error e → e ≠ .fuel := by
  unfold slotFor
  refine Except.bind_ne_fuel (fun _ => checked_ne_fuel) fun _ => ?_
  split
  · exact nofun
  · refine Except.bind_ne_fuel (fun _ => checked_ne_fuel) fun _ => ?_
    split
    · refine Except.bind_ne_fuel (fun _ => checked_ne_fuel) fun _ => ?_
      refine Except.bind_ne_fuel (fun _ => checked_ne_fuel) fun _ => ?_
      exact Except.bind_ne_fuel (fun _ => slot_ne_fuel) fun _ => nofun
    · refine Except.bind_ne_fuel (fun _ => checked_ne_fuel) fun _ => ?_
      split
      · exact Except.bind_ne_fuel (fun _ => slot_ne_fuel) fun _ => nofun
      · exact nofun

theorem add_ne_fuel (now : Int) (mess : CMessage) (syn : Syn) : ∀ e, syn.add now mess = .error e → e ≠ .fuel := by
  unfold add
  refine Except.bind_ne_fuel (slotFor_ne_fuel _ _) fun slot => ?_
  cases slot with
  | none => exact nofun
  | some _ => exact nofun

end Syn

/-! ### The circle -/

section
variable {env : Env} {n : Nat} {del del' : Int → M Unit}

/-- A write error comes from a connection that is there. -/
theorem sendMessageByConnfd_live (fd : Int) (mess : CMessage) (s : Server) :
    wp (sendMessageByConnfd env fd mess) (fun ret t => Falls s t ∧ (ret = .status .error → fd ∈ t.connects))
      (fun e t => e ≠ .fuel ∧ Falls s t) s := by
  simp only [sendMessageByConnfd, wp_bind, wp_get]
  cases conn : s.connects[fd]? with
  | none => exact ⟨.refl s, by simp⟩
  | some c =>
    simp only
    split
    · exact ⟨by simp, .keeps rfl rfl rfl⟩
    · obtain ⟨out, sent⟩ : ∃ out, (s.sock c).sendData (fun n => env.send (s.sys + n)) (mess.encode env.pb) = .ok out :=
        TcpSocket.sendData_returns (s.sock c)
      rw [sent]
      exact ⟨.keeps rfl rfl rfl, fun _ => Map.mem_of_getElem? conn⟩

theorem sendMessageToClient_within (hd : Deleters n del del') (userId : Int) (mess : CMessage) :
    Within n (sendMessageToClient env del userId mess) (sendMessageToClient env del' userId mess) := by
  refine .bind (.modify (fun _ => rfl) (fun _ => rfl) fun _ => rfl) fun _ => .bind .get fun s => ?_
  cases s.userIdToFd[userId]? with
  | none => exact .pure
  | some fd =>
    intro s size
    have live := @sendMessageByConnfd_live env fd mess s
    refine .bind_of .trans (.of (wp_mono live (fun _ _ h => h.1) fun _ _ => id))
      (wp_mono live (fun _ _ h => h.2) fun _ _ _ => trivial) fun ret t falls connected => ?_
    have size' := Nat.le_trans falls.shrinks.size_le size
    split
    · rename_i failed
      have conn := connected failed
      -- only with the deletion that follows it, the failed write is accounted for
      have deleted := hd fd (t.log (.writeError userId fd)) conn size'
      have all : Alike (· ≠ .fuel) (fun s t => Falls s t ∧ fd ∉ t.connects) (del fd >>= fun _ => pure ret)
          (del' fd >>= fun _ => pure ret) (t.log (.writeError userId fd)) :=
        .bind (fun h h' => ⟨h.1.trans h'.1, h'.2⟩) deleted fun _ v after => .of ⟨.refl v, after.2⟩
      refine Alike.of_later ?_ ?_ ?_ all
      · exact fun v after => Falls.kick after.1 after.2
      · rfl
      · rfl
    · exact .of (Falls.refl t)

namespace Room

theorem deliver_within (hd : Deleters n del del') (p : RoomPtr) (mess : CMessage) (i : Nat) :
    Within n (deliver env del p mess i) (deliver env del' p mess i) :=
  .bind .getRoom fun _ => .ite
    (.bind (.modify (fun _ => rfl) (fun _ => rfl) fun _ => rfl) fun _ => .discard (sendMessageToClient_within hd _ _)) .pure

theorem forSlots_within {p : RoomPtr} {body body' : Nat → M Unit} (h : ∀ i, Within n (body i) (body' i)) :
    ∀ fuel i, Within n (forSlots p body fuel i) (forSlots p body' fuel i)
  | 0, _ => .bind .getRoom fun _ => .ite (.throw (by simp)) .pure
  | fuel + 1, i => .bind .getRoom fun _ => .ite (.bind (h i) fun _ => forSlots_within h fuel (i + 1)) .pure

theorem sendMessageToEveryone_within (hd : Deleters n del del') (p : RoomPtr) (mess : CMessage) :
    Within n (sendMessageToEveryone env del p mess) (sendMessageToEveryone env del' p mess) :=
  .bind (.modify (fun _ => rfl) (fun _ => rfl) fun _ => rfl) fun _ => forSlots_within (deliver_within hd p mess) _ _

theorem sendGameStart_within (hd : Deleters n del del') (p : RoomPtr) :
    Within n (sendGameStart env del p) (sendGameStart env del' p) :=
  .bind .getRoom fun _ => .ite .pure <| .bind (sendMessageToEveryone_within hd _ _) fun _ =>
    .bind .now fun _ => .bind .now fun _ => .modify (fun _ => rfl) (fun _ => rfl) fun _ => rfl

end Room

theorem Syn.getNowFrame_within (p : RoomPtr) : Within n (getNowFrame env p) (getNowFrame env p) :=
  .bind .getRoom fun _ => .bind (.modify (fun _ => rfl) (fun _ => rfl) fun _ => rfl) fun _ => .bind .now fun _ =>
    .bind .modifyRoom fun _ => .bind .getRoom fun _ => .pure

theorem Syn.addTo_within (p : RoomPtr) (mess : CMessage) : Within n (addTo env p mess) (addTo env p mess) :=
  .bind .getRoom fun _ => .bind (.modify (fun _ => rfl) (fun _ => rfl) fun _ => rfl) fun _ => .bind .now fun _ => .bind .getRoom fun _ =>
    .bind (.guarded (add_ne_fuel _ _ _)) fun _ => .modify (fun _ => rfl) (fun _ => rfl) fun _ => rfl

theorem Room.deletePlayer_within (hd : Deleters n del del') (p : RoomPtr) (userId : Int) :
    Within n (deletePlayer env del p userId) (deletePlayer env del' p userId) := by
  refine .bind .getRoom fun r => .ite .pure ?_
  cases r.status with
  | waiting =>
    refine .bind (.modify (fun _ => rfl) (fun _ => rfl) fun _ => rfl) fun _ => .bind .get fun _ => ?_
    refine .bind (sendMessageToEveryone_within hd _ _) fun _ => .bind ?_ fun _ => .pure
    refine .modify (fun s => ?_) (fun s => ?_) fun s => ?_
    all_goals rw [PersonManager.changePersonStatus_eq]
  | loading =>
    refine .bind (.modify (fun _ => rfl) (fun _ => rfl) fun _ => rfl) fun _ => .bind (sendMessageToEveryone_within hd _ _) fun _ => ?_
    refine .bind .getRoom fun _ => .ite (.bind .modifyRoom fun _ => .pure) ?_
    refine .bind (.modify (fun _ => rfl) (fun _ => rfl) fun _ => rfl) fun _ => .ite ?_ .pure
    exact .bind (sendGameStart_within hd p) fun _ => .pure
  | ingame =>
    refine .bind (.modify (fun _ => rfl) (fun _ => rfl) fun _ => rfl) fun _ => .bind (Syn.getNowFrame_within p) fun _ => ?_
    exact .bind (Syn.addTo_within p _) fun _ => .pure

theorem RoomManager.deletePlayerFromRoom_within (hd : Deleters n del del') (userId : Int) :
    Within n (deletePlayerFromRoom env del userId) (deletePlayerFromRoom env del' userId) := by
  refine .bind .get fun s => ?_
  cases s.belongRoom[userId]? with
  | none => exact .pure
  | some p => exact .bind (.modify (fun _ => rfl) (fun _ => rfl) fun _ => rfl) fun _ => Room.deletePlayer_within hd p userId

theorem PersonManager.personLogout_within (hd : Deleters n del del') (userId : Int) :
    Within n (personLogout env del userId) (personLogout env del' userId) := by
  refine .bind .get fun s => ?_
  cases s.persons[userId]? with
  | none => exact .pure
  | some person =>
    have erased : Within n (modify fun s => { s with persons := s.persons.erase userId } : M Unit) (modify _) :=
      .modify (fun _ => rfl) (fun _ => rfl) fun _ => rfl
    simp only
    cases person.status with
    | inHall => exact .bind erased fun _ => .pure
    | inRoom =>
      exact .bind (.discard (RoomManager.deletePlayerFromRoom_within hd _)) fun _ => .bind erased fun _ => .pure

theorem playerLogout_within (hd : Deleters n del del') (userId : Int) :
    Within n (playerLogout env del userId) (playerLogout env del' userId) := by
  refine .bind .get fun s => ?_
  cases s.userIdToFd[userId]? with
  | none => exact .pure
  | some fd =>
    refine .bind (.modify (fun _ => rfl) (fun _ => rfl) fun _ => rfl) fun _ => ?_
    refine .bind (.discard (PersonManager.personLogout_within hd _)) fun _ => ?_
    exact .modify (fun _ => rfl) (fun _ => rfl) fun _ => rfl

theorem deleteClientStep_absent {fd : Int} {s : Server} (conn : s.connects[fd]? = none) :
    deleteClientStep env del fd s = .ok () s := by
  unfold deleteClientStep
  rw [get_bind, conn]
  rfl

theorem deleteClientStep_connected {fd : Int} {c : SockPtr} {s : Server} (conn : s.connects[fd]? = some c) :
    deleteClientStep env del fd s =
      (match (dropConnection fd c s).fdToUserId[fd]? with
        | none => Pure.pure ()
        | some userId => playerLogout env del userId : M Unit) (dropConnection fd c s) := by
  unfold deleteClientStep
  rw [get_bind, conn]
  rfl

/-- A deletion erases its connection, so that one less is left for the nested ones. -/
theorem deleteClientStep_deleters (hd : Deleters n del del') :
    Deleters (n + 1) (deleteClientStep env del) (deleteClientStep env del') := by
  intro fd s mem size
  obtain ⟨c, conn⟩ := Map.mem_iff.mp mem
  obtain ⟨_, _, _, _, _, hs⟩ := dropConnection_eq fd c s
  have fewer : (dropConnection fd c s).connects.size ≤ n := by
    have erased := Map.size_erase mem
    rw [hs]
    simp only
    omega
  have gone : fd ∉ (dropConnection fd c s).connects := by
    rw [hs]
    simp
  have after : ∀ t, Falls (dropConnection fd c s) t → Falls s t ∧ fd ∉ t.connects :=
    fun t falls => ⟨(Falls.drop conn).trans falls, falls.shrinks.absent gone⟩
  refine .of_later after (deleteClientStep_connected conn) (deleteClientStep_connected conn) ?_
  cases (dropConnection fd c s).fdToUserId[fd]? with
  | none => exact .of (Falls.refl _)
  | some userId => exact playerLogout_within hd userId _ fewer

/-- With at most `n` clients, more than `n` nested deletions make no difference. -/
theorem deleteNested_deleters : ∀ {n m : Nat}, n ≤ m → Deleters n (deleteNested env n) (deleteNested env m)
  | 0, _, _, fd, s, conn, size => by
    have := Map.size_pos conn
    omega
  | n + 1, m + 1, le, fd, s, conn, size =>
    deleteClientStep_deleters (deleteNested_deleters (Nat.le_of_succ_le_succ le)) fd s conn size

theorem deleteClientFuel_eq : ∀ fuel, deleteClientFuel env fuel = deleteNested env (fuel + 1)
  | 0 => rfl
  | fuel + 1 => by
    funext fd
    rw [deleteClientFuel, deleteNested, deleteClientFuel_eq fuel]

theorem deleteClientByFd_eq (fd : Int) (s : Server) :
    deleteClientByFd env fd s = deleteNested env (s.connects.size + 1) fd s := by
  rw [← deleteClientFuel_eq]
  rfl

theorem deleteClientByFd_deleters (n : Nat) : Deleters n (deleteClientByFd env) (deleteNested env n) := by
  intro fd s conn size
  have few := @deleteNested_deleters env _ _ size fd s conn (Nat.le_refl _)
  have more := @deleteNested_deleters env _ _ (Nat.le_succ s.connects.size) fd s conn (Nat.le_refl _)
  exact .of_later (fun _ => id) ((deleteClientByFd_eq fd s).trans more.1.symm) rfl few

/-- A client is deleted for good, whatever else is. -/
theorem deleteClientByFd_falls {fd : Int} {s : Server} (conn : fd ∈ s.connects) :
    wp (deleteClientByFd env fd) (fun _ t => Falls s t ∧ fd ∉ t.connects)
      (fun e t => e ≠ .fuel ∧ Falls s t ∧ fd ∉ t.connects) s :=
  (deleteClientByFd_deleters s.connects.size fd s conn (Nat.le_refl _)).2

/-- The functions that call each other in a circle, as functions of the `DeleteClientByFD` that they call -/
inductive Circle (env : Env) (s : Server) : ∀ {α : Type}, ((Int → M Unit) → M α) → Prop
  | everyone (p : RoomPtr) (mess : CMessage) : Circle env s fun del => Room.sendMessageToEveryone env del p mess
  | client (userId : Int) (mess : CMessage) : Circle env s fun del => sendMessageToClient env del userId mess
  | delete {fd : Int} (conn : fd ∈ s.connects) : Circle env s fun del => del fd
  | logout (userId : Int) : Circle env s fun del => playerLogout env del userId
  | personLogout (userId : Int) : Circle env s fun del => PersonManager.personLogout env del userId
  | fromRoom (userId : Int) : Circle env s fun del => RoomManager.deletePlayerFromRoom env del userId
  | player (p : RoomPtr) (userId : Int) : Circle env s fun del => Room.deletePlayer env del p userId
  | start (p : RoomPtr) : Circle env s fun del => Room.sendGameStart env del p

theorem Circle.alike {s : Server} {α : Type} {c : (Int → M Unit) → M α} (circle : Circle env s c) :
    Alike (· ≠ .fuel) Falls (c (deleteClientByFd env)) (c (deleteNested env s.connects.size)) s := by
  have hd := @deleteClientByFd_deleters env s.connects.size
  cases circle with
  | everyone p mess => exact Room.sendMessageToEveryone_within hd p mess s (Nat.le_refl _)
  | client userId mess => exact sendMessageToClient_within hd userId mess s (Nat.le_refl _)
  | delete conn => exact (hd _ s conn (Nat.le_refl _)).mono fun _ after => after.1
  | logout userId => exact playerLogout_within hd userId s (Nat.le_refl _)
  | personLogout userId => exact PersonManager.personLogout_within hd userId s (Nat.le_refl _)
  | fromRoom userId => exact RoomManager.deletePlayerFromRoom_within hd userId s (Nat.le_refl _)
  | player p userId => exact Room.deletePlayer_within hd p userId s (Nat.le_refl _)
  | start p => exact Room.sendGameStart_within hd p s (Nat.le_refl _)

/-- In every state, a function of the circle returns, or stops for a reason other than its fuel; deletions nest at
    most as deep as there are connections, and no connection is deleted twice. -/
theorem deletions_bounded (env : Env) (s : Server) :
    (∀ {α : Type} {c : (Int → M Unit) → M α}, Circle env s c →
      c (deleteClientByFd env) s = c (deleteNested env s.connects.size) s ∧
      wp (c (deleteClientByFd env)) (fun _ t => Shrinks s t) (fun e t => e ≠ .fuel ∧ Shrinks s t) s) ∧
    ∀ fd : Int, fd ∉ s.connects → deleteClientByFd env fd s = .ok () s := by
  refine ⟨fun circle => circle.alike.mono fun _ falls => falls.shrinks, fun fd absent => ?_⟩
  rw [deleteClientByFd_eq]
  exact deleteClientStep_absent (Option.not_isSome_iff_eq_none.mp (mt Std.ExtTreeMap.isSome_getElem?_iff_mem.mp absent))

end

/-- The only client is deleted without a nested deletion. -/
theorem deletions_bounded_login : ∃ s, Reachable (Script.oneClient (Script.request 0)) s ∧ (4 : Int) ∈ s.connects ∧
    deleteClientByFd (Script.oneClient (Script.request 0)) 4 s =
      deleteNested (Script.oneClient (Script.request 0)) s.connects.size 4 s := by
  obtain ⟨s, c, reachable, conn⟩ := Script.connected
  have mem : (4 : Int) ∈ s.connects := Map.mem_of_getElem? conn
  exact ⟨s, reachable, mem, ((deletions_bounded _ s).1 (.delete mem)).1⟩

end IslandSurvival

import IslandSurvival.Theorems.Stable

/-! The faults that the functions raise. Whatever the state, what a failed write sets off raises no fault but an
    index or a number that is out of its bounds. -/

namespace IslandSurvival

open Prog

/-- The faults of arithmetic, and of fuel that ran out -/
def Fault.Numeric (e : Fault) : Prop := e ∈ [.outOfBounds, .signedOverflow, .fuel]

/-- A computation of the ring or of a socket raises numeric faults only. -/
def Numeric {α : Type} (x : Except Fault α) : Prop := ∀ e, x = .error e → e.Numeric

/-! ### Computations -/

section
variable {α β : Type} {x : Except Fault α} {f : α → Except Fault β} {e : Fault}

theorem Numeric.ok {a : α} : Numeric (.ok a) := by
  intro e h
  cases h

theorem Numeric.error (h : e.Numeric) : Numeric (.error e : Except Fault α) := by
  intro e' h'
  cases h'
  exact h

theorem Numeric.bind (hx : Numeric x) (hf : ∀ a, Numeric (f a)) : Numeric (x >>= f) := by
  intro e he
  cases x with
  | ok a => exact hf a e he
  | error e' =>
    cases he
    exact hx _ rfl

theorem Fault.outOfBounds_numeric : Fault.outOfBounds.Numeric := by simp [Fault.Numeric]

theorem Fault.fuel_numeric : Fault.fuel.Numeric := by simp [Fault.Numeric]

theorem checked_numeric (a : Int) : Numeric (checked a) := by
  unfold checked
  split
  · exact .ok
  · exact .error (by simp [Fault.Numeric])

theorem add32_numeric (a b : Int) : Numeric (add32 a b) := checked_numeric _

theorem sub32_numeric (a b : Int) : Numeric (sub32 a b) := checked_numeric _

end

namespace Syn

theorem slot_numeric (i : Int) : Numeric (slot i) := by
  unfold slot
  split
  · exact .ok
  · exact .error Fault.outOfBounds_numeric

theorem slotFor_numeric (messframe : Int) (syn : Syn) : Numeric (syn.slotFor messframe) := by
  unfold slotFor
  refine (add32_numeric _ _).bind fun _ => ?_
  split
  · exact .ok
  · refine (add32_numeric _ _).bind fun _ => ?_
    split
    · refine (sub32_numeric _ _).bind fun _ => (add32_numeric _ _).bind fun _ => ?_
      exact (slot_numeric _).bind fun _ => .ok
    · refine (add32_numeric _ _).bind fun _ => ?_
      split
      · exact (slot_numeric _).bind fun _ => .ok
      · exact .ok

theorem add_numeric (now : Int) (mess : CMessage) (syn : Syn) : Numeric (syn.add now mess) := by
  unfold add
  refine (slotFor_numeric _ _).bind fun slot => ?_
  cases slot with
  | none => exact .ok
  | some _ => exact .ok

theorem advance_numeric (syn : Syn) : Numeric syn.advance :=
  (add32_numeric _ _).bind fun _ => (add32_numeric _ _).bind fun _ => .ok

theorem due_numeric (syn : Syn) : Numeric syn.due :=
  (add32_numeric _ _).bind fun _ => (add32_numeric _ _).bind fun _ => .ok

end Syn

namespace TcpSocket

variable {kernel : Nat → SendAnswer}

theorem sendRest_numeric : ∀ (fuel calls : Nat) (taken data : Bytes) (sock : TcpSocket),
    Numeric (sendRest kernel fuel calls taken data sock)
  | 0, _, _, _, _ => .error Fault.fuel_numeric
  | fuel + 1, calls, taken, data, sock => by
    unfold sendRest
    split
    · exact .ok
    · cases kernel calls with
      | take count => exact sendRest_numeric fuel _ _ _ _
      | error => exact .ok
      | again =>
        simp only
        split
        · exact .ok
        · exact .ok

theorem sendLoop_numeric (data : Bytes) : ∀ (fuel calls : Nat) (taken : Bytes) (sock : TcpSocket),
    Numeric (sendLoop kernel data fuel calls taken sock)
  | 0, _, _, _ => .error Fault.fuel_numeric
  | fuel + 1, calls, taken, sock => by
    unfold sendLoop
    split
    · cases kernel calls with
      | take count => exact sendLoop_numeric data fuel _ _ _
      | error => exact .ok
      | again =>
        simp only
        split
        · exact .ok
        · exact .ok
    · split
      · exact sendRest_numeric _ _ _ _ _
      · exact .ok

theorem sendData_numeric (data : Bytes) (sock : TcpSocket) : Numeric (sock.sendData kernel data) := by
  unfold sendData
  split
  · exact .ok
  · split
    · exact .ok
    · exact sendLoop_numeric _ _ _ _ _

end TcpSocket

/-! ### Functions -/

/-- `c` raises numeric faults only. -/
abbrev Calm {α : Type} (c : M α) : Prop := Raises Fault.Numeric c

theorem calm_guarded {α : Type} {x : Except Fault α} (h : Numeric x) : Calm (guarded x) := by
  intro s
  exact wp_guarded (fun _ _ => trivial) fun e he => h e he

theorem calm_log {e : Event} : Calm (log e) := .modify

theorem calm_getRoom {p : RoomPtr} : Calm (getRoom p) := .bind .get fun _ => .pure

theorem calm_modifyRoom {p : RoomPtr} {f : Room → Room} : Calm (modifyRoom p f) := .modify

section
variable {env : Env}

theorem calm_now : Calm (getNowTimeUs env) := .bind .get fun _ => .bind .set fun _ => .pure

theorem calm_nowSecond : Calm (getNowTimeSecond env) := .bind calm_now fun _ => .pure

theorem sendMessageByConnfd_calm (fd : Int) (mess : CMessage) : Calm (sendMessageByConnfd env fd mess) := by
  refine .bind .get fun s => ?_
  split
  · exact .pure
  · refine .ite (.bind calm_log fun _ => .throw Fault.outOfBounds_numeric) ?_
    exact .bind (calm_guarded (TcpSocket.sendData_numeric _ _)) fun _ => .bind .set fun _ => .pure

variable {del : Int → M Unit}

theorem sendMessageToClient_calm (hd : ∀ fd, Calm (del fd)) (userId : Int) (mess : CMessage) :
    Calm (sendMessageToClient env del userId mess) := by
  refine .bind calm_log fun _ => .bind .get fun s => ?_
  split
  · exact .pure
  · refine .bind (sendMessageByConnfd_calm _ _) fun ret => .ite ?_ .pure
    exact .bind calm_log fun _ => .bind (hd _) fun _ => .pure

namespace Room

theorem forSlots_calm {p : RoomPtr} {body : Nat → M Unit} (h : ∀ i, Calm (body i)) :
    ∀ fuel i, Calm (forSlots p body fuel i)
  | 0, _ => .bind calm_getRoom fun _ => .ite (.throw Fault.outOfBounds_numeric) .pure
  | fuel + 1, i =>
    .bind calm_getRoom fun _ => .ite (.bind (h i) fun _ => forSlots_calm h fuel (i + 1)) .pure

theorem deliver_calm (hd : ∀ fd, Calm (del fd)) (p : RoomPtr) (mess : CMessage) (i : Nat) :
    Calm (deliver env del p mess i) :=
  .bind calm_getRoom fun _ =>
    .ite (.bind calm_log fun _ => .discard (sendMessageToClient_calm hd _ _)) .pure

theorem sendMessageToEveryone_calm (hd : ∀ fd, Calm (del fd)) (p : RoomPtr) (mess : CMessage) :
    Calm (sendMessageToEveryone env del p mess) :=
  .bind calm_log fun _ => forSlots_calm (deliver_calm hd p mess) _ _

theorem sendGameLoading_calm (hd : ∀ fd, Calm (del fd)) (p : RoomPtr) : Calm (sendGameLoading env del p) := by
  refine .bind calm_getRoom fun _ => .ite .pure ?_
  refine .bind .get fun _ => .bind .set fun _ => .bind (sendMessageToEveryone_calm hd _ _) fun _ => ?_
  exact .bind calm_nowSecond fun _ => .modify

theorem sendGameStart_calm (hd : ∀ fd, Calm (del fd)) (p : RoomPtr) : Calm (sendGameStart env del p) := by
  refine .bind calm_getRoom fun _ => .ite .pure ?_
  exact .bind (sendMessageToEveryone_calm hd _ _) fun _ => .bind calm_now fun _ => .bind calm_now fun _ => .modify

end Room

namespace Syn

theorem getNowFrame_calm (p : RoomPtr) : Calm (getNowFrame env p) :=
  .bind calm_getRoom fun _ => .bind calm_log fun _ => .bind calm_now fun _ =>
    .bind calm_modifyRoom fun _ => .bind calm_getRoom fun _ => .pure

theorem addTo_calm (p : RoomPtr) (mess : CMessage) : Calm (addTo env p mess) :=
  .bind calm_getRoom fun _ => .bind calm_log fun _ => .bind calm_now fun _ => .bind calm_getRoom fun _ =>
    .bind (calm_guarded (add_numeric _ _ _)) fun _ => .modify

theorem broadcast_calm (hd : ∀ fd, Calm (del fd)) (p : RoomPtr) (mess : CMessage) : Calm (broadcast env del p mess) :=
  .bind calm_log fun _ => .bind (Room.sendMessageToEveryone_calm hd _ _) fun _ => calm_log

theorem sendSlot_calm (hd : ∀ fd, Calm (del fd)) (p : RoomPtr) : ∀ fuel i, Calm (sendSlot env del p fuel i)
  | 0, i =>
    .bind calm_getRoom fun _ => .bind (calm_guarded (slot_numeric _)) fun _ =>
      .ite (.throw Fault.outOfBounds_numeric) .pure
  | fuel + 1, i => by
    refine .bind calm_getRoom fun _ => .bind (calm_guarded (slot_numeric _)) fun _ => ?_
    split
    · exact .pure
    · exact .bind calm_modifyRoom fun _ => .bind (broadcast_calm hd _ _) fun _ => sendSlot_calm hd p fuel (i + 1)

theorem sendFrameMess_calm (hd : ∀ fd, Calm (del fd)) (p : RoomPtr) : Calm (sendFrameMess env del p) :=
  .bind calm_getRoom fun _ => .bind (calm_guarded (slot_numeric _)) fun _ => .ite (broadcast_calm hd _ _) .pure

theorem sendHeadFrameToAll_calm (hd : ∀ fd, Calm (del fd)) (p : RoomPtr) : Calm (sendHeadFrameToAll env del p) :=
  .bind calm_getRoom fun _ => .bind calm_log fun _ => .bind (sendFrameMess_calm hd p) fun _ =>
    .bind (sendSlot_calm hd p _ _) fun _ => .bind calm_getRoom fun _ =>
      .bind (calm_guarded (slot_numeric _)) fun _ => .modify

theorem runLoop_calm (hd : ∀ fd, Calm (del fd)) (p : RoomPtr) : ∀ fuel, Calm (runLoop env del p fuel)
  | 0 => .throw Fault.fuel_numeric
  | fuel + 1 => by
    refine .bind calm_getRoom fun _ => .bind (calm_guarded (due_numeric _)) fun _ => .ite ?_ .pure
    refine .bind (sendHeadFrameToAll_calm hd p) fun _ => .bind calm_getRoom fun _ => ?_
    exact .bind (calm_guarded (advance_numeric _)) fun _ => .bind calm_modifyRoom fun _ => runLoop_calm hd p fuel

end Syn

theorem Room.deletePlayer_calm (hd : ∀ fd, Calm (del fd)) (p : RoomPtr) (userId : Int) :
    Calm (deletePlayer env del p userId) := by
  refine .bind calm_getRoom fun r => .ite .pure ?_
  split
  · exact .bind .modify fun _ => .bind .get fun _ => .bind (sendMessageToEveryone_calm hd _ _) fun _ =>
      .bind .modify fun _ => .pure
  · refine .bind .modify fun _ => .bind (sendMessageToEveryone_calm hd _ _) fun _ => .bind calm_getRoom fun _ => ?_
    refine .ite (.bind calm_modifyRoom fun _ => .pure) (.bind calm_log fun _ => .ite ?_ .pure)
    exact .bind (sendGameStart_calm hd p) fun _ => .pure
  · exact .bind .modify fun _ => .bind (Syn.getNowFrame_calm p) fun _ => .bind (Syn.addTo_calm p _) fun _ => .pure

theorem RoomManager.deletePlayerFromRoom_calm (hd : ∀ fd, Calm (del fd)) (userId : Int) :
    Calm (deletePlayerFromRoom env del userId) := by
  refine .bind .get fun _ => ?_
  split
  · exact .pure
  · exact .bind .modify fun _ => Room.deletePlayer_calm hd _ _

theorem PersonManager.personLogout_calm (hd : ∀ fd, Calm (del fd)) (userId : Int) :
    Calm (personLogout env del userId) := by
  refine .bind .get fun _ => ?_
  split
  · exact .pure
  · split
    · exact .bind .modify fun _ => .pure
    · exact .bind (.discard (RoomManager.deletePlayerFromRoom_calm hd _)) fun _ => .bind .modify fun _ => .pure

theorem playerLogout_calm (hd : ∀ fd, Calm (del fd)) (userId : Int) : Calm (playerLogout env del userId) := by
  refine .bind .get fun _ => ?_
  split
  · exact .pure
  · exact .bind .modify fun _ => .bind (.discard (PersonManager.personLogout_calm hd _)) fun _ => .modify

theorem deleteClientStep_calm (hd : ∀ fd, Calm (del fd)) (fd : Int) : Calm (deleteClientStep env del fd) := by
  refine .bind .get fun _ => ?_
  split
  · exact .pure
  · refine .bind .modify fun _ => .bind .get fun _ => ?_
    split
    · exact .pure
    · exact playerLogout_calm hd _

theorem deleteClientFuel_calm : ∀ fuel fd, Calm (deleteClientFuel env fuel fd)
  | 0, fd => deleteClientStep_calm (fun _ => .throw Fault.fuel_numeric) fd
  | fuel + 1, fd => deleteClientStep_calm (deleteClientFuel_calm fuel) fd

theorem deleteClientByFd_calm (fd : Int) : Calm (deleteClientByFd env fd) :=
  .bind .get fun _ => deleteClientFuel_calm _ _

end

end IslandSurvival

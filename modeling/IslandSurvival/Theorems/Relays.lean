import IslandSurvival.Theorems.Codec
import IslandSurvival.Theorems.Members
import IslandSurvival.Theorems.Scenario

/-! The gameplay requests. Five handlers relay a request through the ring of a room; four of them take the room
    that the sender is bound to, and the fifth the one whose number is the user id of the sender. -/

namespace IslandSurvival

open Prog

/-- The gameplay requests, with what is relayed for a player in slot `playerId`: the number and the content
    of the request, and those of the message for the others -/
inductive PlayRequest (playerId : Int) : Int32 → Proto → Int32 → Proto → Prop
  | choseRole (roleId : Int) :
      PlayRequest playerId Msg.csChoseRole (.csChoseRole roleId) Msg.scChoseRole (.scChoseRole roleId playerId)
  | move (dir : Int) : PlayRequest playerId Msg.csMove (.csMove dir) Msg.scMove (.scMove dir playerId)
  | kill (killer bekilled : Int) :
      PlayRequest playerId Msg.csKill (.csKill killer bekilled) Msg.scKill (.scKill killer bekilled)
  | skill (skillId : Int) (posX posZ : UInt32) (targetId : Int) :
      PlayRequest playerId Msg.csSkill (.csSkill skillId posX posZ targetId) Msg.scSkill
        (.scSkill skillId posX posZ targetId playerId)
  | pause : PlayRequest playerId Msg.csGamePause .csGamePause Msg.scGamePause .scGamePause

/-- `result` is how one call of `SYN::Add` of room `p` ends, for a message with this number and content. The
    current frame may be asked for before. -/
def AddsOnce (env : Env) (p : RoomPtr) (id : Int32) (proto : Proto) (s : Server)
    (result : EStateM.Result Fault Server Int) : Prop :=
  ∃ (framenum : Int32) (t : Server), (t = s ∨ ∃ frame, Syn.getNowFrame env p s = .ok frame t) ∧
    result = (do Syn.addTo env p (.build id framenum proto); return 1 : M Int) t

section
variable {env : Env} {s : Server} {u : Int} {p q : RoomPtr} {room : Server → Option RoomPtr} {failed : Int}
  {reply : RoomPtr → Nat → M CMessage}

/-! ### The common part of the handlers -/

theorem relay_room (here : room s = some p) (pos : (s.room p).getPlayerId u ≠ 0) :
    MP.relay env room failed u reply s = (do
      let newmess ← reply p ((s.room p).getPlayerId u)
      Syn.addTo env p newmess
      return 1 : M Int) s := by
  rw [MP.relay, get_bind, here]
  show (if (s.room p).getPlayerId u = 0 then _ else _ : M Int) s = _
  rw [if_neg pos]

/-- How often the ring of a room was used -/
def ringUses (p : RoomPtr) (tr : List Event) : Nat := tr.countP fun e => match e with
  | .synUse q _ => q == p
  | _ => false

/-- A call that leaves the ring of room `p` alone, wherever it ends -/
def LeavesRing (p : RoomPtr) {α : Type} (c : M α) (s : Server) : Prop :=
  wp c (fun _ t => ringUses p t.trace = ringUses p s.trace) (fun _ t => ringUses p t.trace = ringUses p s.trace) s

theorem guarded_ends {α : Type} {x : Except Fault α} {Q : α → Server → Prop} {E : Fault → Server → Prop}
    (ok : ∀ a, Q a s) (error : ∀ e, E e s) : wp (guarded x) Q E s := by
  cases x with
  | ok a => exact ok a
  | error e => exact error e

theorem addTo_leaves (mess : CMessage) (other : q ≠ p) : LeavesRing p (Syn.addTo env q mess) s := by
  simp only [LeavesRing, Syn.addTo, wp_bind, wp_getRoom, wp_log, wp_getNowTimeUs]
  refine guarded_ends (fun a => ?_) fun e => ?_
  · simp [ringUses, Server.log, Server.setRoom, Server.tickSys, other]
  · simp [ringUses, Server.log, Server.tickSys, other]

theorem getNowFrame_leaves (other : q ≠ p) : LeavesRing p (Syn.getNowFrame env q) s := by
  simp only [LeavesRing, Syn.getNowFrame, wp_bind, wp_getRoom, wp_log, wp_getNowTimeUs, wp_modifyRoom, wp_pure]
  simp [ringUses, Server.log, Server.setRoom, Server.tickSys, other]

theorem getNowFrame_uses : wp (Syn.getNowFrame env p) (fun _ t => ringUses p s.trace < ringUses p t.trace)
    (fun _ _ => False) s := by
  simp only [Syn.getNowFrame, wp_bind, wp_getRoom, wp_log, wp_getNowTimeUs, wp_modifyRoom, wp_pure]
  simp [ringUses, Server.log, Server.setRoom, Server.tickSys]

theorem addTo_uses (mess : CMessage) : wp (Syn.addTo env p mess) (fun _ t => ringUses p s.trace < ringUses p t.trace)
    (fun _ t => ringUses p s.trace < ringUses p t.trace) s := by
  simp only [Syn.addTo, wp_bind, wp_getRoom, wp_log, wp_getNowTimeUs]
  refine guarded_ends (fun a => ?_) fun e => ?_
  · simp [ringUses, Server.log, Server.setRoom, Server.tickSys]
  · simp [ringUses, Server.log, Server.tickSys]

/-- A call of `SYN::Add` shows in the trace. -/
theorem AddsOnce.not_leaves {id : Int32} {proto : Proto} {c : M Int} (once : AddsOnce env p id proto s (c s)) :
    ¬LeavesRing p c s := by
  obtain ⟨framenum, t, before, result⟩ := once
  have asked : ringUses p s.trace ≤ ringUses p t.trace := by
    obtain rfl | ⟨frame, asks⟩ := before
    · exact Nat.le_refl _
    · have more := wp_ok getNowFrame_uses asks
      exact Nat.le_of_lt more
  have adds : wp (do Syn.addTo env p (.build id framenum proto); return 1 : M Int)
      (fun _ t' => ringUses p t.trace < ringUses p t'.trace) (fun _ t' => ringUses p t.trace < ringUses p t'.trace) t := by
    rw [wp_bind]
    exact addTo_uses _
  intro leaves
  unfold LeavesRing wp at leaves
  rw [result] at leaves
  unfold wp at adds
  split at leaves
  · rename_i run
    rw [run] at adds
    omega
  · rename_i run
    rw [run] at adds
    omega

/-- A handler that finds another room leaves the ring of room `p` alone. -/
theorem relay_leaves (elsewhere : room s ≠ some p)
    (ask : ∀ q i (s : Server), q ≠ p → LeavesRing p (reply q i) s) : LeavesRing p (MP.relay env room failed u reply) s := by
  simp only [LeavesRing, MP.relay, wp_bind, wp_get]
  split
  · rfl
  · rename_i q there
    have other : q ≠ p := by
      rintro rfl
      exact elsewhere there
    simp only [wp_bind, wp_getRoom]
    split
    · rfl
    · rw [wp_bind]
      refine wp_mono (ask q _ s other) (fun mess t same => ?_) fun _ _ => id
      rw [wp_bind]
      exact wp_mono (addTo_leaves mess other) (fun _ _ same' => same'.trans same) fun _ _ same' => same'.trans same

theorem bind_ok {α β : Type} {c : M α} {f : α → M β} {a : α} {t : Server} (run : c s = .ok a t) : (c >>= f) s = f a t := by
  show EStateM.bind c f s = f a t
  rw [EStateM.bind, run]

/-- The relay law for one handler: it adds its message to the ring of room `p` if that is the room it finds. -/
theorem relay_adds_iff (pos : (s.room p).getPlayerId u ≠ 0) {id : Int32} {proto : Proto}
    (own : ∃ framenum t, (t = s ∨ ∃ frame, Syn.getNowFrame env p s = .ok frame t) ∧
      reply p ((s.room p).getPlayerId u) s = .ok (.build id framenum proto) t)
    (ask : ∀ q i (s : Server), q ≠ p → LeavesRing p (reply q i) s) :
    AddsOnce env p id proto s (MP.relay env room failed u reply s) ↔ room s = some p := by
  constructor
  · intro once
    by_contra elsewhere
    exact once.not_leaves (relay_leaves elsewhere ask)
  · intro here
    obtain ⟨framenum, t, before, run⟩ := own
    refine ⟨framenum, t, before, ?_⟩
    rw [relay_room here pos, bind_ok run]

/-- A handler that takes the frame of the request -/
theorem relay_request_iff (pos : (s.room p).getPlayerId u ≠ 0) {id framenum : Int32} (proto : Nat → Proto) :
    AddsOnce env p id (proto ((s.room p).getPlayerId u)) s
      (MP.relay env room failed u (fun _ playerId => return .build id framenum (proto playerId)) s) ↔ room s = some p :=
  relay_adds_iff pos ⟨framenum, s, .inl rfl, rfl⟩ fun _ _ _ _ => rfl

/-! ### The five handlers -/

/-- The room whose ring a gameplay request is for: the one that the sender is bound to, and for a `CSGamePause` the
    one with the number that the sender has as a user -/
def playRoom (u : Int) (id : Int32) (s : Server) : Option RoomPtr :=
  if id = Msg.csGamePause then s.rooms[u]? else s.belongRoom[u]?

/-- For a player of room `p`, each of the five requests adds its message to the ring of the room once, for the slot
    of the player, if and only if the handler takes that room. -/
theorem gameplay_relayed_iff (env : Env) {s : Server} {u : Int} {p : RoomPtr} (online : u ∈ (s.room p).members)
    {mess : CMessage} {proto reply : Proto} {id : Int32} (parsed : mess.proto = some proto)
    (request : PlayRequest ((s.room p).getPlayerId u) mess.head.messageId proto id reply) :
    AddsOnce env p id reply s (processRequest env u mess s) ↔ playRoom u mess.head.messageId s = some p := by
  have pos : (s.room p).getPlayerId u ≠ 0 := Room.getPlayerId_ne_zero.mpr online
  generalize number : mess.head.messageId = messageId at request
  unfold processRequest playRoom
  rw [number]
  cases request with
  | choseRole roleId =>
    rw [Register.boot_processor_of Msg.csChoseRole .csChoseRole (by decide), if_neg (by decide)]
    simp only [MP.csChoseRole, parsed]
    refine relay_adds_iff pos ?_ fun q i s other => ?_
    · exact ⟨_, _, .inr ⟨_, rfl⟩, rfl⟩
    · rw [LeavesRing, wp_bind]
      exact getNowFrame_leaves other
  | move dir =>
    rw [Register.boot_processor_of Msg.csMove .csMove (by decide), if_neg (by decide)]
    simp only [MP.csMove, parsed]
    exact relay_request_iff pos fun playerId => .scMove dir playerId
  | kill killer bekilled =>
    rw [Register.boot_processor_of Msg.csKill .csKill (by decide), if_neg (by decide)]
    simp only [MP.csKill, parsed]
    exact relay_request_iff pos fun _ => .scKill killer bekilled
  | skill skillId posX posZ targetId =>
    rw [Register.boot_processor_of Msg.csSkill .csSkill (by decide), if_neg (by decide)]
    simp only [MP.csSkill, parsed]
    exact relay_request_iff pos fun playerId => .scSkill skillId posX posZ targetId playerId
  | pause =>
    rw [Register.boot_processor_of Msg.csGamePause .csGamePause (by decide), if_pos rfl]
    exact relay_request_iff pos fun _ => .scGamePause

end

/-! ### Two requests of one player -/

/-- A client creates a room and plays in it alone. -/
def Script.plays : Env := oneClient (request 0 ++ request 9 ++ request 0x10 ++ request 0x12)

theorem Script.plays_reached : ∃ s, Reachable plays s ∧ (s.room 0).status = .ingame ∧ 1 ∈ (s.room 0).members ∧
    s.belongRoom[(1 : Int)]? = some 0 ∧ s.rooms[(1 : Int)]? = none := by
  obtain ⟨s, reachable, test⟩ := exists_of_ends 2
    (fun s => decide ((s.room 0).status = .ingame) && decide (1 ∈ (s.room 0).members) &&
      s.belongRoom[(1 : Int)]? == some 0 && s.rooms[(1 : Int)]? == none)
    (Script.reachable plays) (by decide +kernel)
  simp only [Bool.and_eq_true, beq_iff_eq, decide_eq_true_eq] at test
  obtain ⟨⟨⟨status, member⟩, belong⟩, number⟩ := test
  exact ⟨s, reachable, status, member, belong, number⟩

/-- A move of the player is relayed. -/
theorem gameplay_relayed_move : ∃ s, Reachable Script.plays s ∧
    AddsOnce Script.plays 0 Msg.scMove (.scMove 3 ((s.room 0).getPlayerId 1)) s
      (processRequest Script.plays 1 (Script.parsed Msg.csMove (.csMove 3)) s) := by
  obtain ⟨s, reachable, -, member, belong, -⟩ := Script.plays_reached
  exact ⟨s, reachable, (gameplay_relayed_iff Script.plays member rfl (.move 3)).mpr belong⟩

/-- The player of room 1000 is not user 1000, so its `CSGamePause` is not relayed. -/
theorem pause_not_relayed : ∃ s, Reachable Script.plays s ∧ (s.room 0).status = .ingame ∧ 1 ∈ (s.room 0).members ∧
    s.belongRoom[(1 : Int)]? = some 0 ∧
      ¬AddsOnce Script.plays 0 Msg.scGamePause .scGamePause s
        (processRequest Script.plays 1 (Script.parsed Msg.csGamePause .csGamePause) s) := by
  obtain ⟨s, reachable, status, member, belong, number⟩ := Script.plays_reached
  refine ⟨s, reachable, status, member, belong, fun once => once.not_leaves ?_⟩
  unfold processRequest
  rw [Register.boot_processor_of _ .csGamePause (by decide)]
  exact relay_leaves (by simp [RoomManager.getRoomByRoomId, number]) fun _ _ _ _ => rfl

end IslandSurvival

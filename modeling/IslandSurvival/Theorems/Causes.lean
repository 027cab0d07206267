import IslandSurvival.Theorems.Clocked
import IslandSurvival.Theorems.Iterators
import IslandSurvival.Theorems.NullRoom
import IslandSurvival.Theorems.RoomRun
import IslandSurvival.Theorems.Statements

/-! Where a call stops. Each fault is traced back to the place in the code that raises it, in the words of the state in
    which the run ends there. -/

namespace IslandSurvival

open Prog

/-- Room `p` exists, or something was done with it. -/
def Known (p : RoomPtr) (s : Server) : Prop := p < s.roomCnt ∨ roomTrace p s.trace ≠ []

/-- How the process can end: where it loses its meaning, or by the signal of a `send` to a closed connection, for which no
    handler is installed -/
inductive ProcessEnd
  | fault (e : Fault)
  | sigpipe

/-- Two seconds of which the server takes the difference: the clock as it was just read, and the begin of a loading or the
    last sweep; or the sweep and a heartbeat. -/
inductive Subtracts (env : Env) (t : Server) : Int → Int → Prop
  | loading {n p} (time : t.sys = n + 1) (status : (t.room p).status = .loading) :
      Subtracts env t (second env n) (t.room p).loadingTimeSecond
  | sweep {n} (time : t.sys = n + 1) : Subtracts env t (second env n) t.presec
  | heartbeat {sec fd} (mem : (sec, fd) ∈ t.secFd) : Subtracts env t t.presec sec

/-- Why the process can end -/
inductive Crash (env : Env) : ProcessEnd → Server → Prop
  /-- an encoding that is longer than `send_data_` -/
  | overrun {t fd older} {mess : CMessage} (trace : t.trace = .overrun fd mess :: older)
      (long : maxMessageLen < (mess.encode env.pb).length) : Crash env (.fault .outOfBounds) t
  /-- `SYN::Add` of a message for a frame that it has no slot for, or cannot compute with -/
  | ring {t p status older n e} {mess : CMessage} (trace : t.trace = .synUse p status :: older) (time : t.sys = n + 1)
      (slot : ((t.room p).syn.updateTime (env.clock n)).slotFor mess.head.framenum.toInt = .error e) :
      Crash env (.fault e) t
  /-- a game whose frames are no more counted by 32 bits -/
  | frames {t p} (playing : (t.room p).status = .ingame) (last : int32Max - 4 < (t.room p).syn.headFrame) :
      Crash env (.fault .signedOverflow) t
  /-- seconds that are further apart than 32 bits can say -/
  | seconds {t now sec} (subtracts : Subtracts env t now sec) (far : ¬(int32Min ≤ now - sec ∧ now - sec ≤ int32Max)) :
      Crash env (.fault .signedOverflow) t
  /-- a row of `login` without a password -/
  | account {t name columns older}
      (trace : t.trace = .query (Login.selectAll name) Login.queryLength (.row (some columns)) :: older)
      (missing : ∀ id stored rest, columns ≠ id :: some stored :: rest) : Crash env (.fault .nullRow) t
  /-- no row of `login` with a user id -/
  | number {t name columns older}
      (trace : t.trace = .query (Login.selectUserId name) Login.queryLength (.row columns) :: older)
      (missing : ∀ text rest, columns ≠ some (some text :: rest)) : Crash env (.fault .nullRow) t
  /-- `CSPlayerExitRoom` of a user that is in no room -/
  | noRoom {t fd u older} {mess : CMessage} (trace : t.trace = .request fd (some u) mess :: older)
      (exit : mess.head.messageId = Msg.csPlayerExitRoom) (none : t.belongRoom[u]? = none) :
      Crash env (.fault .nullPointer) t
  /-- a connection that is deleted while a message of it is processed, since a write to it fails -/
  | closed {t newer fd data older u} (trace : t.trace = newer ++ .extract fd data :: older)
      (failed : .writeError u fd ∈ newer) (gone : fd ∉ t.connects) : Crash env (.fault (.nullSocket fd)) t
  /-- a client to which a write fails while the expired client before it is deleted -/
  | next {t newer older fd u} {e : Int × Int} (trace : t.trace = newer ++ .expire fd (some e) :: older)
      (failed : .writeError u e.2 ∈ newer) : Crash env (.fault .danglingIterator) t
  /-- one of the `send` calls of `SendData` that the kernel answers with an error, on a connection of a client -/
  | pipe {t c out n} {fd : Int} {data : Bytes} (conn : t.connects[fd]? = some c)
      (sent : (t.sock c).sendData (fun n => env.send (t.sys + n)) data = .ok out) (call : n < out.calls)
      (answer : env.send (t.sys + n) = .error) : Crash env .sigpipe t

section
variable {env : Env} {s t : Server} {p : RoomPtr} {del : Int → M Unit}

theorem Adds.mem {e : Event} {tr tr' : List Event} (h : Adds tr tr') (mem : e ∈ tr) : e ∈ tr' := by
  obtain ⟨events, rfl, -⟩ := h
  exact List.mem_append_right _ mem

/-! ### The circle -/

namespace Room

end Room

namespace Syn

end Syn

namespace Syn

/-- Something was done with room `p`, and its game goes on. -/
structure Plays (p : RoomPtr) (s : Server) : Prop where
  noted : roomTrace p s.trace ≠ []
  playing : (s.room p).status = .ingame

theorem Plays.cascade (h : Plays p s) (cascade : Cascade env s t) : Plays p t where
  noted := by
    obtain ⟨events, trace, -⟩ := cascade.sheds.trace
    rw [trace, roomTrace, List.filter_append]
    exact List.append_ne_nil_of_right_ne_nil _ h.noted
  playing := ((cascade.ages p false).playing h.playing).1

end Syn

/-! ### Ticks -/

namespace Login

end Login

/-! ### The processors -/

namespace MP

variable {userId : Int} {mess : CMessage}

end MP

end

end IslandSurvival

import IslandSurvival.Model.Main
import IslandSurvival.Theorems.Scenario

/-! `main` up to its loop, and runs of it that can be computed. -/

namespace IslandSurvival

open Prog

/-- The second that call `n` of the clock gives to `GetNowTimeSecond` -/
def second (env : Env) (n : Nat) : Int := toInt32 (env.clock n / 1000000)

section
variable {env : Env} {startup : Startup} {s t : Server}

/-- `Init` leaves the server as the loop expects it. -/
theorem boot_eq (booted : boot env startup s = some t) : ∃ fd openFds epoll, t = { s with
    listenFd := fd, openFds := openFds, epoll := epoll, sys := s.sys + 1, presec := second env s.sys } ∧ fd ∈ openFds ∧
      epoll = if startup.epollCreate then s.epoll.insert fd else s.epoll := by
  unfold boot initServer readyForListen addToEpoll at booted
  cases socket : startup.socket with
  | none => simp [socket] at booted
  | some fd =>
    simp only [socket] at booted
    by_cases ready : (startup.reuseAddr && startup.bind && startup.listen && startup.setNonBlock) = true
    · rw [if_pos ready] at booted
      simp only at booted
      split at booted
      · cases booted
        refine ⟨fd, s.openFds.insert fd, _, ?_, by simp, rfl⟩
        split <;> rfl
      · cases booted
    · rw [if_neg ready] at booted
      cases booted

theorem booted_of_boot (fresh : s.Fresh) (polls : startup.epollCreate = true) (booted : boot env startup s = some t) :
    t.Booted := by
  obtain ⟨fd, openFds, epoll, rfl, listens, rfl⟩ := boot_eq booted
  have polled : ∀ fd', fd' ∈ s.epoll.insert fd ↔ fd' = fd := by
    intro fd'
    simp only [Std.ExtTreeSet.mem_insert, Std.compare_eq_iff_eq, fresh.epoll, or_false]
    exact eq_comm
  exact { fresh with listenFd := listens, epoll := fun fd' => by rw [if_pos polls]; exact polled fd' }

theorem Main.reachable (h : Main env s) : Reachable env s := by
  induction h with
  | boot fresh polls booted => exact .boot (booted_of_boot fresh polls booted)
  | turn _ tick receive ih => exact .receive (.tick ih tick) receive

theorem Main.mainLoop : ∀ (n : Nat) (s : Server), Main env s →
    wp (mainLoop env n) (fun _ t => Main env t) (fun _ _ => True) s
  | 0, _, h => h
  | n + 1, s, h => by
    simp only [IslandSurvival.mainLoop, wp_bind, wp_discard]
    refine wp_mono wp_self (fun _ t tick => ?_) fun _ _ _ => trivial
    refine wp_mono wp_self (fun _ u receive => ?_) fun _ _ _ => trivial
    exact Main.mainLoop n u (h.turn tick receive)

/-! ### Runs -/

/-- The numbers of all calls of the system are one higher, as `main` reads the clock before its loop. -/
def Script.later (env : Env) : Env := { env with
  clock := fun n => env.clock (n - 1)
  epollWait := fun n => env.epollWait (n - 1)
  accept := fun n => env.accept (n - 1)
  setNonBlock := fun n => env.setNonBlock (n - 1)
  recv := fun n => env.recv (n - 1)
  send := fun n => env.send (n - 1)
  rand := fun n => env.rand (n - 1)
  query := fun n => env.query (n - 1)
  uninit := fun n => env.uninit (n - 1) }

/-- Everything that `Init` asks for is there. -/
def Script.ready : Startup where
  epollCreate := true
  socket := some 3
  reuseAddr := true
  bind := true
  listen := true
  setNonBlock := true
  mysqlInit := true
  config := true
  mysqlRealConnect := true

def Script.fresh : Server := { server with listenFd := 0, openFds := ∅, epoll := ∅ }

theorem Script.fresh_fresh : fresh.Fresh :=
  { server_booted with epoll := fun _ => Std.ExtTreeSet.not_mem_empty }

/-- The server when the loop begins -/
def Script.begun (env : Env) : Server := { server.tickSys 1 with presec := second env 0 }

theorem Script.main (env : Env) : Main env (begun env) :=
  @Main.boot env ready fresh (begun env) fresh_fresh rfl rfl

/-- `n` turns of the loop, and one more tick -/
def TicksTo (env : Env) (n : Nat) (s : Server) (test : Server → Bool) : Bool :=
  match mainLoop env n s with
  | .ok _ u =>
    match runOnTick env u with
    | .ok _ t => test t
    | .error _ _ => false
  | .error _ _ => false

theorem exists_of_ticksTo (n : Nat) (test : Server → Bool) (h : Main env s)
    (ends : TicksTo env n s test = true) : ∃ u t, Main env u ∧ runOnTick env u = .ok () t ∧ test t = true := by
  unfold TicksTo at ends
  split at ends
  · rename_i u run
    split at ends
    · rename_i t tick
      have main := wp_ok (Main.mainLoop n s h) run
      exact ⟨u, t, main, tick, ends⟩
    · cases ends
  · cases ends

end

end IslandSurvival

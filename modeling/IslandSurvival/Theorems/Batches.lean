import IslandSurvival.Theorems.Draining

/-! The events of a batch. `epoll_wait` reports descriptors, and when the turn of an event comes, its descriptor may
    belong to a connection that was accepted since. -/

namespace IslandSurvival

open Prog

/-! ### Connections and the trace -/

/-- The connection that has descriptor `fd` after the events was accepted in them. -/
def newcomer (fd : Int) : List Event → Bool
  | [] => false
  | .accept fd' :: older => fd' == fd || newcomer fd older
  | .close fd' :: older => fd' != fd && newcomer fd older
  | _ :: older => newcomer fd older

/-- No connection with descriptor `fd` is accepted or closed. -/
def Event.spares (fd : Int) : Event → Bool
  | .accept fd' => fd' != fd
  | .close fd' => fd' != fd
  | _ => true

theorem newcomer_append (fd : Int) (events older : List Event) :
    newcomer fd (events ++ older) = (newcomer fd events || (events.all (·.spares fd) && newcomer fd older)) := by
  induction events with
  | nil => rfl
  | cons e events ih =>
    cases e with
    | accept fd' =>
      simp only [List.cons_append, newcomer, ih, List.all_cons, Event.spares]
      cases newcomer fd older <;> cases newcomer fd events <;> cases same : fd' == fd <;> simp [bne, same]
    | close fd' =>
      simp only [List.cons_append, newcomer, ih, List.all_cons, Event.spares]
      cases fd' != fd <;> simp
    | _ => exact ih

section
variable {env : Env} {k l : List Frame} {s t : Server}

/-- The connections are those that were accepted and not closed since. -/
def Opened (s : Server) : Prop := ∀ fd : Int, fd ∈ s.connects ↔ newcomer fd s.trace = true

theorem opened_step (move : Step env k s l t) (h : Opened s) : Opened t := by
  cases move with
  | @drop _ _ fd' c _ _ =>
    obtain ⟨_, _, _, _, _, hs⟩ := dropConnection_eq fd' c s
    rw [hs]
    intro fd
    simp only [Map.mem_erase, newcomer, Bool.and_eq_true, bne_iff_ne, h fd]
  | left =>
    rw [PersonManager.changePersonStatus_eq]
    exact h
  | @enter _ _ fd user _ _ _ _ _ _ _ person =>
    obtain ⟨_, _, _, trace, hs⟩ := @entered _ _ (loginArg fd user) _ _ person
    have same := @entered_trace _ _ (loginArg fd user) _ _ person
    rw [hs] at same ⊢
    rcases same with rfl | rfl
    · exact h
    · exact h
  | heartbeat _ old =>
    obtain ⟨_, _, rfl⟩ := Heartbeat.erased old
    exact h
  | create _ _ _ _ _ =>
    obtain ⟨_, _, _, _, _, _, _, hs⟩ := RoomManager.created_eq _ _ _ s
    rw [hs]
    exact h
  | join _ _ _ _ _ _ =>
    rw [RoomManager.joined_eq]
    exact h
  | gameEnd _ _ _ =>
    rw [PersonManager.changePersonStatus_eq]
    exact h
  | acceptFail sock acc _ =>
    obtain ⟨_, _, _, _, _, rfl⟩ := acceptSocket_eq sock acc
    exact h
  | acceptLost sock acc _ =>
    obtain ⟨_, _, _, _, _, rfl⟩ := acceptSocket_eq sock acc
    exact h
  | accept _ sock acc _ =>
    obtain ⟨_, _, _, hs⟩ := accepted_eq _ _ _
    rw [hs]
    obtain ⟨_, _, _, _, _, rfl⟩ := acceptSocket_eq sock acc
    intro fd
    simp only [Map.mem_insert, newcomer, Bool.or_eq_true, beq_iff_eq]
    exact or_congr Iff.rfl (h fd)
  | everyone may => cases may <;> exact h
  | _ => exact h

theorem Config.opened (h : Config env k s) : Opened s := by
  induction h with
  | boot booted =>
    intro fd
    rw [booted.connects, booted.trace]
    simp [newcomer]
  | step _ move ih => exact opened_step move ih

/-- The listening socket is open, and no connection. -/
structure Listening (s : Server) : Prop where
  opened : s.listenFd ∈ s.openFds
  apart : s.listenFd ∉ s.connects

/-- `AcceptClient` closes no descriptor, and gets one that was not open. -/
theorem acceptClient_openFds {c : SockPtr} {ret : Ret} (acc : acceptClient env c s = (ret, t)) :
    (∀ fd ∈ s.openFds, fd ∈ t.openFds) ∧ (ret = .success → (t.sock c).iSockfd ∉ s.openFds) := by
  unfold acceptClient at acc
  split at acc
  · obtain ⟨rfl, rfl⟩ := Prod.mk.inj acc
    exact ⟨fun _ mem => mem, by simp⟩
  · rename_i fd got
    obtain ⟨-, rfl⟩ := Prod.mk.inj acc
    refine ⟨fun fd' mem => Std.ExtTreeSet.mem_insert.mpr (.inr mem), fun _ => ?_⟩
    simp only [Server.tickSys, Server.setSock, Function.update_self]
    unfold kernelAccept at got
    split at got
    · cases got
    · split at got
      · rename_i free
        obtain rfl := Option.some.inj got
        exact free.2
      · cases got

theorem listening_step (move : Step env k s l t) (pool : Pool s) (h : Listening s) : Listening t := by
  cases move with
  | @drop _ _ fd c _ conn =>
    obtain ⟨secFd, fdToSec, erased⟩ := Heartbeat.erase_eq fd s
    have served := Sockets.served pool conn
    have other : s.listenFd ≠ fd := fun same => h.apart (same ▸ Map.mem_of_getElem? conn)
    unfold dropConnection
    rw [erased]
    simp only [served.inUse, served.descriptor, if_true]
    refine ⟨Std.ExtTreeSet.mem_erase.mpr ⟨?_, h.opened⟩, fun mem => h.apart (Map.mem_erase.mp mem).2⟩
    exact fun same => other (Std.compare_eq_iff_eq.mp same).symm
  | left =>
    rw [PersonManager.changePersonStatus_eq]
    exact ⟨h.opened, h.apart⟩
  | @enter _ _ fd user _ _ _ _ _ _ _ person =>
    obtain ⟨_, _, _, trace, hs⟩ := @entered _ _ (loginArg fd user) _ _ person
    rw [hs]
    exact ⟨h.opened, h.apart⟩
  | heartbeat _ old =>
    obtain ⟨_, _, rfl⟩ := Heartbeat.erased old
    exact ⟨h.opened, h.apart⟩
  | create _ _ _ _ _ =>
    obtain ⟨_, _, _, _, _, _, _, hs⟩ := RoomManager.created_eq _ _ _ s
    rw [hs]
    exact ⟨h.opened, h.apart⟩
  | join _ _ _ _ _ _ =>
    rw [RoomManager.joined_eq]
    exact ⟨h.opened, h.apart⟩
  | gameEnd _ _ _ =>
    rw [PersonManager.changePersonStatus_eq]
    exact ⟨h.opened, h.apart⟩
  | acceptFail sock acc _ =>
    obtain ⟨_, _, _, rfl⟩ := getFreeTcpSocket_eq sock
    obtain ⟨keeps, -⟩ := acceptClient_openFds acc
    obtain ⟨_, _, _, rfl⟩ := acceptClient_eq acc
    exact ⟨keeps _ h.opened, h.apart⟩
  | acceptLost sock acc _ =>
    obtain ⟨_, _, _, rfl⟩ := getFreeTcpSocket_eq sock
    obtain ⟨keeps, -⟩ := acceptClient_openFds acc
    obtain ⟨_, _, _, rfl⟩ := acceptClient_eq acc
    exact ⟨keeps _ h.opened, h.apart⟩
  | accept _ sock acc _ =>
    obtain ⟨_, _, _, rfl⟩ := getFreeTcpSocket_eq sock
    obtain ⟨keeps, new⟩ := acceptClient_openFds acc
    obtain ⟨_, _, _, rfl⟩ := acceptClient_eq acc
    obtain ⟨_, _, _, hs⟩ := accepted_eq _ _ _
    rw [hs]
    refine ⟨keeps _ h.opened, fun mem => ?_⟩
    rcases Map.mem_insert.mp mem with same | mem
    · exact new rfl (same ▸ h.opened)
    · exact h.apart mem
  | _ => exact ⟨h.opened, h.apart⟩

theorem Config.listening (h : Config env k s) : Listening s := by
  induction h with
  | boot booted =>
    refine ⟨booted.listenFd, ?_⟩
    rw [booted.connects]
    simp
  | step reached move ih => exact listening_step move reached.pool ih

/-! ### What an event is applied to -/

/-- From `s` to `t`, a connection with descriptor `fd` is closed or read from. -/
def Used (fd : Int) (s t : Server) : Prop :=
  ∃ events, t.trace = events ++ s.trace ∧ ∃ e ∈ events, e = .close fd ∨ ∃ got, e = .recv fd got

theorem Used.later {fd : Int} {u : Server} (used : Used fd s t) (later : t.trace <:+ u.trace) : Used fd s u := by
  obtain ⟨events, trace, e, mem, use⟩ := used
  obtain ⟨more, trace'⟩ := later
  exact ⟨more ++ events, by rw [← trace', trace, List.append_assoc], e, List.mem_append_right _ mem, use⟩

theorem not_used {fd : Int} (events : List Event) (trace : t.trace = events ++ s.trace)
    (none : ∀ e ∈ events, e ≠ .close fd ∧ ∀ got, e ≠ .recv fd got) : ¬Used fd s t := by
  rintro ⟨events', trace', e, mem, use⟩
  obtain rfl := List.append_cancel_right (trace'.symm.trans trace)
  obtain ⟨closed, received⟩ := none e mem
  rcases use with rfl | ⟨got, rfl⟩
  · exact closed rfl
  · exact received got rfl

/-- A deletion begins with the closing of the connection. -/
theorem deleteClientByFd_used {fd : Int} {c : SockPtr} (conn : s.connects[fd]? = some c) :
    wp (deleteClientByFd env fd) (fun _ t => Used fd s t) (fun _ t => Used fd s t) s := by
  have closed : Used fd s (dropConnection fd c s) := by
    obtain ⟨_, _, _, _, _, hs⟩ := dropConnection_eq fd c s
    rw [hs]
    exact ⟨[.close fd], rfl, .close fd, List.mem_singleton_self _, .inl rfl⟩
  have step : ∀ del, Deletes [] (fun _ t => (dropConnection fd c s).trace <:+ t.trace) del →
      wp (deleteClientStep env del fd) (fun _ t => Used fd s t) (fun _ t => Used fd s t) s := by
    intro del deletes
    simp only [deleteClientStep, wp_bind, wp_get, conn, wp_modify]
    cases user : (dropConnection fd c s).fdToUserId[fd]? with
    | none => exact closed
    | some userId =>
      refine wp_mono (playerLogout_spec (k := []) (stable_trace env [] _) deletes user List.suffix_rfl)
        (fun _ t later => closed.later later) fun _ t fails => ?_
      obtain ⟨-, later⟩ := fails
      exact closed.later later
  simp only [deleteClientByFd, wp_bind, wp_get]
  cases s.connects.size with
  | zero => exact step _ fun _ _ _ _ h => wp_throw_of (k := []) h
  | succ n => exact step _ (deleteClientFuel_spec (stable_trace env [] _) n)

/-- `RecvData` comes first for a readable connection. -/
theorem readClient_used {fd : Int} {c : SockPtr} (pool : Pool s) (conn : s.connects[fd]? = some c) :
    wp (readClient env fd c) (fun _ t => Used fd s t) (fun _ t => Used fd s t) s := by
  have served := Sockets.served pool conn
  obtain ⟨out, run, -⟩ := TcpSocket.recvData_spec (fun n => env.recv (s.sys + n)) served.valid served.inUse
  simp only [readClient, recvData, wp_bind, wp_get]
  refine wp_guarded (fun out' got => ?_) fun e error => ?_
  · simp only [wp_set, wp_pure]
    have received : Used fd s (((s.setSock c out'.sock).tickSys out'.calls).log (.recv fd out'.received)) :=
      ⟨[.recv fd out'.received], rfl, _, List.mem_singleton_self _, .inr ⟨_, rfl⟩⟩
    have stable := stable_trace env [] (((s.setSock c out'.sock).tickSys out'.calls).log (.recv fd out'.received))
    refine wp_mono (messageLoop_spec stable _ 0 _ List.suffix_rfl) (fun _ t later => ?_) fun _ t fails => ?_
    · split
      · simp only [wp_bind, wp_pure]
        refine wp_mono (deleteClientByFd_spec stable [] fd _ .event later) (fun _ u last => received.later last)
          fun _ u fails => ?_
        obtain ⟨-, last⟩ := fails
        exact received.later last
      · exact received.later later
    · obtain ⟨-, later⟩ := fails
      exact received.later later
  · rw [run] at error
    cases error

/-- An event of the listening socket only accepts. -/
theorem acceptNew_trace (env : Env) (s : Server) :
    wp (acceptNew env) (fun _ t => t.trace = s.trace ∨ ∃ fd, t.trace = .accept fd :: s.trace) (fun _ _ => False) s := by
  simp only [acceptNew, wp_bind, wp_get]
  cases sock : getFreeTcpSocket s with
  | mk c s' =>
    simp only
    split
    · rename_i t acc
      have same : t.trace = s.trace := by
        obtain ⟨_, _, _, _, _, rfl⟩ := acceptSocket_eq sock acc
        rfl
      simp only [wp_bind, wp_set]
      split
      · exact .inl same
      · simp only [wp_bind, wp_set, Heartbeat.initFd, wp_get]
        split
        · exact .inr ⟨_, congrArg _ same⟩
        · exact .inr ⟨_, congrArg _ same⟩
    · rename_i ret t fails acc
      obtain ⟨_, _, _, _, _, rfl⟩ := acceptSocket_eq sock acc
      exact .inl rfl

/-- An event closes or reads the connection that has its descriptor, and uses none if no connection has it. -/
theorem handleEvent_used (env : Env) (ev : EpollEvent) (pool : Pool s) (listening : Listening s) :
    wp (handleEvent env ev) (fun _ t => Used ev.fd s t ↔ ev.fd ∈ s.connects) (fun _ t => Used ev.fd s t ↔ ev.fd ∈ s.connects)
      s := by
  have pool₁ : Pool (s.log (.epoll ev)) := pool_step (@Step.epoll env _ ev) pool
  have reported : ∀ {t : Server}, Used ev.fd (s.log (.epoll ev)) t → Used ev.fd s t := by
    rintro t ⟨events, trace, e, mem, use⟩
    exact ⟨events ++ [.epoll ev], by rw [trace, Server.log, List.append_assoc, List.singleton_append], e,
      List.mem_append_left _ mem, use⟩
  have unused : ∀ {t : Server}, t.trace = .epoll ev :: s.trace → ev.fd ∉ s.connects → (Used ev.fd s t ↔ ev.fd ∈ s.connects) := by
    intro t trace absent
    refine iff_of_false (not_used [.epoll ev] trace fun e mem => ?_) absent
    obtain rfl := List.mem_singleton.mp mem
    exact ⟨by simp, by simp⟩
  simp only [handleEvent, wp_bind, wp_log, wp_get]
  split
  · split
    · rename_i mem
      obtain ⟨c, conn⟩ := Map.mem_iff.mp mem
      simp only [wp_bind, wp_pure]
      exact wp_mono (deleteClientByFd_used (s := s.log (.epoll ev)) conn) (fun _ _ used => iff_of_true (reported used) mem)
        fun _ _ used => iff_of_true (reported used) mem
    · rename_i absent
      exact unused rfl absent
  · split
    · rename_i same
      have absent : ev.fd ∉ s.connects := by
        rw [show ev.fd = s.listenFd from same]
        exact listening.apart
      simp only [wp_bind, wp_pure]
      refine wp_mono (acceptNew_trace env _) (fun _ t grows => ?_) fun _ _ impossible => impossible.elim
      rcases grows with same | ⟨fd, more⟩
      · exact unused same absent
      · refine iff_of_false (not_used [.accept fd, .epoll ev] more fun e mem => ?_) absent
        simp only [List.mem_cons, List.not_mem_nil, or_false] at mem
        rcases mem with rfl | rfl <;> exact ⟨by simp, by simp⟩
    · split
      · rename_i conn
        exact unused rfl (Map.notMem_of_getElem? conn)
      · rename_i c conn
        have mem : ev.fd ∈ s.connects := Map.mem_of_getElem? (show s.connects[ev.fd]? = some c from conn)
        exact wp_mono (readClient_used pool₁ conn) (fun _ _ used => iff_of_true (reported used) mem)
          fun _ _ used => iff_of_true (reported used) mem

/-! ### Batches -/

/-- The turn of the event `ev` of a batch that begins in `s` comes in `t`. -/
inductive Turn (env : Env) : List EpollEvent → Server → EpollEvent → Server → Prop
  | here {ev rest s} : Turn env (ev :: rest) s ev s
  | later {ev rest s n t ev' t'} (run : handleEvent env ev s = .ok n t) (turn : Turn env rest t ev' t') :
      Turn env (ev :: rest) s ev' t'

/-- The connection that has descriptor `fd` in `t` was accepted after `s`. -/
def Newcomer (fd : Int) (s t : Server) : Prop := ∃ events, t.trace = events ++ s.trace ∧ newcomer fd events = true

/-- The connection that has descriptor `fd` in `t` is the one that had it in `s`. -/
def Reported (fd : Int) (s t : Server) : Prop :=
  fd ∈ s.connects ∧ ∃ events, t.trace = events ++ s.trace ∧ events.all (·.spares fd) = true

/-- In the batch that is reported in `s`, an event closes or reads no connection but the one that it was reported for. -/
def AppliedAsReported (env : Env) (s : Server) : Prop :=
  ∀ ev t, Turn env (kernelEpollWait env s) (s.tickSys 1) ev t →
    wp (handleEvent env ev) (fun _ u => Used ev.fd t u → Reported ev.fd s t) (fun _ u => Used ev.fd t u → Reported ev.fd s t) t

theorem Turn.config {evs : List EpollEvent} {ev : EpollEvent} (turn : Turn env evs s ev t) (h : Config env [] s) :
    Config env [] t ∧ s.trace <:+ t.trace := by
  induction turn with
  | here => exact ⟨h, List.suffix_rfl⟩
  | @later ev _ s _ t _ _ run _ ih =>
    have keeps : Stable env [] fun k t => Config env k t ∧ s.trace <:+ t.trace :=
      .of fun move before => ⟨.step before.1 move, before.2.trans (trace_step move)⟩
    have spec := handleEvent_spec keeps ev s ⟨h, List.suffix_rfl⟩
    have after := wp_ok spec run
    obtain ⟨config, later⟩ := ih after.1
    exact ⟨config, after.2.trans later⟩

/-- A connection was there already, or is a newcomer. -/
theorem mem_connects_iff (fd : Int) (before : Opened s) (after : Opened t) (later : s.trace <:+ t.trace) :
    fd ∈ t.connects ↔ Newcomer fd s t ∨ Reported fd s t := by
  obtain ⟨events, trace⟩ := later
  have unique : ∀ {events' : List Event}, t.trace = events' ++ s.trace → events' = events := fun trace' =>
    List.append_cancel_right (trace'.symm.trans trace.symm)
  rw [after fd, ← trace, newcomer_append, Bool.or_eq_true, Bool.and_eq_true, ← before fd]
  constructor
  · rintro (new | ⟨spared, old⟩)
    · exact .inl ⟨events, trace.symm, new⟩
    · exact .inr ⟨old, events, trace.symm, spared⟩
  · rintro (⟨events', trace', new⟩ | ⟨old, events', trace', spared⟩)
    · exact .inl (unique trace' ▸ new)
    · exact .inr ⟨unique trace' ▸ spared, old⟩

theorem newcomer_of_spared {fd : Int} {events : List Event} (spared : events.all (·.spares fd) = true) :
    newcomer fd events = false := by
  induction events with
  | nil => rfl
  | cons e events ih =>
    simp only [List.all_cons, Bool.and_eq_true] at spared
    have older := ih spared.2
    cases e with
    | accept fd' =>
      have other : fd' ≠ fd := by simpa [Event.spares] using spared.1
      simp [newcomer, older, other]
    | close _ => simp [newcomer, older]
    | _ => exact older

theorem Newcomer.not_reported {fd : Int} (h : Newcomer fd s t) : ¬Reported fd s t := by
  obtain ⟨events, trace, new⟩ := h
  rintro ⟨-, events', trace', spared⟩
  obtain rfl := List.append_cancel_right (trace'.symm.trans trace)
  rw [newcomer_of_spared spared] at new
  cases new

/-- In a turn, an event is applied as reported exactly when no newcomer has its descriptor. -/
theorem applied_iff {evs : List EpollEvent} {ev : EpollEvent} (h : Config env [] s) (turn : Turn env evs s ev t) :
    wp (handleEvent env ev) (fun _ u => Used ev.fd t u → Reported ev.fd s t) (fun _ u => Used ev.fd t u → Reported ev.fd s t) t ↔
      ¬Newcomer ev.fd s t := by
  obtain ⟨config, later⟩ := turn.config h
  have conn := mem_connects_iff ev.fd h.opened config.opened later
  have used := handleEvent_used env ev config.pool config.listening
  constructor
  · intro applied new
    have both := wp_and applied used
    have there := conn.mpr (.inl new)
    unfold wp at both
    split at both
    · exact new.not_reported (both.1 (both.2.mpr there))
    · exact new.not_reported (both.1 (both.2.mpr there))
  · intro old
    have reported : ev.fd ∈ t.connects → Reported ev.fd s t := fun there => (conn.mp there).resolve_left old
    exact wp_mono used (fun _ _ uses use => reported (uses.mp use)) fun _ _ uses use => reported (uses.mp use)

/-- The events of a batch are applied as reported, if and only if the turn of none comes when a connection that was
    accepted in the same batch has its descriptor. -/
theorem applied_as_reported_iff (h : Reachable env s) :
    AppliedAsReported env s ↔ ∀ ev t, Turn env (kernelEpollWait env s) (s.tickSys 1) ev t → ¬Newcomer ev.fd s t := by
  have config : Config env [] (s.tickSys 1) := h.config.step (.sys 1)
  refine forall_congr' fun ev => forall_congr' fun t => forall_congr' fun turn => ?_
  have applied := applied_iff config turn
  exact applied

/-- The events since `s` -/
theorem trace_since (later : s.trace <:+ t.trace) : t.trace = t.trace.take (t.trace.length - s.trace.length) ++ s.trace := by
  obtain ⟨events, trace⟩ := later
  simp [← trace]

end

/-- Three users wait in a room. A change of the second one makes the write to the first one fail, the next client
    gets its descriptor, and the last event is that the first one hung up. -/
def Script.reusedFd : Env := { party (fun n => if n = 46 then [readable 5, readable 3, hungUp 4] else [])
    (fun n => if n = 47 then some (request 6) else none) (fun n => n == 49) with
  accept := fun n => some (if n < 5 then 4 else if n < 10 then 5 else if n < 46 then 6 else 4) }

/-- The event of the client that is gone closes the new one. -/
theorem newcomer_closed : ∃ s, Reachable Script.reusedFd s ∧
    kernelEpollWait Script.reusedFd s = [Script.readable 5, Script.readable 3, Script.hungUp 4] ∧
    ¬AppliedAsReported Script.reusedFd s := by
  obtain ⟨s₀, reachable, test⟩ := exists_of_ends 6
    (fun s₀ => Returns (runOnTick Script.reusedFd s₀) fun s =>
      kernelEpollWait Script.reusedFd s == [Script.readable 5, Script.readable 3, Script.hungUp 4] &&
      Returns (handleEvent Script.reusedFd (Script.readable 5) (s.tickSys 1)) fun t₁ =>
        Returns (handleEvent Script.reusedFd (Script.readable 3) t₁) fun t₂ =>
          newcomer 4 (t₂.trace.take (t₂.trace.length - s.trace.length)))
    (Script.reachable Script.reusedFd) (by decide +kernel)
  obtain ⟨⟨⟩, s, tick, test⟩ := exists_of_returns test
  simp only [Bool.and_eq_true, beq_iff_eq] at test
  obtain ⟨batch, returns⟩ := test
  obtain ⟨n₁, t₁, run₁, returns⟩ := exists_of_returns returns
  obtain ⟨n₂, t₂, run₂, new⟩ := exists_of_returns returns
  have reachable : Reachable Script.reusedFd s := .tick reachable tick
  have config : Config Script.reusedFd [] (s.tickSys 1) := reachable.config.step (.sys 1)
  have turn : Turn Script.reusedFd (kernelEpollWait Script.reusedFd s) (s.tickSys 1) (Script.hungUp 4) t₂ := by
    rw [batch]
    exact .later run₁ (.later run₂ .here)
  have later := (turn.config config).2
  have old := applied_iff config turn
  exact ⟨s, reachable, batch, fun applied => old.mp (applied _ _ turn) ⟨_, trace_since later, new⟩⟩

/-- Three users wait in a room; a client connects, and the first one sends nothing new. -/
def Script.freshFd : Env := { party (fun n => if n = 46 then [readable 3, readable 4] else []) (fun _ => none) (fun _ => false) with
  accept := fun n => some (if n < 5 then 4 else if n < 10 then 5 else if n < 46 then 6 else 7) }

/-- The new connection does not get in the way of the first one. -/
theorem applied_as_reported_iff_freshFd : ∃ s, Reachable Script.freshFd s ∧
    kernelEpollWait Script.freshFd s = [Script.readable 3, Script.readable 4] ∧ AppliedAsReported Script.freshFd s := by
  obtain ⟨s₀, reachable, test⟩ := exists_of_ends 6
    (fun s₀ => Returns (runOnTick Script.freshFd s₀) fun s =>
      kernelEpollWait Script.freshFd s == [Script.readable 3, Script.readable 4] &&
      Returns (handleEvent Script.freshFd (Script.readable 3) (s.tickSys 1)) fun t =>
        t.connects.contains 7 && !newcomer 4 (t.trace.take (t.trace.length - s.trace.length)))
    (Script.reachable Script.freshFd) (by decide +kernel)
  obtain ⟨⟨⟩, s, tick, test⟩ := exists_of_returns test
  simp only [Bool.and_eq_true, beq_iff_eq] at test
  obtain ⟨batch, returns⟩ := test
  obtain ⟨n, t, run, old⟩ := exists_of_returns returns
  simp only [Bool.and_eq_true, Bool.not_eq_true'] at old
  have reachable : Reachable Script.freshFd s := .tick reachable tick
  refine ⟨s, reachable, batch, (applied_as_reported_iff reachable).mpr fun ev t' turn => ?_⟩
  rintro ⟨events, trace, new⟩
  rw [batch] at turn
  cases turn with
  | here =>
    obtain rfl : events = [] := List.append_cancel_right (trace.symm.trans (List.nil_append _).symm)
    cases new
  | later run' turn =>
    obtain ⟨rfl, rfl⟩ : n = _ ∧ t = _ := by simpa using run.symm.trans run'
    cases turn with
    | here =>
      rw [trace, List.length_append, Nat.add_sub_cancel, List.take_left] at old
      rw [show (Script.readable 4).fd = 4 from rfl, old.2] at new
      cases new
    | later _ turn => cases turn

end IslandSurvival

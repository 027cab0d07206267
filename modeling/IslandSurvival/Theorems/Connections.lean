import IslandSurvival.Theorems.Scenario
import IslandSurvival.Theorems.Users

/-! Connections and users. `ProcessRequest` takes a descriptor for a login and a user id for everything
    else, but a connection that is logged in gets its login processed with its user id. As long as no such
    login succeeds, the two maps of `MessageHandler` are inverse to each other and speak of connections
    that exist. -/

namespace IslandSurvival

/-- The connection whose message a pending `ProcessRequest` works on, with its user -/
def Frame.serving? : Frame → Option (Option Int)
  | .handling _ user _ => some user
  | _ => none

/-- The descriptor that a pending `DeleteClientByFD` has closed -/
def Frame.dropping? : Frame → Option Int
  | .drop fd => some fd
  | _ => none

/-- The user of the connection whose message was processed last -/
def servedUser : List Event → Option Int
  | [] => none
  | .request _ user _ :: _ => user
  | _ :: older => servedUser older

/-- Every login that succeeded came from a connection without a user. -/
def loginsFresh : List Event → Bool
  | [] => true
  | .playerLogin _ _ :: older => (servedUser older).isNone && loginsFresh older
  | _ :: older => loginsFresh older

/-- The maps between connections and users, up to the deletions that are pending. -/
structure Linked (dropping : List Int) (unbinding : List (Int × Int)) (connects : Map SockPtr)
    (fdToUserId userIdToFd : Map Int) : Prop where
  inverse : ∀ {u fd : Int}, userIdToFd[u]? = some fd → fdToUserId[fd]? = some u
  live : ∀ {fd : Int}, fd ∈ fdToUserId → fd ∈ connects ∨ fd ∈ dropping ∨ ∃ u, (u, fd) ∈ unbinding
  pending : ∀ {u fd : Int}, (u, fd) ∈ unbinding → fdToUserId[fd]? = some u

namespace Linked

variable {dropping : List Int} {unbinding : List (Int × Int)} {connects : Map SockPtr}
  {fdToUserId userIdToFd : Map Int} {fd u : Int}

theorem empty : Linked [] [] ∅ ∅ ∅ where
  inverse := by simp
  live := by simp
  pending := by simp

theorem enter (h : Linked [] [] connects fdToUserId userIdToFd) (conn : fd ∈ connects)
    (anon : fdToUserId[fd]? = none) :
    Linked [] [] connects (fdToUserId.insert fd u) (userIdToFd.insert u fd) where
  inverse {v fd'} hv := by
    rw [Map.getElem?_insert] at hv
    split at hv
    · obtain rfl : fd = fd' := Option.some.inj hv
      subst v
      simp
    · have hb := h.inverse hv
      have hne : fd ≠ fd' := by
        rintro rfl
        simp [anon] at hb
      rwa [Map.getElem?_insert, if_neg hne]
  live {fd'} hm := by
    rcases Map.mem_insert.mp hm with rfl | hm
    · exact .inl conn
    · exact h.live hm
  pending hm := absurd hm List.not_mem_nil

theorem accept (h : Linked dropping unbinding connects fdToUserId userIdToFd) (c : SockPtr) :
    Linked dropping unbinding (connects.insert fd c) fdToUserId userIdToFd where
  inverse := h.inverse
  live hm := (h.live hm).imp_left fun hc => Map.mem_insert.mpr (.inr hc)
  pending := h.pending

theorem drop (h : Linked dropping unbinding connects fdToUserId userIdToFd) :
    Linked (fd :: dropping) unbinding (connects.erase fd) fdToUserId userIdToFd where
  inverse := h.inverse
  live {fd'} hm := by
    by_cases hfd : fd = fd'
    · exact .inr (.inl (hfd ▸ List.mem_cons_self))
    · rcases h.live hm with hc | hd | hu
      · exact .inl (Map.mem_erase.mpr ⟨hfd, hc⟩)
      · exact .inr (.inl (List.mem_cons_of_mem _ hd))
      · exact .inr (.inr hu)
  pending := h.pending

/-- The connection that was closed has no user, or a logout that is pending. -/
theorem dropped (h : Linked (fd :: dropping) unbinding connects fdToUserId userIdToFd)
    (gone : fd ∈ fdToUserId → ∃ u, (u, fd) ∈ unbinding) :
    Linked dropping unbinding connects fdToUserId userIdToFd where
  inverse := h.inverse
  live {fd'} hm := by
    rcases h.live hm with hc | hd | hu
    · exact .inl hc
    · rcases List.mem_cons.mp hd with rfl | hd
      · exact .inr (.inr (gone hm))
      · exact .inr (.inl hd)
    · exact .inr (.inr hu)
  pending := h.pending

theorem logout (h : Linked (fd :: dropping) unbinding connects fdToUserId userIdToFd)
    (user : fdToUserId[fd]? = some u) :
    Linked dropping ((u, fd) :: unbinding) connects fdToUserId (userIdToFd.erase u) where
  inverse {v fd'} hv := by
    rw [Map.getElem?_erase] at hv
    split at hv
    · cases hv
    · exact h.inverse hv
  live {fd'} hm := by
    rcases h.live hm with hc | hd | ⟨v, hu⟩
    · exact .inl hc
    · rcases List.mem_cons.mp hd with rfl | hd
      · exact .inr (.inr ⟨u, List.mem_cons_self⟩)
      · exact .inr (.inl hd)
    · exact .inr (.inr ⟨v, List.mem_cons_of_mem _ hu⟩)
  pending {v fd'} hm := by
    rcases List.mem_cons.mp hm with heq | hm
    · obtain ⟨rfl, rfl⟩ := Prod.mk.inj heq
      exact user
    · exact h.pending hm

theorem done (h : Linked dropping ((u, fd) :: unbinding) connects fdToUserId userIdToFd)
    (unbound : userIdToFd[u]? = none) (distinct : (((u, fd) :: unbinding).map Prod.fst).Nodup) :
    Linked dropping unbinding connects (fdToUserId.erase fd) userIdToFd where
  inverse {v fd'} hv := by
    have hb := h.inverse hv
    have hne : fd ≠ fd' := by
      rintro rfl
      obtain rfl : u = v := Option.some.inj ((h.pending List.mem_cons_self).symm.trans hb)
      simp [unbound] at hv
    rwa [Map.getElem?_erase, if_neg hne]
  live {fd'} hm := by
    obtain ⟨hne, hm⟩ := Map.mem_erase.mp hm
    rcases h.live hm with hc | hd | ⟨v, hu⟩
    · exact .inl hc
    · exact .inr (.inl hd)
    · rcases List.mem_cons.mp hu with heq | hu
      · exact absurd (Prod.mk.inj heq).2.symm hne
      · exact .inr (.inr ⟨v, hu⟩)
  pending {v fd'} hm := by
    have hp := h.pending (List.mem_cons_of_mem _ hm)
    have hne : fd ≠ fd' := by
      rintro rfl
      obtain rfl : u = v := Option.some.inj ((h.pending List.mem_cons_self).symm.trans hp)
      exact (List.nodup_cons.mp distinct).1 (List.mem_map_of_mem (f := Prod.fst) hm)
    rwa [Map.getElem?_erase, if_neg hne]

end Linked

theorem Room.departing_serving (u : Int) (p : RoomPtr) (r : Room) : (r.departing u p).serving? = none := by
  unfold Room.departing
  split <;> rfl

theorem Room.departing_dropping (u : Int) (p : RoomPtr) (r : Room) : (r.departing u p).dropping? = none := by
  unfold Room.departing
  split <;> rfl

variable {env : Env} {k k' : List Frame} {s s' : Server}

/-- The pending `ProcessRequest` works on the message that was processed last. -/
def Serving (k : List Frame) (s : Server) : Prop :=
  ∀ user ∈ k.filterMap Frame.serving?, servedUser s.trace = user

theorem serving_step (move : Step env k s k' s') (users : Users k s) (h : Serving k s) : Serving k' s' := by
  cases move with
  | drop _ _ =>
    obtain ⟨_, _, _, _, _, hs⟩ := dropConnection_eq _ _ s
    rw [hs]
    exact h
  | leave _ _ _ _ =>
    unfold Serving
    rw [List.filterMap_cons_none (Room.departing_serving _ _ _)]
    exact h
  | left =>
    rw [PersonManager.changePersonStatus_eq]
    exact h
  | request _ _ =>
    rintro user (_ | ⟨_, ⟨⟩⟩)
    rfl
  | enter _ _ _ person =>
    rw [enter_eq person (users.userIdToFd_none (PersonManager.personLogin_eq person).1)]
    exact h
  | heartbeat _ old =>
    obtain ⟨_, _, rfl⟩ := Heartbeat.erased old
    exact h
  | create _ _ _ _ _ =>
    obtain ⟨_, _, _, _, _, _, _, hs⟩ := RoomManager.created_eq _ _ _ s
    rw [hs]
    exact h
  | join _ _ _ _ _ _ =>
    rw [RoomManager.joined_eq]
    exact h
  | gameEnd _ _ _ =>
    rw [PersonManager.changePersonStatus_eq]
    exact h
  | everyone may => cases may <;> exact h
  | _ => first | exact h | exact fun _ hm => absurd hm List.not_mem_nil

theorem Config.serving (h : Config env k s) : Serving k s := by
  induction h with
  | boot => exact fun _ hm => absurd hm List.not_mem_nil
  | step reached move ih => exact serving_step move reached.users ih

/-- The maps of a configuration -/
def Links (k : List Frame) (s : Server) : Prop :=
  Linked (k.filterMap Frame.dropping?) (k.filterMap Frame.unbinding?) s.connects s.fdToUserId s.userIdToFd

/-- A login that succeeds comes from a connection without a user. -/
def FreshLogin (k : List Frame) (s s' : Server) : Prop :=
  ∀ {fd fd' u : Int} {user : Option Int} {mess : CMessage}, k = [.handling fd user mess] →
    s'.trace = .playerLogin fd' u :: s.trace → user = none

theorem links_step (move : Step env k s k' s') (users : Users k s) (fresh : FreshLogin k s s') (h : Links k s) :
    Links k' s' := by
  cases move with
  | drop _ _ =>
    obtain ⟨_, _, _, _, _, hs⟩ := dropConnection_eq _ _ s
    rw [hs]
    exact Linked.drop h
  | dropAnon anon => exact Linked.dropped h fun hm => absurd hm (Map.notMem_of_getElem? anon)
  | @dropStale _ _ fd userId user stale =>
    refine Linked.dropped h fun _ => ⟨userId, ?_⟩
    exact (Registry.bound users user).resolve_left (by simp [stale])
  | logout user bound =>
    have here := (Registry.bound users user).resolve_right fun pending => by
      simp [Registry.unbound users pending] at bound
    obtain rfl := Option.some.inj (here.symm.trans bound)
    exact Linked.logout h user
  | logoutDone =>
    exact Linked.done h (Registry.unbound users List.mem_cons_self) (Registry.distinct users)
  | leave _ _ _ _ =>
    unfold Links
    rw [List.filterMap_cons_none (Room.departing_unbinding _ _ _), List.filterMap_cons_none (Room.departing_dropping _ _ _)]
    exact h
  | left =>
    rw [PersonManager.changePersonStatus_eq]
    exact h
  | enter conn anon _ person =>
    rw [enter_eq person (users.userIdToFd_none (PersonManager.personLogin_eq person).1)] at fresh ⊢
    obtain rfl := fresh rfl rfl
    exact Linked.enter h (Map.mem_of_getElem? conn) anon
  | heartbeat _ old =>
    obtain ⟨_, _, rfl⟩ := Heartbeat.erased old
    exact h
  | create _ _ _ _ _ =>
    obtain ⟨_, _, _, _, _, _, _, hs⟩ := RoomManager.created_eq _ _ _ s
    rw [hs]
    exact h
  | join _ _ _ _ _ _ =>
    rw [RoomManager.joined_eq]
    exact h
  | gameEnd _ _ _ =>
    rw [PersonManager.changePersonStatus_eq]
    exact h
  | acceptFail sock acc _ =>
    obtain ⟨_, _, _, _, _, rfl⟩ := acceptSocket_eq sock acc
    exact h
  | acceptLost sock acc _ =>
    obtain ⟨_, _, _, _, _, rfl⟩ := acceptSocket_eq sock acc
    exact h
  | accept _ sock acc _ =>
    obtain ⟨_, _, _, hs⟩ := accepted_eq _ _ _
    rw [hs]
    obtain ⟨_, _, _, _, _, rfl⟩ := acceptSocket_eq sock acc
    exact Linked.accept h _
  | everyone may => cases may <;> exact h
  | _ => exact h

theorem loginsFresh_of_suffix {older newer : List Event} (h : older <:+ newer) (fresh : loginsFresh newer) :
    loginsFresh older := by
  obtain ⟨events, rfl⟩ := h
  induction events with
  | nil => exact fresh
  | cons e events ih =>
    refine ih ?_
    cases e with
    | playerLogin _ _ =>
      simp only [List.cons_append, loginsFresh, Bool.and_eq_true] at fresh
      exact fresh.2
    | _ => exact fresh

/-- The login was noted right after the request that it is for. -/
theorem Serving.freshLogin (h : Serving k s) (fresh : loginsFresh s'.trace) : FreshLogin k s s' := by
  rintro fd fd' u user mess rfl trace
  have served : servedUser s.trace = user := h user List.mem_cons_self
  rw [trace, loginsFresh, Bool.and_eq_true, served] at fresh
  exact Option.isNone_iff_eq_none.mp fresh.1

theorem Config.links (h : Config env k s) (fresh : loginsFresh s.trace) : Links k s := by
  induction h with
  | boot booted =>
    unfold Links
    rw [booted.connects, booted.fdToUserId, booted.userIdToFd]
    exact Linked.empty
  | step reached move ih =>
    have before := ih (loginsFresh_of_suffix (trace_step move) fresh)
    exact links_step move reached.users (reached.serving.freshLogin fresh) before

/-! ### Bindings -/

/-- Connections and users are bound one to one, and exactly the bound users have a `Person`. -/
structure BindingsAgree (s : Server) : Prop where
  inverse : ∀ fd u : Int, s.fdToUserId[fd]? = some u ↔ s.userIdToFd[u]? = some fd
  live : ∀ fd u : Int, s.fdToUserId[fd]? = some u ∨ s.userIdToFd[u]? = some fd → fd ∈ s.connects
  person : ∀ u : Int, u ∈ s.persons ↔ u ∈ s.userIdToFd
  unique : ∀ fd fd' u u' : Int, s.fdToUserId[fd]? = some u → s.fdToUserId[fd']? = some u' → (fd = fd' ↔ u = u')

/-- With nothing pending, the bindings agree. -/
theorem BindingsAgree.of_links (users : Registry [] [] s.fdToUserId s.userIdToFd s.persons)
    (links : Linked [] [] s.connects s.fdToUserId s.userIdToFd) : BindingsAgree s := by
  have bound : ∀ fd u : Int, s.fdToUserId[fd]? = some u → s.userIdToFd[u]? = some fd :=
    fun fd u hu => (users.bound hu).resolve_right List.not_mem_nil
  refine ⟨fun fd u => ⟨bound fd u, links.inverse⟩, fun fd u hu => ?_, fun u => ?_, fun fd fd' u u' hu hu' => ?_⟩
  · have hfd : fd ∈ s.fdToUserId := Map.mem_of_getElem? (hu.elim id links.inverse)
    rcases links.live hfd with live | dropping | ⟨v, unbinding⟩
    · exact live
    · exact absurd dropping List.not_mem_nil
    · exact absurd unbinding List.not_mem_nil
  · rw [users.person, or_iff_left List.not_mem_nil]
  · constructor
    · rintro rfl
      exact Option.some.inj (hu.symm.trans hu')
    · rintro rfl
      exact Option.some.inj ((bound fd u hu).symm.trans (bound fd' u hu'))

/-- In a run in which no connection with a user logs in, the bindings agree. -/
theorem bindings_agree (h : Reachable env s) (fresh : loginsFresh s.trace) : BindingsAgree s :=
  .of_links h.config.users (h.config.links fresh)

/-- A second login on a connection binds the user 2 to descriptor 1, which is no connection. -/
theorem second_login_breaks_bindings :
    ∃ s, Reachable (Script.oneClient (Script.request 0 ++ Script.request 0)) s ∧ ¬BindingsAgree s := by
  obtain ⟨s, reachable, test⟩ := exists_of_ends 2
    (fun s => s.userIdToFd[(2 : Int)]? == some 1 && !s.connects.contains 1)
    (Script.reachable (Script.oneClient (Script.request 0 ++ Script.request 0))) (by decide +kernel)
  simp only [Bool.and_eq_true, beq_iff_eq, Bool.not_eq_true', ← Bool.not_eq_true, Std.ExtTreeMap.contains_iff_mem] at test
  exact ⟨s, reachable, fun agree => test.2 (agree.live 1 2 (.inr test.1))⟩

/-- After one login the bindings agree. -/
theorem bindings_agree_after_login :
    ∃ s, Reachable (Script.oneClient (Script.request 0)) s ∧ s.fdToUserId[(4 : Int)]? = some 1 ∧ BindingsAgree s := by
  obtain ⟨s, reachable, test⟩ := exists_of_ends 2
    (fun s => s.fdToUserId[(4 : Int)]? == some 1 && loginsFresh s.trace)
    (Script.reachable (Script.oneClient (Script.request 0))) (by decide +kernel)
  simp only [Bool.and_eq_true, beq_iff_eq] at test
  exact ⟨s, reachable, test.1, bindings_agree reachable test.2⟩

end IslandSurvival

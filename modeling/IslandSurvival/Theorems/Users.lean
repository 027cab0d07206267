import IslandSurvival.Theorems.Refine

/-! Which users the server knows. The two maps of `MessageHandler` and the `Person` objects move
    together: every connection that acts for a user is the one that the user is bound to, and a user has
    a `Person` exactly while it is bound. A logout takes several steps, so both hold up to the logouts
    that are pending. -/

namespace IslandSurvival

/-- The user and the descriptor that a pending logout unbinds. -/
def Frame.unbinding? : Frame → Option (Int × Int)
  | .logout _ userId fd' => some (userId, fd')
  | .exited _ userId fd' => some (userId, fd')
  | .forgotten _ userId fd' => some (userId, fd')
  | _ => none

/-- The user whose `Person` a pending logout has still to erase. -/
def Frame.leaver? : Frame → Option Int
  | .logout _ userId _ => some userId
  | .exited _ userId _ => some userId
  | _ => none

/-- The records of the users, up to the logouts `unbinding`; `leavers` still have their `Person`. -/
structure Registry (unbinding : List (Int × Int)) (leavers : List Int) (fdToUserId userIdToFd : Map Int)
    (persons : Map Person) : Prop where
  bound : ∀ {fd u : Int}, fdToUserId[fd]? = some u → userIdToFd[u]? = some fd ∨ (u, fd) ∈ unbinding
  unbound : ∀ {u fd : Int}, (u, fd) ∈ unbinding → userIdToFd[u]? = none
  distinct : (unbinding.map Prod.fst).Nodup
  person : ∀ u, u ∈ persons ↔ u ∈ userIdToFd ∨ u ∈ leavers
  leaver : ∀ {u : Int}, u ∈ leavers → userIdToFd[u]? = none
  nodup : leavers.Nodup
  userId : ∀ {u : Int} {person : Person}, persons[u]? = some person → person.userId = u

namespace Registry

variable {unbinding : List (Int × Int)} {leavers : List Int} {fdToUserId userIdToFd : Map Int}
  {persons : Map Person} {fd u : Int}

theorem changed (h : Registry unbinding leavers fdToUserId userIdToFd persons) (status : PersonStatus) :
    Registry unbinding leavers fdToUserId userIdToFd (PersonManager.changed u status persons) where
  bound := h.bound
  unbound := h.unbound
  distinct := h.distinct
  person v := by rw [PersonManager.mem_changed, h.person]
  leaver := h.leaver
  nodup := h.nodup
  userId {v person} hv := by
    by_cases huv : v = u
    · subst huv
      rw [PersonManager.changed_self, Option.map_eq_some_iff] at hv
      obtain ⟨old, hold, rfl⟩ := hv
      exact (h.userId hold :)
    · exact h.userId (PersonManager.changed_ne huv status persons ▸ hv)

theorem empty : Registry [] [] ∅ ∅ ∅ where
  bound := by simp
  unbound := by simp
  distinct := by simp
  person := by simp
  leaver := by simp
  nodup := by simp
  userId := by simp

/-- A login of a user without a `Person` -/
theorem enter (h : Registry [] [] fdToUserId userIdToFd persons) {person : Person} (free : persons[u]? = none)
    (userId : person.userId = u) :
    Registry [] [] (fdToUserId.insert fd u) (userIdToFd.insert u fd) (persons.insert u person) where
  bound {fd' v} hv := by
    rw [Map.getElem?_insert] at hv
    left
    split at hv
    · obtain rfl : u = v := Option.some.inj hv
      subst fd'
      simp
    · have hb := (h.bound hv).resolve_right List.not_mem_nil
      have hne : u ≠ v := by
        rintro rfl
        exact Map.notMem_of_getElem? free ((h.person u).mpr (.inl (Map.mem_of_getElem? hb)))
      rwa [Map.getElem?_insert, if_neg hne]
  unbound hm := absurd hm List.not_mem_nil
  distinct := List.nodup_nil
  person v := by
    rw [Map.mem_insert, Map.mem_insert, h.person, or_assoc]
  leaver hm := absurd hm List.not_mem_nil
  nodup := List.nodup_nil
  userId {v p} hv := by
    rw [Map.getElem?_insert] at hv
    split at hv
    · obtain rfl := Option.some.inj hv
      exact userId.trans ‹_›
    · exact h.userId hv

theorem logout (h : Registry unbinding leavers fdToUserId userIdToFd persons) (bound : userIdToFd[u]? = some fd) :
    Registry ((u, fd) :: unbinding) (u :: leavers) fdToUserId (userIdToFd.erase u) persons where
  bound {fd' v} hv := by
    rcases h.bound hv with hb | hp
    · by_cases huv : u = v
      · subst huv
        obtain rfl : fd = fd' := Option.some.inj (bound.symm.trans hb)
        exact .inr List.mem_cons_self
      · exact .inl (by rwa [Map.getElem?_erase, if_neg huv])
    · exact .inr (List.mem_cons_of_mem _ hp)
  unbound {v fd'} hm := by
    rw [Map.getElem?_erase]
    split
    · rfl
    · rename_i huv
      rcases List.mem_cons.mp hm with heq | hm
      · exact absurd (Prod.mk.inj heq).1.symm huv
      · exact h.unbound hm
  distinct := by
    refine List.nodup_cons.mpr ⟨fun hm => ?_, h.distinct⟩
    obtain ⟨⟨v, fd'⟩, hv, rfl⟩ := List.mem_map.mp hm
    simp [h.unbound hv] at bound
  person v := by
    have hu : u ∈ userIdToFd := Map.mem_of_getElem? bound
    rw [h.person, Map.mem_erase, List.mem_cons]
    by_cases huv : u = v
    · subst huv
      simp [hu]
    · simp [huv, Ne.symm huv]
  leaver {v} hm := by
    rw [Map.getElem?_erase]
    split
    · rfl
    · rename_i huv
      exact h.leaver ((List.mem_cons.mp hm).resolve_left fun heq => huv heq.symm)
  nodup := List.nodup_cons.mpr ⟨fun hm => by simp [h.leaver hm] at bound, h.nodup⟩
  userId := h.userId

/-- `PersonLogout` of the innermost logout -/
theorem forget (h : Registry unbinding (u :: leavers) fdToUserId userIdToFd persons) :
    Registry unbinding leavers fdToUserId userIdToFd (persons.erase u) where
  bound := h.bound
  unbound := h.unbound
  distinct := h.distinct
  person v := by
    have hu : u ∉ userIdToFd := Map.notMem_of_getElem? (h.leaver List.mem_cons_self)
    have hn : u ∉ leavers := (List.nodup_cons.mp h.nodup).1
    rw [Map.mem_erase, h.person, List.mem_cons]
    by_cases huv : u = v
    · subst huv
      simp [hu, hn]
    · simp [huv, Ne.symm huv]
  leaver hm := h.leaver (List.mem_cons_of_mem _ hm)
  nodup := (List.nodup_cons.mp h.nodup).2
  userId {v person} hv := by
    rw [Map.getElem?_erase] at hv
    split at hv
    · cases hv
    · exact h.userId hv

theorem done (h : Registry ((u, fd) :: unbinding) leavers fdToUserId userIdToFd persons) :
    Registry unbinding leavers (fdToUserId.erase fd) userIdToFd persons where
  bound {fd' v} hv := by
    rw [Map.getElem?_erase] at hv
    split at hv
    · cases hv
    · rename_i hfd
      refine (h.bound hv).imp_right fun hm => (List.mem_cons.mp hm).resolve_left fun heq => hfd ?_
      exact (Prod.mk.inj heq).2.symm
  unbound hm := h.unbound (List.mem_cons_of_mem _ hm)
  distinct := (List.nodup_cons.mp h.distinct).2
  person := h.person
  leaver := h.leaver
  nodup := h.nodup
  userId := h.userId

end Registry

/-- The users of a configuration -/
def Users (k : List Frame) (s : Server) : Prop :=
  Registry (k.filterMap Frame.unbinding?) (k.filterMap Frame.leaver?) s.fdToUserId s.userIdToFd s.persons

theorem Room.departing_unbinding (u : Int) (p : RoomPtr) (r : Room) : (r.departing u p).unbinding? = none := by
  unfold Room.departing
  split <;> rfl

theorem Room.departing_leaver (u : Int) (p : RoomPtr) (r : Room) : (r.departing u p).leaver? = none := by
  unfold Room.departing
  split <;> rfl

variable {env : Env} {k k' : List Frame} {s s' : Server}

/-- A user without a `Person` is not bound. -/
theorem Users.userIdToFd_none {u : Int} (h : Users k s) (free : s.persons[u]? = none) : s.userIdToFd[u]? = none := by
  rw [Option.eq_none_iff_forall_ne_some]
  intro fd bound
  exact Map.notMem_of_getElem? free ((Registry.person h u).mpr (.inl (Map.mem_of_getElem? bound)))

/-- A user for whom a message is processed has a `Person`. -/
theorem Users.mem_persons {fd fd' u : Int} {user : Option Int} {mess : CMessage}
    (h : Users [.handling fd user mess] s) (bound : s.fdToUserId[fd']? = some u) : u ∈ s.persons := by
  have here := (Registry.bound h bound).resolve_right List.not_mem_nil
  exact (Registry.person h u).mpr (.inl (Map.mem_of_getElem? here))

theorem users_step (move : Step env k s k' s') (h : Users k s) : Users k' s' := by
  cases move with
  | drop _ _ =>
    obtain ⟨_, _, _, _, _, hs⟩ := dropConnection_eq _ _ s
    rw [hs]
    exact h
  | logout _ bound => exact Registry.logout h bound
  | noPerson none =>
    have mem : _ ∈ s.persons := (Registry.person h _).mpr (.inr List.mem_cons_self)
    exact absurd mem (Map.notMem_of_getElem? none)
  | leave _ _ _ _ =>
    unfold Users
    rw [List.filterMap_cons_none (Room.departing_unbinding _ _ _), List.filterMap_cons_none (Room.departing_leaver _ _ _)]
    exact h
  | forget => exact Registry.forget h
  | logoutDone => exact Registry.done h
  | left =>
    rw [PersonManager.changePersonStatus_eq]
    exact Registry.changed h _
  | enter _ _ _ person =>
    have free := (PersonManager.personLogin_eq person).1
    rw [enter_eq person (h.userIdToFd_none free)]
    exact Registry.enter h free rfl
  | heartbeat _ old =>
    obtain ⟨_, _, rfl⟩ := Heartbeat.erased old
    exact h
  | create _ _ _ _ _ =>
    obtain ⟨_, _, _, _, _, _, _, hs⟩ := RoomManager.created_eq _ _ _ s
    rw [hs]
    exact Registry.changed h _
  | join _ _ _ _ _ _ =>
    rw [RoomManager.joined_eq]
    exact Registry.changed h _
  | gameEnd _ _ _ =>
    rw [PersonManager.changePersonStatus_eq]
    exact Registry.changed h _
  | acceptFail sock acc _ =>
    obtain ⟨_, _, _, _, _, rfl⟩ := acceptSocket_eq sock acc
    exact h
  | acceptLost sock acc _ =>
    obtain ⟨_, _, _, _, _, rfl⟩ := acceptSocket_eq sock acc
    exact h
  | accept _ sock acc _ =>
    obtain ⟨_, _, _, hs⟩ := accepted_eq _ _ _
    rw [hs]
    obtain ⟨_, _, _, _, _, rfl⟩ := acceptSocket_eq sock acc
    exact h
  | everyone may => cases may <;> exact h
  | _ => exact h

theorem Config.users (h : Config env k s) : Users k s := by
  induction h with
  | boot booted =>
    unfold Users
    rw [booted.fdToUserId, booted.userIdToFd, booted.persons]
    exact Registry.empty
  | step _ move ih => exact users_step move ih

end IslandSurvival

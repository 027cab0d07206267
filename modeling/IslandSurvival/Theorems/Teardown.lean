import IslandSurvival.Theorems.Connections
import IslandSurvival.Theorems.Heartbeats
import IslandSurvival.Theorems.Membership

/-! The teardown of a connection. `DeleteClientByFD` goes through the connections, the heartbeats, the maps, the
    persons and the rooms, and may delete other clients while its own updates are half done; when it returns, the
    records agree as before, and neither the descriptor nor its user is left in any of them. -/

namespace IslandSurvival

open Prog

variable {env : Env} {k k' : List Frame} {s s' : Server}

/-! ### Free rooms -/

/-- Nobody is online in a room on the free list. -/
def Idle (s : Server) : Prop := ∀ p ∈ s.freeRoom, (s.room p).members = []

namespace Idle

theorem setRoom (h : Idle s) {p : RoomPtr} {r : Room} (members : r.members = (s.room p).members) :
    Idle (s.setRoom p r) := by
  intro q free
  rw [Server.setRoom_congr members]
  exact h q free

/-- An update of a room that is in use -/
theorem used (h : Idle s) (rooms : Rooms s) {id : Int} {p : RoomPtr} (room : s.rooms[id]? = some p) (r : Room) :
    Idle (s.setRoom p r) := by
  intro q free
  have other : q ≠ p := by
    rintro rfl
    have none := (rooms.table.free free).2
    rw [(rooms.table.room room).2, room] at none
    cases none
  rw [Server.setRoom_room_ne other]
  exact h q free

end Idle

theorem idle_step (move : Step env k s k' s') (users : Users k s) (rooms : Rooms s) (snapshot : Snapshot k s)
    (housed : Housed s) (h : Idle s) : Idle s' := by
  cases move with
  | drop _ _ =>
    obtain ⟨_, _, _, _, _, hs⟩ := dropConnection_eq _ _ s
    rw [hs]
    exact h
  | leave _ _ belong _ =>
    obtain ⟨id, room⟩ := housed.room belong
    exact h.used rooms room _
  | left =>
    rw [PersonManager.changePersonStatus_eq]
    exact h
  | enter _ _ _ person =>
    rw [enter_eq person (users.userIdToFd_none (PersonManager.personLogin_eq person).1)]
    exact h
  | heartbeat _ old =>
    obtain ⟨_, _, rfl⟩ := Heartbeat.erased old
    exact h
  | @create _ _ u _ gameMode teamMode _ _ _ =>
    obtain ⟨p, roomId, freeRoom, roomCnt, nextRoomId, garbage, takes, hs⟩ :=
      RoomManager.created_eq u gameMode teamMode s
    rw [hs]
    intro q free
    have other : q ≠ p ∧ q ∈ s.freeRoom := by
      cases takes with
      | free list =>
        have nodup := rooms.table.nodup
        rw [list, List.nodup_cons] at nodup
        refine ⟨?_, list ▸ List.mem_cons_of_mem _ free⟩
        rintro rfl
        exact nodup.1 free
      | new _ => exact absurd free List.not_mem_nil
    simp only
    rw [Function.update_of_ne other.1]
    exact h q other.2
  | join _ _ room _ _ _ =>
    rw [RoomManager.joined_eq]
    exact h.used rooms room _
  | exitRoom belong _ _ =>
    obtain ⟨id, room⟩ := housed.room belong
    exact h.used rooms room _
  | @change _ _ u _ p teamId gameOption _ _ =>
    obtain ⟨_, _, hr⟩ := MP.applyChange_eq u teamId gameOption (s.room p)
    rw [hr]
    exact h.setRoom (Room.members_congr rfl rfl rfl)
  | gameEnd belong _ _ =>
    obtain ⟨id, room⟩ := housed.room belong
    rw [PersonManager.changePersonStatus_eq]
    exact h.used rooms room _
  | @recycle _ id p _ empty =>
    obtain ⟨rfl, room⟩ : s.rooms = _ ∧ _[id]? = some p := snapshot _ List.mem_cons_self
    have none := (rooms.counted (rooms.table.room room).1).onlineSlots_nil empty
    intro q free
    rcases List.mem_append.mp free with free | here
    · exact h q free
    · obtain rfl := List.mem_singleton.mp here
      exact Room.members_eq_nil none
  | acceptFail sock acc _ =>
    obtain ⟨_, _, _, _, _, rfl⟩ := acceptSocket_eq sock acc
    exact h
  | acceptLost sock acc _ =>
    obtain ⟨_, _, _, _, _, rfl⟩ := acceptSocket_eq sock acc
    exact h
  | accept _ sock acc _ =>
    obtain ⟨_, _, _, hs⟩ := accepted_eq _ _ _
    rw [hs]
    obtain ⟨_, _, _, _, _, rfl⟩ := acceptSocket_eq sock acc
    exact h
  | _ =>
    first
    | exact h
    | exact h.setRoom (Room.members_congr rfl rfl rfl)

theorem Config.idle (h : Config env k s) : Idle s := by
  induction h with
  | boot booted =>
    intro p free
    rw [booted.freeRoom] at free
    exact absurd free List.not_mem_nil
  | step reached move ih => exact idle_step move reached.users reached.rooms reached.snapshot reached.tenancy.1 ih

/-! ### The records -/

/-- The records of the connections, the users and the rooms agree with each other. -/
structure RecordsAgree (s : Server) : Prop where
  bindings : BindingsAgree s
  heartbeats : HeartbeatsAgree s
  membership : MembershipAgrees s
  userId : ∀ {u : Int} {person : Person}, s.persons[u]? = some person → person.userId = u
  /-- users are bound to rooms in use, and nobody is in the others -/
  inUse : ∀ {u : Int} {p : RoomPtr}, s.belongRoom[u]? = some p → ∃ id : Int, s.rooms[id]? = some p
  idle : Idle s
  rooms : Rooms s

/-- The records of a configuration, up to what is pending -/
structure Records (k : List Frame) (s : Server) : Prop where
  users : Users k s
  links : Links k s
  heartbeats : HeartbeatsAgree s
  snapshot : Snapshot k s
  rooms : Rooms s
  housed : Housed s
  idle : Idle s
  membership : Membership k s

theorem records_step (move : Step env k s k' s') (fresh : FreshLogin k s s') (ended : EndsInGame k s s')
    (h : Records k s) : Records k' s' where
  users := users_step move h.users
  links := links_step move h.users fresh h.links
  heartbeats := h.heartbeats.step move
  snapshot := snapshot_step move h.snapshot
  rooms := rooms_step move h.snapshot h.rooms
  housed := (housed_step move h.users h.rooms h.snapshot h.housed).1
  idle := idle_step move h.users h.rooms h.snapshot h.housed h.idle
  membership := membership_step move h.users h.rooms h.housed h.snapshot ended h.membership

/-- The activation that deletes a client on behalf of the main loop -/
abbrev tearing (fd : Int) : List Frame := [.expiring fd none]

theorem tearing_ne {fd fd' : Int} {user : Option Int} {mess : CMessage} :
    k ++ tearing fd ≠ [.handling fd' user mess] := by
  intro same
  have last := congrArg List.getLast? same
  simp at last

/-- A teardown keeps the records, up to what is pending. -/
theorem stable_records (env : Env) (fd : Int) : Stable env (tearing fd) fun k t => Records (k ++ tearing fd) t where
  step move h := records_step move (fun here => absurd here tearing_ne) (fun here => absurd here tearing_ne) h

theorem RecordsAgree.records {fd : Int} (h : RecordsAgree s) : Records (tearing fd) s where
  users := {
    bound := fun hu => .inl ((h.bindings.inverse _ _).mp hu)
    unbound := nofun
    distinct := List.nodup_nil
    person := fun u => (h.bindings.person u).trans (or_iff_left List.not_mem_nil).symm
    leaver := nofun
    nodup := List.nodup_nil
    userId := h.userId }
  links := {
    inverse := (h.bindings.inverse _ _).mpr
    live := fun mem => by
      obtain ⟨u, hu⟩ := Map.mem_iff.mp mem
      exact .inl (h.bindings.live _ u (.inl hu))
    pending := nofun }
  heartbeats := h.heartbeats
  snapshot := nofun
  rooms := h.rooms
  housed := {
    room := h.inUse
    member := fun {u p} belong => by
      obtain ⟨id, room⟩ := h.inUse belong
      exact Room.mem_members.mpr ((h.membership.slot room u).mp belong) }
  idle := h.idle
  membership := by
    refine ⟨⟨fun room u mem => (h.membership.slot room u).mpr (Room.mem_members.mp mem), fun {id p} room => ?_⟩, ?_⟩
    · refine List.Nodup.map_on (fun i hi j hj same => ?_) (Room.slots_nodup.filter _)
      obtain ⟨hi, online⟩ := List.mem_filter.mp hi
      obtain ⟨hj, online'⟩ := List.mem_filter.mp hj
      obtain ⟨hi, hn⟩ := Room.mem_slots.mp hi
      obtain ⟨hj, hm⟩ := Room.mem_slots.mp hj
      exact (h.membership.unique room room hi hn online hj hm online' same).2
    · exact ⟨(h.membership.person _).mp, fun here inRoom => .inl ((h.membership.person _).mpr ⟨_, here, inRoom⟩), nofun⟩

theorem Records.agree {fd : Int} (h : Records (tearing fd) s) : RecordsAgree s where
  bindings := .of_links h.users h.links
  heartbeats := h.heartbeats
  membership := .of_seats h.housed h.membership.1 h.membership.2
  userId := h.users.userId
  inUse := h.housed.room
  idle := h.idle
  rooms := h.rooms

/-- In a run in which no connection with a user logs in and only running games are ended, all records agree. -/
theorem records_agree (h : Reachable env s) (fresh : loginsFresh s.trace) (inGame : gamesEndInGame s.trace) :
    RecordsAgree s where
  bindings := .of_links h.config.users (h.config.links fresh)
  heartbeats := h.config.heartbeats
  membership := .of_seats h.config.tenancy.1 (h.config.membership inGame).1 (h.config.membership inGame).2
  userId := h.config.users.userId
  inUse := h.config.tenancy.1.room
  idle := h.config.idle
  rooms := h.config.rooms

/-! ### What a teardown removes -/

/-- Only a request binds a user. -/
theorem bound_step (move : Step env k s k' s') (torn : ∀ fd user mess, k ≠ [.handling fd user mess]) {u fd : Int}
    (bound : s'.userIdToFd[u]? = some fd) : s.userIdToFd[u]? = some fd := by
  cases move with
  | drop _ _ =>
    obtain ⟨_, _, _, _, _, hs⟩ := dropConnection_eq _ _ s
    rwa [hs] at bound
  | logout _ _ =>
    rw [Map.getElem?_erase] at bound
    split at bound
    · cases bound
    · exact bound
  | left => rwa [PersonManager.changePersonStatus_eq] at bound
  | enter _ _ _ _ => exact absurd rfl (torn _ _ _)
  | heartbeat _ _ => exact absurd rfl (torn _ _ _)
  | create _ _ _ _ _ => exact absurd rfl (torn _ _ _)
  | join _ _ _ _ _ _ => exact absurd rfl (torn _ _ _)
  | gameEnd _ _ _ => exact absurd rfl (torn _ _ _)
  | acceptFail sock acc _ =>
    obtain ⟨_, _, _, _, _, rfl⟩ := acceptSocket_eq sock acc
    exact bound
  | acceptLost sock acc _ =>
    obtain ⟨_, _, _, _, _, rfl⟩ := acceptSocket_eq sock acc
    exact bound
  | accept _ sock acc _ =>
    obtain ⟨_, _, _, hs⟩ := accepted_eq _ _ _
    rw [hs] at bound
    obtain ⟨_, _, _, _, _, rfl⟩ := acceptSocket_eq sock acc
    exact bound
  | _ => exact bound

theorem stable_bound (env : Env) (fd : Int) (s : Server) : Stable env (tearing fd) fun _ t =>
    ∀ u fd' : Int, t.userIdToFd[u]? = some fd' → s.userIdToFd[u]? = some fd' where
  step move h u fd' bound := h u fd' (bound_step move (fun _ _ _ => tearing_ne) bound)

/-- A descriptor that is in no record -/
structure Gone (fd : Int) (t : Server) : Prop where
  connects : fd ∉ t.connects
  fdToUserId : fd ∉ t.fdToUserId
  userIdToFd : ∀ u : Int, t.userIdToFd[u]? ≠ some fd
  fdToSec : fd ∉ t.fdToSec
  secFd : ∀ sec : Int, (sec, fd) ∉ t.secFd

/-- A user that is in no record -/
structure Away (u : Int) (t : Server) : Prop where
  userIdToFd : u ∉ t.userIdToFd
  fdToUserId : ∀ fd : Int, t.fdToUserId[fd]? ≠ some u
  persons : u ∉ t.persons
  belongRoom : u ∉ t.belongRoom
  slots : ∀ p < t.roomCnt, ∀ i, 1 ≤ i → i ≤ (t.room p).playerCnt → (t.room p).isOnline i = true →
    (t.room p).players i ≠ u

theorem RecordsAgree.gone {fd : Int} (h : RecordsAgree s) (closed : fd ∉ s.connects) : Gone fd s where
  connects := closed
  fdToUserId mem := by
    obtain ⟨u, bound⟩ := Map.mem_iff.mp mem
    exact closed (h.bindings.live fd u (.inl bound))
  userIdToFd u bound := closed (h.bindings.live fd u (.inr bound))
  fdToSec := mt (h.heartbeats.keys fd).mp closed
  secFd sec mem := by
    have found := (h.heartbeats.pairs sec fd).mp mem
    exact closed ((h.heartbeats.keys fd).mp (Map.mem_of_getElem? found))

theorem RecordsAgree.away {u : Int} (h : RecordsAgree s) (unbound : u ∉ s.userIdToFd) : Away u s := by
  have persons : u ∉ s.persons := mt (h.bindings.person u).mp unbound
  have belongRoom : u ∉ s.belongRoom := by
    intro mem
    obtain ⟨person, here, -⟩ := (h.membership.person u).mp mem
    exact persons (Map.mem_of_getElem? here)
  refine ⟨unbound, fun fd bound => ?_, persons, belongRoom, fun p alloc i hi hn online player => ?_⟩
  · exact unbound (Map.mem_of_getElem? ((h.bindings.inverse fd u).mp bound))
  · rcases h.rooms.table.placed alloc with room | free
    · exact belongRoom (Map.mem_of_getElem? ((h.membership.slot room u).mpr ⟨i, hi, hn, online, player⟩))
    · have member : u ∈ (s.room p).members := Room.mem_members.mpr ⟨i, hi, hn, online, player⟩
      rw [h.idle p free] at member
      exact absurd member List.not_mem_nil

/-- Whatever writes fail, the teardown of a connection leaves records that agree again, with neither the descriptor
    nor its user; if it does not return, then because an index or a number is out of its bounds. -/
theorem teardown_agrees (env : Env) (s : Server) (agree : RecordsAgree s) (fd : Int) (conn : fd ∈ s.connects) :
    wp (deleteClientByFd env fd)
      (fun _ t => RecordsAgree t ∧ Gone fd t ∧ ∀ u : Int, s.fdToUserId[fd]? = some u → Away u t)
      (fun e _ => e = .outOfBounds ∨ e = .signedOverflow) s := by
  have keeps := deleteClientByFd_spec (stable_records env fd) [] fd s .expire agree.records
  have bound := deleteClientByFd_spec (stable_bound env fd s) [] fd s .expire fun _ _ => id
  have falls := @deleteClientByFd_falls env fd s conn
  have calm := @deleteClientByFd_calm env fd s
  refine wp_mono (wp_and (wp_and keeps bound) (wp_and falls calm)) ?_ ?_
  · rintro - t ⟨⟨records, kept⟩, ⟨-, closed⟩, -⟩
    have agree' := Records.agree records
    refine ⟨agree', agree'.gone closed, fun u user => agree'.away fun mem => ?_⟩
    -- the user would still have the connection that is gone
    obtain ⟨fd', there⟩ := Map.mem_iff.mp mem
    have before := kept u fd' there
    rw [(agree.bindings.inverse fd u).mp user] at before
    obtain rfl := Option.some.inj before
    exact closed (agree'.bindings.live fd u (.inr there))
  · rintro e t ⟨-, ⟨noFuel, -⟩, numeric⟩
    simp only [Fault.Numeric, List.mem_cons, List.not_mem_nil, or_false] at numeric
    rcases numeric with out | overflow | fuel
    · exact .inl out
    · exact .inr overflow
    · exact absurd fuel noFuel

/-- Three users wait in a room, and from then on every write fails. -/
def Script.brokenRoom : Env := party (fun _ => []) (fun _ => none) fun n => 46 ≤ n

/-- The teardown of the first client takes the two others along. -/
theorem teardown_agrees_brokenRoom : ∃ s t, Reachable Script.brokenRoom s ∧ s.connects.size = 3 ∧
    deleteClientByFd Script.brokenRoom 4 s = .ok () t ∧ t.connects.size = 0 ∧ RecordsAgree t ∧ Gone 4 t ∧ Away 1 t := by
  obtain ⟨s, reachable, test⟩ := exists_of_ends 7
    (fun s => s.connects.size == 3 && s.fdToUserId[(4 : Int)]? == some 1 && s.connects.contains 4 &&
      loginsFresh s.trace && gamesEndInGame s.trace &&
      Returns (deleteClientByFd Script.brokenRoom 4 s) fun t => t.connects.size == 0)
    (Script.reachable Script.brokenRoom) (by decide +kernel)
  simp only [Bool.and_eq_true, beq_iff_eq, Std.ExtTreeMap.contains_iff_mem] at test
  obtain ⟨⟨⟨⟨⟨size, user⟩, conn⟩, fresh⟩, inGame⟩, returns⟩ := test
  obtain ⟨⟨⟩, t, run, empty⟩ := exists_of_returns returns
  have torn := wp_ok (teardown_agrees Script.brokenRoom s (records_agree reachable fresh inGame) 4 conn) run
  exact ⟨s, t, reachable, size, run, beq_iff_eq.mp empty, torn.1, torn.2.1, torn.2.2 1 user⟩

end IslandSurvival

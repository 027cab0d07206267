import IslandSurvival.Theorems.Intake
import IslandSurvival.Theorems.Users

/-! Whose requests the server carries out. A connection acts for a user from a login that the database vouched for until
    it is closed or there is another login on it. -/

namespace IslandSurvival

open Prog

/-- The events after which descriptor `fd` no longer stands for what it did -/
def Event.binds (fd : Int) : Event → Bool
  | .playerLogin fd' _ => fd' = fd
  | .close fd' => fd' = fd
  | _ => false

/-- The newest event about `fd` is a login of `u`. -/
def ActsFor (tr : List Event) (fd u : Int) : Prop := tr.find? (Event.binds fd) = some (.playerLogin fd u)

/-- Every request that was carried out for a user came on a connection that acted for it. -/
def Attributed : List Event → Prop
  | .request fd (some u) _ :: tr => ActsFor tr fd u ∧ Attributed tr
  | _ :: tr => Attributed tr
  | [] => True

/-- The descriptor that a pending logout takes from its user -/
def Frame.closing? : Frame → Option Int
  | .drop fd => some fd
  | .logout _ _ fd' => some fd'
  | .exited _ _ fd' => some fd'
  | .forgotten _ _ fd' => some fd'
  | _ => none

/-- The table says what the trace does, up to the logouts that are pending. -/
structure Sessions (k : List Frame) (s : Server) : Prop where
  acts : ∀ {fd u : Int}, s.fdToUserId[fd]? = some u → ActsFor s.trace fd u ∨ fd ∈ k.filterMap Frame.closing?
  attributed : Attributed s.trace

section
variable {env : Env} {k k' : List Frame} {s s' t : Server} {fd u : Int} {tr : List Event}

theorem ActsFor.cons {e : Event} (h : ActsFor tr fd u) (other : e.binds fd = false) : ActsFor (e :: tr) fd u := by
  unfold ActsFor
  rwa [List.find?_cons_of_neg (by simp [other])]

theorem ActsFor.login : ActsFor (.playerLogin fd u :: tr) fd u :=
  List.find?_cons_of_pos (by simp [Event.binds])

theorem ActsFor.since (h : ActsFor tr fd u) : ∃ newer older, tr = newer ++ .playerLogin fd u :: older ∧
    ∀ e ∈ newer, e.binds fd = false := by
  obtain ⟨-, newer, older, trace, others⟩ := List.find?_eq_some_iff_append.mp h
  exact ⟨newer, older, trace, fun e mem => by simpa using others e mem⟩

theorem Attributed.acts {mess : CMessage} : ∀ {newer older : List Event},
    Attributed (newer ++ .request fd (some u) mess :: older) → ActsFor older fd u
  | [], _, h => h.1
  | e :: newer, older, h => by
    have rest : Attributed (newer ++ .request fd (some u) mess :: older) := by
      cases e with
      | request _ user _ =>
        cases user with
        | none => exact h
        | some _ => exact h.2
      | _ => exact h
    exact rest.acts

/-- A user that is bound nowhere, though its connection still names it, is being logged out. -/
theorem closing_of_unbinding (mem : (u, fd) ∈ k.filterMap Frame.unbinding?) : fd ∈ k.filterMap Frame.closing? := by
  obtain ⟨f, here, unbinds⟩ := List.mem_filterMap.mp mem
  refine List.mem_filterMap.mpr ⟨f, here, ?_⟩
  cases f <;> cases unbinds <;> rfl

theorem Room.departing_closing (u : Int) (p : RoomPtr) (r : Room) : (r.departing u p).closing? = none := by
  unfold Room.departing
  split <;> rfl

namespace Sessions

theorem boot (fdToUserId : s.fdToUserId = ∅) (trace : s.trace = []) : Sessions [] s where
  acts found := by
    rw [fdToUserId] at found
    cases found
  attributed := by
    rw [trace]
    trivial

/-- The table stays as it is, or loses what is closed. -/
theorem popped (h : Sessions (k' ++ k) s) (gone : ∀ fd u : Int, s.fdToUserId[fd]? = some u →
    fd ∈ k'.filterMap Frame.closing? → fd ∈ k.filterMap Frame.closing?) : Sessions k s where
  acts {fd u} found := by
    refine (h.acts found).imp_right fun mem => ?_
    rw [List.filterMap_append] at mem
    rcases List.mem_append.mp mem with here | later
    · exact gone fd u found here
    · exact later
  attributed := h.attributed

theorem drop (h : Sessions k s) (trace : t.trace = .close fd :: s.trace) (table : t.fdToUserId = s.fdToUserId) :
    Sessions (.drop fd :: k) t where
  acts {fd' u} found := by
    by_cases here : fd' = fd
    · exact .inr (here ▸ List.mem_cons_self)
    · refine (h.acts (table ▸ found)).imp (fun acts => ?_) fun mem => List.mem_cons_of_mem _ mem
      rw [trace]
      exact acts.cons (decide_eq_false (Ne.symm here))
  attributed := trace ▸ h.attributed

theorem logoutDone {fd' : Int} (h : Sessions (.forgotten fd u fd' :: k) s) :
    Sessions k { s with fdToUserId := s.fdToUserId.erase fd' } where
  acts {fd'' v} found := by
    rw [Map.getElem?_erase] at found
    split at found
    · cases found
    · rename_i other
      refine (h.acts found).imp_right fun mem => ?_
      exact (List.mem_cons.mp mem).resolve_left (Ne.symm other)
  attributed := h.attributed

theorem login (h : Sessions k s) (table : t.fdToUserId = s.fdToUserId.insert fd u)
    (trace : t.trace = .playerLogin fd u :: s.trace) : Sessions k t where
  acts {fd' v} found := by
    rw [table, Map.getElem?_insert] at found
    rw [trace]
    split at found
    · rename_i here
      obtain rfl := Option.some.inj found
      exact .inl (here ▸ .login)
    · rename_i other
      exact (h.acts found).imp_left fun acts => acts.cons (decide_eq_false other)
  attributed := trace ▸ h.attributed

theorem request (h : Sessions [] s) (mess : CMessage) :
    Sessions [.handling fd s.fdToUserId[fd]? mess] (s.log (.request fd s.fdToUserId[fd]? mess)) where
  acts found := (h.acts found).imp_left fun acts => acts.cons rfl
  attributed := by
    unfold Server.log
    cases user : s.fdToUserId[fd]? with
    | none => exact h.attributed
    | some u => exact ⟨(h.acts user).resolve_right List.not_mem_nil, h.attributed⟩

end Sessions

theorem sessions_step (move : Step env k s k' s') (users : Users k s) (h : Sessions k s) : Sessions k' s' := by
  cases move with
  | drop _ _ =>
    obtain ⟨_, _, _, _, _, hs⟩ := dropConnection_eq _ _ s
    exact h.drop (by rw [hs]) (by rw [hs])
  | dropAnon anon =>
    refine @Sessions.popped _ [_] _ h fun fd u found mem => ?_
    obtain rfl := List.mem_singleton.mp mem
    cases anon.symm.trans found
  | dropStale user stale =>
    refine @Sessions.popped _ [_] _ h fun fd u found mem => ?_
    obtain rfl := List.mem_singleton.mp mem
    obtain rfl := Option.some.inj (user.symm.trans found)
    rcases Registry.bound users user with bound | unbinding
    · cases stale.symm.trans bound
    · exact closing_of_unbinding unbinding
  | @logout k s fd u fd' user bound =>
    -- The user is bound to the descriptor whose connection was erased.
    have same : fd' = fd := by
      rcases Registry.bound users user with here | unbinding
      · exact Option.some.inj (bound.symm.trans here)
      · cases bound.symm.trans (Registry.unbound users unbinding)
    subst same
    exact ⟨h.acts, h.attributed⟩
  | leave _ _ _ _ =>
    refine ⟨fun found => ?_, h.attributed⟩
    rw [List.filterMap_cons_none (Room.departing_closing _ _ _)]
    exact h.acts found
  | logoutDone => exact h.logoutDone
  | left =>
    rw [PersonManager.changePersonStatus_eq]
    exact ⟨h.acts, h.attributed⟩
  | @enter _ _ fd user _ _ _ _ _ _ _ person =>
    have free := (PersonManager.personLogin_eq person).1
    have entered := @enter_eq _ _ (loginArg fd user) _ _ person (users.userIdToFd_none free)
    exact h.login (by rw [entered]) (by rw [entered])
  | request mess _ => exact h.request mess
  | heartbeat _ old =>
    obtain ⟨_, _, rfl⟩ := Heartbeat.erased old
    exact ⟨h.acts, h.attributed⟩
  | create _ _ _ _ _ =>
    obtain ⟨_, _, _, _, _, _, _, hs⟩ := RoomManager.created_eq _ _ _ s
    rw [hs]
    exact ⟨h.acts, h.attributed⟩
  | join _ _ _ _ _ _ =>
    rw [RoomManager.joined_eq]
    exact ⟨h.acts, h.attributed⟩
  | gameEnd _ _ _ =>
    rw [PersonManager.changePersonStatus_eq]
    exact ⟨h.acts, h.attributed⟩
  | acceptFail sock acc _ =>
    obtain ⟨_, _, _, _, _, rfl⟩ := acceptSocket_eq sock acc
    exact ⟨h.acts, h.attributed⟩
  | acceptLost sock acc _ =>
    obtain ⟨_, _, _, _, _, rfl⟩ := acceptSocket_eq sock acc
    exact ⟨h.acts, h.attributed⟩
  | accept _ sock acc _ =>
    obtain ⟨_, _, _, hs⟩ := accepted_eq _ _ _
    rw [hs]
    obtain ⟨_, _, _, _, _, rfl⟩ := acceptSocket_eq sock acc
    exact ⟨h.acts, h.attributed⟩
  | skipSlot _ _ => exact ⟨h.acts, h.attributed⟩
  | everyone may => cases may <;> exact ⟨h.acts, h.attributed⟩
  | _ => exact ⟨h.acts, h.attributed⟩

theorem Config.sessions (h : Config env k s) : Sessions k s := by
  induction h with
  | boot booted => exact .boot booted.fdToUserId booted.trace
  | step reached move ih => exact sessions_step move reached.users ih

/-! ### Logins -/

/-- Every login follows the request for it and the statements with which the database vouched for the user. -/
def Vouched (tr : List Event) : Prop := ∀ newer fd u older, tr = newer ++ .playerLogin fd u :: older →
  ∃ fd' user mess text queries before, older = queries ++ .request fd' user mess :: before ∧ fd = loginArg fd' user ∧
    Login.Accepts mess text queries ∧ ∀ v, Login.sscanfD text = some v → v = u

theorem Vouched.cons {e : Event} (h : Vouched tr) (other : ∀ fd u, e ≠ .playerLogin fd u) : Vouched (e :: tr) := by
  intro newer fd u older trace
  cases newer with
  | nil => exact absurd (List.cons.inj trace).1 (other fd u)
  | cons _ newer => exact h newer fd u older (List.cons.inj trace).2

theorem Vouched.adds {tr' : List Event} (h : Vouched tr) (adds : Adds tr tr') : Vouched tr' := by
  obtain ⟨events, rfl, others⟩ := adds
  induction events with
  | nil => exact h
  | cons e events ih =>
    refine (ih fun e' mem => others e' (List.mem_cons_of_mem _ mem)).cons fun fd u login => ?_
    cases login ▸ others e List.mem_cons_self

theorem Vouched.login {fd' : Int} {user : Option Int} {mess : CMessage} {text : Bytes} {queries before : List Event}
    (h : Vouched tr) (request : tr = queries ++ .request fd' user mess :: before) (accepts : Login.Accepts mess text queries)
    (number : ∀ v, Login.sscanfD text = some v → v = u) : Vouched (.playerLogin (loginArg fd' user) u :: tr) := by
  intro newer fd v older trace
  cases newer with
  | nil =>
    obtain ⟨same, rfl⟩ := List.cons.inj trace
    obtain ⟨rfl, rfl⟩ := Event.playerLogin.inj same
    exact ⟨fd', user, mess, text, queries, before, request, rfl, accepts, number⟩
  | cons e newer => exact h newer fd v older (List.cons.inj trace).2

theorem Serves.vouched (h : Serves env s t) (vouched : Vouched s.trace) : Vouched t.trace := by
  induction h with
  | cascade h => exact vouched.adds h.sheds.trace
  | note _ trace other =>
    rw [trace]
    exact vouched.cons other
  | reset sheds _ _ _ _ => exact vouched.adds sheds.trace
  | beat still _ => exact vouched.adds still.trace
  | enter request accepts number =>
    unfold playerLogin
    split
    · exact vouched.login request accepts number
    · exact vouched
  | trans _ _ ih ih' => exact ih' (ih vouched)

theorem onTick_ticking : Along (Ticking env) (RoomManager.onTick env) := by
  have rooms : ∀ l, Along (Ticking env) (RoomManager.tickRooms env l) := by
    intro l
    induction l with
    | nil => exact .pure
    | cons entry l ih =>
      refine .bind (.bind (fun s => ?_) fun _ => .bind (fun s => .cascade (@getRoom_cascade env entry.2 s)) fun r => ?_) fun _ => ih
      · exact wp_mono (Room.onTick_ticking entry.2 s) (fun _ _ ticked => ticked.1) fun _ _ => id
      · exact .ite (.modify fun s => .cascade (.still (.recycle _ _ rfl s))) .pure
  exact .bind .get fun _ => rooms _

/-- A tick logs nobody in. -/
theorem runOnTick_adds (s : Server) :
    wp (runOnTick env) (fun _ t => Adds s.trace t.trace) (fun _ t => Adds s.trace t.trace) s := by
  simp only [runOnTick, wp_bind, wp_getNowTimeSecond, wp_get]
  refine wp_mono (onTick_ticking s) (fun _ t ticked => ?_) fun _ _ ticked => ticked.sheds.trace
  refine wp_sub32 ?_ fun _ => ticked.sheds.trace
  split
  · exact ticked.sheds.trace
  · simp only [wp_bind, wp_set, Heartbeat.onTick, wp_get]
    exact wp_mono (expireLoop_cascade _ _ _ _) (fun _ _ swept => ticked.sheds.trace.trans swept.sheds.trace)
      fun _ _ swept => ticked.sheds.trace.trans swept.sheds.trace

theorem Reachable.vouched (h : Reachable env s) : Vouched s.trace := by
  induction h with
  | boot booted =>
    intro newer fd u older trace
    rw [booted.trace] at trace
    simp at trace
  | tick _ run ih =>
    have adds := wp_ok (runOnTick_adds _) run
    exact ih.adds adds
  | receive _ run ih =>
    have serves := wp_ok (receiveMessage_serves _) run
    exact serves.vouched ih

theorem Visited.vouched (h : Visited env s) : Vouched s.trace := by
  cases h with
  | reach reached => exact reached.vouched
  | tick reached run =>
    have adds := wp_error (runOnTick_adds _) run
    exact reached.vouched.adds adds
  | receive reached run =>
    have serves := wp_error (receiveMessage_serves _) run
    exact serves.vouched reached.vouched

/-- Wherever the database gave a text for a user id, it holds a number. -/
def idsGiven (tr : List Event) : Bool := tr.all fun e => match e with
  | .query sql _ (.row (some (some text :: _))) =>
    !(Login.ascii "select user_id from login").isPrefixOf sql || (Login.sscanfD text).isSome
  | _ => true

theorem Login.selectUserId_prefix (name : Bytes) :
    (ascii "select user_id from login").isPrefixOf (selectUserId name) = true := by
  have text : ascii "select user_id from login where id = '" = ascii "select user_id from login" ++ ascii " where id = '" := by
    decide
  rw [List.isPrefixOf_iff_prefix, selectUserId, text, List.append_assoc, List.append_assoc]
  exact List.prefix_append _ _

theorem Login.Accepts.number {mess : CMessage} {text : Bytes} {queries : List Event} (h : Login.Accepts mess text queries)
    (given : idsGiven tr = true) (asked : queries ⊆ tr) : ∃ v, Login.sscanfD text = some v := by
  have holds : ∀ {name : Bytes} {length : Nat} {more : List (Option Bytes)},
      .query (Login.selectUserId name) length (.row (some (some text :: more))) ∈ tr → (Login.sscanfD text).isSome := by
    intro name length more mem
    have given := List.all_eq_true.mp given _ mem
    simpa [Login.selectUserId_prefix name] using given
  cases h with
  | login _ _ => exact Option.isSome_iff_exists.mp (holds (asked List.mem_cons_self))
  | regist _ => exact Option.isSome_iff_exists.mp (holds (asked List.mem_cons_self))

/-- Every request that is carried out for a user, at any moment of any run, comes on a descriptor that was bound to this
    user by a login, and was not closed or bound again since; and the database had accepted this very login: it had a row
    with this password for the name, or no row and then entered the name, and the text that it then gave is the number of
    the user. -/
theorem requests_authorised {mess : CMessage} {newer older : List Event} (h : Visited env s) (given : idsGiven s.trace = true)
    (request : s.trace = newer ++ .request fd (some u) mess :: older) :
    ∃ since fd' user login text queries before,
      older = since ++ .playerLogin fd u :: (queries ++ .request fd' user login :: before) ∧
      (∀ e ∈ since, e.binds fd = false) ∧ fd = loginArg fd' user ∧ Login.Accepts login text queries ∧
      Login.sscanfD text = some u := by
  obtain ⟨k, config⟩ := h.config
  have acts : ActsFor older fd u := (request ▸ config.sessions.attributed).acts
  obtain ⟨since, rest, rfl, others⟩ := acts.since
  have trace : s.trace = (newer ++ .request fd (some u) mess :: since) ++ .playerLogin fd u :: rest := by
    rw [request, List.append_assoc, List.cons_append]
  obtain ⟨fd', user, login, text, queries, before, rfl, arg, accepts, number⟩ := h.vouched _ fd u rest trace
  obtain ⟨v, holds⟩ := accepts.number given fun e mem => by
    rw [trace]
    exact List.mem_append_right _ (List.mem_cons_of_mem _ (List.mem_append_left _ mem))
  obtain rfl := number v holds
  exact ⟨since, fd', user, login, text, queries, before, rfl, others, arg, accepts, holds⟩

/-- A request of user 1 on descriptor 4 -/
def Script.requests : Event → Bool
  | .request 4 (some 1) _ => true
  | _ => false

theorem requests_authorised_create : ∃ s newer mess older,
    Visited (Script.oneClient (Script.request 0 ++ Script.request 9)) s ∧
      s.trace = newer ++ .request 4 (some 1) mess :: older ∧ ∃ since fd' user login text queries before,
        older = since ++ .playerLogin 4 1 :: (queries ++ .request fd' user login :: before) ∧
        (∀ e ∈ since, e.binds 4 = false) ∧ 4 = loginArg fd' user ∧ Login.Accepts login text queries ∧
        Login.sscanfD text = some 1 := by
  obtain ⟨s, reachable, test⟩ := exists_of_ends 2 (fun s => idsGiven s.trace && s.trace.any Script.requests)
    (Script.reachable (Script.oneClient (Script.request 0 ++ Script.request 9))) (by decide +kernel)
  rw [Bool.and_eq_true] at test
  obtain ⟨given, test⟩ := test
  obtain ⟨e, mem, requests⟩ := List.any_eq_true.mp test
  unfold Script.requests at requests
  split at requests
  · rename_i mess
    obtain ⟨newer, older, trace⟩ := List.append_of_mem mem
    exact ⟨s, newer, mess, older, .reach reachable, trace, requests_authorised (.reach reachable) given trace⟩
  · cases requests

end

end IslandSurvival

import IslandSurvival.Theorems.Draining
import IslandSurvival.Theorems.Nesting

/-! The index of the heartbeats. `m_sec_fd` and `m_fd_to_sec` hold the same seconds, for exactly the connections, and
    without a failed write the expiry deletes the connections that are too old and no others. -/

namespace IslandSurvival

open Prog

/-! ### Pairs -/

namespace PairSet
variable {m : PairSet} {a e : Int × Int}

theorem mem_erase : a ∈ m.erase e ↔ e ≠ a ∧ a ∈ m := by
  simp [Std.ExtTreeSet.mem_erase]

theorem mem_insert : a ∈ m.insert e ↔ e = a ∨ a ∈ m := by
  simp [Std.ExtTreeSet.mem_insert]

theorem mem_of_min? (h : m.min? = some e) : e ∈ m := (Std.ExtTreeSet.min?_eq_some_iff_mem_and_forall.mp h).1

/-- The first pair has the least second. -/
theorem min?_le (h : m.min? = some e) (mem : a ∈ m) : e.1 ≤ a.1 := by
  have le := (Std.ExtTreeSet.min?_eq_some_iff_mem_and_forall.mp h).2 a mem
  simp only [comparePair, compareLex, compareOn, Ordering.isLE_then_iff_and] at le
  exact Std.isLE_compare.mp le.1

/-- The pair behind the first one is the first one without it. -/
theorem next_min (h : m.min? = some e) : Heartbeat.next m e = (m.erase e).min? := by
  have head := h
  rw [Std.ExtTreeSet.min?_eq_head?_toList] at head
  obtain ⟨l, list⟩ := List.head?_eq_some_iff.mp head
  have ordered := Std.ExtTreeSet.ordered_toList (t := m)
  rw [list, List.pairwise_cons] at ordered
  have mem : ∀ a, a ∈ m ↔ a = e ∨ a ∈ l := fun a => by
    rw [← Std.ExtTreeSet.mem_toList, list, List.mem_cons]
  have same : ∀ a, comparePair a a = .eq := fun _ => Std.ReflCmp.compare_self
  unfold Heartbeat.next
  rw [list, List.find?_cons_of_neg (by simp [same])]
  cases l with
  | nil =>
    refine (Std.ExtTreeSet.min?_eq_none_iff.mpr ?_).symm
    rw [Std.ExtTreeSet.eq_empty_iff_forall_not_mem]
    intro a there
    obtain ⟨other, there⟩ := mem_erase.mp there
    exact other ((mem a).mp there |>.resolve_right List.not_mem_nil).symm
  | cons x l =>
    rw [List.find?_cons_of_pos (by simp [ordered.1 x List.mem_cons_self])]
    refine (Std.ExtTreeSet.min?_eq_some_iff_mem_and_forall.mpr ⟨?_, fun a there => ?_⟩).symm
    · have after := ordered.1 x List.mem_cons_self
      refine mem_erase.mpr ⟨?_, (mem x).mpr (.inr List.mem_cons_self)⟩
      rintro rfl
      simp [same] at after
    · obtain ⟨other, there⟩ := mem_erase.mp there
      rcases List.mem_cons.mp (((mem a).mp there).resolve_left (Ne.symm other)) with rfl | later
      · rw [same]
        rfl
      · rw [(List.pairwise_cons.mp ordered.2).1 a later]
        rfl

end PairSet

/-! ### The index -/

/-- The two containers of `Heartbeat` hold the same seconds, for exactly the connections. -/
structure HeartbeatsAgree (s : Server) : Prop where
  pairs : ∀ sec fd : Int, (sec, fd) ∈ s.secFd ↔ s.fdToSec[fd]? = some sec
  keys : ∀ fd : Int, fd ∈ s.fdToSec ↔ fd ∈ s.connects

namespace HeartbeatsAgree

variable {env : Env} {k l : List Frame} {s t : Server} {fd : Int}

theorem congr (h : HeartbeatsAgree s) (secFd : t.secFd = s.secFd) (fdToSec : t.fdToSec = s.fdToSec)
    (connects : t.connects = s.connects) : HeartbeatsAgree t := by
  constructor
  · rw [secFd, fdToSec]
    exact h.pairs
  · rw [fdToSec, connects]
    exact h.keys

/-- `DeleteFD` of a connection -/
theorem erase_eq (h : HeartbeatsAgree s) (conn : fd ∈ s.connects) : ∃ sec, s.fdToSec[fd]? = some sec ∧
    Heartbeat.erase fd s =
      (.success, { s with secFd := s.secFd.erase (sec, fd), fdToSec := s.fdToSec.erase fd }) := by
  obtain ⟨sec, found⟩ := Map.mem_iff.mp ((h.keys fd).mpr conn)
  refine ⟨sec, found, ?_⟩
  unfold Heartbeat.erase
  rw [found]
  simp only
  rw [if_pos ((h.pairs sec fd).mpr found)]

/-- The records of a connection that is deleted -/
theorem dropConnection_eq (h : HeartbeatsAgree s) {c : SockPtr} (conn : s.connects[fd]? = some c) :
    ∃ sec, s.fdToSec[fd]? = some sec ∧ (dropConnection fd c s).secFd = s.secFd.erase (sec, fd) ∧
      (dropConnection fd c s).fdToSec = s.fdToSec.erase fd ∧ (dropConnection fd c s).connects = s.connects.erase fd := by
  obtain ⟨sec, found, erased⟩ := h.erase_eq (Map.mem_of_getElem? conn)
  refine ⟨sec, found, ?_⟩
  unfold dropConnection
  rw [erased]
  simp only
  split
  · exact ⟨rfl, rfl, rfl⟩
  · exact ⟨rfl, rfl, rfl⟩

theorem erase (h : HeartbeatsAgree s) {sec : Int} (found : s.fdToSec[fd]? = some sec)
    (secFd : t.secFd = s.secFd.erase (sec, fd)) (fdToSec : t.fdToSec = s.fdToSec.erase fd)
    (connects : t.connects = s.connects.erase fd) : HeartbeatsAgree t where
  pairs sec' fd' := by
    rw [secFd, fdToSec, PairSet.mem_erase, Map.getElem?_erase, h.pairs]
    by_cases same : fd = fd'
    · subst same
      simp only [ne_eq, Prod.mk.injEq, and_true, if_true, reduceCtorEq, iff_false, not_and]
      intro other found'
      exact other (Option.some.inj (found.symm.trans found'))
    · simp [same]
  keys fd' := by
    rw [fdToSec, connects, Map.mem_erase, Map.mem_erase, h.keys]

theorem insert (h : HeartbeatsAgree s) {sec : Int} (absent : s.fdToSec[fd]? = none)
    (secFd : t.secFd = s.secFd.insert (sec, fd)) (fdToSec : t.fdToSec = s.fdToSec.insert fd sec)
    (keys : ∀ fd' : Int, fd' ∈ t.connects ↔ fd = fd' ∨ fd' ∈ s.connects) : HeartbeatsAgree t where
  pairs sec' fd' := by
    rw [secFd, fdToSec, PairSet.mem_insert, Map.getElem?_insert, h.pairs, Prod.mk.injEq]
    by_cases same : fd = fd'
    · subst same
      simp [absent]
    · simp [same]
  keys fd' := by
    rw [fdToSec, Map.mem_insert, keys, h.keys]

/-- A heartbeat of a connection -/
theorem update (h : HeartbeatsAgree s) {sec sec' : Int} (found : s.fdToSec[fd]? = some sec)
    (secFd : t.secFd = (s.secFd.erase (sec, fd)).insert (sec', fd)) (fdToSec : t.fdToSec = (s.fdToSec.erase fd).insert fd sec')
    (connects : t.connects = s.connects) : HeartbeatsAgree t where
  pairs sec'' fd' := by
    rw [secFd, fdToSec, PairSet.mem_insert, PairSet.mem_erase, Map.getElem?_insert, Map.getElem?_erase, h.pairs, Prod.mk.injEq]
    by_cases same : fd = fd'
    · subst same
      simp only [and_true, ne_eq, Prod.mk.injEq, if_true, Option.some.injEq, or_iff_left_iff_imp, and_imp]
      intro other found'
      exact absurd (Option.some.inj (found.symm.trans found')) other
    · simp [same]
  keys fd' := by
    have here : fd ∈ s.connects := (h.keys fd).mp (Map.mem_of_getElem? found)
    rw [fdToSec, connects, Map.mem_insert, Map.mem_erase, h.keys]
    by_cases same : fd = fd'
    · subst same
      simp [here]
    · simp [same]

/-- An accepted connection -/
theorem accepted (h : HeartbeatsAgree s) (c : SockPtr) (nowsec : Int) : HeartbeatsAgree (accepted c nowsec s) := by
  unfold IslandSurvival.accepted
  simp only
  split
  · rename_i known
    refine ⟨h.pairs, fun fd' => ?_⟩
    have here : (s.sock c).iSockfd ∈ s.connects := (h.keys _).mp known
    show fd' ∈ s.fdToSec ↔ fd' ∈ s.connects.insert (s.sock c).iSockfd c
    rw [Map.mem_insert]
    refine (h.keys fd').trans ⟨.inr, ?_⟩
    rintro (rfl | conn)
    · exact here
    · exact conn
  · rename_i new
    refine h.insert (Option.not_isSome_iff_eq_none.mp (mt Std.ExtTreeMap.isSome_getElem?_iff_mem.mp new)) rfl rfl fun fd' => ?_
    exact Map.mem_insert

theorem step (move : Step env k s l t) (h : HeartbeatsAgree s) : HeartbeatsAgree t := by
  cases move with
  | drop _ conn =>
    obtain ⟨sec, found, secFd, fdToSec, connects⟩ := h.dropConnection_eq conn
    exact h.erase found secFd fdToSec connects
  | left =>
    rw [PersonManager.changePersonStatus_eq]
    exact h.congr rfl rfl rfl
  | enter _ _ _ person =>
    obtain ⟨_, _, _, _, hs⟩ := entered person
    rw [hs]
    exact h.congr rfl rfl rfl
  | @heartbeat _ _ fd _ _ nowsec old =>
    unfold Heartbeat.erase at old
    split at old
    · cases old
    · rename_i sec found
      split at old
      · obtain ⟨-, rfl⟩ := Prod.mk.inj old
        exact h.update found rfl rfl rfl
      · cases old
  | create _ _ _ _ _ =>
    obtain ⟨_, _, _, _, _, _, _, hs⟩ := RoomManager.created_eq _ _ _ s
    rw [hs]
    exact h.congr rfl rfl rfl
  | join _ _ _ _ _ _ =>
    rw [RoomManager.joined_eq]
    exact h.congr rfl rfl rfl
  | gameEnd _ _ _ =>
    rw [PersonManager.changePersonStatus_eq]
    exact h.congr rfl rfl rfl
  | acceptFail sock acc _ =>
    obtain ⟨_, _, _, _, _, rfl⟩ := acceptSocket_eq sock acc
    exact h.congr rfl rfl rfl
  | acceptLost sock acc _ =>
    obtain ⟨_, _, _, _, _, rfl⟩ := acceptSocket_eq sock acc
    exact h.congr rfl rfl rfl
  | accept _ sock acc _ =>
    obtain ⟨_, _, _, _, _, rfl⟩ := acceptSocket_eq sock acc
    refine HeartbeatsAgree.accepted ?_ _ _
    exact h.congr rfl rfl rfl
  | _ => exact h.congr rfl rfl rfl

end HeartbeatsAgree

theorem Config.heartbeats {env : Env} {k : List Frame} {s : Server} (h : Config env k s) : HeartbeatsAgree s := by
  induction h with
  | boot booted =>
    constructor
    · simp [booted.secFd, booted.fdToSec]
    · simp [booted.fdToSec, booted.connects]
  | step _ move ih => exact ih.step move

/-! ### Expiry -/

/-- How often `SendMessageToClient` saw a failed write -/
def writeErrors : List Event → Nat
  | [] => 0
  | .writeError _ _ :: older => writeErrors older + 1
  | _ :: older => writeErrors older

def Frame.isKick : Frame → Bool
  | .kick _ _ => true
  | _ => false

theorem Room.departing_isKick (u : Int) (p : RoomPtr) (r : Room) : (r.departing u p).isKick = false := by
  unfold Room.departing
  split <;> rfl

/-- While the connection `fd` of `s` expires: without a failed write, no other connection is deleted. -/
structure Expiring (s : Server) (fd : Int) (k : List Frame) (t : Server) : Prop where
  errors : writeErrors s.trace ≤ writeErrors t.trace
  quiet : writeErrors t.trace = writeErrors s.trace → k.any Frame.isKick = false ∧
    ((t.connects = s.connects ∧ t.fdToSec = s.fdToSec ∧ t.secFd = s.secFd) ∨
      (t.connects = s.connects.erase fd ∧ t.fdToSec = s.fdToSec.erase fd ∧
        ∃ sec, s.fdToSec[fd]? = some sec ∧ t.secFd = s.secFd.erase (sec, fd)))

theorem Expiring.congr {s t u : Server} {fd : Int} {k l : List Frame} (h : Expiring s fd k t)
    (trace : writeErrors u.trace = writeErrors t.trace) (kick : l.any Frame.isKick = k.any Frame.isKick)
    (connects : u.connects = t.connects) (fdToSec : u.fdToSec = t.fdToSec) (secFd : u.secFd = t.secFd) :
    Expiring s fd l u := by
  refine ⟨trace ▸ h.errors, ?_⟩
  rw [trace, kick, connects, fdToSec, secFd]
  exact h.quiet

theorem expiring_step {env : Env} {k l : List Frame} {s t u : Server} {fd : Int} {next : Option (Int × Int)}
    (move : Step env k t l u) (bottom : k.getLast? = some (.expiring fd next)) (stack : Stack k)
    (agree : HeartbeatsAgree s) (h : Expiring s fd k t) : Expiring s fd l u := by
  cases move with
  | kick _ _ =>
    have more : writeErrors s.trace < writeErrors t.trace + 1 := Nat.lt_succ_of_le h.errors
    exact ⟨Nat.le_of_lt more, fun same => absurd same (Nat.ne_of_gt more)⟩
  | @drop _ _ fd' c may conn =>
    have trace : writeErrors (dropConnection fd' c t).trace = writeErrors t.trace := by
      obtain ⟨_, _, _, _, _, hs⟩ := dropConnection_eq fd' c t
      rw [hs]
      rfl
    refine ⟨trace ▸ h.errors, fun same => ?_⟩
    obtain ⟨kick, index⟩ := h.quiet (trace ▸ same)
    cases may with
    | kick => simp [Frame.isKick] at kick
    | slot _ =>
      -- a slow player is deleted by a tick only
      cases stack with
      | outer outer => cases outer
      | push stack waits =>
        cases waits with
        | kickSlot =>
          obtain ⟨_, _, rfl⟩ := stack.timeout
          simp at bottom
    | event => simp at bottom
    | expire =>
      obtain ⟨rfl, -⟩ : fd' = fd ∧ _ = next := by simpa using bottom
      refine ⟨kick, .inr ?_⟩
      rcases index with ⟨connects, fdToSec, secFd⟩ | ⟨connects, -⟩
      · obtain ⟨sec, found, secFd', fdToSec', connects'⟩ := (agree.congr secFd fdToSec connects).dropConnection_eq conn
        rw [secFd', fdToSec', connects', connects, fdToSec, secFd]
        exact ⟨rfl, rfl, sec, fdToSec ▸ found, rfl⟩
      · rw [connects] at conn
        simp at conn
  | kicked => exact ⟨h.errors, fun same => absurd (h.quiet same).1 (by simp [Frame.isKick])⟩
  | leave _ _ _ _ => exact h.congr rfl (by rw [List.any_cons, Room.departing_isKick]; rfl) rfl rfl rfl
  | exitRoom _ _ _ => exact h.congr rfl rfl rfl rfl rfl
  | left =>
    rw [PersonManager.changePersonStatus_eq]
    exact h.congr rfl rfl rfl rfl rfl
  | everyone may => cases may <;> exact h.congr rfl rfl rfl rfl rfl
  | enter _ _ _ _ => simp at bottom
  | heartbeat _ _ => simp at bottom
  | create _ _ _ _ _ => simp at bottom
  | join _ _ _ _ _ _ => simp at bottom
  | gameEnd _ _ _ => simp at bottom
  | acceptFail _ _ _ => simp at bottom
  | acceptLost _ _ _ => simp at bottom
  | accept _ _ _ _ => simp at bottom
  | _ => exact h.congr rfl rfl rfl rfl rfl

theorem stable_expiring (env : Env) {s : Server} (agree : HeartbeatsAgree s) (fd : Int) (next : Option (Int × Int)) :
    Stable env [.expiring fd next] fun k t =>
      Stack (k ++ [.expiring fd next]) ∧ Expiring s fd (k ++ [.expiring fd next]) t where
  step move h := ⟨stack_step move h.1, expiring_step move List.getLast?_concat h.1 agree h.2⟩

theorem writeErrors_le {older newer : List Event} (h : older <:+ newer) : writeErrors older ≤ writeErrors newer := by
  obtain ⟨events, rfl⟩ := h
  induction events with
  | nil => exact Nat.le_refl _
  | cons e events ih =>
    refine Nat.le_trans ih ?_
    cases e with
    | writeError _ _ => exact Nat.le_succ _
    | _ => exact Nat.le_refl _

theorem stable_writeErrors (env : Env) (n : Nat) : Stable env [] fun _ t => n ≤ writeErrors t.trace :=
  .of fun move le => Nat.le_trans le (writeErrors_le (trace_step move))

/-- The connection has not been heard of for more than 40 seconds. -/
def Late (nowsec : Int) (s : Server) (fd : Int) : Prop := ∃ sec, s.fdToSec[fd]? = some sec ∧ nowsec - sec > 40

/-- From `s` to `t`, some late connections are deleted, and the others keep their seconds. -/
structure Sweeps (nowsec : Int) (s t : Server) : Prop where
  errors : writeErrors t.trace = writeErrors s.trace
  pool : Pool t
  agree : HeartbeatsAgree t
  swept : ∀ fd : Int, Late nowsec s fd ∧ t.connects[fd]? = none ∧ t.fdToSec[fd]? = none ∨
    t.connects[fd]? = s.connects[fd]? ∧ t.fdToSec[fd]? = s.fdToSec[fd]?

section
variable {env : Env} {nowsec : Int} {s t : Server}

/-- A connection that expires is deleted, and without a failed write nothing else. -/
theorem expire_spec (h : Sweeps nowsec s t) {sec fd : Int} {next : Option (Int × Int)} (mem : (sec, fd) ∈ t.secFd)
    (late : nowsec - sec > 40) :
    wp (deleteClientByFd env fd) (fun _ u => writeErrors t.trace ≤ writeErrors u.trace ∧
      (writeErrors u.trace = writeErrors t.trace → Sweeps nowsec s u ∧ u.secFd = t.secFd.erase (sec, fd)))
      (fun e _ => e = .outOfBounds ∨ e = .signedOverflow) (t.log (.expire fd next)) := by
  have found := (h.agree.pairs sec fd).mp mem
  have conn : fd ∈ t.connects := (h.agree.keys fd).mp (Map.mem_of_getElem? found)
  have begins : Expiring t fd [.expiring fd next] (t.log (.expire fd next)) :=
    ⟨Nat.le_refl _, fun _ => ⟨rfl, .inl ⟨rfl, rfl, rfl⟩⟩⟩
  have pool : Pool (t.log (.expire fd next)) := h.pool
  have expires := deleteClientByFd_spec (stable_expiring env h.agree fd next) [] fd _ .expire ⟨.outer .expiry, begins⟩
  have removes := @deleteClientByFd_removes env _ fd pool
  have returns := (@Circle.alike env (t.log (.expire fd next)) _ _ (.delete conn)).2
  refine wp_mono (wp_and expires (wp_and removes (wp_and returns (deleteClientByFd_calm fd _)))) ?_ ?_
  · rintro - u ⟨⟨-, expired⟩, ⟨pool', -, gone⟩, -⟩
    refine ⟨expired.errors, fun same => ?_⟩
    obtain ⟨-, index⟩ := expired.quiet same
    rcases index with ⟨connects, -⟩ | ⟨connects, fdToSec, sec', found', secFd⟩
    · rw [connects] at gone
      exact absurd conn (Map.notMem_of_getElem? gone)
    · obtain rfl := Option.some.inj (found.symm.trans found')
      refine ⟨⟨same.trans h.errors, pool', h.agree.erase found secFd fdToSec connects, fun fd' => ?_⟩, secFd⟩
      rw [connects, fdToSec, Map.getElem?_erase, Map.getElem?_erase]
      by_cases this : fd = fd'
      · subst this
        rw [if_pos rfl, if_pos rfl]
        rcases h.swept fd with ⟨-, -, none⟩ | ⟨-, old⟩
        · rw [found] at none
          cases none
        · exact .inl ⟨⟨sec, old ▸ found, late⟩, rfl, rfl⟩
      · rw [if_neg this, if_neg this]
        exact h.swept fd'
  · rintro e u ⟨-, -, ⟨other, -⟩, numeric⟩
    simp only [Fault.Numeric, List.mem_cons, List.not_mem_nil, or_false] at numeric
    simpa [other] using numeric

theorem expireLoop_sweeps : ∀ (fuel : Nat) (it : Option (Int × Int)) (t : Server), Sweeps nowsec s t →
    t.secFd.min? = it → t.secFd.size ≤ fuel →
      wp (Heartbeat.expireLoop env nowsec fuel it)
        (fun _ u => writeErrors u.trace = writeErrors s.trace → Sweeps nowsec s u ∧ ∀ fd, ¬Late nowsec u fd)
        (fun e u => writeErrors u.trace = writeErrors s.trace → e = .outOfBounds ∨ e = .signedOverflow) t
  | fuel, none, t, sweeps, first, _ => by
    have none : ∀ fd, ¬Late nowsec t fd := by
      rintro fd ⟨sec, found, -⟩
      have mem := (sweeps.agree.pairs sec fd).mpr found
      rw [Std.ExtTreeSet.min?_eq_none_iff.mp first] at mem
      exact Std.ExtTreeSet.not_mem_empty mem
    cases fuel <;> exact fun _ => ⟨sweeps, none⟩
  | 0, some it, t, _, first, size => by
    have mem := PairSet.mem_of_min? first
    have empty := Std.ExtTreeSet.eq_empty_iff_size_eq_zero.mpr (Nat.le_zero.mp size)
    rw [empty] at mem
    exact absurd mem Std.ExtTreeSet.not_mem_empty
  | fuel + 1, some it, t, sweeps, first, size => by
    have mem := PairSet.mem_of_min? first
    simp only [Heartbeat.expireLoop, wp_bind, wp_get]
    rw [if_neg (not_not_intro mem)]
    simp only [wp_bind]
    refine wp_sub32 ?_ fun _ _ => .inr rfl
    split
    · rename_i late
      simp only [wp_bind, wp_log]
      refine wp_mono (expire_spec sweeps mem late) (fun _ u swept => ?_) fun e _ failed _ => failed
      obtain ⟨errors, quiet⟩ := swept
      by_cases same : writeErrors u.trace = writeErrors t.trace
      · obtain ⟨sweeps', secFd⟩ := quiet same
        refine expireLoop_sweeps fuel _ u sweeps' ?_ ?_
        · rw [secFd, PairSet.next_min first]
        · rw [secFd, Std.ExtTreeSet.size_erase, if_pos (Std.ExtTreeSet.contains_iff_mem.mpr mem)]
          omega
      · -- after a failed write nothing is claimed
        have more : writeErrors s.trace < writeErrors u.trace := by
          have := sweeps.errors
          omega
        refine wp_mono (expireLoop_spec (stable_writeErrors env (writeErrors u.trace)) nowsec fuel _ u (Nat.le_refl _))
          (fun _ v later again => ?_) fun e v failed again => ?_
        · omega
        · obtain ⟨_, later⟩ := failed
          omega
    · rename_i young
      refine fun _ => ⟨sweeps, ?_⟩
      rintro fd ⟨sec, found, late⟩
      have le := PairSet.min?_le first ((sweeps.agree.pairs sec fd).mpr found)
      simp only at le
      omega

/-- From `s` to `t`, the late connections are deleted and the others keep their seconds. -/
structure Expires (nowsec : Int) (s t : Server) : Prop where
  deleted : ∀ fd : Int, Late nowsec s fd → t.connects[fd]? = none ∧ t.fdToSec[fd]? = none
  kept : ∀ fd : Int, ¬Late nowsec s fd → t.connects[fd]? = s.connects[fd]? ∧ t.fdToSec[fd]? = s.fdToSec[fd]?

theorem Sweeps.expires (h : Sweeps nowsec s t) (none : ∀ fd, ¬Late nowsec t fd) : Expires nowsec s t where
  deleted fd late := by
    rcases h.swept fd with ⟨-, gone⟩ | ⟨-, same⟩
    · exact gone
    · obtain ⟨sec, found, late⟩ := late
      exact absurd ⟨sec, same ▸ found, late⟩ (none fd)
  kept fd young := by
    rcases h.swept fd with ⟨late, -⟩ | same
    · exact absurd late young
    · exact same

/-- Between two steps of the main loop the index agrees with the connections. From there, without a failed write,
    `Heartbeat::OnTick` deletes exactly the connections that are late, unless an index or a number is out of its bounds. -/
theorem heartbeats_exact (h : Reachable env s) : HeartbeatsAgree s ∧ ∀ nowsec : Int,
    wp (Heartbeat.onTick env nowsec)
      (fun _ t => writeErrors t.trace = writeErrors s.trace → Expires nowsec s t)
      (fun e t => writeErrors t.trace = writeErrors s.trace → e = .outOfBounds ∨ e = .signedOverflow) s := by
  refine ⟨h.config.heartbeats, fun nowsec => ?_⟩
  have begins : Sweeps nowsec s s := ⟨rfl, h.config.pool, h.config.heartbeats, fun _ => .inr ⟨rfl, rfl⟩⟩
  simp only [Heartbeat.onTick, wp_bind, wp_get]
  refine wp_post (expireLoop_sweeps s.secFd.size s.secFd.min? s begins rfl (Nat.le_refl _)) fun _ t sweeps same => ?_
  obtain ⟨swept, none⟩ := sweeps same
  exact swept.expires none

end

/-- `OnTick` starts at the first pair. -/
theorem Heartbeat.onTick_eq (env : Env) (nowsec : Int) (s : Server) :
    Heartbeat.onTick env nowsec s = Heartbeat.expireLoop env nowsec s.secFd.size s.secFd.toList.head? s := by
  rw [← Std.ExtTreeSet.min?_eq_head?_toList]
  rfl

/-- A client of second 0 expires in second 41. -/
theorem heartbeats_exact_login : ∃ s t, Reachable (Script.oneClient (Script.request 0)) s ∧
    s.connects[(4 : Int)]? = some 0 ∧ Heartbeat.onTick (Script.oneClient (Script.request 0)) 41 s = .ok () t ∧
    t.connects[(4 : Int)]? = none := by
  obtain ⟨s, reachable, test⟩ := exists_of_ends 2
    (fun s => s.connects[(4 : Int)]? == some 0 && s.fdToSec[(4 : Int)]? == some 0 &&
      Returns (Heartbeat.expireLoop (Script.oneClient (Script.request 0)) 41 s.secFd.size s.secFd.toList.head? s)
        fun t => writeErrors t.trace == writeErrors s.trace)
    (Script.reachable (Script.oneClient (Script.request 0))) (by decide +kernel)
  rw [← Heartbeat.onTick_eq] at test
  simp only [Bool.and_eq_true, beq_iff_eq] at test
  obtain ⟨⟨conn, second⟩, returns⟩ := test
  obtain ⟨⟨⟩, t, run, quiet⟩ := exists_of_returns returns
  have expires := wp_ok ((heartbeats_exact reachable).2 41) run (beq_iff_eq.mp quiet)
  exact ⟨s, t, reachable, conn, run, (expires.deleted 4 ⟨0, second, by decide⟩).1⟩

end IslandSurvival

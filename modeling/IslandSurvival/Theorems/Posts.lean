import IslandSurvival.Theorems.Failures
import IslandSurvival.Theorems.Rooms

/-! What a call sends to whom. While no write fails, a broadcast goes to the members of its room in the order of
    their slots, and sending changes nothing but the sockets. -/

namespace IslandSurvival

open Prog

/-! ### Calls only add to the trace -/

/-- Wherever `c` ends, the older events are as they were. -/
def Grows {α : Type} (c : M α) : Prop := ∀ s, wp c (fun _ t => s.trace <:+ t.trace) (fun _ t => s.trace <:+ t.trace) s

namespace Grows

variable {α β : Type} {c : M α}

theorem pure {a : α} : Grows (pure a : M α) := fun _ => List.suffix_rfl

theorem throw {e : Fault} : Grows (throw e : M α) := fun _ => List.suffix_rfl

theorem get : Grows (get : M Server) := fun _ => List.suffix_rfl

theorem modify {f : Server → Server} (later : ∀ s, s.trace <:+ (f s).trace) : Grows (modify f) := later

theorem log {e : Event} : Grows (log e) := .modify fun _ => List.suffix_cons _ _

/-- From a later state -/
theorem later (hc : Grows c) {s t : Server} (later : s.trace <:+ t.trace) :
    wp c (fun _ u => s.trace <:+ u.trace) (fun _ u => s.trace <:+ u.trace) t :=
  wp_mono (hc t) (fun _ _ => later.trans) fun _ _ => later.trans

theorem bind {f : α → M β} (hc : Grows c) (hf : ∀ a, Grows (f a)) : Grows (c >>= f) := by
  intro s
  rw [wp_bind]
  exact wp_post (hc s) fun a t later => (hf a).later later

theorem discard (hc : Grows c) : Grows (discard c) := bind hc fun _ => pure

theorem ite {b : Prop} [Decidable b] {d : M α} (hc : Grows c) (hd : Grows d) : Grows (if b then c else d) := by
  split
  · exact hc
  · exact hd

theorem guarded {x : Except Fault α} : Grows (guarded x) := by
  cases x with
  | ok _ => exact pure
  | error _ => exact throw

theorem getRoom {p : RoomPtr} : Grows (getRoom p) := bind get fun _ => pure

end Grows

section
variable {env : Env} {del : Int → M Unit}

theorem deleteClientByFd_grows (fd : Int) : Grows (deleteClientByFd env fd) := fun s =>
  wp_mono (deleteClientByFd_spec (stable_trace env [] s) [] fd s .event List.suffix_rfl) (fun _ _ => id)
    fun _ _ ⟨_, later⟩ => later

/-- `SendMessageByConnfd` logs its write, or that the encoding is too long. -/
theorem sendMessageByConnfd_ends (fd : Int) (mess : CMessage) (s : Server) :
    wp (sendMessageByConnfd env fd mess)
      (fun _ t => t = s ∨ ∃ sock n data taken status,
        t = { s with sock, sys := s.sys + n, trace := .write fd data taken status :: s.trace })
      (fun _ t => t = s.log (.overrun fd mess)) s := by
  simp only [sendMessageByConnfd, wp_bind, wp_get]
  split
  · exact .inl rfl
  · rename_i c _
    split
    · simp only [wp_bind, wp_log, wp_throw]
    · obtain ⟨out, run⟩ := @TcpSocket.sendData_returns (fun n => env.send (s.sys + n)) (mess.encode env.pb) (s.sock c)
      rw [wp_bind, run]
      exact .inr ⟨_, out.calls, _, _, _, rfl⟩

theorem sendMessageByConnfd_grows (fd : Int) (mess : CMessage) : Grows (sendMessageByConnfd env fd mess) := by
  intro s
  refine wp_mono (sendMessageByConnfd_ends fd mess s) (fun _ t ends => ?_) fun _ t ends => ?_
  · obtain rfl | ⟨_, _, _, _, _, rfl⟩ := ends
    · exact List.suffix_rfl
    · exact List.suffix_cons _ _
  · exact ends ▸ List.suffix_cons _ _

theorem sendMessageToClient_grows (hd : ∀ fd, Grows (del fd)) (userId : Int) (mess : CMessage) :
    Grows (sendMessageToClient env del userId mess) := by
  refine .bind .log fun _ => .bind .get fun s => ?_
  split
  · exact .pure
  · refine .bind (sendMessageByConnfd_grows _ mess) fun ret => .ite ?_ .pure
    exact .bind .log fun _ => .bind (hd _) fun _ => .pure

theorem deliver_grows (hd : ∀ fd, Grows (del fd)) (p : RoomPtr) (mess : CMessage) (i : Nat) :
    Grows (Room.deliver env del p mess i) :=
  .bind .getRoom fun _ => .ite (.bind .log fun _ => .discard (sendMessageToClient_grows hd _ mess)) .pure

theorem forSlots_grows {p : RoomPtr} {body : Nat → M Unit} (hb : ∀ i, Grows (body i)) :
    ∀ fuel i, Grows (Room.forSlots p body fuel i)
  | 0, _ => .bind .getRoom fun _ => .ite .throw .pure
  | fuel + 1, i => .bind .getRoom fun _ => .ite (.bind (hb i) fun _ => forSlots_grows hb fuel (i + 1)) .pure

theorem sendMessageToEveryone_grows (hd : ∀ fd, Grows (del fd)) (p : RoomPtr) (mess : CMessage) :
    Grows (Room.sendMessageToEveryone env del p mess) :=
  .bind .log fun _ => forSlots_grows (deliver_grows hd p mess) _ _

end

/-! ### Calls in which no write fails -/

/-- The last event is an encoding that does not fit into the buffer. -/
def Overran (t : Server) : Prop := ∃ fd mess older, t.trace = .overrun fd mess :: older

/-- If no write fails in `c`, it ends as `Q` says, or at an encoding that is too long. -/
def Quietly {α : Type} (c : M α) (Q : α → Server → Prop) (s : Server) : Prop :=
  wp c (fun a t => s.trace <:+ t.trace ∧ (failures t.trace = failures s.trace → Q a t))
    (fun _ t => s.trace <:+ t.trace ∧ (failures t.trace = failures s.trace → Overran t)) s

theorem failures_between {older tr newer : List Event} (later : older <:+ tr) (later' : tr <:+ newer)
    (same : failures newer = failures older) : failures tr = failures older := by
  obtain ⟨events, rfl⟩ := later
  obtain ⟨events', rfl⟩ := later'
  rw [failures_append, failures_append, ← List.append_assoc] at same
  have none : failures events' ++ failures events = [] := List.append_cancel_right (same.trans (List.nil_append _).symm)
  rw [failures_append, (List.append_eq_nil_iff.mp none).2, List.nil_append]

namespace Quietly

variable {α β : Type} {c : M α} {P Q : α → Server → Prop} {R : β → Server → Prop} {s : Server}

theorem pure {a : α} (h : Q a s) : Quietly (pure a) Q s := ⟨List.suffix_rfl, fun _ => h⟩

/-- What comes after a failed write does not matter. -/
theorem bind {f : α → M β} (hc : Quietly c P s) (grows : ∀ a, Grows (f a)) (hf : ∀ a t, P a t → Quietly (f a) R t) :
    Quietly (c >>= f) R s := by
  rw [Quietly, wp_bind]
  refine wp_mono hc (fun a t ⟨later, ends⟩ => ?_) fun _ _ => id
  by_cases quiet : failures t.trace = failures s.trace
  · exact wp_mono (hf a t (ends quiet)) (fun _ _ ⟨later', ends'⟩ => ⟨later.trans later', fun same => ends' (same.trans quiet.symm)⟩)
      fun _ _ ⟨later', ends'⟩ => ⟨later.trans later', fun same => ends' (same.trans quiet.symm)⟩
  · exact wp_mono (grows a t)
      (fun _ _ later' => ⟨later.trans later', fun same => absurd (failures_between later later' same) quiet⟩)
      fun _ _ later' => ⟨later.trans later', fun same => absurd (failures_between later later' same) quiet⟩

theorem post (hc : Quietly c P s) (h : ∀ a t, P a t → Q a t) : Quietly c Q s :=
  wp_mono hc (fun a t ⟨later, ends⟩ => ⟨later, fun quiet => h a t (ends quiet)⟩) fun _ _ => id

/-- Updates before `c` that log no failed write -/
theorem from_later {t : Server} (hc : Quietly c Q t) (later : s.trace <:+ t.trace)
    (quiet : failures t.trace = failures s.trace) :
    wp c (fun a u => s.trace <:+ u.trace ∧ (failures u.trace = failures s.trace → Q a u))
      (fun _ u => s.trace <:+ u.trace ∧ (failures u.trace = failures s.trace → Overran u)) t :=
  wp_mono hc (fun _ _ ⟨later', ends⟩ => ⟨later.trans later', fun same => ends (same.trans quiet.symm)⟩)
    fun _ _ ⟨later', ends⟩ => ⟨later.trans later', fun same => ends (same.trans quiet.symm)⟩

end Quietly

/-! ### Posts -/

/-- The messages that `SendMessageToClient` was called for, the last one first -/
def posts (tr : List Event) : List (Int × CMessage) := tr.filterMap fun e => match e with
  | .sendTo userId mess => some (userId, mess)
  | _ => none

/-- From `s` to `t` the messages `l` are sent, in this order. -/
structure Posted (l : List (Int × CMessage)) (s t : Server) : Prop where
  same : ∃ sock sys trace, t = { s with sock, sys, trace }
  posts : posts t.trace = l.reverse ++ posts s.trace

namespace Posted

variable {l l' : List (Int × CMessage)} {s t u : Server}

theorem refl (s : Server) : Posted [] s s := ⟨⟨_, _, _, rfl⟩, rfl⟩

theorem trans (h : Posted l s t) (h' : Posted l' t u) : Posted (l ++ l') s u := by
  obtain ⟨_, _, _, rfl⟩ := h.same
  obtain ⟨_, _, _, rfl⟩ := h'.same
  refine ⟨⟨_, _, _, rfl⟩, ?_⟩
  rw [h'.posts, h.posts, List.reverse_append, List.append_assoc]

theorem room (h : Posted l s t) : t.room = s.room := by
  obtain ⟨_, _, _, rfl⟩ := h.same
  rfl

end Posted

section
variable {env : Env} {del : Int → M Unit} {s : Server}

theorem sendMessageByConnfd_quietly (fd : Int) (mess : CMessage) :
    Quietly (sendMessageByConnfd env fd mess) (fun _ t => Posted [] s t) s := by
  refine wp_mono (sendMessageByConnfd_ends fd mess s) (fun _ t ends => ?_) fun _ t ends => ?_
  · obtain rfl | ⟨_, _, _, _, _, rfl⟩ := ends
    · exact ⟨List.suffix_rfl, fun _ => .refl t⟩
    · exact ⟨List.suffix_cons _ _, fun _ => ⟨⟨_, _, _, rfl⟩, rfl⟩⟩
  · subst ends
    exact ⟨List.suffix_cons _ _, fun _ => ⟨fd, mess, s.trace, rfl⟩⟩

theorem sendMessageToClient_quietly (hd : ∀ fd, Grows (del fd)) (userId : Int) (mess : CMessage) :
    Quietly (sendMessageToClient env del userId mess) (fun _ t => Posted [(userId, mess)] s t) s := by
  have noted : Posted [(userId, mess)] s (s.log (.sendTo userId mess)) := ⟨⟨_, _, _, rfl⟩, rfl⟩
  simp only [Quietly, sendMessageToClient, wp_bind, wp_log, wp_get]
  split
  · exact ⟨List.suffix_cons _ _, fun _ => noted⟩
  · rename_i fd _
    have sends : Quietly (sendMessageByConnfd env fd mess >>= fun ret =>
        if ret = .status .error then do
          log (.writeError userId fd)
          del fd
          return ret
        else
          return ret) (fun _ t => Posted [(userId, mess)] s t) (s.log (.sendTo userId mess)) := by
      refine (sendMessageByConnfd_quietly fd mess).bind (fun ret => ?_) fun ret t posted => ?_
      · exact .ite (.bind .log fun _ => .bind (hd fd) fun _ => .pure) .pure
      · split
        · -- a failed write is not quiet
          have noisy : ∀ u : Server, .writeError userId fd :: t.trace <:+ u.trace → failures u.trace ≠ failures t.trace := by
            intro u later same
            have between := failures_between (List.suffix_cons _ _) later same
            exact List.cons_ne_self _ _ between
          simp only [Quietly, wp_bind, wp_log, wp_pure]
          exact wp_mono (hd fd (t.log (.writeError userId fd)))
            (fun _ u later => ⟨(List.suffix_cons _ _).trans later, fun same => absurd same (noisy u later)⟩)
            fun _ u later => ⟨(List.suffix_cons _ _).trans later, fun same => absurd same (noisy u later)⟩
        · exact .pure (noted.trans posted)
    exact sends.from_later (List.suffix_cons _ _) rfl

theorem deliver_quietly (hd : ∀ fd, Grows (del fd)) (p : RoomPtr) (mess : CMessage) (i : Nat) :
    Quietly (Room.deliver env del p mess i)
      (fun _ t => Posted (if (s.room p).isOnline i then [((s.room p).players i, mess)] else []) s t) s := by
  simp only [Quietly, Room.deliver, wp_bind, wp_getRoom]
  split
  · simp only [wp_bind, wp_log, wp_discard]
    have noted : Posted [] s (s.log (.deliver p i mess)) := ⟨⟨_, _, _, rfl⟩, rfl⟩
    have sends := @sendMessageToClient_quietly env del (s.log (.deliver p i mess)) hd ((s.room p).players i) mess
    exact (sends.post fun _ t posted => noted.trans posted).from_later (List.suffix_cons _ _) rfl
  · exact ⟨List.suffix_rfl, fun _ => .refl s⟩

/-- The turns of a broadcast from slot `i` on -/
theorem forSlots_quietly (hd : ∀ fd, Grows (del fd)) (p : RoomPtr) (mess : CMessage) : ∀ (fuel i : Nat) (s : Server),
    (s.room p).playerCnt < i + fuel →
      Quietly (Room.forSlots p (Room.deliver env del p mess) fuel i) (fun _ t =>
        Posted ((((List.range' i ((s.room p).playerCnt + 1 - i)).filter (s.room p).isOnline).map (s.room p).players).map
          fun u => (u, mess)) s t) s
  | 0, i, s, enough => by
    have none : (s.room p).playerCnt + 1 - i = 0 := by omega
    simp only [Quietly, Room.forSlots, wp_bind, wp_getRoom]
    rw [if_neg (by omega), none]
    exact ⟨List.suffix_rfl, fun _ => .refl s⟩
  | fuel + 1, i, s, enough => by
    simp only [Room.forSlots]
    rw [Quietly, wp_bind, wp_getRoom]
    by_cases le : i ≤ (s.room p).playerCnt
    · rw [if_pos le]
      refine (deliver_quietly hd p mess i).bind (fun _ => forSlots_grows (deliver_grows hd p mess) _ _) fun _ t posted => ?_
      refine (forSlots_quietly hd p mess fuel (i + 1) t (by rw [posted.room]; omega)).post fun _ u rest => ?_
      have all := posted.trans rest
      have head : (s.room p).playerCnt + 1 - i = (s.room p).playerCnt + 1 - (i + 1) + 1 := by omega
      rw [posted.room] at all
      rw [head, List.range'_succ]
      by_cases online : (s.room p).isOnline i = true
      · rw [if_pos online] at all
        rwa [List.filter_cons_of_pos online]
      · rw [if_neg online] at all
        rwa [List.filter_cons_of_neg online]
    · have none : (s.room p).playerCnt + 1 - i = 0 := by omega
      rw [if_neg le, none]
      exact ⟨List.suffix_rfl, fun _ => .refl s⟩

/-- A broadcast goes to the members of its room. -/
theorem sendMessageToEveryone_quietly (hd : ∀ fd, Grows (del fd)) {p : RoomPtr} (cnt : (s.room p).playerCnt ≤ maxPlayerCnt)
    (mess : CMessage) :
    Quietly (Room.sendMessageToEveryone env del p mess) (fun _ t => Posted ((s.room p).members.map fun u => (u, mess)) s t) s := by
  simp only [Room.sendMessageToEveryone]
  rw [Quietly, wp_bind, wp_log]
  have noted : Posted [] s (s.log (.broadcast p mess)) := ⟨⟨_, _, _, rfl⟩, rfl⟩
  have turns := @forSlots_quietly env del hd p mess maxPlayerCnt 1 (s.log (.broadcast p mess)) (Nat.lt_one_add_iff.mpr cnt)
  exact (turns.post fun _ t posted => noted.trans posted).from_later (List.suffix_cons _ _) rfl

end

end IslandSurvival

import IslandSurvival.Lib.Quoting
import IslandSurvival.Theorems.Scenario

/-! The statements that `Login` hands to the database. They are composed from the name and the password as these came,
    and handed over with the length 60, whatever their length is. -/

namespace IslandSurvival

open Prog

/-! ### Statements -/

/-- The literals of a MySQL server; with `NO_BACKSLASH_ESCAPES` a backslash is a character like any other. -/
def mysql (backslash : Bool) : Quoting.Dialect UInt8 where
  quote := 39
  escapes c := backslash && c == 92
  unescape
    | 37 | 95 => none
    | 48 => some 0
    | 98 => some 8
    | 110 => some 10
    | 114 => some 13
    | 116 => some 9
    | 90 => some 26
    | c => some c

namespace Login

/-! What the statements are meant to be: texts, and literals with the name and the password -/

def selectAllPieces (name : Bytes) : List Bytes := [ascii "select * from login where id = ", name, ascii ";"]

def selectUserIdPieces (name : Bytes) : List Bytes := [ascii "select user_id from login where id = ", name, ascii ";"]

def insertLoginPieces (name passwd : Bytes) : List Bytes :=
  [ascii "insert into login(id, passwd) values(", name, ascii ",", passwd, ascii ");"]

/-- The statements of a login -/
def loginPieces (name : Bytes) : List (List Bytes) := [selectAllPieces name, selectUserIdPieces name]

/-- The statements of a registration -/
def registPieces (name passwd : Bytes) : List (List Bytes) :=
  [selectAllPieces name, insertLoginPieces name passwd, selectUserIdPieces name]

end Login

/-- A statement is handed over with its length, and the server finds the pieces in it that were meant. -/
def Faithful (d : Quoting.Dialect UInt8) (statement : Bytes × Nat) (pieces : List Bytes) : Prop :=
  statement.2 = statement.1.length ∧ Quoting.scan d .text statement.1 = some pieces

/-- The statements that are handed to `mysql_real_query`, with their lengths -/
def queries (tr : List Event) : List (Bytes × Nat) := tr.filterMap fun e => match e with
  | .query sql length _ => some (sql, length)
  | _ => none

/-- What is handed over between two states, the first statement first -/
def handed (s t : Server) : List (Bytes × Nat) := (queries (t.trace.take (t.trace.length - s.trace.length))).reverse

/-- The statements are the first ones of those that are meant. -/
def AllFaithful (d : Quoting.Dialect UInt8) (statements : List (Bytes × Nat)) (meant : List (List Bytes)) : Prop :=
  List.Forall₂ (Faithful d) statements (meant.take statements.length)

namespace Login

/-- `LoginRequest` goes on to the second statement: there is an account with this password. -/
def accepts (passwd : Bytes) : QueryAnswer → Bool
  | .row (some (_ :: some stored :: _)) => cStr passwd = cStr stored
  | _ => false

section
variable {backslash : Bool} {name passwd : Bytes}

/-- A statement with one literal is faithful if it happens to have the length, and the name stands for itself. -/
theorem faithful_iff {before behind : Bytes} (none : 39 ∉ before) (none' : 39 ∉ behind) :
    Faithful (mysql backslash) (before ++ [39] ++ name ++ 39 :: behind, queryLength) [before, name, behind] ↔
      before.length + name.length + behind.length + 2 = queryLength ∧ Quoting.verbatim (mysql backslash) false name := by
  have composed : before ++ [39] ++ name ++ 39 :: behind = Quoting.compose (mysql backslash) [before, name, behind] := by
    simp [Quoting.compose, List.intercalate_cons_of_ne_nil, mysql]
  have shape : Quoting.Texts (mysql backslash) [before, name, behind] := ⟨none, fun last => absurd rfl last, none'⟩
  have found := Quoting.scan_compose_iff shape
  unfold Faithful
  rw [← composed] at found
  refine and_congr ?_ (found.trans (and_iff_left trivial))
  simp only [List.length_append, List.length_cons, List.length_nil]
  omega

theorem selectAll_faithful_iff : Faithful (mysql backslash) (selectAll name, queryLength) (selectAllPieces name) ↔
    name.length = 26 ∧ Quoting.verbatim (mysql backslash) false name := by
  have before : ascii "select * from login where id = '" = ascii "select * from login where id = " ++ [39] := by decide
  have composed : selectAll name = ascii "select * from login where id = " ++ [39] ++ name ++ 39 :: ascii ";" := by
    rw [selectAll, before]
    rfl
  have long : (ascii "select * from login where id = ").length = 31 := by decide
  have last : (ascii ";").length = 1 := by decide
  rw [composed, selectAllPieces, faithful_iff (by decide) (by decide), long, last]
  refine and_congr_left fun _ => ?_
  unfold queryLength
  omega

theorem selectUserId_faithful_iff : Faithful (mysql backslash) (selectUserId name, queryLength) (selectUserIdPieces name) ↔
    name.length = 20 ∧ Quoting.verbatim (mysql backslash) false name := by
  have before : ascii "select user_id from login where id = '" = ascii "select user_id from login where id = " ++ [39] := by
    decide
  have composed : selectUserId name = ascii "select user_id from login where id = " ++ [39] ++ name ++ 39 :: ascii ";" := by
    rw [selectUserId, before]
    rfl
  have long : (ascii "select user_id from login where id = ").length = 37 := by decide
  have last : (ascii ";").length = 1 := by decide
  rw [composed, selectUserIdPieces, faithful_iff (by decide) (by decide), long, last]
  refine and_congr_left fun _ => ?_
  unfold queryLength
  omega

theorem insertLogin_length (h : Faithful (mysql backslash) (insertLogin name passwd, queryLength) (insertLoginPieces name passwd)) :
    name.length + passwd.length = 16 := by
  have length := h.1
  have before : (ascii "insert into login(id, passwd) values('").length = 38 := by decide
  have between : (ascii "','").length = 3 := by decide
  have behind : (ascii "');").length = 3 := by decide
  simp only [insertLogin, queryLength, List.length_append, before, between, behind] at length
  omega

end

/-! ### What is handed over -/

section
variable {env : Env} {name passwd : Bytes} {s t : Server}

theorem handed_eq {events : List Event} (trace : t.trace = events ++ s.trace) : handed s t = (queries events).reverse := by
  rw [handed, trace, List.length_append, Nat.add_sub_cancel, List.take_left]

/-- The state after a query -/
def asked (env : Env) (sql : Bytes) (s : Server) : Server := (s.tickSys 1).log (.query sql queryLength (env.query s.sys))

theorem asked_trace (sql : Bytes) :
    (asked env sql s).trace = .query sql queryLength (env.query s.sys) :: s.trace := rfl

theorem wp_realQuery {Q : QueryAnswer → Server → Prop} {E : Fault → Server → Prop} {sql : Bytes} :
    wp (realQuery env sql) Q E s = Q (env.query s.sys) (asked env sql s) := rfl

theorem readUserId_state (columns : Option (List (Option Bytes))) :
    wp (readUserId env columns) (fun _ t => t = s) (fun _ t => t = s) s := by
  unfold readUserId
  split <;> rfl

theorem queryUserId_state (done : LoginResult) :
    wp (queryUserId env name done) (fun _ t => t = asked env (selectUserId name) s)
      (fun _ t => t = asked env (selectUserId name) s) s := by
  simp only [queryUserId, wp_bind, wp_realQuery]
  split
  · rfl
  · simp only [wp_bind, wp_pure]
    exact readUserId_state _

/-- A login hands over the second statement where the account is accepted. -/
theorem loginRequest_handed : Along (fun s t => handed s t = (selectAll name, queryLength) ::
    if accepts passwd (env.query s.sys) then [(selectUserId name, queryLength)] else []) (loginRequest env name passwd) := by
  intro s
  have refused : accepts passwd (env.query s.sys) = false →
      handed s (asked env (selectAll name) s) = (selectAll name, queryLength) ::
        if accepts passwd (env.query s.sys) then [(selectUserId name, queryLength)] else [] := by
    intro refused
    have trace : (asked env (selectAll name) s).trace =
        [.query (selectAll name) queryLength (env.query s.sys)] ++ s.trace := rfl
    rw [refused, if_neg Bool.false_ne_true, handed_eq trace]
    rfl
  simp only [loginRequest, wp_bind, wp_realQuery]
  split
  · rename_i answer
    exact refused (by rw [answer]; rfl)
  · rename_i answer
    exact refused (by rw [answer]; rfl)
  · rename_i columns answer
    split
    · rename_i stored rest
      split
      · rename_i wrong
        exact refused (by rw [answer]; exact decide_eq_false wrong)
      · rename_i right
        have accepted : accepts passwd (env.query s.sys) = true := by
          rw [answer]
          exact decide_eq_true (not_not.mp right)
        have both : ∀ t, t = asked env (selectUserId name) (asked env (selectAll name) s) → handed s t = (selectAll name, queryLength) ::
              if accepts passwd (env.query s.sys) then [(selectUserId name, queryLength)] else [] := by
          rintro t rfl
          have trace : (asked env (selectUserId name) (asked env (selectAll name) s)).trace =
              [.query (selectUserId name) queryLength (env.query (asked env (selectAll name) s).sys),
                .query (selectAll name) queryLength (env.query s.sys)] ++ s.trace := rfl
          rw [accepted, if_pos rfl, handed_eq trace]
          rfl
        exact wp_mono (queryUserId_state _) (fun _ => both) fun _ => both
    · rename_i missing
      refine refused ?_
      rw [answer]
      unfold accepts
      split
      · rename_i same
        exact (missing _ _ _ (Option.some.inj (QueryAnswer.row.inj same))).elim
      · rfl

/-- A registration goes on where the name is not in use. -/
theorem newUserRegist_handed : Along (fun s t => if env.query s.sys = .row none then
      ∃ more, handed s t = (selectAll name, queryLength) :: (insertLogin name passwd, queryLength) :: more
    else handed s t = [(selectAll name, queryLength)]) (newUserRegist env name passwd) := by
  intro s
  have refused : env.query s.sys ≠ .row none →
      if env.query s.sys = .row none then ∃ more, handed s (asked env (selectAll name) s) =
        (selectAll name, queryLength) :: (insertLogin name passwd, queryLength) :: more
      else handed s (asked env (selectAll name) s) = [(selectAll name, queryLength)] := by
    intro refused
    have trace : (asked env (selectAll name) s).trace =
        [.query (selectAll name) queryLength (env.query s.sys)] ++ s.trace := rfl
    rw [if_neg refused, handed_eq trace]
    rfl
  simp only [newUserRegist, wp_bind, wp_realQuery]
  split
  · rename_i answer
    exact refused (by simp [answer])
  · rename_i answer
    exact refused (by simp [answer])
  · rename_i unused
    simp only [wp_bind, wp_realQuery]
    have inserted : ∀ t events answer answer', t.trace = events ++ [.query (insertLogin name passwd) queryLength answer,
        .query (selectAll name) queryLength answer'] ++ s.trace → if env.query s.sys = .row none then
          ∃ more, handed s t = (selectAll name, queryLength) :: (insertLogin name passwd, queryLength) :: more
        else handed s t = [(selectAll name, queryLength)] := by
      intro t events answer answer' trace
      rw [if_pos unused, handed_eq trace]
      exact ⟨(queries events).reverse, by simp [queries]⟩
    split
    · exact inserted _ [] _ _ rfl
    · refine wp_mono (queryUserId_state _) ?_ ?_
      · rintro _ t rfl
        exact inserted _ [_] _ _ rfl
      · rintro _ t rfl
        exact inserted _ [_] _ _ rfl

/-- The statements of a login reach the database as they are meant if and only if the name has 26 bytes that stand for
    themselves and no account accepts the password. Those of a registration do if and only if the name has 26 bytes that
    stand for themselves and it is in use, or the query fails. -/
theorem statements_faithful_iff (env : Env) (backslash : Bool) (name passwd : Bytes) :
    Along (fun s t => AllFaithful (mysql backslash) (handed s t) (loginPieces name) ↔
      (name.length = 26 ∧ Quoting.verbatim (mysql backslash) false name) ∧ accepts passwd (env.query s.sys) = false)
      (loginRequest env name passwd) ∧
    Along (fun s t => AllFaithful (mysql backslash) (handed s t) (registPieces name passwd) ↔
      (name.length = 26 ∧ Quoting.verbatim (mysql backslash) false name) ∧ env.query s.sys ≠ .row none)
      (newUserRegist env name passwd) := by
  have one : ∀ meant, AllFaithful (mysql backslash) [(selectAll name, queryLength)] (selectAllPieces name :: meant) ↔
      name.length = 26 ∧ Quoting.verbatim (mysql backslash) false name := fun meant => by
    simp [AllFaithful, selectAll_faithful_iff]
  constructor
  · intro s
    have reads : ∀ t, (handed s t = (selectAll name, queryLength) ::
        if accepts passwd (env.query s.sys) then [(selectUserId name, queryLength)] else []) →
        (AllFaithful (mysql backslash) (handed s t) (loginPieces name) ↔
          (name.length = 26 ∧ Quoting.verbatim (mysql backslash) false name) ∧ accepts passwd (env.query s.sys) = false) := by
      intro t handed
      rw [handed]
      cases accepted : accepts passwd (env.query s.sys) with
      | false =>
        rw [if_neg Bool.false_ne_true, loginPieces, one]
        exact (and_iff_left rfl).symm
      | true =>
        refine iff_of_false (fun all => ?_) fun h => absurd h.2 (by decide)
        -- the two statements are not as long as each other
        simp only [if_true, AllFaithful, loginPieces, List.length_cons, List.length_nil, List.take_succ_cons,
          List.take_zero, List.forall₂_cons, selectAll_faithful_iff, selectUserId_faithful_iff] at all
        omega
    exact wp_mono (loginRequest_handed s) (fun _ => reads) fun _ => reads
  · intro s
    have reads : ∀ t, (if env.query s.sys = .row none then
          ∃ more, handed s t = (selectAll name, queryLength) :: (insertLogin name passwd, queryLength) :: more
        else handed s t = [(selectAll name, queryLength)]) →
        (AllFaithful (mysql backslash) (handed s t) (registPieces name passwd) ↔
          (name.length = 26 ∧ Quoting.verbatim (mysql backslash) false name) ∧ env.query s.sys ≠ .row none) := by
      intro t handed
      split at handed
      · rename_i unused
        obtain ⟨more, handed⟩ := handed
        rw [handed]
        refine iff_of_false (fun all => ?_) fun h => absurd unused h.2
        simp only [AllFaithful, registPieces, List.length_cons, List.take_succ_cons, List.forall₂_cons,
          selectAll_faithful_iff] at all
        have short := insertLogin_length all.2.1
        omega
      · rename_i used
        rw [handed, registPieces, one]
        exact (and_iff_left used).symm
    exact wp_mono (newUserRegist_handed s) (fun _ => reads) fun _ => reads

end

/-- A first statement that is not faithful -/
theorem loginRequest_unfaithful {env : Env} {name passwd : Bytes}
    (unfit : ¬(name.length = 26 ∧ Quoting.verbatim (mysql true) false name)) :
    Along (fun s t => ¬AllFaithful (mysql true) (handed s t) (loginPieces name)) (loginRequest env name passwd) := by
  intro s
  have reads : ∀ t rest, handed s t = (selectAll name, queryLength) :: rest →
      ¬AllFaithful (mysql true) (handed s t) (loginPieces name) := by
    intro t rest handed all
    simp only [handed, AllFaithful, loginPieces, List.length_cons, List.take_succ_cons, List.forall₂_cons,
      selectAll_faithful_iff] at all
    exact unfit all.1
  exact wp_mono (loginRequest_handed s) (fun _ t => reads t _) fun _ t => reads t _

/-- A name of 26 bytes that ends the literal -/
def quotingName : Bytes := ascii "' or 1=1 limit 1 -- aaaaaa"

/-- For the name "a" the server is handed 25 bytes more than there are, and with the other one it finds a condition that
    every account meets. -/
theorem names_unfaithful :
    Along (fun s t => ¬AllFaithful (mysql true) (handed s t) (loginPieces [97])) (loginRequest Script.quiet [97] [97]) ∧
    Along (fun s t => ¬AllFaithful (mysql true) (handed s t) (loginPieces quotingName))
      (loginRequest Script.quiet quotingName [97]) :=
  ⟨loginRequest_unfaithful (by decide), loginRequest_unfaithful (by decide)⟩

end Login

end IslandSurvival

import IslandSurvival.Model.Server

/-! `Login`: the account checks. The database answers through the environment. -/

namespace IslandSurvival

inductive LoginResult
  | dbError | loginSucceed | loginFailed | registSucceed | registUsed
deriving DecidableEq, Repr

namespace Login

def ascii (text : String) : Bytes := text.toList.map fun c => .ofNat c.toNat

/-- The length that every call passes to `mysql_real_query`. -/
def queryLength : Nat := 60

def selectAll (name : Bytes) : Bytes := ascii "select * from login where id = '" ++ name ++ ascii "';"

def selectUserId (name : Bytes) : Bytes := ascii "select user_id from login where id = '" ++ name ++ ascii "';"

def insertLogin (name passwd : Bytes) : Bytes :=
  ascii "insert into login(id, passwd) values('" ++ name ++ ascii "','" ++ passwd ++ ascii "');"

/-- A byte string as `c_str` functions see it. -/
def cStr (text : Bytes) : Bytes := text.takeWhile (· ≠ 0)

def isSpace (c : UInt8) : Bool := c = 32 || (9 ≤ c && c ≤ 13)
def isDigit (c : UInt8) : Bool := 48 ≤ c && c ≤ 57

def decimal (digits : Bytes) : Int := digits.foldl (fun n c => n * 10 + (c.toNat - 48)) 0

/-- `strtol` stops at the bounds of a `long`. -/
def saturated (n : Int) : Int := max (-9223372036854775808) (min 9223372036854775807 n)

/-- `sscanf` with `%d`, the low 32 bits of what `strtol` reads; `none` leaves the variable as it was. -/
def sscanfD (text : Bytes) : Option Int :=
  let text := (cStr text).dropWhile isSpace
  let (neg, text) := match text with
    | 45 :: rest => (true, rest)
    | 43 :: rest => (false, rest)
    | _ => (false, text)
  match text.takeWhile isDigit with
  | [] => none
  | digits => some (toInt32 (saturated (if neg then -decimal digits else decimal digits)))

section
variable (env : Env)

/-- `mysql_real_query` with the row that `mysql_fetch_row` then gives. -/
def realQuery (sql : Bytes) : M QueryAnswer := do
  let s ← get
  let answer := env.query s.sys
  set ((s.tickSys 1).log (.query sql queryLength answer))
  return answer

/-- `sscanf(m_row[0], "%d", &user_id)` on a fetched row. -/
def readUserId (columns : Option (List (Option Bytes))) : M Int := do
  match columns with
  | some (some text :: _) => return (sscanfD text).getD (env.uninit (← get).sys)
  | _ => throw .nullRow

/-- The second query of both requests. -/
def queryUserId (name : Bytes) (done : LoginResult) : M (LoginResult × Int) := do
  match ← realQuery env (selectUserId name) with
  | .error => return (.dbError, env.uninit (← get).sys)
  | .row columns =>
    let userId ← readUserId env columns
    return (done, userId)

def loginRequest (name passwd : Bytes) : M (LoginResult × Int) := do
  match ← realQuery env (selectAll name) with
  | .error => return (.dbError, env.uninit (← get).sys)
  | .row none => return (.loginFailed, env.uninit (← get).sys)
  | .row (some columns) =>
    match columns with
    | _ :: some stored :: _ =>
      if cStr passwd ≠ cStr stored then
        return (.loginFailed, env.uninit (← get).sys)
      else
        queryUserId env name .loginSucceed
    | _ => throw .nullRow

def newUserRegist (name passwd : Bytes) : M (LoginResult × Int) := do
  match ← realQuery env (selectAll name) with
  | .error => return (.dbError, env.uninit (← get).sys)
  | .row (some _) => return (.registUsed, env.uninit (← get).sys)
  | .row none =>
    match ← realQuery env (insertLogin name passwd) with
    | .error => return (.dbError, env.uninit (← get).sys)
    | .row _ => queryUserId env name .registSucceed

end

end Login

end IslandSurvival

import IslandSurvival.Model.Server

/-! `Heartbeat` and `PersonManager`, as far as they call nothing else. -/

namespace IslandSurvival

/-! ## `Heartbeat` -/

namespace Heartbeat

/-- `DeleteFD` -/
def erase (fd : Int) (s : Server) : Ret × Server :=
  match s.fdToSec[fd]? with
  | none => (.fail, s)
  | some sec =>
    if (sec, fd) ∈ s.secFd then
      (.success, { s with secFd := s.secFd.erase (sec, fd), fdToSec := s.fdToSec.erase fd })
    else
      (.fail, s)

def insert (fd nowsec : Int) (s : Server) : Server :=
  { s with secFd := s.secFd.insert (nowsec, fd), fdToSec := s.fdToSec.insert fd nowsec }

variable (env : Env)

def initFd (fd : Int) : M Unit := do
  if fd ∈ (← get).fdToSec then
    return ()
  else
    let nowsec ← getNowTimeSecond env
    modify (insert fd nowsec)

def updateFd (fd : Int) : M Unit := do
  let s ← get
  match erase fd s with
  | (.success, s') =>
    set s'
    let nowsec ← getNowTimeSecond env
    modify (insert fd nowsec)
  | _ => return ()

/-- The element after `e`, where `it++` leads; `none` is `end()`. -/
def next (set : PairSet) (e : Int × Int) : Option (Int × Int) :=
  set.toList.find? fun e' => comparePair e e' == .lt

end Heartbeat

/-! ## `PersonManager` -/

namespace PersonManager

def personLogin (userId : Int) (name : Bytes) (s : Server) : Ret × Server :=
  match s.persons[userId]? with
  | none => (.success, { s with persons := s.persons.insert userId { name, status := .inHall, userId } })
  | some _ => (.fail, s)

/-- `ChangePersonStatus`, with `Person::ChangeStatus` -/
def changePersonStatus (userId : Int) (status : PersonStatus) (s : Server) : Ret × Server :=
  match s.persons[userId]? with
  | none => (.fail, s)
  | some person =>
    if status = person.status then
      (.fail, s)
    else
      (.success, { s with persons := s.persons.insert userId { person with status } })

/-- `GetPersonName`; a user without a `Person` is called "default". -/
def getPersonName (s : Server) (userId : Int) : Bytes :=
  match s.persons[userId]? with
  | none => [100, 101, 102, 97, 117, 108, 116]
  | some person => person.name

end PersonManager

end IslandSurvival

import Mathlib.Data.Int.Init
import Mathlib.Data.List.Basic

/-! What every file of the server shares: bytes, 32-bit arithmetic and the ways in which the C++
    program can stop having a defined meaning. -/

namespace IslandSurvival

abbrev Bytes := List UInt8

/-- Undefined behaviour, at which a run of the model ends. -/
inductive Fault
  /-- a member function called through a null pointer -/
  | nullPointer
  /-- a row of a query, or a column of it, that is missing -/
  | nullRow
  /-- `m_connects[fd]` for a missing `fd`: `operator[]` inserts a null socket, which the caller uses -/
  | nullSocket (fd : Int)
  | outOfBounds
  /-- a set iterator used after its element was erased -/
  | danglingIterator
  | signedOverflow
  /-- a message processed as a type it does not have -/
  | badCast
  /-- the fuel of a loop or recursion of the model ran out -/
  | fuel
deriving DecidableEq, Repr

/-- The return codes of `server_base.h`. -/
inductive Ret
  | success
  | fail
  | error
deriving DecidableEq, Repr

def int32Min : Int := -2147483648
def int32Max : Int := 2147483647

/-- Conversion to `int32_t` keeps the low 32 bits. -/
def toInt32 (x : Int) : Int := x.bmod 4294967296

/-- A signed 32-bit result, undefined when it does not fit. -/
def checked (x : Int) : Except Fault Int :=
  if int32Min ≤ x ∧ x ≤ int32Max then .ok x else .error .signedOverflow

def add32 (a b : Int) : Except Fault Int := checked (a + b)
def sub32 (a b : Int) : Except Fault Int := checked (a - b)

theorem checked_eq_ok {x y : Int} : checked x = .ok y ↔ y = x ∧ int32Min ≤ x ∧ x ≤ int32Max := by
  unfold checked
  split
  · rename_i h
    simp [h, eq_comm]
  · rename_i h
    simp [h]

theorem add32_eq_ok {a b y : Int} : add32 a b = .ok y ↔ y = a + b ∧ int32Min ≤ a + b ∧ a + b ≤ int32Max :=
  checked_eq_ok

theorem sub32_eq_ok {a b y : Int} : sub32 a b = .ok y ↔ y = a - b ∧ int32Min ≤ a - b ∧ a - b ≤ int32Max :=
  checked_eq_ok

theorem toInt32_bounds (x : Int) : int32Min ≤ toInt32 x ∧ toInt32 x ≤ int32Max := by
  have h₁ := Int.le_bmod (x := x) (m := 4294967296) (by decide)
  have h₂ := Int.bmod_lt (x := x) (m := 4294967296) (by decide)
  unfold toInt32 int32Min int32Max
  omega

end IslandSurvival

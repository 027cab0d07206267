import Mathlib.Data.List.Basic
import Mathlib.Data.List.GetD
import Mathlib.Tactic.Common

/-! Byte memories: a block of memory is a function from offsets to cells, read and written by the
    block. Reading back what was written, and the frame of a write, are all that a buffer with a head
    and a tail needs. -/

namespace Memory

variable {β : Type}

/-- The `n` cells of `m` from offset `off` on. -/
def read (m : Nat → β) (off n : Nat) : List β := (List.range' off n).map m

/-- `m` with the cells from offset `off` on overwritten by `data`. -/
def write (m : Nat → β) (off : Nat) (data : List β) : Nat → β :=
  fun i => if off ≤ i then data.getD (i - off) (m i) else m i

section Rules
variable {m : Nat → β} {off n : Nat} {data : List β}

@[simp] theorem length_read : (read m off n).length = n := by simp [read]

@[simp] theorem read_zero : read m off 0 = [] := rfl

theorem read_add (k : Nat) : read m off (n + k) = read m off n ++ read m (off + n) k := by
  simp only [read, ← List.map_append, List.range'_append_1]

theorem read_congr {m' : Nat → β} (h : ∀ i, off ≤ i → i < off + n → m i = m' i) : read m off n = read m' off n := by
  refine List.map_congr_left fun i hi => ?_
  rw [List.mem_range'_1] at hi
  exact h i hi.1 hi.2

theorem take_read {k : Nat} (h : k ≤ n) : (read m off n).take k = read m off k := by
  conv_lhs => rw [← Nat.add_sub_cancel' h, read_add]
  rw [List.take_append_of_le_length (by simp), List.take_of_length_le (by simp)]

theorem drop_read {k : Nat} (h : k ≤ n) : (read m off n).drop k = read m (off + k) (n - k) := by
  conv_lhs => rw [← Nat.add_sub_cancel' h, read_add]
  rw [List.drop_append_of_le_length (by simp), List.drop_of_length_le (by simp), List.nil_append]

theorem write_apply_lt {i : Nat} (h : i < off) : write m off data i = m i := by
  simp [write, Nat.not_le.mpr h]

theorem write_apply_ge {i : Nat} (h : off + data.length ≤ i) : write m off data i = m i := by
  unfold write
  split
  · rw [List.getD_eq_default _ _ (by omega)]
  · rfl

theorem write_apply_mid {i : Nat} (h : i < data.length) : write m off data (off + i) = data[i] := by
  simp [write, h]

/-- A block is read back as it was written. -/
theorem read_write : read (write m off data) off data.length = data := by
  refine List.ext_getElem (by simp) fun i h _ => ?_
  rw [length_read] at h
  simp [read, write_apply_mid h]

/-- A write beyond a block leaves the block as it is. -/
theorem read_write_of_le {a k : Nat} (h : a + k ≤ off) : read (write m off data) a k = read m a k :=
  read_congr fun _ _ hi => write_apply_lt (by omega)

/-- A write at the end of a block extends it. -/
theorem read_write_append {a k : Nat} (h : a + k = off) :
    read (write m off data) a (k + data.length) = read m a k ++ data := by
  rw [read_add, read_write_of_le (Nat.le_of_eq h), h, read_write]

/-- The front of a written block is read back. -/
theorem read_write_of_length_le {k : Nat} (h : data.length = k) : read (write m off data) off k = data := by
  subst h
  exact read_write

/-- A list as a memory -/
theorem read_getD {l : List β} {d : β} (h : n ≤ l.length) : read (l.getD · d) 0 n = l.take n := by
  refine List.ext_getElem (by simp [h]) fun i hi _ => ?_
  rw [length_read] at hi
  simp [read, List.getElem?_eq_getElem (Nat.lt_of_lt_of_le hi h)]

end Rules

end Memory

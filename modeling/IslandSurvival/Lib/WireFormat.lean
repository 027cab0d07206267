import Mathlib.Algebra.Order.Ring.Nat
import Mathlib.Data.List.Basic

/-! The wire format of protocol buffers: numbers of variable length, and fields with a tag before them. -/

namespace WireFormat

/-- A number in groups of seven bits, the lowest first. All bytes but the last one have their high bit set. -/
def varintBytes : Nat → Nat → List UInt8
  | 0, _ => []
  | fuel + 1, v => if v < 128 then [.ofNat v] else .ofNat (v % 128 + 128) :: varintBytes fuel (v / 128)

/-- Ten groups hold 64 bits. -/
def varint (v : Nat) : List UInt8 := varintBytes 10 v

/-- A negative number is extended to 64 bits. -/
def signedVarint (v : Int) : List UInt8 := varint (v % 18446744073709551616).toNat

def tag (field wireType : Nat) : List UInt8 := varint (field * 8 + wireType)

def int32 (field : Nat) (v : Int) : List UInt8 := tag field 0 ++ signedVarint v

def bool (field : Nat) (b : Bool) : List UInt8 := tag field 0 ++ [if b then 1 else 0]

def fixed32 (field : Nat) (v : UInt32) : List UInt8 :=
  tag field 5 ++ [.ofNat v.toNat, .ofNat (v.toNat / 256), .ofNat (v.toNat / 65536), .ofNat (v.toNat / 16777216)]

def lengthDelimited (field : Nat) (data : List UInt8) : List UInt8 := tag field 2 ++ varint data.length ++ data

/-! ### Sizes -/

def varintSize (v : Nat) : Nat :=
  if v < 128 then 1 else if v < 16384 then 2 else if v < 2097152 then 3 else if v < 268435456 then 4 else 5

def signedVarintSize (v : Int) : Nat := if v < 0 then 10 else varintSize v.toNat

variable {fuel n v field wireType : Nat}

theorem length_varintBytes_le : ∀ fuel v, (varintBytes fuel v).length ≤ fuel
  | 0, _ => Nat.le_refl 0
  | fuel + 1, v => by
    rw [varintBytes]
    split
    · exact Nat.succ_le_succ (Nat.zero_le fuel)
    · exact Nat.succ_le_succ (length_varintBytes_le fuel (v / 128))

theorem length_varint_le (v : Nat) : (varint v).length ≤ 10 := length_varintBytes_le 10 v

/-- A number of `n + 1` groups -/
theorem length_varintBytes : ∀ {n fuel v}, n < fuel → 128 ^ n ≤ v ∨ n = 0 → v < 128 ^ (n + 1) →
    (varintBytes fuel v).length = n + 1
  | 0, fuel + 1, v, _, _, lt => by
    rw [varintBytes, if_pos (by simpa using lt)]
    rfl
  | n + 1, fuel + 1, v, enough, le, lt => by
    have le : 128 ^ n * 128 ≤ v := by
      rw [← Nat.pow_succ]
      exact le.resolve_right (Nat.succ_ne_zero n)
    have one : 1 ≤ 128 ^ n := Nat.one_le_pow n 128 (by decide)
    rw [varintBytes, if_neg (by omega), List.length_cons]
    have lower : 128 ^ n ≤ v / 128 := (Nat.le_div_iff_mul_le (by decide)).mpr le
    have upper : v / 128 < 128 ^ (n + 1) := Nat.div_lt_of_lt_mul (by rwa [Nat.mul_comm, ← Nat.pow_succ])
    rw [length_varintBytes (Nat.lt_of_succ_lt_succ enough) (.inl lower) upper]

theorem length_varint (small : v < 34359738368) : (varint v).length = varintSize v := by
  unfold varint varintSize
  split
  · exact length_varintBytes (n := 0) (by decide) (.inr rfl) (by omega)
  · split
    · exact length_varintBytes (n := 1) (by decide) (.inl (by omega)) (by omega)
    · split
      · exact length_varintBytes (n := 2) (by decide) (.inl (by omega)) (by omega)
      · split
        · exact length_varintBytes (n := 3) (by decide) (.inl (by omega)) (by omega)
        · exact length_varintBytes (n := 4) (by decide) (.inl (by omega)) (by omega)

theorem length_signedVarint {v : Int} (lower : -2147483648 ≤ v) (upper : v ≤ 2147483647) :
    (signedVarint v).length = signedVarintSize v := by
  unfold signedVarint signedVarintSize
  split
  · exact length_varintBytes (n := 9) (by decide) (.inl (by omega)) (by omega)
  · rw [Int.emod_eq_of_lt (by omega) (by omega)]
    exact length_varint (by omega)

theorem length_tag (few : field < 16) (type : wireType < 8) : (tag field wireType).length = 1 :=
  length_varint (by omega) |>.trans (if_pos (by omega))

theorem length_int32_le (few : field < 16) (v : Int) : (int32 field v).length ≤ 11 := by
  have len := length_varint_le (v % 18446744073709551616).toNat
  rw [int32, List.length_append, length_tag few (by decide), signedVarint]
  omega

theorem length_int32 (few : field < 16) {v : Int} (lower : -2147483648 ≤ v) (upper : v ≤ 2147483647) :
    (int32 field v).length = 1 + signedVarintSize v := by
  rw [int32, List.length_append, length_tag few (by decide), length_signedVarint lower upper]

theorem length_bool (few : field < 16) (b : Bool) : (bool field b).length = 2 := by
  rw [bool, List.length_append, length_tag few (by decide)]
  rfl

theorem length_fixed32 (few : field < 16) (v : UInt32) : (fixed32 field v).length = 5 := by
  rw [fixed32, List.length_append, length_tag few (by decide)]
  rfl

theorem length_lengthDelimited (few : field < 16) {data : List UInt8} (small : data.length < 34359738368) :
    (lengthDelimited field data).length = 1 + varintSize data.length + data.length := by
  rw [lengthDelimited, List.length_append, List.length_append, length_tag few (by decide), length_varint small]

theorem length_le_lengthDelimited (field : Nat) (data : List UInt8) : data.length ≤ (lengthDelimited field data).length := by
  rw [lengthDelimited, List.length_append]
  exact Nat.le_add_left _ _

end WireFormat

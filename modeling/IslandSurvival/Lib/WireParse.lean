import IslandSurvival.Lib.Reader
import IslandSurvival.Lib.WireFormat

/-! The reading of the wire format, for messages whose fields are numbers and strings: the parser of the runtime on
    one side, and on the other what the bytes of a message are. Both know the fields of a class from a descriptor. -/

namespace WireFormat
open Reader

/-! ### Classes and objects -/

inductive Kind
  | int32
  | fixed32
  | string
deriving DecidableEq, Repr

def Kind.wireType : Kind → Nat
  | int32 => 0
  | fixed32 => 5
  | string => 2

structure Field where
  number : Nat
  kind : Kind
  required : Bool

/-- The fields of a class -/
abbrev Descriptor := List Field

/-- The kind of the field that a tag stands for. A tag with another type of the wire stands for no field. -/
def Descriptor.takes (d : Descriptor) (tag : Nat) : Option Kind :=
  ((d.find? (·.number = tag / 8)).map (·.kind)).filter (·.wireType = tag % 8)

inductive Value
  | int32 (v : Int)
  | fixed32 (v : UInt32)
  | string (data : List UInt8)
deriving DecidableEq, Repr

/-- A message object: the fields that it has, with their values -/
abbrev Object := Nat → Option Value

def Object.empty : Object := fun _ => none

def Object.set (obj : Object) (number : Nat) (value : Option Value) : Object := Function.update obj number value

/-- `IsInitialized`: the required fields are there. -/
def Descriptor.initialized (d : Descriptor) (obj : Object) : Bool :=
  d.all fun f => !f.required || (obj f.number).isSome

/-! ### The parser -/

/-- A number in groups of seven bits, the lowest first. All bytes but the last one have their high bit set. -/
def readGroups : Nat → Reader UInt8 Nat
  | 0 => failure
  | fuel + 1 => do
    let b ← take1
    if b.toNat < 128 then return b.toNat
    else return b.toNat - 128 + 128 * (← readGroups fuel)

/-- `ReadVarint32` and `ReadVarint64`: at most ten groups, of which the low bits count. -/
def readVarint (bits : Nat) : Reader UInt8 Nat := do return (← readGroups 10) % 2 ^ bits

def readInt32 : Reader UInt8 Int := do return (← readVarint 32 : Int).bmod 4294967296

/-- `ReadLittleEndian32` -/
def readFixed32 : Reader UInt8 UInt32 := do
  let bytes ← takeN 4
  return .ofNat (bytes.foldr (fun b v => b.toNat + 256 * v) 0)

/-- A length is an `int`, and a negative one is refused. -/
def readLength : Reader UInt8 Nat := do
  let length ← readVarint 32
  if length < 2147483648 then return length else failure

def readString : Reader UInt8 (List UInt8) := do takeN (← readLength)

def readValue : Kind → Reader UInt8 Value
  | .int32 => do return .int32 (← readInt32)
  | .fixed32 => do return .fixed32 (← readFixed32)
  | .string => do return .string (← readString)

/-- What a value that could not be read leaves in its field. A string is taken from the object before it is read: without
    a length it stays as it is, and with one that is too long it becomes what there is. -/
def unread : Kind → Option Value → List UInt8 → Option Value
  | .string, old, s =>
    match readLength s with
    | none => some (old.getD (.string []))
    | some (_, rest) => some (.string rest)
  | _, old, _ => old

/-- `SkipMessage`, up to the tag that ends a group, which it returns. A tag of zero, as at the end of the input, ends no
    group, so the caller fails. -/
def skipMessage (skipField : Nat → Reader UInt8 Unit) : Nat → Reader UInt8 Nat
  | 0 => failure
  | fuel + 1 => do
    let tag ← readVarint 32
    if tag = 0 then failure
    else if tag % 8 = 4 then return tag
    else do
      skipField tag
      skipMessage skipField fuel

/-- `SkipField`, where so many groups may still be opened -/
def skipField : Nat → Nat → Reader UInt8 Unit
  | levels, tag =>
    match tag % 8 with
    | 0 => do
      let _ ← readVarint 64
    | 1 => do
      let _ ← takeN 8
    | 2 => do
      let _ ← readString
    | 3 =>
      match levels with
      | 0 => failure
      | levels + 1 => do
        let last ← fun s => skipMessage (skipField levels) (s.length + 1) s
        if last = tag / 8 * 8 + 4 then return () else failure
    | 5 => do
      let _ ← takeN 4
    | _ => failure

/-- `recursion_limit_` -/
def recursionLimit : Nat := 100

/-- `MergePartialFromCodedStream`, and whether it returned true at a legitimate end of the message. At a tag of zero or
    one that ends a group it returns true too, but the message is not consumed. -/
def merge (d : Descriptor) : Nat → Object → List UInt8 → Object × Bool
  | 0, obj, _ => (obj, false)
  | _ + 1, obj, [] => (obj, true)
  | fuel + 1, obj, s =>
    match readVarint 32 s with
    | none => (obj, false)
    | some (tag, rest) =>
      if tag = 0 then
        (obj, false)
      else
        match d.takes tag with
        | some kind =>
          match readValue kind rest with
          | some (value, rest) => merge d fuel (obj.set (tag / 8) value) rest
          | none => (obj.set (tag / 8) (unread kind (obj (tag / 8)) rest), false)
        | none =>
          match skipField recursionLimit tag rest with
          | some (_, rest) => merge d fuel obj rest
          | none => (obj, false)

/-- `ParseFromString`: what it leaves in the object, and its result. -/
def parse (d : Descriptor) (s : List UInt8) : Object × Bool :=
  let (obj, consumed) := merge d (s.length + 1) .empty s
  (obj, consumed && d.initialized obj)

/-! ### The grammar -/

inductive Groups : Nat → List UInt8 → Prop
  | last {b : UInt8} : b.toNat < 128 → Groups b.toNat [b]
  | more {b : UInt8} {v : Nat} {s : List UInt8} :
    128 ≤ b.toNat → Groups v s → Groups (b.toNat - 128 + 128 * v) (b :: s)

/-- A number need not be in the shortest form. -/
def Varint (bits v : Nat) (s : List UInt8) : Prop := s.length ≤ 10 ∧ ∃ w, Groups w s ∧ v = w % 2 ^ bits

def Delimited (data s : List UInt8) : Prop :=
  ∃ length, Varint 32 data.length length ∧ data.length < 2147483648 ∧ length ++ data = s

/-- The bytes of a value, behind the tag of its field -/
inductive Payload : Kind → Value → List UInt8 → Prop
  | int32 {v : Nat} {s : List UInt8} : Varint 32 v s → Payload .int32 (.int32 ((v : Int).bmod 4294967296)) s
  | fixed32 {b₀ b₁ b₂ b₃ : UInt8} : Payload .fixed32
    (.fixed32 (.ofNat (b₀.toNat + 256 * (b₁.toNat + 256 * (b₂.toNat + 256 * b₃.toNat))))) [b₀, b₁, b₂, b₃]
  | string {data s : List UInt8} : Delimited data s → Payload .string (.string data) s

/-- A tag and what stands behind it -/
inductive Record (payload : Nat → List UInt8 → Prop) : List UInt8 → Prop
  | mk {tag : Nat} {a b : List UInt8} : Varint 32 tag a → tag ≠ 0 → payload tag b → Record payload (a ++ b)

/-- What stands behind the tag of a field that is skipped -/
inductive Unknown (group : Nat → List UInt8 → Prop) (tag : Nat) : List UInt8 → Prop
  | varint {v : Nat} {s : List UInt8} : tag % 8 = 0 → Varint 64 v s → Unknown group tag s
  | fixed64 {s : List UInt8} : tag % 8 = 1 → s.length = 8 → Unknown group tag s
  | delimited {data s : List UInt8} : tag % 8 = 2 → Delimited data s → Unknown group tag s
  | group {s : List UInt8} : tag % 8 = 3 → group (tag / 8) s → Unknown group tag s
  | fixed32 {s : List UInt8} : tag % 8 = 5 → s.length = 4 → Unknown group tag s

/-- The records of a group, and the tag that ends it -/
def Group : Nat → Nat → List UInt8 → Prop
  | 0, _, _ => False
  | levels + 1, number, s =>
    ∃ body close, Many (Record (Unknown (Group levels))) body ∧ Varint 32 (number * 8 + 4) close ∧ body ++ close = s

/-- An entry of a message: a field of the class with its value, or a record that is skipped -/
inductive Entry (d : Descriptor) : Option (Nat × Value) → List UInt8 → Prop
  | known {tag : Nat} {kind : Kind} {value : Value} {a b : List UInt8} : Varint 32 tag a → tag ≠ 0 →
    d.takes tag = some kind → Payload kind value b → Entry d (some (tag / 8, value)) (a ++ b)
  | unknown {tag : Nat} {a b : List UInt8} : Varint 32 tag a → tag ≠ 0 → d.takes tag = none →
    Unknown (Group recursionLimit) tag b → Entry d none (a ++ b)

/-- The bytes of a message in which these fields come one after the other -/
inductive Message (d : Descriptor) : List (Nat × Value) → List UInt8 → Prop
  | nil : Message d [] []
  | cons {entry : Option (Nat × Value)} {fields : List (Nat × Value)} {a b : List UInt8} :
    Entry d entry a → Message d fields b → Message d (entry.toList ++ fields) (a ++ b)

/-- The last value of a field counts. -/
def Object.store (obj : Object) (fields : List (Nat × Value)) : Object :=
  fields.foldl (fun obj field => obj.set field.1 (some field.2)) obj

/-- A string at the front of the bytes that is not there as a whole, and the value that its field gets -/
inductive CutString (d : Descriptor) (obj : Object) : List UInt8 → Nat → Value → Prop
  | noLength {tag : Nat} {a b : List UInt8} : Varint 32 tag a → tag ≠ 0 → d.takes tag = some .string →
    (∀ n x y, Varint 32 n x → n < 2147483648 → x ++ y ≠ b) →
    CutString d obj (a ++ b) (tag / 8) ((obj (tag / 8)).getD (.string []))
  | tooLong {tag n : Nat} {a x data : List UInt8} : Varint 32 tag a → tag ≠ 0 → d.takes tag = some .string →
    Varint 32 n x → n < 2147483648 → data.length < n → CutString d obj (a ++ (x ++ data)) (tag / 8) (.string data)

/-! ### The parser reads the grammar -/

section Reads

theorem Groups.length_pos {v : Nat} {s : List UInt8} (groups : Groups v s) : 0 < s.length := by
  cases groups <;> exact Nat.succ_pos _

theorem reads_groups : ∀ fuel, Reads (fun v s => s.length ≤ fuel ∧ Groups v s) (readGroups fuel)
  | 0 => Reads.failure.congr fun v s => by
    refine ⟨False.elim, ?_⟩
    rintro ⟨short, groups⟩
    exact absurd groups.length_pos (by omega)
  | fuel + 1 => by
    refine (Reads.take1.bind fun b => Reads.ite (fun _ => Reads.pure b.toNat)
      fun _ => (reads_groups fuel).map (b.toNat - 128 + 128 * ·)).congr fun v s => ?_
    constructor
    · rintro ⟨b, _, t, rfl, next, rfl⟩
      split at next
      · obtain ⟨rfl, rfl⟩ := next
        exact ⟨Nat.succ_le_succ (Nat.zero_le fuel), .last ‹_›⟩
      · obtain ⟨w, ⟨short, groups⟩, rfl⟩ := next
        exact ⟨Nat.succ_le_succ short, .more (Nat.le_of_not_lt ‹_›) groups⟩
    · rintro ⟨short, groups⟩
      rcases groups with @⟨b, small⟩ | @⟨b, w, t, big, groups⟩
      · exact ⟨b, [b], [], rfl, by rw [if_pos small]; exact ⟨rfl, rfl⟩, rfl⟩
      · refine ⟨b, [b], t, rfl, ?_, rfl⟩
        rw [if_neg (Nat.not_lt_of_le big)]
        exact ⟨w, ⟨Nat.le_of_succ_le_succ short, groups⟩, rfl⟩

theorem reads_varint (bits : Nat) : Reads (Varint bits) (readVarint bits) :=
  ((reads_groups 10).map (· % 2 ^ bits)).congr fun v s => by
    constructor
    · rintro ⟨w, ⟨short, groups⟩, eq⟩
      exact ⟨short, w, groups, eq⟩
    · rintro ⟨short, w, groups, eq⟩
      exact ⟨w, ⟨short, groups⟩, eq⟩

theorem reads_length : Reads (fun n s => Varint 32 n s ∧ n < 2147483648) readLength :=
  ((reads_varint 32).bind fun n => Reads.ite (fun _ => Reads.pure n) fun _ => Reads.failure).congr fun n s => by
    constructor
    · rintro ⟨n, a, b, varint, next, rfl⟩
      split at next
      · obtain ⟨rfl, rfl⟩ := next
        exact ⟨(List.append_nil a).symm ▸ varint, ‹_›⟩
      · exact next.elim
    · rintro ⟨varint, small⟩
      exact ⟨n, s, [], varint, by rw [if_pos small]; exact ⟨rfl, rfl⟩, List.append_nil s⟩

theorem reads_string : Reads Delimited readString :=
  (reads_length.bind Reads.takeN).congr fun data s => by
    constructor
    · rintro ⟨n, a, b, ⟨varint, small⟩, ⟨rfl, rfl⟩, rfl⟩
      exact ⟨a, varint, small, rfl⟩
    · rintro ⟨a, varint, small, rfl⟩
      exact ⟨data.length, a, data, ⟨varint, small⟩, ⟨rfl, rfl⟩, rfl⟩

theorem reads_int32 : Reads (fun n s => ∃ v : Nat, Varint 32 v s ∧ n = (v : Int).bmod 4294967296) readInt32 :=
  (reads_varint 32).map _

theorem reads_value : ∀ kind, Reads (Payload kind) (readValue kind)
  | .int32 => (reads_int32.map Value.int32).congr fun value s => by
    constructor
    · rintro ⟨n, ⟨v, varint, eq⟩, rfl⟩
      rw [eq]
      exact .int32 varint
    · intro payload
      cases payload with
      | int32 varint => exact ⟨_, ⟨_, varint, rfl⟩, rfl⟩
  | .fixed32 => (((Reads.takeN 4).map _).map Value.fixed32).congr fun value s => by
    constructor
    · rintro ⟨_, ⟨bytes, ⟨rfl, len⟩, rfl⟩, rfl⟩
      obtain ⟨b₀, b₁, b₂, b₃, rfl⟩ := List.length_eq_four.mp len
      exact .fixed32
    · intro payload
      cases payload with
      | fixed32 => exact ⟨_, ⟨_, ⟨rfl, rfl⟩, rfl⟩, rfl⟩
  | .string => (reads_string.map Value.string).congr fun value s => by
    constructor
    · rintro ⟨data, delimited, rfl⟩
      exact .string delimited
    · intro payload
      cases payload with
      | string delimited => exact ⟨_, delimited, rfl⟩

theorem Varint.length_pos {bits v : Nat} {s : List UInt8} (varint : Varint bits v s) : 0 < s.length := by
  obtain ⟨-, w, groups, -⟩ := varint
  exact groups.length_pos

section Skip
variable {payload : Nat → List UInt8 → Prop} {skip : Nat → Reader UInt8 Unit} {last : Nat}

theorem skipMessage_sound (S : ∀ tag, Reads (fun _ => payload tag) (skip tag)) : ∀ {fuel s rest},
    skipMessage skip fuel s = some (last, rest) → ∃ body close,
      Many (Record payload) body ∧ Varint 32 last close ∧ last % 8 = 4 ∧ body ++ close ++ rest = s
  | 0, s, rest, eq => by cases eq
  | fuel + 1, s, rest, eq => by
    obtain ⟨tag, s₁, first, next⟩ := bind_eq_some.mp eq
    obtain ⟨a, varint, rfl⟩ := (reads_varint 32).sound first
    split at next
    · cases next
    · split at next
      · obtain ⟨rfl, rfl⟩ := pure_eq_some.mp next
        exact ⟨[], a, .nil, varint, ‹_›, rfl⟩
      · obtain ⟨_, s₂, second, tail⟩ := bind_eq_some.mp next
        obtain ⟨b, skipped, rfl⟩ := (S tag).sound second
        obtain ⟨body, close, records, closing, ends, rfl⟩ := skipMessage_sound S tail
        refine ⟨a ++ b ++ body, close, .cons (.mk varint ‹_› skipped) records, closing, ends, ?_⟩
        simp only [List.append_assoc]

theorem skipMessage_complete (S : ∀ tag, Reads (fun _ => payload tag) (skip tag))
    (open_ : ∀ {tag s}, payload tag s → tag % 8 ≠ 4) {body close rest : List UInt8} (records : Many (Record payload) body)
    (closing : Varint 32 last close) (ends : last % 8 = 4) :
    ∀ {fuel}, body.length < fuel → skipMessage skip fuel (body ++ close ++ rest) = some (last, rest) := by
  induction records with
  | nil =>
    intro fuel enough
    obtain ⟨fuel, rfl⟩ := Nat.exists_eq_succ_of_ne_zero (Nat.ne_of_gt enough)
    refine bind_eq_some.mpr ⟨last, rest, (reads_varint 32).complete closing rest, ?_⟩
    rw [if_neg (by omega), if_pos ends]
    rfl
  | @cons record body record_ _ ih =>
    intro fuel enough
    obtain ⟨fuel, rfl⟩ := Nat.exists_eq_succ_of_ne_zero (Nat.ne_of_gt (Nat.zero_lt_of_lt enough))
    rcases record_ with @⟨tag, a, b, varint, nonzero, skipped⟩
    have pos := varint.length_pos
    simp only [List.length_append] at enough
    simp only [List.append_assoc] at ih ⊢
    refine bind_eq_some.mpr ⟨tag, _, (reads_varint 32).complete varint _, ?_⟩
    rw [if_neg nonzero, if_neg (open_ skipped)]
    exact bind_eq_some.mpr ⟨(), _, (S tag).complete skipped _, ih (by omega)⟩

theorem reads_skipMessage (S : ∀ tag, Reads (fun _ => payload tag) (skip tag))
    (open_ : ∀ {tag s}, payload tag s → tag % 8 ≠ 4) :
    Reads (fun last s => ∃ body close, Many (Record payload) body ∧ Varint 32 last close ∧ last % 8 = 4 ∧ body ++ close = s)
      fun s => skipMessage skip (s.length + 1) s where
  sound eq := by
    obtain ⟨body, close, records, closing, ends, rfl⟩ := skipMessage_sound S eq
    exact ⟨body ++ close, ⟨body, close, records, closing, ends, rfl⟩, rfl⟩
  complete := by
    rintro last _ ⟨body, close, records, closing, ends, rfl⟩ rest
    refine skipMessage_complete S open_ records closing ends ?_
    simp only [List.length_append]
    omega

end Skip

theorem Unknown.not_end {group : Nat → List UInt8 → Prop} {tag : Nat} {s : List UInt8} (skipped : Unknown group tag s) :
    tag % 8 ≠ 4 := by
  cases skipped <;> omega

theorem reads_skipField : ∀ levels tag, Reads (fun _ => Unknown (Group levels) tag) (skipField levels tag)
  | levels, tag => by
    unfold skipField
    split
    · refine ((reads_varint 64).map fun _ => ()).congr fun _ s => ⟨?_, fun skipped => ?_⟩
      · rintro ⟨v, varint, -⟩
        exact .varint ‹_› varint
      · cases skipped with
        | varint _ varint => exact ⟨_, varint, rfl⟩
        | _ => omega
    · refine ((Reads.takeN 8).map fun _ => ()).congr fun _ s => ⟨?_, fun skipped => ?_⟩
      · rintro ⟨bytes, ⟨rfl, len⟩, -⟩
        exact .fixed64 ‹_› len
      · cases skipped with
        | fixed64 _ len => exact ⟨s, ⟨rfl, len⟩, rfl⟩
        | _ => omega
    · refine (reads_string.map fun _ => ()).congr fun _ s => ⟨?_, fun skipped => ?_⟩
      · rintro ⟨data, delimited, -⟩
        exact .delimited ‹_› delimited
      · cases skipped with
        | delimited _ delimited => exact ⟨_, delimited, rfl⟩
        | _ => omega
    · cases levels with
      | zero =>
        refine Reads.failure.congr fun _ s => ⟨False.elim, fun skipped => ?_⟩
        cases skipped with
        | group _ none => exact none
        | _ => omega
      | succ levels =>
        refine ((reads_skipMessage (reads_skipField levels) Unknown.not_end).bind fun last =>
          Reads.ite (fun _ => Reads.pure ()) fun _ => Reads.failure).congr fun _ s => ⟨?_, fun skipped => ?_⟩
        · rintro ⟨last, a, b, ⟨body, close, records, closing, -, rfl⟩, next, rfl⟩
          split at next
          · obtain ⟨-, rfl⟩ := next
            exact .group ‹_› ⟨body, close, records, ‹last = _› ▸ closing, (List.append_nil _).symm⟩
          · exact next.elim
        · cases skipped with
          | group _ grouped =>
            obtain ⟨body, close, records, closing, rfl⟩ := grouped
            refine ⟨_, _, [], ⟨body, close, records, closing, by omega, rfl⟩, ?_, List.append_nil _⟩
            rw [if_pos rfl]
            exact ⟨rfl, rfl⟩
          | _ => omega
    · refine ((Reads.takeN 4).map fun _ => ()).congr fun _ s => ⟨?_, fun skipped => ?_⟩
      · rintro ⟨bytes, ⟨rfl, len⟩, -⟩
        exact .fixed32 ‹_› len
      · cases skipped with
        | fixed32 _ len => exact ⟨s, ⟨rfl, len⟩, rfl⟩
        | _ => omega
    · refine Reads.failure.congr fun _ s => ⟨False.elim, fun skipped => ?_⟩
      cases skipped <;> contradiction

end Reads

/-! ### Messages -/

/-- A turn of the loop of `merge` that succeeds -/
def readEntry (d : Descriptor) : Reader UInt8 (Option (Nat × Value)) := do
  let tag ← readVarint 32
  if tag = 0 then failure
  else
    match d.takes tag with
    | some kind => do return some (tag / 8, ← readValue kind)
    | none => do
      skipField recursionLimit tag
      return none

/-- What a turn that fails leaves in the object -/
def leftover (d : Descriptor) (obj : Object) (s : List UInt8) : Object :=
  match readVarint 32 s with
  | none => obj
  | some (tag, rest) =>
    if tag = 0 then
      obj
    else
      match d.takes tag with
      | some kind => obj.set (tag / 8) (unread kind (obj (tag / 8)) rest)
      | none => obj

section Messages
variable {d : Descriptor} {obj : Object} {entry : Option (Nat × Value)} {fields : List (Nat × Value)}
variable {fuel : Nat} {s a b rest : List UInt8}

theorem reads_entry (d : Descriptor) : Reads (Entry d) (readEntry d) where
  sound {s entry rest} eq := by
    obtain ⟨tag, s₁, first, next⟩ := bind_eq_some.mp eq
    obtain ⟨a, varint, rfl⟩ := (reads_varint 32).sound first
    split at next
    · cases next
    · rcases takes : d.takes tag with _ | kind
      · rw [takes] at next
        obtain ⟨_, s₂, second, done⟩ := bind_eq_some.mp next
        obtain ⟨rfl, rfl⟩ := pure_eq_some.mp done
        obtain ⟨b, skipped, rfl⟩ := (reads_skipField _ _).sound second
        exact ⟨a ++ b, .unknown varint ‹_› takes skipped, List.append_assoc ..⟩
      · rw [takes] at next
        obtain ⟨value, s₂, second, done⟩ := bind_eq_some.mp next
        obtain ⟨rfl, rfl⟩ := pure_eq_some.mp done
        obtain ⟨b, payload, rfl⟩ := (reads_value kind).sound second
        exact ⟨a ++ b, .known varint ‹_› takes payload, List.append_assoc ..⟩
  complete item rest := by
    cases item with
    | known varint nonzero takes payload =>
      rw [List.append_assoc]
      refine bind_eq_some.mpr ⟨_, _, (reads_varint 32).complete varint _, ?_⟩
      rw [if_neg nonzero, takes]
      exact bind_eq_some.mpr ⟨_, rest, (reads_value _).complete payload rest, rfl⟩
    | unknown varint nonzero takes skipped =>
      rw [List.append_assoc]
      refine bind_eq_some.mpr ⟨_, _, (reads_varint 32).complete varint _, ?_⟩
      rw [if_neg nonzero, takes]
      exact bind_eq_some.mpr ⟨(), rest, (reads_skipField _ _).complete skipped rest, rfl⟩

theorem Entry.length_pos (item : Entry d entry a) : 0 < a.length := by
  cases item with
  | known varint => exact Nat.lt_of_lt_of_le varint.length_pos (by simp)
  | unknown varint => exact Nat.lt_of_lt_of_le varint.length_pos (by simp)

theorem readEntry_length {entry : Option (Nat × Value)} (eq : readEntry d s = some (entry, rest)) :
    rest.length < s.length := by
  obtain ⟨a, item, rfl⟩ := (reads_entry d).sound eq
  have pos := item.length_pos
  rw [List.length_append]
  omega

theorem readEntry_of_tag {tag : Nat} (first : readVarint 32 s = some (tag, rest)) : readEntry d s =
    if tag = 0 then
      none
    else
      match d.takes tag with
      | some kind => (readValue kind rest).map fun read => (some (tag / 8, read.1), read.2)
      | none => (skipField recursionLimit tag rest).map fun skipped => (none, skipped.2) := by
  show (readVarint 32 s).bind _ = _
  rw [first, Option.bind_some]
  dsimp only
  by_cases zero : tag = 0
  · rw [if_pos zero, if_pos zero]
    rfl
  · rw [if_neg zero, if_neg zero]
    rcases d.takes tag with _ | kind
    · show (skipField recursionLimit tag rest).bind _ = _
      rcases skipField recursionLimit tag rest with _ | skipped <;> rfl
    · show (readValue kind rest).bind _ = (readValue kind rest).map _
      rcases readValue kind rest with _ | read <;> rfl

theorem merge_succ : merge d (fuel + 1) obj s =
    match readEntry d s with
    | some (entry, rest) => merge d fuel (obj.store entry.toList) rest
    | none => (leftover d obj s, s.isEmpty) := by
  rcases s with _ | ⟨b, s⟩
  · rfl
  · conv_lhs => unfold merge
    unfold leftover
    rcases first : readVarint 32 (b :: s) with _ | ⟨tag, rest⟩
    · have none : readEntry d (b :: s) = none := by
        show (readVarint 32 (b :: s)).bind _ = none
        rw [first]
        rfl
      rw [none]
      rfl
    · rw [readEntry_of_tag first]
      by_cases zero : tag = 0
      · simp only [if_pos zero, List.isEmpty_cons]
      · simp only [if_neg zero]
        rcases d.takes tag with _ | kind
        · dsimp only
          rcases skipField recursionLimit tag rest with _ | ⟨_, rest⟩ <;> rfl
        · dsimp only
          rcases readValue kind rest with _ | ⟨value, rest⟩ <;> rfl

/-- Enough fuel is as good as more. -/
theorem merge_fuel : ∀ {fuel fuel' s obj}, s.length < fuel → s.length < fuel' → merge d fuel obj s = merge d fuel' obj s
  | fuel + 1, fuel' + 1, s, obj, enough, enough' => by
    rw [merge_succ, merge_succ]
    rcases eq : readEntry d s with _ | ⟨entry, rest⟩
    · rfl
    · have shorter := readEntry_length eq
      exact merge_fuel (by omega) (by omega)

def mergeAll (d : Descriptor) (obj : Object) (s : List UInt8) : Object × Bool := merge d (s.length + 1) obj s

theorem mergeAll_entry (item : Entry d entry a) (rest : List UInt8) :
    mergeAll d obj (a ++ rest) = mergeAll d (obj.store entry.toList) rest := by
  unfold mergeAll
  rw [merge_succ, (reads_entry d).complete item rest]
  exact merge_fuel (by simpa using item.length_pos) (Nat.lt_succ_self _)

theorem mergeAll_end (ends : readEntry d s = none) : mergeAll d obj s = (leftover d obj s, s.isEmpty) := by
  unfold mergeAll
  rw [merge_succ, ends]

theorem Object.store_append {fields' : List (Nat × Value)} :
    obj.store (fields ++ fields') = (obj.store fields).store fields' := List.foldl_append

/-- The parser goes through a message in front of the rest. -/
theorem mergeAll_message (message : Message d fields a) (rest : List UInt8) :
    mergeAll d obj (a ++ rest) = mergeAll d (obj.store fields) rest := by
  induction message generalizing obj with
  | nil => rfl
  | cons item _ ih => rw [List.append_assoc, mergeAll_entry item, ih, Object.store_append]

theorem exists_message (d : Descriptor) (s : List UInt8) :
    ∃ fields front rest, Message d fields front ∧ readEntry d rest = none ∧ front ++ rest = s := by
  rcases eq : readEntry d s with _ | ⟨entry, s'⟩
  · exact ⟨[], [], s, .nil, eq, rfl⟩
  · have shorter := readEntry_length eq
    obtain ⟨a, item, rfl⟩ := (reads_entry d).sound eq
    obtain ⟨fields, front, rest, message, ends, rfl⟩ := exists_message d s'
    exact ⟨_, a ++ front, rest, .cons item message, ends, List.append_assoc ..⟩
termination_by s.length

theorem Message.append {fields' : List (Nat × Value)} (front : Message d fields a) (back : Message d fields' b) :
    Message d (fields ++ fields') (a ++ b) := by
  induction front with
  | nil => exact back
  | cons item _ ih =>
    rw [List.append_assoc, List.append_assoc]
    exact .cons item ih

theorem Message.one (item : Entry d entry a) : Message d entry.toList a := by
  have message := Message.cons item .nil
  rwa [List.append_nil, List.append_nil] at message

/-- What `merge` makes of a message is the last value of each field, and it takes nothing else for a message. -/
theorem mergeAll_eq_true_iff {obj' : Object} :
    mergeAll d obj s = (obj', true) ↔ ∃ fields, Message d fields s ∧ obj' = obj.store fields := by
  constructor
  · intro eq
    obtain ⟨fields, front, rest, message, ends, rfl⟩ := exists_message d s
    rw [mergeAll_message message, mergeAll_end ends] at eq
    obtain ⟨rfl, empty⟩ := Prod.mk.inj eq
    obtain rfl := List.isEmpty_iff.mp empty
    exact ⟨fields, (List.append_nil front).symm ▸ message, rfl⟩
  · rintro ⟨fields, message, rfl⟩
    have eq : mergeAll d obj (s ++ []) = mergeAll d (obj.store fields) [] := mergeAll_message message []
    rw [List.append_nil] at eq
    exact eq

theorem parse_eq : parse d s = ((mergeAll d .empty s).1, (mergeAll d .empty s).2 && d.initialized (mergeAll d .empty s).1) := rfl

theorem Object.set_apply {n m : Nat} {v : Value} : obj.set m (some v) n = (Object.empty.set m (some v) n).or (obj n) := by
  unfold Object.set
  by_cases h : n = m
  · rw [h, Function.update_self, Function.update_self, Option.some_or]
  · rw [Function.update_of_ne h, Function.update_of_ne h]
    exact (Option.none_or).symm

/-- A field that is not stored keeps its value. -/
theorem Object.store_apply (n : Nat) : obj.store fields n = (Object.empty.store fields n).or (obj n) := by
  induction fields generalizing obj with
  | nil => exact (Option.none_or).symm
  | cons field fields ih =>
    show (obj.set field.1 (some field.2)).store fields n = ((Object.empty.set field.1 (some field.2)).store fields n).or _
    rw [ih, @ih (Object.empty.set field.1 (some field.2)), Option.or_assoc, ← Object.set_apply]

theorem Object.isSome_store {n : Nat} : (Object.empty.store fields n).isSome ↔ ∃ v, (n, v) ∈ fields := by
  induction fields with
  | nil => simp [Object.store, Object.empty]
  | cons field fields ih =>
    show ((Object.empty.set field.1 (some field.2)).store fields n).isSome ↔ _
    rw [Object.store_apply, Option.isSome_or, Bool.or_eq_true, ih]
    unfold Object.set
    by_cases h : n = field.1
    · subst h
      simp only [Function.update_self, Option.isSome_some, or_true, true_iff]
      exact ⟨field.2, List.mem_cons_self⟩
    · rw [Function.update_of_ne h]
      have ne : ∀ v, (n, v) ≠ field := fun v eq => h (congrArg Prod.fst eq)
      simp [Object.empty, ne]

theorem initialized_store : d.initialized (Object.empty.store fields) = true ↔
    ∀ f ∈ d, f.required = true → ∃ v, (f.number, v) ∈ fields := by
  simp only [Descriptor.initialized, List.all_eq_true, Bool.or_eq_true, Bool.not_eq_true', Object.isSome_store]
  refine forall₂_congr fun f _ => ?_
  cases f.required <;> simp

theorem CutString.tag_eq {number : Nat} {value : Value} (cut : CutString d obj s number value) :
    ∃ tag a b, Varint 32 tag a ∧ a ++ b = s ∧ tag ≠ 0 ∧ d.takes tag = some .string := by
  cases cut with
  | noLength varint nonzero takes => exact ⟨_, _, _, varint, rfl, nonzero, takes⟩
  | tooLong varint nonzero takes => exact ⟨_, _, _, varint, rfl, nonzero, takes⟩

/-- Of what the parser cannot read, only a string that is cut off leaves something in the object. -/
theorem leftover_cases (ends : readEntry d s = none) : (leftover d obj s = obj ∧ ∀ n v, ¬CutString d obj s n v) ∨
    ∃ n v, CutString d obj s n v ∧ leftover d obj s = obj.set n (some v) := by
  have other : ∀ {tag a b}, Varint 32 tag a → a ++ b = s → ¬(tag ≠ 0 ∧ d.takes tag = some .string) →
      ∀ n v, ¬CutString d obj s n v := by
    rintro tag a b varint eq not n v cut
    obtain ⟨tag', a', b', varint', eq', is⟩ := cut.tag_eq
    obtain ⟨rfl, -⟩ := (reads_varint 32).unambiguous varint varint' (eq.trans eq'.symm)
    exact not is
  unfold leftover
  rcases first : readVarint 32 s with _ | ⟨tag, rest⟩
  · refine .inl ⟨rfl, fun n v cut => ?_⟩
    obtain ⟨tag, a, b, varint, eq, -⟩ := cut.tag_eq
    exact (reads_varint 32).eq_none_iff.mp first tag a b varint eq
  · have entry := readEntry_of_tag (d := d) first
    obtain ⟨a, varint, rfl⟩ := (reads_varint 32).sound first
    dsimp only
    by_cases zero : tag = 0
    · rw [if_pos zero]
      exact .inl ⟨rfl, other varint rfl fun is => is.1 zero⟩
    · rw [if_neg zero] at entry ⊢
      rcases takes : d.takes tag with _ | kind
      · exact .inl ⟨rfl, other varint rfl (by rw [takes]; rintro ⟨-, ⟨⟩⟩)⟩
      · rw [takes, ends] at entry
        have unread_ : readValue kind rest = none := Option.map_eq_none_iff.mp entry.symm
        rcases kind with _ | _ | _
        · exact .inl ⟨Function.update_eq_self .., other varint rfl (by rw [takes]; rintro ⟨-, ⟨⟩⟩)⟩
        · exact .inl ⟨Function.update_eq_self .., other varint rfl (by rw [takes]; rintro ⟨-, ⟨⟩⟩)⟩
        · refine .inr ?_
          dsimp only [unread]
          rcases length : readLength rest with _ | ⟨n, data⟩
          · refine ⟨_, _, .noLength varint zero takes fun n x y reads small => ?_, rfl⟩
            exact reads_length.eq_none_iff.mp length n x y ⟨reads, small⟩
          · obtain ⟨x, ⟨reads, small⟩, rfl⟩ := reads_length.sound length
            refine ⟨_, _, .tooLong varint zero takes reads small ?_, rfl⟩
            rcases Nat.lt_or_ge data.length n with short | enough
            · exact short
            · have delimited : Delimited (data.take n) (x ++ data.take n) := by
                have len : (data.take n).length = n := List.length_take_of_le enough
                exact ⟨x, by rwa [len], by rwa [len], rfl⟩
              have found := (reads_value .string).eq_none_iff.mp unread_ _ _ (data.drop n) (.string delimited)
              rw [List.append_assoc, List.take_append_drop] at found
              exact absurd rfl found

/-- What the parser makes of any bytes: a message in front of them is stored, and the rest is not looked at again. -/
theorem mergeAll_cases (d : Descriptor) (obj : Object) (s : List UInt8) : ∃ fields front rest,
    Message d fields front ∧ front ++ rest = s ∧ (∀ entry a b, Entry d entry a → a ++ b ≠ rest) ∧
    ((mergeAll d obj s).2 = true ↔ rest = []) ∧
    ((mergeAll d obj s).1 = obj.store fields ∧ (∀ n v, ¬CutString d (obj.store fields) rest n v) ∨
      ∃ n v, CutString d (obj.store fields) rest n v ∧ (mergeAll d obj s).1 = (obj.store fields).set n (some v)) := by
  obtain ⟨fields, front, rest, message, ends, rfl⟩ := exists_message d s
  refine ⟨fields, front, rest, message, rfl, fun entry a b item => (reads_entry d).eq_none_iff.mp ends entry a b item, ?_⟩
  rw [mergeAll_message message, mergeAll_end ends]
  refine ⟨List.isEmpty_iff, ?_⟩
  have left := @leftover_cases d (obj.store fields) rest ends
  rcases left with ⟨eq, whole⟩ | ⟨n, v, cut, eq⟩
  · exact .inl ⟨eq, whole⟩
  · exact .inr ⟨n, v, cut, eq⟩

end Messages

/-! ### What is written is read -/

section Written
variable {d : Descriptor} {bits number fuel : Nat}

theorem groups_varintBytes : ∀ {fuel v}, v < 128 ^ (fuel + 1) → Groups v (varintBytes (fuel + 1) v)
  | fuel, v, small => by
    rw [varintBytes]
    split
    · rename_i last
      have val : (UInt8.ofNat v).toNat = v := UInt8.toNat_ofNat_of_lt (show v < 256 by omega)
      have groups := Groups.last (b := .ofNat v) (by omega)
      rwa [val] at groups
    · rename_i more
      have val : (UInt8.ofNat (v % 128 + 128)).toNat = v % 128 + 128 :=
        UInt8.toNat_ofNat_of_lt (show v % 128 + 128 < 256 by omega)
      cases fuel with
      | zero => exact absurd small (by omega)
      | succ fuel =>
        have lower : v / 128 < 128 ^ (fuel + 1) :=
          Nat.div_lt_of_lt_mul (by rwa [Nat.mul_comm, ← Nat.pow_succ])
        have groups := Groups.more (b := .ofNat (v % 128 + 128)) (by omega) (groups_varintBytes lower)
        rw [val, Nat.add_sub_cancel, Nat.mod_add_div] at groups
        exact groups

theorem varint_reads (bits : Nat) {v : Nat} (small : v < 18446744073709551616) : Varint bits (v % 2 ^ bits) (varint v) :=
  ⟨length_varint_le v, v, groups_varintBytes (by omega), rfl⟩

theorem tag_reads {wireType : Nat} (small : number * 8 + wireType < 4294967296) :
    Varint 32 (number * 8 + wireType) (tag number wireType) := by
  have reads := varint_reads 32 (show number * 8 + wireType < 18446744073709551616 by omega)
  rwa [Nat.mod_eq_of_lt (show number * 8 + wireType < 2 ^ 32 from small)] at reads

/-- A field of the class, as it is written -/
theorem Entry.written {kind : Kind} {value : Value} {b : List UInt8} (pos : 0 < number) (small : number < 536870912)
    (takes : d.takes (number * 8 + kind.wireType) = some kind) (payload : Payload kind value b) :
    Entry d (some (number, value)) (tag number kind.wireType ++ b) := by
  have type : kind.wireType < 8 := by cases kind <;> decide
  have entry := Entry.known (tag_reads (show number * 8 + kind.wireType < 4294967296 by omega)) (by omega) takes payload
  rwa [show (number * 8 + kind.wireType) / 8 = number by omega] at entry

theorem Payload.written_int32 {v : Int} (lower : -2147483648 ≤ v) (upper : v ≤ 2147483647) :
    Payload .int32 (.int32 v) (signedVarint v) := by
  have payload := Payload.int32 (varint_reads 32 (show (v % 18446744073709551616).toNat < 18446744073709551616 by omega))
  have val : (((v % 18446744073709551616).toNat % 2 ^ 32 : Nat) : Int).bmod 4294967296 = v := by
    rw [Int.bmod_def]
    omega
  rwa [val] at payload

theorem Payload.written_fixed32 (v : UInt32) : Payload .fixed32 (.fixed32 v)
    [.ofNat v.toNat, .ofNat (v.toNat / 256), .ofNat (v.toNat / 65536), .ofNat (v.toNat / 16777216)] := by
  have payload := @Payload.fixed32 (.ofNat v.toNat) (.ofNat (v.toNat / 256)) (.ofNat (v.toNat / 65536))
    (.ofNat (v.toNat / 16777216))
  have lt := v.toNat_lt
  have val : v.toNat % 256 + 256 * (v.toNat / 256 % 256 + 256 * (v.toNat / 65536 % 256 +
      256 * (v.toNat / 16777216 % 256))) = v.toNat := by omega
  simp only [UInt8.toNat_ofNat', Nat.reducePow, val, UInt32.ofNat_toNat] at payload
  exact payload

theorem Payload.written_string {data : List UInt8} (small : data.length < 2147483648) :
    Payload .string (.string data) (varint data.length ++ data) := by
  have reads := varint_reads 32 (show data.length < 18446744073709551616 by omega)
  rw [Nat.mod_eq_of_lt (show data.length < 2 ^ 32 by omega)] at reads
  exact .string ⟨_, reads, small, rfl⟩

end Written

end WireFormat

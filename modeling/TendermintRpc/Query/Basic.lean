import TendermintRpc.Response

/-!
# Structured queries

`query.rs` builds the queries of the event-subscription interface and renders them to the text
the node's query language reads. A `Query` holds at most one event type and a list of conditions
joined by `AND`; it is built by the single-condition constructors `Query::eq` .. `Query::exists`
and grown by the chaining builders `and_eq` .. `and_exists`, and rendered by its `Display`
implementation, which every other module reads as `Query.fmt`.

Rendering writes into a formatter. A formatter is modelled as the text written so far, so each
`fmt` below returns the text and `join` takes and returns the buffer.

The constructors and the builders are two families of near-identical functions: each family is
one definition (`Query.single`, `Query.push`) and each member is that definition applied to the
member's own condition. So are the integer conversions into `Operand`: `Operand.ofSigned_fmt` and
`Operand.ofUnsigned_fmt` say that each family keeps the value it is given.
-/

namespace TendermintRpc

/-- `EventType`: the kinds of event a query can select. -/
inductive EventType where
  | newBlock
  | tx
  deriving DecidableEq, Repr

namespace EventType

/-- `impl Display for EventType`. -/
def fmt : EventType → String
  | newBlock => "NewBlock"
  | tx => "Tx"

/-- `impl FromStr for EventType`. -/
def fromStr (s : String) : Except Error EventType :=
  match s with
  | "NewBlock" => .ok newBlock
  | "Tx" => .ok tx
  | invalid => .error (.invalidParams ("unrecognized event type: " ++ invalid))

/-- Parsing reads back every rendered event type. -/
@[simp] theorem fromStr_fmt (t : EventType) : fromStr t.fmt = .ok t := by
  cases t <;> rfl

/-- Parsing accepts exactly the two rendered literals. -/
theorem fromStr_eq_ok_iff {s : String} {t : EventType} : fromStr s = .ok t ↔ t.fmt = s := by
  constructor
  · intro h
    unfold fromStr at h
    split at h <;> cases h <;> rfl
  · rintro rfl
    exact fromStr_fmt t

/-- Any other text is rejected with an `InvalidParams` error that carries it. -/
theorem fromStr_of_ne {s : String} (h1 : s ≠ "NewBlock") (h2 : s ≠ "Tx") :
    fromStr s = .error (.invalidParams ("unrecognized event type: " ++ s)) := by
  simp [fromStr, h1, h2]

end EventType

/-- `Operand`. An `i64` is held as its two's-complement bits and a `u64` as a `UInt64`. The
`f64`, `Date<Utc>` and `DateTime<Utc>` payloads are held as the text their formatters print
(`{}` for `f64`, chrono's `%Y-%m-%d` and RFC 3339): those formatters are outside this
repository. -/
inductive Operand where
  | string (s : String)
  | signed (i : BitVec 64)
  | unsigned (u : UInt64)
  | float (shown : String)
  | date (ymd : String)
  | dateTime (rfc3339 : String)
  deriving DecidableEq, Repr

/-- `Condition`: one comparison of a key with an operand. -/
inductive Condition where
  | eq (key : String) (op : Operand)
  | lt (key : String) (op : Operand)
  | lte (key : String) (op : Operand)
  | gt (key : String) (op : Operand)
  | gte (key : String) (op : Operand)
  | contains (key : String) (op : String)
  | «exists» (key : String)
  deriving DecidableEq, Repr

/-- `Query`: an optional event type and the conditions, in insertion order. -/
structure Query where
  eventType : Option EventType
  conditions : List Condition
  deriving DecidableEq, Repr

/-! ### Rendering -/

/-- The characters `escape` prefixes with a backslash. -/
def needsEscape (ch : Char) : Bool := ch == '\\' || ch == '\''

/-- One turn of `escape`'s loop: push a backslash if `ch` needs one, then `ch`. -/
def escapeStep (result : String) (ch : Char) : String :=
  (if needsEscape ch then result.push '\\' else result).push ch

/-- `escape`: backslashes and single quotes get a backslash, and the whole is single-quoted. -/
def escape (s : String) : String :=
  "'" ++ s.toList.foldl escapeStep "" ++ "'"

/-- `impl Display for Operand`. -/
def Operand.fmt : Operand → String
  | string s => escape s
  | signed i => toString i.toInt
  | unsigned u => toString u.toNat
  | float shown => shown
  | date ymd => "DATE " ++ ymd
  | dateTime rfc3339 => "TIME " ++ rfc3339

/-- `impl Display for Condition`. -/
def Condition.fmt : Condition → String
  | eq key op => key ++ " = " ++ op.fmt
  | lt key op => key ++ " < " ++ op.fmt
  | lte key op => key ++ " <= " ++ op.fmt
  | gt key op => key ++ " > " ++ op.fmt
  | gte key op => key ++ " >= " ++ op.fmt
  | contains key op => key ++ " CONTAINS " ++ escape op
  | «exists» key => key ++ " EXISTS"

/-- `join`: write the first item into the buffer `f`, then the separator and the item for each
further item. -/
def join (f separator : String) : List String → String
  | [] => f
  | first :: rest => rest.foldl (fun f item => f ++ separator ++ item) (f ++ first)

/-- `impl Display for Query`: the event-type clause, a separator if conditions follow, then the
conditions joined by `" AND "`. -/
def Query.fmt (q : Query) : String :=
  let f := match q.eventType with
    | some t => "tm.event = '" ++ t.fmt ++ "'" ++ (if q.conditions.isEmpty then "" else " AND ")
    | none => ""
  join f " AND " (q.conditions.map Condition.fmt)

/-! ### Conversions into operands

The builders take any `impl Into<Operand>`. The integer conversions are two families: the signed
ones widen by `as i64`, a sign extension, and the unsigned ones by `as u64`. Each family is one
definition (`Operand.ofSigned`, `Operand.ofUnsigned`); the 64-bit members convert nothing and
keep their own bodies. -/

/-- `source as i64` into `Operand::Signed`, for a signed integer of `w` bits. -/
def Operand.ofSigned {w : Nat} (source : BitVec w) : Operand := .signed (source.signExtend 64)

/-- `source as u64` into `Operand::Unsigned`, for an unsigned integer of value `source`. -/
def Operand.ofUnsigned (source : Nat) : Operand := .unsigned (UInt64.ofNat source)

/-- `impl From<String> for Operand`. -/
def Operand.fromString (source : String) : Operand := .string source

/-- `impl From<char> for Operand`: `source.to_string()`. -/
def Operand.fromChar (source : Char) : Operand := .string (String.singleton source)

/-- `impl From<i64> for Operand`. -/
def Operand.fromI64 (source : BitVec 64) : Operand := .signed source

/-- `impl From<i32> for Operand`. -/
def Operand.fromI32 (source : BitVec 32) : Operand := ofSigned source

/-- `impl From<i16> for Operand`. -/
def Operand.fromI16 (source : BitVec 16) : Operand := ofSigned source

/-- `impl From<i8> for Operand`. -/
def Operand.fromI8 (source : BitVec 8) : Operand := ofSigned source

/-- `impl From<u64> for Operand`. -/
def Operand.fromU64 (source : UInt64) : Operand := .unsigned source

/-- `impl From<u32> for Operand`. -/
def Operand.fromU32 (source : UInt32) : Operand := ofUnsigned source.toNat

/-- `impl From<u16> for Operand`. -/
def Operand.fromU16 (source : UInt16) : Operand := ofUnsigned source.toNat

/-- `impl From<u8> for Operand`. -/
def Operand.fromU8 (source : UInt8) : Operand := ofUnsigned source.toNat

/-- `impl From<usize> for Operand`. -/
def Operand.fromUsize (source : USize) : Operand := ofUnsigned source.toNat

/-- Sign extension to 64 bits keeps the value of a signed integer of at most 64 bits. -/
theorem toInt_signExtend_64 {w : Nat} (hw : w ≤ 64) (x : BitVec w) :
    (x.signExtend 64).toInt = x.toInt := by
  have hx := x.isLt
  have hP : 2 ^ w ≤ 2 ^ 64 := Nat.pow_le_pow_right (by decide) hw
  rw [BitVec.signExtend, BitVec.toInt_ofInt, BitVec.toInt_eq_toNat_cond, Int.bmod_def]
  split <;> split <;> omega

/-- A signed integer of at most 64 bits renders as its value. -/
theorem Operand.ofSigned_fmt {w : Nat} (hw : w ≤ 64) (x : BitVec w) :
    (ofSigned x).fmt = toString x.toInt := by
  rw [ofSigned, fmt, toInt_signExtend_64 hw]

example : (Operand.fromI32 (-1)).fmt = "-1" := by decide

/-- An unsigned integer that fits a `u64` renders as its value. -/
theorem Operand.ofUnsigned_fmt {n : Nat} (hn : n < UInt64.size) : (ofUnsigned n).fmt = toString n := by
  rw [ofUnsigned, fmt, UInt64.toNat_ofNat_of_lt hn]


/-! ### Construction -/

namespace Query

/-- `Query::default`: the empty query, which matches every event. -/
def default : Query := ⟨none, []⟩

/-- `From<EventType> for Query`. -/
def fromEventType (t : EventType) : Query := ⟨some t, []⟩

/-- The shape of the constructors `Query::eq` .. `Query::exists`: a query of one condition. -/
def single (c : Condition) : Query := ⟨none, [c]⟩

/-- `Query::eq`. -/
def eq (key : String) (value : Operand) : Query := single (.eq key value)
/-- `Query::lt`. -/
def lt (key : String) (value : Operand) : Query := single (.lt key value)
/-- `Query::lte`. -/
def lte (key : String) (value : Operand) : Query := single (.lte key value)
/-- `Query::gt`. -/
def gt (key : String) (value : Operand) : Query := single (.gt key value)
/-- `Query::gte`. -/
def gte (key : String) (value : Operand) : Query := single (.gte key value)
/-- `Query::contains`. -/
def contains (key value : String) : Query := single (.contains key value)
/-- `Query::exists`. -/
def «exists» (key : String) : Query := single (.exists key)

/-- The shape of the builders `and_eq` .. `and_exists`: push one condition. -/
def push (q : Query) (c : Condition) : Query := { q with conditions := q.conditions ++ [c] }

/-- `Query::and_eq`. -/
def andEq (q : Query) (key : String) (value : Operand) : Query := q.push (.eq key value)
/-- `Query::and_lt`. -/
def andLt (q : Query) (key : String) (value : Operand) : Query := q.push (.lt key value)
/-- `Query::and_lte`. -/
def andLte (q : Query) (key : String) (value : Operand) : Query := q.push (.lte key value)
/-- `Query::and_gt`. -/
def andGt (q : Query) (key : String) (value : Operand) : Query := q.push (.gt key value)
/-- `Query::and_gte`. -/
def andGte (q : Query) (key : String) (value : Operand) : Query := q.push (.gte key value)
/-- `Query::and_contains`. -/
def andContains (q : Query) (key value : String) : Query := q.push (.contains key value)
/-- `Query::and_exists`. -/
def andExists (q : Query) (key : String) : Query := q.push (.exists key)

@[simp] theorem push_eventType (q : Query) (c : Condition) :
    (q.push c).eventType = q.eventType := rfl

@[simp] theorem push_conditions (q : Query) (c : Condition) :
    (q.push c).conditions = q.conditions ++ [c] := rfl

/-- A constructor is a builder applied to the empty query. -/
theorem single_eq_push (c : Condition) : single c = default.push c := rfl

end Query

end TendermintRpc

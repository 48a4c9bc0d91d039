import TendermintRpc.Query.Render
import Mathlib.Data.List.Infix
import Mathlib.Data.Nat.Digits

/-!
# Reading a rendered query back, from its end

The node reads a rendered query as a list of clauses. To show that the rendering loses nothing
about a query's clauses, this module gives a reader that recovers them from the text, and proves
that it does so for every query whose keys do not contain `" AND "` and whose operands are
strings or integers (`Query.Readable`).

A key is rendered as it is, with no escaping, so a reader cannot find where a key ends by reading
forwards: the key `a = 1` is indistinguishable from the start of a condition. Read from the end,
every piece of a clause is delimited:

* an operand is either a literal, whose opening quote is the first quote not preceded by a
  backslash (`readLiteralRev`), or an integer, which holds no space (`readInt`), or the word
  `EXISTS`;
* an operator holds no space;
* a key runs back to the previous separator `" AND "`, and the previous clause ends with a quote,
  a digit or the `S` of `EXISTS` (`endsClause`). A key that holds no `" AND "` can still start
  with `AND `, but then the text before the separator found inside it ends with `D`, which ends
  no clause (`sepRest_append_sep`).

`readTailRev_fmt`, `readKeyRev_append_sep` and `readClausesRev_revJoin` state these facts
for one operand, one key and a whole list of clauses.
-/

namespace TendermintRpc

/-! ### What a rendered clause says -/

/-- The value a condition compares with, as it reads on the wire: a text, or an integer whatever
its Rust type. The `f64` and date operands are kept as the text they render to. -/
inductive Value where
  | text (s : String)
  | int (n : Int)
  | verbatim (shown : String)
  deriving DecidableEq, Repr

/-- The comparison operators. -/
inductive Cmp where
  | eq | lt | lte | gt | gte
  deriving DecidableEq, Repr

/-- What follows a key in a rendered clause. -/
inductive Tail where
  | compare (op : Cmp) (value : Value)
  | contains (value : String)
  | «exists»
  deriving DecidableEq, Repr

/-- A clause as the node reads it: a key and what follows it. -/
structure Clause where
  key : String
  tail : Tail
  deriving DecidableEq, Repr

/-- What an operand reads as. -/
def Operand.value : Operand → Value
  | .string s => .text s
  | .signed i => .int i.toInt
  | .unsigned u => .int u.toNat
  | op => .verbatim op.fmt

/-- The key of a condition. -/
def Condition.key : Condition → String
  | .eq key _ | .lt key _ | .lte key _ | .gt key _ | .gte key _ | .contains key _
  | .exists key => key

/-- What a condition reads as. -/
def Condition.meaning : Condition → Clause
  | .eq key op => ⟨key, .compare .eq op.value⟩
  | .lt key op => ⟨key, .compare .lt op.value⟩
  | .lte key op => ⟨key, .compare .lte op.value⟩
  | .gt key op => ⟨key, .compare .gt op.value⟩
  | .gte key op => ⟨key, .compare .gte op.value⟩
  | .contains key op => ⟨key, .contains op⟩
  | .exists key => ⟨key, .exists⟩

/-! ### Integers -/

/-- Decimal digits, read as a natural number. -/
def decimal (ds : List Char) : Nat :=
  ds.foldl (fun n d => 10 * n + (d.toNat - '0'.toNat)) 0

/-- An integer literal: an optional minus sign, then one or more decimal digits. -/
def readInt : List Char → Option Int
  | '-' :: ds => if ds ≠ [] ∧ ds.all Char.isDigit then some (-(decimal ds : Int)) else none
  | ds => if ds ≠ [] ∧ ds.all Char.isDigit then some (decimal ds) else none

theorem digitChar_isDigit : ∀ k, k < 10 → (Nat.digitChar k).isDigit := by decide

theorem digitChar_value : ∀ k, k < 10 → (Nat.digitChar k).toNat - '0'.toNat = k := by decide

/-- The step `decimal` folds with. -/
def decimalStep (n : Nat) (d : Char) : Nat := 10 * n + (d.toNat - '0'.toNat)

theorem decimal_eq_foldl (ds : List Char) : decimal ds = ds.foldl decimalStep 0 := rfl

/-- `Nat.toDigitsCore` writes only digits in front of its accumulator. -/
theorem mem_toDigitsCore {fuel n : Nat} {ds : List Char} {c : Char}
    (h : c ∈ Nat.toDigitsCore 10 fuel n ds) : c ∈ ds ∨ c.isDigit := by
  induction fuel generalizing n ds with
  | zero => exact .inl h
  | succ fuel ih =>
    have hd := digitChar_isDigit (n % 10) (Nat.mod_lt n (by omega))
    simp only [Nat.toDigitsCore] at h
    split at h
    · rcases List.mem_cons.mp h with rfl | h
      exacts [.inr hd, .inl h]
    · rcases ih h with h | h
      · rcases List.mem_cons.mp h with rfl | h
        exacts [.inr hd, .inl h]
      · exact .inr h

theorem toDigitsCore_ne_nil (fuel n : Nat) (ds : List Char) :
    Nat.toDigitsCore 10 (fuel + 1) n ds ≠ [] := by
  induction fuel generalizing n ds with
  | zero => simp only [Nat.toDigitsCore]; split <;> simp
  | succ fuel ih => rw [Nat.toDigitsCore]; split <;> simp [ih]

/-- Reading the digits `Nat.toDigitsCore` writes continues from the number it was given. -/
theorem foldl_decimalStep_toDigitsCore {fuel n : Nat} (ds : List Char) (h : n < fuel) :
    (Nat.toDigitsCore 10 fuel n ds).foldl decimalStep 0 = ds.foldl decimalStep n := by
  induction fuel generalizing n ds with
  | zero => omega
  | succ fuel ih =>
    have hv := digitChar_value (n % 10) (Nat.mod_lt n (by omega))
    simp only [Nat.toDigitsCore]
    split
    · simp only [List.foldl_cons, decimalStep, hv]
      congr 1
      omega
    · rw [ih _ (by omega), List.foldl_cons, decimalStep, hv, Nat.div_add_mod]

/-- The digits of a natural number: at least one, all decimal, and they read back as it. -/
theorem toDigits_spec (n : Nat) :
    Nat.toDigits 10 n ≠ [] ∧ (∀ c ∈ Nat.toDigits 10 n, c.isDigit) ∧
      decimal (Nat.toDigits 10 n) = n :=
  ⟨toDigitsCore_ne_nil n n [], fun c hc => by simpa using mem_toDigitsCore hc,
    by simpa [decimal_eq_foldl] using foldl_decimalStep_toDigitsCore [] (Nat.lt_succ_self n)⟩

theorem readInt_toDigits (n : Nat) : readInt (Nat.toDigits 10 n) = some n := by
  obtain ⟨hne, hdig, hval⟩ := toDigits_spec n
  rcases hds : Nat.toDigits 10 n with _ | ⟨c, cs⟩
  · exact absurd hds hne
  · have hc : c ≠ '-' := by rintro rfl; simpa using hdig '-' (hds ▸ List.mem_cons_self _ _)
    rw [hds] at hdig hval
    simpa [readInt, hc, hval] using hdig

theorem toString_int_data (i : Int) :
    (toString i).data = match i with
      | .ofNat n => Nat.toDigits 10 n
      | .negSucc n => '-' :: Nat.toDigits 10 (n + 1) := by
  cases i <;> rfl

/-- **Integers read back.** The text `{}` writes for an integer reads back as it. -/
theorem readInt_toString (i : Int) : readInt (toString i).data = some i := by
  rw [toString_int_data]
  rcases i with n | n
  · exact readInt_toDigits n
  · obtain ⟨hne, hdig, hval⟩ := toDigits_spec (n + 1)
    simp only [readInt, hne, ne_eq, not_false_eq_true, List.all_eq_true, true_and, hval]
    simp [Int.negSucc_eq]
    exact hdig

/-- The text of an integer is a minus sign and digits, and it ends with a digit. -/
theorem toString_int_chars (i : Int) :
    (∀ c ∈ (toString i).data, c = '-' ∨ c.isDigit) ∧
      ∃ d r, (toString i).data.reverse = d :: r ∧ d.isDigit := by
  rw [toString_int_data]
  have last : ∀ n, ∃ d r, (Nat.toDigits 10 n).reverse = d :: r ∧ d.isDigit := fun n => by
    obtain ⟨hne, hdig, -⟩ := toDigits_spec n
    rcases h : (Nat.toDigits 10 n).reverse with _ | ⟨d, r⟩
    · simp_all
    · exact ⟨d, r, rfl, hdig d (List.mem_reverse.mp (h ▸ List.mem_cons_self d r))⟩
  rcases i with n | n
  · exact ⟨fun c hc => .inr ((toDigits_spec n).2.1 c hc), last n⟩
  · refine ⟨fun c hc => ?_, ?_⟩
    · rcases List.mem_cons.mp hc with rfl | hc
      exacts [.inl rfl, .inr ((toDigits_spec (n + 1)).2.1 c hc)]
    · obtain ⟨d, r, h, hd⟩ := last (n + 1)
      exact ⟨d, r ++ ['-'], by simp [h], hd⟩

/-! ### Reading one clause from its end -/

/-- The characters a rendered clause with a string or integer operand ends with: the closing
quote of a literal, the last digit of an integer, the `S` of `EXISTS`. -/
def endsClause (c : Char) : Bool := c == '\'' || c.isDigit || c == 'S'

/-- `escapeChars` read from its end. -/
def escapeCharsRev (l : List Char) : List Char :=
  l.flatMap fun ch => if needsEscape ch then [ch, '\\'] else [ch]

theorem escapeChars_reverse (l : List Char) :
    (escapeChars l).reverse = escapeCharsRev l.reverse := by
  induction l with
  | nil => rfl
  | cons c l ih =>
    rw [escapeChars_cons, List.reverse_append, ih]
    by_cases h : needsEscape c <;> simp [escapeCharsRev, h]

/-- From its end, the body of a literal after its closing quote: a quote preceded by a backslash
is an escaped quote, two backslashes an escaped backslash, and any other quote is the opening
one. Returns the value reversed, and what precedes the opening quote. -/
def readLiteralRev : List Char → Option (List Char × List Char)
  | [] => none
  | '\'' :: '\\' :: rest => (readLiteralRev rest).map fun (s, r) => ('\'' :: s, r)
  | '\'' :: rest => some ([], rest)
  | '\\' :: '\\' :: rest => (readLiteralRev rest).map fun (s, r) => ('\\' :: s, r)
  | '\\' :: _ => none
  | c :: rest => (readLiteralRev rest).map fun (s, r) => (c :: s, r)

theorem readLiteralRev_plain {c : Char} (hc : needsEscape c = false) (rest : List Char) :
    readLiteralRev (c :: rest) = (readLiteralRev rest).map fun (s, r) => (c :: s, r) := by
  have h1 : c ≠ '\\' := by rintro rfl; simp [needsEscape] at hc
  have h2 : c ≠ '\'' := by rintro rfl; simp [needsEscape] at hc
  cases rest <;> simp [readLiteralRev, h1, h2]

/-- An escaped value reads back from its end, up to the quote that opens it. -/
theorem readLiteralRev_escapeCharsRev (l rest : List Char) :
    readLiteralRev (escapeCharsRev l ++ '\'' :: ' ' :: rest) = some (l, ' ' :: rest) := by
  induction l with
  | nil => simp [escapeCharsRev, readLiteralRev]
  | cons c l ih =>
    cases hc : needsEscape c
    · simp [escapeCharsRev, hc, readLiteralRev_plain hc] at ih ⊢
      exact ih
    · have : c = '\\' ∨ c = '\'' := by simpa [needsEscape] using hc
      rcases this with rfl | rfl <;>
        simp [escapeCharsRev, needsEscape, readLiteralRev] at ih ⊢ <;> exact ih

/-- The tail an operator token and the value after it read as. -/
def Tail.ofOperator : List Char → Value → Option Tail
  | ['='], v => some (.compare .eq v)
  | ['<'], v => some (.compare .lt v)
  | ['<', '='], v => some (.compare .lte v)
  | ['>'], v => some (.compare .gt v)
  | ['>', '='], v => some (.compare .gte v)
  | ['C', 'O', 'N', 'T', 'A', 'I', 'N', 'S'], .text s => some (.contains s)
  | _, _ => none

/-- Not a space. -/
def notSpace (c : Char) : Bool := c != ' '

theorem takeWhile_dropWhile_notSpace {tok : List Char} (h : ' ' ∉ tok) (rest : List Char) :
    (tok ++ ' ' :: rest).takeWhile notSpace = tok ∧
      (tok ++ ' ' :: rest).dropWhile notSpace = ' ' :: rest := by
  induction tok with
  | nil => simp [notSpace]
  | cons c tok ih =>
    have hc : c ≠ ' ' := fun hc => h (hc ▸ List.mem_cons_self c tok)
    obtain ⟨ih1, ih2⟩ := ih (fun hm => h (List.mem_cons_of_mem c hm))
    simp [List.takeWhile_cons, List.dropWhile_cons, notSpace, hc, ih1, ih2]

/-- From its end, the operator before an operand: a space, the operator, a space. -/
def readOpRev (v : Value) : List Char → Option (Tail × List Char)
  | ' ' :: r =>
    match r.dropWhile notSpace with
    | ' ' :: rest => (Tail.ofOperator (r.takeWhile notSpace).reverse v).map (·, rest)
    | _ => none
  | _ => none

theorem readOpRev_token {tok : List Char} (h : ' ' ∉ tok) (v : Value) (rest : List Char) :
    readOpRev v (' ' :: (tok.reverse ++ ' ' :: rest)) = (Tail.ofOperator tok v).map (·, rest) := by
  obtain ⟨h1, h2⟩ := takeWhile_dropWhile_notSpace (show ' ' ∉ tok.reverse by simpa using h) rest
  simp [readOpRev, h1, h2]

/-- From its end, `EXISTS`, or an integer operand and its operator. -/
def readWordRev (r : List Char) : Option (Tail × List Char) :=
  if r.takeWhile notSpace = ['S', 'T', 'S', 'I', 'X', 'E'] then
    match r.dropWhile notSpace with
    | ' ' :: rest => some (.exists, rest)
    | _ => none
  else
    (readInt (r.takeWhile notSpace).reverse).bind fun n => readOpRev (.int n) (r.dropWhile notSpace)

/-- From its end, what follows a key: an operand and its operator, or `EXISTS`. Returns the tail
and what precedes it. -/
def readTailRev : List Char → Option (Tail × List Char)
  | '\'' :: r => (readLiteralRev r).bind fun (s, rest) => readOpRev (.text ⟨s.reverse⟩) rest
  | r => readWordRev r

theorem readTailRev_of_ne {c : Char} (hc : c ≠ '\'') (r : List Char) :
    readTailRev (c :: r) = readWordRev (c :: r) := by
  simp [readTailRev, hc]

/-- An operand that reads back: a string or an integer. -/
def Operand.isScalar : Operand → Bool
  | .string _ | .signed _ | .unsigned _ => true
  | _ => false

theorem escape_data_reverse (s : String) :
    (escape s).data.reverse = '\'' :: escapeCharsRev s.data.reverse ++ ['\''] := by
  simp [escape_toList, escapeChars_reverse]

/-- An integer operand and its operator read back from their end. -/
theorem readTailRev_int (i : Int) {tok : List Char} (htok : ' ' ∉ tok) (rest : List Char) :
    readTailRev ((toString i).data.reverse ++ ' ' :: (tok.reverse ++ ' ' :: rest)) =
      (Tail.ofOperator tok (.int i)).map (·, rest) := by
  obtain ⟨hchars, d, r, hdr, hd⟩ := toString_int_chars i
  have hsp : ' ' ∉ d :: r := fun h => by
    rcases hchars ' ' (List.mem_reverse.mp (hdr ▸ h)) with h | h <;> simp at h
  obtain ⟨h1, h2⟩ := takeWhile_dropWhile_notSpace hsp (tok.reverse ++ ' ' :: rest)
  have hq : d ≠ '\'' := by rintro rfl; simp at hd
  have hS : d :: r ≠ ['S', 'T', 'S', 'I', 'X', 'E'] := by rintro ⟨⟩; simp at hd
  have hread : readInt (d :: r).reverse = some i := by
    rw [← hdr, List.reverse_reverse, readInt_toString]
  rw [hdr, List.cons_append, readTailRev_of_ne hq, ← List.cons_append, readWordRev, h1, h2,
    if_neg hS, hread, Option.some_bind]
  exact readOpRev_token htok _ rest

/-- A string or integer operand and its operator read back from their end. -/
theorem readTailRev_operand {op : Operand} (hop : op.isScalar) {tok : List Char}
    (htok : ' ' ∉ tok) (rest : List Char) :
    readTailRev (op.fmt.data.reverse ++ ' ' :: (tok.reverse ++ ' ' :: rest)) =
      (Tail.ofOperator tok op.value).map (·, rest) := by
  cases op with
  | string s =>
    rw [Operand.fmt, escape_data_reverse]
    simp only [List.cons_append, List.append_assoc, List.singleton_append, List.nil_append,
      readTailRev, readLiteralRev_escapeCharsRev, Option.some_bind, List.reverse_reverse]
    exact readOpRev_token htok _ rest
  | signed i => exact readTailRev_int i.toInt htok rest
  | unsigned u => exact readTailRev_int u.toNat htok rest
  | float | date | dateTime => simp [Operand.isScalar] at hop

theorem readWordRev_exists (rest : List Char) :
    readWordRev (['S', 'T', 'S', 'I', 'X', 'E'] ++ ' ' :: rest) = some (.exists, rest) := by
  obtain ⟨h1, h2⟩ := takeWhile_dropWhile_notSpace
    (show ' ' ∉ ['S', 'T', 'S', 'I', 'X', 'E'] by decide) rest
  rw [readWordRev, h1, h2]
  rfl

/-- A condition whose operand, if it has one, is a string or an integer. -/
def Condition.hasScalarOperand : Condition → Bool
  | .eq _ op | .lt _ op | .lte _ op | .gt _ op | .gte _ op => op.isScalar
  | .contains _ _ | .exists _ => true

/-- **One clause, from its end.** Reading a rendered condition from its end gives what it says
after its key, and leaves the key and whatever came before it. -/
theorem readTailRev_fmt {c : Condition} (hc : c.hasScalarOperand) (rest : List Char) :
    readTailRev (c.fmt.data.reverse ++ rest) = some (c.meaning.tail, c.key.data.reverse ++ rest) := by
  have compare : ∀ (key : String) (op : Operand) (tok : List Char), op.isScalar → ' ' ∉ tok →
      readTailRev ((key ++ ⟨' ' :: tok ++ [' ']⟩ ++ op.fmt).data.reverse ++ rest) =
        (Tail.ofOperator tok op.value).map (·, key.data.reverse ++ rest) := by
    intro key op tok hop htok
    simpa using readTailRev_operand hop htok (key.data.reverse ++ rest)
  cases c with
  | eq key op => exact compare key op ['='] hc (by decide)
  | lt key op => exact compare key op ['<'] hc (by decide)
  | lte key op => exact compare key op ['<', '='] hc (by decide)
  | gt key op => exact compare key op ['>'] hc (by decide)
  | gte key op => exact compare key op ['>', '='] hc (by decide)
  | contains key s =>
    exact compare key (.string s) ['C', 'O', 'N', 'T', 'A', 'I', 'N', 'S'] rfl (by decide)
  | «exists» key =>
    have : (Condition.exists key).fmt.data.reverse ++ rest =
        ['S', 'T', 'S', 'I', 'X', 'E'] ++ ' ' :: (key.data.reverse ++ rest) := by
      simp [Condition.fmt]
    rw [this]
    exact (readTailRev_of_ne (by decide) _).trans (readWordRev_exists _)

/-! ### Reading a key from its end -/

/-- The separator `" AND "`, reversed. -/
def sepRev : List Char := [' ', 'D', 'N', 'A', ' ']

theorem sepRev_eq : sepRev = " AND ".data.reverse := rfl

/-- From its end, the text before a separator `" AND "` that ends the clause before it, if the
reversed text starts with one. A separator counts only when the character before it can end a
clause. -/
def sepRest : List Char → Option (List Char)
  | ' ' :: 'D' :: 'N' :: 'A' :: ' ' :: c :: rest => if endsClause c then some (c :: rest) else none
  | _ => none

/-- From its end, a key: up to a separator that ends the clause before it, or to the start of
the text. Returns the key reversed, and the text before the separator if there is one. -/
def readKeyRev : List Char → List Char × Option (List Char)
  | [] => ([], none)
  | c :: rest =>
    match sepRest (c :: rest) with
    | some r => ([], some r)
    | none => let (k, r) := readKeyRev rest; (c :: k, r)

/-- Text that holds no separator does not start with one. -/
theorem sepRest_eq_none {l : List Char} (h : ¬ sepRev <:+: l) : sepRest l = none := by
  unfold sepRest
  split
  · exact absurd ⟨[], _, rfl⟩ h
  · rfl

/-- A separator found inside a key that holds none is followed by `D`, which ends no clause: a key
can start with `AND `, but no clause ends with `AND`. -/
theorem sepRest_append_sep {p : List Char} (hp : p ≠ []) (h : ¬ sepRev <:+: p) (x : Char)
    (rest : List Char) : sepRest (p ++ sepRev ++ x :: rest) = none := by
  match p, hp with
  | [_], _ | [_, _], _ | [_, _, _], _ => simp [sepRest, sepRev]
  | [a, b, c, d], _ =>
    unfold sepRest
    split
    · next heq =>
      simp only [sepRev, List.cons_append, List.nil_append, List.cons.injEq] at heq
      obtain ⟨-, -, -, -, -, rfl, -⟩ := heq
      rfl
    · rfl
  | a :: b :: c :: d :: e :: p', _ =>
    unfold sepRest
    split
    · next heq =>
      simp only [List.cons_append, List.cons.injEq] at heq
      obtain ⟨rfl, rfl, rfl, rfl, rfl, -⟩ := heq
      exact absurd (List.prefix_append sepRev p').isInfix h
    · rfl

/-- A key that holds no separator reads back whole, to the start of the text. -/
theorem readKeyRev_of_not_infix {m : List Char} (h : ¬ sepRev <:+: m) :
    readKeyRev m = (m, none) := by
  induction m with
  | nil => rfl
  | cons c m ih =>
    rw [readKeyRev, sepRest_eq_none h, ih (fun hm => h (List.infix_cons hm))]

/-- **One key, from its end.** A key that holds no separator reads back whole, up to the
separator before it when the clause before it ends there. -/
theorem readKeyRev_append_sep {m : List Char} (h : ¬ sepRev <:+: m) {x : Char}
    (hx : endsClause x) (rest : List Char) :
    readKeyRev (m ++ sepRev ++ x :: rest) = (m, some (x :: rest)) := by
  induction m with
  | nil => simp [readKeyRev, sepRest, sepRev, hx]
  | cons c m ih =>
    have hnone := sepRest_append_sep (List.cons_ne_nil c m) h x rest
    rw [List.cons_append, List.cons_append, readKeyRev, ← List.cons_append, ← List.cons_append,
      hnone, ih (fun hm => h (List.infix_cons hm))]

/-! ### Reading a query from its end -/

/-- From its end, the clauses of a rendered query, last first; `fuel` bounds their number. -/
def readClausesRev : Nat → List Char → Option (List Clause)
  | 0, _ => none
  | fuel + 1, r =>
    (readTailRev r).bind fun (tail, r) =>
      match readKeyRev r with
      | (key, none) => some [⟨⟨key.reverse⟩, tail⟩]
      | (key, some r) => (readClausesRev fuel r).map (⟨⟨key.reverse⟩, tail⟩ :: ·)

/-- **A readable condition**: its key holds no `" AND "`, and its operand, if it has one, is a
string or an integer. -/
def Condition.Readable (c : Condition) : Prop :=
  ¬ " AND ".data <:+: c.key.data ∧ c.hasScalarOperand = true

instance : DecidablePred Condition.Readable := fun _ => inferInstanceAs (Decidable (_ ∧ _))

theorem Condition.Readable.not_infix_sepRev {c : Condition} (h : c.Readable) :
    ¬ sepRev <:+: c.key.data.reverse := by
  rw [sepRev_eq, List.reverse_infix]
  exact h.1

@[simp] theorem Condition.meaning_key (c : Condition) : c.meaning.key = c.key := by
  cases c <;> rfl

/-- A rendered string or integer operand ends with a character that ends a clause. -/
theorem Operand.fmt_reverse_head {op : Operand} (hop : op.isScalar) :
    ∃ x r, op.fmt.data.reverse = x :: r ∧ endsClause x := by
  cases op with
  | string s => exact ⟨_, _, escape_data_reverse s, rfl⟩
  | signed i =>
    obtain ⟨-, d, r, h, hd⟩ := toString_int_chars i.toInt
    exact ⟨d, r, h, by simp [endsClause, hd]⟩
  | unsigned u =>
    obtain ⟨-, d, r, h, hd⟩ := toString_int_chars u.toNat
    exact ⟨d, r, h, by simp [endsClause, hd]⟩
  | float | date | dateTime => simp [Operand.isScalar] at hop

/-- A rendered readable condition ends with a character that ends a clause. -/
theorem Condition.fmt_reverse_head {c : Condition} (hc : c.hasScalarOperand) :
    ∃ x r, c.fmt.data.reverse = x :: r ∧ endsClause x := by
  have last : ∀ {a b : String} {x r}, b.data.reverse = x :: r →
      (a ++ b).data.reverse = x :: (r ++ a.data.reverse) := fun h => by simp [h]
  cases c with
  | contains key s =>
    obtain ⟨x, r, h, hx⟩ := Operand.fmt_reverse_head (show (Operand.string s).isScalar from rfl)
    exact ⟨x, _, last h, hx⟩
  | «exists» key => exact ⟨'S', _, last (b := " EXISTS") (r := ['T', 'S', 'I', 'X', 'E', ' ']) rfl, rfl⟩
  | _ key op =>
    obtain ⟨x, r, h, hx⟩ := Operand.fmt_reverse_head (show op.isScalar from hc)
    exact ⟨x, _, last h, hx⟩

@[simp] theorem Condition.mk_meaning_tail (c : Condition) :
    (⟨⟨c.key.data⟩, c.meaning.tail⟩ : Clause) = c.meaning := by
  cases c <;> rfl

/-- Rendered conditions joined by `" AND "`, read from the end: the last condition first. -/
def revJoin : List Condition → List Char
  | [] => []
  | [c] => c.fmt.data.reverse
  | c :: c' :: cs => c.fmt.data.reverse ++ sepRev ++ revJoin (c' :: cs)

theorem revJoin_cons (c : Condition) (l : List Condition) :
    ∃ t, revJoin (c :: l) = c.fmt.data.reverse ++ t := by
  cases l with
  | nil => exact ⟨[], by simp [revJoin]⟩
  | cons c' l => exact ⟨_, by rw [revJoin, List.append_assoc]⟩

theorem intercalate_data_reverse (l : List Condition) :
    (" AND ".intercalate (l.reverse.map Condition.fmt)).data.reverse = revJoin l := by
  induction l with
  | nil => rfl
  | cons c l ih =>
    cases l with
    | nil => simp [revJoin]
    | cons c' l =>
      rw [List.reverse_cons, List.map_append, List.map_singleton,
        intercalate_append_singleton _ _ (by simp)]
      simp [revJoin, ← ih, sepRev_eq]

/-- **Readable clauses, from their end.** The reversed rendering of readable conditions, last
first, reads back as what they say, last first. -/
theorem readClausesRev_revJoin {l : List Condition} (hl : ∀ c ∈ l, c.Readable) (hne : l ≠ [])
    {fuel : Nat} (hfuel : l.length ≤ fuel) :
    readClausesRev fuel (revJoin l) = some (l.map Condition.meaning) := by
  induction l generalizing fuel with
  | nil => contradiction
  | cons c l ih =>
    obtain ⟨fuel, rfl⟩ : ∃ f, fuel = f + 1 := ⟨fuel - 1, by simp at hfuel; omega⟩
    have hc := hl c (List.mem_cons_self c l)
    cases l with
    | nil =>
      have htail := readTailRev_fmt hc.2 []
      rw [List.append_nil, List.append_nil] at htail
      simp [revJoin, readClausesRev, htail, readKeyRev_of_not_infix hc.not_infix_sepRev]
    | cons c' l =>
      obtain ⟨x, r, hxr, hx⟩ := Condition.fmt_reverse_head (hl c' (by simp)).2
      obtain ⟨t, ht⟩ := revJoin_cons c' l
      have hkey := readKeyRev_append_sep hc.not_infix_sepRev hx (r ++ t)
      rw [← List.cons_append, ← hxr, ← ht] at hkey
      have htail := readTailRev_fmt hc.2 (sepRev ++ revJoin (c' :: l))
      rw [revJoin, List.append_assoc, readClausesRev, htail, Option.some_bind]
      simp only [← List.append_assoc, hkey]
      rw [ih (fun c hc => hl c (List.mem_cons_of_mem _ hc)) (List.cons_ne_nil _ _)
        (by simpa using hfuel)]
      simp

theorem length_le_revJoin (l : List Condition) : l.length ≤ (revJoin l).length := by
  induction l with
  | nil => exact le_refl 0
  | cons c l ih =>
    have hc : 0 < c.fmt.data.length := List.length_pos.mpr fun h =>
      Condition.fmt_ne_empty c (String.ext h)
    cases l with
    | nil => simpa [revJoin] using hc
    | cons c' l =>
      simp only [revJoin, List.length_append, List.length_cons, List.length_reverse] at ih hc ⊢
      omega

/-! ### Queries -/

namespace Query

/-- **The clause list of a query**: its event type read as the condition `tm.event = '<type>'`,
then its conditions in insertion order. -/
def clauses (q : Query) : List Condition :=
  (q.eventType.map fun t => Condition.eq "tm.event" (.string t.fmt)).toList ++ q.conditions

/-- A query whose conditions are all readable. -/
def Readable (q : Query) : Prop := ∀ c ∈ q.conditions, c.Readable

instance : DecidablePred Readable := fun q =>
  inferInstanceAs (Decidable (∀ c ∈ q.conditions, c.Readable))

theorem clauseStrings_eq_map_fmt (q : Query) : q.clauseStrings = q.clauses.map Condition.fmt := by
  rcases q with ⟨_ | t, cs⟩
  · rfl
  · cases t <;> simp [clauseStrings, clauses] <;> decide

theorem clauses_eq_nil_iff {q : Query} : q.clauses = [] ↔ q = default := by
  rcases q with ⟨_ | t, cs⟩ <;> simp [clauses, default]

theorem Readable.clauses {q : Query} (h : q.Readable) : ∀ c ∈ q.clauses, c.Readable := by
  rcases q with ⟨_ | t, cs⟩
  · exact h
  · simp only [Query.clauses, Option.map_some', Option.toList_some, List.singleton_append,
      List.forall_mem_cons]
    cases t <;> exact ⟨by decide, h⟩

theorem fmt_data_reverse (q : Query) : q.fmt.data.reverse = revJoin q.clauses.reverse := by
  rw [fmt_eq_intercalate, clauseStrings_eq_map_fmt, ← intercalate_data_reverse,
    List.reverse_reverse]

end Query

/-- **Reading a rendered query**: the clauses read from its end, put back in order. The empty
text is the query that matches every event. -/
def readQuery (s : String) : Option (List Clause) :=
  if s.data = [] then some [] else (readClausesRev s.length s.data.reverse).map List.reverse

/-- **Readable queries read back.** Reading the rendering of a readable query gives back its
clause list. -/
theorem readQuery_fmt {q : Query} (hq : q.Readable) :
    readQuery q.fmt = some (q.clauses.map Condition.meaning) := by
  by_cases hne : q = Query.default
  · subst hne
    rfl
  · have hcl : q.clauses.reverse ≠ [] := by simpa using mt Query.clauses_eq_nil_iff.mp hne
    have hlen : q.clauses.reverse.length ≤ q.fmt.length := by
      have := length_le_revJoin q.clauses.reverse
      rw [← Query.fmt_data_reverse, List.length_reverse, List.length_reverse] at this
      simpa using this
    have hread := readClausesRev_revJoin (fun c hc => hq.clauses c (List.mem_reverse.mp hc)) hcl hlen
    rw [← Query.fmt_data_reverse] at hread
    have hdata : q.fmt.data ≠ [] := fun h => hne (Query.fmt_eq_empty_iff.mp (String.ext h))
    simp [readQuery, hdata, hread, List.map_reverse]

end TendermintRpc

import TendermintRpc.Query.Basic

/-!
# Escaped literals read back

`escape` writes a `String` operand or a `CONTAINS` value as a single-quoted literal, with a
backslash before every backslash and every single quote of the value. A reader of the query
language takes such a literal from its opening quote: a backslash takes the character after it
as that character, any other character but a quote is itself, and the first quote that no
backslash consumed closes the literal (`readLiteral`, the reader the protocol's grammar
describes; it is not part of this repository).

* `escape_toList` — the characters `escape` writes, as a `flatMap` over the value;
* `readQuoted_escape_append` — reading a literal from `escape s ++ rest` returns exactly `s` and
  leaves exactly `rest`, for every `s` and every `rest`;
* `escape_append_inj` — hence `escape` is injective and prefix-free: a rendered literal can
  never close early, and what follows it is never read into it.
-/

namespace TendermintRpc

/-- The characters `escape` writes between its quotes. -/
def escapeChars (l : List Char) : List Char :=
  l.flatMap fun ch => if needsEscape ch then ['\\', ch] else [ch]

@[simp] theorem escapeChars_nil : escapeChars [] = [] := rfl

theorem escapeChars_cons (ch : Char) (l : List Char) :
    escapeChars (ch :: l) = (if needsEscape ch then ['\\', ch] else [ch]) ++ escapeChars l := by
  simp [escapeChars]

/-- `escape`'s loop appends `escapeChars` of what it has read to its buffer. -/
theorem foldl_escapeStep (l : List Char) (acc : String) :
    (l.foldl escapeStep acc).data = acc.data ++ escapeChars l := by
  induction l generalizing acc with
  | nil => simp
  | cons ch l ih =>
    rw [List.foldl_cons, ih, escapeChars_cons]
    by_cases h : needsEscape ch <;> simp [escapeStep, h]

theorem escape_toList (s : String) :
    (escape s).data = '\'' :: escapeChars s.data ++ ['\''] := by
  simp [escape, foldl_escapeStep]

/-! ### The reader -/

/-- The body of a single-quoted literal, after its opening quote: its characters, and what
follows its closing quote. -/
def readLiteralBody : List Char → Option (List Char × List Char)
  | [] => none
  | '\\' :: c :: rest => (readLiteralBody rest).map fun (s, r) => (c :: s, r)
  | '\'' :: rest => some ([], rest)
  | c :: rest => (readLiteralBody rest).map fun (s, r) => (c :: s, r)

/-- A single-quoted literal: an opening quote, then its body. -/
def readLiteral : List Char → Option (List Char × List Char)
  | '\'' :: rest => readLiteralBody rest
  | _ => none

/-- `readLiteral` on text: the literal's value and the text after it. -/
def readQuoted (input : String) : Option (String × String) :=
  (readLiteral input.toList).map fun (s, rest) => (String.mk s, String.mk rest)

/-- A character that needs no escape is read as itself. -/
theorem readLiteralBody_plain {c : Char} (hc : needsEscape c = false) (rest : List Char) :
    readLiteralBody (c :: rest) = (readLiteralBody rest).map fun (s, r) => (c :: s, r) := by
  have h1 : c ≠ '\\' := by rintro rfl; simp [needsEscape] at hc
  have h2 : c ≠ '\'' := by rintro rfl; simp [needsEscape] at hc
  cases rest <;> simp [readLiteralBody, h1, h2]

/-- The body of an escaped value is read back as the value, up to the closing quote. -/
theorem readLiteralBody_escapeChars (l rest : List Char) :
    readLiteralBody (escapeChars l ++ '\'' :: rest) = some (l, rest) := by
  induction l with
  | nil => simp [readLiteralBody]
  | cons c l ih =>
    rw [escapeChars_cons]
    cases hc : needsEscape c
    · simp [readLiteralBody_plain hc, ih]
    · simp [readLiteralBody, ih]

/-- Reading one literal from an escaped value and any continuation. -/
theorem readLiteral_escape_append (s : String) (rest : List Char) :
    readLiteral ((escape s).data ++ rest) = some (s.data, rest) := by
  simp [escape_toList, readLiteral, readLiteralBody_escapeChars]

/-- **Escaped literals read back.** Reading one literal from `escape s ++ rest` returns exactly
`s` and leaves exactly `rest`. -/
theorem readQuoted_escape_append (s rest : String) :
    readQuoted (escape s ++ rest) = some (s, rest) := by
  simp [readQuoted, readLiteral_escape_append]

/-- `escape` is injective and prefix-free. -/
theorem escape_append_inj {s s' rest rest' : String}
    (h : escape s ++ rest = escape s' ++ rest') : s = s' ∧ rest = rest' := by
  have := readLiteral_escape_append s rest.data
  rw [← String.data_append, h, String.data_append, readLiteral_escape_append] at this
  simpa [eq_comm, String.ext_iff] using this

/-- The law applied at a value holding a quote, followed by text that starts like a separator.
Its hypothesis holds only where both sides agree, as here. -/
theorem escape_append_inj_quote :
    escape "a'" ++ " AND b" = escape "a'" ++ " AND b" ∧ "a'" = "a'" ∧ " AND b" = " AND b" :=
  ⟨rfl, escape_append_inj rfl⟩

end TendermintRpc

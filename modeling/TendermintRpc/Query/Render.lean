import TendermintRpc.Query.Escape

/-!
# The rendered query is its clauses joined by `AND`

A query's clause strings are `tm.event = '<type>'` when an event type is set, followed by its
conditions rendered in insertion order (`Query.clauseStrings`). `Query.fmt` writes the event-type
clause and a separator of its own, then hands the conditions to `join`, which writes a separator
before every item but the first. The two writers agree:

* `join_eq` — `join` appends the items joined by the separator to its buffer;
* `Query.fmt_eq_intercalate` — a query renders to its clause strings joined by `" AND "`, with no
  leading or trailing separator;
* `Query.fmt_push` — a builder appends `" AND "` and the new condition, except on the empty
  query, which becomes the condition alone;
* `Query.fmt_eq_empty_iff` — only the empty query renders to the empty string, the text the
  protocol reads as "match every event".

`Query.fmt_is_and_join_of_clauses` states the three together.
-/

namespace TendermintRpc

/-- The step `join` and `String.intercalate` both fold with. -/
def joinStep (separator : String) (f item : String) : String := f ++ separator ++ item

theorem foldl_joinStep_append (sep f a : String) (l : List String) :
    l.foldl (joinStep sep) (f ++ a) = f ++ l.foldl (joinStep sep) a := by
  induction l generalizing a with
  | nil => rfl
  | cons b l ih => simp only [List.foldl_cons, joinStep, String.append_assoc, ← ih]

theorem intercalate_go_eq_foldl (sep acc : String) (l : List String) :
    String.intercalate.go acc sep l = l.foldl (joinStep sep) acc := by
  induction l generalizing acc with
  | nil => rfl
  | cons b l ih => exact ih _

theorem intercalate_cons (sep a : String) (l : List String) :
    sep.intercalate (a :: l) = a ++ l.foldl (joinStep sep) "" := by
  rw [String.intercalate, intercalate_go_eq_foldl, ← foldl_joinStep_append, String.append_empty]

@[simp] theorem intercalate_nil (sep : String) : sep.intercalate [] = "" := rfl

@[simp] theorem intercalate_singleton (sep a : String) : sep.intercalate [a] = a := rfl

theorem intercalate_cons_cons (sep a b : String) (l : List String) :
    sep.intercalate (a :: b :: l) = a ++ sep ++ sep.intercalate (b :: l) := by
  simp only [intercalate_cons, List.foldl_cons, ← foldl_joinStep_append, joinStep,
    String.empty_append, String.append_empty, String.append_assoc]

theorem intercalate_append_singleton (sep b : String) {l : List String} (hl : l ≠ []) :
    sep.intercalate (l ++ [b]) = sep.intercalate l ++ sep ++ b := by
  obtain ⟨a, l, rfl⟩ := List.exists_cons_of_ne_nil hl
  simp only [List.cons_append, intercalate_cons, List.foldl_append, List.foldl_cons,
    List.foldl_nil, joinStep, String.append_assoc]

/-- **`join` is `intercalate`.** Writing the items with `join` appends them, joined by the
separator, to the buffer. -/
theorem join_eq (f sep : String) (l : List String) : join f sep l = f ++ sep.intercalate l := by
  cases l with
  | nil => simp [join, String.intercalate]
  | cons a l =>
    rw [join, intercalate_cons, ← String.append_assoc, ← foldl_joinStep_append,
      String.append_empty]
    rfl

/-- No condition renders to the empty string. -/
theorem Condition.fmt_ne_empty (c : Condition) : c.fmt ≠ "" := by
  cases c <;> simp [Condition.fmt, String.ext_iff]

namespace Query

/-- The clause strings of a query: `tm.event = '<type>'` when an event type is set, then each
condition rendered, in insertion order. -/
def clauseStrings (q : Query) : List String :=
  (q.eventType.map fun t => "tm.event = '" ++ t.fmt ++ "'").toList ++
    q.conditions.map Condition.fmt

@[simp] theorem clauseStrings_push (q : Query) (c : Condition) :
    (q.push c).clauseStrings = q.clauseStrings ++ [c.fmt] := by
  simp [clauseStrings]

theorem clauseStrings_eq_nil_iff {q : Query} : q.clauseStrings = [] ↔ q = default := by
  rcases q with ⟨_ | t, cs⟩ <;> simp [clauseStrings, default]

/-- **Rendering joins the clauses.** A query renders to its clause strings joined by
`" AND "`. -/
theorem fmt_eq_intercalate (q : Query) : q.fmt = " AND ".intercalate q.clauseStrings := by
  rcases q with ⟨_ | t, _ | ⟨c, cs⟩⟩ <;>
    simp [fmt, clauseStrings, join_eq, intercalate_cons_cons, String.append_assoc]

/-- A builder appends `" AND "` and the new condition; on the empty query it writes the
condition alone. -/
theorem fmt_push (q : Query) (c : Condition) :
    (q.push c).fmt = if q = default then c.fmt else q.fmt ++ " AND " ++ c.fmt := by
  rw [fmt_eq_intercalate, clauseStrings_push]
  split
  · next h => simp [clauseStrings_eq_nil_iff.mpr h]
  · next h =>
    rw [intercalate_append_singleton _ _ (mt clauseStrings_eq_nil_iff.mp h), fmt_eq_intercalate]

/-- No clause string is empty. -/
theorem clauseStrings_ne_empty {q : Query} {s : String} (h : s ∈ q.clauseStrings) : s ≠ "" := by
  simp only [clauseStrings, List.mem_append, Option.mem_toList, Option.mem_def,
    Option.map_eq_some', List.mem_map] at h
  rcases h with ⟨t, -, rfl⟩ | ⟨c, -, rfl⟩
  · simp [String.ext_iff]
  · exact Condition.fmt_ne_empty c

/-- Only the empty query renders to the empty string. -/
theorem fmt_eq_empty_iff {q : Query} : q.fmt = "" ↔ q = default := by
  rw [fmt_eq_intercalate, ← clauseStrings_eq_nil_iff]
  rcases hl : q.clauseStrings with _ | ⟨a, l⟩
  · simp
  · have ha : a ≠ "" := clauseStrings_ne_empty (hl ▸ List.mem_cons_self a l)
    simp only [intercalate_cons, reduceCtorEq, iff_false, String.ext_iff, String.data_append,
      List.append_eq_nil]
    exact fun h => ha (String.ext h.1)

/-- **The rendering law.** A query renders to its clause strings joined by `" AND "`; a builder
appends `" AND "` and the new condition to a query that has an event type or a condition, and
turns the empty query into the condition alone; and only the empty query renders to the empty
string. -/
theorem fmt_is_and_join_of_clauses :
    (∀ q : Query, q.fmt = " AND ".intercalate q.clauseStrings) ∧
    (∀ (q : Query) (c : Condition),
      (q.push c).fmt = if q = default then c.fmt else q.fmt ++ " AND " ++ c.fmt) ∧
    (∀ q : Query, q.fmt = "" ↔ q = default) :=
  ⟨fmt_eq_intercalate, fmt_push, fun _ => fmt_eq_empty_iff⟩

example : (Query.fromEventType .tx |>.andEq "tx.height" (.signed 3)).fmt =
    "tm.event = 'Tx' AND tx.height = 3" := by decide

end Query

end TendermintRpc

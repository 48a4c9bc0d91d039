import TendermintRpc.Query.Decode

/-!
# The rendered query as a routing identity

The subscription interface identifies a query by its rendering: the canonical string is what is
sent to subscribe and what pushed events are routed by. For that identity to be sound, two
queries with the same rendering must say the same thing: the same condition kinds, keys and
values in the same order, with the event type read as the condition `tm.event = '<type>'` and an
`i64` and a `u64` operand of one value read alike (`Query.clauses`, `Condition.meaning`).

Operands are escaped, but keys are written as they are:

* `Query.fmt_merges_and_in_key` — a key holding `" AND "` renders like two conditions, so the
  rendering does not determine the clause list of every query;
* `Query.fmt_injective_of_readable` — it does determine it for queries whose keys hold no
  `" AND "` and whose operands are strings or integers, the queries `readQuery` reads back.
-/

namespace TendermintRpc

namespace Query

/-- **Keys are not escaped.** The condition `a EXISTS AND b EXISTS` and the two conditions
`a EXISTS`, `b EXISTS` render to the same text. -/
theorem fmt_merges_and_in_key :
    (Query.exists "a EXISTS AND b").fmt = ((Query.exists "a").andExists "b").fmt ∧
      (Query.exists "a EXISTS AND b").clauses.map Condition.meaning ≠
        ((Query.exists "a").andExists "b").clauses.map Condition.meaning := by
  decide

/-- **The rendering identifies readable queries.** Two readable queries that render to the same
text have the same clause list. -/
theorem fmt_injective_of_readable {q₁ q₂ : Query} (h₁ : q₁.Readable) (h₂ : q₂.Readable)
    (h : q₁.fmt = q₂.fmt) : q₁.clauses.map Condition.meaning = q₂.clauses.map Condition.meaning :=
  Option.some.inj ((readQuery_fmt h₁).symm.trans (h ▸ readQuery_fmt h₂))

/-- An `i64` and a `u64` operand of one value render alike and read alike. -/
theorem fmt_injective_of_readable_signed_unsigned :
    ((fromEventType .tx).andEq "tx.height" (.signed 3)).Readable ∧
      ((fromEventType .tx).andEq "tx.height" (.unsigned 3)).Readable ∧
      ((fromEventType .tx).andEq "tx.height" (.signed 3)).fmt =
        ((fromEventType .tx).andEq "tx.height" (.unsigned 3)).fmt ∧
      ((fromEventType .tx).andEq "tx.height" (.signed 3)).clauses.map Condition.meaning =
        ((fromEventType .tx).andEq "tx.height" (.unsigned 3)).clauses.map Condition.meaning :=
  ⟨by decide, by decide, by decide,
    fmt_injective_of_readable (by decide) (by decide) (by decide)⟩

end Query

end TendermintRpc

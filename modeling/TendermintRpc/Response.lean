/-!
# Errors and the JSON-RPC response envelope

Every response of the RPC endpoint arrives in a JSON-RPC envelope, and `response.rs` unwraps it
with `Wrapper::into_result`: the protocol version is checked first, then the carried error is
returned if there is one, else the carried result, else a server error for an envelope that
carries neither.

The crate's `Error` type is declared in `error.rs`, which is not among the modelled sources:
`Error` below is modelled from the spec's error taxonomy (§7), one constructor for each class
the modelled code raises, with the text it carries. `Version::ensure_supported` is likewise
declared outside the sources and is a parameter `ensureSupported` of `Wrapper.intoResult`.

* `Wrapper.intoResult_of_unsupported` — an unsupported version is rejected whatever the
  envelope carries;
* `Wrapper.intoResult_eq_ok_iff` — the envelope unwraps to `Ok r` exactly when its version is
  supported, it carries no error, and it carries `r`;
* `Wrapper.intoResult_of_error` and `Wrapper.intoResult_of_empty` — the two failure modes of a
  supported envelope.

`Response::from_string` decodes the envelope before it unwraps it; the JSON decoder is a
parameter, and `Response.fromString_eq` says where each of its failures comes from.
-/

namespace TendermintRpc

/-- Modelled from the spec: `error.rs` is not among the sources. The error classes of §7 that
the modelled code raises, each with the text it carries. -/
inductive Error where
  | invalidParams (data : String)
  | serverError (data : String)
  | parseError (data : String)
  | clientInternalError (data : String)
  deriving DecidableEq, Repr

/-- The `jsonrpc` field of an envelope. -/
structure Version where
  text : String
  deriving DecidableEq, Repr

/-- **The response envelope** `Wrapper<R>`. Its `id` field is read by no modelled function and
is left out. -/
structure Wrapper (R : Type) where
  jsonrpc : Version
  result : Option R
  error : Option Error
  deriving DecidableEq, Repr

namespace Wrapper

variable {R : Type} (ensureSupported : Version → Except Error Unit)

/-- `Wrapper::into_result`: the version check, then the error, then the result. -/
def intoResult (w : Wrapper R) : Except Error R := do
  ensureSupported w.jsonrpc
  match w.error, w.result with
  | some error, _ => .error error
  | none, some result => .ok result
  | none, none => .error (.serverError "server returned malformatted JSON (no 'result' or 'error')")

variable {ensureSupported} {w : Wrapper R}

/-- An unsupported version is rejected before the result and the error are looked at. -/
theorem intoResult_of_unsupported {e : Error} (h : ensureSupported w.jsonrpc = .error e) :
    w.intoResult ensureSupported = .error e := by
  simp [intoResult, h, bind, Except.bind]

/-- A supported envelope that carries an error unwraps to it, whatever result it also carries. -/
theorem intoResult_of_error {e : Error} (h : ensureSupported w.jsonrpc = .ok ())
    (he : w.error = some e) : w.intoResult ensureSupported = .error e := by
  simp [intoResult, h, he, bind, Except.bind]

/-- A supported envelope that carries neither a result nor an error is a server error. -/
theorem intoResult_of_empty (h : ensureSupported w.jsonrpc = .ok ()) (he : w.error = none)
    (hr : w.result = none) :
    w.intoResult ensureSupported =
      .error (.serverError "server returned malformatted JSON (no 'result' or 'error')") := by
  simp [intoResult, h, he, hr, bind, Except.bind]

/-- **Unwrapping succeeds** exactly on a supported envelope that carries a result and no error. -/
theorem intoResult_eq_ok_iff {r : R} :
    w.intoResult ensureSupported = .ok r ↔
      ensureSupported w.jsonrpc = .ok () ∧ w.error = none ∧ w.result = some r := by
  rcases h : ensureSupported w.jsonrpc with e | ⟨⟩
  · simp [intoResult, h, bind, Except.bind]
  · rcases w with ⟨v, _ | r', _ | e'⟩ <;> simp_all [intoResult, bind, Except.bind]

end Wrapper

/-- `Response::from_string`, and `Response::from_reader`, which differs only in where the bytes
come from: decode the envelope, a decoding failure becoming a parse error, then unwrap it. The
JSON decoder (`serde_json`) is outside the sources and is the parameter `decode`, which gives the
envelope or the decoder's message. -/
def Response.fromString {R Bytes : Type} (ensureSupported : Version → Except Error Unit)
    (decode : Bytes → Except String (Wrapper R)) (response : Bytes) : Except Error R := do
  let wrapper ← (decode response).mapError Error.parseError
  wrapper.intoResult ensureSupported

/-- Parsing a response succeeds exactly when the bytes decode to an envelope that unwraps; a
decoding failure is a parse error that carries the decoder's message. -/
theorem Response.fromString_eq {R Bytes : Type} (ensureSupported : Version → Except Error Unit)
    (decode : Bytes → Except String (Wrapper R)) (response : Bytes) :
    Response.fromString ensureSupported decode response =
      match decode response with
      | .error message => .error (.parseError message)
      | .ok wrapper => wrapper.intoResult ensureSupported := by
  unfold Response.fromString
  cases decode response <;> rfl

end TendermintRpc

import TendermintRpc.Response
import Mathlib.Data.List.Range
import Mathlib.Order.MinMax
import Mathlib.Algebra.Group.Nat.Basic

/-!
# Fetching every page of the validator set

`Client::validators` with `Paging::All` asks the node for page 1, 2, 3, ... of the validator set,
each of `DEFAULT_VALIDATORS_PER_PAGE` entries, appends each page to what it holds, and returns as
soon as the count it holds, cast to `i32`, equals the total the last response reported. A failed
request ends the loop with its error. Nothing else ends it: the loop has no cap on the number of
requests.

The loop is modelled with a fuel bound on its iterations (`fetchAllPages`): its result is `none`
while it is still looping. The node is the function `perform` from requests to responses; the
loop sends distinct page numbers, so this covers every sequence of responses. The constant
`DEFAULT_VALIDATORS_PER_PAGE` is declared outside the modelled sources and is the parameter
`defaultValidatorsPerPage`.

* `validators_all_requests` — whatever the node answers, the loop sends one request per
  iteration, for the pages `1, 2, ..` in order, and none past the page that stops it
  (`fetchAllPages_requests`);
* `validators_all_ok` — whatever the node answers, an `Ok` result holds exactly the pages the loop
  requested, concatenated in order;
* `validators_all_error` — a failed request ends the loop at once: it has requested exactly the
  pages up to the failing one, and returns that request's error (`fetchAllPages_of_error`);
* `validators_all_of_serves` — against a node that serves a validator set `V` in pages, the loop
  requests exactly the pages `1 .. max 1 ⌈|V| / n⌉` and returns `V` with its total and height;
* `validators_all_returns_iff` — the loop returns after finitely many requests exactly when some
  request fails or some page brings the count to the reported total (`accumulated`);
* `validators_all_never_returns` — a node that keeps answering an empty page below its total
  keeps the loop requesting forever.

The step lemmas `fetchAllPages_error`, `fetchAllPages_done` and `fetchAllPages_next` say what one
iteration does; every result is derived from them.
-/

namespace TendermintRpc

/-- `tendermint::block::Height`. -/
structure Height where
  value : UInt64
  deriving DecidableEq, Repr

namespace Validators

/-- `validators::Request`: the height, the page number (`usize`) and the page size (`u8`). -/
structure Request where
  height : Option Height
  page : Option Nat
  perPage : Option UInt8
  deriving DecidableEq, Repr

/-- `validators::Response`: the height, a page of validators, and the total the node reports
(an `i32`, held as its bits). -/
structure Response (Info : Type) where
  blockHeight : Height
  validators : List Info
  total : BitVec 32
  deriving DecidableEq, Repr

end Validators

open Validators

/-- `Paging`. -/
inductive Paging where
  | default
  | specific (pageNumber : Nat) (perPage : UInt8)
  | all
  deriving DecidableEq, Repr

/-- `n as i32` for a `usize`: its low 32 bits. -/
def asI32 (n : Nat) : BitVec 32 := BitVec.ofNat 32 n

/-- Below `2 ^ 32` the cast to `i32` is injective. -/
theorem asI32_inj {a b : Nat} (ha : a < 2 ^ 32) (hb : b < 2 ^ 32) : asI32 a = asI32 b ↔ a = b := by
  constructor
  · intro h
    have := congrArg BitVec.toNat h
    simp only [asI32, BitVec.toNat_ofNat, Nat.mod_eq_of_lt ha, Nat.mod_eq_of_lt hb] at this
    exact this
  · rintro rfl
    rfl

variable {Info : Type} (perform : Request → Except Error (Response Info))

/-- The request the `Paging::All` loop sends for page `pageNum`. -/
def pageRequest (height : Height) (perPage : UInt8) (pageNum : Nat) : Request :=
  ⟨some height, some pageNum, some perPage⟩

/-- **The `Paging::All` loop**, for at most `fuel` iterations, from page `pageNum` with the
validators gathered so far: the requests it sends, and its result, `none` while it is still
looping. -/
def fetchAllPages (height : Height) (perPage : UInt8) :
    (fuel pageNum : Nat) → (validators : List Info) →
      List Request × Option (Except Error (Response Info))
  | 0, _, _ => ([], none)
  | fuel + 1, pageNum, validators =>
    let request := pageRequest height perPage pageNum
    match perform request with
    | .error e => ([request], some (.error e))
    | .ok response =>
      let validators := validators ++ response.validators
      if asI32 validators.length = response.total then
        ([request], some (.ok ⟨response.blockHeight, validators, response.total⟩))
      else
        let (requests, result) := fetchAllPages height perPage fuel (pageNum + 1) validators
        (request :: requests, result)

/-- `Client::validators`, with at most `fuel` iterations of its `Paging::All` loop: the requests
it sends and its result. -/
def validators (defaultValidatorsPerPage : UInt8) (fuel : Nat) (height : Height) :
    Paging → List Request × Option (Except Error (Response Info))
  | .default =>
    let request : Request := ⟨some height, none, none⟩
    ([request], some (perform request))
  | .specific pageNumber perPage =>
    let request : Request := ⟨some height, some pageNumber, some perPage⟩
    ([request], some (perform request))
  | .all => fetchAllPages perform height defaultValidatorsPerPage fuel 1 []

/-- The requests for the `m + 1` pages from `p`: page `p`, then the `m` pages from `p + 1`. -/
theorem map_pageRequest_range_succ (height : Height) (perPage : UInt8) (p m : Nat) :
    (List.range (m + 1)).map (fun i => pageRequest height perPage (p + i)) =
      pageRequest height perPage p ::
        (List.range m).map fun i => pageRequest height perPage (p + 1 + i) := by
  simp [List.range_succ_eq_map, Nat.add_assoc, Nat.add_comm 1]

/-! ### One iteration -/

section Step

variable {perform} {height : Height} {perPage : UInt8} {fuel pageNum : Nat} {acc : List Info}

@[simp] theorem fetchAllPages_zero (pageNum : Nat) (acc : List Info) :
    fetchAllPages perform height perPage 0 pageNum acc = ([], none) := rfl

/-- A failed request ends the loop with its error. -/
theorem fetchAllPages_error {e : Error} (h : perform (pageRequest height perPage pageNum) = .error e) :
    fetchAllPages perform height perPage (fuel + 1) pageNum acc =
      ([pageRequest height perPage pageNum], some (.error e)) := by
  simp [fetchAllPages, h]

/-- A page that brings the count to the reported total ends the loop with what it holds. -/
theorem fetchAllPages_done {r : Response Info}
    (h : perform (pageRequest height perPage pageNum) = .ok r)
    (hr : asI32 (acc ++ r.validators).length = r.total) :
    fetchAllPages perform height perPage (fuel + 1) pageNum acc =
      ([pageRequest height perPage pageNum], some (.ok ⟨r.blockHeight, acc ++ r.validators, r.total⟩)) := by
  simp only [fetchAllPages, h, hr, if_true]

/-- Any other page is appended, and the loop goes on with the next page. -/
theorem fetchAllPages_next {r : Response Info}
    (h : perform (pageRequest height perPage pageNum) = .ok r)
    (hr : asI32 (acc ++ r.validators).length ≠ r.total) :
    fetchAllPages perform height perPage (fuel + 1) pageNum acc =
      (pageRequest height perPage pageNum ::
        (fetchAllPages perform height perPage fuel (pageNum + 1) (acc ++ r.validators)).1,
        (fetchAllPages perform height perPage fuel (pageNum + 1) (acc ++ r.validators)).2) := by
  simp only [fetchAllPages, h, hr, if_false]

end Step

/-! ### Every run, whatever the node answers -/

/-- The validators the answer to `req` holds; none when the request failed. -/
def pageValidators (req : Request) : List Info :=
  match perform req with
  | .ok response => response.validators
  | .error _ => []

section Run

variable {perform} {height : Height} {perPage : UInt8}

/-- What the loop returns as `Ok`: what it held, then every page it requested, in order; and its
count, cast to `i32`, is the total it returns. -/
theorem fetchAllPages_ok {fuel pageNum : Nat} {acc : List Info} {r : Response Info}
    (h : (fetchAllPages perform height perPage fuel pageNum acc).2 = some (.ok r)) :
    r.validators = acc ++ ((fetchAllPages perform height perPage fuel pageNum acc).1.map
        (pageValidators perform)).flatten ∧
      asI32 r.validators.length = r.total := by
  induction fuel generalizing pageNum acc with
  | zero => simp at h
  | succ fuel ih =>
    rcases hp : perform (pageRequest height perPage pageNum) with e | r'
    · rw [fetchAllPages_error hp] at h
      cases h
    by_cases hr : asI32 (acc ++ r'.validators).length = r'.total
    · rw [fetchAllPages_done hp hr] at h ⊢
      cases h
      exact ⟨by simp [pageValidators, hp], hr⟩
    · rw [fetchAllPages_next hp hr] at h ⊢
      obtain ⟨hv, ht⟩ := ih h
      exact ⟨by simp [hv, pageValidators, hp], ht⟩

end Run

/-- **An `Ok` result is every page, in order.** Whatever the node answers, when the
`Paging::All` loop returns `Ok`, its validators are the pages it requested, concatenated in the
order it requested them, and their count cast to `i32` is the total it returns. -/
theorem validators_all_ok {n : UInt8} {fuel : Nat} {height : Height} {r : Response Info}
    (h : (validators perform n fuel height .all).2 = some (.ok r)) :
    r.validators =
        ((validators perform n fuel height .all).1.map (pageValidators perform)).flatten ∧
      asI32 r.validators.length = r.total := by
  simpa using fetchAllPages_ok h

/-! ### A node that serves a validator set -/

/-- Page `p` of `V` in pages of `n`: the slice `V[(p - 1) * n, min (p * n) |V|)`. -/
def pageOf (V : List Info) (n p : Nat) : List Info := (V.drop ((p - 1) * n)).take n

/-- The node answers every request for a page `p ≥ 1` of `n` entries with page `p` of `V`, the
total `|V|` and the height `h`. -/
def Serves (V : List Info) (h : Height) (n : UInt8) : Prop :=
  ∀ (req : Request) (p : Nat), req.page = some p → req.perPage = some n → 1 ≤ p →
    perform req = .ok ⟨h, pageOf V n.toNat p, asI32 V.length⟩

/-- The number of pages of `len` entries in pages of `n`: `max 1 ⌈len / n⌉`. -/
def pageCount (len n : Nat) : Nat := max 1 ((len + n - 1) / n)

theorem lt_pageCount_iff {len n k : Nat} (hn : 0 < n) : k < pageCount len n ↔ k = 0 ∨ k * n < len := by
  have hdiv : k < (len + n - 1) / n ↔ k * n < len := by
    rw [Nat.lt_iff_add_one_le, Nat.le_div_iff_mul_le hn, Nat.succ_mul]
    omega
  rw [pageCount, lt_max_iff, hdiv, Nat.lt_one_iff]

/-- Gathering the first `k + 1` pages of `V` gives its first `(k + 1) * n` entries. -/
theorem take_append_pageOf (V : List Info) (n k : Nat) :
    V.take (k * n) ++ pageOf V n (k + 1) = V.take ((k + 1) * n) := by
  rw [pageOf, Nat.add_sub_cancel, Nat.succ_mul, List.take_add]

section Serves

variable {perform} {V : List Info} {h : Height} {n : UInt8}

/-- **The loop invariant.** Against a node that serves `V`, the loop that has gathered the first
`k` pages holds the first `k * n` entries, and goes on to request exactly the remaining pages and
return `V`. -/
theorem fetchAllPages_serves (hserve : Serves perform V h n) (hn : 0 < n.toNat)
    (hV : V.length < 2 ^ 31) (height : Height) {k fuel : Nat}
    (hk : k < pageCount V.length n.toNat) (hfuel : pageCount V.length n.toNat - k ≤ fuel) :
    fetchAllPages perform height n fuel (k + 1) (V.take (k * n.toNat)) =
      ((List.range (pageCount V.length n.toNat - k)).map fun i => pageRequest height n (k + 1 + i),
        some (.ok ⟨h, V, asI32 V.length⟩)) := by
  induction fuel generalizing k with
  | zero => omega
  | succ fuel ih =>
    have hreq := hserve (pageRequest height n (k + 1)) (k + 1) rfl rfl (by omega)
    have hlen : ∀ m, m ≤ V.length → (asI32 m = asI32 V.length ↔ m = V.length) := fun m hm =>
      asI32_inj (by omega) (by omega)
    by_cases hlast : k + 1 < pageCount V.length n.toNat
    · -- page `k + 1` is not the last: the count stays below the total
      have hlt := ((lt_pageCount_iff hn).mp hlast).resolve_left (by omega)
      have hne : asI32 (V.take (k * n.toNat) ++ pageOf V n.toNat (k + 1)).length ≠
          asI32 V.length := by
        rw [take_append_pageOf, List.length_take, Nat.min_eq_left hlt.le, Ne,
          hlen _ hlt.le]
        omega
      rw [fetchAllPages_next hreq hne, take_append_pageOf, ih hlast (by omega),
        show pageCount V.length n.toNat - k = pageCount V.length n.toNat - (k + 1) + 1 by omega,
        map_pageRequest_range_succ]
    · -- page `k + 1` is the last: the count reaches the total
      have hge : V.length ≤ (k + 1) * n.toNat := by
        have := mt (lt_pageCount_iff (k := k + 1) hn).mpr hlast
        simp only [not_or, Nat.not_lt] at this
        exact this.2
      have htake : V.take ((k + 1) * n.toNat) = V := List.take_of_length_le hge
      rw [fetchAllPages_done hreq (by rw [take_append_pageOf, htake]), take_append_pageOf, htake,
        show pageCount V.length n.toNat - k = 1 by omega]
      rfl

end Serves

/-- **Fetching a served validator set.** Against a node that serves `V` at height `h` in pages of
`n = DEFAULT_VALIDATORS_PER_PAGE`, the `Paging::All` loop requests exactly the pages
`1, 2, .., max 1 ⌈|V| / n⌉`, in that order, and returns `V`, the total `|V|` and the height `h`. -/
theorem validators_all_of_serves (V : List Info) (h : Height) (n : UInt8) (hn : 0 < n.toNat)
    (hV : V.length ≤ 2 ^ 31 - 1) (hserve : Serves perform V h n) (height : Height) (fuel : Nat)
    (hfuel : pageCount V.length n.toNat ≤ fuel) :
    validators perform n fuel height .all =
      ((List.range (pageCount V.length n.toNat)).map fun i => pageRequest height n (i + 1),
        some (.ok ⟨h, V, asI32 V.length⟩)) := by
  have hP : 0 < pageCount V.length n.toNat := (lt_pageCount_iff hn).mpr (.inl rfl)
  have := fetchAllPages_serves hserve hn (by omega) height hP (by omega : _ - 0 ≤ fuel)
  simpa [validators, Nat.add_comm] using this

/-- The node that serves `V` at height `h` in pages of `n`, whatever else the request holds. -/
def servingNode (V : List Info) (h : Height) (n : UInt8) (req : Request) :
    Except Error (Response Info) :=
  .ok ⟨h, pageOf V n.toNat (req.page.getD 0), asI32 V.length⟩

theorem servingNode_serves (V : List Info) (h : Height) (n : UInt8) :
    Serves (servingNode V h n) V h n := by
  intro req p hp _ _
  simp [servingNode, hp]

/-- Three validators in pages of two: pages 1 and 2 are requested. -/
theorem validators_all_of_serves_three :
    0 < (2 : UInt8).toNat ∧ [(), (), ()].length ≤ 2 ^ 31 - 1 ∧
      Serves (servingNode [(), (), ()] ⟨7⟩ 2) [(), (), ()] ⟨7⟩ 2 ∧ pageCount 3 (2 : UInt8).toNat ≤ 2 ∧
      validators (servingNode [(), (), ()] ⟨7⟩ 2) 2 2 ⟨7⟩ .all =
        ([pageRequest ⟨7⟩ 2 1, pageRequest ⟨7⟩ 2 2], some (.ok ⟨⟨7⟩, [(), (), ()], asI32 3⟩)) :=
  ⟨by decide, by decide, servingNode_serves _ _ _, by decide,
    validators_all_of_serves (servingNode [(), (), ()] ⟨7⟩ 2) [(), (), ()] ⟨7⟩ 2 (by decide)
      (by decide) (servingNode_serves _ _ _) ⟨7⟩ 2 (by decide)⟩

/-- Three validators in pages of two come back as the two pages, in order. -/
theorem validators_all_ok_three :
    (validators (servingNode [1, 2, 3] ⟨7⟩ 2) 2 2 ⟨7⟩ .all).2 =
        some (.ok ⟨⟨7⟩, [1, 2, 3], asI32 3⟩) ∧
      [1, 2, 3] = ((validators (servingNode [1, 2, 3] ⟨7⟩ 2) 2 2 ⟨7⟩ .all).1.map
        (pageValidators (servingNode [1, 2, 3] ⟨7⟩ 2))).flatten ∧
      asI32 [1, 2, 3].length = asI32 3 :=
  ⟨rfl, @validators_all_ok Nat (servingNode [1, 2, 3] ⟨7⟩ 2) 2 2 ⟨7⟩ ⟨⟨7⟩, [1, 2, 3], asI32 3⟩ rfl⟩

/-! ### When the loop returns -/

/-- The validators the loop holds after pages `1 .. k` while it goes on: `none` once a request
has failed or a page has brought the count to the reported total. -/
def accumulated (height : Height) (perPage : UInt8) : Nat → Option (List Info)
  | 0 => some []
  | k + 1 => (accumulated height perPage k).bind fun acc =>
    match perform (pageRequest height perPage (k + 1)) with
    | .error _ => none
    | .ok response =>
      if asI32 (acc ++ response.validators).length = response.total then none
      else some (acc ++ response.validators)

section Returns

variable {perform} {height : Height} {perPage : UInt8}

/-- Once stopped, the loop stays stopped. -/
theorem accumulated_eq_none_of_le {j k : Nat} (hjk : j ≤ k)
    (h : accumulated perform height perPage j = none) :
    accumulated perform height perPage k = none := by
  induction k, hjk using Nat.le_induction with
  | base => exact h
  | succ k _ ih => simp [accumulated, ih]

/-- **The loop goes on exactly while the pages let it.** The loop from page `k + 1`, holding what
pages `1 .. k` gave, is still running after `fuel` more iterations exactly when pages
`k + 1 .. k + fuel` all let it go on. -/
theorem fetchAllPages_eq_none_iff {k : Nat} {acc : List Info}
    (hk : accumulated perform height perPage k = some acc) (fuel : Nat) :
    (fetchAllPages perform height perPage fuel (k + 1) acc).2 = none ↔
      (accumulated perform height perPage (k + fuel)).isSome := by
  induction fuel generalizing k acc with
  | zero => simp [hk]
  | succ fuel ih =>
    have stop : accumulated perform height perPage (k + 1) = none →
        (accumulated perform height perPage (k + (fuel + 1))).isSome = false := fun h => by
      rw [accumulated_eq_none_of_le (by omega) h]
      rfl
    rcases hp : perform (pageRequest height perPage (k + 1)) with e | r
    · rw [fetchAllPages_error hp, stop (by simp [accumulated, hk, hp])]
      simp
    · by_cases hr : asI32 (acc ++ r.validators).length = r.total
      · rw [fetchAllPages_done hp hr, stop (by simp only [accumulated, hk, hp, hr, Option.some_bind,
          if_true])]
        simp
      · rw [fetchAllPages_next hp hr, ih (by simp only [accumulated, hk, hp, hr, Option.some_bind,
          if_false]),
          show k + 1 + fuel = k + (fuel + 1) by omega]

/-- Pages that let the loop go on up to page `k` let it go on up to every earlier page. -/
theorem isSome_accumulated_of_le {j k : Nat} (hjk : j ≤ k)
    (h : (accumulated perform height perPage k).isSome) :
    (accumulated perform height perPage j).isSome := by
  cases hj : accumulated perform height perPage j with
  | none => rw [accumulated_eq_none_of_le hjk hj] at h; exact h
  | some _ => rfl

/-- A page after which the loop goes on came back `Ok` below its total and was appended. -/
theorem accumulated_succ_isSome {k : Nat} {acc : List Info}
    (hk : accumulated perform height perPage k = some acc)
    (h : (accumulated perform height perPage (k + 1)).isSome) :
    ∃ r, perform (pageRequest height perPage (k + 1)) = .ok r ∧
      asI32 (acc ++ r.validators).length ≠ r.total ∧
      accumulated perform height perPage (k + 1) = some (acc ++ r.validators) := by
  rcases hp : perform (pageRequest height perPage (k + 1)) with e | r
  · simp [accumulated, hk, hp] at h
  by_cases hr : asI32 (acc ++ r.validators).length = r.total
  · simp only [accumulated, hk, hp, hr, Option.some_bind, if_true, Option.isSome_none,
      Bool.false_eq_true] at h
  · exact ⟨r, rfl, hr, by simp only [accumulated, hk, hp, hr, Option.some_bind, if_false]⟩

/-- **The error path.** The loop from page `k + 1`, holding what pages `1 .. k` gave: if pages
`k + 1 .. k + j` let it go on and the request for page `k + j + 1` fails, it requests exactly the
pages `k + 1 .. k + j + 1` and ends with that request's error. -/
theorem fetchAllPages_of_error {e : Error} {k : Nat} {acc : List Info}
    (hk : accumulated perform height perPage k = some acc) {j fuel : Nat}
    (hgo : (accumulated perform height perPage (k + j)).isSome)
    (hfail : perform (pageRequest height perPage (k + j + 1)) = .error e) (hfuel : j < fuel) :
    fetchAllPages perform height perPage fuel (k + 1) acc =
      ((List.range (j + 1)).map fun i => pageRequest height perPage (k + 1 + i),
        some (.error e)) := by
  obtain ⟨fuel, rfl⟩ : ∃ f, fuel = f + 1 := ⟨fuel - 1, by omega⟩
  induction j generalizing k acc fuel with
  | zero => rw [fetchAllPages_error hfail]; rfl
  | succ j ih =>
    obtain ⟨r, hp, hr, hk'⟩ := accumulated_succ_isSome hk (isSome_accumulated_of_le (by omega) hgo)
    obtain ⟨fuel, rfl⟩ : ∃ f, fuel = f + 1 := ⟨fuel - 1, by omega⟩
    have hshift : k + 1 + j = k + (j + 1) := by omega
    rw [fetchAllPages_next hp hr, ih hk' (hshift ▸ hgo) (hshift ▸ hfail) fuel (by omega),
      map_pageRequest_range_succ height perPage (k + 1) (j + 1)]

/-- **What the loop has sent.** The loop from page `k + 1`, holding what pages `1 .. k` gave,
sends one request per iteration, for the pages `k + 1, k + 2, ..` in order: still looping after
`fuel` iterations, it has sent `fuel` of them; once it has returned, it has sent them up to the
page that stopped it, the first at which `accumulated` stops, and none past it. -/
theorem fetchAllPages_requests {k : Nat} {acc : List Info}
    (hk : accumulated perform height perPage k = some acc) (fuel : Nat) :
    ∃ m ≤ fuel, (fetchAllPages perform height perPage fuel (k + 1) acc).1 =
        (List.range m).map (fun i => pageRequest height perPage (k + 1 + i)) ∧
      ((fetchAllPages perform height perPage fuel (k + 1) acc).2 = none → m = fuel) ∧
      ((fetchAllPages perform height perPage fuel (k + 1) acc).2.isSome →
        0 < m ∧ (accumulated perform height perPage (k + m - 1)).isSome ∧
          accumulated perform height perPage (k + m) = none) := by
  induction fuel generalizing k acc with
  | zero => exact ⟨0, Nat.le_refl 0, rfl, fun _ => rfl, by simp⟩
  | succ fuel ih =>
    have hgo : (accumulated perform height perPage (k + 1 - 1)).isSome := by simp [hk]
    rcases hp : perform (pageRequest height perPage (k + 1)) with e | r
    · -- the request fails: one request, and the loop stops at page `k + 1`
      rw [fetchAllPages_error hp]
      exact ⟨1, by omega, rfl, by simp, fun _ => ⟨Nat.one_pos, hgo, by simp [accumulated, hk, hp]⟩⟩
    by_cases hr : asI32 (acc ++ r.validators).length = r.total
    · -- page `k + 1` brings the count to the total: one request, and the loop stops there
      rw [fetchAllPages_done hp hr]
      exact ⟨1, by omega, rfl, by simp, fun _ => ⟨Nat.one_pos, hgo,
        by simp only [accumulated, hk, hp, hr, Option.some_bind, if_true]⟩⟩
    · -- page `k + 1` is appended: one request, then the loop from page `k + 2`
      have hk' : accumulated perform height perPage (k + 1) = some (acc ++ r.validators) := by
        simp only [accumulated, hk, hp, hr, Option.some_bind, if_false]
      obtain ⟨m, hm, hreq, hnone, hsome⟩ := ih hk'
      rw [fetchAllPages_next hp hr]
      refine ⟨m + 1, by omega, by rw [hreq, map_pageRequest_range_succ height perPage (k + 1) m],
        fun h => by rw [hnone h], fun h => ?_⟩
      obtain ⟨-, hgo', hstop⟩ := hsome h
      exact ⟨by omega, show k + (m + 1) - 1 = k + 1 + m - 1 by omega ▸ hgo',
        show k + (m + 1) = k + 1 + m by omega ▸ hstop⟩

end Returns

/-- **One request per iteration, for successive pages.** Whatever the node answers, the
`Paging::All` loop requests the pages `1, 2, .., m` in order, each at the given height and with
`DEFAULT_VALIDATORS_PER_PAGE`: still looping after `fuel` iterations it has requested exactly
`fuel` pages, and once it has returned it has requested the pages up to the first one that stops
it (`accumulated`), and none past it. -/
theorem validators_all_requests (n : UInt8) (fuel : Nat) (height : Height) :
    ∃ m ≤ fuel, (validators perform n fuel height .all).1 =
        (List.range m).map (fun i => pageRequest height n (i + 1)) ∧
      ((validators perform n fuel height .all).2 = none → m = fuel) ∧
      ((validators perform n fuel height .all).2.isSome →
        0 < m ∧ (accumulated perform height n (m - 1)).isSome ∧
          accumulated perform height n m = none) := by
  have h := @fetchAllPages_requests _ perform height n 0 [] rfl fuel
  simp only [Nat.zero_add, Nat.add_comm 1] at h
  exact h

/-- **When the `Paging::All` loop returns.** It returns after finitely many requests exactly
when some request fails or some page brings the count to the reported total; nothing else ends
it. -/
theorem validators_all_returns_iff (n : UInt8) (height : Height) :
    (∃ fuel r, (validators perform n fuel height .all).2 = some r) ↔
      ∃ k, accumulated perform height n k = none := by
  have h := fun fuel =>
    fetchAllPages_eq_none_iff (show accumulated perform height n 0 = some [] from rfl) fuel
  simp only [Nat.zero_add] at h
  constructor
  · rintro ⟨fuel, r, hr⟩
    refine ⟨fuel, Option.not_isSome_iff_eq_none.mp fun hs => ?_⟩
    rw [← h fuel] at hs
    simp [validators, hs] at hr
  · rintro ⟨k, hk⟩
    cases hres : (fetchAllPages perform height n k 1 []).2 with
    | none =>
      have := (h k).mp hres
      simp [hk] at this
    | some r => exact ⟨k, r, hres⟩

/-- **A failed request ends the loop.** Whatever the node answers, if pages `1 .. m` let the
`Paging::All` loop go on and the request for page `m + 1` fails, the loop requests exactly the
pages `1 .. m + 1`, in order, and returns that request's error. -/
theorem validators_all_error {n : UInt8} {height : Height} {m fuel : Nat} {e : Error}
    (hgo : (accumulated perform height n m).isSome)
    (hfail : perform (pageRequest height n (m + 1)) = .error e) (hfuel : m < fuel) :
    validators perform n fuel height .all =
      ((List.range (m + 1)).map fun i => pageRequest height n (i + 1), some (.error e)) := by
  have h := fetchAllPages_of_error (k := 0) rfl (by simpa using hgo) (by simpa using hfail) hfuel
  simpa [validators, Nat.add_comm] using h

/-- A node that serves three validators in pages of one, but fails on page 2. -/
def failingNode (req : Request) : Except Error (Response Nat) :=
  if req.page = some 2 then .error (.serverError "unavailable")
  else servingNode [1, 2, 3] ⟨7⟩ 1 req

/-- Page 1 is served, page 2 fails: the loop stops there with the error. -/
theorem validators_all_error_second_page :
    (accumulated failingNode ⟨7⟩ 1 1).isSome ∧
      failingNode (pageRequest ⟨7⟩ 1 2) = .error (.serverError "unavailable") ∧ 1 < 3 ∧
      validators failingNode 1 3 ⟨7⟩ .all =
        ([pageRequest ⟨7⟩ 1 1, pageRequest ⟨7⟩ 1 2], some (.error (.serverError "unavailable"))) :=
  ⟨rfl, rfl, by decide,
    @validators_all_error Nat failingNode 1 ⟨7⟩ 1 3 (.serverError "unavailable") rfl rfl (by decide)⟩

/-- A node that answers every request with an empty page and the total 1. -/
def emptyPages (_ : Request) : Except Error (Response Unit) := .ok ⟨⟨0⟩, [], asI32 1⟩

theorem accumulated_emptyPages (k : Nat) : accumulated emptyPages ⟨0⟩ 30 k = some [] := by
  induction k with
  | zero => rfl
  | succ k ih => simp [accumulated, ih, emptyPages]; decide

/-- **The loop has no cap.** Against a node that keeps answering an empty page below its total,
the `Paging::All` loop never returns. -/
theorem validators_all_never_returns :
    ¬ ∃ fuel r, (validators emptyPages 30 fuel ⟨0⟩ .all).2 = some r := by
  rintro ⟨fuel, r, hr⟩
  have := (fetchAllPages_eq_none_iff (k := 0) (accumulated_emptyPages 0) fuel).mpr
    (by simp [accumulated_emptyPages])
  simp [validators, this] at hr

end TendermintRpc

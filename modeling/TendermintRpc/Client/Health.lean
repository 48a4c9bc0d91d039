import TendermintRpc.Response

/-!
# Polling `/health` until the node is healthy

`Client::wait_until_healthy(timeout)` probes `/health` until a probe succeeds, sleeping
`poll_interval` (200 ms) after every failed probe, and gives up after a failed probe once its
`u128` counter of remaining attempts, which starts at `timeout.as_millis() / 200`, is zero.

The loop is a state machine (`PollState`, `pollStep`) run to its end by `pollLoop`, which
terminates because every step that goes on decrements the counter. The node's answers are any
sequence `responses` of outcomes of the `/health` request, indexed by probe; the loop's
observable behaviour is its list of `PollEvent`s.

* `pollStep_inr` — what a step that goes on does: the probe failed, the counter was not zero,
  it is decremented, and the loop sleeps;
* `pollLoop_of_ok` and `pollLoop_of_fails` — from a state with counter `a`, the loop probes until
  the first success among its next `a + 1` probes, sleeping once between consecutive probes, or
  gives up after `a + 1` failed probes;
* `PollReachable.attempts_add_probes` — along every run the counter plus the number of probes
  made is the initial counter: the counter never wraps around;
* `waitUntilHealthy_spec` puts these together for `Client::wait_until_healthy`;
* `pollLoop_trace` and `waitUntilHealthy_sleeps_le` — whatever the node answers, a run makes
  `k + 1` probes for some `k` up to its counter and returns `Ok` exactly when the last succeeded,
  so the loop's sleeps add up to at most the timeout.
-/

namespace TendermintRpc

/-- `std::time::Duration`: whole seconds, and the nanoseconds below one second. -/
structure Duration where
  secs : UInt64
  nanos : UInt32
  nanos_lt : nanos.toNat < 1000000000

/-- `Duration::as_millis`, a `u128`. -/
def Duration.asMillis (d : Duration) : BitVec 128 :=
  BitVec.ofNat 128 (d.secs.toNat * 1000 + d.nanos.toNat / 1000000)

/-- `as_millis` does not wrap: a duration holds fewer than `2 ^ 128` milliseconds. -/
theorem Duration.asMillis_toNat (d : Duration) :
    d.asMillis.toNat = d.secs.toNat * 1000 + d.nanos.toNat / 1000000 := by
  have hs : d.secs.toNat < 2 ^ 64 := d.secs.toNat_lt_size
  have hn : d.nanos.toNat / 1000000 < 1000 := Nat.div_lt_of_lt_mul (by have := d.nanos_lt; omega)
  rw [asMillis, BitVec.toNat_ofNat, Nat.mod_eq_of_lt (by omega)]

/-- `poll_interval`, that is `Duration::from_millis(200)`. -/
def pollInterval : Duration := ⟨0, 200000000, by decide⟩

@[simp] theorem pollInterval_asMillis : pollInterval.asMillis.toNat = 200 := by decide

/-- `Client::health`: the `/health` request's outcome, with its payload dropped. -/
def health {α : Type} (response : Except Error α) : Except Error Unit := do
  let _ ← response
  pure ()

@[simp] theorem health_ok {α : Type} (a : α) : health (.ok a : Except Error α) = .ok () := rfl

@[simp] theorem health_error {α : Type} (e : Error) : health (.error e : Except Error α) = .error e :=
  rfl

/-- What the loop does that can be observed. -/
inductive PollEvent where
  /-- A call of `health()`. -/
  | probe
  /-- `time::sleep(poll_interval)`. -/
  | sleep
  deriving DecidableEq, Repr

/-- The loop's state: its `u128` counter, and how many probes it has made. -/
structure PollState where
  attemptsRemaining : BitVec 128
  probes : Nat
  deriving DecidableEq, Repr

/-- The error `wait_until_healthy` gives up with. -/
def timedOut (timeout : Duration) : Error :=
  .clientInternalError
    ("timed out waiting for healthy response after " ++ toString timeout.asMillis.toNat ++ "ms")

variable {α : Type} (responses : Nat → Except Error α) (timeout : Duration)

/-- **One iteration** of the `while` loop: probe; on success leave the loop; on failure give up if
no attempt remains, else count one attempt down and sleep. -/
def pollStep (s : PollState) : List PollEvent × (Except Error Unit ⊕ PollState) :=
  match health (responses s.probes) with
  | .ok () => ([.probe], .inl (.ok ()))
  | .error _ =>
    if s.attemptsRemaining = 0 then ([.probe], .inl (.error (timedOut timeout)))
    else ([.probe, .sleep], .inr ⟨s.attemptsRemaining - 1, s.probes + 1⟩)

/-- A step reads only whether its probe succeeded and whether the counter is zero. -/
theorem pollStep_eq (s : PollState) :
    pollStep responses timeout s =
      if (responses s.probes).isOk then ([.probe], .inl (.ok ()))
      else if s.attemptsRemaining = 0 then ([.probe], .inl (.error (timedOut timeout)))
      else ([.probe, .sleep], .inr ⟨s.attemptsRemaining - 1, s.probes + 1⟩) := by
  unfold pollStep
  rcases responses s.probes with e | a <;> rfl

variable {responses timeout} in
/-- **A step that goes on**: the probe failed, the counter was not zero, it is decremented, and
the loop sleeps. -/
theorem pollStep_inr {s s' : PollState} {events : List PollEvent}
    (h : pollStep responses timeout s = (events, .inr s')) :
    (responses s.probes).isOk = false ∧ s.attemptsRemaining ≠ 0 ∧ events = [.probe, .sleep] ∧
      s' = ⟨s.attemptsRemaining - 1, s.probes + 1⟩ := by
  rw [pollStep_eq] at h
  by_cases hok : (responses s.probes).isOk
  · simp [hok] at h
  by_cases h0 : s.attemptsRemaining = 0
  · simp [hok, h0] at h
  simp only [hok, h0, Bool.false_eq_true, if_false, Prod.mk.injEq, Sum.inr.injEq] at h
  exact ⟨by simpa using hok, h0, h.1.symm, h.2.symm⟩

/-- A nonzero `u128` counter decremented loses exactly one. -/
theorem toNat_sub_one_add_one {a : BitVec 128} (h : a ≠ 0) : (a - 1).toNat + 1 = a.toNat := by
  bv_omega

/-- The loop run to its end from `s`: everything it does, and its result. -/
def pollLoop (s : PollState) : List PollEvent × Except Error Unit :=
  match _hstep : pollStep responses timeout s with
  | (events, .inl r) => (events, r)
  | (events, .inr s') =>
    let (rest, r) := pollLoop s'
    (events ++ rest, r)
termination_by s.attemptsRemaining.toNat
decreasing_by
  obtain ⟨-, h0, -, rfl⟩ := pollStep_inr _hstep
  exact Nat.lt_of_succ_le (Nat.le_of_eq (toNat_sub_one_add_one h0))

/-- `Client::wait_until_healthy`. -/
def waitUntilHealthy : List PollEvent × Except Error Unit :=
  pollLoop responses timeout ⟨timeout.asMillis / pollInterval.asMillis, 0⟩

/-- The counter starts at `timeout.as_millis() / 200`. -/
theorem toNat_div_pollInterval :
    (timeout.asMillis / pollInterval.asMillis).toNat = timeout.asMillis.toNat / 200 := by
  simp [BitVec.toNat_udiv]

/-- The events of a run that makes `k + 1` probes: one sleep between each two of them, none after
the last. -/
def pollTrace (k : Nat) : List PollEvent := (List.replicate k [.probe, .sleep]).flatten ++ [.probe]

theorem pollTrace_succ (k : Nat) : pollTrace (k + 1) = [.probe, .sleep] ++ pollTrace k := by
  simp [pollTrace, List.replicate_succ]

/-! ### One step, then the whole loop -/

section Run

variable {responses timeout} {s s' : PollState}

theorem pollStep_of_ok (h : (responses s.probes).isOk) :
    pollStep responses timeout s = ([.probe], .inl (.ok ())) := by
  rw [pollStep_eq, if_pos h]

theorem pollStep_of_timeout (h : (responses s.probes).isOk = false) (h0 : s.attemptsRemaining = 0) :
    pollStep responses timeout s = ([.probe], .inl (.error (timedOut timeout))) := by
  rw [pollStep_eq, if_neg (by simp [h]), if_pos h0]

theorem pollStep_of_retry (h : (responses s.probes).isOk = false) (h0 : s.attemptsRemaining ≠ 0) :
    pollStep responses timeout s =
      ([.probe, .sleep], .inr ⟨s.attemptsRemaining - 1, s.probes + 1⟩) := by
  rw [pollStep_eq, if_neg (by simp [h]), if_neg h0]

theorem pollLoop_inl {events : List PollEvent} {r : Except Error Unit}
    (h : pollStep responses timeout s = (events, .inl r)) :
    pollLoop responses timeout s = (events, r) := by
  rw [pollLoop]
  split <;> simp_all

theorem pollLoop_inr {events : List PollEvent}
    (h : pollStep responses timeout s = (events, .inr s')) :
    pollLoop responses timeout s =
      (events ++ (pollLoop responses timeout s').1, (pollLoop responses timeout s').2) := by
  rw [pollLoop]
  split <;> simp_all

/-- **The loop stops at the first success.** From a state with counter `a`, if the first `k ≤ a`
probes fail and the next succeeds, the loop makes `k + 1` probes, sleeping between them, and
returns `Ok`. -/
theorem pollLoop_of_ok (k : Nat) :
    ∀ s : PollState, k ≤ s.attemptsRemaining.toNat →
      (∀ j < k, (responses (s.probes + j)).isOk = false) → (responses (s.probes + k)).isOk →
      pollLoop responses timeout s = (pollTrace k, .ok ()) := by
  induction k with
  | zero => exact fun s _ _ hok => pollLoop_inl (pollStep_of_ok hok)
  | succ k ih =>
    intro s hk hfail hok
    have h0 : s.attemptsRemaining ≠ 0 := fun h => by simp [h] at hk
    have hshift : ∀ j, s.probes + 1 + j = s.probes + (j + 1) := fun j => by omega
    have hk' := toNat_sub_one_add_one h0
    rw [pollLoop_inr (pollStep_of_retry (hfail 0 (by omega)) h0), pollTrace_succ,
      ih _ (by dsimp only; omega) (fun j hj => hshift j ▸ hfail (j + 1) (by omega)) (hshift k ▸ hok)]

/-- **The loop gives up after `a + 1` failures.** From a state with counter `a`, if the next
`a + 1` probes all fail, the loop makes them, sleeping between them, and returns the timeout
error. -/
theorem pollLoop_of_fails (a : Nat) :
    ∀ s : PollState, s.attemptsRemaining.toNat = a →
      (∀ k ≤ a, (responses (s.probes + k)).isOk = false) →
      pollLoop responses timeout s = (pollTrace a, .error (timedOut timeout)) := by
  induction a with
  | zero =>
    intro s ha hfail
    exact pollLoop_inl (pollStep_of_timeout (hfail 0 (Nat.le_refl 0)) (BitVec.eq_of_toNat_eq ha))
  | succ a ih =>
    intro s ha hfail
    have h0 : s.attemptsRemaining ≠ 0 := fun h => by simp [h] at ha
    have hshift : ∀ k, s.probes + 1 + k = s.probes + (k + 1) := fun k => by omega
    have ha' := toNat_sub_one_add_one h0
    rw [pollLoop_inr (pollStep_of_retry (hfail 0 (by omega)) h0), pollTrace_succ,
      ih _ (by dsimp only; omega) (fun k hk => hshift k ▸ hfail (k + 1) (by omega))]

/-- **Every run.** Whatever the node answers, the loop from a state with counter `a` makes
`k + 1` probes for some `k ≤ a`, sleeping between them, and returns `Ok` exactly when its last
probe succeeded. -/
theorem pollLoop_trace (a : Nat) :
    ∀ s : PollState, s.attemptsRemaining.toNat = a →
      ∃ k ≤ a, (pollLoop responses timeout s).1 = pollTrace k ∧
        ((pollLoop responses timeout s).2 = .ok () ↔ (responses (s.probes + k)).isOk) := by
  -- a probe that succeeds ends the run at once, whatever the counter
  have now : ∀ s : PollState, (responses s.probes).isOk →
      (pollLoop responses timeout s).1 = pollTrace 0 ∧
        ((pollLoop responses timeout s).2 = .ok () ↔ (responses (s.probes + 0)).isOk) :=
    fun s hok => by simp [pollLoop_inl (pollStep_of_ok hok), pollTrace, hok]
  induction a with
  | zero =>
    intro s ha
    cases hok : (responses s.probes).isOk
    · refine ⟨0, Nat.le_refl 0, ?_⟩
      rw [pollLoop_inl (pollStep_of_timeout hok (BitVec.eq_of_toNat_eq ha))]
      simp [pollTrace, hok]
    · exact ⟨0, Nat.le_refl 0, now s hok⟩
  | succ a ih =>
    intro s ha
    cases hok : (responses s.probes).isOk
    · have h0 : s.attemptsRemaining ≠ 0 := fun h => by simp [h] at ha
      have ha' := toNat_sub_one_add_one h0
      obtain ⟨k, hk, htrace, hres⟩ := ih ⟨s.attemptsRemaining - 1, s.probes + 1⟩ (by dsimp only; omega)
      refine ⟨k + 1, by omega, ?_⟩
      rw [pollLoop_inr (pollStep_of_retry hok h0), pollTrace_succ, htrace, hres,
        show s.probes + 1 + k = s.probes + (k + 1) by omega]
      exact ⟨rfl, Iff.rfl⟩
    · exact ⟨0, Nat.zero_le _, now s hok⟩

end Run

/-- A run of `k + 1` probes sleeps `k` times. -/
theorem pollTrace_count_sleep (k : Nat) : (pollTrace k).count .sleep = k := by
  induction k with
  | zero => rfl
  | succ k ih => rw [pollTrace_succ, List.count_append, ih, Nat.add_comm]; rfl

/-! ### Every run -/

/-- The states the loop of `wait_until_healthy` reaches. -/
inductive PollReachable : PollState → Prop
  | init : PollReachable ⟨timeout.asMillis / pollInterval.asMillis, 0⟩
  | step {s s' : PollState} {events : List PollEvent} :
      PollReachable s → pollStep responses timeout s = (events, .inr s') → PollReachable s'

variable {responses timeout} in
/-- **The counter never wraps.** Along every run the counter plus the number of probes made is
the initial counter `timeout.as_millis() / 200`. -/
theorem PollReachable.attempts_add_probes {s : PollState} (h : PollReachable responses timeout s) :
    s.attemptsRemaining.toNat + s.probes = timeout.asMillis.toNat / 200 := by
  induction h with
  | init => exact toNat_div_pollInterval timeout
  | step _ hstep ih =>
    obtain ⟨-, h0, -, rfl⟩ := pollStep_inr hstep
    have := toNat_sub_one_add_one h0
    dsimp only
    omega

/-- **`wait_until_healthy`.** With `N = timeout.as_millis() / 200`: if the first success among
the probes is probe `k ≤ N`, the loop makes `k + 1` probes with one sleep between each two and
returns `Ok`; if the first `N + 1` probes all fail, it makes them, with one sleep between each two,
and returns the timeout error; and along every run its `u128` counter plus the probes made stays
`N`, so the counter never wraps. -/
theorem waitUntilHealthy_spec :
    (∀ k ≤ timeout.asMillis.toNat / 200, (∀ j < k, (responses j).isOk = false) →
      (responses k).isOk → waitUntilHealthy responses timeout = (pollTrace k, .ok ())) ∧
    ((∀ k ≤ timeout.asMillis.toNat / 200, (responses k).isOk = false) →
      waitUntilHealthy responses timeout =
        (pollTrace (timeout.asMillis.toNat / 200), .error (timedOut timeout))) ∧
    ∀ s, PollReachable responses timeout s →
      s.attemptsRemaining.toNat + s.probes = timeout.asMillis.toNat / 200 := by
  have hN := toNat_div_pollInterval timeout
  refine ⟨fun k hk hfail hok => ?_, fun hfail => ?_, fun s hs => hs.attempts_add_probes⟩
  · exact pollLoop_of_ok k _ (by rw [hN]; exact hk) (by simpa using hfail) (by simpa using hok)
  · exact pollLoop_of_fails _ _ hN (by simpa using hfail)

/-- **Bounded waiting.** Whatever the node answers, `wait_until_healthy(timeout)` makes `k + 1`
probes for some `k ≤ timeout.as_millis() / 200`, sleeps `poll_interval` between each two and
never after the last, so that its sleeps add up to at most `timeout.as_millis()` ms; and it
returns `Ok` exactly when its last probe succeeded. -/
theorem waitUntilHealthy_sleeps_le :
    ∃ k ≤ timeout.asMillis.toNat / 200,
      (waitUntilHealthy responses timeout).1 = pollTrace k ∧
      (waitUntilHealthy responses timeout).1.count .sleep * pollInterval.asMillis.toNat ≤
        timeout.asMillis.toNat ∧
      ((waitUntilHealthy responses timeout).2 = .ok () ↔ (responses k).isOk) := by
  have hN := toNat_div_pollInterval timeout
  obtain ⟨k, hk, htrace, hres⟩ :=
    @pollLoop_trace α responses timeout _ ⟨timeout.asMillis / pollInterval.asMillis, 0⟩ hN
  refine ⟨k, hk, htrace, ?_, by simpa using hres⟩
  calc (waitUntilHealthy responses timeout).1.count .sleep * pollInterval.asMillis.toNat
      = k * 200 := by rw [waitUntilHealthy, htrace, pollTrace_count_sleep, pollInterval_asMillis]
    _ ≤ timeout.asMillis.toNat / 200 * 200 := Nat.mul_le_mul_right 200 hk
    _ ≤ timeout.asMillis.toNat := Nat.div_mul_le_self _ 200

end TendermintRpc

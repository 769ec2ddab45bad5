import Sirikata.Network.Proofs.SendStatusProofs

/-!
# No send after a close

Once a call of `closeSendStatus` has returned (and so once `close` has gone on to remove the
stream's callbacks and close it), no `send` call stands between a successful mask test and its
decrement, and no `send` call reaches `MultiplexedSocket::sendBytes` again.

The returning closer read a multiple of `K`, and by `StatusInv` the word is `c * K + a` with `a < K`, so no
send was in flight; every later increment reads a word whose closing bits are `c * K` with `c ≥ 1`.
-/

namespace Sirikata.Network.SendStatus

open Function

variable {K : Nat} {ι κ : Type} [Fintype ι] [DecidableEq ι] [Fintype κ] [DecidableEq κ]
variable {s s' : State ι κ} {act : Action ι κ} {as : List (Action ι κ)}

/-- No `send` call passes the mask test, or holds a value that will pass it. -/
def Safe (K : Nat) (s : State ι κ) : Prop := ∀ i, (s.send i).passes K = false

omit [Fintype ι] [Fintype κ] in
/-- A returned closer stays returned. -/
theorem Returned.step (hr : Returned s) (h : step K s act = some s') : Returned s' := by
  obtain ⟨j₀, hj₀⟩ := hr
  cases act with
  | send i a =>
    obtain ⟨w, p, -, rfl⟩ := (step_send_eq_some K).mp h
    exact ⟨j₀, hj₀⟩
  | close j a =>
    obtain ⟨w, q, hq, rfl⟩ := (step_close_eq_some K).mp h
    refine ⟨j₀, ?_⟩
    by_cases hj : j₀ = j
    · subst hj
      simpa using ClosePc.closeStep_hasReturned_of hq hj₀
    · simpa [update_noteq hj] using hj₀

omit [DecidableEq ι] [DecidableEq κ] in
/-- Once a closer has returned, the closing bits of the word stay set. -/
theorem StatusInv.closingBits_ne_zero {k : Nat} (hK : K = 2 ^ k) (hs : StatusInv K s) (hw : Within K s)
    (hr : Returned s) : closingBits K s.sendStatus ≠ 0 := by
  obtain ⟨j, hj⟩ := hr
  have := hs.closers_pos j (ClosePc.settled_of_hasReturned hj)
  rw [Ne, hs.closingBits_eq_zero_iff hK hw.1]
  omega

omit [DecidableEq ι] [DecidableEq κ] in
/-- A word that is a multiple of `K` leaves no send in flight. -/
theorem StatusInv.senders_eq_zero (hs : StatusInv K s) (ha : senders s < K) {m : Nat}
    (h : s.sendStatus = m * K) : senders s = 0 :=
  eq_zero_of_add_eq_mul ha (by have := hs.sendStatus_eq; rw [h] at this; exact_mod_cast this.symm)

/-- One step keeps `Safe` once a closer has returned. -/
theorem safe_step {k : Nat} (hK : K = 2 ^ k) (hs : StatusInv K s) (hsafe : Returned s → Safe K s)
    (h : step K s act = some s') (hw : Within K s') : Returned s' → Safe K s' := by
  have hs' := hs.step hK h hw
  intro hr'
  cases act with
  | send i a =>
    obtain ⟨w, p, hp, rfl⟩ := (step_send_eq_some K).mp h
    have hsafe := hsafe hr'
    intro i'
    by_cases hi : i' = i
    · subst hi
      simp only [update_same]
      by_contra hpass
      rcases SendPc.sendStep_passes hp (by simpa using hpass) with h1 | ⟨-, rfl⟩
      · simp [hsafe i'] at h1
      · exact hs'.closingBits_ne_zero hK hw hr' (by simpa [SendPc.passes] using hpass)
    · simpa [update_noteq hi] using hsafe i'
  | close j a =>
    obtain ⟨w, q, hq, rfl⟩ := (step_close_eq_some K).mp h
    by_cases hr : Returned s
    · exact hsafe hr
    obtain ⟨j₀, hj₀⟩ := hr'
    have hj : j₀ = j := by
      by_contra hne
      exact hr ⟨j₀, by simpa [update_noteq hne] using hj₀⟩
    subst hj
    rcases ClosePc.closeStep_hasReturned hq (by simpa using hj₀) with h1 | h1
    · exact absurd ⟨j₀, h1⟩ hr
    have h0 : senders s = 0 := by
      rcases h1 with h1 | h1 | h1
      · exact hs.senders_eq_zero hw.1 (m := 1) (by simp [h1])
      · exact hs.senders_eq_zero hw.1 (m := 2) (by simp [h1])
      · exact hs.senders_eq_zero hw.1 (m := 3) (by simp [h1])
    intro i
    cases hp : (s.send i).passes K
    · rfl
    · simpa [count_eq_zero h0 i] using SendPc.passes_active hp

/-- Along a run that keeps the callers' bounds, `Safe` holds from the first return on. -/
theorem Run.safe {k : Nat} (hK : K = 2 ^ k) (h : Run K s as s') (hs : StatusInv K s)
    (hsafe : Returned s → Safe K s) : Returned s' → Safe K s' := by
  induction h with
  | nil => exact hsafe
  | cons hstep hw _ ih => exact ih (hs.step hK hstep hw) (safe_step hK hs hsafe hstep hw)

/-- From a state with a returned closer, no step of a run is a call of `sendBytes`. -/
theorem Run.no_sendBytes {k : Nat} (hK : K = 2 ^ k) (h : Run K s as s') (hs : StatusInv K s)
    (hr : Returned s) (hsafe : Safe K s) : Safe K s' ∧ ∀ i, Action.send i .sendBytes ∉ as := by
  induction h with
  | nil => exact ⟨hsafe, by simp⟩
  | @cons s₀ s₁ _ act _ hstep hw _ ih =>
    obtain ⟨hsafe', hnot⟩ := ih (hs.step hK hstep hw) (hr.step hstep)
      (safe_step hK hs (fun _ => hsafe) hstep hw (hr.step hstep))
    refine ⟨hsafe', fun i hi => ?_⟩
    rcases List.mem_cons.mp hi with rfl | hi
    · obtain ⟨w, p, hp, -⟩ := (step_send_eq_some K).mp hstep
      simpa [SendPc.sendStep_sendBytes hp, SendPc.passes] using hsafe i
    · exact hnot i hi

/-- Once any `closeSendStatus` call has returned in a run from a fresh stream that keeps the
callers' bounds, no `send` call is ever again between a successful mask test and its decrement,
and no later step of the run is a call of `sendBytes`. -/
theorem send_excluded_after_close {k : Nat} (hK : K = 2 ^ k) {as₁ as₂ : List (Action ι κ)}
    {s₁ s₂ : State ι κ} (h₁ : Run K init as₁ s₁) (hr : ∃ j, (s₁.close j).hasReturned)
    (h₂ : Run K s₁ as₂ s₂) :
    (∀ i, s₂.send i ≠ .sending ∧ s₂.send i ≠ .sent) ∧ ∀ i, Action.send i .sendBytes ∉ as₂ := by
  have hs₁ := h₁.inv hK inv_init
  have hsafe₁ := h₁.safe hK inv_init fun ⟨j, hj⟩ => by simp [init, ClosePc.hasReturned] at hj
  obtain ⟨hsafe₂, hnot⟩ := h₂.no_sendBytes hK hs₁ hr (hsafe₁ hr)
  refine ⟨fun i => ?_, hnot⟩
  have := hsafe₂ i
  constructor <;> intro h <;> simp [h, SendPc.passes] at this

/-- With `SendStatusClosing = 4`: a closer adds and returns, then a send is turned away. -/
theorem send_excluded_after_close_dropped :
    ∃ s₁ s₂ : State (Fin 1) (Fin 1),
      Run 4 init [.close 0 .read, .close 0 .test, .close 0 .add, .close 0 .spin] s₁ ∧
      (∃ j, (s₁.close j).hasReturned) ∧
      Run 4 s₁ [.send 0 .increment, .send 0 .test, .send 0 .decrement] s₂ ∧
      (∀ i, s₂.send i ≠ .sending ∧ s₂.send i ≠ .sent) ∧
      ∀ i, (.send i .sendBytes : Action (Fin 1) (Fin 1)) ∉
        [.send 0 .increment, .send 0 .test, .send 0 .decrement] :=
  have h₁ := run_get (K := 4) (init : State (Fin 1) (Fin 1))
    [.close 0 .read, .close 0 .test, .close 0 .add, .close 0 .spin] (by decide)
  have h₂ := run_get (K := 4) _ [.send 0 .increment, .send 0 .test, .send 0 .decrement]
    (by decide)
  have hr : ∃ j, (((run 4 init _).get _).close j).hasReturned := ⟨0, by decide⟩
  ⟨_, _, h₁, hr, h₂, send_excluded_after_close (k := 2) rfl h₁ hr h₂⟩

end Sirikata.Network.SendStatus

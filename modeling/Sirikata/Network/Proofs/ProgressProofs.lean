import Sirikata.Network.Proofs.CloseProofs
import Mathlib.Algebra.Order.BigOperators.Group.Finset

/-!
# Every call in progress can finish

The wait loop of `closeSendStatus` ends on a read exactly when no `send` call is between its
increment and its decrement (`spin_returns_iff`). So from every state of every run the calls in
progress can all finish without a new call starting (`finish_of_run`): the sends run to their
decrement, the closers that have read add or skip, and then each closer's next read ends its loop.
The potential `remaining` counts the atomic steps the calls in progress have left, and every step of
that schedule lowers it.
-/

namespace Sirikata.Network.SendStatus

open Finset Function

variable {K : Nat} {w w' : Int}

namespace SendPc

variable {p p' : SendPc} {a : SendAct}

/-- The atomic steps a `send` call has left before its decrement is done. -/
def remaining : SendPc → Nat
  | incremented _ => 3
  | sending => 2
  | sent | dropping => 1
  | idle | done _ => 0

/-- The step a `send` call takes next. -/
def next : SendPc → SendAct
  | idle => .increment
  | incremented _ => .test
  | sending => .sendBytes
  | sent | dropping | done _ => .decrement

theorem remaining_eq_zero : p.remaining = 0 ↔ p.active = false := by
  cases p <;> simp [remaining, active]

/-- A call between its increment and its decrement can take its next step, which brings it closer
to the decrement. -/
theorem sendStep_next (hp : p.active) :
    ∃ w' p', sendStep K w p.next p = some (w', p') ∧ p'.remaining < p.remaining := by
  cases p <;> simp only [active, Bool.false_eq_true] at hp <;> refine ⟨_, _, rfl, ?_⟩ <;>
    (try split) <;> simp [remaining]

theorem sendStep_ne_idle (h : sendStep K w a p = some (w', p')) : p' ≠ .idle := by
  unfold sendStep at h; split at h <;> cases h <;> (try split) <;> simp

theorem eq_done_of_ne_idle (h : p ≠ .idle) (hp : p.active = false) : ∃ b, p = .done b := by
  cases p <;> simp_all [active]

end SendPc

namespace ClosePc

variable {p p' : ClosePc} {a : CloseAct}

/-- The atomic steps a `closeSendStatus` call has left before it returns, counting the read that
ends its wait loop. -/
def remaining : ClosePc → Nat
  | read _ => 3
  | adding => 2
  | spinning _ => 1
  | idle | returned _ | callbacksRemoved _ | streamClosed _ => 0

/-- The step a `closeSendStatus` call, or the `close` that made it, takes next. -/
def next : ClosePc → CloseAct
  | idle => .read
  | read _ => .test
  | adding => .add
  | spinning _ => .spin
  | returned _ => .addCallbacks
  | callbacksRemoved _ | streamClosed _ => .closeStream

theorem remaining_eq_zero : p.remaining = 0 ↔ p.inProgress = false := by
  cases p <;> simp [remaining, inProgress]

/-- A closer in progress can take its next step, and the step brings it closer to its return; in
the wait loop this takes a word that ends the loop. -/
theorem closeStep_next (hp : p.inProgress)
    (hw : ∀ incd, p = .spinning incd → w = K ∨ w = 2 * K ∨ w = 3 * K) :
    ∃ w' p', closeStep K w p.next p = some (w', p') ∧ p'.remaining < p.remaining := by
  cases p <;> simp only [inProgress, Bool.false_eq_true] at hp
  case read v => refine ⟨_, _, rfl, ?_⟩; split <;> simp [remaining]
  case adding => exact ⟨_, _, rfl, by simp [remaining]⟩
  case spinning incd => exact ⟨_, _, rfl, by simp [if_pos (hw incd rfl), remaining]⟩

theorem closeStep_ne_idle (h : closeStep K w a p = some (w', p')) : p' ≠ .idle := by
  unfold closeStep at h; split at h <;> cases h <;> (try split) <;> simp

theorem hasReturned_of_ne_idle (h : p ≠ .idle) (hp : p.inProgress = false) : p.hasReturned := by
  cases p <;> simp_all [inProgress, hasReturned]

end ClosePc

variable {ι κ α : Type} [Fintype ι] [DecidableEq ι] [Fintype κ] [DecidableEq κ]
variable {s s' : State ι κ} {act : Action ι κ} {as : List (Action ι κ)}

/-! ## The wait loop -/

omit [DecidableEq ι] [DecidableEq κ] in
/-- With no send in flight, a word that keeps the invariant ends the wait loop of a closer that
knows of an add. -/
theorem StatusInv.spin_exit (hs : StatusInv K s) (ha : senders s = 0) {j : κ}
    (hj : (s.close j).settled K) : s.sendStatus = K ∨ s.sendStatus = 2 * K ∨ s.sendStatus = 3 * K := by
  have hpos := hs.closers_pos j hj
  have hc3 := hs.closers_le_three
  rw [hs.sendStatus_eq, ha]
  rcases (by omega : closers s = 1 ∨ closers s = 2 ∨ closers s = 3) with hc | hc | hc <;> simp [hc]

/-- In every state of every run from a fresh stream, a closer in its wait loop returns on its next
read exactly when no `send` call is between its increment and its decrement. -/
theorem spin_returns_iff {k : Nat} (hK : K = 2 ^ k) (h : Run K init as s) {j : κ} {incd : Bool}
    (hj : s.close j = .spinning incd) :
    closeStep K s.sendStatus .spin (s.close j) = some (s.sendStatus, .returned incd) ↔
      senders s = 0 := by
  have hs := h.inv hK inv_init
  have hw := h.within (within_init hK)
  rw [hj, closeStep]
  constructor
  · intro hret
    split at hret
    · rename_i hexit
      rcases hexit with h1 | h1 | h1
      · exact hs.senders_eq_zero hw.1 (m := 1) (by simp [h1])
      · exact hs.senders_eq_zero hw.1 (m := 2) (by simp [h1])
      · exact hs.senders_eq_zero hw.1 (m := 3) (by simp [h1])
    · simp at hret
  · intro ha
    rw [if_pos (hs.spin_exit ha (j := j) (by simp [hj, ClosePc.settled]))]

/-- With `SendStatusClosing = 4`: a closer has added and waits, with no send in flight. -/
theorem spin_returns_iff_added :
    ∃ s : State (Fin 1) (Fin 1), Run 4 init [.close 0 .read, .close 0 .test, .close 0 .add] s ∧
      s.close 0 = .spinning true ∧
      (closeStep 4 s.sendStatus .spin (s.close 0) = some (s.sendStatus, .returned true) ↔
        senders s = 0) :=
  have h := run_get (K := 4) (init : State (Fin 1) (Fin 1))
    [.close 0 .read, .close 0 .test, .close 0 .add] (by decide)
  have hj : ((run 4 (init : State (Fin 1) (Fin 1))
      [.close 0 .read, .close 0 .test, .close 0 .add]).get (by decide)).close 0 = .spinning true := by
    decide
  ⟨_, h, hj, spin_returns_iff (k := 2) rfl h hj⟩

/-! ## Finishing every call in progress -/

omit [DecidableEq κ] in
/-- The atomic steps the calls in progress have left. -/
def remaining (s : State ι κ) : Nat := ∑ i, (s.send i).remaining + ∑ j, (s.close j).remaining

omit [DecidableEq ι] [DecidableEq κ] in
theorem remaining_eq_zero_iff :
    remaining s = 0 ↔ (∀ i, (s.send i).active = false) ∧ ∀ j, (s.close j).inProgress = false := by
  simp [remaining, sum_eq_zero_iff, SendPc.remaining_eq_zero, ClosePc.remaining_eq_zero]

omit [Fintype ι] [Fintype κ] [DecidableEq κ] in
theorem sum_update_lt [Fintype ι] (g : α → Nat) (f : ι → α) {i : ι} {x : α} (h : g x < g (f i)) :
    ∑ j, g (update f i x j) < ∑ j, g (f j) :=
  sum_lt_sum (fun j _ => by
    by_cases hj : j = i
    · subst hj; simp [h.le]
    · simp [update_noteq hj]) ⟨i, mem_univ i, by simpa⟩

omit [Fintype κ] [DecidableEq κ] in
/-- Moving a call out of a state that `p` counts does not raise the count. -/
theorem count_update_le {p : α → Bool} {f : ι → α} {i : ι} (hi : p (f i)) (x : α) :
    count p (update f i x) ≤ count p f := by
  have h := count_update p f i x
  have := Bool.toNat_le (p x)
  simp only [hi, Bool.toNat_true] at h
  omega

omit [Fintype ι] [Fintype κ] [DecidableEq ι] [DecidableEq κ] in
theorem count_eq_zero_of {p : α → Bool} {f : ι → α} [Fintype ι] (h : ∀ i, p (f i) = false) :
    count p f = 0 := by
  simp [count, h]

/-- The calls not started in `s` are not started in `s'`. -/
def NoneStarted (s s' : State ι κ) : Prop :=
  (∀ i, s.send i = .idle → s'.send i = .idle) ∧ ∀ j, s.close j = .idle → s'.close j = .idle

omit [Fintype ι] [DecidableEq ι] [Fintype κ] [DecidableEq κ] in
theorem NoneStarted.trans {s₁ s₂ : State ι κ} (h₁ : NoneStarted s s₁) (h₂ : NoneStarted s₁ s₂) :
    NoneStarted s s₂ :=
  ⟨fun i hi => h₂.1 i (h₁.1 i hi), fun j hj => h₂.2 j (h₁.2 j hj)⟩

/-- From a state that keeps the invariant and the callers' bounds, with a call in progress, a call in
progress can take a step that keeps the bounds, lowers `remaining` and starts no call: a send if
one is in flight, otherwise a closer, whose wait loop then ends. -/
theorem exists_step (hs : StatusInv K s) (hw : Within K s) (h0 : remaining s ≠ 0) :
    ∃ act s', step K s act = some s' ∧ Within K s' ∧ remaining s' < remaining s ∧
      NoneStarted s s' := by
  by_cases hsend : ∃ i, (s.send i).active
  · obtain ⟨i, hi⟩ := hsend
    obtain ⟨w', p', hst, hlt⟩ := SendPc.sendStep_next (K := K) (w := s.sendStatus) hi
    refine ⟨.send i (s.send i).next, _, (step_send_eq_some K).mpr ⟨w', p', hst, rfl⟩,
      ⟨lt_of_le_of_lt (count_update_le hi p') hw.1, hw.2⟩,
      Nat.add_lt_add_right (sum_update_lt _ _ hlt) _, fun i' hi' => ?_, fun _ h => h⟩
    have hne : i' ≠ i := by rintro rfl; simp [hi', SendPc.active] at hi
    simpa [update_noteq hne] using hi'
  · have ha : senders s = 0 := count_eq_zero_of (by simpa using hsend)
    obtain ⟨j, hj⟩ : ∃ j, (s.close j).inProgress := by
      by_contra hclose
      exact h0 (remaining_eq_zero_iff.mpr ⟨by simpa using hsend, by simpa using hclose⟩)
    obtain ⟨w', q, hst, hlt⟩ := ClosePc.closeStep_next (K := K) (w := s.sendStatus) hj
      fun incd e => hs.spin_exit ha (j := j) (by simp [e, ClosePc.settled])
    refine ⟨.close j (s.close j).next, _, (step_close_eq_some K).mpr ⟨w', q, hst, rfl⟩,
      ⟨hw.1, le_trans (count_update_le hj q) hw.2⟩,
      Nat.add_lt_add_left (sum_update_lt _ _ hlt) _, fun _ h => h, fun j' hj' => ?_⟩
    have hne : j' ≠ j := by rintro rfl; simp [hj', ClosePc.inProgress] at hj
    simpa [update_noteq hne] using hj'

/-- From a state that keeps the invariant and the callers' bounds, some run that starts no call
ends every call in progress. -/
theorem exists_run_finished {k : Nat} (hK : K = 2 ^ k) (n : Nat) :
    ∀ s : State ι κ, remaining s = n → StatusInv K s → Within K s →
      ∃ as s', Run K s as s' ∧ remaining s' = 0 ∧ NoneStarted s s' := by
  induction n using Nat.strong_induction_on with
  | _ n ih =>
    intro s hn hs hw
    by_cases h0 : remaining s = 0
    · exact ⟨[], s, .nil s, h0, fun _ h => h, fun _ h => h⟩
    obtain ⟨act, s₁, h₁, hw₁, hlt, hn₁⟩ := exists_step hs hw h0
    obtain ⟨as, s', h, h', hn'⟩ := ih _ (hn ▸ hlt) s₁ rfl (hs.step hK h₁ hw₁) hw₁
    exact ⟨act :: as, s', .cons h₁ hw₁ h, h', hn₁.trans hn'⟩

omit [Fintype ι] [Fintype κ] in
/-- A call once started is never again idle. -/
theorem step_ne_idle (h : step K s act = some s') :
    (∀ i, s.send i ≠ .idle → s'.send i ≠ .idle) ∧ ∀ j, s.close j ≠ .idle → s'.close j ≠ .idle := by
  cases act with
  | send i a =>
    obtain ⟨w, p, hp, rfl⟩ := (step_send_eq_some K).mp h
    refine ⟨fun i' hi' => ?_, fun _ h => h⟩
    by_cases e : i' = i
    · subst e; simpa using SendPc.sendStep_ne_idle hp
    · simpa [update_noteq e] using hi'
  | close j a =>
    obtain ⟨w, q, hq, rfl⟩ := (step_close_eq_some K).mp h
    refine ⟨fun _ h => h, fun j' hj' => ?_⟩
    by_cases e : j' = j
    · subst e; simpa using ClosePc.closeStep_ne_idle hq
    · simpa [update_noteq e] using hj'

theorem Run.ne_idle (h : Run K s as s') :
    (∀ i, s.send i ≠ .idle → s'.send i ≠ .idle) ∧ ∀ j, s.close j ≠ .idle → s'.close j ≠ .idle := by
  induction h with
  | nil => exact ⟨fun _ h => h, fun _ h => h⟩
  | cons hstep _ _ ih =>
    exact ⟨fun i hi => ih.1 i ((step_ne_idle hstep).1 i hi),
      fun j hj => ih.2 j ((step_ne_idle hstep).2 j hj)⟩

/-- From every state of every run of a fresh stream that keeps the callers' bounds, some
continuation that keeps them and starts no new call ends every call in progress: each `send` call
between its increment and its decrement reaches `done`, and each `closeSendStatus` call in progress
leaves its wait loop and returns. -/
theorem finish_of_run {k : Nat} (hK : K = 2 ^ k) (h : Run K init as s) :
    ∃ as' s', Run K s as' s' ∧
      (∀ i, (s'.send i).active = false) ∧ (∀ j, (s'.close j).inProgress = false) ∧
      (∀ i, (s.send i).active → ∃ b, s'.send i = .done b) ∧
      (∀ j, (s.close j).inProgress → (s'.close j).hasReturned) ∧ NoneStarted s s' := by
  obtain ⟨as', s', h', h0, hn⟩ :=
    exists_run_finished hK _ s rfl (h.inv hK inv_init) (h.within (within_init hK))
  obtain ⟨hsend, hclose⟩ := remaining_eq_zero_iff.mp h0
  refine ⟨as', s', h', hsend, hclose, fun i hi => ?_, fun j hj => ?_, hn⟩
  · have hne : s.send i ≠ .idle := by rintro e; simp [e, SendPc.active] at hi
    exact SendPc.eq_done_of_ne_idle (h'.ne_idle.1 i hne) (hsend i)
  · have hne : s.close j ≠ .idle := by rintro e; simp [e, ClosePc.inProgress] at hj
    exact ClosePc.hasReturned_of_ne_idle (h'.ne_idle.2 j hne) (hclose j)

/-- With `SendStatusClosing = 4`: a send in flight while a closer waits; both can finish. -/
theorem finish_of_run_spinning :
    ∃ s : State (Fin 1) (Fin 1),
      Run 4 init [.send 0 .increment, .close 0 .read, .close 0 .test, .close 0 .add] s ∧
      ∃ as' s', Run 4 s as' s' ∧
        (∀ i, (s'.send i).active = false) ∧ (∀ j, (s'.close j).inProgress = false) ∧
        (∀ i, (s.send i).active → ∃ b, s'.send i = .done b) ∧
        (∀ j, (s.close j).inProgress → (s'.close j).hasReturned) ∧ NoneStarted s s' :=
  have h := run_get (K := 4) (init : State (Fin 1) (Fin 1))
    [.send 0 .increment, .close 0 .read, .close 0 .test, .close 0 .add] (by decide)
  ⟨_, h, finish_of_run (k := 2) rfl h⟩

end Sirikata.Network.SendStatus

import Sirikata.Network.SendStatus
import Mathlib.Tactic.LinearCombination

/-!
# The send-status word: the counting invariant

`StatusInv` says that the word is `c * K + a`, where `a` counts the `send` calls between increment
and decrement and `c` the `closeSendStatus` calls that added `K`, and that at most three closers
ever add. Every step keeps it (`StatusInv.step`), so it holds in every state of every run that keeps
the callers' bounds (`Run.inv`), and the facts about the word follow (`sendStatus_of_run`).

The arithmetic core is `closingBits_eq`: with `K` a power of two, `a < K` and `c ≤ 3`, the closing
bits of `c * K + a` are `c * K`.
-/

namespace Sirikata.Network.SendStatus

open Finset Function

/-! ## Counting calls -/

section Count

variable {ι α : Type} [Fintype ι] [DecidableEq ι]

/-- Changing the state of one call moves the count by what the old and the new state count. -/
theorem count_update (p : α → Bool) (f : ι → α) (i : ι) (x : α) :
    count p (update f i x) + (p (f i)).toNat = count p f + (p x).toNat := by
  simp only [count, card_filter]
  rw [sum_eq_add_sum_diff_singleton (mem_univ i),
    sum_eq_add_sum_diff_singleton (mem_univ i) (fun j => if p (f j) = true then 1 else 0),
    sum_congr rfl fun j hj => by rw [update_noteq (by simpa using hj)], update_same]
  cases p x <;> cases p (f i) <;> simp <;> omega

omit [DecidableEq ι] in
theorem count_le_count {p q : α → Bool} (h : ∀ x, p x → q x) (f : ι → α) :
    count p f ≤ count q f :=
  card_le_card (monotone_filter_right _ fun _ hi => h _ hi)

omit [DecidableEq ι] in
theorem count_eq_zero {p : α → Bool} {f : ι → α} (h : count p f = 0) (i : ι) : p (f i) = false := by
  simpa using filter_eq_empty_iff.mp (card_eq_zero.mp h) (mem_univ i)

omit [DecidableEq ι] in
theorem count_pos {p : α → Bool} {f : ι → α} {i : ι} (h : p (f i)) : 0 < count p f :=
  card_pos.mpr ⟨i, by simpa using h⟩

end Count

/-! ## The closing bits -/

theorem land_two_pow_mul_add (k c a : Nat) (hc : c < 4) (ha : a < 2 ^ k) :
    (2 ^ k * c + a) &&& (2 ^ k * 3) = 2 ^ k * c := by
  apply Nat.eq_of_testBit_eq
  intro j
  rw [Nat.testBit_land, Nat.testBit_mul_pow_two_add _ ha, ← Nat.add_zero (2 ^ k * 3),
    ← Nat.add_zero (2 ^ k * c), Nat.testBit_mul_pow_two_add _ (Nat.two_pow_pos k),
    Nat.testBit_mul_pow_two_add _ (Nat.two_pow_pos k)]
  split
  · simp
  · generalize j - k = m
    match m with
    | 0 => simp [Nat.testBit_zero]
    | 1 => simp [Nat.testBit_succ]
    | m + 2 =>
      have : c < 2 ^ (m + 2) := by
        rw [Nat.pow_succ, Nat.pow_succ]; have := Nat.one_le_two_pow (n := m); omega
      simp [Nat.testBit_lt_two_pow this]

/-- On a word that is not negative the closing bits are the `Nat` conjunction. -/
theorem closingBits_natCast (K m : Nat) : closingBits K m = ((m &&& 3 * K : Nat) : Int) := by
  rw [closingBits, show (3 : Int) * K = ((3 * K : Nat) : Int) by push_cast; ring]
  rfl

/-- The closing bits of a word `c * K + a` are `c * K`. -/
theorem closingBits_eq {K k c a : Nat} (hK : K = 2 ^ k) (hc : c ≤ 3) (ha : a < K) :
    closingBits K (c * K + a) = c * K := by
  rw [← Nat.cast_mul, ← Nat.cast_add, closingBits_natCast, hK, Nat.mul_comm c, Nat.mul_comm 3,
    land_two_pow_mul_add k c a (by omega) (hK ▸ ha)]

theorem closingBits_eq_zero_iff {K k c a : Nat} (hK : K = 2 ^ k) (hc : c ≤ 3) (ha : a < K) :
    closingBits K (c * K + a) = 0 ↔ c = 0 := by
  have : K ≠ 0 := hK ▸ (Nat.two_pow_pos k).ne'
  rw [closingBits_eq hK hc ha, mul_eq_zero]
  simp [this]

/-- A word `c * K + a` with `a < K` is a multiple `m * K` only when `a = 0`. -/
theorem eq_zero_of_add_eq_mul {K c a m : Nat} (ha : a < K) (h : c * K + a = m * K) : a = 0 := by
  have := congrArg (· % K) h
  simpa [Nat.add_mod, Nat.mod_eq_of_lt ha] using this

/-! ## One step of one call -/

variable {K : Nat} {w w' : Int}

namespace SendPc

variable {p p' : SendPc} {a : SendAct}

theorem passes_active (h : p.passes K) : p.active := by
  cases p <;> simp_all [passes, active]

/-- A `send` step moves the word by exactly what it moves the call in or out of `active`. -/
theorem sendStep_sendStatus (h : sendStep K w a p = some (w', p')) :
    w' + (p.active).toNat = w + (p'.active).toNat := by
  unfold sendStep at h; split at h <;> cases h <;> (try split) <;> simp [active]

/-- Only the increment brings a call to a state that passes the mask test. -/
theorem sendStep_passes (h : sendStep K w a p = some (w', p')) (hp : p'.passes K) :
    p.passes K ∨ (p = .idle ∧ p' = .incremented w') := by
  unfold sendStep at h; split at h <;> cases h <;> (try split at hp) <;> simp_all [passes]

theorem sendStep_sendBytes (h : sendStep K w .sendBytes p = some (w', p')) : p = .sending := by
  cases p <;> simp_all [sendStep]

end SendPc

namespace ClosePc

variable {p p' : ClosePc} {a : CloseAct}

theorem pending_inProgress (h : p.pending K) : p.inProgress := by
  cases p <;> simp_all [pending, inProgress]

theorem settled_of_hasReturned (h : p.hasReturned) : p.settled K := by
  cases p <;> simp_all [settled, hasReturned]

/-- A close step moves the word by `K` exactly when it is the call's add. -/
theorem closeStep_sendStatus (h : closeStep K w a p = some (w', p')) :
    w' + K * (p.incd).toNat = w + K * (p'.incd).toNat := by
  unfold closeStep at h; split at h <;> cases h <;> (try split) <;> simp [incd]

theorem closeStep_incd (h : closeStep K w a p = some (w', p')) (hp : p.incd) : p'.incd := by
  unfold closeStep at h; split at h <;> cases h <;> (try split) <;> simp_all [incd]

/-- Apart from the read, a close step trades a pending add for a done one, or changes neither. -/
theorem closeStep_pending (h : closeStep K w a p = some (w', p')) :
    (p'.pending K).toNat + (p'.incd).toNat = (p.pending K).toNat + (p.incd).toNat ∨
      (p = .idle ∧ p' = .read w) := by
  unfold closeStep at h; split at h <;> cases h <;> (try split) <;> simp_all [pending, incd]

theorem closeStep_settled (h : closeStep K w a p = some (w', p')) (hp : p'.settled K) :
    p.settled K ∨ p'.incd ∨ (p = .idle ∧ p' = .read w) := by
  unfold closeStep at h; split at h <;> cases h <;> (try split at hp) <;> simp_all [settled, incd]

/-- A call returns from `closeSendStatus` only on reading `K`, `2 * K` or `3 * K`. -/
theorem closeStep_hasReturned (h : closeStep K w a p = some (w', p')) (hp : p'.hasReturned) :
    p.hasReturned ∨ (w = K ∨ w = 2 * K ∨ w = 3 * K) := by
  unfold closeStep at h; split at h <;> cases h <;> (try split at hp) <;> simp_all [hasReturned]

theorem closeStep_hasReturned_of (h : closeStep K w a p = some (w', p')) (hp : p.hasReturned) :
    p'.hasReturned := by
  unfold closeStep at h; split at h <;> cases h <;> simp_all [hasReturned]

end ClosePc

/-! ## The counting invariant -/

variable {ι κ : Type} [Fintype ι] [DecidableEq ι] [Fintype κ] [DecidableEq κ]
variable {s : State ι κ} {i : ι} {j : κ} {p : SendPc} {q : ClosePc}

/-- The word is `c * K + a`; the closers that added or are bound to add are at most three; a closer
that saw a closing bit, or went on to the wait loop, knows of one that added. -/
structure StatusInv (K : Nat) (s : State ι κ) : Prop where
  sendStatus_eq : s.sendStatus = closers s * K + senders s
  closers_add_pending : closers s + pendingClosers K s ≤ 3
  closers_pos : ∀ j, (s.close j).settled K → 0 < closers s

omit [DecidableEq ι] [DecidableEq κ] in
theorem StatusInv.closers_le_three (hs : StatusInv K s) : closers s ≤ 3 := by
  have := hs.closers_add_pending
  omega

omit [DecidableEq ι] [DecidableEq κ] in
/-- With fewer than `K` sends in flight, the closing bits of the word are clear exactly when no
closer has added. -/
theorem StatusInv.closingBits_eq_zero_iff {k : Nat} (hK : K = 2 ^ k) (hs : StatusInv K s)
    (ha : senders s < K) : closingBits K s.sendStatus = 0 ↔ closers s = 0 := by
  rw [hs.sendStatus_eq]
  exact SendStatus.closingBits_eq_zero_iff hK hs.closers_le_three ha

omit [Fintype κ] [DecidableEq κ] in
theorem senders_setSend :
    senders { s with sendStatus := w, send := update s.send i p } + (s.send i).active.toNat =
      senders s + p.active.toNat :=
  count_update _ _ _ _

omit [Fintype ι] [DecidableEq ι] in
theorem closers_setClose :
    closers { s with sendStatus := w, close := update s.close j q } + (s.close j).incd.toNat =
      closers s + q.incd.toNat :=
  count_update _ _ _ _

omit [Fintype ι] [DecidableEq ι] in
theorem pendingClosers_setClose :
    pendingClosers K { s with sendStatus := w, close := update s.close j q } +
        ((s.close j).pending K).toNat = pendingClosers K s + (q.pending K).toNat :=
  count_update _ _ _ _

omit [DecidableEq ι] [DecidableEq κ] in
theorem inv_init : StatusInv K (init : State ι κ) where
  sendStatus_eq := by simp [init, closers, senders, count, SendPc.active, ClosePc.incd]
  closers_add_pending := by
    simp [init, closers, pendingClosers, count, ClosePc.incd, ClosePc.pending]
  closers_pos := by simp [init, ClosePc.settled]

omit [DecidableEq κ] in
/-- A step of a `send` call keeps the invariant. -/
theorem StatusInv.send_step (hs : StatusInv K s)
    (h : sendStep K s.sendStatus a (s.send i) = some (w', p)) :
    StatusInv K { s with sendStatus := w', send := update s.send i p } where
  sendStatus_eq := by
    have hw := SendPc.sendStep_sendStatus h
    have hc : (senders { s with sendStatus := w', send := update s.send i p } : Int) +
        (s.send i).active.toNat = senders s + p.active.toNat := by
      exact_mod_cast senders_setSend (s := s) (i := i) (p := p) (w := w')
    show w' = closers s * K + _
    linear_combination hw + hs.sendStatus_eq - hc
  closers_add_pending := hs.closers_add_pending
  closers_pos := hs.closers_pos

omit [Fintype ι] [DecidableEq ι] in
/-- A close step never takes back an add. -/
theorem closers_le_setClose (h : closeStep K s.sendStatus a (s.close j) = some (w', q)) :
    closers s ≤ closers { s with sendStatus := w', close := update s.close j q } := by
  have hc := closers_setClose (s := s) (j := j) (q := q) (w := w')
  have : (s.close j).incd.toNat ≤ q.incd.toNat := by
    cases hI : (s.close j).incd
    · simp
    · simp [ClosePc.closeStep_incd h hI]
  omega

omit [DecidableEq ι] in
/-- A step of a `closeSendStatus` call keeps the invariant, when the state it reaches keeps the
callers' bounds. -/
theorem StatusInv.close_step {k : Nat} (hK : K = 2 ^ k) (hs : StatusInv K s)
    (h : closeStep K s.sendStatus a (s.close j) = some (w', q))
    (hw : Within K { s with sendStatus := w', close := update s.close j q }) :
    StatusInv K { s with sendStatus := w', close := update s.close j q } := by
  set s' : State ι κ := { s with sendStatus := w', close := update s.close j q }
  have hc : closers s' + (s.close j).incd.toNat = closers s + q.incd.toNat := closers_setClose
  have hmono : closers s ≤ closers s' := closers_le_setClose h
  have hbits : closingBits K s.sendStatus = 0 ↔ closers s = 0 := hs.closingBits_eq_zero_iff hK hw.1
  refine ⟨?_, ?_, ?_⟩
  · have hword := ClosePc.closeStep_sendStatus h
    have hc' : (closers s' : Int) + (s.close j).incd.toNat = closers s + q.incd.toNat := by
      exact_mod_cast hc
    show w' = _ * K + senders s
    linear_combination hword + hs.sendStatus_eq - (K : Int) * hc'
  · have hP : pendingClosers K s' + ((s.close j).pending K).toNat =
        pendingClosers K s + (q.pending K).toNat := pendingClosers_setClose
    have hbound := hs.closers_add_pending
    rcases ClosePc.closeStep_pending h with hq | ⟨hp, rfl⟩
    · omega
    · -- a read: the reader is bound to add only if no closer has added yet
      have hle : pendingClosers K s' ≤ activeClosers s' :=
        count_le_count (fun _ => ClosePc.pending_inProgress) _
      have := hw.2
      rw [hp] at hc hP
      by_cases h0 : closingBits K s.sendStatus = 0
      · simp [ClosePc.incd, hbits.mp h0] at hc
        omega
      · simp [ClosePc.incd, ClosePc.pending, h0] at hc hP
        omega
  · intro j' hj'
    by_cases hjj : j' = j
    · subst hjj
      simp only [s', update_same] at hj'
      rcases ClosePc.closeStep_settled h hj' with h1 | h1 | ⟨hp, rfl⟩
      · exact lt_of_lt_of_le (hs.closers_pos j' h1) hmono
      · exact count_pos (i := j') (by simpa [s'] using h1)
      · simp only [ClosePc.settled, ne_eq, decide_eq_true_eq] at hj'
        have := hbits.not.mp hj'
        omega
    · simp only [s', update_noteq hjj] at hj'
      exact lt_of_lt_of_le (hs.closers_pos j' hj') hmono

/-- Every step keeps the invariant, when the state it reaches keeps the callers' bounds. -/
theorem StatusInv.step {k : Nat} (hK : K = 2 ^ k) {s' : State ι κ} {act : Action ι κ}
    (hs : StatusInv K s) (h : step K s act = some s') (hw : Within K s') : StatusInv K s' := by
  cases act with
  | send i a =>
    obtain ⟨w, p, hp, rfl⟩ := (step_send_eq_some K).mp h
    exact hs.send_step hp
  | close j a =>
    obtain ⟨w, q, hq, rfl⟩ := (step_close_eq_some K).mp h
    exact hs.close_step hK hq hw

omit [DecidableEq ι] [DecidableEq κ] in
theorem within_init {k : Nat} (hK : K = 2 ^ k) : Within K (init : State ι κ) := by
  simp [Within, init, senders, activeClosers, count, SendPc.active, ClosePc.inProgress, hK,
    Nat.two_pow_pos]

theorem run_sound {s' : State ι κ} {as : List (Action ι κ)} (h : run K s as = some s') :
    Run K s as s' := by
  induction as generalizing s with
  | nil => cases h; exact .nil _
  | cons a as ih =>
    simp only [run] at h
    split at h
    · split at h
      · exact .cons ‹_› ‹_› (ih h)
      · cases h
    · cases h

/-- The run of a schedule that `run` executes to the end. -/
theorem run_get (t : State ι κ) (as : List (Action ι κ)) (h : (run K t as).isSome) :
    Run K t as ((run K t as).get h) :=
  run_sound (Option.some_get h).symm

theorem Run.within {s' : State ι κ} {as : List (Action ι κ)} (h : Run K s as s') (hs : Within K s) :
    Within K s' := by
  induction h with
  | nil => exact hs
  | cons _ hw _ ih => exact ih hw

theorem Run.inv {k : Nat} (hK : K = 2 ^ k) {s' : State ι κ} {as : List (Action ι κ)}
    (h : Run K s as s') (hs : StatusInv K s) : StatusInv K s' := by
  induction h with
  | nil => exact hs
  | cons hstep hw _ ih => exact ih (hs.step hK hstep hw)

/-- In every state of every run from a fresh stream that keeps the callers' bounds, the word is
`c * K + a` with `c ≤ 3`, its closing bits are clear exactly when `c = 0`, it is never negative,
it is `c * K` when no send is in flight, and every closer in the wait loop sees `c ≥ 1` and, with no
send in flight, a word that ends the loop. -/
theorem sendStatus_of_run {k : Nat} (hK : K = 2 ^ k) {as : List (Action ι κ)} {s : State ι κ}
    (h : Run K init as s) :
    s.sendStatus = closers s * K + senders s ∧ closers s ≤ 3 ∧
      (closingBits K s.sendStatus = 0 ↔ closers s = 0) ∧ 0 ≤ s.sendStatus ∧
      (senders s = 0 → s.sendStatus = closers s * K ∧ (s.sendStatus = 0 → closers s = 0)) ∧
      ∀ j incd, s.close j = .spinning incd → 1 ≤ closers s ∧
        (senders s = 0 → s.sendStatus = K ∨ s.sendStatus = 2 * K ∨ s.sendStatus = 3 * K) := by
  have hs := h.inv hK inv_init
  have hw := h.within (within_init hK)
  have hc3 := hs.closers_le_three
  have hK0 : 0 < K := hK ▸ Nat.two_pow_pos k
  have hword := hs.sendStatus_eq
  refine ⟨hword, hc3, hs.closingBits_eq_zero_iff hK hw.1,
    by rw [hword]; exact_mod_cast Nat.zero_le _,
    fun ha => ⟨by simp [hword, ha], fun h0 => ?_⟩, fun j incd hj => ?_⟩
  · rw [hword, ha] at h0
    have : closers s * K = 0 := by exact_mod_cast h0
    exact (Nat.mul_eq_zero.mp this).resolve_right hK0.ne'
  · have hpos := hs.closers_pos j (by simp [hj, ClosePc.settled])
    refine ⟨hpos, fun ha => ?_⟩
    rw [hword, ha]
    rcases (by omega : closers s = 1 ∨ closers s = 2 ∨ closers s = 3) with hc | hc | hc <;>
      simp [hc]

/-- With `SendStatusClosing = 4`: a send in flight while a closer adds and spins. The run reaches
the word `5`, the send holding the `1` it read back, and the closer in its wait loop having added;
the invariant then says the word is `1 * 4 + 1`. -/
theorem sendStatus_of_run_spinning :
    ∃ s : State (Fin 1) (Fin 1), Run 4 init [.send 0 .increment, .close 0 .read, .close 0 .test,
      .close 0 .add] s ∧
    s.sendStatus = 5 ∧ s.send 0 = .incremented 1 ∧ s.close 0 = .spinning true ∧
    s.sendStatus = closers s * 4 + senders s ∧ closers s ≤ 3 ∧
      (closingBits 4 s.sendStatus = 0 ↔ closers s = 0) ∧ 0 ≤ s.sendStatus ∧
      (senders s = 0 → s.sendStatus = closers s * 4 ∧ (s.sendStatus = 0 → closers s = 0)) ∧
      ∀ j incd, s.close j = .spinning incd → 1 ≤ closers s ∧
        (senders s = 0 → s.sendStatus = 4 ∨ s.sendStatus = 2 * 4 ∨ s.sendStatus = 3 * 4) :=
  have h := run_get (K := 4) (init : State (Fin 1) (Fin 1))
    [.send 0 .increment, .close 0 .read, .close 0 .test, .close 0 .add] (by decide)
  ⟨_, h, by decide, by decide, by decide, sendStatus_of_run (k := 2) rfl h⟩

end Sirikata.Network.SendStatus

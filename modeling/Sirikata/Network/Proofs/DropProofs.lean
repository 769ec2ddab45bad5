import Sirikata.Network.Proofs.SendStatusProofs

/-!
# A send is turned away only after a closer has added

`send` deletes its chunk instead of sending it when the value it read back at its increment has a
closing bit set. By `StatusInv` that value is `c * K + a` with `a < K`, so its closing bits are set
exactly when some `closeSendStatus` call had added `SendStatusClosing` by then, and an add is never
taken back. So in every run a send that is turned away, or holds a value that will be, comes after
an add, and a send that increments after an add is turned away (`dropped_iff_added`): on a stream
no closer has marked, every send reaches `sendBytes`.
-/

namespace Sirikata.Network.SendStatus

open Function

variable {K : Nat} {w w' : Int}

namespace SendPc

variable {p p' : SendPc} {a : SendAct}

/-- Turned away at the mask test, or holding a value that fails it. -/
def dropped (K : Nat) : SendPc → Bool
  | incremented v => closingBits K v ≠ 0
  | dropping | done false => true
  | idle | sending | sent | done true => false

/-- Only the increment makes a call that is not turned away into one that is. -/
theorem sendStep_dropped (h : sendStep K w a p = some (w', p')) (hp : p'.dropped K) :
    p.dropped K ∨ (p = .idle ∧ p' = .incremented w') := by
  unfold sendStep at h; split at h <;> cases h <;> (try split at hp) <;> simp_all [dropped]

end SendPc

variable {ι κ : Type} [Fintype ι] [DecidableEq ι] [Fintype κ] [DecidableEq κ]
variable {s s' : State ι κ} {act : Action ι κ} {as : List (Action ι κ)}

/-- Every send that is turned away, or will be, comes after an add. -/
def DropInv (K : Nat) (s : State ι κ) : Prop := ∀ i, (s.send i).dropped K → 0 < closers s

omit [Fintype ι] [DecidableEq ι] [DecidableEq κ] in
theorem dropInv_init : DropInv K (init : State ι κ) := fun _ h => by
  simp [init, SendPc.dropped] at h

/-- Every step keeps `DropInv`, when the state it reaches keeps the callers' bounds: at its increment
a send reads back `c * K + a` with `a < K`, whose closing bits are clear while no closer has
added. -/
theorem DropInv.step {k : Nat} (hK : K = 2 ^ k) (hs : StatusInv K s) (hd : DropInv K s)
    (h : step K s act = some s') (hw : Within K s') : DropInv K s' := by
  have hs' := hs.step hK h hw
  cases act with
  | send i a =>
    obtain ⟨w, p, hp, rfl⟩ := (step_send_eq_some K).mp h
    intro i' hi'
    show 0 < closers s
    by_cases e : i' = i
    · subst e
      simp only [update_same] at hi'
      rcases SendPc.sendStep_dropped hp hi' with h1 | ⟨-, rfl⟩
      · exact hd i' h1
      · exact Nat.pos_of_ne_zero
          ((hs'.closingBits_eq_zero_iff hK hw.1).not.mp (by simpa [SendPc.dropped] using hi'))
    · exact hd i' (by simpa [update_noteq e] using hi')
  | close j a =>
    obtain ⟨w, q, hq, rfl⟩ := (step_close_eq_some K).mp h
    exact fun i hi => lt_of_lt_of_le (hd i hi) (closers_le_setClose hq)

theorem Run.dropInv {k : Nat} (hK : K = 2 ^ k) (h : Run K s as s') (hs : StatusInv K s)
    (hd : DropInv K s) : DropInv K s' := by
  induction h with
  | nil => exact hd
  | cons hstep hw _ ih => exact ih (hs.step hK hstep hw) (hd.step hK hs hstep hw)

omit [Fintype ι] [DecidableEq ι] [DecidableEq κ] in
theorem closers_pos_iff : 0 < closers s ↔ ∃ j, (s.close j).incd := by
  simp [closers, count, Finset.card_pos, Finset.filter_nonempty_iff]

/-- In every state of every run from a fresh stream that keeps the callers' bounds, a `send` call
that increments the word is turned away exactly when some `closeSendStatus` call has already added
`SendStatusClosing`, and every send that has been turned away, or holds a value that will be, comes
after such an add. -/
theorem dropped_iff_added {k : Nat} (hK : K = 2 ^ k) (h : Run K init as s) :
    (∀ i, (s.send i).dropped K → ∃ j, (s.close j).incd) ∧
      ∀ i s', step K s (.send i .increment) = some s' → Within K s' →
        ((s'.send i).dropped K ↔ ∃ j, (s.close j).incd) := by
  have hs := h.inv hK inv_init
  refine ⟨fun i hi => closers_pos_iff.mp (h.dropInv hK inv_init dropInv_init i hi),
    fun i s' hstep hw => ?_⟩
  obtain ⟨w, p, hp, rfl⟩ := (step_send_eq_some K).mp hstep
  have hidle : s.send i = .idle := by cases e : s.send i <;> simp_all [sendStep]
  simp only [hidle, sendStep, Option.some.injEq, Prod.mk.injEq] at hp
  obtain ⟨rfl, rfl⟩ := hp
  have hbits : closingBits K (s.sendStatus + 1) = 0 ↔ closers s = 0 :=
    (hs.step hK hstep hw).closingBits_eq_zero_iff hK hw.1
  rw [← closers_pos_iff, Nat.pos_iff_ne_zero]
  simp [SendPc.dropped, hbits]

/-- With `SendStatusClosing = 4` and two sends: a closer adds and the first send is turned away;
the second, still idle, then increments, and is turned away because a closer has added. -/
theorem dropped_iff_added_closed :
    ∃ s s' : State (Fin 2) (Fin 1), Run 4 init
      [.close 0 .read, .close 0 .test, .close 0 .add, .send 0 .increment, .send 0 .test] s ∧
      step 4 s (.send 1 .increment) = some s' ∧ Within 4 s' ∧ (s'.send 1).dropped 4 ∧
      (∀ i, (s.send i).dropped 4 → ∃ j, (s.close j).incd) ∧
      ((s'.send 1).dropped 4 ↔ ∃ j, (s.close j).incd) :=
  have h := run_get (K := 4) (init : State (Fin 2) (Fin 1))
    [.close 0 .read, .close 0 .test, .close 0 .add, .send 0 .increment, .send 0 .test] (by decide)
  ⟨_, _, h, Option.eq_some_of_isSome (by decide), by decide, by decide,
    (dropped_iff_added (k := 2) rfl h).1,
    (dropped_iff_added (k := 2) rfl h).2 1 _ (Option.eq_some_of_isSome (by decide)) (by decide)⟩

end Sirikata.Network.SendStatus

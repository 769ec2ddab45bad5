import Mathlib.Data.Finset.Basic

/-!
# `AutoSingleton<T>`: the lazily created instance

`AutoSingleton<T>` (Singleton.hpp) keeps one static pointer, `sInstance`. The first `T` constructed
while it is `NULL` becomes the instance; `getSingleton` creates one with `new T` when there is none;
the destructor of the instance, and `destroy`, set it back to `NULL`.

The state is `sInstance` and the addresses of the `T` objects alive, `0` standing for `NULL`. Where
a new object is placed is the allocator's choice: every operation that creates one names the
address, and is an execution only when that address is not `NULL` and holds no live object.

The invariant `InstanceLive` (`sInstance` is `NULL` or a live object) holds after every sequence of
operations (`run_instanceLive`), and between two calls of `getSingleton` with neither `destroy` nor the
destruction of the instance in between, the instance does not change (`run_sInstance`).
-/

namespace Sirikata.AutoSingleton

/-- The static member and the objects alive. -/
structure State where
  /-- `AutoSingleton<T>::sInstance`; `0` is `NULL`. -/
  sInstance : Nat
  /-- The addresses of the `T` objects alive. -/
  live : Finset Nat
  deriving DecidableEq

/-- `AUTO_SINGLETON_INSTANCE` initialises `sInstance` to `NULL`; no object exists yet. -/
def init : State := ⟨0, ∅⟩

/-- A `T` is constructed at `this`: the body of `AutoSingleton()` makes it the instance if there is
none. -/
def construct (this : Nat) (s : State) : Option State :=
  if this = 0 ∨ this ∈ s.live then none
  else some ⟨if s.sInstance = 0 then this else s.sInstance, insert this s.live⟩

/-- A `T` is copy-constructed at `this`: the implicit copy constructor of `AutoSingleton` leaves
`sInstance` alone. -/
def copyConstruct (this : Nat) (s : State) : Option State :=
  if this = 0 ∨ this ∈ s.live then none else some ⟨s.sInstance, insert this s.live⟩

/-- The `T` at `this` is destroyed: `~AutoSingleton()` clears `sInstance` if it was the instance. -/
def destruct (this : Nat) (s : State) : Option State :=
  if this ∈ s.live then some ⟨if s.sInstance = this then 0 else s.sInstance, s.live.erase this⟩
  else none

/-- `getSingleton()`: `sInstance = new T` (placed at `p`) when `sInstance` is `NULL`, then
`*static_cast<T*>(sInstance)`, whose address is returned. -/
def getSingleton (p : Nat) (s : State) : Option (Nat × State) :=
  if s.sInstance = 0 then (construct p s).map fun s' => (p, { s' with sInstance := p })
  else some (s.sInstance, s)

/-- `destroy()`: `delete sInstance` (nothing when it is `NULL`), then `sInstance=NULL`. -/
def destroy (s : State) : Option State :=
  (if s.sInstance = 0 then some s else destruct s.sInstance s).map
    fun s' => { s' with sInstance := 0 }

/-- The operations of a program on `T` objects and on `AutoSingleton<T>`. -/
inductive Op where
  | construct (p : Nat)
  | copyConstruct (p : Nat)
  | destruct (p : Nat)
  | getSingleton (p : Nat)
  | destroy
  deriving DecidableEq

/-- One operation; `none` when it is not an execution (a taken address, a dead object). -/
def step (s : State) : Op → Option State
  | .construct p => construct p s
  | .copyConstruct p => copyConstruct p s
  | .destruct p => destruct p s
  | .getSingleton p => (getSingleton p s).map Prod.snd
  | .destroy => destroy s

/-- A sequence of operations. -/
def run (s : State) : List Op → Option State
  | [] => some s
  | op :: ops => (step s op).bind fun s' => run s' ops

/-- `sInstance` is `NULL` or the address of a live `T`. -/
def InstanceLive (s : State) : Prop := s.sInstance = 0 ∨ s.sInstance ∈ s.live

/-! ## Every operation keeps the instance alive -/

variable {s s' : State} {p r : Nat}

theorem construct_instanceLive (h : construct p s = some s') (hs : InstanceLive s) :
    InstanceLive s' := by
  unfold construct at h
  split at h <;> cases h
  unfold InstanceLive at hs ⊢
  split <;> simp_all

theorem copyConstruct_instanceLive (h : copyConstruct p s = some s') (hs : InstanceLive s) :
    InstanceLive s' := by
  unfold copyConstruct at h
  split at h <;> cases h
  unfold InstanceLive at hs ⊢
  simp only [Finset.mem_insert]
  tauto

theorem destruct_instanceLive (h : destruct p s = some s') (hs : InstanceLive s) :
    InstanceLive s' := by
  unfold destruct at h
  split at h <;> cases h
  unfold InstanceLive at hs ⊢
  split <;> simp_all

/-- What a call of `getSingleton` can do: construct the instance at a free address, or return the
one there is. -/
theorem getSingleton_eq_some (h : getSingleton p s = some (r, s')) :
    (s.sInstance = 0 ∧ r = p ∧ p ≠ 0 ∧ s' = ⟨p, insert p s.live⟩) ∨
      (s.sInstance ≠ 0 ∧ r = s.sInstance ∧ s' = s) := by
  unfold getSingleton at h
  split at h
  · obtain ⟨s₁, h₁, h⟩ := Option.map_eq_some'.mp h
    unfold construct at h₁
    split at h₁ <;> cases h₁
    cases h
    exact .inl ⟨‹_›, rfl, (not_or.mp ‹_›).1, rfl⟩
  · cases h
    exact .inr ⟨‹_›, rfl, rfl⟩

/-- `getSingleton` returns a live object, and keeps the invariant. -/
theorem getSingleton_live (h : getSingleton p s = some (r, s')) (hs : InstanceLive s) :
    r ∈ s'.live ∧ s'.sInstance = r := by
  rcases getSingleton_eq_some h with ⟨-, rfl, -, rfl⟩ | ⟨hr, rfl, rfl⟩
  · simp
  · exact ⟨hs.resolve_left hr, rfl⟩

theorem destroy_sInstance (h : destroy s = some s') : s'.sInstance = 0 := by
  obtain ⟨s₁, -, rfl⟩ := Option.map_eq_some'.mp h
  rfl

theorem step_instanceLive {op : Op} (h : step s op = some s') (hs : InstanceLive s) :
    InstanceLive s' := by
  cases op with
  | construct p => exact construct_instanceLive h hs
  | copyConstruct p => exact copyConstruct_instanceLive h hs
  | destruct p => exact destruct_instanceLive h hs
  | getSingleton p =>
    obtain ⟨⟨r, s₁⟩, h₁, rfl⟩ := Option.map_eq_some'.mp h
    exact .inr ((getSingleton_live h₁ hs).2 ▸ (getSingleton_live h₁ hs).1)
  | destroy => exact .inl (destroy_sInstance h)

theorem run_instanceLive {ops : List Op} (h : run s ops = some s') (hs : InstanceLive s) :
    InstanceLive s' := by
  induction ops generalizing s with
  | nil => cases h; exact hs
  | cons op ops ih =>
    obtain ⟨s₁, h₁, h⟩ := Option.bind_eq_some.mp h
    exact ih h (step_instanceLive h₁ hs)

/-! ## The instance is stable between two calls of `getSingleton` -/

/-- With an instance, `getSingleton` returns it and changes nothing. -/
theorem getSingleton_of_ne_zero (hr : s.sInstance ≠ 0) :
    getSingleton p s = some (s.sInstance, s) := by
  simp [getSingleton, hr]

/-- `getSingleton` returns whenever the allocator offers a free address for `new T`. -/
theorem getSingleton_isSome (hp : p ≠ 0) (hpl : p ∉ s.live) : (getSingleton p s).isSome := by
  by_cases hr : s.sInstance = 0 <;> simp [getSingleton, construct, hr, hp, hpl]

theorem construct_sInstance (h : construct p s = some s') (hr : s.sInstance ≠ 0) :
    s'.sInstance = s.sInstance := by
  unfold construct at h
  split at h <;> cases h
  simp [hr]

theorem copyConstruct_sInstance (h : copyConstruct p s = some s') : s'.sInstance = s.sInstance := by
  unfold copyConstruct at h
  split at h <;> cases h
  rfl

theorem destruct_sInstance (h : destruct p s = some s') (hr : s.sInstance ≠ p) :
    s'.sInstance = s.sInstance := by
  unfold destruct at h
  split at h <;> cases h
  simp [hr]

/-- A call of `getSingleton` returns a non-`NULL` address. -/
theorem getSingleton_ne_zero (h : getSingleton p s = some (r, s')) : r ≠ 0 := by
  rcases getSingleton_eq_some h with ⟨-, rfl, hp, -⟩ | ⟨hr, rfl, -⟩
  exacts [hp, hr]

/-- An operation other than `destroy` and the destruction of the instance keeps the instance. -/
theorem step_sInstance {op : Op} (h : step s op = some s') (hr : s.sInstance = r) (hr0 : r ≠ 0)
    (hop : op ≠ .destroy ∧ op ≠ .destruct r) : s'.sInstance = r := by
  subst hr
  cases op with
  | construct p => exact construct_sInstance h hr0
  | copyConstruct p => exact copyConstruct_sInstance h
  | destruct p => exact destruct_sInstance h fun e => hop.2 (e ▸ rfl)
  | getSingleton p =>
    simp only [step, getSingleton_of_ne_zero hr0, Option.map_some', Option.some.injEq] at h
    exact h ▸ rfl
  | destroy => exact absurd rfl hop.1

theorem run_sInstance {ops : List Op} (h : run s ops = some s') (hr : s.sInstance = r)
    (hr0 : r ≠ 0) (hops : ∀ op ∈ ops, op ≠ .destroy ∧ op ≠ .destruct r) : s'.sInstance = r := by
  induction ops generalizing s with
  | nil => cases h; exact hr
  | cons op ops ih =>
    obtain ⟨s₁, h₁, h⟩ := Option.bind_eq_some.mp h
    exact ih h (step_sInstance h₁ hr hr0 (hops op (List.mem_cons_self _ _)))
      fun op' hop' => hops op' (List.mem_cons_of_mem _ hop')

/-- After any sequence of operations, `sInstance` is `NULL` or a live `T`; `getSingleton`, given a
free address for `new T`, returns, and returns a live object; and a later call with neither `destroy`
nor the destruction of that object in between returns the same object. -/
theorem getSingleton_sound {ops : List Op} (h : run init ops = some s) :
    InstanceLive s ∧ (∀ p, p ≠ 0 → p ∉ s.live → (getSingleton p s).isSome) ∧
    ∀ p r s₁, getSingleton p s = some (r, s₁) → r ∈ s₁.live ∧
      ∀ ops' s₂ p', (∀ op ∈ ops', op ≠ .destroy ∧ op ≠ .destruct r) → run s₁ ops' = some s₂ →
        getSingleton p' s₂ = some (r, s₂) := by
  have hs := run_instanceLive h (.inl rfl)
  refine ⟨hs, fun p hp hpl => getSingleton_isSome hp hpl, fun p r s₁ h₁ => ?_⟩
  obtain ⟨hlive, hr⟩ := getSingleton_live h₁ hs
  have hr0 := getSingleton_ne_zero h₁
  refine ⟨hlive, fun ops' s₂ p' hops h₂ => ?_⟩
  have := run_sInstance h₂ hr hr0 hops
  rw [getSingleton_of_ne_zero (this ▸ hr0), this]

/-- A constructed `T` becomes the instance; a copy does not; `getSingleton` then returns the first.
`destroy` ends it and the next call creates a second instance at `8`; destructing that one ends it
too, and the call after creates a third at `9`, for which the theorem holds again. -/
theorem getSingleton_sound_constructed :
    run init [.construct 5, .copyConstruct 6] = some ⟨5, {6, 5}⟩ ∧
    getSingleton 7 ⟨5, {6, 5}⟩ = some (5, ⟨5, {6, 5}⟩) ∧
    run ⟨5, {6, 5}⟩ [.destroy] = some ⟨0, {6}⟩ ∧ getSingleton 8 ⟨0, {6}⟩ = some (8, ⟨8, {8, 6}⟩) ∧
    run ⟨8, {8, 6}⟩ [.destruct 8] = some ⟨0, {6}⟩ ∧ getSingleton 9 ⟨0, {6}⟩ = some (9, ⟨9, {9, 6}⟩) ∧
    run init [.construct 5, .copyConstruct 6, .getSingleton 7, .destroy, .getSingleton 8,
      .destruct 8, .getSingleton 9] = some ⟨9, {9, 6}⟩ ∧
    InstanceLive ⟨9, {9, 6}⟩ ∧ (∀ p, p ≠ 0 → p ∉ ({9, 6} : Finset Nat) →
      (getSingleton p ⟨9, {9, 6}⟩).isSome) ∧
    ∀ p r s₁, getSingleton p ⟨9, {9, 6}⟩ = some (r, s₁) → r ∈ s₁.live ∧
      ∀ ops' s₂ p', (∀ op ∈ ops', op ≠ .destroy ∧ op ≠ .destruct r) → run s₁ ops' = some s₂ →
        getSingleton p' s₂ = some (r, s₂) :=
  have h : run init [.construct 5, .copyConstruct 6, .getSingleton 7, .destroy, .getSingleton 8,
      .destruct 8, .getSingleton 9] = some ⟨9, {9, 6}⟩ := by decide
  ⟨by decide, by decide, by decide, by decide, by decide, by decide, h, getSingleton_sound h⟩

end Sirikata.AutoSingleton

import Mathlib.Data.Finset.Basic

/-!
# `IOServiceFactory`: the shared `IOService`

`singletonIOService` is to hand out one process-wide `IOService`, which `io_service_initializer`
creates under `boost::call_once`; `destroyIOService` deletes an `IOService` unless it is that one
(IOServiceFactory.cpp, lines 36-59).

The state holds the statics: the once flag `io_singleton`, the flag `called_io_service`, the pointer
`io` local to `singletonIOService`, and whether the `IOService` local to `io_service_initializer`
has been constructed; that object has a fixed address, the parameter `staticIo`. `0` is `NULL`.

`boost::bind(io_service_initializer,io)` copies `io`, so `io_service_initializer` stores `&io` into
a parameter of its own and the static `io` of `singletonIOService` stays `NULL`: every call of
`singletonIOService` returns a reference through `NULL` (`run_singletonIOService`), and once it has
been called `destroyIOService` deletes every pointer but `NULL`, the static `IOService` included.
-/

namespace Sirikata.Network.IOServiceFactory

/-- The statics of IOServiceFactory.cpp and the heap `IOService`s alive. -/
structure State where
  /-- `io_singleton`: whether `call_once` has run its function. -/
  ioSingleton : Bool
  /-- `called_io_service`. -/
  calledIoService : Bool
  /-- `static IOService*io` in `singletonIOService`. -/
  io : Nat
  /-- Whether `static IOService io` in `io_service_initializer` has been constructed. -/
  ioConstructed : Bool
  /-- The addresses of the `IOService`s made by `makeIOService` and not deleted. -/
  live : Finset Nat
  deriving DecidableEq

/-- A process that has not called into `IOServiceFactory`. -/
def init : State := ⟨false, false, 0, false, ∅⟩

variable (staticIo : Nat)

/-- `io_service_initializer(io_ret)`: constructs `static IOService io`, sets `called_io_service`,
and assigns `&io` to `io_ret`. The second component is the value `io_ret` is left with; `io_ret` is
the function's own copy of its argument. -/
def ioServiceInitializer (s : State) : State × Nat :=
  ({ s with ioConstructed := true, calledIoService := true }, staticIo)

/-- `singletonIOService()`: `boost::call_once(io_singleton,boost::bind(io_service_initializer,io))`,
then `return *io`; the first component is the address of the reference returned. `bind` hands
`io_service_initializer` a copy of `io`, and nothing assigns `io` itself. -/
def singletonIOService (s : State) : Nat × State :=
  let s' := if s.ioSingleton then s
    else { (ioServiceInitializer staticIo s).1 with ioSingleton := true }
  (s'.io, s')

/-- `makeIOService()`: `new IOService`, placed by the allocator at `p`; `none` when `p` is not free. -/
def makeIOService (p : Nat) (s : State) : Option (Nat × State) :=
  if p = 0 ∨ p = staticIo ∨ p ∈ s.live then none else some (p, { s with live := insert p s.live })

/-- `delete io`: nothing for `NULL`, otherwise the end of the `IOService` at `io`. -/
def delete (io : Nat) (s : State) : State := { s with live := s.live.erase io }

/-- `destroyIOService(io)`: `delete io` unless `called_io_service` is set and `io` is the address
of `singletonIOService()`; the first component is whether `delete io` ran. -/
def destroyIOService (io : Nat) (s : State) : Bool × State :=
  if s.calledIoService = false then (true, delete io s)
  else
    let r := singletonIOService staticIo s
    if r.1 ≠ io then (true, delete io r.2) else (false, r.2)

/-- The calls a program makes. -/
inductive Op where
  | singletonIOService
  | makeIOService (p : Nat)
  | destroyIOService (io : Nat)
  deriving DecidableEq

/-- One call; `none` when `new` is offered an address that is not free. -/
def step (s : State) : Op → Option State
  | .singletonIOService => some (singletonIOService staticIo s).2
  | .makeIOService p => (makeIOService staticIo p s).map Prod.snd
  | .destroyIOService io => some (destroyIOService staticIo io s).2

/-- A sequence of calls. -/
def run (s : State) : List Op → Option State
  | [] => some s
  | op :: ops => (step staticIo s op).bind fun s' => run s' ops

/-! ## Nothing assigns `io` -/

/-- The statics as every sequence of calls leaves them: `io` still `NULL`, and `called_io_service`
and the static `IOService` set exactly when `call_once` has run. -/
def Statics (s : State) : Prop :=
  s.io = 0 ∧ s.calledIoService = s.ioSingleton ∧ s.ioConstructed = s.ioSingleton

variable {staticIo} {s s' : State}

@[simp] theorem singletonIOService_fst : (singletonIOService staticIo s).1 = s.io := by
  unfold singletonIOService; split <;> rfl

theorem singletonIOService_ioSingleton : (singletonIOService staticIo s).2.ioSingleton = true := by
  unfold singletonIOService; split <;> simp_all

theorem singletonIOService_statics (hs : Statics s) : Statics (singletonIOService staticIo s).2 := by
  unfold singletonIOService; split <;> simp_all [Statics, ioServiceInitializer]

theorem destroyIOService_statics (io : Nat) (hs : Statics s) :
    Statics (destroyIOService staticIo io s).2 := by
  have h₁ : Statics (singletonIOService staticIo s).2 := singletonIOService_statics hs
  unfold destroyIOService
  split
  · exact hs
  · dsimp only
    split <;> simpa [delete, Statics] using h₁

theorem step_statics {op : Op} (h : step staticIo s op = some s') (hs : Statics s) : Statics s' := by
  cases op with
  | singletonIOService => cases h; exact singletonIOService_statics hs
  | makeIOService p =>
    obtain ⟨⟨r, s₁⟩, h₁, rfl⟩ := Option.map_eq_some'.mp h
    unfold makeIOService at h₁
    split at h₁ <;> cases h₁
    exact hs
  | destroyIOService io => cases h; exact destroyIOService_statics io hs

theorem run_statics {ops : List Op} (h : run staticIo s ops = some s') (hs : Statics s) :
    Statics s' := by
  induction ops generalizing s with
  | nil => cases h; exact hs
  | cons op ops ih =>
    obtain ⟨s₁, h₁, h⟩ := Option.bind_eq_some.mp h
    exact ih h (step_statics h₁ hs)

/-- `destroyIOService(io)` runs `delete io` unless a singleton was asked for and `io` is the (`NULL`)
address `singletonIOService` returns. -/
theorem destroyIOService_fst (io : Nat) :
    (destroyIOService staticIo io s).1 = (!s.calledIoService || s.io != io) := by
  unfold destroyIOService
  split
  · simp_all
  · simp only [singletonIOService_fst]
    split <;> simp_all

/-- After any sequence of calls, `singletonIOService` returns a reference through `NULL` although it
has constructed the static `IOService` at `staticIo`, and from then on `destroyIOService` runs
`delete p` for every pointer `p` but `NULL`, `delete staticIo` included. -/
theorem run_singletonIOService (hio : staticIo ≠ 0) {ops : List Op}
    (h : run staticIo init ops = some s) :
    (singletonIOService staticIo s).1 = 0 ∧ (singletonIOService staticIo s).2.ioConstructed ∧
      (singletonIOService staticIo s).1 ≠ staticIo ∧
      ∀ p, ((destroyIOService staticIo p (singletonIOService staticIo s).2).1 = true ↔ p ≠ 0) := by
  have hs := run_statics h (by simp [Statics, init])
  obtain ⟨hio₁, hcalled, hcons⟩ : Statics (singletonIOService staticIo s).2 :=
    singletonIOService_statics hs
  have hone : (singletonIOService staticIo s).2.ioSingleton = true := singletonIOService_ioSingleton
  rw [singletonIOService_fst, hs.1]
  refine ⟨rfl, hcons.trans hone, hio.symm, fun p => ?_⟩
  rw [destroyIOService_fst, hio₁, hcalled, hone]
  simp [ne_comm]

/-- In a fresh process the first `singletonIOService()` already returns `NULL`, and the static `io`
(here at address `1`) is one of the pointers `destroyIOService` deletes. -/
theorem run_singletonIOService_fresh :
    (1 : Nat) ≠ 0 ∧ run 1 init [] = some init ∧
      (singletonIOService 1 init).1 = 0 ∧ (singletonIOService 1 init).2.ioConstructed ∧
      (singletonIOService 1 init).1 ≠ 1 ∧
      ∀ p, ((destroyIOService 1 p (singletonIOService 1 init).2).1 = true ↔ p ≠ 0) :=
  ⟨by decide, rfl, run_singletonIOService (by decide) (show run 1 init [] = some init from rfl)⟩

/-! ## `call_once` -/

/-- A call spends the once flag only if it is `singletonIOService`: `destroyIOService` reaches
`singletonIOService` only once `called_io_service`, and with it the flag, is set. -/
theorem step_ioSingleton {op : Op} (h : step staticIo s op = some s') (hs : Statics s) :
    s'.ioSingleton = (s.ioSingleton || decide (op = .singletonIOService)) := by
  cases op with
  | singletonIOService => cases h; simp [singletonIOService_ioSingleton]
  | makeIOService p =>
    obtain ⟨⟨r, s₁⟩, h₁, rfl⟩ := Option.map_eq_some'.mp h
    unfold makeIOService at h₁
    split at h₁ <;> cases h₁
    simp
  | destroyIOService io =>
    cases h
    unfold destroyIOService
    split
    · simp [delete]
    · rename_i hcalled
      have hone : s.ioSingleton = true := by rw [← hs.2.1]; simpa using hcalled
      dsimp only
      split <;> simp [delete, singletonIOService_ioSingleton, hone]

theorem run_ioSingleton {ops : List Op} (h : run staticIo s ops = some s') (hs : Statics s) :
    s'.ioSingleton = (s.ioSingleton || decide (.singletonIOService ∈ ops)) := by
  induction ops generalizing s with
  | nil => cases h; simp
  | cons op ops ih =>
    obtain ⟨s₁, h₁, h⟩ := Option.bind_eq_some.mp h
    rw [ih h (step_statics h₁ hs), step_ioSingleton h₁ hs]
    by_cases hop : op = .singletonIOService <;> simp [hop, eq_comm]

/-- Over every sequence of calls, the once flag is spent, `called_io_service` is set and the static
`IOService` of `io_service_initializer` is constructed exactly when the sequence calls
`singletonIOService`: no other call runs the initializer. -/
theorem run_ioConstructed_iff {ops : List Op} (h : run staticIo init ops = some s) :
    (s.ioConstructed = true ↔ .singletonIOService ∈ ops) ∧ s.calledIoService = s.ioConstructed ∧
      s.ioSingleton = s.ioConstructed := by
  have hs := run_statics h (by simp [Statics, init])
  have hone := run_ioSingleton h (by simp [Statics, init])
  refine ⟨?_, hs.2.1.trans hs.2.2.symm, hs.2.2.symm⟩
  rw [hs.2.2, hone]
  simp [init]

/-- A pointer made and destroyed before the first `singletonIOService()`. -/
theorem run_ioConstructed_iff_made :
    ∃ s, run 1 init [.makeIOService 2, .destroyIOService 2, .singletonIOService] = some s ∧
      (s.ioConstructed = true ↔
        .singletonIOService ∈ [Op.makeIOService 2, .destroyIOService 2, .singletonIOService]) ∧
      s.calledIoService = s.ioConstructed ∧ s.ioSingleton = s.ioConstructed :=
  ⟨_, rfl, @run_ioConstructed_iff 1 _ _ rfl⟩

end Sirikata.Network.IOServiceFactory

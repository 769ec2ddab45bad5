import Mathlib.Algebra.BigOperators.Group.Finset
import Mathlib.Data.Fintype.Basic
import Mathlib.Data.Int.Bitwise

/-!
# The send-status word of a `TCPStream`

Every `TCPStream` owns an `AtomicValue<int>`, `mSendStatus`, which it shares with the callbacks it
registers on its `MultiplexedSocket`. `TCPStream::send` increments the word, hands its chunk to
`MultiplexedSocket::sendBytes` only if none of the bits of `3*SendStatusClosing` is set in the
value it read back, and decrements the word. `TCPStream::closeSendStatus` reads the word, adds
`SendStatusClosing` if none of those bits was set, and then spins until the word is one of
`SendStatusClosing`, `2*SendStatusClosing`, `3*SendStatusClosing`. `TCPStream::close` calls
`closeSendStatus` and then removes the stream's callbacks and closes the stream.

Each call is a process of its own, and one step of the system is one atomic step of one call, in
any order: the calls of `send` are indexed by `ι`, those of `closeSendStatus` by `κ`. The constant
`SendStatusClosing` is defined in a header outside `src/`: it is the parameter `K`. The word is an
unbounded `Int`; the invariant of `Sirikata.Network.Proofs.SendStatusProofs` keeps it in
`[0, 4 * K)`, where a 32-bit `int` holds it whenever `4 * K ≤ 2 ^ 31`.
-/

namespace Sirikata.Network.SendStatus

open Finset Function

/-- The bits `sendStatus&(3*SendStatusClosing)` that both `send` and `closeSendStatus` test. -/
def closingBits (K : Nat) (sendStatus : Int) : Int := Int.land sendStatus (3 * K)

/-- Where a call of `TCPStream::send` stands with respect to `mSendStatus`. -/
inductive SendPc where
  /-- Before `++(*mSendStatus)`: the chunk is built, nothing else is done. -/
  | idle
  /-- After `sendStatus=++(*mSendStatus)`, holding the value read back. -/
  | incremented (sendStatus : Int)
  /-- The mask test passed: about to call `MultiplexedSocket::sendBytes`. -/
  | sending
  /-- `sendBytes` returned and `didsend` is set: about to decrement. -/
  | sent
  /-- The mask test failed: about to decrement, then to delete the chunk. -/
  | dropping
  /-- After `--(*mSendStatus)`. -/
  | done (didsend : Bool)
  deriving DecidableEq, Repr

/-- Where a call of `TCPStream::closeSendStatus` stands; the last two states are those of the
`close` that made the call. -/
inductive ClosePc where
  /-- Not called yet. -/
  | idle
  /-- After `sendStatus=vSendStatus.read()`. -/
  | read (sendStatus : Int)
  /-- No closing bit was set: about to `vSendStatus+=SendStatusClosing`. -/
  | adding
  /-- In the wait loop; `incd` is whether this call added `SendStatusClosing`. -/
  | spinning (incd : Bool)
  /-- `closeSendStatus` returned. -/
  | returned (incd : Bool)
  /-- In `close`: after `mSocket->addCallbacks(getID(),NULL)`. -/
  | callbacksRemoved (incd : Bool)
  /-- In `close`: after `MultiplexedSocket::closeStream(mSocket,getID())`. -/
  | streamClosed (incd : Bool)
  deriving DecidableEq, Repr

/-- The atomic steps of a `send` call. -/
inductive SendAct where
  | increment | test | sendBytes | decrement
  deriving DecidableEq, Repr

/-- The atomic steps of a `closeSendStatus` call, and of the `close` that made it. -/
inductive CloseAct where
  | read | test | add | spin | addCallbacks | closeStream
  deriving DecidableEq, Repr

variable (K : Nat)

namespace SendPc

/-- Between its increment and its decrement of `mSendStatus`. -/
def active : SendPc → Bool
  | incremented _ | sending | sent | dropping => true
  | idle | done _ => false

/-- Past a successful mask test, or holding a value that will pass it. -/
def passes : SendPc → Bool
  | incremented v => closingBits K v = 0
  | sending | sent => true
  | idle | dropping | done _ => false

end SendPc

namespace ClosePc

/-- Called and not returned: from the read to the end of the wait loop. -/
def inProgress : ClosePc → Bool
  | read _ | adding | spinning _ => true
  | idle | returned _ | callbacksRemoved _ | streamClosed _ => false

/-- Has executed `vSendStatus+=SendStatusClosing`. -/
def incd : ClosePc → Bool
  | spinning b | returned b | callbacksRemoved b | streamClosed b => b
  | idle | read _ | adding => false

/-- Bound to add `SendStatusClosing`, and not done so yet. -/
def pending : ClosePc → Bool
  | read v => closingBits K v = 0
  | adding => true
  | idle | spinning _ | returned _ | callbacksRemoved _ | streamClosed _ => false

/-- Saw a closing bit set in the word it read, or has gone on to the wait loop. -/
def settled : ClosePc → Bool
  | read v => closingBits K v ≠ 0
  | spinning _ | returned _ | callbacksRemoved _ | streamClosed _ => true
  | idle | adding => false

/-- `closeSendStatus` has returned. -/
def hasReturned : ClosePc → Bool
  | returned _ | callbacksRemoved _ | streamClosed _ => true
  | idle | read _ | adding | spinning _ => false

end ClosePc

/-- One step of a `send` call (TCPStream.cpp, lines 92-98): from the word and the call's state, the
new word and state, or `none` when the call is not at that step. -/
def sendStep (w : Int) : SendAct → SendPc → Option (Int × SendPc)
  | .increment, .idle => some (w + 1, .incremented (w + 1))
  | .test, .incremented v => some (w, if closingBits K v = 0 then .sending else .dropping)
  | .sendBytes, .sending => some (w, .sent)
  | .decrement, .sent => some (w - 1, .done true)
  | .decrement, .dropping => some (w - 1, .done false)
  | _, _ => none

/-- One step of a `closeSendStatus` call (lines 107-119), and of `close` after it (lines 125-127). -/
def closeStep (w : Int) : CloseAct → ClosePc → Option (Int × ClosePc)
  | .read, .idle => some (w, .read w)
  | .test, .read v => some (w, if closingBits K v = 0 then .adding else .spinning false)
  | .add, .adding => some (w + K, .spinning true)
  | .spin, .spinning incd =>
    some (w, if w = K ∨ w = 2 * K ∨ w = 3 * K then .returned incd else .spinning incd)
  | .addCallbacks, .returned incd => some (w, .callbacksRemoved incd)
  | .closeStream, .callbacksRemoved incd => some (w, .streamClosed incd)
  | _, _ => none

/-- The word and where every call stands. -/
structure State (ι κ : Type) where
  /-- `*mSendStatus`. -/
  sendStatus : Int
  /-- The state of each `send` call. -/
  send : ι → SendPc
  /-- The state of each `closeSendStatus` call. -/
  close : κ → ClosePc

/-- One atomic step of one call. -/
inductive Action (ι κ : Type) where
  | send (i : ι) (a : SendAct)
  | close (j : κ) (a : CloseAct)

variable {ι κ : Type} [DecidableEq ι] [DecidableEq κ]

/-- A fresh stream: `mSendStatus(new AtomicValue<int>(0))` and no call started. -/
def init : State ι κ := ⟨0, fun _ => .idle, fun _ => .idle⟩

/-- The system takes one atomic step of one call; the other calls are untouched. -/
def step (s : State ι κ) : Action ι κ → Option (State ι κ)
  | .send i a => (sendStep K s.sendStatus a (s.send i)).map
      fun r => { s with sendStatus := r.1, send := update s.send i r.2 }
  | .close j a => (closeStep K s.sendStatus a (s.close j)).map
      fun r => { s with sendStatus := r.1, close := update s.close j r.2 }

section Counts

variable [Fintype ι] [Fintype κ]

/-- The number of calls whose state satisfies `p`. -/
def count {ι α : Type} [Fintype ι] (p : α → Bool) (f : ι → α) : Nat :=
  (univ.filter fun i => p (f i)).card

/-- `a`: the `send` calls between their increment and their decrement. -/
def senders (s : State ι κ) : Nat := count SendPc.active s.send

/-- `c`: the `closeSendStatus` calls that have added `SendStatusClosing`. -/
def closers (s : State ι κ) : Nat := count ClosePc.incd s.close

/-- The `closeSendStatus` calls bound to add `SendStatusClosing`. -/
def pendingClosers (s : State ι κ) : Nat := count (ClosePc.pending K) s.close

/-- The `closeSendStatus` calls in progress. -/
def activeClosers (s : State ι κ) : Nat := count ClosePc.inProgress s.close

/-- What the callers keep to (the comment at TCPStream.cpp, line 93): fewer than
`SendStatusClosing` sends between increment and decrement, at most three closers in progress. -/
def Within (s : State ι κ) : Prop := senders s < K ∧ activeClosers s ≤ 3

instance (s : State ι κ) : Decidable (Within K s) :=
  inferInstanceAs (Decidable (senders s < K ∧ activeClosers s ≤ 3))

/-- Some call of `closeSendStatus` has returned. -/
def Returned (s : State ι κ) : Prop := ∃ j, (s.close j).hasReturned

/-- The runs in which every state reached keeps the callers' bounds. -/
inductive Run : State ι κ → List (Action ι κ) → State ι κ → Prop
  | nil (s : State ι κ) : Run s [] s
  | cons {s s₁ s₂ : State ι κ} {a : Action ι κ} {as : List (Action ι κ)} :
      step K s a = some s₁ → Within K s₁ → Run s₁ as s₂ → Run s (a :: as) s₂

/-- The state a schedule reaches, when each of its steps is enabled and keeps the callers'
bounds. -/
def run (s : State ι κ) : List (Action ι κ) → Option (State ι κ)
  | [] => some s
  | a :: as => match step K s a with
    | some s₁ => if Within K s₁ then run s₁ as else none
    | none => none

end Counts

theorem step_send_eq_some {s s' : State ι κ} {i : ι} {a : SendAct} :
    step K s (.send i a) = some s' ↔ ∃ w p, sendStep K s.sendStatus a (s.send i) = some (w, p) ∧
      s' = { s with sendStatus := w, send := update s.send i p } := by
  simp only [step, Option.map_eq_some', Prod.exists]
  exact exists₂_congr fun _ _ => and_congr_right fun _ => eq_comm

theorem step_close_eq_some {s s' : State ι κ} {j : κ} {a : CloseAct} :
    step K s (.close j a) = some s' ↔ ∃ w p, closeStep K s.sendStatus a (s.close j) = some (w, p) ∧
      s' = { s with sendStatus := w, close := update s.close j p } := by
  simp only [step, Option.map_eq_some', Prod.exists]
  exact exists₂_congr fun _ _ => and_congr_right fun _ => eq_comm

end Sirikata.Network.SendStatus

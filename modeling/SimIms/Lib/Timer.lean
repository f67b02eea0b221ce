import Mathlib.Data.Nat.Notation

/-!
# Timers with a queue of handlers

A timer waits for at most one deadline. When the deadline has passed, the wait completes
and its handler is queued; it runs some time later. Cancelling or rearming a timer aborts
the wait, but a handler that is already queued still runs.
-/

namespace Lib

structure Timer where
  deadline : Option ℕ
  queued : ℕ
deriving DecidableEq, Repr

namespace Timer

/-- A timer that waits for nothing. -/
def idle : Timer := ⟨none, 0⟩

def cancel (timer : Timer) : Timer := { timer with deadline := none }

/-- Wait until `deadline`; a wait in progress is aborted. -/
def arm (timer : Timer) (deadline : ℕ) : Timer := { timer with deadline := some deadline }

/-- The wait completes, once its deadline has passed. -/
def expire (timer : Timer) (now : ℕ) : Option Timer :=
  match timer.deadline with
  | none => none
  | some deadline =>
      if deadline ≤ now then some ⟨none, timer.queued + 1⟩ else none

/-- A queued handler is taken from the queue to run. -/
def dequeue (timer : Timer) : Option Timer :=
  match timer.queued with
  | 0 => none
  | queued + 1 => some { timer with queued }

/-- The wait completes, and its handler runs at once. -/
def fire (timer : Timer) (now : ℕ) : Option Timer := (timer.expire now).bind dequeue

/-- The handler will run. -/
def Armed (timer : Timer) : Prop := timer.deadline.isSome ∨ 0 < timer.queued

/-- The second timer has no wait and no handler that the first one has not. -/
structure Covers (timer other : Timer) : Prop where
  deadline : ∀ deadline, other.deadline = some deadline → timer.deadline = some deadline
  queued : other.queued ≤ timer.queued

theorem covers_refl (timer : Timer) : timer.Covers timer := ⟨fun _ h => h, Nat.le_refl _⟩

theorem covers_cancel (timer : Timer) : timer.Covers timer.cancel :=
  ⟨fun _ h => (Option.some_ne_none _ h.symm).elim, Nat.le_refl _⟩

/-- A handler that runs has been queued. -/
theorem dequeue_eq_some {timer other : Timer} (h : timer.dequeue = some other) :
    0 < timer.queued ∧ timer.Covers other := by
  rw [dequeue] at h
  split at h
  · cases h
  · rename_i queued hqueued
    cases h
    rw [hqueued]
    exact ⟨Nat.succ_pos _, fun _ h => h, by rw [hqueued]; exact Nat.le_succ _⟩

theorem expire_eq_some {timer other : Timer} {now : ℕ} (h : timer.expire now = some other) :
    ∃ deadline, timer.deadline = some deadline ∧ deadline ≤ now ∧ other.deadline = none := by
  rw [expire] at h
  split at h
  · cases h
  · rename_i deadline hdeadline
    obtain ⟨hle, heq⟩ := Option.ite_none_right_eq_some.mp h
    cases heq
    exact ⟨deadline, hdeadline, hle, rfl⟩

/-- A timer that fires is due, and waits for nothing then. -/
theorem fire_eq_some {timer other : Timer} {now : ℕ} (h : timer.fire now = some other) :
    ∃ deadline, timer.deadline = some deadline ∧ deadline ≤ now ∧
      timer.expire now = some ⟨none, timer.queued + 1⟩ ∧ other = ⟨none, timer.queued⟩ := by
  obtain ⟨expired, hexpire, hdequeue⟩ := Option.bind_eq_some_iff.mp h
  obtain ⟨deadline, hdeadline, hle, -⟩ := expire_eq_some hexpire
  have hexpired : timer.expire now = some ⟨none, timer.queued + 1⟩ := by
    rw [expire, hdeadline]
    exact if_pos hle
  rw [hexpired] at hexpire
  cases hexpire
  cases hdequeue
  exact ⟨deadline, hdeadline, hle, hexpired, rfl⟩

theorem armed_expire {timer other : Timer} {now : ℕ} (h : timer.expire now = some other) :
    other.Armed := by
  rw [expire] at h
  split at h
  · cases h
  · cases (Option.ite_none_right_eq_some.mp h).2
    exact .inr (Nat.succ_pos _)

end Timer
end Lib

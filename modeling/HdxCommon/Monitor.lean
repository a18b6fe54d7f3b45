/-
Monitors: a mutex with one condition variable.

* `Monitor.wait` — release the mutex and sleep, in one step;
* `Monitor.signal` — wake one sleeper, which one is not specified;
* `Monitor.wake` — a sleeper wakes up without a signal.

An operation that would block has no result.  A thread that has been woken has
to take the mutex again before it goes on.
-/
import Mathlib.Tactic

/-- The owner of the mutex and the threads that sleep; nobody sleeps twice, and
the owner does not sleep. -/
@[ext] structure Monitor (τ : Type*) where
  owner : Option τ
  sleepers : List τ
  nodup : sleepers.Nodup
  awake : ∀ t, owner = some t → t ∉ sleepers

namespace Monitor

variable {τ : Type*} [DecidableEq τ] {m m' : Monitor τ} {t u : τ}

/-- Nobody has the mutex and nobody sleeps. -/
def free : Monitor τ := ⟨none, [], List.nodup_nil, fun _ h => nomatch h⟩

def lock (t : τ) (m : Monitor τ) : Option (Monitor τ) :=
  if h : m.owner = none ∧ t ∉ m.sleepers then
    some ⟨some t, m.sleepers, m.nodup, fun _ hu => Option.some.inj hu ▸ h.2⟩
  else none

def unlock (t : τ) (m : Monitor τ) : Option (Monitor τ) :=
  if m.owner = some t then some ⟨none, m.sleepers, m.nodup, fun _ h => nomatch h⟩ else none

def wait (t : τ) (m : Monitor τ) : Option (Monitor τ) :=
  if h : m.owner = some t then
    some ⟨none, t :: m.sleepers, List.nodup_cons.mpr ⟨m.awake t h, m.nodup⟩, fun _ h => nomatch h⟩
  else none

def wake (t : τ) (m : Monitor τ) : Option (Monitor τ) :=
  if t ∈ m.sleepers then
    some ⟨m.owner, m.sleepers.erase t, m.nodup.erase t,
      fun u hu hmem => m.awake u hu (List.mem_of_mem_erase hmem)⟩
  else none

/-- A signal wakes `t`, if anybody sleeps. -/
def signal (t : τ) (m : Monitor τ) : Option (Monitor τ) :=
  if m.sleepers = [] then some m else m.wake t

/-! ### What the operations do -/

theorem lock_inv (h : m.lock t = some m') :
    m.owner = none ∧ t ∉ m.sleepers ∧ m'.owner = some t ∧ m'.sleepers = m.sleepers := by
  unfold lock at h
  split at h
  · rename_i hfree
    cases h
    exact ⟨hfree.1, hfree.2, rfl, rfl⟩
  · cases h

theorem unlock_inv (h : m.unlock t = some m') :
    m.owner = some t ∧ m'.owner = none ∧ m'.sleepers = m.sleepers := by
  unfold unlock at h
  split at h
  · rename_i howner
    cases h
    exact ⟨howner, rfl, rfl⟩
  · cases h

theorem wait_inv (h : m.wait t = some m') :
    m.owner = some t ∧ m'.owner = none ∧ m'.sleepers = t :: m.sleepers := by
  unfold wait at h
  split at h
  · rename_i howner
    cases h
    exact ⟨howner, rfl, rfl⟩
  · cases h

theorem wake_inv (h : m.wake t = some m') :
    t ∈ m.sleepers ∧ m'.owner = m.owner ∧
      ∀ u, u ∈ m'.sleepers ↔ u ∈ m.sleepers ∧ u ≠ t := by
  unfold wake at h
  split at h
  · rename_i hmem
    cases h
    refine ⟨hmem, rfl, fun u => ?_⟩
    rw [m.nodup.mem_erase_iff, and_comm]
  · cases h

theorem signal_inv (h : m.signal t = some m') :
    m'.owner = m.owner ∧ ∀ u, u ∈ m'.sleepers ↔ u ∈ m.sleepers ∧ u ≠ t := by
  unfold signal at h
  split at h
  · rename_i hnil
    cases h
    exact ⟨rfl, fun u => by simp [hnil]⟩
  · exact (wake_inv h).2

end Monitor

/-
Counted loops, and a ledger of the resources that a program acquires in them.

* `forEach`, `forDown`, `tryEach` — the loops `for (i = 0; i < n; i++)`, the same
  downwards, and with a return from the body;
* `first_failure` — every round succeeds, or there is a first one that fails;
* `Ledger` — what has been acquired and what has been released, in order;
* `Ledger.Settled` — everything has been released exactly once.
-/
import Mathlib.Data.List.Nodup
import Mathlib.Data.List.Perm.Basic
import Mathlib.Data.Nat.Find

section Counted

variable {σ ρ : Type*} {body : ℕ → σ → Option σ} {round : ℕ → σ → Option (Option ρ × σ)}
  {S : ℕ → σ} {n k : ℕ} {r : ρ} {t : σ}

/-- `for (i = 0; i < n; i++)`, where a body can have a fault. -/
def forEach (body : ℕ → σ → Option σ) : ℕ → σ → Option σ
  | 0, s => some s
  | n + 1, s => (forEach body n s).bind (body n)

/-- `for (i = n - 1; i >= 0; i--)`. -/
def forDown (body : ℕ → σ → Option σ) : ℕ → σ → Option σ
  | 0, s => some s
  | n + 1, s => (body n s).bind (forDown body n)

/-- `for (i = 0; i < n; i++)`, where a body can have a fault or return. -/
def tryEach (round : ℕ → σ → Option (Option ρ × σ)) : ℕ → σ → Option (Option ρ × σ)
  | 0, s => some (none, s)
  | n + 1, s =>
    match tryEach round n s with
    | some (none, s) => round n s
    | returned => returned

/-- A loop whose rounds lead from `S i` to `S (i + 1)`. -/
theorem forEach_eq (h : ∀ i < n, body i (S i) = some (S (i + 1))) :
    forEach body n (S 0) = some (S n) := by
  induction n with
  | zero => rfl
  | succ n ih =>
    rw [forEach, ih fun i hi => h i (by omega)]
    exact h n (Nat.lt_succ_self n)

theorem tryEach_eq (h : ∀ i < n, round i (S i) = some (none, S (i + 1))) :
    tryEach round n (S 0) = some (none, S n) := by
  induction n with
  | zero => rfl
  | succ n ih =>
    rw [tryEach, ih fun i hi => h i (by omega)]
    exact h n (Nat.lt_succ_self n)

/-- The loop ends at a round that does not go on to the next. -/
theorem tryEach_stop {o : Option (Option ρ × σ)} (hk : k < n)
    (h : ∀ i < k, round i (S i) = some (none, S (i + 1))) (hround : round k (S k) = o)
    (hstop : ∀ s, o ≠ some (none, s)) : tryEach round n (S 0) = o := by
  induction n with
  | zero => omega
  | succ n ih =>
    rw [tryEach]
    obtain hlt | rfl := Nat.lt_succ_iff_lt_or_eq.mp hk
    · rw [ih hlt]
      split
      · exact absurd rfl (hstop _)
      · rfl
    · rw [tryEach_eq h]
      exact hround

/-- A round that returns ends the loop. -/
theorem tryEach_return (hk : k < n) (h : ∀ i < k, round i (S i) = some (none, S (i + 1)))
    (hround : round k (S k) = some (some r, t)) : tryEach round n (S 0) = some (some r, t) :=
  tryEach_stop hk h hround nofun

/-- And so does a round with a fault. -/
theorem tryEach_fault (hk : k < n) (h : ∀ i < k, round i (S i) = some (none, S (i + 1)))
    (hround : round k (S k) = none) : tryEach round n (S 0) = none :=
  tryEach_stop hk h hround nofun

/-- What holds before a loop and is kept by its rounds holds after it. -/
theorem forEach_inv (I : ℕ → σ → Prop) {s : σ}
    (hround : ∀ i s s', i < n → I i s → body i s = some s' → I (i + 1) s') (hs : I 0 s)
    (h : forEach body n s = some t) : I n t := by
  induction n generalizing t with
  | zero =>
    cases h
    exact hs
  | succ n ih =>
    obtain ⟨s', hloop, hlast⟩ := Option.bind_eq_some_iff.mp h
    exact hround n s' t (Nat.lt_succ_self n)
      (ih (fun i s s' hi => hround i s s' (by omega)) hloop) hlast

/-- Every round succeeds, or there is a first one that does not. -/
theorem first_failure (ok : ℕ → Prop) [DecidablePred ok] (n : ℕ) :
    (∀ i < n, ok i) ∨ ∃ k < n, (∀ i < k, ok i) ∧ ¬ ok k := by
  by_cases h : ∃ k, k < n ∧ ¬ ok k
  · have hspec := Nat.find_spec h
    refine Or.inr ⟨Nat.find h, hspec.1, ?_, hspec.2⟩
    intro i hi
    by_contra hno
    exact Nat.find_min h hi ⟨Nat.lt_trans hi hspec.1, hno⟩
  · grind

end Counted

/-! ### The ledger -/

/-- What has been acquired and what has been released. -/
structure Ledger (ρ : Type*) where
  acquired : List ρ
  released : List ρ

namespace Ledger

variable {ρ : Type*} {l : Ledger ρ} {r : ρ}

def empty : Ledger ρ := ⟨[], []⟩

def acquire (l : Ledger ρ) (r : ρ) : Ledger ρ := { l with acquired := l.acquired ++ [r] }

def release (l : Ledger ρ) (r : ρ) : Ledger ρ := { l with released := l.released ++ [r] }

def releaseOpt (l : Ledger ρ) : Option ρ → Ledger ρ
  | none => l
  | some r => l.release r

/-- What has been acquired has been released exactly once, and nothing else has
been released. -/
def Settled (l : Ledger ρ) : Prop := l.acquired.Nodup ∧ l.released.Perm l.acquired

/-- What has been acquired and not been released. -/
def Live (l : Ledger ρ) (r : ρ) : Prop := r ∈ l.acquired ∧ r ∉ l.released

/-- Nothing that is still held is settled. -/
theorem Settled.not_live (h : l.Settled) : ¬ l.Live r := by
  rintro ⟨hmem, hno⟩
  exact hno (h.2.mem_iff.mpr hmem)

/-- What is released in the reverse order. -/
theorem settled_reverse {rs : List ρ} (h : rs.Nodup) : Settled ⟨rs, rs.reverse⟩ :=
  ⟨h, rs.reverse_perm⟩

theorem settled_empty : (empty : Ledger ρ).Settled := ⟨List.nodup_nil, .nil⟩

end Ledger

/-
Infinite executions of threads under a fair scheduler.

At each time the scheduler picks an input; an input that is not possible in the state
of that time leaves it as it is, as a thread that is blocked.

* `stateAt`, `outputAt` — the execution that the inputs give;
* `Fair` — every thread is picked again and again;
* `eventually_of_rank` — the rule of progress: a rank that never increases, and that
  the thread which is to help decreases when it is picked.
-/
import Mathlib.Tactic
import HdxCommon.Runs

section Liveness

variable {σ ι ω θ : Type*} {step : σ → ι → Option (σ × List ω)} {s₀ : σ} {acts : ℕ → ι}

/-- What an input does, nothing if it is not possible. -/
def advance (step : σ → ι → Option (σ × List ω)) (s : σ) (i : ι) : σ × List ω :=
  (step s i).getD (s, [])

/-- The state at time `n`. -/
def stateAt (step : σ → ι → Option (σ × List ω)) (s₀ : σ) (acts : ℕ → ι) : ℕ → σ
  | 0 => s₀
  | n + 1 => (advance step (stateAt step s₀ acts n) (acts n)).1

/-- The outputs of the step at time `n`. -/
def outputAt (step : σ → ι → Option (σ × List ω)) (s₀ : σ) (acts : ℕ → ι) (n : ℕ) : List ω :=
  (advance step (stateAt step s₀ acts n) (acts n)).2

/-- A step is taken, or the state stays. -/
theorem stateAt_succ (n : ℕ) :
    step (stateAt step s₀ acts n) (acts n) =
        some (stateAt step s₀ acts (n + 1), outputAt step s₀ acts n) ∨
      step (stateAt step s₀ acts n) (acts n) = none ∧
        stateAt step s₀ acts (n + 1) = stateAt step s₀ acts n ∧
        outputAt step s₀ acts n = [] := by
  rw [stateAt, outputAt, advance]
  cases h : step (stateAt step s₀ acts n) (acts n) with
  | none => exact Or.inr ⟨rfl, rfl, rfl⟩
  | some r => exact Or.inl rfl

/-- What is put out at time `n` is put out by a step. -/
theorem step_of_output {n : ℕ} {e : ω} (he : e ∈ outputAt step s₀ acts n) :
    step (stateAt step s₀ acts n) (acts n) =
      some (stateAt step s₀ acts (n + 1), outputAt step s₀ acts n) := by
  obtain hs | ⟨-, -, ho⟩ := @stateAt_succ _ _ _ step s₀ acts n
  · exact hs
  · rw [ho] at he
    cases he

/-- What every step keeps holds from some time on, if it holds then. -/
theorem stateAt_inv (I : σ → Prop) {n m : ℕ} (hnm : n ≤ m)
    (hstep : ∀ k, n ≤ k → k < m → I (stateAt step s₀ acts k) →
      ∀ s' o, step (stateAt step s₀ acts k) (acts k) = some (s', o) → I s')
    (hn : I (stateAt step s₀ acts n)) : I (stateAt step s₀ acts m) := by
  induction m, hnm using Nat.le_induction with
  | base => exact hn
  | succ m hm ih =>
    have hI := ih fun k hk hkm => hstep k hk (Nat.lt_succ_of_lt hkm)
    obtain hs | ⟨-, hs, -⟩ := @stateAt_succ _ _ _ step s₀ acts m
    · exact hstep m hm (Nat.lt_succ_self m) hI _ _ hs
    · rwa [hs]

/-- A stretch of the execution in which every input is possible. -/
theorem stateAt_exec {is : List ι} {os : List ω} {s : σ} {n : ℕ}
    (he : exec step (stateAt step s₀ acts n) is = some (s, os))
    (hacts : ∀ i (hi : i < is.length), acts (n + i) = is[i]) :
    stateAt step s₀ acts (n + is.length) = s ∧
      ∀ i < is.length, outputAt step s₀ acts (n + i) ⊆ os := by
  induction is generalizing n os with
  | nil =>
    cases he
    exact ⟨rfl, by simp⟩
  | cons a is ih =>
    simp only [exec, Option.bind_eq_bind, Option.bind_eq_some_iff, Prod.exists] at he
    obtain ⟨s₁, o, hs, t, os', he, hrest⟩ := he
    cases hrest
    have hadv : advance step (stateAt step s₀ acts n) (acts n) = (s₁, o) := by
      rw [show acts n = a from hacts 0 (by simp), advance, hs]
      rfl
    have hnext : stateAt step s₀ acts (n + 1) = s₁ := congrArg Prod.fst hadv
    have hout : outputAt step s₀ acts n = o := congrArg Prod.snd hadv
    obtain ⟨hend, hmem⟩ := ih (hnext ▸ he) fun i hi => by
      rw [show n + 1 + i = n + (i + 1) by omega, hacts (i + 1) (by simpa using hi)]
      rfl
    refine ⟨by rw [List.length_cons, ← hend]; congr 1; omega, ?_⟩
    rintro (_ | i) hi
    · rw [Nat.add_zero, hout]
      exact List.subset_append_left _ _
    · rw [show n + (i + 1) = n + 1 + i by omega]
      exact List.Subset.trans (hmem i (by simpa using hi)) (List.subset_append_right _ _)

/-- Every thread is picked again and again. -/
def Fair (thread : ι → Option θ) (acts : ℕ → ι) : Prop :=
  ∀ t n, ∃ m, n ≤ m ∧ thread (acts m) = some t

/-- **The rule of progress**: as long as `P` holds, the rank does not increase, and it
decreases when the thread that is to help is picked; only then may that be another
one.  So the goal is reached. -/
theorem eventually_of_rank {thread : ι → Option θ} (hfair : Fair thread acts)
    (P goal : ℕ → Prop) (rank : ℕ → ℕ) (help : ℕ → θ) {n : ℕ}
    (hkeep : ∀ m, n ≤ m → P m → goal m ∨ P (m + 1) ∧
      (rank (m + 1) < rank m ∨ rank (m + 1) = rank m ∧ help (m + 1) = help m))
    (hhelp : ∀ m, n ≤ m → P m → thread (acts m) = some (help m) →
      goal m ∨ P (m + 1) ∧ rank (m + 1) < rank m)
    (hn : P n) : ∃ m, n ≤ m ∧ goal m := by
  -- by induction on the rank at the start
  suffices h : ∀ r m, rank m ≤ r → n ≤ m → P m → ∃ k, m ≤ k ∧ goal k from
    h (rank n) n le_rfl le_rfl hn
  intro r
  induction r using Nat.strong_induction_on with
  | _ r ih =>
    intro m hr hnm hm
    obtain ⟨k, hmk, hk⟩ := hfair (help m) m
    -- until the helper is picked, the goal is reached, the rank decreases, or nothing changes
    have hwait : ∀ j, m ≤ j → j ≤ k → (∃ k, m ≤ k ∧ goal k) ∨
        P j ∧ rank j = rank m ∧ help j = help m := by
      intro j hmj
      induction j, hmj using Nat.le_induction with
      | base => exact fun _ => Or.inr ⟨hm, rfl, rfl⟩
      | succ j hmj ihj =>
        intro hjk
        obtain hgoal | ⟨hP, hrank, hhelper⟩ := ihj (by omega)
        · exact Or.inl hgoal
        obtain hgoal | ⟨hP', hless | ⟨hsame, hsame'⟩⟩ := hkeep j (by omega) hP
        · exact Or.inl ⟨j, hmj, hgoal⟩
        · obtain ⟨k', hk', hgoal⟩ := ih (rank (j + 1)) (by omega) (j + 1) le_rfl (by omega) hP'
          exact Or.inl ⟨k', by omega, hgoal⟩
        · exact Or.inr ⟨hP', hsame.trans hrank, hsame'.trans hhelper⟩
    obtain hgoal | ⟨hP, hrank, hhelper⟩ := hwait k hmk le_rfl
    · exact hgoal
    obtain hgoal | ⟨hP', hless⟩ := hhelp k (by omega) hP (hhelper ▸ hk)
    · exact ⟨k, hmk, hgoal⟩
    · obtain ⟨k', hk', hgoal⟩ := ih (rank (k + 1)) (by omega) (k + 1) le_rfl (by omega) hP'
      exact ⟨k', by omega, hgoal⟩

end Liveness

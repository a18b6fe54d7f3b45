/-
Loops and runs.

* `loop` — a `while` loop as repeated rounds, with a bound on their number;
  `loop_spec` is the rule of invariant and variant;
* `Runs step G s₀ is os s` — a run of a step function with inputs `is` and
  outputs `os`, every step of which meets the guard `G`; `Runs.inv` is the
  invariant rule over state and history;
* `exec` — the same run computed, for concrete inputs (`runs_of_exec`).
-/
import Mathlib.Tactic

section Loop

variable {σ : Type*} {round : σ → Option σ}

/-- Repeat `round` until it answers `none`; `none` if that takes `n` rounds or
more. -/
def loop (round : σ → Option σ) : ℕ → σ → Option σ
  | 0, _ => none
  | n + 1, s =>
    match round s with
    | none => some s
    | some s' => loop round n s'

attribute [local simp] loop

/-- A loop whose first round is not entered ends where it begins. -/
theorem loop_of_stop {round : σ → Option σ} {n : ℕ} {s t : σ} (hstop : round s = none)
    (h : loop round n s = some t) : t = s := by
  cases n with
  | zero => exact absurd h (by simp)
  | succ n =>
    rw [loop, hstop] at h
    exact (Option.some.inj h).symm

/-- What every round keeps holds when a loop has ended. -/
theorem loop_inv (I : σ → Prop) (hround : ∀ s s', I s → round s = some s' → I s') {n : ℕ} {s t : σ}
    (h : loop round n s = some t) (hs : I s) : I t := by
  induction n generalizing s with
  | zero => exact absurd h (by simp)
  | succ n ih =>
    rw [loop] at h
    split at h
    next =>
      cases h
      exact hs
    next s' hs' => exact ih h (hround s s' hs hs')

/-- The rule for loops: under an invariant `I` that makes the variant `μ`
decrease, a loop with more rounds than `μ` says ends, in a state that meets the
invariant and has no further round. -/
theorem loop_spec (I : σ → Prop) (μ : σ → ℕ)
    (hround : ∀ s s', I s → round s = some s' → I s' ∧ μ s' < μ s) :
    ∀ {n : ℕ} {s : σ}, I s → μ s < n →
      ∃ t, loop round n s = some t ∧ I t ∧ round t = none := by
  intro n
  induction n with
  | zero =>
    intro s _ hlt
    omega
  | succ n ih =>
    intro s hI hlt
    cases hr : round s with
    | none => exact ⟨s, by rw [loop, hr], hI, hr⟩
    | some s' =>
      obtain ⟨hI', hμ⟩ := hround s s' hI hr
      obtain ⟨t, ht, hIt, hend⟩ := ih hI' (by omega)
      exact ⟨t, by rw [loop, hr]; exact ht, hIt, hend⟩

end Loop

section Runs

variable {σ ι ω : Type*} {step : σ → ι → Option (σ × List ω)} {G G' : σ → ι → Prop} {s₀ s s' : σ}
  {is : List ι} {os : List ω}

/-- `Runs step G s₀ is os s`: from `s₀` the inputs `is` lead to `s` with
outputs `os`, and every step meets `G`. -/
inductive Runs (step : σ → ι → Option (σ × List ω)) (G : σ → ι → Prop) (s₀ : σ) :
    List ι → List ω → σ → Prop where
  | nil : Runs step G s₀ [] [] s₀
  | snoc {is : List ι} {os : List ω} {s s' : σ} {i : ι} {o : List ω} :
      Runs step G s₀ is os s → G s i → step s i = some (s', o) →
      Runs step G s₀ (is ++ [i]) (os ++ o) s'

theorem Runs.single {i : ι} {o : List ω} (hG : G s₀ i) (hs : step s₀ i = some (s, o)) :
    Runs step G s₀ [i] o s := by
  have h := Runs.snoc .nil hG hs
  simpa using h

/-- The invariant rule: what holds at the start and is kept by every step that
meets the guard holds along every run. -/
theorem Runs.inv (I : List ι → List ω → σ → Prop) (h₀ : I [] [] s₀)
    (hstep : ∀ is os s i s' o, I is os s → G s i → step s i = some (s', o) →
      I (is ++ [i]) (os ++ o) s') (h : Runs step G s₀ is os s) : I is os s := by
  induction h with
  | nil => exact h₀
  | snoc _ hG hs ih => exact hstep _ _ _ _ _ _ ih hG hs

theorem Runs.mono (hG : ∀ s i, G s i → G' s i) (h : Runs step G s₀ is os s) :
    Runs step G' s₀ is os s := by
  induction h with
  | nil => exact .nil
  | snoc _ hg hs ih => exact .snoc ih (hG _ _ hg) hs

/-- An input of the first kind comes, and after it none of the second. -/
def Since (on off : ι → Prop) (is : List ι) : Prop :=
  ∃ is₁ i is₂, is = is₁ ++ i :: is₂ ∧ on i ∧ ∀ j ∈ is₂, ¬ off j

/-- What some inputs begin and others end goes back to one of the former. -/
theorem Runs.since {P : σ → Prop} {on off : ι → Prop} (h₀ : ¬ P s₀)
    (hstep : ∀ s i s' o, step s i = some (s', o) → P s' → (P s ∨ on i) ∧ ¬ off i)
    (h : Runs step G s₀ is os s) (hP : P s) : Since on off is := by
  induction h with
  | nil => exact absurd hP h₀
  | @snoc is _ s s' i o _ _ hs ih =>
    obtain ⟨hP' | hi, hoff⟩ := hstep s i s' o hs hP
    · obtain ⟨is₁, j, is₂, rfl, hj, hrest⟩ := ih hP'
      refine ⟨is₁, j, is₂ ++ [i], by simp, hj, fun k hk => ?_⟩
      rcases List.mem_append.mp hk with hk | hk
      · exact hrest k hk
      · rwa [List.mem_singleton.mp hk]
    · exact ⟨is, i, [], rfl, hi, by simp⟩

/-- The last step of a run. -/
theorem Runs.snoc_inv {i : ι} {os' : List ω} (h : Runs step G s₀ (is ++ [i]) os' s') :
    ∃ os s o, Runs step G s₀ is os s ∧ G s i ∧ step s i = some (s', o) ∧ os' = os ++ o := by
  generalize hl : is ++ [i] = l at h
  cases h with
  | nil => simp at hl
  | snoc h hG hs =>
    obtain ⟨rfl, hi⟩ := List.append_inj' hl rfl
    obtain rfl := List.singleton_inj.mp hi
    exact ⟨_, _, _, h, hG, hs, rfl⟩

/-- A run passes through the state that its first inputs lead to. -/
theorem Runs.of_append {is' : List ι} (h : Runs step G s₀ (is ++ is') os s) :
    ∃ os' s', Runs step G s₀ is os' s' := by
  induction is' using List.reverseRecOn generalizing os s with
  | nil =>
    rw [List.append_nil] at h
    exact ⟨os, s, h⟩
  | append_singleton is' i ih =>
    rw [← List.append_assoc] at h
    obtain ⟨os', s', -, hrun, -⟩ := h.snoc_inv
    exact ih hrun

/-- The inputs determine the run. -/
theorem Runs.det {os' : List ω} (h : Runs step G s₀ is os s) (h' : Runs step G' s₀ is os' s') :
    os = os' ∧ s = s' := by
  induction h generalizing os' s' with
  | nil =>
    generalize hl : ([] : List ι) = l at h'
    cases h' with
    | nil => exact ⟨rfl, rfl⟩
    | snoc => simp at hl
  | snoc _ _ hs ih =>
    obtain ⟨os₁, s₁, o₁, h₁, -, hs₁, rfl⟩ := h'.snoc_inv
    obtain ⟨rfl, rfl⟩ := ih h₁
    rw [hs, Option.some.injEq, Prod.mk.injEq] at hs₁
    exact ⟨by rw [hs₁.2], hs₁.1⟩

/-- The run over a list of inputs, computed. -/
def exec (step : σ → ι → Option (σ × List ω)) : σ → List ι → Option (σ × List ω)
  | s, [] => some (s, [])
  | s, i :: is => do
    let (s', o) ← step s i
    let (t, os) ← exec step s' is
    return (t, o ++ os)

/-- Every step of the computed run meets the guard. -/
def Guarded (step : σ → ι → Option (σ × List ω)) (G : σ → ι → Prop) : σ → List ι → Prop
  | _, [] => True
  | s, i :: is => G s i ∧ ∀ r ∈ step s i, Guarded step G r.1 is

instance Guarded.decidable [∀ s i, Decidable (G s i)] :
    (s : σ) → (is : List ι) → Decidable (Guarded step G s is)
  | _, [] => .isTrue trivial
  | s, i :: is =>
    match h : step s i with
    | none => decidable_of_iff (G s i) (by simp [Guarded, h])
    | some r =>
      have := Guarded.decidable r.1 is
      decidable_of_iff (G s i ∧ Guarded step G r.1 is) (by simp [Guarded, h])

theorem runs_of_exec_guarded {is' : List ι} {os' : List ω} (h : Runs step G s₀ is os s)
    (he : exec step s is' = some (s', os')) (hG : Guarded step G s is') :
    Runs step G s₀ (is ++ is') (os ++ os') s' := by
  induction is' generalizing is os s os' with
  | nil =>
    simp only [exec, Option.some.injEq, Prod.mk.injEq] at he
    obtain ⟨rfl, rfl⟩ := he
    simpa using h
  | cons i is' ih =>
    simp only [exec, Option.bind_eq_bind, Option.bind_eq_some_iff, Prod.exists,
      Option.pure_def, Option.some.injEq, Prod.mk.injEq] at he
    obtain ⟨t, o, hs, t', os'', hrest, rfl, rfl⟩ := he
    have hrun := ih (.snoc h hG.1 hs) hrest (hG.2 (t, o) hs)
    simpa using hrun

theorem runs_of_exec (h : exec step s₀ is = some (s, os)) :
    Runs step (fun _ _ => True) s₀ is os s := by
  have hG : ∀ is s, Guarded step (fun _ _ => True) s is := by
    intro is
    induction is with
    | nil => exact fun _ => trivial
    | cons i is ih => exact fun s => ⟨trivial, fun r _ => ih r.1⟩
  exact runs_of_exec_guarded .nil h (hG is s₀)

/-- A run from its computed outputs, the guard checked along the way. -/
theorem exists_runs_of_outputs (h : (exec step s₀ is).map Prod.snd = some os)
    (hG : Guarded step G s₀ is) : ∃ s, Runs step G s₀ is os s := by
  obtain ⟨⟨s, os'⟩, he, rfl⟩ := Option.map_eq_some_iff.mp h
  exact ⟨s, runs_of_exec_guarded .nil he hG⟩

theorem exists_runs_of_exec (step : σ → ι → Option (σ × List ω)) (s₀ : σ) (is : List ι)
    (h : (exec step s₀ is).isSome = true) :
    ∃ s os, Runs step (fun _ _ => True) s₀ is os s := by
  obtain ⟨⟨s, os⟩, he⟩ := Option.isSome_iff_exists.mp h
  exact ⟨s, os, runs_of_exec he⟩

end Runs

/-
Buffers whose bounds are checked.

A buffer is the list of its elements.  An access that is not inside the buffer
has no result, so a program over buffers that has a result has stayed inside
all of them.

* `load`, `loadN` — one element, and a block of `n`;
* `store`, `storeN` — the same for writing; the size of a buffer never changes
  (`length_of_storeN`);
* `storeEach` — a loop that stores one element after the other; it stays inside
  exactly if the block does (`storeEach_eq_storeN`).
-/
import Mathlib.Tactic

section Buffers

variable {α : Type*} {b b' d : List α} {i j n : ℕ} {x : α}

/-! ### Blocks -/

def load (b : List α) (i : ℕ) : Option α := b[i]?

/-- `n` elements from offset `i` on. -/
def loadN (b : List α) (i n : ℕ) : Option (List α) :=
  if i + n ≤ b.length then some ((b.drop i).take n) else none

def store (b : List α) (i : ℕ) (x : α) : Option (List α) :=
  if i < b.length then some (b.set i x) else none

/-- The elements `d` from offset `i` on. -/
def storeN (b : List α) (i : ℕ) (d : List α) : Option (List α) :=
  if i + d.length ≤ b.length then some (b.take i ++ d ++ b.drop (i + d.length)) else none

@[simp] theorem isSome_load : (load b i).isSome = true ↔ i < b.length := by
  simp [load]

@[simp] theorem isSome_loadN : (loadN b i n).isSome = true ↔ i + n ≤ b.length := by
  unfold loadN
  split <;> simp_all

@[simp] theorem isSome_store : (store b i x).isSome = true ↔ i < b.length := by
  unfold store
  split <;> simp_all

@[simp] theorem isSome_storeN : (storeN b i d).isSome = true ↔ i + d.length ≤ b.length := by
  unfold storeN
  split <;> simp_all

theorem loadN_eq (h : i + n ≤ b.length) : loadN b i n = some ((b.drop i).take n) := if_pos h

theorem length_of_loadN (h : loadN b i n = some d) : d.length = n := by
  unfold loadN at h
  split at h
  · rw [← Option.some.inj h, List.length_take, List.length_drop]
    omega
  · exact absurd h (by simp)

theorem store_eq_some : store b i x = some b' ↔ i < b.length ∧ b' = b.set i x := by
  rw [store, Option.ite_none_right_eq_some, Option.some_inj, eq_comm (a := b')]

/-- The elements up to one that has been stored. -/
theorem take_set_succ (hi : i < b.length) : (b.set i x).take (i + 1) = b.take i ++ [x] := by
  rw [List.take_add_one, List.getElem?_set_self hi, List.take_set_of_le (Nat.le_refl i)]
  rfl

theorem length_of_store (h : store b i x = some b') : b'.length = b.length := by
  rw [(store_eq_some.mp h).2, List.length_set]

theorem length_of_storeN (h : storeN b i d = some b') : b'.length = b.length := by
  unfold storeN at h
  split at h
  · rw [← Option.some.inj h]
    simp only [List.length_append, List.length_take, List.length_drop]
    omega
  · exact absurd h (by simp)

/-- What lies before a block that is stored stays. -/
theorem take_of_storeN (h : storeN b i d = some b') (hj : j ≤ i) : b'.take j = b.take j := by
  unfold storeN at h
  split at h
  · rename_i hle
    rw [← Option.some.inj h, List.append_assoc, List.take_append_of_le_length, List.take_take,
      min_eq_left hj]
    rw [List.length_take]
    omega
  · exact absurd h (by simp)

theorem load_of_store_self (h : store b i x = some b') : load b' i = some x := by
  obtain ⟨hi, rfl⟩ := store_eq_some.mp h
  rw [load, List.getElem?_set_self hi]

theorem load_of_store_ne (h : store b i x = some b') (hij : i ≠ j) : load b' j = load b j := by
  obtain ⟨-, rfl⟩ := store_eq_some.mp h
  rw [load, load, List.getElem?_set_ne hij]

theorem load_of_storeN (h : storeN b i d = some b') (hj : j < i) : load b' j = load b j := by
  have htake := take_of_storeN h (Nat.succ_le_of_lt hj)
  rw [load, load, ← List.getElem?_take_of_lt (Nat.lt_succ_self j), htake,
    List.getElem?_take_of_lt (Nat.lt_succ_self j)]

/-! ### Programs -/

/-- The rule for `store`: what follows may use the size of the buffer. -/
theorem isSome_store_bind {β : Type*} {f : List α → Option β} (hi : i < b.length)
    (hf : ∀ b', b'.length = b.length → (f b').isSome = true) :
    ((store b i x).bind f).isSome = true := by
  obtain ⟨b', hb'⟩ := Option.isSome_iff_exists.mp (isSome_store.mpr hi)
  rw [hb', Option.bind_some]
  exact hf b' (length_of_store hb')

theorem isSome_storeN_bind {β : Type*} {f : List α → Option β} (hi : i + d.length ≤ b.length)
    (hf : ∀ b', b'.length = b.length → (f b').isSome = true) :
    ((storeN b i d).bind f).isSome = true := by
  obtain ⟨b', hb'⟩ := Option.isSome_iff_exists.mp (isSome_storeN.mpr hi)
  rw [hb', Option.bind_some]
  exact hf b' (length_of_storeN hb')

/-- The rule for `loadN`: what follows may use the size of the block. -/
theorem isSome_loadN_bind {β : Type*} {f : List α → Option β} (hi : i + n ≤ b.length)
    (hf : ∀ d, d.length = n → (f d).isSome = true) : ((loadN b i n).bind f).isSome = true := by
  obtain ⟨d, hd⟩ := Option.isSome_iff_exists.mp (isSome_loadN.mpr hi)
  rw [hd, Option.bind_some]
  exact hf d (length_of_loadN hd)

/-! ### Loops that load -/

/-- A loop that loads at each of some offsets. -/
theorem isSome_mapM_load (offsets : List ℕ) :
    (offsets.mapM fun k => load b (i + k)).isSome = true ↔
      ∀ k ∈ offsets, i + k < b.length := by
  induction offsets with
  | nil => simp
  | cons k offsets ih =>
    rw [List.mapM_cons, List.forall_mem_cons, ← ih, ← isSome_load]
    cases load b (i + k) with
    | none => simp
    | some x => cases offsets.mapM fun k => load b (i + k) <;> simp

/-! ### Loops that store -/

/-- The elements `d` one by one, from offset `i` on. -/
def storeEach (b : List α) (i : ℕ) : List α → Option (List α)
  | [] => some b
  | x :: d => do
    let b ← store b i x
    storeEach b (i + 1) d

/-- **A loop that stores each element** does what storing the block does, and
leaves the buffer if the block does not fit. -/
theorem storeEach_eq_storeN (h : i ≤ b.length) (d : List α) : storeEach b i d = storeN b i d := by
  induction d generalizing b i with
  | nil => simp [storeEach, storeN, h]
  | cons x d ih =>
    rw [storeEach]
    by_cases hi : i < b.length
    · have hset : i + 1 ≤ (b.set i x).length := by simpa using hi
      rw [store, if_pos hi, Option.bind_eq_bind, Option.bind_some, ih hset, storeN, storeN,
        List.length_set, List.length_cons]
      -- the two blocks fit together, and are the same
      have hfits : i + 1 + d.length ≤ b.length ↔ i + (d.length + 1) ≤ b.length := by omega
      simp only [hfits]
      split
      · have hdrop : (b.set i x).drop (i + 1 + d.length) = b.drop (i + (d.length + 1)) := by
          rw [List.drop_set_of_lt (by omega)]
          congr 1
          omega
        rw [take_set_succ hi, hdrop]
        simp
      · rfl
    · have hfull : ¬ i + (d.length + 1) ≤ b.length := by omega
      rw [store, if_neg hi, storeN, List.length_cons, if_neg hfull]
      rfl

/-- The buffer in which the first `n` elements have been stored. -/
def filled (f : ℕ → α) (b : List α) (n : ℕ) : List α := (List.range n).map f ++ b.drop n

@[simp] theorem filled_zero (f : ℕ → α) : filled f b 0 = b := by simp [filled]

theorem length_filled (f : ℕ → α) (hn : n ≤ b.length) : (filled f b n).length = b.length := by
  simp [filled, hn]

theorem load_filled (f : ℕ → α) (hi : i < n) : load (filled f b n) i = some (f i) := by
  simp [load, filled, List.getElem?_append_left, hi]

theorem load_filled_of_le (f : ℕ → α) (hi : n ≤ i) : load (filled f b n) i = load b i := by
  simp [load, filled, List.getElem?_append_right, hi]

theorem store_filled (f : ℕ → α) (hn : n < b.length) :
    store (filled f b n) n (f n) = some (filled f b (n + 1)) := by
  refine store_eq_some.mpr ⟨by rwa [length_filled f hn.le], ?_⟩
  have hdrop : b.drop n = b.get ⟨n, hn⟩ :: b.drop (n + 1) := List.drop_eq_getElem_cons hn
  rw [filled, filled, hdrop, List.set_append_right _ _ (by simp), List.length_map,
    List.length_range, Nat.sub_self, List.set_cons_zero, List.range_succ, List.map_append,
    List.append_assoc]
  rfl

end Buffers

/-
A block in chunks of a given size, the last of which may be shorter.

* `flatten_chunks` — the chunks, one after another, are the block.
-/
import Mathlib.Tactic

variable {α : Type*} {s : ℕ}

/-- Chunk `k`, counted from 0. -/
def nthChunk (s : ℕ) (b : List α) (k : ℕ) : List α := (b.drop (k * s)).take s

/-- How many chunks a block of `n` has. -/
def chunkCount (s n : ℕ) : ℕ := (n + s - 1) / s

theorem length_nthChunk (s : ℕ) (b : List α) (k : ℕ) :
    (nthChunk s b k).length = min s (b.length - k * s) := by
  rw [nthChunk, List.length_take, List.length_drop]

theorem flatten_map_nthChunk (s : ℕ) (b : List α) (m : ℕ) :
    ((List.range m).map (nthChunk s b)).flatten = b.take (m * s) := by
  induction m with
  | zero => simp
  | succ m ih =>
    rw [List.range_succ, List.map_append, List.flatten_append, ih, Nat.succ_mul, List.take_add]
    simp [nthChunk]

/-- Whole chunks, and a shorter one if something is left. -/
theorem chunkCount_eq (hs : 0 < s) (n : ℕ) :
    chunkCount s n = n / s + if n % s = 0 then 0 else 1 := by
  have hsplit := Nat.div_add_mod' n s
  have hmod := Nat.mod_lt n hs
  rw [chunkCount]
  split_ifs with hzero
  · refine Nat.div_eq_of_lt_le ?_ ?_
    · rw [Nat.add_zero]
      omega
    · rw [Nat.add_zero, Nat.succ_mul]
      omega
  · refine Nat.div_eq_of_lt_le ?_ ?_
    · rw [Nat.add_mul]
      omega
    · rw [Nat.succ_mul, Nat.add_mul]
      omega

theorem le_chunkCount_mul (hs : 0 < s) (n : ℕ) : n ≤ chunkCount s n * s := by
  have hsplit := Nat.div_add_mod' n s
  have hmod := Nat.mod_lt n hs
  rw [chunkCount_eq hs, Nat.add_mul]
  split_ifs
  · omega
  · omega

/-- **The chunks of a block are the block.** -/
theorem flatten_chunks (hs : 0 < s) (b : List α) :
    ((List.range (chunkCount s b.length)).map (nthChunk s b)).flatten = b := by
  rw [flatten_map_nthChunk, List.take_of_length_le (le_chunkCount_mul hs b.length)]

/-- The last chunk, if it is not whole. -/
theorem nthChunk_rest (hs : 0 < s) (b : List α) :
    nthChunk s b (b.length / s) = (b.drop (b.length / s * s)).take (b.length % s) := by
  have hsplit := Nat.div_add_mod' b.length s
  have hmod := Nat.mod_lt b.length hs
  have hlen : (b.drop (b.length / s * s)).length = b.length % s := by
    rw [List.length_drop]
    omega
  rw [nthChunk, List.take_of_length_le (by omega), List.take_of_length_le (by omega)]

/-- Where a chunk begins, if there is one. -/
theorem mul_lt_of_lt_chunkCount {n k : ℕ} (hs : 0 < s) (hk : k < chunkCount s n) : k * s < n := by
  have hsplit := Nat.div_add_mod' n s
  rw [chunkCount_eq hs] at hk
  split_ifs at hk with hzero
  · have hmul := Nat.mul_le_mul_right s (show k + 1 ≤ n / s by omega)
    rw [Nat.succ_mul] at hmul
    omega
  · have hmul := Nat.mul_le_mul_right s (show k ≤ n / s by omega)
    omega

theorem chunkCount_zero (hs : 0 < s) : chunkCount s 0 = 0 := Nat.div_eq_of_lt (by omega)

/-- One chunk, and those of the rest. -/
theorem chunkCount_of_pos {n : ℕ} (hs : 0 < s) (hn : 0 < n) :
    chunkCount s n = chunkCount s (n - s) + 1 := by
  rcases Nat.le_total s n with hle | hle
  · rw [chunkCount, chunkCount, show n + s - 1 = n - s + s - 1 + s by omega, Nat.add_div_right _ hs]
  · rw [Nat.sub_eq_zero_of_le hle, chunkCount_zero hs, chunkCount, Nat.zero_add]
    exact Nat.div_eq_of_lt_le (by omega) (by omega)

theorem nthChunk_succ (s : ℕ) (b : List α) (k : ℕ) :
    nthChunk s b (k + 1) = nthChunk s (b.drop s) k := by
  rw [nthChunk, nthChunk, List.drop_drop, Nat.succ_mul, Nat.add_comm]

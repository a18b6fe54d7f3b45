/-
A stream of bytes that is read in pieces.

* `Source.read` — a read gives one byte at least, and as many as it likes of those that
  are asked for;
* `readUntil` — the loop that reads on until a buffer is filled to a place;
* `readUntil_spec`, `readUntil_refused` — what the loop leaves in the buffer does not
  depend on how the stream is split.
-/
import HdxCommon.Buffers

/-- The bytes that are still to come, and how many each read gives at most. -/
structure Source where
  bytes : List UInt8
  splits : ℕ → ℕ

namespace Source

/-- A read of up to `n` bytes; there is none at the end of the stream. -/
def read (src : Source) (n : ℕ) : Option (List UInt8 × Source) :=
  if src.bytes = [] ∨ n = 0 then none
  else
    let r := max 1 (min (src.splits 0) (min n src.bytes.length))
    some (src.bytes.take r, ⟨src.bytes.drop r, fun k => src.splits (k + 1)⟩)

variable {src : Source} {n : ℕ}

theorem read_nil (h : src.bytes = []) (n : ℕ) : src.read n = none := if_pos (.inl h)

theorem bytes_of_read {d : List UInt8} {src' : Source} (h : src.read n = some (d, src')) :
    src.bytes = d ++ src'.bytes ∧ 1 ≤ d.length ∧ d.length ≤ n := by
  unfold read at h
  split_ifs at h with hend
  obtain ⟨hne, hn⟩ := not_or.mp hend
  have hpos := List.length_pos_iff.mpr hne
  cases h
  refine ⟨(List.take_append_drop _ _).symm, ?_, ?_⟩
  all_goals
    rw [List.length_take]
    omega

/-- A read takes between one byte and `n` off the stream. -/
theorem read_spec (hne : src.bytes ≠ []) (hn : n ≠ 0) :
    ∃ d src', src.read n = some (d, src') ∧ src.bytes = d ++ src'.bytes ∧ 1 ≤ d.length ∧
      d.length ≤ n := by
  have hsome : src.read n = some _ := if_neg (not_or.mpr ⟨hne, hn⟩)
  exact ⟨_, _, hsome, bytes_of_read hsome⟩

end Source

/-- `while (count < target)`: read on to `buf + count`, and give up at the end of the
stream or if the buffer does not pass the check.  `none` is a byte outside the buffer. -/
def readUntil (check : List UInt8 → Bool) (target : ℕ) (src : Source) (buf : List UInt8)
    (count : ℕ) : Option (Option (List UInt8) × Source) :=
  if count < target then
    match _h : src.read (target - count) with
    | none => some (none, src)
    | some (d, src') =>
      match storeN buf count d with
      | none => none
      | some buf' =>
        if check buf' then readUntil check target src' buf' (count + d.length)
        else some (none, src')
  else some (some buf, src)
termination_by target - count
decreasing_by
  have hlen := Source.bytes_of_read _h
  omega

/-- The buffer with `d` from `count` on. -/
def filledWith (buf : List UInt8) (count : ℕ) (d : List UInt8) : List UInt8 :=
  buf.take count ++ d ++ buf.drop (count + d.length)

variable {check : List UInt8 → Bool} {target count : ℕ} {src : Source} {buf : List UInt8}

theorem length_filledWith {d : List UInt8} (h : count + d.length ≤ buf.length) :
    (filledWith buf count d).length = buf.length := by
  simp only [filledWith, List.length_append, List.length_take, List.length_drop]
  omega

theorem storeN_eq_filledWith {d : List UInt8} (h : count + d.length ≤ buf.length) :
    storeN buf count d = some (filledWith buf count d) := if_pos h

theorem filledWith_nil (buf : List UInt8) (count : ℕ) : filledWith buf count [] = buf := by
  rw [filledWith, List.append_nil, List.length_nil, Nat.add_zero, List.take_append_drop]

theorem load_filledWith_self {x : UInt8} {d : List UInt8} (h : count ≤ buf.length) :
    load (filledWith buf count (x :: d)) count = some x := by
  have hlen : (buf.take count).length = count := by rw [List.length_take, min_eq_left h]
  rw [load, filledWith, List.append_assoc, List.getElem?_append_right (by rw [hlen]), hlen,
    Nat.sub_self]
  rfl

/-- What is filled in two steps. -/
theorem filledWith_filledWith {d e : List UInt8} (h : count + d.length ≤ buf.length) :
    filledWith (filledWith buf count d) (count + d.length) e = filledWith buf count (d ++ e) := by
  have hlen : (buf.take count ++ d).length = count + d.length := by
    rw [List.length_append, List.length_take]
    omega
  have htake : (filledWith buf count d).take (count + d.length) = buf.take count ++ d := by
    rw [filledWith, ← hlen, List.take_left]
  have hdrop : (filledWith buf count d).drop (count + d.length + e.length) =
      buf.drop (count + d.length + e.length) := by
    rw [filledWith, ← hlen, List.drop_length_add_append, hlen, List.drop_drop]
  rw [filledWith, htake, hdrop, filledWith, List.length_append]
  simp only [List.append_assoc, Nat.add_assoc]

theorem readUntil_done (h : ¬ count < target) :
    readUntil check target src buf count = some (some buf, src) := by
  rw [readUntil, if_neg h]

theorem readUntil_nil (hlt : count < target) (h : src.bytes = []) :
    readUntil check target src buf count = some (none, src) := by
  rw [readUntil, if_pos hlt]
  split
  · rfl
  · rename_i hread
    rw [Source.read_nil h] at hread
    cases hread

theorem readUntil_read {d : List UInt8} {src' : Source} (hlt : count < target)
    (hread : src.read (target - count) = some (d, src')) (hin : count + d.length ≤ buf.length) :
    readUntil check target src buf count =
      if check (filledWith buf count d) then
        readUntil check target src' (filledWith buf count d) (count + d.length)
      else some (none, src') := by
  rw [readUntil, if_pos hlt]
  split
  · rename_i hnone
    rw [hread] at hnone
    cases hnone
  · rename_i hsome
    rw [hread] at hsome
    cases hsome
    rw [storeN_eq_filledWith hin]

/-- **The buffer is filled with the bytes that come**, if they are enough, and if no part
of them is refused. -/
theorem readUntil_spec (hle : count ≤ target) (hin : target ≤ buf.length)
    (hcheck : ∀ k, 1 ≤ k → k ≤ target - count → k ≤ src.bytes.length →
      check (filledWith buf count (src.bytes.take k)) = true) :
    if target - count ≤ src.bytes.length then
      ∃ src', readUntil check target src buf count =
        some (some (filledWith buf count (src.bytes.take (target - count))), src') ∧
        src'.bytes = src.bytes.drop (target - count)
    else ∃ src', readUntil check target src buf count = some (none, src') := by
  generalize hn : target - count = n at hcheck ⊢
  induction n using Nat.strong_induction_on generalizing count src buf with
  | _ n ih =>
    by_cases hlt : count < target
    swap
    · obtain rfl : n = 0 := by omega
      rw [if_pos (Nat.zero_le _), readUntil_done hlt, List.take_zero,
        filledWith_nil]
      exact ⟨src, rfl, rfl⟩
    by_cases hnil : src.bytes = []
    · rw [readUntil_nil hlt hnil, hnil, if_neg (by simp; omega)]
      exact ⟨src, rfl⟩
    -- the first read, and the rest by induction
    obtain ⟨d, src', hread, hbytes, hone, hmost⟩ := Source.read_spec hnil
      (show target - count ≠ 0 by omega)
    have hd : src.bytes.take d.length = d := by rw [hbytes, List.take_left]
    have hlen : src.bytes.length = d.length + src'.bytes.length := by
      rw [hbytes, List.length_append]
    have hfill : count + d.length ≤ buf.length := by omega
    have hpass := hcheck d.length hone (by omega) (by omega)
    rw [hd] at hpass
    have hrest := @ih (n - d.length) (by omega) (count + d.length) src' (filledWith buf count d)
      (by omega) (by rw [length_filledWith hfill]; exact hin)
      (by omega) (fun k hk hkn hkl => by
        rw [filledWith_filledWith hfill]
        have hk' := hcheck (d.length + k) (by omega) (by omega) (by omega)
        rwa [hbytes, List.take_length_add_append] at hk')
    rw [readUntil_read hlt hread hfill, if_pos hpass]
    have hsplit : ∀ m, src.bytes.take (d.length + m) = d ++ src'.bytes.take m := fun m => by
      rw [hbytes, List.take_length_add_append]
    by_cases henough : n ≤ src.bytes.length
    · rw [if_pos (by omega), filledWith_filledWith hfill, ← hsplit] at hrest
      rw [if_pos henough]
      obtain ⟨src'', hread', hdrop⟩ := hrest
      have hadd : d.length + (n - d.length) = n := by omega
      rw [hadd] at hread'
      refine ⟨src'', hread', ?_⟩
      rw [hdrop, hbytes, ← hadd, List.drop_length_add_append, hadd]
    · rw [if_neg (by omega)] at hrest
      rw [if_neg henough]
      exact hrest

/-- **The loop gives up** if the buffer is refused as soon as a byte is read. -/
theorem readUntil_refused (hlt : count < target) (hin : target ≤ buf.length)
    (hcheck : ∀ k, 1 ≤ k → k ≤ src.bytes.length →
      check (filledWith buf count (src.bytes.take k)) = false) :
    ∃ src', readUntil check target src buf count = some (none, src') := by
  by_cases hnil : src.bytes = []
  · exact ⟨src, readUntil_nil hlt hnil⟩
  obtain ⟨d, src', hread, hbytes, hone, hmost⟩ := Source.read_spec hnil
    (show target - count ≠ 0 by omega)
  have hd : src.bytes.take d.length = d := by rw [hbytes, List.take_left]
  have hfail := hcheck d.length hone (by rw [hbytes, List.length_append]; omega)
  rw [hd] at hfail
  refine ⟨src', ?_⟩
  rw [readUntil_read hlt hread (by omega), hfail]
  rfl

/-- The loop only takes bytes off the stream. -/
theorem length_readUntil_le {r : Option (List UInt8)} {src' : Source}
    (h : readUntil check target src buf count = some (r, src')) :
    src'.bytes.length ≤ src.bytes.length := by
  fun_induction readUntil check target src buf count with
  | case1 | case5 => cases h; exact le_rfl
  | case2 => cases h
  | case3 src buf count hlt d src₁ hread buf' hstore hpass ih =>
    have hbytes := congrArg List.length (Source.bytes_of_read hread).1
    rw [List.length_append] at hbytes
    have := ih h
    omega
  | case4 src buf count hlt d src₁ hread buf' hstore hfail =>
    have hbytes := congrArg List.length (Source.bytes_of_read hread).1
    rw [List.length_append] at hbytes
    cases h
    omega

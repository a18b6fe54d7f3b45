/-
Byte strings as numbers and as files.

* `beNat`, `beBytes` — big-endian value of a byte string and the `k`-byte
  big-endian string of a number, inverse to each other;
* `leNat` — little-endian value;
* `ByteFile` — an open file, as its contents and a position, with `read`,
  `seek` and `write`; `getElem?_writeAt` says what a write leaves at each
  offset.
-/
import Mathlib.Tactic

/-! ### Numbers as byte strings -/

/-- The value of a byte string, most significant byte first. -/
def beNat (bs : List UInt8) : ℕ := bs.foldl (fun n b => 256 * n + b.toNat) 0

/-- The value of a byte string, least significant byte first. -/
def leNat : List UInt8 → ℕ
  | [] => 0
  | b :: bs => b.toNat + 256 * leNat bs

/-- The low `k` bytes of a number, most significant byte first. -/
def beBytes : ℕ → ℕ → List UInt8
  | 0, _ => []
  | k + 1, n => beBytes k (n / 256) ++ [UInt8.ofNat n]

attribute [local simp] beBytes

@[simp] theorem beNat_nil : beNat [] = 0 := rfl

@[simp] theorem beNat_concat (bs : List UInt8) (b : UInt8) :
    beNat (bs ++ [b]) = 256 * beNat bs + b.toNat := by
  simp [beNat]

theorem beNat_append (xs ys : List UInt8) :
    beNat (xs ++ ys) = beNat xs * 256 ^ ys.length + beNat ys := by
  induction ys using List.reverseRecOn with
  | nil => simp
  | append_singleton ys y ih =>
    rw [← List.append_assoc, beNat_concat, beNat_concat, ih, List.length_append,
      List.length_singleton, pow_succ]
    ring

theorem beNat_lt (bs : List UInt8) : beNat bs < 256 ^ bs.length := by
  induction bs using List.reverseRecOn with
  | nil => simp
  | append_singleton bs b ih =>
    have hb : b.toNat < 256 := b.toNat_lt
    rw [beNat_concat, List.length_append, List.length_singleton, pow_succ]
    omega

@[simp] theorem length_beBytes (k n : ℕ) : (beBytes k n).length = k := by
  induction k generalizing n with
  | zero => rfl
  | succ k ih => simp [ih]

/-- Writing a number as `k` bytes keeps it modulo `256 ^ k`. -/
theorem beNat_beBytes (k n : ℕ) : beNat (beBytes k n) = n % 256 ^ k := by
  induction k generalizing n with
  | zero => simp [Nat.mod_one]
  | succ k ih =>
    rw [beBytes, beNat_concat, ih, pow_succ, mul_comm (256 ^ k) 256, Nat.mod_mul]
    simp [UInt8.toNat_ofNat']
    ring

/-- A byte string is the big-endian form of its value. -/
theorem beBytes_beNat (bs : List UInt8) : beBytes bs.length (beNat bs) = bs := by
  induction bs using List.reverseRecOn with
  | nil => rfl
  | append_singleton bs b ih =>
    have hb : b.toNat < 256 := b.toNat_lt
    rw [beNat_concat, List.length_append, List.length_singleton, beBytes]
    have hdiv : (256 * beNat bs + b.toNat) / 256 = beNat bs := by omega
    have hmod : UInt8.ofNat (256 * beNat bs + b.toNat) = b := by
      apply UInt8.toNat_inj.mp
      rw [UInt8.toNat_ofNat']
      omega
    rw [hdiv, hmod, ih]

/-- The leading `j` of `j + k` bytes are the bytes of the quotient. -/
theorem take_beBytes (j k n : ℕ) :
    (beBytes (j + k) n).take j = beBytes j (n / 256 ^ k) := by
  induction k generalizing n with
  | zero => simp
  | succ k ih =>
    rw [← add_assoc, beBytes, List.take_append_of_le_length (by simp), ih,
      Nat.div_div_eq_div_mul, pow_succ, mul_comm (256 ^ k) 256]

/-! ### Files -/

/-- An open binary file: its contents and the position of the next read or
write. -/
structure ByteFile where
  bytes : List UInt8
  pos : ℕ

/-- The contents `bs` after `data` is written at offset `p`; a gap between the
old end and `p` reads as zero. -/
def writeAt (bs : List UInt8) (p : ℕ) (data : List UInt8) : List UInt8 :=
  bs.take p ++ List.replicate (p - bs.length) 0 ++ data ++ bs.drop (p + data.length)

namespace ByteFile

/-- Read at most `n` bytes and move past them. -/
def read (f : ByteFile) (n : ℕ) : List UInt8 × ByteFile :=
  let d := (f.bytes.drop f.pos).take n
  (d, { f with pos := f.pos + d.length })

def seek (f : ByteFile) (p : ℕ) : ByteFile := { f with pos := p }

/-- Overwrite from the current position on and move past what was written. -/
def write (f : ByteFile) (data : List UInt8) : ByteFile :=
  { bytes := writeAt f.bytes f.pos data, pos := f.pos + data.length }

end ByteFile

section WriteAt

variable {bs data : List UInt8} {p i : ℕ}

theorem getElem?_writeAt_lt (hp : p ≤ bs.length) (hi : i < p) :
    (writeAt bs p data)[i]? = bs[i]? := by
  rw [writeAt, List.append_assoc, List.append_assoc,
    List.getElem?_append_left (by simp; omega), List.getElem?_take_of_lt hi]

theorem getElem?_writeAt_mid (hp : p ≤ bs.length) (hi : i < data.length) :
    (writeAt bs p data)[p + i]? = data[i]? := by
  have hpad : p - bs.length = 0 := by omega
  rw [writeAt, hpad, List.replicate_zero, List.append_nil, List.append_assoc,
    List.getElem?_append_right (by simp), List.length_take, min_eq_left hp,
    Nat.add_sub_cancel_left, List.getElem?_append_left hi]

theorem getElem?_writeAt_ge (hp : p ≤ bs.length) (hi : p + data.length ≤ i) :
    (writeAt bs p data)[i]? = bs[i]? := by
  have hpad : p - bs.length = 0 := by omega
  rw [writeAt, hpad, List.replicate_zero, List.append_nil, List.append_assoc,
    List.getElem?_append_right (by simp; omega), List.length_take, min_eq_left hp,
    List.getElem?_append_right (by omega), List.getElem?_drop]
  congr 1
  omega

theorem take_writeAt (data : List UInt8) (hp : p ≤ bs.length) :
    (writeAt bs p data).take p = bs.take p := by
  apply List.ext_getElem?
  intro i
  by_cases hi : i < p
  · rw [List.getElem?_take_of_lt hi, List.getElem?_take_of_lt hi,
      getElem?_writeAt_lt hp hi]
  · rw [List.getElem?_take_eq_none (by omega), List.getElem?_take_eq_none (by omega)]

theorem take_drop_writeAt (data : List UInt8) (hp : p ≤ bs.length) :
    ((writeAt bs p data).drop p).take data.length = data := by
  apply List.ext_getElem?
  intro i
  by_cases hi : i < data.length
  · rw [List.getElem?_take_of_lt hi, List.getElem?_drop, getElem?_writeAt_mid hp hi]
  · rw [List.getElem?_take_eq_none (by omega), List.getElem?_eq_none (by omega)]

theorem le_length_writeAt (bs : List UInt8) (p : ℕ) (data : List UInt8) :
    p + data.length ≤ (writeAt bs p data).length := by
  simp [writeAt]
  omega

/-- Writing two strings one after the other is writing their concatenation. -/
theorem writeAt_writeAt (hp : p ≤ bs.length) (data' : List UInt8) :
    writeAt (writeAt bs p data) (p + data.length) data' = writeAt bs p (data ++ data') := by
  have hlen := le_length_writeAt bs p data
  apply List.ext_getElem?
  intro i
  rcases Nat.lt_or_ge i p with hlt | hge
  · rw [getElem?_writeAt_lt hlen (by omega), getElem?_writeAt_lt hp hlt,
      getElem?_writeAt_lt hp hlt]
  obtain ⟨j, rfl⟩ := Nat.exists_eq_add_of_le hge
  rcases Nat.lt_or_ge j data.length with hj | hj
  · rw [getElem?_writeAt_lt hlen (by omega), getElem?_writeAt_mid hp hj,
      getElem?_writeAt_mid hp (by simp; omega), List.getElem?_append_left hj]
  obtain ⟨k, rfl⟩ := Nat.exists_eq_add_of_le hj
  rcases Nat.lt_or_ge k data'.length with hk | hk
  · rw [← add_assoc, getElem?_writeAt_mid hlen hk, add_assoc,
      getElem?_writeAt_mid hp (by simp; omega), List.getElem?_append_right hj,
      Nat.add_sub_cancel_left]
  · rw [getElem?_writeAt_ge hlen (by omega), getElem?_writeAt_ge hp (by omega),
      getElem?_writeAt_ge hp (by simp; omega)]

/-- Writing the same data at the same place again changes nothing. -/
theorem writeAt_idem (hp : p ≤ bs.length) :
    writeAt (writeAt bs p data) p data = writeAt bs p data := by
  have hp' := Nat.le_of_add_right_le (le_length_writeAt bs p data)
  apply List.ext_getElem?
  intro i
  rcases Nat.lt_or_ge i p with hlt | hge
  · rw [getElem?_writeAt_lt hp' hlt]
  obtain ⟨j, rfl⟩ := Nat.exists_eq_add_of_le hge
  rcases Nat.lt_or_ge j data.length with hj | hj
  · rw [getElem?_writeAt_mid hp' hj, getElem?_writeAt_mid hp hj]
  · rw [getElem?_writeAt_ge hp' (by omega)]

end WriteAt

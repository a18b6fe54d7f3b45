/-
The signature forger of `pyCuber/cuber.py`.

`forge a b` looks for a number whose cube, written in `b` bits, starts with
`00 01 FF*8 00` followed by the bytes `a`.  The search is a bisection that
tightens its own target: whenever the current cube starts with the wanted
bytes, eight more zero bits are asked for and the bisection goes on from the
same bounds.

* `forge_exact_iff` — for any bytes and any size the search is exact unless a
  cube makes it run past the last zero byte.

Python integers are `ℕ` where the code keeps them non-negative; the shift
count `sh`, which the loop can push below zero, is in `ℤ`.
-/
import HdxCommon.Bytes

/-- The exceptions the scripts can raise, with their messages. -/
inductive PyError where
  | valueError (msg : String)
  | indexError (msg : String)
  | runtimeError (msg : String)
  | structError (msg : String)
  deriving DecidableEq, Repr

namespace Cuber

/-! ### The source -/

def b2l (b : List UInt8) : ℕ :=
  b.foldl (fun l i => (l <<< 8) ||| i.toNat) 0

/-- The loop of `l2b`, filling the array from its end: `n` bytes are still to
be written in front of `b`. -/
def l2bLoop : ℕ → ℕ → List UInt8 → List UInt8
  | 0, _, b => b
  | n + 1, l, b => l2bLoop n (l >>> 8) (UInt8.ofNat (0xFF &&& l) :: b)

def l2b (l n : ℕ) : List UInt8 := l2bLoop n l []

/-- How the search ends: `if fs: return l2b(fs, b >> 3)`, else the error. -/
def forgeAnswer (b : ℤ) : Option ℕ → Except PyError (List UInt8)
  | some (fs + 1) => .ok (l2b (fs + 1) (b >>> (3 : ℕ)).toNat)
  | _ => .error (.runtimeError "No perfect cube in available range.")

/-- The `while True` loop of `forge`. -/
def forgeLoop (b : ℤ) (lo hi s3 : ℕ) (sh : ℤ) (fs : Option ℕ) :
    Except PyError (List UInt8) :=
  -- Python's `>>` raises on a negative count
  if sh < 0 then .error (.valueError "negative shift count")
  else
    let s := (lo + hi + 1) >>> 1
    let w := (s * s * s) >>> sh.toNat
    if w = s3 then forgeLoop b lo hi (s3 <<< 8) (sh - 8) (some s)
    else if s = lo ∨ s = hi then forgeAnswer b fs
    else if w < s3 then forgeLoop b s hi s3 sh fs
    else forgeLoop b lo s s3 sh fs
termination_by ((sh + 8).toNat, (hi - lo) + (lo - hi))
decreasing_by
  · apply Prod.Lex.left
    omega
  all_goals
    apply Prod.Lex.right
    simp only [Nat.shiftRight_eq_div_pow] at *
    omega

/-- The fixed bytes `00 01 FF*8 00` in front of the digest, as a number. -/
def padding : ℕ := 0x0001FFFFFFFFFFFFFFFF00

def forge (a : List UInt8) (b : ℤ := 2048) : Except PyError (List UInt8) :=
  let na := a.length <<< 3
  if na = 0 then .error (.valueError "Zero length bytearray: nothing to sign")
  else
    let sh : ℤ := b - na - 88
    if 0 > sh then .error (.indexError "Input bytearray too long for key + padding")
    else
      let s3 := (padding <<< na) ||| b2l a
      let lo := 1 <<< ((b - 16) / 3).toNat
      let hi := lo <<< 1
      forgeLoop b lo hi s3 sh none

/-! ### The conversions -/

theorem b2l_eq_beNat (b : List UInt8) : b2l b = beNat b := by
  rw [b2l, beNat]
  congr 1
  funext l i
  have hi : i.toNat < 2 ^ 8 := i.toNat_lt
  rw [← Nat.shiftLeft_add_eq_or_of_lt hi, Nat.shiftLeft_eq]
  ring

theorem l2bLoop_eq (n l : ℕ) (b : List UInt8) : l2bLoop n l b = beBytes n l ++ b := by
  induction n generalizing l b with
  | zero => rfl
  | succ n ih =>
    have hbyte : UInt8.ofNat (0xFF &&& l) = UInt8.ofNat l := by
      apply UInt8.toNat_inj.mp
      rw [UInt8.toNat_ofNat', UInt8.toNat_ofNat', Nat.and_comm,
        show (0xFF : ℕ) = 2 ^ 8 - 1 from rfl, Nat.and_two_pow_sub_one_eq_mod, Nat.mod_mod]
    rw [l2bLoop, ih, hbyte, beBytes, Nat.shiftRight_eq_div_pow, List.append_assoc]
    rfl

theorem l2b_eq_beBytes (l n : ℕ) : l2b l n = beBytes n l := by
  rw [l2b, l2bLoop_eq, List.append_nil]

section Search

variable {b : ℤ} {T lo hi s3 c s : ℕ} {sh : ℕ}

/-- The bounds of the bisection enclose the cube root of the target `T`. -/
structure Bracket (T lo hi : ℕ) : Prop where
  lo_lt : lo ^ 3 < T
  le_hi : T ≤ hi ^ 3

theorem Bracket.lt (h : Bracket T lo hi) : lo < hi :=
  lt_of_pow_lt_pow_left₀ 3 (Nat.zero_le _) (h.lo_lt.trans_le h.le_hi)

/-- `c` is the cube root of `T`, rounded up. -/
structure CubeRootUp (T c : ℕ) : Prop where
  le_cube : T ≤ c ^ 3
  least : ∀ s, T ≤ s ^ 3 → c ≤ s

theorem CubeRootUp.exists (T : ℕ) : ∃ c, CubeRootUp T c := by
  have hex : ∃ s, T ≤ s ^ 3 := ⟨T, Nat.le_self_pow (by norm_num) T⟩
  exact ⟨Nat.find hex, Nat.find_spec hex, fun s hs => Nat.find_min' hex hs⟩

theorem CubeRootUp.lt_of_cube_lt (hc : CubeRootUp T c) (h : s ^ 3 < T) : s < c :=
  lt_of_pow_lt_pow_left₀ 3 (Nat.zero_le _) (h.trans_le hc.le_cube)

/-- Rounding a cube root up overshoots by less than three squares. -/
theorem CubeRootUp.cube_lt (hc : CubeRootUp T c) (hpos : 0 < T) :
    c ^ 3 < T + 3 * c ^ 2 := by
  obtain ⟨d, rfl⟩ : ∃ d, c = d + 1 := by
    refine ⟨c - 1, ?_⟩
    have : c ≠ 0 := by
      rintro rfl
      have := hc.le_cube
      omega
    omega
  have hd : d ^ 3 < T := by
    by_contra hge
    have := hc.least d (by omega)
    omega
  nlinarith [hd]

/-- The loop's test `w == s3`: the cube lies in the window of width `2 ^ sh`
above the target. -/
theorem shift_eq_iff (hT : s3 * 2 ^ sh = T) :
    (s * s * s) >>> sh = s3 ↔ T ≤ s ^ 3 ∧ s ^ 3 < T + 2 ^ sh := by
  have hpow : 0 < 2 ^ sh := Nat.two_pow_pos sh
  rw [Nat.shiftRight_eq_div_pow, show s * s * s = s ^ 3 by ring, Nat.div_eq_iff hpow, hT]
  omega

/-- The loop's test `w < s3`: the cube lies below the target. -/
theorem shift_lt_iff (hT : s3 * 2 ^ sh = T) : (s * s * s) >>> sh < s3 ↔ s ^ 3 < T := by
  rw [Nat.shiftRight_eq_div_pow, show s * s * s = s ^ 3 by ring,
    Nat.div_lt_iff_lt_mul (Nat.two_pow_pos sh), hT]

/-- What `fs` is once the search has asked for `k` further zero bytes: as
before if there was no match, else a number between the bounds whose cube
agrees with the target above the bits of the last match. -/
def LastMatch (T lo hi sh : ℕ) (fs fs' : Option ℕ) (k : ℕ) : Prop :=
  if k = 0 then fs' = fs
  else ∃ s, fs' = some s ∧ lo < s ∧ s ≤ hi ∧ T ≤ s ^ 3 ∧ s ^ 3 < T + 2 ^ (sh - 8 * k + 8)

theorem LastMatch.mono {lo' hi' k : ℕ} {fs fs' : Option ℕ} (hlo : lo ≤ lo') (hhi : hi' ≤ hi)
    (h : LastMatch T lo' hi' sh fs fs' k) : LastMatch T lo hi sh fs fs' k := by
  unfold LastMatch at *
  split
  · simpa [*] using h
  · rw [if_neg (by assumption)] at h
    obtain ⟨s, hs, hlt, hle, hT⟩ := h
    exact ⟨s, hs, by omega, by omega, hT⟩

theorem LastMatch.of_match {k : ℕ} {fs fs' : Option ℕ} (h8 : 8 ≤ sh)
    (hlo : lo < s) (hhi : s ≤ hi) (hle : T ≤ s ^ 3) (hlt : s ^ 3 < T + 2 ^ sh)
    (hk : 8 * k ≤ sh - 8) (h : LastMatch T lo hi (sh - 8) (some s) fs' k) :
    LastMatch T lo hi sh fs fs' (k + 1) := by
  unfold LastMatch at *
  rw [if_neg (Nat.succ_ne_zero k)]
  have hexp : sh - 8 * (k + 1) + 8 = sh - 8 - 8 * k + 8 := by omega
  rw [hexp]
  split at h
  · subst k
    rw [show sh - 8 - 8 * 0 + 8 = sh by omega]
    exact ⟨s, h, hlo, hhi, hle, hlt⟩
  · exact h

/-- How the loop ends, with `c` the rounded-up cube root of the target: either
even `c` matches down to the last whole byte and the shift count gets negative,
or `c` fails to match after `k` more bytes and the last match is returned. -/
def LoopEnds (b : ℤ) (T lo hi sh c : ℕ) (fs : Option ℕ)
    (r : Except PyError (List UInt8)) : Prop :=
  (c ^ 3 < T + 2 ^ (sh % 8) ∧ r = .error (.valueError "negative shift count")) ∨
  ∃ k fs', 8 * k ≤ sh ∧ T + 2 ^ (sh - 8 * k) ≤ c ^ 3 ∧
    LastMatch T lo hi sh fs fs' k ∧ r = forgeAnswer b fs'

theorem LoopEnds.mono {lo' hi' : ℕ} {fs : Option ℕ} {r : Except PyError (List UInt8)}
    (hlo : lo ≤ lo') (hhi : hi' ≤ hi) (h : LoopEnds b T lo' hi' sh c fs r) :
    LoopEnds b T lo hi sh c fs r := by
  obtain h | ⟨k, fs', hk, hc, hm, hr⟩ := h
  · exact .inl h
  · exact .inr ⟨k, fs', hk, hc, hm.mono hlo hhi, hr⟩

/-- **The search loop.**  From bounds around the cube root of `s3 · 2 ^ sh` the
loop ends as `LoopEnds` says. -/
theorem forgeLoop_spec (hc : CubeRootUp T c) (lo hi s3 : ℕ) (shi : ℤ) (fs : Option ℕ)
    (hnn : shi = sh) (hT : s3 * 2 ^ sh = T) (hb : Bracket T lo hi) :
    LoopEnds b T lo hi sh c fs (forgeLoop b lo hi s3 shi fs) := by
  -- along the recursion of the loop; the target `T` never changes
  fun_induction forgeLoop b lo hi s3 shi fs generalizing sh with
  | case1 lo hi s3 shi fs hneg => omega
  | case2 lo hi shi fs hnn' s w =>
    rename_i ih
    subst hnn
    obtain ⟨hle, hlt⟩ := (shift_eq_iff hT).mp rfl
    have hlohi := hb.lt
    have hs : s = (lo + hi + 1) / 2 := Nat.shiftRight_eq_div_pow _ 1
    rcases Nat.lt_or_ge sh 8 with h8 | h8
    · -- the eight bits just asked for are not there any more
      refine .inl ⟨?_, by rw [forgeLoop, if_pos (by omega)]⟩
      rw [Nat.mod_eq_of_lt h8]
      exact (Nat.pow_le_pow_left (hc.least s hle) 3).trans_lt hlt
    · have hT' : (w <<< 8) * 2 ^ (sh - 8) = T := by
        rw [← hT, Nat.shiftLeft_eq, mul_assoc, ← pow_add, Nat.add_sub_cancel' h8]
      obtain ⟨hcube, hr⟩ | ⟨k, fs', hk, hcube, hm, hr⟩ := ih (by omega) hT' hb
      · exact .inl ⟨by rwa [show sh % 8 = (sh - 8) % 8 by omega], hr⟩
      · refine .inr ⟨k + 1, fs', by omega, ?_, ?_, hr⟩
        · rwa [show sh - 8 * (k + 1) = sh - 8 - 8 * k by omega]
        · exact hm.of_match h8 (by omega) (by omega) hle hlt hk
  | case3 lo hi s3 shi fs hnn' s w hw =>
    rename_i hend
    subst hnn
    -- only the upper bound is left, and it is the cube root
    have hlohi := hb.lt
    have hs : s = (lo + hi + 1) / 2 := Nat.shiftRight_eq_div_pow _ 1
    have hlt := hc.lt_of_cube_lt hb.lo_lt
    have hle := hc.least hi hb.le_hi
    obtain rfl : s = c := by omega
    have hfail : T + 2 ^ sh ≤ s ^ 3 := by
      by_contra hlt
      exact hw ((shift_eq_iff hT).mpr ⟨hc.le_cube, by omega⟩)
    exact .inr ⟨0, fs, by omega, by simpa using hfail, by simp [LastMatch], rfl⟩
  | case4 lo hi s3 shi fs hnn' s w hw hend hlt =>
    rename_i ih
    subst hnn
    have hs : s = (lo + hi + 1) / 2 := Nat.shiftRight_eq_div_pow _ 1
    have hlohi := hb.lt
    exact (ih rfl hT ⟨(shift_lt_iff hT).mp hlt, hb.le_hi⟩).mono (by omega) le_rfl
  | case5 lo hi s3 shi fs hnn' s w hw hend hlt =>
    rename_i ih
    subst hnn
    have hs : s = (lo + hi + 1) / 2 := Nat.shiftRight_eq_div_pow _ 1
    have hlohi := hb.lt
    have hge : T ≤ s ^ 3 := not_lt.mp (mt (shift_lt_iff hT).mpr hlt)
    exact (ih rfl hT ⟨hb.lo_lt, hge⟩).mono le_rfl (by omega)

end Search

/-! ### The whole function -/

section Forge

variable {a d : List UInt8} {b : ℤ} {c sh : ℕ}

/-- The padded bytes the cube has to start with, as a number. -/
def target (a : List UInt8) : ℕ := padding * 2 ^ (8 * a.length) + beNat a

theorem beNat_lt_two_pow (a : List UInt8) : beNat a < 2 ^ (8 * a.length) := by
  have h := beNat_lt a
  rwa [show (256 : ℕ) = 2 ^ 8 from rfl, ← pow_mul] at h

/-- The target has 73 bits above those of `a`: the leading `01` bit and `FF*8 00`. -/
theorem target_bounds (a : List UInt8) :
    2 ^ (8 * a.length + 72) < target a ∧ target a < 2 ^ (8 * a.length + 73) := by
  have hlt := beNat_lt_two_pow a
  have hpos := Nat.two_pow_pos (8 * a.length)
  rw [target, padding, pow_add, pow_add]
  constructor <;> omega

theorem bracket_start (a : List UInt8) (sh : ℕ) :
    Bracket (target a * 2 ^ sh) (2 ^ ((8 * a.length + 72 + sh) / 3))
      (2 ^ ((8 * a.length + 72 + sh) / 3 + 1)) := by
  obtain ⟨hlow, hhigh⟩ := target_bounds a
  have hpow := Nat.two_pow_pos sh
  set n := 8 * a.length with hn
  constructor
  · calc (2 ^ ((n + 72 + sh) / 3)) ^ 3 = 2 ^ ((n + 72 + sh) / 3 * 3) := by rw [pow_mul]
      _ ≤ 2 ^ (n + 72 + sh) := Nat.pow_le_pow_right (by norm_num) (Nat.div_mul_le_self _ _)
      _ = 2 ^ (n + 72) * 2 ^ sh := pow_add _ _ _
      _ < target a * 2 ^ sh := Nat.mul_lt_mul_of_pos_right hlow hpow
  · calc target a * 2 ^ sh ≤ 2 ^ (n + 73) * 2 ^ sh := Nat.mul_le_mul_right _ hhigh.le
      _ = 2 ^ (n + 73 + sh) := (pow_add _ _ _).symm
      _ ≤ 2 ^ (((n + 72 + sh) / 3 + 1) * 3) :=
          Nat.pow_le_pow_right (by norm_num) (by omega)
      _ = (2 ^ ((n + 72 + sh) / 3 + 1)) ^ 3 := pow_mul _ _ _

/-- `forge` on a key with `sh` bits below the padded bytes is the search loop
from those bounds. -/
theorem forge_ends (ha : a ≠ []) (hb : b = 8 * a.length + 88 + sh)
    (hc : CubeRootUp (target a * 2 ^ sh) c) :
    LoopEnds b (target a * 2 ^ sh) (2 ^ ((8 * a.length + 72 + sh) / 3))
      (2 ^ ((8 * a.length + 72 + sh) / 3 + 1)) sh c none (forge a b) := by
  have hlen : 0 < a.length := List.length_pos_iff.mpr ha
  have hna : a.length <<< 3 = 8 * a.length := by rw [Nat.shiftLeft_eq]; omega
  have hs3 : (padding <<< (8 * a.length)) ||| b2l a = target a := by
    rw [b2l_eq_beNat, ← Nat.shiftLeft_add_eq_or_of_lt (beNat_lt_two_pow a),
      Nat.shiftLeft_eq, target]
  have hlo : ((b - 16) / 3).toNat = (8 * a.length + 72 + sh) / 3 := by omega
  have hsh : b - (8 * a.length : ℕ) - 88 = (sh : ℤ) := by omega
  simp only [forge, hna, hs3, hlo, hsh]
  rw [if_neg (by omega), if_neg (by omega), Nat.shiftLeft_eq, Nat.shiftLeft_eq, one_mul,
    ← pow_add]
  exact forgeLoop_spec hc _ _ _ _ _ rfl rfl (bracket_start a sh)

/-- **The result of `forge`** when the free bits are whole bytes and enough for
one match: an exact cube makes the search run out of bits, anything else is
forged. -/
theorem forge_cases (sh : ℕ) (ha : a ≠ []) (hb : b = 8 * a.length + 88 + sh) (h8 : sh % 8 = 0)
    (hroom : 2 * ((8 * a.length + 72 + sh) / 3) + 4 ≤ sh) :
    ((∃ c, c ^ 3 = target a * 2 ^ sh) ∧
      forge a b = .error (.valueError "negative shift count")) ∨
    ((¬ ∃ c, c ^ 3 = target a * 2 ^ sh) ∧ ∃ s, forge a b = .ok (beBytes (b >>> (3 : ℕ)).toNat s) ∧
      s ≤ 2 ^ ((8 * a.length + 72 + sh) / 3 + 1) ∧ s ^ 3 / 2 ^ sh = target a) := by
  obtain ⟨c, hc⟩ := CubeRootUp.exists (target a * 2 ^ sh)
  have hends := forge_ends ha hb hc
  have hbr := bracket_start a sh
  have hpos : 0 < 2 ^ sh := Nat.two_pow_pos sh
  set e := (8 * a.length + 72 + sh) / 3 with he
  set T := target a * 2 ^ sh with hT
  rcases hends with ⟨hlt, herr⟩ | ⟨k, fs', hk, hge, hm, hr⟩
  · rw [h8, pow_zero] at hlt
    exact .inl ⟨⟨c, by have := hc.le_cube; omega⟩, herr⟩
  -- the cube root itself matches at the start, so something was found
  have hk0 : k ≠ 0 := by
    rintro rfl
    have hcube := hc.cube_lt (Nat.zero_lt_of_lt hbr.lo_lt)
    have hle : c ^ 2 ≤ (2 ^ (e + 1)) ^ 2 := Nat.pow_le_pow_left (hc.least _ hbr.le_hi) 2
    have hsq : 4 * (2 ^ (e + 1)) ^ 2 ≤ 2 ^ sh := by
      calc 4 * (2 ^ (e + 1)) ^ 2 = 2 ^ (2 * e + 4) := by ring
        _ ≤ 2 ^ sh := Nat.pow_le_pow_right (by norm_num) hroom
    simp only [Nat.mul_zero, Nat.sub_zero] at hge
    omega
  rw [LastMatch, if_neg hk0] at hm
  obtain ⟨s, rfl, hlo, hhi, hle, hlt⟩ := hm
  refine .inr ⟨?_, s, ?_, hhi, ?_⟩
  · rintro ⟨m, hm⟩
    have hcm : c ^ 3 ≤ m ^ 3 := Nat.pow_le_pow_left (hc.least m hm.ge) 3
    have := Nat.two_pow_pos (sh - 8 * k)
    omega
  · obtain ⟨s, rfl⟩ : ∃ r, s = r + 1 := ⟨s - 1, by omega⟩
    rw [hr, forgeAnswer, l2b_eq_beBytes]
  · have hwin : 2 ^ (sh - 8 * k + 8) ≤ 2 ^ sh := Nat.pow_le_pow_right (by norm_num) (by omega)
    rw [Nat.div_eq_iff hpos, ← hT]
    omega

/-- Multiplying by a cube does not change what is a cube. -/
theorem exists_cube_mul_iff (n k : ℕ) :
    (∃ c, c ^ 3 = n * 2 ^ (3 * k)) ↔ ∃ m, m ^ 3 = n := by
  have hpow : 2 ^ (3 * k) = (2 ^ k) ^ 3 := by rw [← pow_mul, mul_comm]
  constructor
  · rintro ⟨c, hc⟩
    have hdvd : 2 ^ k ∣ c := by
      rw [← Nat.pow_dvd_pow_iff (n := 3) (by norm_num), hc, hpow]
      exact Dvd.intro_left n rfl
    obtain ⟨m, rfl⟩ := hdvd
    refine ⟨m, Nat.eq_of_mul_eq_mul_right (Nat.two_pow_pos (3 * k)) ?_⟩
    rw [← hc, hpow]
    ring
  · rintro ⟨m, rfl⟩
    exact ⟨m * 2 ^ k, by rw [hpow, mul_pow]⟩

theorem cube_lt_of_le_two_pow {s e n : ℕ} (hle : s ≤ 2 ^ e) (hn : e * 3 < n) :
    s ^ 3 < 2 ^ n := by
  calc s ^ 3 ≤ (2 ^ e) ^ 3 := Nat.pow_le_pow_left hle 3
    _ = 2 ^ (e * 3) := (pow_mul _ _ _).symm
    _ < 2 ^ n := Nat.pow_lt_pow_right Nat.one_lt_two hn

theorem forge_eq_error_of_cube (hd : d.length = 32) (h : ∃ m, m ^ 3 = target d) :
    forge d = .error (.valueError "negative shift count") := by
  have hne : d ≠ [] := by
    rintro rfl
    simp at hd
  have hcases := forge_cases (b := 2048) (3 * 568) hne (by simp [hd]) rfl (by simp [hd])
  rw [exists_cube_mul_iff] at hcases
  rcases hcases with ⟨-, herr⟩ | ⟨hno, -⟩
  · exact herr
  · exact absurd h hno

theorem forge_eq_ok_of_not_cube (hd : d.length = 32) (h : ¬ ∃ m, m ^ 3 = target d) :
    ∃ s, forge d = .ok (beBytes 256 s) ∧ s ^ 3 < 256 ^ 256 ∧ s ^ 3 / 256 ^ 213 = target d := by
  have hne : d ≠ [] := by
    rintro rfl
    simp at hd
  have hcases := forge_cases (b := 2048) (3 * 568) hne (by simp [hd]) rfl (by simp [hd])
  rw [exists_cube_mul_iff, hd] at hcases
  rcases hcases with ⟨hcube, -⟩ | ⟨-, s, hs, hle, hdiv⟩
  · exact absurd hcube h
  · have h256 : ∀ n, (256 : ℕ) ^ n = 2 ^ (8 * n) := fun n => by
      rw [show (256 : ℕ) = 2 ^ 8 from rfl, ← pow_mul]
    refine ⟨s, hs, ?_, ?_⟩
    · rw [h256]
      exact cube_lt_of_le_two_pow hle (by norm_num)
    · rw [h256, show 8 * 213 = 3 * 568 from rfl]
      exact hdiv

end Forge

/-! ### Exactness -/

/-- The bits of a cube of `b` bits below the padded bytes. -/
def freeBits (a : List UInt8) (b : ℤ) : ℕ := (b - 8 * a.length - 88).toNat

/-- A number in the range of the search whose cube starts with the padded
bytes. -/
structure Candidate (a : List UInt8) (b : ℤ) (s : ℕ) : Prop where
  above : 2 ^ ((b - 16) / 3).toNat < s
  le_double : s ≤ 2 * 2 ^ ((b - 16) / 3).toNat
  cube : s ^ 3 >>> freeBits a b = target a

/-- The cube of `s` starts with the padded bytes and `j` zero bytes. -/
def MatchesZeros (a : List UInt8) (b : ℤ) (j s : ℕ) : Prop :=
  8 * j ≤ freeBits a b ∧ s ^ 3 >>> (freeBits a b - 8 * j) = target a <<< (8 * j)

/-- The search is exact: it finds a candidate whenever there is one, one that
matches as many further zero bytes as any, and reports that there is none
otherwise. -/
structure ForgeExact (a : List UInt8) (b : ℤ) : Prop where
  returns_iff : (∃ sig, forge a b = .ok sig) ↔ ∃ s, Candidate a b s
  signature : ∀ sig, forge a b = .ok sig → sig.length = (b / 8).toNat ∧
    Candidate a b (beNat sig) ∧
    ∀ s j, Candidate a b s → MatchesZeros a b j s → MatchesZeros a b j (beNat sig)
  otherwise : (¬ ∃ s, Candidate a b s) →
    forge a b = .error (.runtimeError "No perfect cube in available range.")

section Exact

variable {a : List UInt8} {b : ℤ} {c j k s sh : ℕ}

theorem shiftRight_eq_iff {t n : ℕ} : s ^ 3 >>> n = t ↔ t * 2 ^ n ≤ s ^ 3 ∧
    s ^ 3 < t * 2 ^ n + 2 ^ n := by
  rw [show s ^ 3 = s * s * s by ring, shift_eq_iff rfl, show s * s * s = s ^ 3 by ring]

/-- Asking for zero bytes narrows the window above the same number. -/
theorem matchesZeros_iff : MatchesZeros a b j s ↔ 8 * j ≤ freeBits a b ∧
    target a * 2 ^ freeBits a b ≤ s ^ 3 ∧
    s ^ 3 < target a * 2 ^ freeBits a b + 2 ^ (freeBits a b - 8 * j) := by
  unfold MatchesZeros
  refine and_congr_right ?_
  intro hj
  rw [shiftRight_eq_iff, Nat.shiftLeft_eq, mul_assoc, ← pow_add, Nat.add_sub_cancel' hj]

theorem MatchesZeros.mono (h : MatchesZeros a b k s) (hjk : j ≤ k) : MatchesZeros a b j s := by
  rw [matchesZeros_iff] at h ⊢
  obtain ⟨hk, hle, hlt⟩ := h
  have hpow : 2 ^ (freeBits a b - 8 * k) ≤ 2 ^ (freeBits a b - 8 * j) :=
    Nat.pow_le_pow_right (by norm_num) (by omega)
  omega

theorem candidate_iff : Candidate a b s ↔ 2 ^ ((b - 16) / 3).toNat < s ∧
    s ≤ 2 * 2 ^ ((b - 16) / 3).toNat ∧ MatchesZeros a b 0 s := by
  simp only [MatchesZeros, Nat.mul_zero, Nat.zero_le, Nat.sub_zero, Nat.shiftLeft_zero, true_and]
  exact ⟨fun h => ⟨h.above, h.le_double, h.cube⟩, fun h => ⟨h.1, h.2.1, h.2.2⟩⟩

theorem Candidate.lt (hb : 8 * a.length + 88 ≤ b) (h : Candidate a b s) :
    s < 256 ^ (b / 8).toNat := by
  have hexp : ((b - 16) / 3).toNat + 1 < 8 * (b / 8).toNat := by omega
  calc s ≤ 2 ^ (((b - 16) / 3).toNat + 1) := by
        rw [pow_succ, mul_comm]
        exact h.le_double
    _ < 2 ^ (8 * (b / 8).toNat) := Nat.pow_lt_pow_right Nat.one_lt_two hexp
    _ = 256 ^ (b / 8).toNat := by rw [pow_mul]; norm_num

/-- **How `forge` ends**, in terms of the rounded-up cube root: it runs out of
bits if even the last whole byte matches, and otherwise returns a number that
matches as many zero bytes as the cube root does, or reports that there is
none. -/
theorem forge_ends_zeros (ha : a ≠ []) (hb : 8 * a.length + 88 ≤ b)
    (hc : CubeRootUp (target a * 2 ^ freeBits a b) c) :
    MatchesZeros a b (freeBits a b / 8) c ∧
      forge a b = .error (.valueError "negative shift count") ∨
    ¬ MatchesZeros a b 0 c ∧
      forge a b = .error (.runtimeError "No perfect cube in available range.") ∨
    ∃ k s, k + 1 ≤ freeBits a b / 8 ∧ ¬ MatchesZeros a b (k + 1) c ∧ Candidate a b s ∧
      MatchesZeros a b k s ∧ forge a b = .ok (beBytes (b / 8).toNat s) := by
  have hbits : b = 8 * a.length + 88 + freeBits a b := by
    unfold freeBits
    omega
  have hends := forge_ends ha hbits hc
  have hlo : (8 * a.length + 72 + freeBits a b) / 3 = ((b - 16) / 3).toNat := by omega
  rw [hlo] at hends
  rcases hends with ⟨hlt, herr⟩ | ⟨k, fs', hk, hge, hm, hr⟩
  · refine .inl ⟨matchesZeros_iff.mpr ⟨by omega, hc.le_cube, ?_⟩, herr⟩
    rwa [show freeBits a b - 8 * (freeBits a b / 8) = freeBits a b % 8 by omega]
  have hnot : ¬ MatchesZeros a b k c := by
    rw [matchesZeros_iff]
    omega
  cases k with
  | zero =>
    obtain rfl : fs' = none := hm
    exact .inr (.inl ⟨hnot, hr⟩)
  | succ k =>
    rw [LastMatch, if_neg (Nat.succ_ne_zero k)] at hm
    obtain ⟨s, rfl, hlo, hhi, hle, hlt⟩ := hm
    have hmatch : MatchesZeros a b k s := by
      refine matchesZeros_iff.mpr ⟨by omega, hle, ?_⟩
      rwa [show freeBits a b - 8 * k = freeBits a b - 8 * (k + 1) + 8 by omega]
    refine .inr (.inr ⟨k, s, by omega, hnot,
      candidate_iff.mpr ⟨hlo, ?_, hmatch.mono (Nat.zero_le k)⟩, hmatch, ?_⟩)
    · rwa [pow_succ, mul_comm] at hhi
    · obtain ⟨r, rfl⟩ : ∃ r, s = r + 1 := ⟨s - 1, by omega⟩
      rw [hr, forgeAnswer, l2b_eq_beBytes, Int.shiftRight_eq_div_pow]
      norm_num

theorem MatchesZeros.cubeRootUp (h : MatchesZeros a b j s)
    (hc : CubeRootUp (target a * 2 ^ freeBits a b) c) : MatchesZeros a b j c := by
  rw [matchesZeros_iff] at h ⊢
  have hle := Nat.pow_le_pow_left (hc.least s h.2.1) 3
  exact ⟨h.1, hc.le_cube, by omega⟩

theorem candidate_cubeRootUp (hb : 8 * a.length + 88 ≤ b)
    (hc : CubeRootUp (target a * 2 ^ freeBits a b) c) (h : MatchesZeros a b 0 c) :
    Candidate a b c := by
  have hbr := bracket_start a (freeBits a b)
  have hlo : (8 * a.length + 72 + freeBits a b) / 3 = ((b - 16) / 3).toNat := by
    unfold freeBits
    omega
  rw [hlo] at hbr
  refine candidate_iff.mpr ⟨hc.lt_of_cube_lt hbr.lo_lt, ?_, h⟩
  have hhi := hc.least _ hbr.le_hi
  rwa [pow_succ, mul_comm] at hhi

theorem MatchesZeros.not_forgeExact (ha : a ≠ []) (hb : 8 * a.length + 88 ≤ b)
    (hs : MatchesZeros a b (freeBits a b / 8) s) : ¬ ForgeExact a b := by
  intro hexact
  obtain ⟨c, hc⟩ := CubeRootUp.exists (target a * 2 ^ freeBits a b)
  have hroot := hs.cubeRootUp hc
  have hcand := candidate_cubeRootUp hb hc (hroot.mono (Nat.zero_le _))
  obtain ⟨sig, hsig⟩ := hexact.returns_iff.mpr ⟨c, hcand⟩
  rcases forge_ends_zeros ha hb hc with ⟨-, herr⟩ | ⟨hnot, -⟩ | ⟨k, s, hk, hnot, -⟩
  · rw [herr] at hsig
    cases hsig
  · exact hnot (hroot.mono (Nat.zero_le _))
  · exact hnot (hroot.mono hk)

/-- **The search is exact** if and only if no cube starts with the padded bytes
followed by zero bytes down to the last whole byte. -/
theorem forge_exact_iff (ha : a ≠ []) (hb : 8 * a.length + 88 ≤ b) :
    ForgeExact a b ↔ ¬ ∃ s, MatchesZeros a b (freeBits a b / 8) s := by
  constructor
  · rintro hexact ⟨s, hs⟩
    exact hs.not_forgeExact ha hb hexact
  · intro hno
    obtain ⟨c, hc⟩ := CubeRootUp.exists (target a * 2 ^ freeBits a b)
    rcases forge_ends_zeros ha hb hc with ⟨hroot, -⟩ | ⟨hnot, herr⟩ | ⟨k, s, -, hnot, hs, hk, hok⟩
    · exact absurd ⟨c, hroot⟩ hno
    · -- no number is a candidate
      have hnone : ¬ ∃ s, Candidate a b s := by
        rintro ⟨s, hs⟩
        exact hnot ((candidate_iff.mp hs).2.2.cubeRootUp hc)
      refine ⟨⟨?_, fun h => absurd h hnone⟩, ?_, fun _ => herr⟩
      · rintro ⟨sig, hsig⟩
        rw [herr] at hsig
        cases hsig
      · intro sig hsig
        rw [herr] at hsig
        cases hsig
    · refine ⟨⟨fun _ => ⟨s, hs⟩, fun _ => ⟨_, hok⟩⟩, ?_, fun hnone => absurd ⟨s, hs⟩ hnone⟩
      intro sig hsig
      rw [hok] at hsig
      obtain rfl := Except.ok.inj hsig
      rw [beNat_beBytes, Nat.mod_eq_of_lt (hs.lt hb)]
      refine ⟨length_beBytes _ _, hs, ?_⟩
      intro t j _ ht
      refine hk.mono ?_
      by_contra hjk
      exact hnot ((ht.cubeRootUp hc).mono (by omega))

theorem not_matchesZeros_of_between (s : ℕ) (hlt : s ^ 3 < target a * 2 ^ freeBits a b)
    (hle : target a * 2 ^ freeBits a b + 2 ^ (freeBits a b % 8) ≤ (s + 1) ^ 3) :
    ¬ ∃ t, MatchesZeros a b (freeBits a b / 8) t := by
  rintro ⟨t, ht⟩
  obtain ⟨-, hge, hlt'⟩ := matchesZeros_iff.mp ht
  rw [show freeBits a b - 8 * (freeBits a b / 8) = freeBits a b % 8 by omega] at hlt'
  have hst : s < t := lt_of_pow_lt_pow_left₀ 3 (Nat.zero_le _) (hlt.trans_le hge)
  have hcube := Nat.pow_le_pow_left (show s + 1 ≤ t from hst) 3
  omega

theorem forge_exact_iff_zero : ForgeExact [0] 512 := by
  refine (forge_exact_iff (by decide) (by decide)).mpr ?_
  exact not_matchesZeros_of_between 74239655569674279831266341846731819249781135041530
    (by decide +kernel) (by decide +kernel)

/-- 20 bytes whose padded form is the cube of a 78-bit number. -/
def cubeBytes : List UInt8 :=
  [3, 246, 77, 39, 219, 119, 76, 64, 53, 10, 161, 49, 82, 38, 231, 43, 150, 115, 203, 192]

theorem forge_inexact_cubeBytes : cubeBytes ≠ [] ∧ 8 * cubeBytes.length + 88 ≤ (2048 : ℤ) ∧
    ¬ ForgeExact cubeBytes 2048 := by
  have hmatch : MatchesZeros cubeBytes 2048 (freeBits cubeBytes 2048 / 8)
      (239881264725972513806396 * 2 ^ 600) := ⟨by decide, by decide +kernel⟩
  exact ⟨by decide, by decide, hmatch.not_forgeExact (by decide) (by decide)⟩

end Exact

end Cuber

/-
Signing a boot image, `pyCuber/cuboot.py`.

`fixboot` reads the header of an Android boot image, rounds the four parts up
to whole pages, hashes everything up to the end of the last part and writes a
forged signature page behind it.  SHA-256 is a parameter: any function into 32
bytes.

* `fixboot_signs_iff` — an image gets its signature page, with everything else
  untouched and a second run changing nothing, exactly when its padded digest
  is not a perfect cube.
-/
import Mathlib.Data.Int.Bitwise
import HdxCommon.Cuber

open Cuber

namespace Cuboot

/-! ### The source -/

/-- `unpack('<I', b[i:i+4])[0]`; a slice that is too short is refused. -/
def u4 (b : List UInt8) (i : ℕ) : Except PyError ℕ :=
  let w := (b.drop i).take 4
  if w.length = 4 then .ok (leNat w)
  else .error (.structError "unpack requires a buffer of 4 bytes")

def up (x p : ℕ) : ℤ := -Int.land (-x) (-p)

/-- What a call of `fixboot` leaves: the file, the printed lines, and the value
it returns (`None` or a message) or the exception it raises. -/
structure Run where
  file : List UInt8
  out : List String
  result : Except PyError (Option String)

/-- The bytes of `ANDROID!`. -/
def androidMagic : List UInt8 := [0x41, 0x4E, 0x44, 0x52, 0x4F, 0x49, 0x44, 0x21]

/-- The page size and the offset of the DT part: the header page, then kernel,
ramdisk and second stage, each in whole pages. -/
def dtOffset (b : List UInt8) : Except PyError (ℕ × ℤ) := do
  let p ← u4 b 36
  let s ← [8, 16, 24].foldlM (fun (s : ℤ) i => do return s + up (← u4 b i) p) (p : ℤ)
  return (p, s)

def hexdigest (d : List UInt8) : String :=
  String.ofList (d.flatMap fun b => [Nat.digitChar (b.toNat / 16), Nat.digitChar (b.toNat % 16)])

/-- The part of `fixboot` after the sizes are known: hash `s` bytes, write the
signature and the zeros that fill its page. -/
def sign (sha256 : List UInt8 → Vector UInt8 32) (fn : String) (f : ByteFile) (p s : ℕ) : Run :=
  let (signed, f) := (f.seek 0).read s
  let digest := (sha256 signed).toList
  let f := f.seek s
  match forge digest with
  | .error e => ⟨f.bytes, [], .error e⟩
  | .ok sig =>
    let f := f.write sig
    -- `bytearray(p - 256)` refuses a negative size
    if p < 256 then ⟨f.bytes, [], .error (.valueError "negative count")⟩
    else
      let f := f.write (List.replicate (p - 256) 0)
      ⟨f.bytes,
        ["sha256=" ++ hexdigest digest, "offset=" ++ toString s,
          "Your image '" ++ fn ++ "' is now \"signed\"."],
        .ok none⟩

def fixboot (sha256 : List UInt8 → Vector UInt8 32) (fn : String) (img : List UInt8) : Run :=
  let f : ByteFile := ⟨img, 0⟩
  let (b, f) := f.read 1024
  if b.take 8 ≠ androidMagic then ⟨f.bytes, [], .ok (some "Not ANDROID!")⟩
  else
    match dtOffset b with
    | .error e => ⟨f.bytes, [], .error e⟩
    | .ok (p, s) =>
      -- the DT header is read, but the code that used it is commented out
      let (_, f) := (f.seek s.toNat).read p
      match u4 b 40 with
      | .error e => ⟨f.bytes, [], .error e⟩
      | .ok dt => sign sha256 fn f p (s + up dt p).toNat

/-! ### Rounding up to pages -/

/-- The least multiple of `p` that is at least `x`. -/
def roundUp (x p : ℕ) : ℕ := (x + p - 1) / p * p

theorem or_two_pow_sub_one (y k : ℕ) : y ||| (2 ^ k - 1) = y / 2 ^ k * 2 ^ k + (2 ^ k - 1) := by
  have hlt : 2 ^ k - 1 < 2 ^ k := Nat.sub_lt (Nat.two_pow_pos k) Nat.one_pos
  rw [← Nat.shiftLeft_eq, Nat.shiftLeft_add_eq_or_of_lt hlt]
  apply Nat.eq_of_testBit_eq
  intro i
  rw [Nat.testBit_or, Nat.testBit_or, Nat.testBit_two_pow_sub_one, Nat.testBit_shiftLeft,
    Nat.testBit_div_two_pow]
  by_cases hi : i < k
  · simp [hi]
  · simp [hi, not_lt.mp hi]

/-- **The page-rounding trick.**  On a power of two `-(-x & -p)` is `x` rounded
up to a multiple of `p`. -/
theorem up_eq_roundUp (x k : ℕ) : up x (2 ^ k) = roundUp x (2 ^ k) := by
  have hpos : 0 < 2 ^ k := Nat.two_pow_pos k
  cases x with
  | zero =>
    have hzero : (0 + 2 ^ k - 1) / 2 ^ k = 0 := Nat.div_eq_of_lt (by omega)
    obtain ⟨q, hq⟩ : ∃ q, 2 ^ k = q + 1 := ⟨2 ^ k - 1, by omega⟩
    have hland : Int.land (-((0 : ℕ) : ℤ)) (-((q + 1 : ℕ) : ℤ)) = (Nat.ldiff 0 q : ℕ) := rfl
    rw [roundUp, hzero, up, hq, hland]
    simp [Nat.ldiff, Nat.bitwise_zero_left]
  | succ y =>
    obtain ⟨q, hq⟩ : ∃ q, 2 ^ k = q + 1 := ⟨2 ^ k - 1, by omega⟩
    have hor : y ||| q = y / 2 ^ k * 2 ^ k + q := by
      have := or_two_pow_sub_one y k
      rwa [show 2 ^ k - 1 = q by omega] at this
    have hround : roundUp (y + 1) (2 ^ k) = y / 2 ^ k * 2 ^ k + 2 ^ k := by
      rw [roundUp, show y + 1 + 2 ^ k - 1 = y + 2 ^ k by omega, Nat.add_div_right _ hpos,
        Nat.succ_mul]
    have hland : Int.land (-((y + 1 : ℕ) : ℤ)) (-((q + 1 : ℕ) : ℤ)) = Int.negSucc (y ||| q) := rfl
    rw [hround, up, hq, hland, hor, ← hq]
    simp only [Int.neg_negSucc]
    omega

/-! ### The layout of an image -/

/-- The little-endian word at offset `i`. -/
def field (img : List UInt8) (i : ℕ) : ℕ := leNat ((img.drop i).take 4)

def pageSize (img : List UInt8) : ℕ := field img 36

/-- The end of the signed part: the header page and the four parts in whole
pages. -/
def signedSize (img : List UInt8) : ℕ :=
  let p := pageSize img
  p + roundUp (field img 8) p + roundUp (field img 16) p + roundUp (field img 24) p
    + roundUp (field img 40) p

/-- An Android boot image with pages that hold a signature, and all its parts
present. -/
structure BootImage (img : List UInt8) : Prop where
  magic : img.take 8 = androidMagic
  page_pow : ∃ k, pageSize img = 2 ^ k
  page_ge : 256 ≤ pageSize img
  complete : signedSize img ≤ img.length

section Layout

variable {img img' : List UInt8} {i : ℕ}

theorem pageSize_le_signedSize (img : List UInt8) : pageSize img ≤ signedSize img := by
  simp only [signedSize]
  omega

theorem u4_eq_field (h : i + 4 ≤ img.length) : u4 img i = .ok (field img i) := by
  rw [u4, if_pos (by simp; omega), field]

theorem field_take (img : List UInt8) {n : ℕ} (h : i + 4 ≤ n) :
    field (img.take n) i = field img i := by
  rw [field, field, List.drop_take, List.take_take, min_eq_left (by omega)]

theorem BootImage.page_le_length (h : BootImage img) : pageSize img ≤ img.length :=
  (pageSize_le_signedSize img).trans h.complete

theorem BootImage.u4_header (h : BootImage img) (hi : i + 4 ≤ 256) :
    u4 (img.take 1024) i = .ok (field img i) := by
  have hlen := h.page_ge.trans h.page_le_length
  rw [u4_eq_field (by simp; omega), field_take img (by omega)]

theorem BootImage.up_field (h : BootImage img) (x : ℕ) :
    up x (pageSize img) = roundUp x (pageSize img) := by
  obtain ⟨k, hk⟩ := h.page_pow
  rw [hk, up_eq_roundUp]

theorem BootImage.dtOffset_eq (h : BootImage img) :
    dtOffset (img.take 1024) = .ok (pageSize img,
      (signedSize img - roundUp (field img 40) (pageSize img) : ℤ)) := by
  have h36 : u4 (img.take 1024) 36 = .ok (pageSize img) := h.u4_header (by omega)
  have h8 := h.u4_header (i := 8) (by omega)
  have h16 := h.u4_header (i := 16) (by omega)
  have h24 := h.u4_header (i := 24) (by omega)
  simp only [dtOffset, h36, h8, h16, h24, List.foldlM_cons, List.foldlM_nil, h.up_field, bind,
    Except.bind, pure, Except.pure, signedSize]
  push_cast
  ring_nf

theorem BootImage.of_take_eq (h : BootImage img)
    (heq : img'.take (signedSize img) = img.take (signedSize img)) :
    BootImage img' ∧ pageSize img' = pageSize img ∧ signedSize img' = signedSize img := by
  have hps := pageSize_le_signedSize img
  have hge := h.page_ge
  have hfield : ∀ i, i + 4 ≤ 256 → field img' i = field img i := by
    intro i hi
    have hlt : i + 4 ≤ signedSize img := by omega
    rw [← field_take img' hlt, heq, field_take img hlt]
  have hpage : pageSize img' = pageSize img := hfield 36 (by omega)
  have hsize : signedSize img' = signedSize img := by
    simp only [signedSize, hpage, hfield 8 (by omega), hfield 16 (by omega),
      hfield 24 (by omega), hfield 40 (by omega)]
  refine ⟨⟨?_, by rw [hpage]; exact h.page_pow, by rw [hpage]; exact hge, ?_⟩, hpage, hsize⟩
  · have htake : (img'.take (signedSize img)).take 8 = (img.take (signedSize img)).take 8 := by
      rw [heq]
    rwa [List.take_take, List.take_take, min_eq_left (by omega), h.magic] at htake
  · have hlen := congrArg List.length heq
    rw [List.length_take, List.length_take, min_eq_left h.complete] at hlen
    rw [hsize]
    omega

end Layout

/-! ### The whole run -/

section Fixboot

variable {sha256 : List UInt8 → Vector UInt8 32} {fn : String} {img : List UInt8}

def digest (sha256 : List UInt8 → Vector UInt8 32) (img : List UInt8) : List UInt8 :=
  (sha256 (img.take (signedSize img))).toList

theorem length_digest : (digest sha256 img).length = 32 := by
  simp [digest]

theorem BootImage.fixboot_eq_sign (h : BootImage img) :
    fixboot sha256 fn img = sign sha256 fn ⟨img, 0⟩ (pageSize img) (signedSize img) := by
  have h40 := h.u4_header (i := 40) (by omega)
  have hmagic : (img.take 1024).take 8 = androidMagic := by
    rw [List.take_take, min_eq_left (by norm_num), h.magic]
  simp only [fixboot, sign, ByteFile.read, ByteFile.seek, List.drop_zero, hmagic, ne_eq,
    not_true_eq_false, if_false, h.dtOffset_eq, h40, h.up_field, sub_add_cancel, Int.toNat_natCast]

theorem BootImage.fixboot_of_error (h : BootImage img) {e : PyError}
    (he : forge (digest sha256 img) = .error e) :
    fixboot sha256 fn img = ⟨img, [], .error e⟩ := by
  rw [digest] at he
  simp only [h.fixboot_eq_sign, sign, ByteFile.read, ByteFile.seek, List.drop_zero, he]

/-- **`fixboot` as one write.**  With a forged signature the run returns, and
the file is the image with one page written at the end of the signed part. -/
theorem BootImage.fixboot_of_ok (h : BootImage img) (fn : String) {sig : List UInt8}
    (hs : forge (digest sha256 img) = .ok sig) :
    (fixboot sha256 fn img).result = .ok none ∧ (fixboot sha256 fn img).file =
      writeAt img (signedSize img) (sig ++ List.replicate (pageSize img - 256) 0) := by
  rw [digest] at hs
  have hp : ¬ pageSize img < 256 := not_lt.mpr h.page_ge
  simp only [h.fixboot_eq_sign, sign, ByteFile.read, ByteFile.seek, ByteFile.write,
    List.drop_zero, hs, hp, if_false, writeAt_writeAt h.complete, and_self]

/-- The bytes `00 01 FF*8 00`. -/
def padBytes : List UInt8 := 0x00 :: 0x01 :: List.replicate 8 0xFF ++ [0x00]

theorem target_eq_beNat (d : List UInt8) : target d = beNat (padBytes ++ d) := by
  rw [beNat_append, target, show (256 : ℕ) = 2 ^ 8 from rfl, ← pow_mul]
  rfl

/-- What a signed image is: the run returns; the signed part is as before; the
cube of the signature, written as 256 bytes, starts with the padded digest; the
rest of its page is zero; nothing behind the page changed; and a second run
changes nothing. -/
structure Signs (sha256 : List UInt8 → Vector UInt8 32) (fn : String) (img : List UInt8) :
    Prop where
  returns : (fixboot sha256 fn img).result = .ok none
  signed_part : ∀ i < signedSize img, (fixboot sha256 fn img).file[i]? = img[i]?
  signature : ∃ sig, ((fixboot sha256 fn img).file.drop (signedSize img)).take 256 = sig ∧
    sig.length = 256 ∧ beNat sig ^ 3 < 256 ^ 256 ∧
    (beBytes 256 (beNat sig ^ 3)).take 43 = padBytes ++ digest sha256 img
  fill : ∀ i, signedSize img + 256 ≤ i → i < signedSize img + pageSize img →
    (fixboot sha256 fn img).file[i]? = some 0
  tail : ∀ i, signedSize img + pageSize img ≤ i → (fixboot sha256 fn img).file[i]? = img[i]?
  again : (fixboot sha256 fn (fixboot sha256 fn img).file).file = (fixboot sha256 fn img).file

theorem BootImage.signs_of_not_cube (h : BootImage img)
    (hno : ¬ ∃ m, m ^ 3 = target (digest sha256 img)) : Signs sha256 fn img := by
  obtain ⟨s, hs, hcube, hdiv⟩ := forge_eq_ok_of_not_cube length_digest hno
  obtain ⟨hret, hfile⟩ := h.fixboot_of_ok fn hs
  have hge := h.page_ge
  have hcomp := h.complete
  have hsmall : s < 256 ^ 256 := (Nat.le_self_pow (by norm_num) s).trans_lt hcube
  set page := beBytes 256 s ++ List.replicate (pageSize img - 256) 0 with hpage
  have hlen : page.length = pageSize img := by
    simp [hpage]
    omega
  have htake := take_writeAt page hcomp
  refine ⟨hret, ?_, ⟨beBytes 256 s, ?_, by simp, ?_, ?_⟩, ?_, ?_, ?_⟩
  · intro i hi
    rw [hfile, getElem?_writeAt_lt hcomp hi]
  · have hmid := take_drop_writeAt page hcomp
    have h256 := congrArg (List.take 256) hmid
    rwa [List.take_take, hlen, min_eq_left hge, hpage, List.take_left' (by simp), ← hpage,
      ← hfile] at h256
  · rwa [beNat_beBytes, Nat.mod_eq_of_lt hsmall]
  · have hpad : (padBytes ++ digest sha256 img).length = 43 := by
      rw [List.length_append, length_digest]
      rfl
    rw [beNat_beBytes, Nat.mod_eq_of_lt hsmall, show 256 = 43 + 213 from rfl, take_beBytes,
      hdiv, target_eq_beNat, ← hpad, beBytes_beNat]
  · intro i hlo hhi
    obtain ⟨j, rfl⟩ := Nat.exists_eq_add_of_le (Nat.le_of_add_right_le hlo)
    rw [hfile, getElem?_writeAt_mid hcomp (by omega), hpage,
      List.getElem?_append_right (by simp; omega), List.getElem?_replicate, if_pos (by simp; omega)]
  · intro i hi
    rw [hfile, getElem?_writeAt_ge hcomp (by omega)]
  · -- the signed part is unchanged, so the second run forges and writes the same page
    rw [hfile]
    obtain ⟨h', hps, hsize⟩ := h.of_take_eq htake
    have hdigest : forge (digest sha256 (writeAt img (signedSize img) page)) =
        .ok (beBytes 256 s) := by
      rw [digest, hsize, htake]
      exact hs
    rw [(h'.fixboot_of_ok fn hdigest).2, hps, hsize, writeAt_idem hcomp]

theorem BootImage.not_signs_of_cube (h : BootImage img)
    (hcube : ∃ m, m ^ 3 = target (digest sha256 img)) : ¬ Signs sha256 fn img := by
  intro hs
  have hret := hs.returns
  rw [h.fixboot_of_error (forge_eq_error_of_cube length_digest hcube)] at hret
  cases hret

/-- **When an image is signed.**  `fixboot` does to a boot image all that
`Signs` says if and only if its padded digest is not a perfect cube. -/
theorem fixboot_signs_iff (h : BootImage img) :
    Signs sha256 fn img ↔ ¬ ∃ m, m ^ 3 = target (digest sha256 img) := by
  constructor
  · intro hs hcube
    exact h.not_signs_of_cube hcube hs
  · exact h.signs_of_not_cube

/-- The smallest image: one page of 256 bytes and no parts. -/
def emptyImage : List UInt8 :=
  androidMagic ++ List.replicate 28 0 ++ [0, 1, 0, 0] ++ List.replicate 216 0

theorem bootImage_emptyImage : BootImage emptyImage :=
  ⟨by decide, ⟨8, by decide⟩, by decide, by decide +kernel⟩

theorem fixboot_signs_emptyImage :
    Signs (fun _ => Vector.replicate 32 0) "boot.img" emptyImage := by
  refine (fixboot_signs_iff bootImage_emptyImage).mpr ?_
  rintro ⟨m, hm⟩
  have htarget : target (Vector.replicate 32 (0 : UInt8)).toList =
      0x0001FFFFFFFFFFFFFFFF00 * 2 ^ 256 := by rfl
  rw [digest, htarget] at hm
  -- the padded zero digest lies strictly between two neighbouring cubes
  have hlo : 1030282186921170348593378732853395 < m :=
    lt_of_pow_lt_pow_left₀ 3 (Nat.zero_le _) (by rw [hm]; norm_num)
  have hhi : m < 1030282186921170348593378732853396 :=
    lt_of_pow_lt_pow_left₀ 3 (Nat.zero_le _) (by rw [hm]; norm_num)
  omega

/-- A digest whose padded form is the cube of a 110-bit number. -/
def cubeDigest : Vector UInt8 32 :=
  #v[0, 0, 0, 0, 4, 33, 100, 154, 115, 1, 97, 241, 73, 152, 64, 211,
    135, 96, 235, 98, 155, 148, 89, 107, 203, 5, 234, 89, 183, 122, 247, 64]

theorem fixboot_not_signs_cubeDigest :
    BootImage emptyImage ∧ ¬ Signs (fun _ => cubeDigest) "boot.img" emptyImage := by
  refine ⟨bootImage_emptyImage, bootImage_emptyImage.not_signs_of_cube ?_⟩
  exact ⟨1030282186921170348593378732853396, by rfl⟩

end Fixboot

end Cuboot

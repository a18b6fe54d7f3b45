/-
The layout of raw frames, `mm_stream_calc_offset_raw`.

A raw frame is one plane of packed pixels.  A format packs a group of pixels into
a number of bytes, and a row takes whole groups.

* `rowBytes` — the bytes of a row under the packing of the format;
* `raw_layout_adequate_iff` — the plane has room for all rows, except that MIPI
  frames with 10 bits per pixel are too short for some widths (`mipiMissing`),
  because their rows are computed with a division that rounds down.
-/
import HdxCommon.FrameLayout

namespace Layout

open Rounding

/-- The bytes that a row of a raw frame occupies; a part of a group of pixels
counts as a group. -/
def rowBytes (fmt : Format) (width : ℕ) : ℕ :=
  match fmt with
  | .bayerQcomRaw8bpp _ | .bayerMipiRaw8bpp _ | .bayerIdealRawQcom8bpp _
  | .bayerIdealRawMipi8bpp _ | .bayerIdealRawPlain8 _ => (width + 15) / 16 * 16
  | .bayerQcomRaw10bpp _ | .bayerIdealRawQcom10bpp _ => (width + 11) / 12 * 16
  | .bayerQcomRaw12bpp _ | .bayerIdealRawQcom12bpp _ => (width + 9) / 10 * 16
  | .bayerMipiRaw10bpp _ | .bayerIdealRawMipi10bpp _ => (width + 3) / 4 * 5
  | .bayerMipiRaw12bpp _ | .bayerIdealRawMipi12bpp _ => (width + 1) / 2 * 3
  | .bayerIdealRawPlain16At8bpp _ | .bayerIdealRawPlain16At10bpp _
  | .bayerIdealRawPlain16At12bpp _ | .yuvRaw8bit _ | .jpegRaw8bit | .metaRaw8bit => 2 * width
  | _ => 0

/-- The frame is one plane, which has room for the rows. -/
def RawAdequate (fmt : Format) (dim : Dimension) (l : FrameLayout) : Prop :=
  ∃ p, l.planes = [p] ∧ dim.height * rowBytes fmt dim.width ≤ p.len ∧ p.len ≤ l.frameLen

def Format.isMipi10 : Format → Bool
  | .bayerMipiRaw10bpp _ | .bayerIdealRawMipi10bpp _ => true
  | _ => false

/-- The bytes by which a row of MIPI with 10 bits per pixel is too short. -/
def mipiMissing (width : ℕ) : ℕ :=
  match width % 32 with
  | 5 | 6 | 7 => 2
  | 13 => 4
  | 17 | 18 | 19 => 1
  | 25 | 26 => 3
  | _ => 0

/-- The bytes that the padding of the plane adds to the rows of MIPI with 10 bits
per pixel. -/
def mipiSlack (planePadding : ℕ) (dim : Dimension) : ℕ :=
  roundUp ((dim.width * 5 / 4 + 7) / 8 * 8 * dim.height) planePadding -
    (dim.width * 5 / 4 + 7) / 8 * 8 * dim.height

variable {fmt : Format} {dim : Dimension} {padding : PaddingInfo} {l : FrameLayout} {k : ℕ}

theorem rawFrame_spec {stride scanline size : ℕ} (hk : padding.planePadding = 2 ^ k)
    (h : rawFrame padding stride scanline size = some l) :
    ∃ p, l.planes = [p] ∧ p.len = roundUp size (2 ^ k) ∧ p.len ≤ l.frameLen := by
  simp only [rawFrame, hk, Option.bind_eq_bind, Option.bind_eq_some_iff] at h
  obtain ⟨len, hlen, frameLen, hframe, h⟩ := h
  cases h
  exact ⟨_, rfl, padUp_two_pow le_rfl hlen, (padUp_spec (k := 12) le_rfl hframe).1⟩

theorem rawAdequate_of_le {stride scanline size : ℕ} (hk : padding.planePadding = 2 ^ k)
    (h : rawFrame padding stride scanline size = some l)
    (hsize : dim.height * rowBytes fmt dim.width ≤ size) : RawAdequate fmt dim l := by
  obtain ⟨p, hp, hlen, hle⟩ := rawFrame_spec hk h
  refine ⟨p, hp, hsize.trans ?_, hle⟩
  rw [hlen]
  exact le_roundUp (Nat.two_pow_pos k)

/-- The stride of MIPI with 10 bits per pixel, and what it lacks. -/
theorem mipi_row (w : ℕ) : (w + 3) / 4 * 5 ≤ (w * 5 / 4 + 7) / 8 * 8 + mipiMissing w ∧
    (0 < mipiMissing w → (w + 3) / 4 * 5 = (w * 5 / 4 + 7) / 8 * 8 + mipiMissing w) := by
  -- both sides grow by 40 bytes for 32 pixels
  have hsmall : ∀ r < 32, (r + 3) / 4 * 5 ≤ (r * 5 / 4 + 7) / 8 * 8 + mipiMissing r ∧
      (0 < mipiMissing r → (r + 3) / 4 * 5 = (r * 5 / 4 + 7) / 8 * 8 + mipiMissing r) := by
    decide
  have hr := hsmall (w % 32) (Nat.mod_lt _ (by decide))
  have hmissing : mipiMissing (w % 32) = mipiMissing w := by
    unfold mipiMissing
    rw [Nat.mod_mod]
  have hrow : (w + 3) / 4 * 5 = (w % 32 + 3) / 4 * 5 + 40 * (w / 32) := by omega
  have hstride : (w * 5 / 4 + 7) / 8 * 8 = (w % 32 * 5 / 4 + 7) / 8 * 8 + 40 * (w / 32) := by
    omega
  rw [hmissing] at hr
  rw [hrow, hstride]
  refine ⟨by omega, ?_⟩
  intro hpos
  have heq := hr.2 hpos
  omega

/-! ### The packings -/

section Packing

variable (hk : padding.planePadding = 2 ^ k)
include hk

theorem raw16_adequate {j : ℕ} (hrow : rowBytes fmt dim.width = 2 * dim.width)
    (h : (do
      let stride ← padToSize dim.width (2 ^ j)
      rawFrame padding stride dim.height (← int32 ((← int32 (stride * dim.height)) * 2))) =
        some l) : RawAdequate fmt dim l := by
  simp only [Option.bind_eq_bind, Option.bind_eq_some_iff, fits_eq_some] at h
  obtain ⟨stride, hstride, _, ⟨rfl, -⟩, _, ⟨rfl, -⟩, h⟩ := h
  refine rawAdequate_of_le hk h ?_
  have hle := (padUp_spec (by decide) hstride).1
  calc dim.height * rowBytes fmt dim.width = dim.width * dim.height * 2 := by
        rw [hrow]
        ring
    _ ≤ stride * dim.height * 2 := Nat.mul_le_mul_right _ (Nat.mul_le_mul_right _ hle)

theorem raw8_adequate (hrow : rowBytes fmt dim.width = (dim.width + 15) / 16 * 16)
    (h : (do
      let stride ← padToSize dim.width 16
      rawFrame padding stride dim.height (← int32 (stride * dim.height))) = some l) :
    RawAdequate fmt dim l := by
  simp only [Option.bind_eq_bind, Option.bind_eq_some_iff, fits_eq_some] at h
  obtain ⟨stride, hstride, _, ⟨rfl, -⟩, h⟩ := h
  refine rawAdequate_of_le hk h ?_
  have heq : stride = (dim.width + 15) / 16 * 16 := padUp_two_pow (k := 4) (by decide) hstride
  rw [hrow, ← heq, Nat.mul_comm]

/-- `g` pixels, of `b` bytes in 8, occupy 16 bytes. -/
theorem rawQcom_adequate {g b : ℕ} (hg : g = 2 * b) (hb : 0 < b)
    (hrow : rowBytes fmt dim.width = (dim.width + (g - 1)) / g * 16)
    (h : (do
      let stride := (← int32 (dim.width + (g - 1))) / g * g
      rawFrame padding stride dim.height
        ((← int32 ((← int32 (stride * dim.height)) * 8)) / b)) = some l) :
    RawAdequate fmt dim l := by
  simp only [Option.bind_eq_bind, Option.bind_eq_some_iff, fits_eq_some] at h
  obtain ⟨_, ⟨rfl, -⟩, _, ⟨rfl, -⟩, _, ⟨rfl, -⟩, h⟩ := h
  refine rawAdequate_of_le hk h ?_
  rw [hrow]
  refine (Nat.le_div_iff_mul_le hb).mpr (le_of_eq ?_)
  generalize (dim.width + (g - 1)) / g = groups
  rw [hg]
  ring

theorem rawMipi12_adequate (hrow : rowBytes fmt dim.width = (dim.width + 1) / 2 * 3)
    (h : (do
      let stride ← padToSize dim.width 32
      rawFrame padding stride dim.height
        ((← int32 ((← int32 (stride * dim.height)) * 3)) / 2)) = some l) :
    RawAdequate fmt dim l := by
  simp only [Option.bind_eq_bind, Option.bind_eq_some_iff, fits_eq_some] at h
  obtain ⟨stride, hstride, _, ⟨rfl, -⟩, _, ⟨rfl, -⟩, h⟩ := h
  refine rawAdequate_of_le hk h ?_
  obtain ⟨hle, hdvd⟩ := padUp_spec (k := 5) (by decide) hstride
  have hpairs : (dim.width + 1) / 2 * 2 ≤ stride := by omega
  rw [hrow]
  refine (Nat.le_div_iff_mul_le (by decide)).mpr ?_
  calc dim.height * ((dim.width + 1) / 2 * 3) * 2
      = (dim.width + 1) / 2 * 2 * dim.height * 3 := by ring
    _ ≤ stride * dim.height * 3 := Nat.mul_le_mul_right _ (Nat.mul_le_mul_right _ hpairs)

theorem rawMipi10_adequate_iff (hrow : rowBytes fmt dim.width = (dim.width + 3) / 4 * 5)
    (h : (do
      let stride ← padToSize ((← int32 (dim.width * 5)) / 4) 8
      rawFrame padding stride dim.height (← int32 (stride * dim.height))) = some l) :
    RawAdequate fmt dim l ↔
      dim.height * mipiMissing dim.width ≤ mipiSlack padding.planePadding dim := by
  simp only [Option.bind_eq_bind, Option.bind_eq_some_iff, fits_eq_some] at h
  obtain ⟨_, ⟨rfl, -⟩, stride, hstride, _, ⟨rfl, -⟩, h⟩ := h
  have heq : stride = (dim.width * 5 / 4 + 7) / 8 * 8 :=
    padUp_two_pow (k := 3) (by decide) hstride
  obtain ⟨p, hp, hlen, hle⟩ := rawFrame_spec hk h
  have hround := le_roundUp (x := stride * dim.height) (Nat.two_pow_pos k)
  obtain ⟨hbound, hexact⟩ := mipi_row dim.width
  have hsum : dim.height * (stride + mipiMissing dim.width) =
      stride * dim.height + dim.height * mipiMissing dim.width := by ring
  rw [← heq] at hbound hexact
  have hiff : dim.height * rowBytes fmt dim.width ≤ p.len ↔
      dim.height * mipiMissing dim.width ≤ mipiSlack padding.planePadding dim := by
    rw [hrow, hlen, mipiSlack, hk, ← heq]
    rcases Nat.eq_zero_or_pos (mipiMissing dim.width) with hzero | hpos
    · have hmul := Nat.mul_le_mul_left dim.height hbound
      rw [hzero] at hmul hsum ⊢
      omega
    · rw [hexact hpos, hsum]
      omega
  constructor
  · rintro ⟨q, hq, hadequate, -⟩
    obtain rfl := List.singleton_inj.mp (hp.symm.trans hq)
    exact hiff.mp hadequate
  · intro hslack
    exact ⟨p, hp, hiff.mpr hslack, hle⟩

end Packing

theorem calcOffsetRaw_adequate_iff (hk : padding.planePadding = 2 ^ k)
    (h : calcOffsetRaw fmt dim padding = some l) :
    RawAdequate fmt dim l ↔ (fmt.isMipi10 = true →
      dim.height * mipiMissing dim.width ≤ mipiSlack padding.planePadding dim) := by
  have hothers : fmt.isMipi10 = false → RawAdequate fmt dim l → (RawAdequate fmt dim l ↔
      (fmt.isMipi10 = true →
        dim.height * mipiMissing dim.width ≤ mipiSlack padding.planePadding dim)) := by
    intro hfmt hadequate
    simp [hfmt, hadequate]
  unfold calcOffsetRaw at h
  simp only at h
  split at h
  iterate 3 · exact hothers rfl (raw16_adequate (j := 4) hk rfl h)
  iterate 5 · exact hothers rfl (raw8_adequate hk rfl h)
  iterate 2 · exact hothers rfl (rawQcom_adequate (g := 12) (b := 6) hk rfl (by decide) rfl h)
  iterate 2 · exact hothers rfl (rawQcom_adequate (g := 10) (b := 5) hk rfl (by decide) rfl h)
  iterate 2
    · rw [rawMipi10_adequate_iff hk rfl h]
      simp [Format.isMipi10]
  iterate 2 · exact hothers rfl (rawMipi12_adequate hk rfl h)
  iterate 3 · exact hothers rfl (raw16_adequate (j := 3) hk rfl h)
  · cases h

/-- **Which raw layouts are adequate.**  For every raw format and size, the plane of
the layout has room for all rows under the packing of the format, and the frame
for the plane, exactly if the format is not MIPI with 10 bits per pixel, or what
its rows lack is made up for by the padding of the plane. -/
theorem raw_layout_adequate_iff {venus : Option Venus} {isAFamily : Bool} {info : StreamInfo}
    (htype : info.streamType = .raw) (hpad : ∃ k, padding.planePadding = 2 ^ k)
    (h : calcOffset venus isAFamily padding info = some l) :
    RawAdequate info.fmt info.rotated l ↔ (info.fmt.isMipi10 = true →
      info.rotated.height * mipiMissing info.rotated.width ≤
        mipiSlack padding.planePadding info.rotated) := by
  obtain ⟨k, hk⟩ := hpad
  simp only [calcOffset, htype] at h
  exact calcOffsetRaw_adequate_iff hk h

def rawStream (fmt : Format) : StreamInfo := ⟨.raw, fmt, ⟨13, 100⟩, false, .rotate0⟩

theorem raw_layout_adequate_iff_qcom : ∃ l,
    calcOffset none false ⟨1, 1, 1⟩ (rawStream (.bayerQcomRaw10bpp .rggb)) = some l ∧
      RawAdequate (.bayerQcomRaw10bpp .rggb) ⟨13, 100⟩ l := by
  obtain ⟨l, hl⟩ := Option.isSome_iff_exists.mp (show (calcOffset none false ⟨1, 1, 1⟩
    (rawStream (.bayerQcomRaw10bpp .rggb))).isSome by decide)
  exact ⟨l, hl, (raw_layout_adequate_iff rfl ⟨0, rfl⟩ hl).mpr (by decide)⟩

/-- Every row of 13 pixels takes 20 bytes, and the plane has 16 for each. -/
theorem mipi_frame_too_short : ∃ l p,
    calcOffset none false ⟨1, 1, 1⟩ (rawStream (.bayerMipiRaw10bpp .rggb)) = some l ∧
      l.planes = [p] ∧ p.len = 1600 ∧ 100 * rowBytes (.bayerMipiRaw10bpp .rggb) 13 = 2000 ∧
      ¬ RawAdequate (.bayerMipiRaw10bpp .rggb) ⟨13, 100⟩ l := by
  have hcalc : calcOffset none false ⟨1, 1, 1⟩ (rawStream (.bayerMipiRaw10bpp .rggb)) =
      some ⟨[⟨1600, 0, 0, 0, 16, 100, 1600, 1⟩], 4096⟩ := by decide
  refine ⟨_, _, hcalc, rfl, rfl, rfl, ?_⟩
  rintro ⟨p, hp, hle, -⟩
  obtain rfl := List.singleton_inj.mp hp
  exact absurd hle (by decide)

end Layout

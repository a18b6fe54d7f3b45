/-
The layout of frames, `mm_stream_calc_offset` and the functions it calls.

A frame is a sequence of planes, each with a stride and a number of scanlines that
are padded as its format and its stream ask for, and the frame as a whole takes
full pages.

* `Adequate` — the planes are those of the image, every plane has room for its
  rows, and the frame has room for its planes;
* `frame_layout_adequate` — so are the layouts of preview, postview and snapshot
  streams, for images of even size;
* `preview_size_le_frame_len` — the part of a preview buffer that the application
  sees is inside the frame.

The functions answer `none` for a format they refuse, and if a 32-bit result does
not fit its type.
-/
import HdxCommon.Rounding

namespace Layout

open Rounding

/-- The order of the colours of a Bayer pattern. -/
inductive Bayer where
  | gbrg | grbg | rggb | bggr
  deriving DecidableEq, Repr

inductive YuvOrder where
  | yuyv | yvyu | uyvy | vyuy
  deriving DecidableEq, Repr

/-- `cam_format_t`. -/
inductive Format where
  | jpeg
  | yuv420Nv12
  | yuv420Nv21
  | yuv420Nv21Adreno
  | yuv420Yv12
  | yuv422Nv16
  | yuv422Nv61
  | yuv420Nv12Venus
  | yuvRaw8bit (order : YuvOrder)
  | bayerQcomRaw8bpp (bayer : Bayer)
  | bayerQcomRaw10bpp (bayer : Bayer)
  | bayerQcomRaw12bpp (bayer : Bayer)
  | bayerMipiRaw8bpp (bayer : Bayer)
  | bayerMipiRaw10bpp (bayer : Bayer)
  | bayerMipiRaw12bpp (bayer : Bayer)
  | bayerIdealRawQcom8bpp (bayer : Bayer)
  | bayerIdealRawQcom10bpp (bayer : Bayer)
  | bayerIdealRawQcom12bpp (bayer : Bayer)
  | bayerIdealRawMipi8bpp (bayer : Bayer)
  | bayerIdealRawMipi10bpp (bayer : Bayer)
  | bayerIdealRawMipi12bpp (bayer : Bayer)
  | bayerIdealRawPlain8 (bayer : Bayer)
  | bayerIdealRawPlain16At8bpp (bayer : Bayer)
  | bayerIdealRawPlain16At10bpp (bayer : Bayer)
  | bayerIdealRawPlain16At12bpp (bayer : Bayer)
  | jpegRaw8bit
  | metaRaw8bit
  deriving DecidableEq, Repr

/-- `cam_dimension_t`. -/
structure Dimension where
  width : ℕ
  height : ℕ
  deriving DecidableEq, Repr

/-- `cam_padding_info_t`. -/
structure PaddingInfo where
  widthPadding : ℕ
  heightPadding : ℕ
  planePadding : ℕ
  deriving DecidableEq, Repr

/-- `cam_mp_len_offset_t`. -/
structure Plane where
  len : ℕ
  offset : ℕ
  offsetX : ℕ
  offsetY : ℕ
  stride : ℕ
  scanline : ℕ
  width : ℕ
  height : ℕ
  deriving DecidableEq, Repr

/-- `cam_frame_len_offset_t`. -/
structure FrameLayout where
  planes : List Plane
  frameLen : ℕ
  deriving DecidableEq, Repr

/-- The sizes that the macros of the Venus driver give. -/
structure Venus where
  yStride : ℕ → ℕ
  yScanlines : ℕ → ℕ
  uvStride : ℕ → ℕ
  uvScanlines : ℕ → ℕ
  bufferSize : ℕ → ℕ → ℕ

/-- `PAD_TO_SIZE` with an `int`, and with a `uint32_t` among its arguments. -/
abbrev padToSize (size padding : ℕ) : Option ℕ := padUp 31 size padding

abbrev padToSizeU (size padding : ℕ) : Option ℕ := padUp 32 size padding

def plane (len stride scanline width height : ℕ) : Plane :=
  ⟨len, 0, 0, 0, stride, scanline, width, height⟩

/-- The length of a frame: its planes, rounded up to pages. -/
def frame (planes : List Plane) : Option FrameLayout := do
  let sum ← uint32 (planes.map Plane.len).sum
  let frameLen ← padToSizeU sum 4096
  return ⟨planes, frameLen⟩

/-! ### Preview and postview -/

/-- `Y + CbCr`, both planes padded in the same way. -/
def nv12 (widthPadding heightPadding : ℕ) (dim : Dimension) : Option FrameLayout := do
  let stride ← padToSize dim.width widthPadding
  let scanline ← padToSize dim.height heightPadding
  let len₀ ← int32 (stride * scanline)
  let stride₁ ← padToSize dim.width widthPadding
  let scanline₁ ← padToSize (dim.height / 2) heightPadding
  let len₁ ← int32 (stride₁ * scanline₁)
  frame [plane len₀ stride scanline dim.width dim.height,
    plane len₁ stride₁ scanline₁ dim.width (dim.height / 2)]

/-- `Y + CbCr` for the Adreno: each plane takes full pages. -/
def nv21Adreno (dim : Dimension) : Option FrameLayout := do
  let stride ← padToSize dim.width 32
  let scanline ← padToSize dim.height 32
  let len₀ ← padToSize (← int32 (stride * scanline)) 4096
  let stride₁ ← int32 ((← padToSize (dim.width / 2) 32) * 2)
  let scanline₁ ← padToSize (dim.height / 2) 32
  let len₁ ← padToSize (← int32 (stride₁ * scanline₁)) 4096
  frame [plane len₀ stride scanline dim.width dim.height,
    plane len₁ stride₁ scanline₁ dim.width (dim.height / 2)]

/-- `Y + Cr + Cb`: the chroma stride is half the padded stride, padded again. -/
def yv12 (dim : Dimension) : Option FrameLayout := do
  let stride ← padToSize dim.width 16
  let scanline ← padToSize dim.height 2
  let len₀ ← int32 (stride * scanline)
  let stride₁ ← padToSize (stride / 2) 16
  let scanline₁ := scanline / 2
  let len₁ ← int32 (stride₁ * scanline₁)
  frame [plane len₀ stride scanline dim.width dim.height,
    plane len₁ stride₁ scanline₁ (dim.width / 2) (dim.height / 2),
    plane len₁ stride₁ scanline₁ (dim.width / 2) (dim.height / 2)]

/-- `Y + CbCr` with all rows of chroma. -/
def nv16 (dim : Dimension) : Option FrameLayout := do
  let stride ← padToSize dim.width 16
  let scanline := dim.height
  let len ← int32 (stride * scanline)
  frame [plane len stride scanline dim.width dim.height,
    plane len stride scanline dim.width dim.height]

/-- `Y + CbCr` for Venus: the second plane is what is left of the frame. -/
def nv12Venus (venus : Venus) (dim : Dimension) : Option FrameLayout := do
  let stride := venus.yStride dim.width
  let scanline := venus.yScanlines dim.height
  let frameLen := venus.bufferSize dim.width dim.height
  let len₀ ← int32 (stride * scanline)
  return ⟨[plane len₀ stride scanline dim.width dim.height,
    plane (frameLen - len₀) (venus.uvStride dim.width) (venus.uvScanlines dim.height) dim.width
      dim.height], frameLen⟩

/-- `mm_stream_calc_offset_preview`; without `VENUS_PRESENT` there is no Venus. -/
def calcOffsetPreview (venus : Option Venus) (fmt : Format) (dim : Dimension) :
    Option FrameLayout :=
  match fmt with
  | .yuv420Nv12 | .yuv420Nv21 => nv12 16 2 dim
  | .yuv420Nv21Adreno => nv21Adreno dim
  | .yuv420Yv12 => yv12 dim
  | .yuv422Nv16 | .yuv422Nv61 => nv16 dim
  | .yuv420Nv12Venus => do nv12Venus (← venus) dim
  | _ => none

/-- `mm_stream_calc_offset_post_view`. -/
def calcOffsetPostView (venus : Option Venus) (fmt : Format) (dim : Dimension) :
    Option FrameLayout :=
  match fmt with
  | .yuv420Nv12 | .yuv420Nv21 => nv12 64 64 dim
  | .yuv420Nv21Adreno => nv21Adreno dim
  | .yuv420Yv12 => yv12 dim
  | .yuv422Nv16 | .yuv422Nv61 => nv16 dim
  | .yuv420Nv12Venus => do nv12Venus (← venus) dim
  | _ => none

/-! ### Snapshot -/

/-- Stride, scanlines and vertical offset of the first plane of a snapshot. -/
def snapshotRows (isAFamily : Bool) (dim : Dimension) (padding : PaddingInfo) :
    Option (ℕ × ℕ × ℕ) :=
  if isAFamily then do
    let scanline ← padToSize dim.height 16
    let offsetY := scanline - dim.height
    -- double padding
    return (dim.width, ← int32 (scanline + offsetY), offsetY)
  else do
    let stride ← int32 (← padToSizeU dim.width padding.widthPadding)
    let scanline ← int32 (← padToSizeU dim.height padding.heightPadding)
    return (stride, scanline, 0)

def snapshotPlane (padding : PaddingInfo) (stride scanline offsetY width height : ℕ) :
    Option Plane := do
  let len ← padToSizeU (← int32 (stride * scanline)) padding.planePadding
  let offset ← padToSizeU (← int32 (stride * offsetY)) padding.planePadding
  return ⟨len, offset, 0, offsetY, stride, scanline, width, height⟩

/-- `mm_stream_calc_offset_snapshot`. -/
def calcOffsetSnapshot (isAFamily : Bool) (fmt : Format) (dim : Dimension)
    (padding : PaddingInfo) : Option FrameLayout := do
  let (stride, scanline, offsetY) ← snapshotRows isAFamily dim padding
  match fmt with
  | .yuv420Nv12 | .yuv420Nv21 => do
    let y ← snapshotPlane padding stride scanline offsetY dim.width dim.height
    let c ← snapshotPlane padding stride (scanline / 2) offsetY dim.width (dim.height / 2)
    frame [y, c]
  | .yuv420Yv12 => do
    let y ← snapshotPlane padding stride scanline offsetY dim.width dim.height
    let stride₁ ← padToSize (stride / 2) 16
    let c ← snapshotPlane padding stride₁ (scanline / 2) offsetY (dim.width / 2)
      (dim.height / 2)
    frame [y, c, c]
  | .yuv422Nv16 | .yuv422Nv61 => do
    let y ← snapshotPlane padding stride scanline offsetY dim.width dim.height
    frame [y, y]
  | _ => none

/-! ### Raw -/

/-- The only plane of a raw frame; its width is its length. -/
def rawFrame (padding : PaddingInfo) (stride scanline size : ℕ) : Option FrameLayout := do
  let len ← padToSizeU size padding.planePadding
  let frameLen ← padToSizeU len 4096
  return ⟨[⟨len, 0, 0, 0, stride, scanline, len, 1⟩], frameLen⟩

/-- `mm_stream_calc_offset_raw`. -/
def calcOffsetRaw (fmt : Format) (dim : Dimension) (padding : PaddingInfo) :
    Option FrameLayout :=
  let scanline := dim.height
  match fmt with
  | .yuvRaw8bit _ | .jpegRaw8bit | .metaRaw8bit => do
    let stride ← padToSize dim.width 16
    rawFrame padding stride scanline (← int32 ((← int32 (stride * scanline)) * 2))
  | .bayerQcomRaw8bpp _ | .bayerMipiRaw8bpp _ | .bayerIdealRawQcom8bpp _
  | .bayerIdealRawMipi8bpp _ | .bayerIdealRawPlain8 _ => do
    -- every 16 pixels occupy 16 bytes
    let stride ← padToSize dim.width 16
    rawFrame padding stride scanline (← int32 (stride * scanline))
  | .bayerQcomRaw10bpp _ | .bayerIdealRawQcom10bpp _ => do
    -- every 12 pixels occupy 16 bytes
    let stride := (← int32 (dim.width + 11)) / 12 * 12
    rawFrame padding stride scanline ((← int32 ((← int32 (stride * scanline)) * 8)) / 6)
  | .bayerQcomRaw12bpp _ | .bayerIdealRawQcom12bpp _ => do
    -- every 10 pixels occupy 16 bytes
    let stride := (← int32 (dim.width + 9)) / 10 * 10
    rawFrame padding stride scanline ((← int32 ((← int32 (stride * scanline)) * 8)) / 5)
  | .bayerMipiRaw10bpp _ | .bayerIdealRawMipi10bpp _ => do
    -- every 64 pixels occupy 80 bytes
    let stride ← padToSize ((← int32 (dim.width * 5)) / 4) 8
    rawFrame padding stride scanline (← int32 (stride * scanline))
  | .bayerMipiRaw12bpp _ | .bayerIdealRawMipi12bpp _ => do
    -- every 32 pixels occupy 48 bytes
    let stride ← padToSize dim.width 32
    rawFrame padding stride scanline ((← int32 ((← int32 (stride * scanline)) * 3)) / 2)
  | .bayerIdealRawPlain16At8bpp _ | .bayerIdealRawPlain16At10bpp _
  | .bayerIdealRawPlain16At12bpp _ => do
    -- every 8 pixels occupy 16 bytes
    let stride ← padToSize dim.width 8
    rawFrame padding stride scanline (← int32 ((← int32 (stride * scanline)) * 2))
  | _ => none

/-! ### Streams -/

/-- `cam_rotation_t`. -/
inductive Rotation where
  | rotate0 | rotate90 | rotate180 | rotate270
  deriving DecidableEq, Repr

inductive StreamType where
  | preview | postview | snapshot | raw
  deriving DecidableEq, Repr

/-- `cam_stream_info_t` as far as it decides the layout; `feature` is
`CAM_QCOM_FEATURE_ROTATION` in the mask of the stream. -/
structure StreamInfo where
  streamType : StreamType
  fmt : Format
  dim : Dimension
  feature : Bool
  rotation : Rotation

/-- The dimension of the image as the stream rotates it. -/
def StreamInfo.rotated (info : StreamInfo) : Dimension :=
  if info.feature && (info.rotation == .rotate90 || info.rotation == .rotate270) then
    ⟨info.dim.height, info.dim.width⟩
  else info.dim

/-- `mm_stream_calc_offset`: a postview stream has the layout of a preview stream. -/
def calcOffset (venus : Option Venus) (isAFamily : Bool) (padding : PaddingInfo)
    (info : StreamInfo) : Option FrameLayout :=
  match info.streamType with
  | .preview | .postview => calcOffsetPreview venus info.fmt info.rotated
  | .snapshot => calcOffsetSnapshot isAFamily info.fmt info.rotated padding
  | .raw => calcOffsetRaw info.fmt info.rotated padding

/-! ### Room for the image -/

/-- Width in bytes and height of the planes of an image: the luma plane, and one
or two chroma planes as the format subsamples them. -/
def planeSizes (fmt : Format) (dim : Dimension) : List (ℕ × ℕ) :=
  match fmt with
  | .yuv420Nv12 | .yuv420Nv21 | .yuv420Nv21Adreno =>
    [(dim.width, dim.height), (2 * (dim.width / 2), dim.height / 2)]
  | .yuv420Yv12 =>
    [(dim.width, dim.height), (dim.width / 2, dim.height / 2), (dim.width / 2, dim.height / 2)]
  | .yuv422Nv16 | .yuv422Nv61 =>
    [(dim.width, dim.height), (2 * (dim.width / 2), dim.height)]
  | _ => []

/-- The plane is of this size, and has room for its rows. -/
structure Plane.Holds (size : ℕ × ℕ) (p : Plane) : Prop where
  width : p.width = size.1
  height : p.height = size.2
  stride : size.1 ≤ p.stride
  scanline : size.2 ≤ p.scanline
  len : p.stride * p.scanline ≤ p.len

/-- The planes are those of the image, and the frame has room for them. -/
structure Adequate (fmt : Format) (dim : Dimension) (l : FrameLayout) : Prop where
  planes : List.Forall₂ Plane.Holds (planeSizes fmt dim) l.planes
  sum : (l.planes.map Plane.len).sum ≤ l.frameLen
  page : 4096 ∣ l.frameLen

/-- What a padding with a power of two gives. -/
theorem padUp_spec {w size k r : ℕ} (hw : w ≤ 32) (h : padUp w size (2 ^ k) = some r) :
    size ≤ r ∧ 2 ^ k ∣ r := by
  rw [padUp_two_pow hw h]
  exact ⟨le_roundUp (Nat.two_pow_pos k), dvd_roundUp⟩

/-- The frame has room for its planes, and takes full pages. -/
theorem frame_spec {planes : List Plane} {l : FrameLayout} (h : frame planes = some l) :
    l.planes = planes ∧ (l.planes.map Plane.len).sum ≤ l.frameLen ∧ 4096 ∣ l.frameLen := by
  simp only [frame, Option.bind_eq_bind, Option.bind_eq_some_iff, fits_eq_some] at h
  obtain ⟨_, ⟨rfl, -⟩, frameLen, hlen, h⟩ := h
  cases h
  obtain ⟨hle, hdvd⟩ := padUp_spec (k := 12) le_rfl hlen
  exact ⟨rfl, hle, hdvd⟩

theorem adequate_of_frame {fmt : Format} {dim : Dimension} {planes : List Plane} {l : FrameLayout}
    (h : frame planes = some l) (hplanes : List.Forall₂ Plane.Holds (planeSizes fmt dim) planes) :
    Adequate fmt dim l := by
  obtain ⟨rfl, hsum, hpage⟩ := frame_spec h
  exact ⟨hplanes, hsum, hpage⟩

variable {fmt : Format} {dim : Dimension} {l : FrameLayout}

theorem nv12_adequate {j k : ℕ} (hfmt : planeSizes fmt dim =
      [(dim.width, dim.height), (2 * (dim.width / 2), dim.height / 2)])
    (hw : 2 ∣ dim.width) (h : nv12 (2 ^ j) (2 ^ k) dim = some l) : Adequate fmt dim l := by
  simp only [nv12, Option.bind_eq_bind, Option.bind_eq_some_iff, fits_eq_some] at h
  obtain ⟨stride, hstride, scanline, hscanline, _, ⟨rfl, -⟩, stride₁, hstride₁, scanline₁,
    hscanline₁, _, ⟨rfl, -⟩, h⟩ := h
  have hs := (padUp_spec (by decide) hstride).1
  have hs₁ := (padUp_spec (by decide) hstride₁).1
  refine adequate_of_frame h ?_
  rw [hfmt]
  refine .cons ⟨rfl, rfl, hs, (padUp_spec (by decide) hscanline).1, le_rfl⟩
    (.cons ⟨?_, rfl, ?_, (padUp_spec (by decide) hscanline₁).1, le_rfl⟩ .nil)
  · exact (Nat.mul_div_cancel' hw).symm
  · exact (Nat.mul_div_cancel' hw).trans_le hs₁

theorem nv21Adreno_adequate (hw : 2 ∣ dim.width) (h : nv21Adreno dim = some l) :
    Adequate .yuv420Nv21Adreno dim l := by
  simp only [nv21Adreno, Option.bind_eq_bind, Option.bind_eq_some_iff, fits_eq_some] at h
  obtain ⟨stride, hstride, scanline, hscanline, _, ⟨rfl, -⟩, len₀, hlen₀, half, hhalf, _,
    ⟨rfl, -⟩, scanline₁, hscanline₁, _, ⟨rfl, -⟩, len₁, hlen₁, h⟩ := h
  have hs := (padUp_spec (k := 5) (by decide) hstride).1
  have hsl := (padUp_spec (k := 5) (by decide) hscanline).1
  have hl := (padUp_spec (k := 12) (by decide) hlen₀).1
  have hchroma := (padUp_spec (k := 5) (by decide) hhalf).1
  have hsl₁ := (padUp_spec (k := 5) (by decide) hscanline₁).1
  have hl₁ := (padUp_spec (k := 12) (by decide) hlen₁).1
  have hluma : Plane.Holds (dim.width, dim.height)
      (plane len₀ stride scanline dim.width dim.height) := ⟨rfl, rfl, hs, hsl, hl⟩
  have hpair : Plane.Holds (2 * (dim.width / 2), dim.height / 2)
      (plane len₁ (half * 2) scanline₁ dim.width (dim.height / 2)) := by
    refine ⟨?_, rfl, ?_, hsl₁, hl₁⟩
    · show dim.width = 2 * (dim.width / 2)
      omega
    · show 2 * (dim.width / 2) ≤ half * 2
      omega
  exact adequate_of_frame h (.cons hluma (.cons hpair .nil))

theorem yv12_adequate (h : yv12 dim = some l) : Adequate .yuv420Yv12 dim l := by
  simp only [yv12, Option.bind_eq_bind, Option.bind_eq_some_iff, fits_eq_some] at h
  obtain ⟨stride, hstride, scanline, hscanline, _, ⟨rfl, -⟩, stride₁, hstride₁, _, ⟨rfl, -⟩, h⟩ := h
  have hs := (padUp_spec (k := 4) (by decide) hstride).1
  have hsl := (padUp_spec (k := 1) (by decide) hscanline).1
  have hs₁ := (padUp_spec (k := 4) (by decide) hstride₁).1
  have hchroma : Plane.Holds (dim.width / 2, dim.height / 2)
      (plane (stride₁ * (scanline / 2)) stride₁ (scanline / 2) (dim.width / 2)
        (dim.height / 2)) := by
    refine ⟨rfl, rfl, ?_, ?_, le_rfl⟩
    · exact (Nat.div_le_div_right hs).trans hs₁
    · exact Nat.div_le_div_right hsl
  exact adequate_of_frame h
    (.cons ⟨rfl, rfl, hs, hsl, le_rfl⟩ (.cons hchroma (.cons hchroma .nil)))

theorem nv16_adequate (hfmt : planeSizes fmt dim =
      [(dim.width, dim.height), (2 * (dim.width / 2), dim.height)])
    (hw : 2 ∣ dim.width) (h : nv16 dim = some l) : Adequate fmt dim l := by
  simp only [nv16, Option.bind_eq_bind, Option.bind_eq_some_iff, fits_eq_some] at h
  obtain ⟨stride, hstride, _, ⟨rfl, -⟩, h⟩ := h
  have hs := (padUp_spec (k := 4) (by decide) hstride).1
  refine adequate_of_frame h ?_
  rw [hfmt]
  refine .cons ⟨rfl, rfl, hs, le_rfl, le_rfl⟩ (.cons ⟨?_, rfl, ?_, le_rfl, le_rfl⟩ .nil)
  · show dim.width = 2 * (dim.width / 2)
    omega
  · show 2 * (dim.width / 2) ≤ stride
    omega

theorem calcOffsetPreview_adequate {venus : Option Venus} (hfmt : fmt ≠ .yuv420Nv12Venus)
    (hw : 2 ∣ dim.width) (h : calcOffsetPreview venus fmt dim = some l) :
    Adequate fmt dim l := by
  unfold calcOffsetPreview at h
  split at h
  · exact nv12_adequate (j := 4) (k := 1) rfl hw h
  · exact nv12_adequate (j := 4) (k := 1) rfl hw h
  · exact nv21Adreno_adequate hw h
  · exact yv12_adequate h
  · exact nv16_adequate rfl hw h
  · exact nv16_adequate rfl hw h
  · exact absurd rfl hfmt
  · cases h

theorem calcOffsetPostView_adequate {venus : Option Venus} (hfmt : fmt ≠ .yuv420Nv12Venus)
    (hw : 2 ∣ dim.width) (h : calcOffsetPostView venus fmt dim = some l) :
    Adequate fmt dim l := by
  unfold calcOffsetPostView at h
  split at h
  · exact nv12_adequate (j := 6) (k := 6) rfl hw h
  · exact nv12_adequate (j := 6) (k := 6) rfl hw h
  · exact nv21Adreno_adequate hw h
  · exact yv12_adequate h
  · exact nv16_adequate rfl hw h
  · exact nv16_adequate rfl hw h
  · exact absurd rfl hfmt
  · cases h

structure PaddingInfo.PowersOfTwo (padding : PaddingInfo) : Prop where
  width : ∃ k, padding.widthPadding = 2 ^ k
  height : ∃ k, padding.heightPadding = 2 ^ k
  plane : ∃ k, padding.planePadding = 2 ^ k

variable {padding : PaddingInfo}

theorem snapshotRows_spec {stride scanline offsetY : ℕ} (hpad : padding.PowersOfTwo)
    (h : snapshotRows false dim padding = some (stride, scanline, offsetY)) :
    dim.width ≤ stride ∧ dim.height ≤ scanline := by
  obtain ⟨j, hj⟩ := hpad.width
  obtain ⟨k, hk⟩ := hpad.height
  simp only [snapshotRows, Bool.false_eq_true, if_false, hj, hk, Option.bind_eq_bind,
    Option.bind_eq_some_iff, fits_eq_some] at h
  obtain ⟨w, hwidth, _, ⟨rfl, -⟩, v, hheight, _, ⟨rfl, -⟩, h⟩ := h
  obtain ⟨rfl, rfl, -⟩ := Prod.mk.inj (Option.some.inj h) |>.imp_right Prod.mk.inj
  exact ⟨(padUp_spec le_rfl hwidth).1, (padUp_spec le_rfl hheight).1⟩

theorem snapshotPlane_spec {stride scanline offsetY width height : ℕ} {p : Plane}
    (hpad : padding.PowersOfTwo)
    (h : snapshotPlane padding stride scanline offsetY width height = some p)
    (hwidth : width ≤ stride) (hheight : height ≤ scanline) :
    Plane.Holds (width, height) p := by
  obtain ⟨k, hk⟩ := hpad.plane
  simp only [snapshotPlane, hk, Option.bind_eq_bind, Option.bind_eq_some_iff, fits_eq_some] at h
  obtain ⟨_, ⟨rfl, -⟩, len, hlen, _, -, _, -, h⟩ := h
  cases h
  exact ⟨rfl, rfl, hwidth, hheight, (padUp_spec le_rfl hlen).1⟩

theorem calcOffsetSnapshot_adequate (hpad : padding.PowersOfTwo) (hw : 2 ∣ dim.width)
    (h : calcOffsetSnapshot false fmt dim padding = some l) : Adequate fmt dim l := by
  obtain ⟨⟨stride, scanline, offsetY⟩, hrows, h⟩ := Option.bind_eq_some_iff.mp h
  obtain ⟨hs, hsl⟩ := snapshotRows_spec hpad hrows
  have heven : 2 * (dim.width / 2) = dim.width := by omega
  have hhalf : dim.height / 2 ≤ scanline / 2 := Nat.div_le_div_right hsl
  simp only at h
  split at h
  iterate 2
    · obtain ⟨y, hy, h⟩ := Option.bind_eq_some_iff.mp h
      obtain ⟨c, hc, h⟩ := Option.bind_eq_some_iff.mp h
      refine adequate_of_frame h (.cons (snapshotPlane_spec hpad hy hs hsl) (.cons ?_ .nil))
      rw [heven]
      exact snapshotPlane_spec hpad hc hs hhalf
  · obtain ⟨y, hy, h⟩ := Option.bind_eq_some_iff.mp h
    obtain ⟨stride₁, hstride₁, h⟩ := Option.bind_eq_some_iff.mp h
    obtain ⟨c, hc, h⟩ := Option.bind_eq_some_iff.mp h
    have hs₁ : dim.width / 2 ≤ stride₁ :=
      (Nat.div_le_div_right hs).trans (padUp_spec (k := 4) (by decide) hstride₁).1
    have hchroma := snapshotPlane_spec hpad hc hs₁ hhalf
    exact adequate_of_frame h
      (.cons (snapshotPlane_spec hpad hy hs hsl) (.cons hchroma (.cons hchroma .nil)))
  iterate 2
    · obtain ⟨y, hy, h⟩ := Option.bind_eq_some_iff.mp h
      have hluma := snapshotPlane_spec hpad hy hs hsl
      refine adequate_of_frame h (.cons hluma (.cons ?_ .nil))
      rw [heven]
      exact hluma
  · cases h

/-- **The layouts are adequate.**  For every format but that of Venus, every image
of even size, every rotation and all paddings with powers of two, the layout of a
preview, postview or snapshot stream, and the one that
`mm_stream_calc_offset_post_view` gives, has the planes of the rotated image, with
room for the rows of each, and full pages that have room for all of them. -/
theorem frame_layout_adequate {venus : Option Venus} {info : StreamInfo}
    (hpad : padding.PowersOfTwo) (hfmt : info.fmt ≠ .yuv420Nv12Venus)
    (hw : 2 ∣ info.dim.width) (hh : 2 ∣ info.dim.height)
    (h : info.streamType ≠ .raw ∧ calcOffset venus false padding info = some l ∨
      calcOffsetPostView venus info.fmt info.rotated = some l) :
    Adequate info.fmt info.rotated l := by
  have heven : 2 ∣ info.rotated.width := by
    unfold StreamInfo.rotated
    split
    · exact hh
    · exact hw
  rcases h with ⟨htype, h⟩ | h
  · unfold calcOffset at h
    split at h
    · exact calcOffsetPreview_adequate hfmt heven h
    · exact calcOffsetPreview_adequate hfmt heven h
    · exact calcOffsetSnapshot_adequate hpad heven h
    · rename_i hraw
      exact absurd hraw htype
  · exact calcOffsetPostView_adequate hfmt heven h

/-- A snapshot of 30 by 20 in YV12, rotated, on a device that pads to 32. -/
def smallSnapshot : StreamInfo := ⟨.snapshot, .yuv420Yv12, ⟨30, 20⟩, true, .rotate90⟩

theorem frame_layout_adequate_small : ∃ l,
    calcOffset none false ⟨32, 32, 1024⟩ smallSnapshot = some l ∧
      Adequate .yuv420Yv12 ⟨20, 30⟩ l := by
  obtain ⟨l, hl⟩ := Option.isSome_iff_exists.mp
    (show (calcOffset none false ⟨32, 32, 1024⟩ smallSnapshot).isSome by decide)
  exact ⟨l, hl, frame_layout_adequate ⟨⟨5, rfl⟩, ⟨5, rfl⟩, ⟨10, rfl⟩⟩ (by decide) (by decide)
    (by decide) (.inl ⟨by decide, hl⟩)⟩

/-! ### The preview callback -/

/-- `previewBufSize` of `preview_stream_cb_routine`, for the formats it knows. -/
def previewBufSize (fmt : Format) (dim : Dimension) : Option ℕ :=
  match fmt with
  | .yuv420Yv12 => do
    let luma ← int32 ((← int32 (dim.width + 15)) / 16 * 16 * dim.height)
    let chroma ← int32 ((← int32 (dim.width / 2 + 15)) / 16 * 16 * dim.height)
    int32 (luma + chroma)
  | .yuv420Nv21 | .yuv420Nv12 => do
    return (← int32 ((← int32 (dim.width * dim.height)) * 3)) / 2
  | _ => none

theorem nv12_size_le (h : nv12 16 2 dim = some l) :
    dim.width * dim.height * 3 / 2 ≤ l.frameLen := by
  simp only [nv12, Option.bind_eq_bind, Option.bind_eq_some_iff, fits_eq_some] at h
  obtain ⟨stride, hstride, scanline, hscanline, _, ⟨rfl, -⟩, stride₁, hstride₁, scanline₁,
    hscanline₁, _, ⟨rfl, -⟩, h⟩ := h
  obtain ⟨hplanes, hsum, -⟩ := frame_spec h
  rw [hplanes] at hsum
  have hs := (padUp_spec (k := 4) (by decide) hstride).1
  have hs₁ := (padUp_spec (k := 4) (by decide) hstride₁).1
  obtain ⟨hsl, heven⟩ := padUp_spec (k := 1) (by decide) hscanline
  have hsl₁ := (padUp_spec (k := 1) (by decide) hscanline₁).1
  have hrows : dim.height * 3 ≤ 2 * (scanline + scanline₁) := by omega
  have hlens : dim.width * scanline + dim.width * scanline₁ ≤ l.frameLen := by
    refine le_trans ?_ hsum
    simp only [plane, List.map_cons, List.map_nil, List.sum_cons, List.sum_nil, add_zero]
    exact Nat.add_le_add (Nat.mul_le_mul_right _ hs) (Nat.mul_le_mul_right _ hs₁)
  refine Nat.div_le_of_le_mul ?_
  calc dim.width * dim.height * 3 = dim.width * (dim.height * 3) := Nat.mul_assoc _ _ _
    _ ≤ dim.width * (2 * (scanline + scanline₁)) := Nat.mul_le_mul_left _ hrows
    _ = 2 * (dim.width * scanline + dim.width * scanline₁) := by ring
    _ ≤ 2 * l.frameLen := Nat.mul_le_mul_left _ hlens

theorem yv12_size_le (h : yv12 dim = some l) :
    roundUp dim.width 16 * dim.height + roundUp (dim.width / 2) 16 * dim.height ≤ l.frameLen := by
  simp only [yv12, Option.bind_eq_bind, Option.bind_eq_some_iff, fits_eq_some] at h
  obtain ⟨stride, hstride, scanline, hscanline, _, ⟨rfl, -⟩, stride₁, hstride₁, _, ⟨rfl, -⟩, h⟩ := h
  obtain ⟨hplanes, hsum, -⟩ := frame_spec h
  rw [hplanes] at hsum
  have hs := padUp_two_pow (k := 4) (by decide) hstride
  have hs₁ := padUp_two_pow (k := 4) (by decide) hstride₁
  obtain ⟨hsl, heven⟩ := padUp_spec (k := 1) (by decide) hscanline
  -- the chroma stride is padded twice, so it is at least the one of the callback
  have hchroma : roundUp (dim.width / 2) 16 ≤ stride₁ := by
    rw [hs₁]
    refine roundUp_mono (Nat.div_le_div_right ?_)
    rw [hs]
    exact le_roundUp (by decide)
  have hhalves : scanline / 2 + scanline / 2 = scanline := by omega
  calc roundUp dim.width 16 * dim.height + roundUp (dim.width / 2) 16 * dim.height
      ≤ stride * scanline + stride₁ * scanline :=
        Nat.add_le_add (Nat.mul_le_mul (le_of_eq hs.symm) hsl) (Nat.mul_le_mul hchroma hsl)
    _ = stride * scanline + (stride₁ * (scanline / 2) + stride₁ * (scanline / 2)) := by
        rw [← Nat.mul_add, hhalves]
    _ ≤ l.frameLen := by
        simpa [plane] using hsum

/-- **The callback stays inside the frame.**  For each format that the preview
callback knows and every size, what the application sees of a preview buffer is
at most the frame that the layout of the stream gives. -/
theorem preview_size_le_frame_len {venus : Option Venus} {size : ℕ}
    (hsize : previewBufSize fmt dim = some size)
    (h : calcOffsetPreview venus fmt dim = some l) : size ≤ l.frameLen := by
  unfold previewBufSize at hsize
  split at hsize
  · simp only [Option.bind_eq_bind, Option.bind_eq_some_iff, fits_eq_some] at hsize
    obtain ⟨_, ⟨rfl, -⟩, _, ⟨rfl, -⟩, _, ⟨rfl, -⟩, _, ⟨rfl, -⟩, rfl, -⟩ := hsize
    exact yv12_size_le h
  iterate 2
    · simp only [Option.bind_eq_bind, Option.bind_eq_some_iff, fits_eq_some] at hsize
      obtain ⟨_, ⟨rfl, -⟩, _, ⟨rfl, -⟩, hsize⟩ := hsize
      cases hsize
      exact nv12_size_le h
  · cases hsize

/-- A preview of 35 by 21 in YV12. -/
theorem preview_size_le_frame_len_odd : ∃ size l,
    previewBufSize .yuv420Yv12 ⟨35, 21⟩ = some size ∧
    calcOffsetPreview none .yuv420Yv12 ⟨35, 21⟩ = some l ∧ size ≤ l.frameLen := by
  obtain ⟨size, hsize⟩ := Option.isSome_iff_exists.mp
    (show (previewBufSize .yuv420Yv12 ⟨35, 21⟩).isSome by decide)
  obtain ⟨l, hl⟩ := Option.isSome_iff_exists.mp
    (show (calcOffsetPreview none .yuv420Yv12 ⟨35, 21⟩).isSome by decide)
  exact ⟨size, l, hsize, hl, preview_size_le_frame_len hsize hl⟩

end Layout

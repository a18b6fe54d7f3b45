/-
The preview frame rates under a thermal level: `calcThermalLevel`, `recalcFPSRange` and
`updateThermalLevel` of the HAL, `setPreviewFpsRange` of its parameters.

* `setPreviewFpsRange`, `updateThermalLevel` — the two ways in which a range of rates
  goes to the backend;
* `calcThermalLevel_proper` — the adjusted rates are positive and in order;
* `thermal_fps_agree_iff` — the two ways send the same range exactly if the adjusted
  rates are whole (`Whole`): `recalcFPSRange` returns them as `int`s.

The frame rates, `float`s in the source, are rational numbers here.
-/
import HdxCommon.SizeLists
import Mathlib.Data.Rat.Floor
import Mathlib.Order.Bounds.Basic

namespace ThermalFps

open ParamStrings Decimal SizeLists

/-! ### The code -/

/-- `qcamera_thermal_level_enum_t`. -/
inductive ThermalLevel where
  | noAdjustment
  | slightAdjustment
  | bigAdjustment
  | shutdown
  deriving DecidableEq

/-- `qcamera_thermal_mode`. -/
inductive ThermalMode where
  | adjustFps
  | adjustFrameskip
  deriving DecidableEq

/-- `msm_vfe_frame_skip_pattern`, as far as it is used here. -/
inductive SkipPattern where
  | noSkip
  | every2Frame
  | every4Frame
  | maxSkip
  deriving DecidableEq

/-- `cam_fps_range_t`. -/
@[ext]
structure FpsRange where
  minFps : ℚ
  maxFps : ℚ
  deriving DecidableEq

/-- The HAL and its parameters, as far as the frame rates depend on them. -/
structure Hal where
  /-- `fps_ranges_tbl` of the capabilities -/
  fpsRangesTbl : List FpsRange
  thermalLevel : ThermalLevel
  thermalMode : ThermalMode
  /-- `m_AdjustFPS` is not `NULL` -/
  adjustFps : Bool
  /-- `KEY_PREVIEW_FPS_RANGE` -/
  previewFpsRange : Option (List UInt8)

def reduced (fps : ℚ) : ℚ := if fps < 1 then 1 else fps

/-- One round of the loop at shutdown over the table. -/
def lowestFps (adjusted : FpsRange) (range : FpsRange) : FpsRange :=
  if range.minFps < adjusted.minFps then ⟨range.minFps, range.minFps⟩ else adjusted

/-- `calcThermalLevel`. -/
def calcThermalLevel (tbl : List FpsRange) (level : ThermalLevel) (minFPS maxFPS : Int32) :
    FpsRange × SkipPattern :=
  match level with
  | .noAdjustment => (⟨minFPS.toInt / (1000 : ℚ), maxFPS.toInt / (1000 : ℚ)⟩, .noSkip)
  | .slightAdjustment =>
    (⟨reduced ((minFPS.toInt.tdiv 2 : ℤ) / (1000 : ℚ)),
      reduced ((maxFPS.toInt.tdiv 2 : ℤ) / (1000 : ℚ))⟩, .every2Frame)
  | .bigAdjustment =>
    (⟨reduced ((minFPS.toInt.tdiv 4 : ℤ) / (1000 : ℚ)),
      reduced ((maxFPS.toInt.tdiv 4 : ℤ) / (1000 : ℚ))⟩, .every4Frame)
  | .shutdown =>
    (tbl.foldl lowestFps ⟨minFPS.toInt / (1000 : ℚ), minFPS.toInt / (1000 : ℚ)⟩, .maxSkip)

/-- A `float` as an `int`: what follows the point is cut off. -/
def toInt (fps : ℚ) : Int32 := Int32.ofInt (fps.num.tdiv fps.den)

/-- `recalcFPSRange`. -/
def recalcFPSRange (h : Hal) (minFPS maxFPS : Int32) : Int32 × Int32 :=
  let adjusted := (calcThermalLevel h.fpsRangesTbl h.thermalLevel minFPS maxFPS).1
  (toInt adjusted.minFps, toInt adjusted.maxFps)

/-- `setPreviewFpsRange`: the parameter it stores, and the range it adds to the batch. -/
def setPreviewFpsRange (h : Hal) (minFPS maxFPS : Int32) : Hal × FpsRange :=
  let str := snprintf 32 (decimalInt minFPS.toInt ++ comma :: decimalInt maxFPS.toInt)
  let fpsRange : FpsRange :=
    if h.adjustFps then
      let (minFPS, maxFPS) := recalcFPSRange h minFPS maxFPS
      ⟨minFPS.toInt, maxFPS.toInt⟩
    else ⟨minFPS.toInt / (1000 : ℚ), maxFPS.toInt / (1000 : ℚ)⟩
  ({ h with previewFpsRange := some str }, fpsRange)

/-- `getPreviewFpsRange`, of the parameters' base class. -/
def getPreviewFpsRange (h : Hal) : Int32 × Int32 :=
  match h.previewFpsRange with
  | none => (-1, -1)
  | some str =>
    let pair := parsePair str comma
    (pair.first.getD (-1), pair.second.getD (-1))

/-- What a thermal event sends to the backend. -/
inductive Sent where
  | fpsRange (range : FpsRange)
  | frameSkip (pattern : SkipPattern)
  deriving DecidableEq

/-- `updateThermalLevel`. -/
def updateThermalLevel (h : Hal) (level : ThermalLevel) : Hal × Sent :=
  let (minFPS, maxFPS) := getPreviewFpsRange h
  let (adjusted, skipPattern) := calcThermalLevel h.fpsRangesTbl level minFPS maxFPS
  ({ h with thermalLevel := level },
    match h.thermalMode with
    | .adjustFps => .fpsRange adjusted
    | .adjustFrameskip => .frameSkip skipPattern)

/-! ### The adjusted rates -/

variable {tbl : List FpsRange} {level : ThermalLevel} {minFPS maxFPS : Int32}

/-- The rates that a shutdown chooses from. -/
def rates (tbl : List FpsRange) (fps : ℚ) : Set ℚ := {q | q = fps ∨ ∃ range ∈ tbl, q = range.minFps}

/-- **At shutdown both rates are the least one.** -/
theorem shutdown_isLeast (tbl : List FpsRange) (fps : ℚ) :
    ∃ q, tbl.foldl lowestFps ⟨fps, fps⟩ = ⟨q, q⟩ ∧ IsLeast (rates tbl fps) q := by
  induction tbl generalizing fps with
  | nil => exact ⟨fps, rfl, .inl rfl, by simp [rates, lowerBounds]⟩
  | cons range tbl ih =>
    -- the round keeps the lower one of the two rates
    have hround : lowestFps ⟨fps, fps⟩ range = ⟨min range.minFps fps, min range.minFps fps⟩ := by
      unfold lowestFps
      split_ifs with hlt
      · rw [min_eq_left hlt.le]
      · rw [min_eq_right (not_lt.mp hlt)]
    obtain ⟨q, hq, hmem, hlow⟩ := ih (min range.minFps fps)
    refine ⟨q, by rw [List.foldl_cons, hround, hq], ?_, ?_⟩
    · rcases hmem with rfl | ⟨other, hother, rfl⟩
      · rcases min_choice range.minFps fps with hmin | hmin
        · exact .inr ⟨range, List.mem_cons_self, hmin⟩
        · exact .inl hmin
      · exact .inr ⟨other, List.mem_cons_of_mem range hother, rfl⟩
    · have hle : q ≤ min range.minFps fps := hlow (.inl rfl)
      rintro _ (rfl | ⟨other, hother, rfl⟩)
      · exact hle.trans (min_le_right _ _)
      · rcases List.mem_cons.mp hother with rfl | hother
        · exact hle.trans (min_le_left _ _)
        · exact hlow (.inr ⟨other, hother, rfl⟩)

/-- Rates that are positive, in order, and not too large for an `int`. -/
structure FpsRange.Proper (range : FpsRange) : Prop where
  pos : 0 < range.minFps
  le : range.minFps ≤ range.maxFps
  fits : range.maxFps < 2 ^ 31

theorem reduced_mono {a b : ℚ} (h : a ≤ b) : reduced a ≤ reduced b := by
  unfold reduced
  split_ifs with ha hb hb
  · exact le_rfl
  · exact not_lt.mp hb
  · exact absurd (h.trans_lt hb) ha
  · exact h

theorem one_le_reduced (fps : ℚ) : 1 ≤ reduced fps := by
  unfold reduced
  split_ifs with h
  · exact le_rfl
  · exact not_lt.mp h

theorem reduced_le {fps : ℚ} (h : fps < 2 ^ 31) : reduced fps < 2 ^ 31 := by
  unfold reduced
  split_ifs
  · norm_num
  · exact h

section Adjusted

variable (hmin : 0 < minFPS.toInt) (hmax : minFPS.toInt ≤ maxFPS.toInt)
include hmin hmax

theorem proper_reduced {d : ℤ} (hd : 0 < d) :
    (FpsRange.mk (reduced ((minFPS.toInt.tdiv d : ℤ) / (1000 : ℚ)))
      (reduced ((maxFPS.toInt.tdiv d : ℤ) / (1000 : ℚ)))).Proper := by
  have hbound := maxFPS.toInt_lt
  have hdiv : minFPS.toInt.tdiv d ≤ maxFPS.toInt.tdiv d := Int.tdiv_le_tdiv hd hmax
  have hle : maxFPS.toInt.tdiv d ≤ maxFPS.toInt := Int.tdiv_le_self _ (by omega)
  have hlt : ((maxFPS.toInt.tdiv d : ℤ) : ℚ) < 2 ^ 31 := by exact_mod_cast (by omega)
  refine ⟨lt_of_lt_of_le one_pos (one_le_reduced _), reduced_mono ?_, reduced_le ?_⟩
  · have : ((minFPS.toInt.tdiv d : ℤ) : ℚ) ≤ (maxFPS.toInt.tdiv d : ℤ) := by exact_mod_cast hdiv
    linarith
  · linarith

theorem calcThermalLevel_proper (htbl : ∀ range ∈ tbl, 0 < range.minFps) :
    (calcThermalLevel tbl level minFPS maxFPS).1.Proper := by
  have hbound := maxFPS.toInt_lt
  have hpos : (0 : ℚ) < minFPS.toInt := by exact_mod_cast hmin
  have hle : (minFPS.toInt : ℚ) ≤ maxFPS.toInt := by exact_mod_cast hmax
  have hlt : (maxFPS.toInt : ℚ) < 2 ^ 31 := by exact_mod_cast hbound
  cases level with
  | noAdjustment =>
    refine ⟨?_, ?_, ?_⟩
    · exact div_pos hpos (by norm_num)
    · exact div_le_div_of_nonneg_right hle (by norm_num)
    · change (maxFPS.toInt : ℚ) / 1000 < 2 ^ 31
      linarith
  | slightAdjustment | bigAdjustment => exact proper_reduced hmin hmax (by decide)
  | shutdown =>
    obtain ⟨q, hq, hmem, hlow⟩ := shutdown_isLeast tbl (minFPS.toInt / (1000 : ℚ))
    have hqle : q ≤ minFPS.toInt / (1000 : ℚ) := hlow (.inl rfl)
    have hqpos : 0 < q := by
      rcases hmem with rfl | ⟨range, hrange, rfl⟩
      · exact div_pos hpos (by norm_num)
      · exact htbl range hrange
    change (tbl.foldl lowestFps _).Proper
    rw [hq]
    exact ⟨hqpos, le_rfl, by change q < 2 ^ 31; linarith⟩

end Adjusted

/-! ### Whole rates -/

def IsWhole (fps : ℚ) : Prop := ∃ z : ℤ, fps = z

theorem toInt_eq_iff {fps : ℚ} (hpos : 0 < fps) (hlt : fps < 2 ^ 31) :
    ((toInt fps).toInt : ℚ) = fps ↔ IsWhole fps := by
  constructor
  · exact fun heq => ⟨(toInt fps).toInt, heq.symm⟩
  · rintro ⟨z, rfl⟩
    have hzpos : 0 < z := by exact_mod_cast hpos
    have hzlt : z < 2 ^ 31 := by exact_mod_cast hlt
    have hz : toInt (z : ℚ) = Int32.ofInt z := by simp [toInt]
    rw [hz, Int32.toInt_ofInt_of_le (by omega) (by omega)]

theorem isWhole_div_iff (k : ℤ) : IsWhole (k / (1000 : ℚ)) ↔ 1000 ∣ k := by
  constructor
  · rintro ⟨z, hz⟩
    refine ⟨z, ?_⟩
    have hk : (k : ℚ) = 1000 * z := by
      rw [← hz]
      ring
    exact_mod_cast hk
  · rintro ⟨z, rfl⟩
    refine ⟨z, ?_⟩
    push_cast
    ring

theorem isWhole_reduced_iff (k : ℤ) :
    IsWhole (reduced (k / (1000 : ℚ))) ↔ k < 1000 ∨ 1000 ∣ k := by
  have hone : (k : ℚ) / 1000 < 1 ↔ k < 1000 := by
    rw [div_lt_one (by norm_num)]
    exact_mod_cast Iff.rfl
  unfold reduced
  by_cases hk : k < 1000
  · rw [if_pos (hone.mpr hk)]
    exact iff_of_true ⟨1, by norm_num⟩ (.inl hk)
  · rw [if_neg (fun h => hk (hone.mp h)), isWhole_div_iff]
    exact (or_iff_right hk).symm

/-- The rates that a level makes of a range are whole numbers of frames. -/
def Whole (tbl : List FpsRange) (level : ThermalLevel) (minFPS maxFPS : ℤ) : Prop :=
  match level with
  | .noAdjustment => 1000 ∣ minFPS ∧ 1000 ∣ maxFPS
  | .slightAdjustment =>
    (minFPS / 2 < 1000 ∨ 1000 ∣ minFPS / 2) ∧ (maxFPS / 2 < 1000 ∨ 1000 ∣ maxFPS / 2)
  | .bigAdjustment =>
    (minFPS / 4 < 1000 ∨ 1000 ∣ minFPS / 4) ∧ (maxFPS / 4 < 1000 ∨ 1000 ∣ maxFPS / 4)
  | .shutdown => ∃ z : ℤ, IsLeast (rates tbl (minFPS / 1000)) z

theorem isWhole_calcThermalLevel_iff (hmin : 0 < minFPS.toInt)
    (hmax : minFPS.toInt ≤ maxFPS.toInt) :
    (IsWhole (calcThermalLevel tbl level minFPS maxFPS).1.minFps ∧
      IsWhole (calcThermalLevel tbl level minFPS maxFPS).1.maxFps) ↔
      Whole tbl level minFPS.toInt maxFPS.toInt := by
  cases level with
  | noAdjustment => exact and_congr (isWhole_div_iff _) (isWhole_div_iff _)
  | slightAdjustment | bigAdjustment =>
    simp only [calcThermalLevel, Whole, isWhole_reduced_iff,
      Int.tdiv_eq_ediv_of_nonneg hmin.le, Int.tdiv_eq_ediv_of_nonneg (hmin.le.trans hmax)]
  | shutdown =>
    obtain ⟨q, hq, hleast⟩ := shutdown_isLeast tbl (minFPS.toInt / (1000 : ℚ))
    simp only [calcThermalLevel, Whole, hq, and_self]
    constructor
    · rintro ⟨z, rfl⟩
      exact ⟨z, hleast⟩
    · rintro ⟨z, hz⟩
      exact ⟨z, hleast.unique hz⟩

/-! ### The two ways -/

theorem getPreviewFpsRange_set (h : Hal) (minFPS maxFPS : Int32) :
    getPreviewFpsRange (setPreviewFpsRange h minFPS maxFPS).1 = (minFPS, maxFPS) := by
  have hfits : snprintf 32 (decimalInt minFPS.toInt ++ comma :: decimalInt maxFPS.toInt) =
      decimalInt minFPS.toInt ++ comma :: decimalInt maxFPS.toInt := by
    have hlow := length_decimalInt_le minFPS.le_toInt minFPS.toInt_lt
    have hhigh := length_decimalInt_le maxFPS.le_toInt maxFPS.toInt_lt
    refine List.take_of_length_le ?_
    rw [List.length_append, List.length_cons]
    omega
  have hread : parsePair (decimalInt minFPS.toInt ++ comma :: decimalInt maxFPS.toInt) comma = _ :=
    parsePair_of_intText (by decide) (intText_decimalInt minFPS.toInt)
      (intText_decimalInt maxFPS.toInt)
  simp only [getPreviewFpsRange, setPreviewFpsRange, hfits, hread, Option.getD_some]

theorem sent_eq {h : Hal} {range : FpsRange}
    (hsent : (updateThermalLevel (setPreviewFpsRange h minFPS maxFPS).1 level).2 =
      .fpsRange range) :
    range = (calcThermalLevel h.fpsRangesTbl level minFPS maxFPS).1 := by
  simp only [updateThermalLevel, getPreviewFpsRange_set] at hsent
  split at hsent
  · exact (Sent.fpsRange.inj hsent).symm
  · cases hsent

/-- The range that is set under a level: its rates are cut to `int`s. -/
theorem setPreviewFpsRange_of_adjust (h : Hal) (hadjust : h.adjustFps = true)
    (minFPS maxFPS : Int32) :
    (setPreviewFpsRange h minFPS maxFPS).2 =
      ⟨(toInt (calcThermalLevel h.fpsRangesTbl h.thermalLevel minFPS maxFPS).1.minFps).toInt,
        (toInt (calcThermalLevel h.fpsRangesTbl h.thermalLevel minFPS maxFPS).1.maxFps).toInt⟩ := by
  simp only [setPreviewFpsRange, hadjust, if_true, recalcFPSRange]

/-- **Under a thermal level, `setPreviewFpsRange` sends what `updateThermalLevel` sent
exactly if the adjusted rates are whole.** -/
theorem thermal_fps_agree_iff (h : Hal) (level : ThermalLevel) (minFPS maxFPS : Int32)
    (range : FpsRange) (hmin : 0 < minFPS.toInt) (hmax : minFPS.toInt ≤ maxFPS.toInt)
    (htbl : ∀ r ∈ h.fpsRangesTbl, 0 < r.minFps ∧ r.minFps ≤ r.maxFps)
    (hadjust : h.adjustFps = true)
    (hsent : (updateThermalLevel (setPreviewFpsRange h minFPS maxFPS).1 level).2 =
      .fpsRange range) :
    ((setPreviewFpsRange (updateThermalLevel (setPreviewFpsRange h minFPS maxFPS).1 level).1
        minFPS maxFPS).2 = range ∧
      0 < range.minFps ∧ range.minFps ≤ range.maxFps ∧
      (level = .noAdjustment → range = ⟨minFPS.toInt / 1000, maxFPS.toInt / 1000⟩)) ↔
      Whole h.fpsRangesTbl level minFPS.toInt maxFPS.toInt := by
  have hrange := sent_eq hsent
  have hproper : range.Proper := by
    rw [hrange]
    exact calcThermalLevel_proper hmin hmax fun r hr => (htbl r hr).1
  have hset : (setPreviewFpsRange
      (updateThermalLevel (setPreviewFpsRange h minFPS maxFPS).1 level).1 minFPS maxFPS).2 =
        ⟨(toInt range.minFps).toInt, (toInt range.maxFps).toInt⟩ := by
    rw [hrange]
    exact setPreviewFpsRange_of_adjust
      (updateThermalLevel (setPreviewFpsRange h minFPS maxFPS).1 level).1 hadjust minFPS maxFPS
  -- all but the agreement holds at every level
  have hrest : 0 < range.minFps ∧ range.minFps ≤ range.maxFps ∧
      (level = .noAdjustment → range = ⟨minFPS.toInt / 1000, maxFPS.toInt / 1000⟩) := by
    refine ⟨hproper.pos, hproper.le, ?_⟩
    rintro rfl
    exact hrange
  have hmaxpos : 0 < range.maxFps := hproper.pos.trans_le hproper.le
  have hminfits : range.minFps < 2 ^ 31 := hproper.le.trans_lt hproper.fits
  rw [and_iff_left hrest, hset, ← isWhole_calcThermalLevel_iff hmin hmax, ← hrange,
    ← toInt_eq_iff hproper.pos hminfits, ← toInt_eq_iff hmaxpos hproper.fits]
  exact FpsRange.ext_iff

/-- A HAL in the thermal mode for frame rates, with one range in its table. -/
def sampleHal : Hal where
  fpsRangesTbl := [⟨15, 30⟩]
  thermalLevel := .noAdjustment
  thermalMode := .adjustFps
  adjustFps := true
  previewFpsRange := none

theorem sampleHal_sends (level : ThermalLevel) (minFPS maxFPS : Int32) :
    (updateThermalLevel (setPreviewFpsRange sampleHal minFPS maxFPS).1 level).2 =
      .fpsRange (calcThermalLevel sampleHal.fpsRangesTbl level minFPS maxFPS).1 := by
  simp only [updateThermalLevel, getPreviewFpsRange_set]
  rfl

/-- From 15 to 30 frames, without adjustment, the two ways agree. -/
theorem thermal_fps_agree_at_thirty :
    (setPreviewFpsRange (updateThermalLevel (setPreviewFpsRange sampleHal 15000 30000).1
      .noAdjustment).1 15000 30000).2 =
      (calcThermalLevel sampleHal.fpsRangesTbl .noAdjustment 15000 30000).1 :=
  ((thermal_fps_agree_iff sampleHal .noAdjustment 15000 30000 _ (by decide) (by decide)
    (by decide) rfl (sampleHal_sends .noAdjustment 15000 30000)).mpr
      ⟨by decide, by decide⟩).1

/-- Without adjustment, a rate of 29.97 frames is sent as 29 when it is set, and as it
is when the level is entered. -/
theorem ntsc_rate_cut :
    (setPreviewFpsRange (updateThermalLevel (setPreviewFpsRange sampleHal 29970 29970).1
      .noAdjustment).1 29970 29970).2 = ⟨29, 29⟩ ∧
      (updateThermalLevel (setPreviewFpsRange sampleHal 29970 29970).1 .noAdjustment).2 =
        .fpsRange ⟨2997 / 100, 2997 / 100⟩ := by
  refine ⟨?_, ?_⟩
  · rw [setPreviewFpsRange_of_adjust _ rfl]
    decide +kernel
  · rw [sampleHal_sends]
    decide +kernel

end ThermalFps

/-
The number of pictures of a shutter, `setNumOfSnapshot` and `getNumOfSnapshots`.

* `setNumOfSnapshot`, `getNumOfSnapshots` — the count goes through a `uint8_t`, the
  text of a parameter and a `uint8_t` again;
* `snapshot_count_iff` — the count is the burst number times the pictures of one shot
  exactly if it is `CountedRight`: the helper for the HDR pictures multiplies by the
  burst number already, no string of bracketing counts no picture, a long list of
  exposures is cut, and the count has 8 bits.
-/
import HdxCommon.SizeLists

namespace SnapshotCount

open ParamStrings Decimal

/-! ### The code -/

/-- `cam_bracket_mode`, as far as it is in `BRACKETING_MODES_MAP`. -/
inductive BracketMode where
  | off
  | on
  deriving DecidableEq

/-- The strings `Off` and `AE-Bracket`. -/
def aeBracketOff : List UInt8 := [0x4F, 0x66, 0x66]
def aeBracket : List UInt8 := [0x41, 0x45, 0x2D, 0x42, 0x72, 0x61, 0x63, 0x6B, 0x65, 0x74]

/-- `BRACKETING_MODES_MAP`. -/
def bracketingModesMap : List (List UInt8 × BracketMode) :=
  [(aeBracketOff, .off), (aeBracket, .on)]

/-- `lookupAttr`; `none` is `NAME_NOT_FOUND`. -/
def lookupAttr {α : Type} (arr : List (List UInt8 × α)) (name : List UInt8) : Option α :=
  (arr.find? fun entry => entry.1 = name).map Prod.snd

/-- `PROPERTY_VALUE_MAX`. -/
def propertyValueMax : ℕ := 92

structure Parameters where
  /-- `m_nBurstNum` -/
  burstNum : Int32
  /-- `KEY_QC_AE_BRACKET_HDR` -/
  aeBracketHdr : Option CString
  /-- `KEY_QC_CAPTURE_BURST_EXPOSURE` -/
  captureBurstExposure : Option CString
  /-- `m_bHDREnabled` -/
  hdrEnabled : Bool
  /-- `m_HDRSceneEnabled` -/
  hdrSceneEnabled : Bool
  /-- `m_bHDR1xFrameEnabled` -/
  hdr1xFrameEnabled : Bool
  /-- `KEY_QC_NUM_SNAPSHOT_PER_SHUTTER` -/
  numSnapshotPerShutter : Option (List UInt8)

namespace Parameters

variable (p : Parameters)

def getBurstNum : Int32 := p.burstNum

def isHDREnabled : Bool := p.hdrEnabled || p.hdrSceneEnabled

/-- `getNumOfExtraHDROutBufsIfNeeded`. -/
def getNumOfExtraHDROutBufsIfNeeded : UInt8 :=
  let numOfBufs : ℤ := if p.isHDREnabled && p.hdr1xFrameEnabled then 1 else 0
  UInt8.ofInt (numOfBufs * p.getBurstNum.toInt)

end Parameters

/-- `strtok_r` at the commas: the token, and where the next call goes on. -/
def strtokR (s : List UInt8) : Option (List UInt8 × List UInt8) :=
  let t := s.dropWhile (· = comma)
  if t = [] then none
  else some (t.takeWhile (· ≠ comma), (t.dropWhile (· ≠ comma)).tail)

theorem length_strtokR_lt {s token save : List UInt8} (h : strtokR s = some (token, save)) :
    save.length < s.length := by
  unfold strtokR at h
  dsimp only at h
  split_ifs at h with hne
  cases h
  have hskip := (List.dropWhile_suffix (fun c => decide (c = comma)) (l := s)).length_le
  have htoken := (List.dropWhile_suffix (fun c => decide (c ≠ comma))
    (l := s.dropWhile (· = comma))).length_le
  have hpos := List.length_pos_iff.mpr hne
  rw [List.length_tail]
  omega

/-- The loop of `setNumOfSnapshot` over the tokens. -/
def countTokens (nExpnum : UInt8) (s : List UInt8) : UInt8 :=
  match _h : strtokR s with
  | none => nExpnum
  | some (_, save) => countTokens (nExpnum + 1) save
termination_by s.length
decreasing_by exact length_strtokR_lt _h

/-- The exposures of a bracketing, as `setNumOfSnapshot` counts them. -/
def countExposures (str : Option CString) : UInt8 :=
  let nExpnum := match str with
    | none => 0
    | some s => if s.bytes = [] then 0 else countTokens 0 (s.bytes.take (propertyValueMax - 1))
  if nExpnum = 0 then 1 else nExpnum

/-- `nExpnum` at the end of `setNumOfSnapshot`. -/
def expnum (p : Parameters) : UInt8 :=
  match p.aeBracketHdr with
  | none => 0
  | some str =>
    if str.bytes = [] then 0
    else match lookupAttr bracketingModesMap str.bytes with
      | some .on => countExposures p.captureBurstExposure
      | _ => 1 + p.getNumOfExtraHDROutBufsIfNeeded

/-- `setNumOfSnapshot`. -/
def setNumOfSnapshot (p : Parameters) : ℤ × Parameters :=
  let value := p.getBurstNum * Int32.ofNat (expnum p).toNat
  (noError, { p with numSnapshotPerShutter := some (decimalInt value.toInt) })

/-- `getInt`, of a text that `set` printed; such a text has no zeros in front, so it
is read to the base 10. -/
def getInt : Option (List UInt8) → ℤ
  | none => -1
  | some text => (strtol text).1

/-- `getNumOfSnapshots`. -/
def getNumOfSnapshots (p : Parameters) : UInt8 :=
  let numOfSnapshot := getInt p.numSnapshotPerShutter
  UInt8.ofInt (if numOfSnapshot ≤ 0 then 1 else numOfSnapshot)

/-! ### The exposures that are listed -/

/-- The exposures in a list: its items between the commas, without the empty ones. -/
def listed (s : List UInt8) : ℕ := ((s.splitOn comma).filter (· ≠ [])).length

theorem listed_comma (s : List UInt8) : listed (comma :: s) = listed s := by
  rw [listed, List.splitOn_cons_eq_if_modifyHead, if_pos (beq_self_eq_true comma)]
  rfl

theorem listed_append_comma {t : List UInt8} (hne : t ≠ []) (ht : comma ∉ t) (s : List UInt8) :
    listed (t ++ comma :: s) = listed s + 1 := by
  rw [listed, List.splitOn_append_cons_self_of_not_mem ht, List.filter_cons_of_pos (by simpa)]
  rfl

theorem listed_of_notMem {t : List UInt8} (hne : t ≠ []) (ht : comma ∉ t) : listed t = 1 := by
  rw [listed, List.splitOn_eq_singleton ht, List.filter_cons_of_pos (by simpa)]
  rfl

theorem listed_cons {c : UInt8} (hc : c ≠ comma) (s : List UInt8) :
    listed (c :: s) = if s.head?.all (· = comma) then listed s + 1 else listed s := by
  have hcons : ∀ {d : UInt8} (s : List UInt8), d ≠ comma →
      (d :: s).splitOn comma = (s.splitOn comma).modifyHead (d :: ·) := by
    intro d s hd
    rw [List.splitOn_cons_eq_if_modifyHead, if_neg (by simpa using hd)]
  cases s with
  | nil => exact listed_of_notMem (List.cons_ne_nil c []) (by simpa using hc.symm)
  | cons d s =>
    by_cases hd : d = comma
    · subst hd
      have hitem := listed_append_comma (List.cons_ne_nil c []) (by simpa using hc.symm) s
      rw [listed_comma, if_pos (by simp)]
      exact hitem
    · obtain ⟨u, items, heq⟩ := List.exists_cons_of_ne_nil (List.splitOn_ne_nil comma s)
      rw [if_neg (by simpa using hd), listed, listed, hcons _ hc, hcons _ hd, heq]
      rfl

theorem listed_le_length (s : List UInt8) : listed s ≤ s.length := by
  induction s with
  | nil => decide
  | cons c s ih =>
    rw [List.length_cons]
    by_cases hc : c = comma
    · rw [hc, listed_comma]
      omega
    · rw [listed_cons hc]
      split_ifs
      · omega
      · omega

theorem listed_pos {c : UInt8} (hc : c ≠ comma) (s : List UInt8) : 0 < listed (c :: s) := by
  induction s generalizing c with
  | nil => rw [listed_of_notMem (List.cons_ne_nil c []) (by simpa using hc.symm)]; decide
  | cons d s ih =>
    rw [listed_cons hc]
    by_cases hd : d = comma
    · rw [if_pos (by simp [hd])]
      exact Nat.succ_pos _
    · rw [if_neg (by simpa using hd)]
      exact ih hd

theorem listed_le_append (s t : List UInt8) : listed s ≤ listed (s ++ t) := by
  induction s with
  | nil => exact Nat.zero_le _
  | cons c s ih =>
    rw [List.cons_append]
    by_cases hc : c = comma
    · rw [hc, listed_comma, listed_comma]
      exact ih
    cases s with
    | nil =>
      rw [listed_of_notMem (List.cons_ne_nil c []) (by simpa using Ne.symm hc)]
      exact listed_pos hc _
    | cons d s =>
      rw [listed_cons hc, listed_cons hc, List.cons_append, List.head?_cons, List.head?_cons]
      split_ifs
      · exact Nat.succ_le_succ ih
      · exact ih

theorem listed_dropWhile (s : List UInt8) : listed (s.dropWhile (· = comma)) = listed s := by
  induction s with
  | nil => rfl
  | cons c s ih =>
    by_cases hc : c = comma
    · rw [List.dropWhile_cons_of_pos (by simpa using hc), ih, hc, listed_comma]
    · rw [List.dropWhile_cons_of_neg (by simpa using hc)]

theorem listed_of_strtokR_none {s : List UInt8} (h : strtokR s = none) : listed s = 0 := by
  unfold strtokR at h
  dsimp only at h
  split_ifs at h with hnil
  rw [← listed_dropWhile, hnil]
  rfl

theorem listed_of_strtokR {s token save : List UInt8} (h : strtokR s = some (token, save)) :
    listed s = listed save + 1 := by
  unfold strtokR at h
  dsimp only at h
  split_ifs at h with hne
  cases h
  rw [← listed_dropWhile]
  have hhead := List.head_dropWhile_not (fun c => decide (c = comma)) hne
  generalize hskip : s.dropWhile (· = comma) = t at hne hhead
  have hsplit : t.takeWhile (· ≠ comma) ++ t.dropWhile (· ≠ comma) = t :=
    List.takeWhile_append_dropWhile
  have hitem : comma ∉ t.takeWhile (· ≠ comma) := fun hmem => by
    simpa using List.mem_takeWhile_imp hmem
  have hitemne : t.takeWhile (· ≠ comma) ≠ [] := by
    obtain ⟨c, t, rfl⟩ := List.exists_cons_of_ne_nil hne
    have hc : c ≠ comma := of_decide_eq_false hhead
    rw [List.takeWhile_cons_of_pos (by simpa using hc)]
    exact List.cons_ne_nil _ _
  cases hrest : t.dropWhile (· ≠ comma) with
  | nil =>
    rw [hrest, List.append_nil] at hsplit
    rw [hsplit] at hitem
    exact listed_of_notMem hne hitem
  | cons c rest =>
    have hcomma : c = comma := by
      have hnot := List.head?_dropWhile_not (fun c => decide (c ≠ comma)) t
      rw [hrest] at hnot
      exact not_ne_iff.mp (of_decide_eq_false hnot)
    rw [hrest, hcomma] at hsplit
    rw [← hsplit, listed_append_comma hitemne hitem]
    rfl

/-- **The loop counts the exposures that are listed.** -/
theorem countTokens_eq (nExpnum : UInt8) (s : List UInt8) :
    countTokens nExpnum s = nExpnum + UInt8.ofNat (listed s) := by
  fun_induction countTokens nExpnum s with
  | case1 nExpnum s h => rw [listed_of_strtokR_none h]; simp
  | case2 nExpnum s token save h ih =>
    rw [ih, listed_of_strtokR h, UInt8.ofNat_add, UInt8.add_assoc, UInt8.add_comm 1]
    rfl

/-! ### The count -/

variable {p : Parameters}

def listedExposures (p : Parameters) : ℕ :=
  p.captureBurstExposure.elim 0 fun s => listed s.bytes

/-- The exposures in as much of the parameter as is looked at. -/
def seenExposures (p : Parameters) : ℕ :=
  p.captureBurstExposure.elim 0 fun s => listed (s.bytes.take (propertyValueMax - 1))

def Bracketed (p : Parameters) : Prop := ∃ str ∈ p.aeBracketHdr, str.bytes ≠ []

/-- It asks for bracketing of the exposure. -/
def BracketingOn (p : Parameters) : Prop := ∃ str ∈ p.aeBracketHdr, str.bytes = aeBracket

instance (p : Parameters) : Decidable (Bracketed p) := inferInstanceAs (Decidable (∃ _, _))

instance (p : Parameters) : Decidable (BracketingOn p) := inferInstanceAs (Decidable (∃ _, _))

def outputPictures (p : Parameters) : ℕ :=
  if BracketingOn p then max 1 (listedExposures p)
  else if p.isHDREnabled && p.hdr1xFrameEnabled then 2 else 1

def burst (p : Parameters) : ℕ := p.burstNum.toInt.toNat

/-- Where the count comes out right. -/
structure CountedRight (p : Parameters) : Prop where
  /-- the count has 8 bits -/
  fits : burst p * outputPictures p < 256
  /-- without a string of bracketing, 1 is returned -/
  unbracketed : ¬ Bracketed p → burst p * outputPictures p = 1
  /-- only the first 91 characters of the exposures are looked at -/
  seen : BracketingOn p → max 1 (seenExposures p) = max 1 (listedExposures p)
  /-- the pictures of HDR are multiplied by the burst number twice -/
  single : ¬ BracketingOn p → p.isHDREnabled && p.hdr1xFrameEnabled → burst p = 1

theorem seenExposures_le (p : Parameters) : seenExposures p ≤ listedExposures p := by
  unfold seenExposures listedExposures
  cases p.captureBurstExposure with
  | none => exact le_rfl
  | some s =>
    have hle := listed_le_append (s.bytes.take (propertyValueMax - 1))
      (s.bytes.drop (propertyValueMax - 1))
    rwa [List.take_append_drop] at hle

theorem toNat_countExposures (p : Parameters) :
    (countExposures p.captureBurstExposure).toNat = max 1 (seenExposures p) := by
  unfold seenExposures countExposures
  cases p.captureBurstExposure with
  | none => rfl
  | some s =>
    have hlen : listed (s.bytes.take (propertyValueMax - 1)) < 256 := by
      have hle := listed_le_length (s.bytes.take (propertyValueMax - 1))
      have htake := List.length_take_le (propertyValueMax - 1) s.bytes
      have hmax : propertyValueMax - 1 < 256 := by decide
      omega
    have hcount : (if s.bytes = [] then 0
        else countTokens 0 (s.bytes.take (propertyValueMax - 1))) =
          UInt8.ofNat (listed (s.bytes.take (propertyValueMax - 1))) := by
      split_ifs with hnil
      · rw [hnil]
        rfl
      · rw [countTokens_eq, UInt8.zero_add]
    simp only [hcount, Option.elim_some]
    generalize listed (s.bytes.take (propertyValueMax - 1)) = n at hlen
    have hnat : (UInt8.ofNat n).toNat = n := UInt8.toNat_ofNat_of_lt hlen
    split_ifs with hzero
    · have hn : n = 0 := by
        rw [← hnat, hzero]
        rfl
      rw [hn]
      rfl
    · have hn : n ≠ 0 := by
        rintro rfl
        exact hzero rfl
      rw [hnat]
      omega

theorem getNumOfSnapshots_set (p : Parameters) :
    getNumOfSnapshots (setNumOfSnapshot p).2 =
      let v := (p.burstNum * Int32.ofNat (expnum p).toNat).toInt
      UInt8.ofInt (if v ≤ 0 then 1 else v) := by
  have hread : ∀ v : Int32, (strtol (decimalInt v.toInt)).1 = v.toInt := by
    intro v
    have hnum := (SizeLists.intText_decimalInt v.toInt).numeral
    rw [SizeLists.clampLong_toInt] at hnum
    have hstrtol : strtol (decimalInt v.toInt ++ []) = _ := strtol_of_numeral hnum (by simp)
    rw [List.append_nil] at hstrtol
    rw [hstrtol]
  simp only [getNumOfSnapshots, setNumOfSnapshot, getInt, hread, Parameters.getBurstNum]

theorem expnum_of_not_bracketed (h : ¬ Bracketed p) : expnum p = 0 := by
  unfold expnum
  cases hstr : p.aeBracketHdr with
  | none => rfl
  | some str =>
    refine if_pos ?_
    by_contra hne
    exact h ⟨str, hstr, hne⟩

theorem BracketingOn.bracketed (h : BracketingOn p) : Bracketed p := by
  obtain ⟨str, hstr, hon⟩ := h
  exact ⟨str, hstr, by rw [hon]; decide⟩

theorem expnum_of_on (h : BracketingOn p) :
    expnum p = countExposures p.captureBurstExposure := by
  obtain ⟨str, hstr, hon⟩ := h
  have hlookup : lookupAttr bracketingModesMap aeBracket = some .on := by decide
  unfold expnum
  rw [Option.mem_def.mp hstr]
  simp only [hon, hlookup]
  exact if_neg (by decide)

theorem expnum_of_off (hsome : Bracketed p) (hoff : ¬ BracketingOn p) :
    expnum p = 1 + p.getNumOfExtraHDROutBufsIfNeeded := by
  obtain ⟨str, hstr, hne⟩ := hsome
  have hname : str.bytes ≠ aeBracket := fun heq => hoff ⟨str, hstr, heq⟩
  have hlookup : lookupAttr bracketingModesMap str.bytes ≠ some .on := by
    simp only [lookupAttr, bracketingModesMap, List.find?_cons, decide_eq_false hname.symm]
    split
    · decide
    · simp
  unfold expnum
  rw [Option.mem_def.mp hstr]
  -- by `hlookup` it is the default branch
  simp only [if_neg hne]

theorem toNat_ofInt_natCast (n : ℕ) : (UInt8.ofInt n).toNat = n % 256 := by
  simp only [UInt8.ofInt, UInt8.toNat_ofNat']
  omega

theorem count_of_lt (hn : 1 ≤ p.burstNum.toInt) (he : 0 < (expnum p).toNat)
    (hlt : burst p * (expnum p).toNat < 2 ^ 31) :
    (getNumOfSnapshots (setNumOfSnapshot p).2).toNat = burst p * (expnum p).toNat % 256 := by
  have hburst : p.burstNum.toInt = burst p := by
    unfold burst
    omega
  have hexp : (Int32.ofNat (expnum p).toNat).toInt = (expnum p).toNat := by
    have hbyte := (expnum p).toNat_lt
    exact Int32.toInt_ofNat_of_lt (by omega)
  have hpos : 0 < burst p * (expnum p).toNat := Nat.mul_pos (by omega) he
  have hprod : (p.burstNum * Int32.ofNat (expnum p).toNat).toInt =
      (burst p * (expnum p).toNat : ℕ) := by
    rw [Int32.toInt_mul, hburst, hexp, ← Nat.cast_mul]
    exact Int.bmod_eq_of_le (by omega) (by omega)
  rw [getNumOfSnapshots_set]
  simp only [hprod]
  rw [if_neg (by omega), toNat_ofInt_natCast]

theorem count_of_not_bracketed (h : ¬ Bracketed p) :
    (getNumOfSnapshots (setNumOfSnapshot p).2).toNat = 1 := by
  rw [getNumOfSnapshots_set, expnum_of_not_bracketed h]
  simp

/-- Among the bursts of a byte, only 0 and 1 are multiplied by their successor as by 2. -/
theorem eq_one_of_mul_succ {n : ℕ} (hn : 1 ≤ n) (hlt : n * 2 < 256)
    (h : n * (1 + n) % 256 = n * 2) : n = 1 := by
  have hall : ∀ n : Fin 128, 1 ≤ n.val → n.val * (1 + n.val) % 256 = n.val * 2 → n.val = 1 := by
    decide +kernel
  exact hall ⟨n, by omega⟩ hn h

theorem toNat_expnum_of_hdr (hsome : Bracketed p) (hoff : ¬ BracketingOn p)
    (hhdr : (p.isHDREnabled && p.hdr1xFrameEnabled) = true) (hn : 1 ≤ p.burstNum.toInt)
    (hlt : burst p < 255) : (expnum p).toNat = 1 + burst p := by
  have hburst : p.burstNum.toInt = burst p := by
    unfold burst
    omega
  have hextra : p.getNumOfExtraHDROutBufsIfNeeded.toNat = burst p := by
    simp only [Parameters.getNumOfExtraHDROutBufsIfNeeded, Parameters.getBurstNum, hhdr, if_true,
      one_mul, hburst, toNat_ofInt_natCast]
    omega
  rw [expnum_of_off hsome hoff, UInt8.toNat_add, hextra]
  exact Nat.mod_eq_of_lt (by simp; omega)

theorem expnum_of_not_hdr (hsome : Bracketed p) (hoff : ¬ BracketingOn p)
    (hhdr : (p.isHDREnabled && p.hdr1xFrameEnabled) = false) : expnum p = 1 := by
  rw [expnum_of_off hsome hoff]
  simp only [Parameters.getNumOfExtraHDROutBufsIfNeeded, hhdr, Bool.false_eq_true, if_false,
    zero_mul]
  rfl

theorem count_iff_of_not_bracketed (h : ¬ Bracketed p) (hfits : burst p * outputPictures p < 256) :
    (getNumOfSnapshots (setNumOfSnapshot p).2).toNat = burst p * outputPictures p ↔
      CountedRight p := by
  have hoff : ¬ BracketingOn p := fun hon => h hon.bracketed
  rw [count_of_not_bracketed h]
  constructor
  · intro hone
    refine ⟨hfits, fun _ => hone.symm, fun hon => absurd hon hoff, fun _ hhdr => ?_⟩
    exact Nat.eq_one_of_mul_eq_one_right hone.symm
  · exact fun hright => (hright.unbracketed h).symm

theorem count_iff_of_on (h : BracketingOn p) (hn : 1 ≤ p.burstNum.toInt)
    (hfits : burst p * outputPictures p < 256) :
    (getNumOfSnapshots (setNumOfSnapshot p).2).toNat = burst p * outputPictures p ↔
      CountedRight p := by
  have hpos : 0 < burst p := by
    unfold burst
    omega
  have hpictures : outputPictures p = max 1 (listedExposures p) := if_pos h
  have hexp : (expnum p).toNat = max 1 (seenExposures p) := by
    rw [expnum_of_on h, toNat_countExposures]
  have hle : burst p * max 1 (seenExposures p) ≤ burst p * max 1 (listedExposures p) :=
    Nat.mul_le_mul_left _ (max_le_max le_rfl (seenExposures_le p))
  rw [hpictures] at hfits ⊢
  rw [count_of_lt hn (by omega) (by rw [hexp]; omega), hexp, Nat.mod_eq_of_lt (by omega),
    Nat.mul_right_inj (by omega)]
  constructor
  · intro hseen
    exact ⟨by rw [hpictures]; exact hfits, fun hnone => absurd h.bracketed hnone, fun _ => hseen,
      fun hoff => absurd h hoff⟩
  · exact fun hright => hright.seen h

theorem count_iff_of_off (hsome : Bracketed p) (hoff : ¬ BracketingOn p)
    (hn : 1 ≤ p.burstNum.toInt) (hfits : burst p * outputPictures p < 256) :
    (getNumOfSnapshots (setNumOfSnapshot p).2).toNat = burst p * outputPictures p ↔
      CountedRight p := by
  have hpos : 1 ≤ burst p := by
    unfold burst
    omega
  cases hhdr : p.isHDREnabled && p.hdr1xFrameEnabled with
  | false =>
    have hpictures : outputPictures p = 1 := by simp [outputPictures, hoff, hhdr]
    have hexp : (expnum p).toNat = 1 := by
      rw [expnum_of_not_hdr hsome hoff hhdr]
      rfl
    rw [hpictures, mul_one] at hfits
    refine iff_of_true ?_ ⟨by rwa [hpictures, mul_one], fun hnone => absurd hsome hnone,
      fun hon => absurd hon hoff, fun _ hone => ?_⟩
    · rw [count_of_lt hn (by omega) (by rw [hexp]; omega), hexp, hpictures, mul_one]
      exact Nat.mod_eq_of_lt hfits
    · rw [hhdr] at hone
      exact absurd hone (by decide)
  | true =>
    have hpictures : outputPictures p = 2 := by simp [outputPictures, hoff, hhdr]
    rw [hpictures] at hfits ⊢
    have hexp := toNat_expnum_of_hdr hsome hoff hhdr hn (by omega)
    have hsmall : burst p * (1 + burst p) ≤ 127 * 128 := Nat.mul_le_mul (by omega) (by omega)
    rw [count_of_lt hn (by omega) (by rw [hexp]; omega), hexp]
    constructor
    · intro heq
      have hone := eq_one_of_mul_succ hpos hfits heq
      exact ⟨by rw [hpictures]; exact hfits, fun hnone => absurd hsome hnone,
        fun hon => absurd hon hoff, fun _ _ => hone⟩
    · intro hright
      rw [hright.single hoff hhdr]

/-- **The count is the burst number times the pictures of one shot exactly if it is
counted right.** -/
theorem snapshot_count_iff (p : Parameters) (hn : 1 ≤ p.burstNum.toInt) :
    ((getNumOfSnapshots (setNumOfSnapshot p).2).toNat = burst p * outputPictures p ∧
      1 ≤ (getNumOfSnapshots (setNumOfSnapshot p).2).toNat) ↔ CountedRight p := by
  have hpos : 1 ≤ burst p * outputPictures p := by
    refine Nat.mul_pos (by unfold burst; omega) ?_
    unfold outputPictures
    split_ifs
    · omega
    · decide
    · decide
  -- what is returned is positive if it is right
  rw [and_iff_left_of_imp (fun heq => heq ▸ hpos)]
  by_cases hfits : burst p * outputPictures p < 256
  · by_cases hsome : Bracketed p
    · by_cases hon : BracketingOn p
      · exact count_iff_of_on hon hn hfits
      · exact count_iff_of_off hsome hon hn hfits
    · exact count_iff_of_not_bracketed hsome hfits
  · refine iff_of_false (fun heq => hfits ?_) fun hright => hfits hright.fits
    rw [← heq]
    exact UInt8.toNat_lt _

/-- A burst number with no bracketing, and HDR with its 1x frame or not. -/
def burstOf (n : Int32) (hdr : Bool) : Parameters where
  burstNum := n
  aeBracketHdr := some ⟨aeBracketOff, by decide⟩
  captureBurstExposure := none
  hdrEnabled := hdr
  hdrSceneEnabled := false
  hdr1xFrameEnabled := true
  numSnapshotPerShutter := none

theorem snapshot_count_of_three :
    CountedRight (burstOf 3 false) ∧
      (getNumOfSnapshots (setNumOfSnapshot (burstOf 3 false)).2).toNat = 3 := by
  have hright : CountedRight (burstOf 3 false) := ⟨by decide, by decide, by decide, by decide⟩
  exact ⟨hright, ((snapshot_count_iff (burstOf 3 false) (by decide)).mpr hright).1⟩

/-- With HDR and its 1x frame, a burst of 2 counts 6 pictures and not 4. -/
theorem burst_of_two_hdr :
    (getNumOfSnapshots (setNumOfSnapshot (burstOf 2 true)).2).toNat = 6 ∧
      burst (burstOf 2 true) * outputPictures (burstOf 2 true) = 4 := by
  refine ⟨?_, by decide⟩
  rw [getNumOfSnapshots_set]
  decide

end SnapshotCount

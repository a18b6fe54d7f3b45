/-
Lists of sizes as parameter strings: `createSizesString` and `createHfrSizesString`
print them, `parse_pair` and `parseSizesList` read them.

* `parseSizes_eq` — the parser reads the text item by item between the commas, and
  stops at the first item that it does not read to its end;
* `size_lists_roundtrip_iff` — the text of a list is read back exactly if the list is
  not empty, and the sizes that are pushed are those written in the text exactly if
  the first item that is not a size (`Written`) does not pass for one (`Passes`):
  `parse_pair` fails with `BAD_VALUE` where its caller asks for -1.
-/
import HdxCommon.AreaStrings
import HdxCommon.Decimal

namespace SizeLists

open ParamStrings Decimal

/-! ### The code -/

/-- `cam_dimension_t` and `Size`. -/
structure Size where
  width : Int32
  height : Int32
  deriving DecidableEq

/-- `cam_hfr_info_t`, as far as it is printed. -/
structure HfrInfo where
  dim : Size
  deriving DecidableEq

/-- The delimiter `x` between width and height. -/
def delimX : UInt8 := 0x78

/-- `snprintf` into a buffer of `n` characters: the text is cut to fit. -/
def snprintf (n : ℕ) (text : List UInt8) : List UInt8 := text.take (n - 1)

/-- The text of the format `%dx%d`. -/
def sizeText (size : Size) : List UInt8 :=
  decimalInt size.width.toInt ++ delimX :: decimalInt size.height.toInt

/-- The loop that `createSizesString` and `createHfrSizesString` share. -/
def createSizes {α : Type} (dim : α → Size) : List α → List UInt8
  | [] => []
  | v :: values => values.foldl (fun str v => str ++ snprintf 32 (comma :: sizeText (dim v)))
      (snprintf 32 (sizeText (dim v)))

/-- What `parse_pair` returns: its status, the two outputs, `none` where they are not
written, and `endptr`, which stays where it was if it is not written. -/
structure Pair where
  status : ℤ
  first : Option Int32
  second : Option Int32
  endptr : List UInt8
  deriving DecidableEq

/-- `parse_pair`, with `endptr` at `str` before, as its caller has it. -/
def parsePair (str : List UInt8) (delim : UInt8) : Pair :=
  let (w, fin) := strtol str
  if fin.head? ≠ some delim then ⟨badValue, none, none, str⟩
  else
    let (h, fin) := strtol fin.tail
    ⟨noError, some (Int32.ofInt w), some (Int32.ofInt h), fin⟩

theorem length_strtol_le (s : List UInt8) : (strtol s).2.length ≤ s.length := by
  by_cases hmoved : (strtol s).2 = s
  · rw [hmoved]
  · obtain ⟨t, hs, -⟩ := numeral_of_strtol hmoved
    conv_rhs => rw [hs, List.length_append]
    omega

theorem length_endptr_le (s : List UInt8) (delim : UInt8) :
    (parsePair s delim).endptr.length ≤ s.length := by
  unfold parsePair
  dsimp only
  split_ifs
  · exact le_rfl
  · have hfirst := length_strtol_le s
    have hsecond := length_strtol_le (strtol s).2.tail
    have htail := List.length_tail (l := (strtol s).2)
    dsimp only
    omega

/-- A size as it is pushed; `none` is an `int` that was never initialised. -/
abbrev Pushed := Option Int32 × Option Int32

/-- The loop of `parseSizesList`, from `sizeStartPtr`: what it pushes. -/
def parseSizes (sizeStartPtr : List UInt8) : List Pushed :=
  let pair := parsePair sizeStartPtr delimX
  -- `success == -1 || (*sizeStartPtr != ',' && *sizeStartPtr != '\0')`
  if pair.status = -1 then []
  else match _hend : pair.endptr with
    | [] => [(pair.first, pair.second)]
    | c :: rest => if c ≠ comma then [] else (pair.first, pair.second) :: parseSizes rest
termination_by sizeStartPtr.length
decreasing_by
  have hle := length_endptr_le sizeStartPtr delimX
  rw [_hend, List.length_cons] at hle
  omega

/-- `parseSizesList`. -/
def parseSizesList (sizesStr : Option CString) : List Pushed :=
  match sizesStr with
  | none => []
  | some s => parseSizes s.bytes

def Size.pushed (size : Size) : Pushed := (some size.width, some size.height)

/-! ### Item by item -/

variable {s t tail : List UInt8} {size : Size}

/-- What may stand behind an item: nothing, or a comma. -/
def Delimited (tail : List UInt8) : Prop := ∀ c ∈ tail.head?, c = comma

section Delimited

variable (h : Delimited tail)
include h

theorem Delimited.dropWhile_append {p : UInt8 → Bool} (hp : p comma = false) (t : List UInt8) :
    (t ++ tail).dropWhile p = t.dropWhile p ++ tail := by
  induction t with
  | nil =>
    cases tail with
    | nil => rfl
    | cons c tail =>
      obtain rfl := h c rfl
      exact List.dropWhile_cons_of_neg (by simp [hp])
  | cons c t ih =>
    cases hc : p c with
    | true => simpa [hc] using ih
    | false => simp [hc]

theorem Delimited.takeWhile_append {p : UInt8 → Bool} (hp : p comma = false) (t : List UInt8) :
    (t ++ tail).takeWhile p = t.takeWhile p := by
  induction t with
  | nil =>
    cases tail with
    | nil => rfl
    | cons c tail =>
      obtain rfl := h c rfl
      exact List.takeWhile_cons_of_neg (by simp [hp])
  | cons c t ih =>
    cases hc : p c with
    | true => simpa [hc] using ih
    | false => simp [hc]

theorem Delimited.sign_append (t : List UInt8) :
    sign (t ++ tail) = ((sign t).1, (sign t).2 ++ tail) := by
  cases t with
  | nil =>
    cases tail with
    | nil => rfl
    | cons c tail =>
      obtain rfl := h c rfl
      rfl
  | cons c t =>
    rw [List.cons_append]
    by_cases hminus : c = 0x2D
    · subst hminus
      rfl
    by_cases hplus : c = 0x2B
    · subst hplus
      rfl
    simp [sign, hminus, hplus]

/-- `strtol` reads an item as if it stood alone. -/
theorem Delimited.strtol_append (t : List UInt8) :
    strtol (t ++ tail) = ((strtol t).1, (strtol t).2 ++ tail) := by
  simp only [strtol, h.dropWhile_append (p := isSpace) (by decide), h.sign_append,
    h.takeWhile_append (p := isDigit) (by decide), h.dropWhile_append (p := isDigit) (by decide)]
  split_ifs
  · rfl
  · rfl
  · rfl

theorem Delimited.parsePair_append (t : List UInt8) :
    parsePair (t ++ tail) delimX =
      { parsePair t delimX with endptr := (parsePair t delimX).endptr ++ tail } := by
  have hhead : ((strtol t).2 ++ tail).head? = some delimX ↔ (strtol t).2.head? = some delimX := by
    cases hfin : (strtol t).2 with
    | cons c fin => rfl
    | nil =>
      refine iff_of_false (fun hx => ?_) (by simp)
      exact absurd (h delimX hx) (by decide)
  by_cases hdelim : (strtol t).2.head? = some delimX
  · obtain ⟨fin, hfin⟩ : ∃ fin, (strtol t).2 = delimX :: fin := by
      rw [List.head?_eq_some_iff] at hdelim
      exact hdelim
    simp [parsePair, h.strtol_append, hfin]
  · have hdelim' : ((strtol t).2 ++ tail).head? ≠ some delimX := fun heq => hdelim (hhead.mp heq)
    simp only [parsePair, h.strtol_append, if_pos hdelim, if_pos hdelim', ne_eq]

end Delimited

/-- The sizes pushed for the items of a text, one after another. -/
def parseItems : List (List UInt8) → List Pushed
  | [] => []
  | t :: items =>
    let pair := parsePair t delimX
    if pair.endptr = [] then (pair.first, pair.second) :: parseItems items else []

/-- `parse_pair` never returns what its caller takes for a failure. -/
theorem status_ne (t : List UInt8) : (parsePair t delimX).status ≠ -1 := by
  unfold parsePair
  dsimp only
  split_ifs
  · exact (by decide : badValue ≠ -1)
  · exact (by decide : noError ≠ -1)

theorem parseSizes_of_nil (hend : (parsePair s delimX).endptr = []) :
    parseSizes s = [((parsePair s delimX).first, (parsePair s delimX).second)] := by
  rw [parseSizes, if_neg (status_ne s)]
  split
  · rfl
  · rename_i hcons
    exact absurd (hcons.symm.trans hend) (List.cons_ne_nil _ _)

theorem parseSizes_of_cons {c : UInt8} {rest : List UInt8}
    (hend : (parsePair s delimX).endptr = c :: rest) :
    parseSizes s = if c ≠ comma then [] else
      ((parsePair s delimX).first, (parsePair s delimX).second) :: parseSizes rest := by
  rw [parseSizes, if_neg (status_ne s)]
  split
  · rename_i hnil
    exact absurd (hend.symm.trans hnil) (List.cons_ne_nil _ _)
  · rename_i hcons
    obtain ⟨rfl, rfl⟩ := List.cons.inj (hcons.symm.trans hend)
    rfl

theorem endptr_suffix (t : List UInt8) : (parsePair t delimX).endptr <:+ t := by
  have hstrtol : ∀ s, (strtol s).2 <:+ s := by
    intro s
    by_cases hmoved : (strtol s).2 = s
    · rw [hmoved]
    · obtain ⟨u, hs, -⟩ := numeral_of_strtol hmoved
      exact ⟨u, hs.symm⟩
  unfold parsePair
  dsimp only
  split_ifs
  · exact List.suffix_rfl
  · exact ((hstrtol _).trans (List.tail_suffix _)).trans (hstrtol t)

theorem parseSizes_append (ht : comma ∉ t) (htail : Delimited tail) :
    parseSizes (t ++ tail) = if (parsePair t delimX).endptr = [] then
      ((parsePair t delimX).first, (parsePair t delimX).second) ::
        (if tail = [] then [] else parseSizes tail.tail) else [] := by
  have hpair := htail.parsePair_append t
  have hend := congrArg Pair.endptr hpair
  have hfirst := congrArg Pair.first hpair
  have hsecond := congrArg Pair.second hpair
  dsimp only at hend hfirst hsecond
  cases hitem : (parsePair t delimX).endptr with
  | nil =>
    rw [hitem, List.nil_append] at hend
    rw [if_pos rfl]
    cases tail with
    | nil => rw [parseSizes_of_nil hend, hfirst, hsecond, if_pos rfl]
    | cons c rest =>
      obtain rfl := htail c rfl
      rw [parseSizes_of_cons hend, hfirst, hsecond, if_neg (by simp), if_neg (by simp)]
      rfl
  | cons c fin =>
    -- the character at which the item is left is one of the item's
    rw [hitem, List.cons_append] at hend
    have hc : c ∈ t := (endptr_suffix t).subset (by simp [hitem])
    have hcomma : c ≠ comma := by
      rintro rfl
      exact ht hc
    rw [parseSizes_of_cons hend, if_pos hcomma, if_neg (List.cons_ne_nil c fin)]

/-- **The parser reads the text item by item.** -/
theorem parseSizes_intercalate {items : List (List UInt8)} (hne : items ≠ [])
    (hitems : ∀ t ∈ items, comma ∉ t) :
    parseSizes ([comma].intercalate items) = parseItems items := by
  induction items with
  | nil => exact absurd rfl hne
  | cons t items ih =>
    have ht := hitems t List.mem_cons_self
    cases items with
    | nil =>
      have hround : parseSizes (t ++ []) = _ := parseSizes_append ht (by simp [Delimited])
      simpa [parseItems] using hround
    | cons u items =>
      have hround : parseSizes (t ++ comma :: [comma].intercalate (u :: items)) = _ :=
        parseSizes_append ht (by simp [Delimited])
      have hrest := ih (List.cons_ne_nil u items)
        fun v hv => hitems v (List.mem_cons_of_mem t hv)
      rw [List.intercalate_cons_cons, List.append_assoc, List.singleton_append, hround,
        parseItems]
      simp [hrest]

/-! ### What an item is -/

/-- `IntText t z`: the text `t` is the integer `z`, perhaps with spaces before it. -/
def IntText (t : List UInt8) (z : ℤ) : Prop :=
  ∃ ws sg ds, t = ws ++ (sg ++ ds) ∧ (∀ c ∈ ws, isSpace c = true) ∧
    (sg = [] ∨ sg = [0x2B] ∨ sg = [0x2D]) ∧ ds ≠ [] ∧ (∀ c ∈ ds, isDigit c = true) ∧
    z = if sg = [0x2D] then -digitsVal ds else digitsVal ds

/-- The text of a size, `WxH`. -/
def SizeWritten (t : List UInt8) (size : Size) : Prop :=
  ∃ w h, t = w ++ delimX :: h ∧ IntText w size.width.toInt ∧ IntText h size.height.toInt

def Written (t : List UInt8) : Prop := ∃ size, SizeWritten t size

/-- An item for which a size is pushed: it may be empty, or have no number on a side
of the `x`. -/
def Passes (t : List UInt8) : Prop :=
  t = [] ∨ ∃ w h, t = w ++ delimX :: h ∧ (w = [] ∨ ∃ z, IntText w z) ∧ (h = [] ∨ ∃ z, IntText h z)

theorem IntText.numeral {z : ℤ} (h : IntText t z) : Numeral t (clampLong z) := by
  obtain ⟨ws, sg, ds, ht, hws, hsg, hne, hds, rfl⟩ := h
  exact ⟨ws, sg, ds, ht, hws, hsg, hne, hds, rfl⟩

theorem intText_of_numeral {v : ℤ} (h : Numeral t v) : ∃ z, IntText t z := by
  obtain ⟨ws, sg, ds, ht, hws, hsg, hne, hds, -⟩ := h
  exact ⟨_, ws, sg, ds, ht, hws, hsg, hne, hds, rfl⟩

theorem strtol_of_part {rest : List UInt8} (hpart : t = [] ∨ ∃ z, IntText t z)
    (hrest : rest = [] ∨ ∃ u, rest = delimX :: u) : (strtol (t ++ rest)).2 = rest := by
  rcases hpart with rfl | ⟨z, hz⟩
  · rcases hrest with rfl | ⟨u, rfl⟩
    · rfl
    · rfl
  · rw [strtol_of_numeral hz.numeral]
    rcases hrest with rfl | ⟨u, rfl⟩
    · simp
    · intro c hc
      cases hc
      decide

theorem part_of_strtol (s : List UInt8) :
    ∃ t, s = t ++ (strtol s).2 ∧ (t = [] ∨ ∃ z, IntText t z) := by
  by_cases hmoved : (strtol s).2 = s
  · exact ⟨[], by rw [hmoved, List.nil_append], .inl rfl⟩
  · obtain ⟨t, hs, hnum⟩ := numeral_of_strtol hmoved
    exact ⟨t, hs, .inr (intText_of_numeral hnum)⟩

theorem endptr_eq_nil_iff (t : List UInt8) : (parsePair t delimX).endptr = [] ↔ Passes t := by
  constructor
  · intro hend
    by_cases hdelim : (strtol t).2.head? = some delimX
    · obtain ⟨fin, hfin⟩ := List.head?_eq_some_iff.mp hdelim
      obtain ⟨w, ht, hw⟩ := part_of_strtol t
      obtain ⟨h, hh, hpart⟩ := part_of_strtol fin
      have hlast : (strtol fin).2 = [] := by simpa [parsePair, hfin] using hend
      rw [hlast, List.append_nil] at hh
      rw [hfin] at ht
      exact .inr ⟨w, h, by rw [ht, hh], hw, hpart⟩
    · exact .inl (by simpa [parsePair, hdelim] using hend)
  · rintro (rfl | ⟨w, h, rfl, hw, hh⟩)
    · rfl
    · have hfirst := strtol_of_part hw (.inr ⟨h, rfl⟩)
      have hsecond := strtol_of_part hh (.inl rfl)
      rw [List.append_nil] at hsecond
      simp [parsePair, hfirst, hsecond]

theorem clampLong_toInt (v : Int32) : clampLong v.toInt = v.toInt := by
  have hlo := v.le_toInt
  have hhi := v.toInt_lt
  rw [clampLong]
  omega

theorem parsePair_of_intText {w h : List UInt8} {a b : Int32} {delim : UInt8}
    (hdelim : isDigit delim = false) (hw : IntText w a.toInt) (hh : IntText h b.toInt) :
    parsePair (w ++ delim :: h) delim = ⟨noError, some a, some b, []⟩ := by
  have hhead : ∀ c ∈ (delim :: h).head?, isDigit c = false := by
    intro c hc
    cases hc
    exact hdelim
  have hfirst := strtol_of_numeral hw.numeral hhead
  have hsecond : strtol (h ++ []) = _ := strtol_of_numeral hh.numeral (by simp)
  rw [clampLong_toInt] at hfirst hsecond
  rw [List.append_nil] at hsecond
  simp [parsePair, hfirst, hsecond]

theorem SizeWritten.parsePair_eq (h : SizeWritten t size) :
    parsePair t delimX = ⟨noError, some size.width, some size.height, []⟩ := by
  obtain ⟨w, h, rfl, hw, hh⟩ := h
  exact parsePair_of_intText (by decide) hw hh

theorem Written.passes (h : Written t) : Passes t := by
  obtain ⟨size, hsize⟩ := h
  rw [← endptr_eq_nil_iff, hsize.parsePair_eq]

/-! ### The text of a list -/

theorem isDigit_of_mem_decimal {n : ℕ} {c : UInt8} (hc : c ∈ decimal n) : isDigit c = true := by
  have hbounds := toNat_of_mem_decimal hc
  simpa [isDigit, UInt8.le_iff_toNat_le] using hbounds

theorem intText_decimalInt (z : ℤ) : IntText (decimalInt z) z := by
  have hdigits : ∀ c ∈ decimal z.natAbs, isDigit c = true := fun c => isDigit_of_mem_decimal
  have hval : digitsVal (decimal z.natAbs) = z.natAbs := decimal_value _
  unfold decimalInt
  split_ifs with hneg
  · refine ⟨[], [0x2D], decimal z.natAbs, rfl, by simp, by simp, decimal_ne_nil _, hdigits, ?_⟩
    rw [if_pos rfl, hval]
    omega
  · refine ⟨[], [], decimal z.natAbs, rfl, by simp, by simp, decimal_ne_nil _, hdigits, ?_⟩
    rw [if_neg (by simp), hval]
    omega

theorem sizeWritten_sizeText (size : Size) : SizeWritten (sizeText size) size :=
  ⟨_, _, rfl, intText_decimalInt _, intText_decimalInt _⟩

theorem mem_sizeText {c : UInt8} (hc : c ∈ sizeText size) :
    isDigit c = true ∨ c = 0x2D ∨ c = delimX := by
  have hint : ∀ z : ℤ, c ∈ decimalInt z → isDigit c = true ∨ c = 0x2D := by
    intro z hz
    unfold decimalInt at hz
    split_ifs at hz
    · exact (List.mem_cons.mp hz).elim .inr fun h => .inl (isDigit_of_mem_decimal h)
    · exact .inl (isDigit_of_mem_decimal hz)
  rcases List.mem_append.mp hc with hw | hw
  · exact (hint _ hw).imp_right .inl
  · rcases List.mem_cons.mp hw with hx | hh
    · exact .inr (.inr hx)
    · exact (hint _ hh).imp_right .inl

theorem length_sizeText_le (size : Size) : (sizeText size).length ≤ 23 := by
  have hw := length_decimalInt_le size.width.le_toInt size.width.toInt_lt
  have hh := length_decimalInt_le size.height.le_toInt size.height.toInt_lt
  rw [sizeText, List.length_append, List.length_cons]
  omega

section Create

variable {α : Type} (dim : α → Size)

theorem createSizes_eq (values : List α) :
    createSizes dim values = [comma].intercalate (values.map fun v => sizeText (dim v)) := by
  have hfold : ∀ (values : List α) (str : List UInt8),
      values.foldl (fun str v => str ++ snprintf 32 (comma :: sizeText (dim v))) str =
        [comma].intercalate (str :: values.map fun v => sizeText (dim v)) := by
    intro values
    induction values with
    | nil => simp
    | cons v values ih =>
      intro str
      have hfits : snprintf 32 (comma :: sizeText (dim v)) = comma :: sizeText (dim v) := by
        have hlen := length_sizeText_le (dim v)
        exact List.take_of_length_le (by rw [List.length_cons]; omega)
      rw [List.foldl_cons, ih, hfits]
      cases values with
      | nil | cons u values => simp
  cases values with
  | nil => rfl
  | cons v values =>
    have hfits : snprintf 32 (sizeText (dim v)) = sizeText (dim v) := by
      have hlen := length_sizeText_le (dim v)
      exact List.take_of_length_le (by omega)
    rw [createSizes, hfold, hfits]
    rfl

theorem mem_createSizes {values : List α} {c : UInt8} (hc : c ∈ createSizes dim values) :
    c = comma ∨ ∃ v ∈ values, c ∈ sizeText (dim v) := by
  rw [createSizes_eq] at hc
  induction values with
  | nil => simp at hc
  | cons v values ih =>
    cases values with
    | nil => exact .inr ⟨v, List.mem_cons_self, by simpa using hc⟩
    | cons u values =>
      rw [List.map_cons, List.map_cons, List.intercalate_cons_cons, List.mem_append,
        List.mem_append, List.mem_singleton] at hc
      rcases hc with (hv | hcomma) | hrest
      · exact .inr ⟨v, List.mem_cons_self, hv⟩
      · exact .inl hcomma
      · exact (ih hrest).imp_right fun h => h.imp fun _ hmem =>
          ⟨List.mem_cons_of_mem v hmem.1, hmem.2⟩

theorem zero_notMem_createSizes (values : List α) : 0 ∉ createSizes dim values := by
  intro hzero
  rcases mem_createSizes dim hzero with h | ⟨v, -, h⟩
  · exact absurd h (by decide)
  · exact absurd (mem_sizeText h) (by decide)

theorem parseSizes_createSizes {values : List α} (hne : values ≠ []) :
    parseSizes (createSizes dim values) = values.map fun v => (dim v).pushed := by
  rw [createSizes_eq, parseSizes_intercalate (by simpa using hne)]
  · clear hne
    induction values with
    | nil => rfl
    | cons v values ih =>
      rw [List.map_cons, parseItems, (sizeWritten_sizeText (dim v)).parsePair_eq, ih]
      rfl
  · intro t ht hcomma
    obtain ⟨v, -, rfl⟩ := List.mem_map.mp ht
    exact absurd (mem_sizeText hcomma) (by decide)

/-- For the empty list a size is pushed that was never initialised. -/
theorem parseSizes_nil : parseSizes [] = [(none, none)] := parseSizes_of_nil rfl

theorem parseSizes_createSizes_iff (values : List α) :
    parseSizes (createSizes dim values) = values.map (fun v => (dim v).pushed) ↔ values ≠ [] := by
  constructor
  · rintro hread rfl
    exact absurd (parseSizes_nil.symm.trans hread) (List.cons_ne_nil _ _)
  · exact parseSizes_createSizes dim

end Create

/-- `createSizesString`. -/
def createSizesString (sizes : List Size) : CString :=
  ⟨createSizes id sizes, zero_notMem_createSizes id sizes⟩

/-- `createHfrSizesString`. -/
def createHfrSizesString (values : List HfrInfo) : CString :=
  ⟨createSizes HfrInfo.dim values, zero_notMem_createSizes HfrInfo.dim values⟩

/-! ### The sizes that are pushed -/

/-- Every size that is pushed is the one written at its place in the text. -/
def PushesWritten (str : CString) : Prop :=
  ∃ sizes : List Size, parseSizesList (some str) = sizes.map Size.pushed ∧
    List.Forall₂ SizeWritten ((str.bytes.splitOn comma).take sizes.length) sizes

/-- The first item that is not a size, if there is one, does not pass for a size. -/
def StopsInTime (items : List (List UInt8)) : Prop :=
  ∀ before t after, items = before ++ t :: after → (∀ u ∈ before, Written u) → ¬ Written t →
    ¬ Passes t

theorem stopsInTime_cons_of_written {items : List (List UInt8)} (ht : Written t) :
    StopsInTime (t :: items) ↔ StopsInTime items := by
  constructor
  · rintro h before u after rfl hbefore
    exact h (t :: before) u after rfl (by simpa using ⟨ht, hbefore⟩)
  · intro h before u after heq hbefore hu
    cases before with
    | nil =>
      obtain ⟨rfl, -⟩ := List.cons.inj heq
      exact absurd ht hu
    | cons v before =>
      obtain ⟨-, rfl⟩ := List.cons.inj heq
      exact h before u after rfl (fun w hw => hbefore w (List.mem_cons_of_mem v hw)) hu

theorem stopsInTime_cons_of_not_written {items : List (List UInt8)} (ht : ¬ Written t) :
    StopsInTime (t :: items) ↔ ¬ Passes t := by
  constructor
  · intro h
    exact h [] t items rfl (by simp) ht
  · intro h before u after heq hbefore _
    cases before with
    | nil =>
      obtain ⟨rfl, -⟩ := List.cons.inj heq
      exact h
    | cons v before =>
      obtain ⟨rfl, -⟩ := List.cons.inj heq
      exact absurd (hbefore t List.mem_cons_self) ht

theorem parseItems_written_iff (items : List (List UInt8)) :
    (∃ sizes : List Size, parseItems items = sizes.map Size.pushed ∧
      List.Forall₂ SizeWritten (items.take sizes.length) sizes) ↔ StopsInTime items := by
  induction items with
  | nil =>
    refine iff_of_true ⟨[], rfl, .nil⟩ ?_
    intro before t after heq
    simp at heq
  | cons t items ih =>
    by_cases hpasses : Passes t
    · have hend := (endptr_eq_nil_iff t).mpr hpasses
      by_cases ht : Written t
      · obtain ⟨size, hsize⟩ := id ht
        rw [stopsInTime_cons_of_written ht, ← ih]
        have hitems : parseItems (t :: items) = size.pushed :: parseItems items := by
          rw [parseItems, hsize.parsePair_eq]
          rfl
        rw [hitems]
        constructor
        · rintro ⟨sizes, hsizes, hwritten⟩
          cases sizes with
          | nil => exact absurd hsizes (List.cons_ne_nil _ _)
          | cons z sizes =>
            rw [List.length_cons, List.take_succ_cons] at hwritten
            exact ⟨sizes, (List.cons.inj hsizes).2, (List.forall₂_cons.mp hwritten).2⟩
        · rintro ⟨sizes, hsizes, hwritten⟩
          exact ⟨size :: sizes, by rw [hsizes, List.map_cons], .cons hsize hwritten⟩
      · -- something is pushed for an item that is no size
        rw [stopsInTime_cons_of_not_written ht]
        refine iff_of_false ?_ (fun h => h hpasses)
        rintro ⟨sizes, hsizes, hwritten⟩
        rw [parseItems, if_pos hend] at hsizes
        cases sizes with
        | nil => exact absurd hsizes (List.cons_ne_nil _ _)
        | cons z sizes =>
          rw [List.length_cons, List.take_succ_cons] at hwritten
          exact ht ⟨z, (List.forall₂_cons.mp hwritten).1⟩
    · have ht : ¬ Written t := fun h => hpasses h.passes
      rw [stopsInTime_cons_of_not_written ht]
      refine iff_of_true ⟨[], ?_, .nil⟩ hpasses
      rw [parseItems, if_neg (fun h => hpasses ((endptr_eq_nil_iff t).mp h))]
      rfl

theorem notMem_of_mem_splitOn (s : List UInt8) : ∀ t ∈ s.splitOn comma, comma ∉ t := by
  induction s with
  | nil => simp
  | cons c s ih =>
    rw [List.splitOn_cons_eq_if_modifyHead]
    split_ifs with hc
    · simpa using ih
    · obtain ⟨u, items, heq⟩ := List.exists_cons_of_ne_nil (List.splitOn_ne_nil comma s)
      rw [heq] at ih ⊢
      have hne : comma ≠ c := by
        rintro rfl
        exact hc (beq_self_eq_true comma)
      simp only [List.modifyHead_cons, List.mem_cons, forall_eq_or_imp, not_or] at ih ⊢
      exact ⟨⟨hne, ih.1⟩, ih.2⟩

theorem parseSizes_eq (s : List UInt8) : parseSizes s = parseItems (s.splitOn comma) := by
  have hread := parseSizes_intercalate (List.splitOn_ne_nil comma s) (notMem_of_mem_splitOn s)
  rwa [List.intercalate_splitOn] at hread

theorem pushesWritten_iff (str : CString) :
    PushesWritten str ↔ StopsInTime (str.bytes.splitOn comma) := by
  rw [← parseItems_written_iff, ← parseSizes_eq]
  rfl

/-- **Lists of sizes are read back exactly if they are not empty, and exactly the
sizes that are written are pushed unless something else passes for a size.** -/
theorem size_lists_roundtrip_iff (sizes : List Size) (values : List HfrInfo) (str : CString) :
    (parseSizesList (some (createSizesString sizes)) = sizes.map Size.pushed ↔ sizes ≠ []) ∧
    (parseSizesList (some (createHfrSizesString values)) =
      values.map (fun info => info.dim.pushed) ↔ values ≠ []) ∧
    (PushesWritten str ↔ StopsInTime (str.bytes.splitOn comma)) :=
  ⟨parseSizes_createSizes_iff id sizes, parseSizes_createSizes_iff HfrInfo.dim values,
    pushesWritten_iff str⟩

/-- The empty list, for example of the sizes for high frame rates, is printed as the
empty text, and that pushes a size that was never initialised. -/
theorem empty_list_pushes_garbage :
    parseSizesList (some (createSizesString [])) = [(none, none)] ∧
      parseSizesList (some (createHfrSizesString [])) = [(none, none)] ∧
      ¬ PushesWritten (createSizesString []) := by
  refine ⟨parseSizes_nil, parseSizes_nil, ?_⟩
  rintro ⟨sizes, hsizes, -⟩
  have hpush : [(none, none)] = sizes.map Size.pushed := parseSizes_nil.symm.trans hsizes
  cases sizes with
  | nil => exact absurd hpush (List.cons_ne_nil _ _)
  | cons z sizes => exact absurd (List.cons.inj hpush).1 (by simp [Size.pushed])

end SizeLists

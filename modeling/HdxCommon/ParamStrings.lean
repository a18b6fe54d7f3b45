/-
Parameter strings of an application in fixed buffers (`QCameraParameters.cpp`).

The lists of focus and metering areas are parsed area by area, each copied into
`area_str[32]` first; the GPS processing method is copied, behind a prefix of
eight bytes, into the buffer of 109 bytes that `getExifData` has for it.

* `parseCameraAreaString` — the parser, with `parseNDimVector` for one area;
* `AreasFit`, `SessionFits` — the strings that the buffers are large enough for;
* `parameter_strings_inside_iff` — a session of an application leaves no buffer
  exactly if its strings fit, and the parser always ends.

A buffer is one of `Buffers.lean`: no result means that it has been left.  The
outer `none` of a parser would be one that does not end.
-/
import Mathlib.Data.List.TakeWhile
import HdxCommon.Buffers
import HdxCommon.Runs

namespace ParamStrings

/-! ### C strings -/

/-- A C string, without the NUL at its end. -/
structure CString where
  bytes : List UInt8
  no_nul : 0 ∉ bytes
  deriving DecidableEq

def cstr (b : List UInt8) : Option (List UInt8) :=
  if 0 ∈ b then some (b.takeWhile (· ≠ 0)) else none

/-- `strchr`, of a character other than NUL. -/
def strchr (s : List UInt8) (c : UInt8) : Option (List UInt8) :=
  if c ∈ s then some (s.dropWhile (· ≠ c)) else none

/-- `isspace`. -/
def isSpace (c : UInt8) : Bool := c = 0x20 || (0x09 ≤ c && c ≤ 0x0D)

/-- `isdigit`. -/
def isDigit (c : UInt8) : Bool := 0x30 ≤ c && c ≤ 0x39

def sign : List UInt8 → Bool × List UInt8
  | 0x2D :: s => (true, s)
  | 0x2B :: s => (false, s)
  | s => (false, s)

/-- `strtol` to the base 10: the number and where it ends. -/
def strtol (s : List UInt8) : ℤ × List UInt8 :=
  let (neg, t) := sign (s.dropWhile isSpace)
  let digits := t.takeWhile isDigit
  if digits = [] then (0, s)
  else
    let n : ℤ := digits.foldl (fun n d => 10 * n + ((d.toNat : ℤ) - 0x30)) 0
    (max (-2 ^ 31) (min (2 ^ 31 - 1) (if neg then -n else n)), t.dropWhile isDigit)

/-! ### Areas -/

/-- The characters `(`, `)` and `,`. -/
def lparen : UInt8 := 0x28
def rparen : UInt8 := 0x29
def comma : UInt8 := 0x2C

def noError : ℤ := 0
def badValue : ℤ := -22
def noMemory : ℤ := -12

/-- The loop of `parseNDimVector` from element `i` on, with so many to come. -/
def parseDims : ℕ → List UInt8 → List ℤ → ℕ → Option (ℤ × List ℤ)
  | 0, _, num, _ => some (noError, num)
  | left + 1, start, num, i => do
    let (value, fin) := strtol start
    let num ← store num i value
    if fin.head? ≠ some comma ∧ left ≠ 0 then return (-1, num)
    else parseDims left fin.tail num (i + 1)

/-- `parseNDimVector`. -/
def parseNDimVector (str : List UInt8) (num : List ℤ) (n : ℕ) : Option (ℤ × List ℤ) :=
  if str.head? ≠ some lparen ∨ str.getLast? ≠ some rparen then some (badValue, num)
  else parseDims n str.tail num 0

/-- `cam_area_t`. -/
structure Area where
  left : ℤ
  top : ℤ
  width : ℤ
  height : ℤ
  weight : ℤ
  deriving DecidableEq

/-- The difference and the sum of two ints. -/
def subInt (a b : ℤ) : ℤ := (a - b).bmod (2 ^ 32)

def addInt (a b : ℤ) : ℤ := (a + b).bmod (2 ^ 32)

def areaOf (values : List ℤ) : Option Area := do
  let left ← load values 0
  let top ← load values 1
  let right ← load values 2
  let bottom ← load values 3
  let weight ← load values 4
  return ⟨left, top, subInt right left, subInt bottom top, weight⟩

/-- The locals of `parseCameraAreaString`; `ret` is set by a return. -/
structure Scan where
  start : Option (List UInt8)
  areaStr : List UInt8
  values : List ℤ
  pAreas : List Area
  index : ℕ
  ret : Option ℤ

/-- The text of the area at `start`, if there is one, and what comes with its
closing parenthesis. -/
def areaText (start : List UInt8) : Option (List UInt8 × List UInt8) :=
  if start.head? ≠ some lparen then none
  else (strchr start rparen).map fun fin => (start.take (start.length - fin.length + 1), fin)

/-- The body of the loop of `parseCameraAreaString`. -/
def parseArea (maxNumAreas : ℕ) (s : Scan) (start : List UInt8) : Option Scan :=
  match areaText start with
  | none => some { s with ret := some badValue }
  | some (text, fin) => do
    let areaStr ← storeEach s.areaStr 0 text
    let areaStr ← store areaStr text.length 0
    let str ← cstr areaStr
    let (rc, values) ← parseNDimVector str s.values 5
    let s := { s with areaStr := areaStr, values := values }
    if rc < 0 then return { s with ret := some badValue }
    -- no more areas than there is room for
    else if maxNumAreas ≤ s.index then return { s with ret := some badValue }
    else
      let area ← areaOf values
      let pAreas ← store s.pAreas s.index area
      return { s with pAreas := pAreas, index := s.index + 1, start := strchr fin lparen }

/-- One round of the loop; `none` within is a buffer that has been left. -/
def areaRound (maxNumAreas : ℕ) : Option Scan → Option (Option Scan)
  | none => none
  | some s =>
    match s.ret, s.start with
    | none, some start => some (parseArea maxNumAreas s start)
    | _, _ => none

/-- What `parseCameraAreaString` returns. -/
structure Parsed where
  rc : ℤ
  pAreas : List Area
  numAreasFound : ℕ

/-- `parseCameraAreaString`. -/
def parseCameraAreaString (str : CString) (maxNumAreas : ℕ) (pAreas : List Area) :
    Option (Option Parsed) :=
  (loop (areaRound maxNumAreas) (str.bytes.length + 2)
    (some ⟨some str.bytes, .replicate 32 0, .replicate 5 0, pAreas, 0, none⟩)).map fun r =>
      r.map fun s => match s.ret with
        | some rc => ⟨rc, s.pAreas, 0⟩
        | none => ⟨noError, s.pAreas, s.index⟩

/-- The area `(0, 0, 0, 0, 0)` alone, which stands for no area. -/
def isDefaultArea (areas : List Area) (num : ℕ) : Bool :=
  num = 1 && areas[0]? = some ⟨0, 0, 0, 0, 0⟩

/-- `validateCameraAreas`. -/
def validateCameraAreas (areas : List Area) (num : ℕ) : Bool :=
  isDefaultArea areas num || (areas.take num).all fun a =>
    -1000 ≤ a.left && -1000 ≤ a.top && 0 < a.width && 0 < a.height &&
      addInt a.left a.width ≤ 1000 && addInt a.top a.height ≤ 1000 && 1 ≤ a.weight &&
      a.weight ≤ 1000

/-! ### The parameter map -/

/-- The strings of the parameter map that are copied into fixed buffers. -/
structure Strings where
  focusAreas : Option CString
  meteringAreas : Option CString
  gpsProcessingMethod : Option CString

/-- `max_num_focus_areas` and `max_num_metering_areas`. -/
structure Capability where
  maxNumFocusAreas : ℕ
  maxNumMeteringAreas : ℕ

/-- What `setFocusAreas` and `setMeteringAreas` have in common, from the string on:
the status, and whether the string is to be stored. -/
def setAreaString (failed : ℤ → Bool) (maxNumAreas : ℕ) (memory : Bool) (str : CString) :
    Option (Option (ℤ × Bool)) :=
  if maxNumAreas = 0 then some (some (noError, false))
  else if memory = false then some (some (noMemory, false))
  else (parseCameraAreaString str maxNumAreas (.replicate maxNumAreas ⟨0, 0, 0, 0, 0⟩)).map fun r =>
    r.map fun p =>
      if failed p.rc then (badValue, false)
      else if validateCameraAreas p.pAreas p.numAreasFound then (noError, true)
      else (badValue, false)

/-- What they have in common from the parameters on: a string that is there
already is not set again. -/
def setAreas (failed : ℤ → Bool) (maxNumAreas : ℕ) (memory : Bool) (str prev : Option CString) :
    Option (Option (ℤ × Bool)) :=
  match str with
  | none => some (some (noError, false))
  | some str =>
    if maxNumAreas = 0 then some (some (badValue, false))
    else if prev = some str then some (some (noError, false))
    else setAreaString failed maxNumAreas memory str

/-- `setFocusAreas`. -/
def setFocusAreas (cap : Capability) (memory : Bool) (params strings : Strings) :
    Option (Option (ℤ × Bool)) :=
  setAreas (· ≠ noError) cap.maxNumFocusAreas memory params.focusAreas strings.focusAreas

/-- `setMeteringAreas`. -/
def setMeteringAreas (cap : Capability) (memory : Bool) (params strings : Strings) :
    Option (Option (ℤ × Bool)) :=
  setAreas (· < 0) cap.maxNumMeteringAreas memory params.meteringAreas strings.meteringAreas

/-- `setGpsLocation`, as far as the processing method goes. -/
def setGpsLocation (params strings : Strings) : Strings :=
  { strings with gpsProcessingMethod := params.gpsProcessingMethod }

/-- `ExifAsciiPrefix`. -/
def exifAsciiPrefix : List UInt8 := [0x41, 0x53, 0x43, 0x49, 0x49, 0x0, 0x0, 0x0]

/-- `EXIF_ASCII_PREFIX_SIZE` and `GPS_PROCESSING_METHOD_SIZE`. -/
def exifAsciiPrefixSize : ℕ := 8
def gpsProcessingMethodSize : ℕ := 101

/-- What `getExifGpsProcessingMethod` returns: the status, the buffer and the
number of bytes in it. -/
structure GpsMethod where
  rc : ℤ
  buffer : List UInt8
  count : ℕ

/-- `getExifGpsProcessingMethod`. -/
def getExifGpsProcessingMethod (strings : Strings) (buffer : List UInt8) : Option GpsMethod :=
  match strings.gpsProcessingMethod with
  | none => some ⟨badValue, buffer, 0⟩
  | some str => do
    let buffer ← storeN buffer 0 exifAsciiPrefix
    let buffer ← storeN buffer exifAsciiPrefixSize str.bytes
    let count := exifAsciiPrefixSize + str.bytes.length
    let buffer ← store buffer count 0
    return ⟨noError, buffer, count + 1⟩

/-! ### Sessions -/

/-- What an application can do: set parameters, with memory to be had for the
areas or not and with the change committed or not, and take a picture, for which
the EXIF data are built. -/
inductive Request where
  | setParameters (params : Strings) (focusMemory meteringMemory committed : Bool)
  | getExifData

/-- What is stored for an area string after `setParameters`. -/
def commitAreas (committed : Bool) (res : ℤ × Bool) (str prev : Option CString) :
    Option CString :=
  if committed && res.2 then str else prev

/-- One request; `none` within if it leaves a buffer. -/
def serve (cap : Capability) (strings : Strings) : Request → Option (Option Strings)
  | .setParameters params focusMemory meteringMemory committed => do
    let focus ← setFocusAreas cap focusMemory params strings
    let metering ← setMeteringAreas cap meteringMemory params strings
    let strings := setGpsLocation params strings
    return do
      let focus ← focus
      let metering ← metering
      return { strings with
        focusAreas := commitAreas committed focus params.focusAreas strings.focusAreas
        meteringAreas := commitAreas committed metering params.meteringAreas
          strings.meteringAreas }
  | .getExifData =>
    some ((getExifGpsProcessingMethod strings
      (.replicate (exifAsciiPrefixSize + gpsProcessingMethodSize) 0)).map fun _ => strings)

/-- A session: requests one after the other, as long as no buffer is left. -/
def session (cap : Capability) : List Request → Strings → Option (Option Strings)
  | [], strings => some (some strings)
  | req :: reqs, strings =>
    match serve cap strings req with
    | some (some strings) => session cap reqs strings
    | some none => some none
    | none => none

section OneArea

variable {start text fin next b b' : List UInt8} {num : List ℤ} {c : UInt8} {s : Scan}
  {maxNumAreas room : ℕ}

theorem length_of_strchr (h : strchr start c = some fin) : fin.length ≤ start.length := by
  rw [strchr] at h
  split_ifs at h with hmem
  cases h
  exact (List.dropWhile_suffix _).length_le

theorem subset_of_strchr (h : strchr start c = some fin) : fin ⊆ start := by
  rw [strchr] at h
  split_ifs at h with hmem
  cases h
  exact (List.dropWhile_suffix _).subset

theorem head_of_strchr (h : strchr start c = some fin) : fin.head? = some c := by
  rw [strchr] at h
  split_ifs at h with hmem
  cases h
  have hne : start.dropWhile (· ≠ c) ≠ [] := by
    rw [Ne, List.dropWhile_eq_nil_iff]
    exact fun hall => absurd (hall c hmem) (by simp)
  have hhead := List.head_dropWhile_not (fun x => decide (x ≠ c)) hne
  rw [List.head?_eq_some_head hne]
  simpa using hhead

theorem areaText_spec (h : areaText start = some (text, fin)) :
    strchr start rparen = some fin ∧ text ⊆ start ∧ fin.length < start.length := by
  rw [areaText] at h
  split_ifs at h with hopen
  obtain ⟨fin, hfin, hpair⟩ := Option.map_eq_some_iff.mp h
  obtain ⟨rfl, rfl⟩ := Prod.mk.inj hpair
  refine ⟨hfin, List.take_subset _ _, ?_⟩
  obtain hlt | heq := (length_of_strchr hfin).lt_or_eq
  · exact hlt
  · -- then the area would begin with its end
    have hsuffix : fin <:+ start := by
      rw [strchr] at hfin
      split_ifs at hfin with hmem
      cases hfin
      exact List.dropWhile_suffix _
    have hsame : fin = start := hsuffix.eq_of_length heq
    have hclose := head_of_strchr hfin
    rw [hsame, not_not.mp hopen] at hclose
    exact absurd hclose (by decide)

/-- The answer of `parseNDimVector` for the elements that are to come. -/
def dimsRc : ℕ → List UInt8 → ℤ
  | 0, _ => noError
  | left + 1, start =>
    if (strtol start).2.head? ≠ some comma ∧ left ≠ 0 then -1
    else dimsRc left (strtol start).2.tail

/-- The answer of `parseNDimVector` for an area. -/
def areaRc (text : List UInt8) : ℤ :=
  if text.head? ≠ some lparen ∨ text.getLast? ≠ some rparen then badValue
  else dimsRc 5 text.tail

theorem parseDims_spec (left : ℕ) (start : List UInt8) {num : List ℤ} {i : ℕ}
    (hroom : i + left ≤ num.length) :
    ∃ num', parseDims left start num i = some (dimsRc left start, num') ∧
      num'.length = num.length := by
  induction left generalizing start num i with
  | zero => exact ⟨num, rfl, rfl⟩
  | succ left ih =>
    obtain ⟨num₁, hstore⟩ := Option.isSome_iff_exists.mp
      (isSome_store.mpr (show i < num.length by omega) : (store num i (strtol start).1).isSome)
    have hlen := length_of_store hstore
    simp only [parseDims, hstore, Option.bind_eq_bind, Option.bind_some, dimsRc]
    split_ifs with hstop
    · exact ⟨num₁, rfl, hlen⟩
    · obtain ⟨num', hrest, hlen'⟩ := @ih (strtol start).2.tail num₁ (i + 1) (by omega)
      exact ⟨num', hrest, hlen'.trans hlen⟩

theorem parseNDimVector_spec (text : List UInt8) (hnum : num.length = 5) :
    ∃ num', parseNDimVector text num 5 = some (areaRc text, num') ∧ num'.length = 5 := by
  rw [parseNDimVector, areaRc]
  split_ifs with hform
  · exact ⟨num, rfl, hnum⟩
  · obtain ⟨num', hdims, hlen⟩ := @parseDims_spec 5 text.tail num 0 (by omega)
    exact ⟨num', hdims, hlen.trans hnum⟩

theorem isSome_areaOf (hnum : num.length = 5) : (areaOf num).isSome = true := by
  obtain _ | ⟨v₀, _ | ⟨v₁, _ | ⟨v₂, _ | ⟨v₃, _ | ⟨v₄, rest⟩⟩⟩⟩⟩ := num
  all_goals first | rfl | simp at hnum

theorem cstr_copied (hb : text.length < b.length) (htext : 0 ∉ text) :
    ∃ b', ((storeEach b 0 text).bind fun b => store b text.length 0) = some b' ∧
      b'.length = b.length ∧ cstr b' = some text := by
  obtain ⟨y, rest, hrest⟩ := List.exists_cons_of_length_pos
    (show 0 < (b.drop text.length).length by rw [List.length_drop]; omega)
  have hcopy : storeEach b 0 text = some (text ++ y :: rest) := by
    rw [storeEach_eq_storeN (Nat.zero_le _), storeN, if_pos (by omega), List.take_zero,
      Nat.zero_add, hrest, List.nil_append]
  have hlen : b.length = (text ++ y :: rest).length := by
    rw [← hrest, List.length_append, List.length_drop]
    omega
  have hnul : (text ++ y :: rest).set text.length 0 = text ++ 0 :: rest := by
    rw [List.set_append_right _ _ le_rfl, Nat.sub_self, List.set_cons_zero]
  refine ⟨text ++ 0 :: rest, ?_, ?_, ?_⟩
  · rw [hcopy, Option.bind_some, store, if_pos (by omega), hnul]
  · rw [hlen, List.length_append, List.length_append, List.length_cons, List.length_cons]
  · rw [cstr, if_pos (by simp), List.takeWhile_append_of_pos, List.takeWhile_cons_of_neg,
      List.append_nil]
    · simp
    · intro x hx
      simpa using fun h : x = 0 => htext (h ▸ hx)

theorem copied_outside (hb : b.length ≤ text.length) :
    ((storeEach b 0 text).bind fun b => store b text.length 0) = none := by
  rw [storeEach_eq_storeN (Nat.zero_le _)]
  cases hstore : storeN b 0 text with
  | none => rfl
  | some b' =>
    have hlen := length_of_storeN hstore
    exact if_neg (by omega)

structure Sized (maxNumAreas : ℕ) (s : Scan) : Prop where
  areaStr_length : s.areaStr.length = 32
  values_length : s.values.length = 5
  pAreas_length : s.pAreas.length = maxNumAreas

/-- What one area does: the next one comes up, or the parser returns. -/
inductive AreaDone (maxNumAreas : ℕ) (s : Scan) (text fin : List UInt8) (s' : Scan) : Prop
  | next (hrc : 0 ≤ areaRc text) (hroom : s.index < maxNumAreas) (hret : s'.ret = s.ret)
      (hindex : s'.index = s.index + 1) (hstart : s'.start = strchr fin lparen)
  | returned (hstop : areaRc text < 0 ∨ maxNumAreas ≤ s.index) (hret : s'.ret = some badValue)

theorem parseArea_spec (hs : Sized maxNumAreas s) (hstart : 0 ∉ start)
    (htext : areaText start = some (text, fin)) :
    (31 < text.length ∧ parseArea maxNumAreas s start = none) ∨
      text.length ≤ 31 ∧ ∃ s', parseArea maxNumAreas s start = some s' ∧
        Sized maxNumAreas s' ∧ AreaDone maxNumAreas s text fin s' := by
  have hcopied : ∀ {β : Type} (f : List UInt8 → Option β),
      ((storeEach s.areaStr 0 text).bind fun b => (store b text.length 0).bind f) =
        ((storeEach s.areaStr 0 text).bind fun b => store b text.length 0).bind f :=
    fun f => (Option.bind_assoc _ _ _).symm
  simp only [parseArea, htext, Option.bind_eq_bind, hcopied]
  obtain hlong | hfits := Nat.lt_or_ge 31 text.length
  · refine Or.inl ⟨hlong, ?_⟩
    rw [copied_outside (by rw [hs.areaStr_length]; omega), Option.bind_none]
  · refine Or.inr ⟨hfits, ?_⟩
    obtain ⟨areaStr, hcopy, hlen, hstr⟩ := @cstr_copied text s.areaStr
      (by rw [hs.areaStr_length]; omega) fun h => hstart ((areaText_spec htext).2.1 h)
    obtain ⟨values, hparse, hvalues⟩ := parseNDimVector_spec text hs.values_length
    simp only [hcopy, hstr, hparse, Option.bind_some]
    split_ifs with hrc hroom
    · exact ⟨_, rfl, ⟨hlen.trans hs.areaStr_length, hvalues, hs.pAreas_length⟩,
        .returned (Or.inl hrc) rfl⟩
    · exact ⟨_, rfl, ⟨hlen.trans hs.areaStr_length, hvalues, hs.pAreas_length⟩,
        .returned (Or.inr hroom) rfl⟩
    · obtain ⟨area, harea⟩ := Option.isSome_iff_exists.mp (isSome_areaOf hvalues)
      obtain ⟨pAreas, hstore⟩ := Option.isSome_iff_exists.mp
        (isSome_store.mpr (show s.index < s.pAreas.length by rw [hs.pAreas_length]; omega) :
          (store s.pAreas s.index area).isSome)
      simp only [harea, hstore, Option.bind_some]
      exact ⟨_, rfl, ⟨hlen.trans hs.areaStr_length, hvalues,
        (length_of_store hstore).trans hs.pAreas_length⟩, .next (by omega) (by omega) rfl rfl rfl⟩

end OneArea

section Areas

variable {start text fin : List UInt8} {s : Scan} {maxNumAreas room n : ℕ} {str : CString}

/-- `AreasFit room start`: each area that the parser gets to, with room for so many,
has at most 31 characters. -/
inductive AreasFit : ℕ → List UInt8 → Prop
  | illFormed {room : ℕ} {start : List UInt8} (hnone : areaText start = none) :
      AreasFit room start
  | area {room : ℕ} {start text fin : List UInt8} (htext : areaText start = some (text, fin))
      (hfits : text.length ≤ 31) (hnext : ∀ next, 0 ≤ areaRc text → 0 < room →
        strchr fin lparen = some next → AreasFit (room - 1) next) : AreasFit room start

theorem areasFit_iff (htext : areaText start = some (text, fin)) :
    AreasFit room start ↔ text.length ≤ 31 ∧ ∀ next, 0 ≤ areaRc text → 0 < room →
      strchr fin lparen = some next → AreasFit (room - 1) next := by
  constructor
  · intro h
    cases h with
    | illFormed hnone => exact absurd (hnone.symm.trans htext) (by simp)
    | area htext' hfits hnext =>
      obtain ⟨rfl, rfl⟩ := Prod.mk.inj (Option.some.inj (htext'.symm.trans htext))
      exact ⟨hfits, hnext⟩
  · rintro ⟨hfits, hnext⟩
    exact .area htext hfits hnext

theorem areaRound_returned {rc : ℤ} (hret : s.ret = some rc) :
    areaRound maxNumAreas (some s) = none := by
  simp only [areaRound, hret]

/-- **The loop over the areas** ends, and leaves no buffer exactly if the areas
fit.  What is left of the string gets shorter with each of them. -/
theorem loop_areaRound (hs : Sized maxNumAreas s) (hret : s.ret = none)
    (hstart : s.start = some start) (hnul : 0 ∉ start) (hn : start.length + 1 < n) :
    ∃ r, loop (areaRound maxNumAreas) n (some s) = some r ∧
      (r.isSome = true ↔ AreasFit (maxNumAreas - s.index) start) := by
  induction n generalizing s start with
  | zero => omega
  | succ n ih =>
    have hround : areaRound maxNumAreas (some s) = some (parseArea maxNumAreas s start) := by
      simp only [areaRound, hret, hstart]
    obtain ⟨m, rfl⟩ : ∃ m, n = m + 1 := ⟨n - 1, by omega⟩
    rw [loop, hround]
    cases htext : areaText start with
    | none =>
      have hbad : parseArea maxNumAreas s start = some { s with ret := some badValue } := by
        simp only [parseArea, htext]
      refine ⟨some { s with ret := some badValue }, ?_, iff_of_true rfl (.illFormed htext)⟩
      simp only [hbad, loop, areaRound]
    | some pair =>
      obtain ⟨text, fin⟩ := pair
      rw [areasFit_iff htext]
      obtain ⟨hlong, hnone⟩ | ⟨hfits, s', hsome, hs', hdone⟩ := parseArea_spec hs hnul htext
      · refine ⟨none, by simp only [hnone, loop, areaRound], iff_of_false (by simp) ?_⟩
        exact fun h => absurd h.1 (by omega)
      simp only [hsome]
      cases hdone with
      | returned hstop hret' =>
        refine ⟨some s', by rw [loop, areaRound_returned hret'], iff_of_true rfl ⟨hfits, ?_⟩⟩
        intro next hrc hroom hnext
        omega
      | next hrc hroom hret' hindex hstart' =>
        cases hnext : strchr fin lparen with
        | none =>
          -- there is no further area
          have hlast : areaRound maxNumAreas (some s') = none := by
            simp only [areaRound, hret'.trans hret, hstart'.trans hnext]
          exact ⟨some s', by rw [loop, hlast], iff_of_true rfl ⟨hfits, by simp⟩⟩
        | some next =>
          obtain ⟨hfin, -, hshort⟩ := areaText_spec htext
          have hlen := length_of_strchr hnext
          have hnul' : 0 ∉ next := fun h =>
            hnul (subset_of_strchr hfin (subset_of_strchr hnext h))
          obtain ⟨r, hloop, hiff⟩ := ih hs' (hret'.trans hret) (hstart'.trans hnext) hnul'
            (by omega)
          refine ⟨r, hloop, ?_⟩
          rw [hiff, hindex, Nat.sub_add_eq]
          constructor
          · rintro h
            refine ⟨hfits, fun next' _ _ h' => ?_⟩
            cases h'
            exact h
          · rintro ⟨-, h⟩
            exact h next hrc (by omega) rfl

theorem parseCameraAreaString_spec {pAreas : List Area} (hlen : pAreas.length = maxNumAreas) :
    ∃ r, parseCameraAreaString str maxNumAreas pAreas = some r ∧
      (r.isSome = true ↔ AreasFit maxNumAreas str.bytes) := by
  have hsized : Sized maxNumAreas
      ⟨some str.bytes, .replicate 32 0, .replicate 5 0, pAreas, 0, none⟩ := ⟨rfl, rfl, hlen⟩
  obtain ⟨r, hloop, hiff⟩ := loop_areaRound hsized rfl rfl str.no_nul (Nat.lt_succ_self _)
  refine ⟨_, by rw [parseCameraAreaString, hloop, Option.map_some], ?_⟩
  rw [Option.isSome_map, hiff]
  rfl

/-- Where an area string fits: if it is parsed at all, its areas do. -/
def AreaStringFits (maxNumAreas : ℕ) (memory : Bool) (str : Option CString) : Prop :=
  ∀ t ∈ str, 0 < maxNumAreas → memory = true → AreasFit maxNumAreas t.bytes

def StoredFits (maxNumAreas : ℕ) (str : Option CString) : Prop :=
  ∀ t ∈ str, 0 < maxNumAreas → AreasFit maxNumAreas t.bytes

theorem not_stored {committed : Bool} {prev : Option CString} (rc : ℤ) (str : Option CString)
    (hprev : StoredFits maxNumAreas prev) :
    ∀ res ∈ (some (rc, false) : Option (ℤ × Bool)),
      StoredFits maxNumAreas (commitAreas committed res str prev) := by
  rintro res ⟨⟩
  rwa [commitAreas, Bool.and_false, if_neg Bool.false_ne_true]

/-- Setting an area string ends.  If the stored one fits, no buffer is left exactly
if the new one fits as well, and then what is stored afterwards fits. -/
theorem setAreas_spec (failed : ℤ → Bool) (memory committed : Bool) {prev : Option CString}
    (str : Option CString) (hprev : StoredFits maxNumAreas prev) :
    ∃ r, setAreas failed maxNumAreas memory str prev = some r ∧
      (r.isSome = true ↔ AreaStringFits maxNumAreas memory str) ∧
      ∀ res ∈ r, StoredFits maxNumAreas (commitAreas committed res str prev) := by
  cases str with
  | none => exact ⟨_, rfl, iff_of_true rfl (by simp [AreaStringFits]), not_stored _ _ hprev⟩
  | some t =>
    have hfits : AreaStringFits maxNumAreas memory (some t) ↔
        (0 < maxNumAreas → memory = true → AreasFit maxNumAreas t.bytes) := by
      simp [AreaStringFits]
    rw [setAreas, setAreaString, hfits]
    split_ifs with hmax hsame hmem
    · exact ⟨_, rfl, iff_of_true rfl fun h => by omega, not_stored _ _ hprev⟩
    · exact ⟨_, rfl, iff_of_true rfl fun h _ => hprev t hsame h, not_stored _ _ hprev⟩
    · exact ⟨_, rfl, iff_of_true rfl fun _ h => absurd (hmem.symm.trans h) Bool.false_ne_true,
        not_stored _ _ hprev⟩
    · -- the string is parsed
      obtain ⟨r, hparse, hiff⟩ := @parseCameraAreaString_spec maxNumAreas t _
        List.length_replicate
      rw [hparse, Option.map_some]
      refine ⟨_, rfl, ?_, ?_⟩
      · rw [Option.isSome_map, hiff]
        exact ⟨fun h _ _ => h, fun h => h (by omega) (by simpa using hmem)⟩
      · intro res hres
        obtain ⟨p, hp, rfl⟩ := Option.map_eq_some_iff.mp hres
        have ht : StoredFits maxNumAreas (some t) := by
          rintro _ ⟨⟩ -
          exact hiff.mp (by rw [hp]; rfl)
        rw [commitAreas]
        split_ifs
        all_goals assumption

end Areas

/-! ### The processing method -/

theorem isSome_getExifGpsProcessingMethod_iff (strings : Strings) :
    (getExifGpsProcessingMethod strings
        (.replicate (exifAsciiPrefixSize + gpsProcessingMethodSize) 0)).isSome = true ↔
      ∀ str ∈ strings.gpsProcessingMethod, str.bytes.length ≤ 100 := by
  generalize hb : List.replicate (exifAsciiPrefixSize + gpsProcessingMethodSize) (0 : UInt8) = b
  have hlen : b.length = 109 := by
    rw [← hb, List.length_replicate]
    rfl
  have hpre : exifAsciiPrefix.length = 8 := rfl
  have hsize : exifAsciiPrefixSize = 8 := rfl
  rw [getExifGpsProcessingMethod]
  cases strings.gpsProcessingMethod with
  | none => simp
  | some str =>
    obtain ⟨b₁, h₁⟩ := Option.isSome_iff_exists.mp
      (isSome_storeN.mpr (show 0 + exifAsciiPrefix.length ≤ b.length by omega))
    have hlen₁ := length_of_storeN h₁
    simp only [h₁, Option.bind_eq_bind, Option.bind_some, Option.mem_some_iff, forall_eq']
    cases h₂ : storeN b₁ exifAsciiPrefixSize str.bytes with
    | none =>
      have hlong := mt isSome_storeN.mpr (Option.not_isSome_iff_eq_none.mpr h₂)
      exact iff_of_false Bool.false_ne_true (by omega)
    | some b₂ =>
      have hlen₂ := length_of_storeN h₂
      rw [Option.bind_some]
      have hnul : (store b₂ (exifAsciiPrefixSize + str.bytes.length) 0).isSome = true ↔
          str.bytes.length ≤ 100 := by
        rw [isSome_store]
        omega
      rw [← hnul]
      cases store b₂ (exifAsciiPrefixSize + str.bytes.length) 0 <;> rfl

/-! ### Sessions stay inside -/

/-- What the map holds before an application sets anything: `DEFAULT_CAMERA_AREA`
where there are areas at all. -/
def defaultCameraArea : CString :=
  ⟨[0x28, 0x30, 0x2C, 0x20, 0x30, 0x2C, 0x20, 0x30, 0x2C, 0x20, 0x30, 0x2C, 0x20, 0x30, 0x29],
    by decide⟩

def Strings.initial (cap : Capability) : Strings where
  focusAreas := if 0 < cap.maxNumFocusAreas then some defaultCameraArea else none
  meteringAreas := if 0 < cap.maxNumMeteringAreas then some defaultCameraArea else none
  gpsProcessingMethod := none

structure Stored (cap : Capability) (strings : Strings) : Prop where
  focus_fits : StoredFits cap.maxNumFocusAreas strings.focusAreas
  metering_fits : StoredFits cap.maxNumMeteringAreas strings.meteringAreas

/-- **Where a session stays inside the buffers**: the area strings that it sets
fit, and at each picture the processing method that was set last has at most 100
characters. -/
def SessionFits (cap : Capability) : Option CString → List Request → Prop
  | _, [] => True
  | _, .setParameters params focusMemory meteringMemory _ :: reqs =>
    AreaStringFits cap.maxNumFocusAreas focusMemory params.focusAreas ∧
      AreaStringFits cap.maxNumMeteringAreas meteringMemory params.meteringAreas ∧
      SessionFits cap params.gpsProcessingMethod reqs
  | method, .getExifData :: reqs =>
    (∀ str ∈ method, str.bytes.length ≤ 100) ∧ SessionFits cap method reqs

theorem storedFits_default (maxNumAreas : ℕ) : StoredFits maxNumAreas
    (if 0 < maxNumAreas then some defaultCameraArea else none) := by
  intro t ht _
  split_ifs at ht
  cases ht
  refine .area rfl (by decide) fun next _ _ hnext => ?_
  -- there is no second area
  have hlast : strchr (defaultCameraArea.bytes.dropWhile (· ≠ rparen)) lparen = none := by decide
  exact absurd (hlast.symm.trans hnext) (by simp)

theorem stored_initial (cap : Capability) : Stored cap (.initial cap) :=
  ⟨storedFits_default _, storedFits_default _⟩

/-- One request ends.  It leaves no buffer exactly if its strings fit, and keeps
that the stored ones fit. -/
theorem serve_spec {cap : Capability} {strings : Strings} (hstored : Stored cap strings)
    (req : Request) :
    ∃ r, serve cap strings req = some r ∧
      (∀ reqs, SessionFits cap strings.gpsProcessingMethod (req :: reqs) ↔
        r.isSome = true ∧ ∀ strings' ∈ r,
          SessionFits cap strings'.gpsProcessingMethod reqs) ∧
      ∀ strings' ∈ r, Stored cap strings' := by
  cases req with
  | setParameters params focusMemory meteringMemory committed =>
    obtain ⟨focus, hfocus, hffits, hfstored⟩ := setAreas_spec (· ≠ noError) focusMemory committed
      params.focusAreas hstored.focus_fits
    obtain ⟨metering, hmetering, hmfits, hmstored⟩ := setAreas_spec (· < 0) meteringMemory
      committed params.meteringAreas hstored.metering_fits
    refine ⟨_, by simp only [serve, setFocusAreas, setMeteringAreas, hfocus, hmetering,
      Option.bind_eq_bind, Option.bind_some]; rfl, ?_, ?_⟩
    · intro reqs
      rw [SessionFits, ← hffits, ← hmfits]
      cases focus with
      | none => simp
      | some f =>
        cases metering with
        | none => simp
        | some m => simp [setGpsLocation]
    · intro strings' hstrings'
      obtain ⟨f, hf, h⟩ := Option.bind_eq_some_iff.mp hstrings'
      obtain ⟨m, hm, h⟩ := Option.bind_eq_some_iff.mp h
      cases h
      exact ⟨hfstored f hf, hmstored m hm⟩
  | getExifData =>
    refine ⟨_, rfl, ?_, ?_⟩
    · intro reqs
      rw [SessionFits, Option.isSome_map, ← isSome_getExifGpsProcessingMethod_iff]
      refine and_congr_right fun hsome => ?_
      obtain ⟨p, hp⟩ := Option.isSome_iff_exists.mp hsome
      simp [hp]
    · intro strings' hstrings'
      obtain ⟨p, -, rfl⟩ := Option.map_eq_some_iff.mp hstrings'
      exact hstored

theorem session_spec {cap : Capability} {strings : Strings} (reqs : List Request)
    (hstored : Stored cap strings) :
    ∃ r, session cap reqs strings = some r ∧
      (r.isSome = true ↔ SessionFits cap strings.gpsProcessingMethod reqs) := by
  induction reqs generalizing strings with
  | nil => exact ⟨_, rfl, iff_of_true rfl trivial⟩
  | cons req reqs ih =>
    obtain ⟨r, hserve, hfits, hstored'⟩ := serve_spec hstored req
    rw [session, hserve, hfits]
    cases r with
    | none => exact ⟨none, rfl, by simp⟩
    | some strings' =>
      obtain ⟨r', hrun, hiff⟩ := ih (hstored' strings' rfl)
      exact ⟨r', hrun, by simp [hiff]⟩

/-- **Parameter strings stay inside the buffers** exactly in the sessions whose
strings fit.  The parser ends in all of them. -/
theorem parameter_strings_inside_iff (cap : Capability) (reqs : List Request) :
    ∃ r, session cap reqs (.initial cap) = some r ∧
      (r.isSome = true ↔ SessionFits cap none reqs) :=
  session_spec reqs (stored_initial cap)

/-- The focus area `(-1000, -1000, -500, -500, 1000)`, with numbers that are all
legal, has 32 characters. -/
def cornerArea : CString :=
  ⟨[0x28, 0x2D, 0x31, 0x30, 0x30, 0x30, 0x2C, 0x20, 0x2D, 0x31, 0x30, 0x30, 0x30, 0x2C, 0x20,
    0x2D, 0x35, 0x30, 0x30, 0x2C, 0x20, 0x2D, 0x35, 0x30, 0x30, 0x2C, 0x20, 0x31, 0x30, 0x30,
    0x30, 0x29], by decide⟩

/-- A processing method of 101 characters. -/
def longMethod : CString := ⟨List.replicate 101 0x41, by decide⟩

/-- Setting that area writes the NUL behind `area_str`, and a picture with that
processing method writes it behind the buffer of `getExifData`. -/
theorem parameter_strings_overrun :
    session ⟨1, 1⟩ [.setParameters ⟨some cornerArea, none, none⟩ true true true]
        (.initial ⟨1, 1⟩) = some none ∧
      session ⟨1, 1⟩ [.setParameters ⟨none, none, some longMethod⟩ true true true, .getExifData]
        (.initial ⟨1, 1⟩) = some none := by
  constructor
  · obtain ⟨r, hrun, hiff⟩ := session_spec
      [.setParameters ⟨some cornerArea, none, none⟩ true true true] (stored_initial ⟨1, 1⟩)
    have hnot : ¬ r.isSome = true := by
      rw [hiff]
      intro h
      have hfits := h.1 cornerArea rfl Nat.one_pos rfl
      exact absurd ((areasFit_iff rfl).mp hfits).1 (by decide)
    rw [hrun, Option.not_isSome_iff_eq_none.mp hnot]
  · obtain ⟨r, hrun, hiff⟩ := session_spec
      [.setParameters ⟨none, none, some longMethod⟩ true true true, .getExifData]
      (stored_initial ⟨1, 1⟩)
    have hnot : ¬ r.isSome = true := by
      rw [hiff]
      intro h
      exact absurd (h.2.2.1 longMethod rfl) (by decide)
    rw [hrun, Option.not_isSome_iff_eq_none.mp hnot]

end ParamStrings

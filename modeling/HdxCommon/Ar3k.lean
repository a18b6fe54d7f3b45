/-
Patch download to the AR3k Bluetooth controller (`hw_ar3k.c`).

A patch file has lines with addresses, a line with the number of bytes and the bytes
themselves, all in hexadecimal digits; `ps_patch_download` sends them in vendor commands.

* `psPatchDownload` — the commands that are sent, and the number of patches or a failure;
* `PatchFile` — the files that are well formed;
* `patch_download_iff` — the commands are those of the file exactly if the last byte of
  each address is zero, since `patch_loc` is one character too short, and the number of
  the commands fits into their index.
-/
import HdxCommon.Chunks
import HdxCommon.ParamStrings

namespace Ar3k

open ParamStrings (isSpace sign)

/-! ### C strings and streams -/

/-- `isxdigit`. -/
def isXDigit (c : UInt8) : Bool :=
  (0x30 ≤ c && c ≤ 0x39) || (0x41 ≤ c && c ≤ 0x46) || (0x61 ≤ c && c ≤ 0x66)

def digitVal (c : UInt8) : ℕ :=
  if c ≤ 0x39 then c.toNat - 0x30 else if c ≤ 0x46 then c.toNat - 0x37 else c.toNat - 0x57

def hexVal (ds : List UInt8) : ℕ := ds.foldl (fun n d => 16 * n + digitVal d) 0

/-- Without `0x` in front of a digit. -/
def skipHex : List UInt8 → List UInt8
  | 0x30 :: 0x78 :: d :: s => if isXDigit d then d :: s else 0x30 :: 0x78 :: d :: s
  | 0x30 :: 0x58 :: d :: s => if isXDigit d then d :: s else 0x30 :: 0x58 :: d :: s
  | s => s

/-- The number that `strtol` to the base 16 reads; a NUL ends the string. -/
def strtol (s : List UInt8) : ℤ :=
  let (neg, t) := sign (s.dropWhile isSpace)
  let n : ℤ := hexVal ((skipHex t).takeWhile isXDigit)
  max (-2 ^ 31) (min (2 ^ 31 - 1) (if neg then -n else n))

/-- A byte that is assigned a `long`. -/
def toByte (z : ℤ) : UInt8 := UInt8.ofNat (z % 256).toNat

/-- A line of at most `n` characters, and what follows it. -/
def line : ℕ → List UInt8 → List UInt8 × List UInt8
  | 0, s => ([], s)
  | _, [] => ([], [])
  | n + 1, c :: s =>
    if c = 0x0A then ([c], s)
    else
      let (l, rest) := line n s
      (c :: l, rest)

/-- `fgets` into a buffer of `n` characters; `none` at the end of the stream. -/
def fgets (n : ℕ) (stream : List UInt8) : Option (List UInt8 × List UInt8) :=
  if stream = [] then none else some (line (n - 1) stream)

/-! ### Commands -/

/-- `load_hci_ps_hdr`: opcode, parameter length, operation, index and data length. -/
def loadHciPsHdr (psOp : UInt8) (len index : ℕ) : List UInt8 :=
  [0x0B, 0xFC, UInt8.ofNat (len + 4), psOp, UInt8.ofNat index, UInt8.ofNat (index / 256),
    UInt8.ofNat len]

def psWriteOp : UInt8 := 1
def writePatch : UInt8 := 8
def enablePatch : UInt8 := 11
def setPatchRamId : UInt8 := 0x0D

/-- `MAX_PATCH_CMD`. -/
def maxPatchCmd : ℕ := 244

abbrev Sent := List (List UInt8)

/-- `write_cmd`; if the controller does not accept a command, its callers return -1. -/
def writeCmd (accept : ℕ → Bool) (cmd : List UInt8) (sent : Sent) : Except Sent Sent :=
  if accept sent.length then .ok (sent ++ [cmd]) else .error (sent ++ [cmd])

/-- `set_patch_ram`. -/
def setPatchRam (accept : ℕ → Bool) (patchLoc : List UInt8) (sent : Sent) : Except Sent Sent :=
  let locByte (i : ℕ) := toByte (strtol ((patchLoc.drop (2 * i)).take 2))
  writeCmd accept (loadHciPsHdr setPatchRamId 4 0 ++ [locByte 3, locByte 2, locByte 1, locByte 0])
    sent

/-- `DA:`, the beginning of a line with an address. -/
def patchLocKey : List UInt8 := [0x44, 0x41, 0x3A]

/-- `strlcpy` of at most `n - 1` characters into a buffer. -/
def strlcpy (buf s : List UInt8) (n : ℕ) : List UInt8 :=
  let t := (s.takeWhile (· ≠ 0)).take (n - 1)
  t ++ 0 :: buf.drop (t.length + 1)

/-- The loop over the lines up to the one with the byte count; `ptr` and `patchLoc` keep
what they had. -/
def patchLines (accept : ℕ → Bool) : ℕ → List UInt8 → List UInt8 → List UInt8 → Sent →
    Except Sent (List UInt8 × List UInt8 × Sent)
  | 0, _, _, _, sent => .error sent
  | n + 1, ptr, patchLoc, stream, sent =>
    match fgets maxPatchCmd stream with
    | none => .ok (ptr, stream, sent)
    | some (ptr, stream) =>
      if (ptr.takeWhile (· ≠ 0)).length ≤ 1 then patchLines accept n ptr patchLoc stream sent
      else if patchLocKey.isPrefixOf ptr then do
        let patchLoc := strlcpy patchLoc (ptr.drop 3) 8
        let sent ← setPatchRam accept patchLoc sent
        patchLines accept n ptr patchLoc stream sent
      else if isXDigit (ptr.headD 0) then .ok (ptr, stream, sent)
      else .error sent

def readBytes : ℕ → List UInt8 → Option (List UInt8 × List UInt8)
  | 0, stream => some ([], stream)
  | n + 1, stream => do
    let (byte, stream) ← fgets 3 stream
    let (bytes, stream) ← readBytes n stream
    return (toByte (strtol byte) :: bytes, stream)

/-- The loop over the patches, with a bound on their number. -/
def writePatches (accept : ℕ → Bool) : ℕ → ℕ → ℕ → List UInt8 → Sent → Except Sent (ℕ × Sent)
  | 0, _, patchCount, _, sent => .ok (patchCount, sent)
  | n + 1, byteCnt, patchCount, stream, sent =>
    if byteCnt = 0 then .ok (patchCount, sent)
    else
      let len := min byteCnt maxPatchCmd
      match readBytes len stream with
      | none => .error sent
      | some (data, stream) => do
        let sent ← writeCmd accept (loadHciPsHdr writePatch len patchCount ++ data) sent
        writePatches accept n (byteCnt - maxPatchCmd) (patchCount + 1) stream sent

/-- `ps_patch_download`; `ptr` and `patchLoc` are what its buffers hold at first. -/
def psPatchDownload (accept : ℕ → Bool) (ptr patchLoc stream : List UInt8) :
    Except Sent (ℕ × Sent) := do
  let (ptr, stream, sent) ← patchLines accept (stream.length + 1) ptr patchLoc stream []
  let byteCnt := (strtol ptr).toNat
  let (patchCount, sent) ← writePatches accept byteCnt byteCnt 0 stream sent
  let sent ← writeCmd accept (loadHciPsHdr enablePatch 0 0) sent
  return (patchCount, sent)

/-- The commands of a download, whether it fails or not. -/
def commands : Except Sent (ℕ × Sent) → Sent
  | .ok (_, sent) => sent
  | .error sent => sent

/-! ### Hexadecimal text -/

variable {c d : UInt8} {ds l rest : List UInt8} {n : ℕ}

theorem digitVal_lt (hc : isXDigit c = true) : digitVal c < 16 := by
  simp only [isXDigit, Bool.or_eq_true, Bool.and_eq_true, decide_eq_true_eq,
    UInt8.le_iff_toNat_le, UInt8.reduceToNat] at hc
  simp only [digitVal, UInt8.le_iff_toNat_le, UInt8.reduceToNat]
  split_ifs <;> omega

theorem ne_of_isXDigit (hc : isXDigit c = true) (hd : isXDigit d = false) : c ≠ d := by
  rintro rfl
  rw [hc] at hd
  cases hd

theorem isSpace_of_isXDigit (hc : isXDigit c = true) : isSpace c = false := by
  simp only [isXDigit, Bool.or_eq_true, Bool.and_eq_true, decide_eq_true_eq,
    UInt8.le_iff_toNat_le, UInt8.reduceToNat] at hc
  simp only [isSpace, Bool.or_eq_false_iff, Bool.and_eq_false_iff, decide_eq_false_iff_not,
    UInt8.le_iff_toNat_le, UInt8.reduceToNat, ← UInt8.toNat_inj]
  omega

/-- What may stand behind digits. -/
def Ends (rest : List UInt8) : Prop :=
  ∀ c ∈ rest.head?, isXDigit c = false ∧ c ≠ 0x78 ∧ c ≠ 0x58

theorem skipHex_digits (hds : ∀ d ∈ ds, isXDigit d = true) (hrest : Ends rest) :
    skipHex (ds ++ rest) = ds ++ rest := by
  have hx : ∀ x, x = 0x78 ∨ x = 0x58 → ∀ e s, ds ++ rest ≠ 0x30 :: x :: e :: s := by
    intro x hx e s heq
    match ds, hds, heq with
    | [], _, heq =>
      have hend := hrest 0x30 (by rw [show rest = _ from heq]; rfl)
      exact absurd hend.1 (by decide)
    | [a], _, heq =>
      have hend := hrest x (by rw [show rest = _ from (List.cons.inj heq).2]; rfl)
      exact hx.elim hend.2.1 hend.2.2
    | a :: b :: l, hds, heq =>
      have hb := hds b (by simp)
      rw [(List.cons.inj (List.cons.inj heq).2).1] at hb
      rcases hx with rfl | rfl <;> exact absurd hb (by decide)
  unfold skipHex
  split
  next e s heq => exact absurd heq (hx _ (.inl rfl) _ _)
  next e s heq => exact absurd heq (hx _ (.inr rfl) _ _)
  next => rfl

/-- **`strtol` reads digits.** -/
theorem strtol_digits (hds : ∀ d ∈ ds, isXDigit d = true) (hne : ds ≠ []) (hrest : Ends rest) :
    strtol (ds ++ rest) = min (2 ^ 31 - 1) (hexVal ds : ℤ) := by
  obtain ⟨d, l, rfl⟩ := List.exists_cons_of_ne_nil hne
  have hd := hds d List.mem_cons_self
  have hspace : (d :: l ++ rest).dropWhile isSpace = d :: l ++ rest :=
    List.dropWhile_cons_of_neg (by simp [isSpace_of_isXDigit hd])
  have hsign : sign (d :: l ++ rest) = (false, d :: l ++ rest) := by
    have hminus : d ≠ 0x2D := ne_of_isXDigit hd (by decide)
    have hplus : d ≠ 0x2B := ne_of_isXDigit hd (by decide)
    rw [List.cons_append]
    unfold sign
    split
    next s heq => exact absurd (List.cons.inj heq).1 hminus
    next s heq => exact absurd (List.cons.inj heq).1 hplus
    next => rfl
  have htake : (d :: l ++ rest).takeWhile isXDigit = d :: l := by
    rw [List.takeWhile_append_of_pos hds]
    cases rest with
    | nil => simp
    | cons c rest => simp [(hrest c rfl).1]
  simp only [strtol, hspace, hsign, skipHex_digits hds hrest, htake]
  simp only [Bool.false_eq_true, if_false]
  omega

/-- The byte of two digits. -/
def byteOf (c d : UInt8) : UInt8 := UInt8.ofNat (16 * digitVal c + digitVal d)

def hexBytes : List UInt8 → List UInt8
  | c :: d :: ds => byteOf c d :: hexBytes ds
  | _ => []

theorem toByte_strtol (hds : ∀ d ∈ ds, isXDigit d = true) (hne : ds ≠ []) (hrest : Ends rest)
    (hlt : hexVal ds < 256) : toByte (strtol (ds ++ rest)) = UInt8.ofNat (hexVal ds) := by
  have hmin : min (2 ^ 31 - 1) (hexVal ds : ℤ) = hexVal ds := by omega
  rw [strtol_digits hds hne hrest, hmin, toByte]
  congr 1
  omega

theorem strtol_two (hc : isXDigit c = true) (hd : isXDigit d = true) :
    toByte (strtol [c, d]) = byteOf c d := by
  have hc' := digitVal_lt hc
  have hd' := digitVal_lt hd
  have hval : hexVal [c, d] = 16 * digitVal c + digitVal d := by simp [hexVal]
  have hbyte := @toByte_strtol [c, d] [] (by simp [hc, hd]) (by simp) (by simp [Ends]) (by omega)
  rwa [List.append_nil, hval] at hbyte

theorem strtol_one (hc : isXDigit c = true) :
    toByte (strtol [c, 0]) = UInt8.ofNat (digitVal c) := by
  have hc' := digitVal_lt hc
  have hval : hexVal [c] = digitVal c := by simp [hexVal]
  have hends : Ends [0] := by
    simp only [Ends, List.head?_cons, Option.mem_def, Option.some.injEq]
    rintro x rfl
    decide
  have hbyte := @toByte_strtol [c] [0] (by simp [hc]) (by simp) hends (by omega)
  rwa [List.singleton_append, hval] at hbyte

theorem line_newline (hl : 0x0A ∉ l) (hn : l.length < n) :
    line n (l ++ 0x0A :: rest) = (l ++ [0x0A], rest) := by
  induction l generalizing n with
  | nil =>
    cases n with
    | zero => simp at hn
    | succ n => rfl
  | cons c l ih =>
    rw [List.mem_cons, not_or] at hl
    cases n with
    | zero => simp at hn
    | succ n => simp [line, Ne.symm hl.1, ih hl.2 (by simpa using hn)]

/-- **Two characters at a time.** -/
theorem readBytes_digits (hds : ∀ d ∈ ds, isXDigit d = true) (hlen : ds.length = 2 * n) :
    readBytes n (ds ++ rest) = some (hexBytes ds, rest) ∧ (hexBytes ds).length = n := by
  induction n generalizing ds with
  | zero =>
    obtain rfl := List.length_eq_zero_iff.mp hlen
    exact ⟨rfl, rfl⟩
  | succ n ih =>
    match ds, hds, hlen with
    | [], _, hlen => simp at hlen
    | [c], _, hlen => simp at hlen; omega
    | c :: d :: ds, hds, hlen =>
      have hc := hds c (by simp)
      have hd := hds d (by simp)
      have hne : ∀ {x}, isXDigit x = true → x ≠ 0x0A := fun hx => ne_of_isXDigit hx (by decide)
      obtain ⟨hread, hlen'⟩ := @ih ds (fun x hx => hds x (by simp [hx]))
        (by simp only [List.length_cons] at hlen; omega)
      have hgets : fgets 3 (c :: d :: (ds ++ rest)) = some ([c, d], ds ++ rest) := by
        simp [fgets, line, hne hc, hne hd]
      refine ⟨?_, by simp [hexBytes, hlen']⟩
      simp [readBytes, hgets, hread, hexBytes, strtol_two hc hd]

/-! ### Well-formed files -/

/-- A patch file: addresses of eight digits, the number of bytes, and the bytes; anything
may follow.  The number is written without zeros in front of it, or in a line that fits
into the buffer. -/
structure PatchFile where
  addrs : List (List UInt8)
  count : List UInt8
  digits : List UInt8
  tail : List UInt8
  addr_digits : ∀ a ∈ addrs, a.length = 8 ∧ ∀ d ∈ a, isXDigit d = true
  count_digits : count ≠ [] ∧ ∀ d ∈ count, isXDigit d = true
  count_line : count.head? ≠ some 0x30 ∨ count.length < maxPatchCmd - 1
  data_digits : digits.length = 2 * hexVal count ∧ ∀ d ∈ digits, isXDigit d = true

def addrLine (a : List UInt8) : List UInt8 := patchLocKey ++ a ++ [0x0A]

def PatchFile.text (f : PatchFile) : List UInt8 :=
  f.addrs.flatMap addrLine ++ (f.count ++ 0x0A :: (f.digits ++ f.tail))

/-- The command for an address, its least significant byte first. -/
def setPatchRamCmd (a : List UInt8) : List UInt8 :=
  loadHciPsHdr setPatchRamId 4 0 ++ (hexBytes a).reverse

def writePatchCmd (index : ℕ) (data : List UInt8) : List UInt8 :=
  loadHciPsHdr writePatch data.length index ++ data

/-- The index and the data of a command. -/
def cmdIndex (cmd : List UInt8) : ℕ := (cmd.getD 4 0).toNat + 256 * (cmd.getD 5 0).toNat

def cmdData (cmd : List UInt8) : List UInt8 := cmd.drop 7

/-- The commands are those for the file: the addresses, the bytes in numbered commands of
at most 244 bytes, and one command that enables the patch. -/
def PatchFile.Downloaded (f : PatchFile) (sent : Sent) : Prop :=
  ∃ writes : Sent, sent = f.addrs.map setPatchRamCmd ++ writes ++ [loadHciPsHdr enablePatch 0 0] ∧
    writes.length = chunkCount maxPatchCmd (hexVal f.count) ∧
    (∀ k cmd, writes[k]? = some cmd → cmd = writePatchCmd k (cmdData cmd) ∧ cmdIndex cmd = k ∧
      (cmdData cmd).length ≤ maxPatchCmd) ∧
    (writes.map cmdData).flatten = hexBytes f.digits

/-! ### The loops -/

/-- What is sent for an address: `patch_loc` has the first seven of its digits. -/
def sentAddr (a : List UInt8) : List UInt8 :=
  loadHciPsHdr setPatchRamId 4 0 ++
    (hexBytes a).reverse.set 0 (UInt8.ofNat (digitVal (a.getD 6 0)))

theorem exists_digits {a : List UInt8} (hlen : a.length = 8) :
    ∃ a₀ a₁ a₂ a₃ a₄ a₅ a₆ a₇, a = [a₀, a₁, a₂, a₃, a₄, a₅, a₆, a₇] := by
  match a, hlen with
  | [a₀, a₁, a₂, a₃, a₄, a₅, a₆, a₇], _ => exact ⟨a₀, a₁, a₂, a₃, a₄, a₅, a₆, a₇, rfl⟩

theorem setPatchRam_addr {a : List UInt8} (hlen : a.length = 8) (ha : ∀ d ∈ a, isXDigit d = true)
    (loc : List UInt8) (sent : Sent) :
    setPatchRam (fun _ => true) (strlcpy loc (a ++ [0x0A]) 8) sent =
      .ok (sent ++ [sentAddr a]) := by
  have hnul : ∀ {x}, isXDigit x = true → x ≠ 0 := fun hx => ne_of_isXDigit hx (by decide)
  obtain ⟨a₀, a₁, a₂, a₃, a₄, a₅, a₆, a₇, rfl⟩ := exists_digits hlen
  simp only [List.mem_cons, List.not_mem_nil, or_false, forall_eq_or_imp, forall_eq] at ha
  obtain ⟨h₀, h₁, h₂, h₃, h₄, h₅, h₆, h₇⟩ := ha
  have hcpy : strlcpy loc ([a₀, a₁, a₂, a₃, a₄, a₅, a₆, a₇] ++ [0x0A]) 8 =
      [a₀, a₁, a₂, a₃, a₄, a₅, a₆, 0] ++ loc.drop 8 := by
    simp [strlcpy, hnul h₀, hnul h₁, hnul h₂, hnul h₃, hnul h₄, hnul h₅, hnul h₆, hnul h₇]
  rw [hcpy]
  simp [setPatchRam, writeCmd, sentAddr, hexBytes, strtol_two h₀ h₁, strtol_two h₂ h₃,
    strtol_two h₄ h₅, strtol_one h₆]

theorem fgets_line (hl : ∀ x ∈ l, x ≠ 0x0A) (hn : l.length < n - 1) :
    fgets n (l ++ 0x0A :: rest) = some (l ++ [0x0A], rest) := by
  rw [fgets, if_neg (by simp), line_newline (fun hmem => hl _ hmem rfl) hn]

theorem strlen_line (hl : ∀ x ∈ l, x ≠ 0) : ((l ++ [0x0A]).takeWhile (· ≠ 0)).length =
    l.length + 1 := by
  rw [List.takeWhile_eq_self_iff.mpr]
  · simp
  · intro x hx
    rcases List.mem_append.mp hx with hx | hx
    · simpa using hl x hx
    · rw [List.mem_singleton.mp hx]
      decide

theorem patchLines_text {addrs : List (List UInt8)} {count : List UInt8}
    (haddrs : ∀ a ∈ addrs, a.length = 8 ∧ ∀ d ∈ a, isXDigit d = true)
    (hcount : count ≠ [] ∧ ∀ d ∈ count, isXDigit d = true) (hline : count.length < maxPatchCmd - 1)
    (hn : addrs.length < n) (ptr loc : List UInt8) (sent : Sent) :
    patchLines (fun _ => true) n ptr loc
        (addrs.flatMap addrLine ++ (count ++ 0x0A :: rest)) sent =
      .ok (count ++ [0x0A], rest, sent ++ addrs.map sentAddr) := by
  induction addrs generalizing n ptr loc sent with
  | nil =>
    obtain ⟨n, rfl⟩ : ∃ m, n = m + 1 := ⟨n - 1, by simp at hn; omega⟩
    have hdigit : ∀ {x y}, isXDigit y = false → x ∈ count → x ≠ y :=
      fun hy hx => ne_of_isXDigit (hcount.2 _ hx) hy
    have hread := @fgets_line count rest maxPatchCmd (fun x => hdigit (by decide)) hline
    have hlen := @strlen_line count fun x => hdigit (by decide)
    have hpos := List.length_pos_iff.mpr hcount.1
    have hkey : patchLocKey.isPrefixOf (count ++ [0x0A]) = false := by
      by_contra hkey
      have hcolon : 0x3A ∈ count ++ [0x0A] :=
        (List.isPrefixOf_iff_prefix.mp (by simpa using hkey)).subset (by decide)
      rcases List.mem_append.mp hcolon with hmem | hmem
      · exact hdigit (by decide) hmem rfl
      · exact absurd hmem (by decide)
    have hhead : isXDigit ((count ++ [0x0A]).headD 0) = true := by
      obtain ⟨x, l, rfl⟩ := List.exists_cons_of_ne_nil hcount.1
      exact hcount.2 x List.mem_cons_self
    simp only [List.flatMap_nil, List.nil_append, patchLines, hread, hlen]
    rw [if_neg (by omega), hkey, hhead]
    simp
  | cons a addrs ih =>
    obtain ⟨n, rfl⟩ : ∃ m, n = m + 1 := ⟨n - 1, by simp at hn; omega⟩
    obtain ⟨⟨halen, ha⟩, haddrs⟩ := List.forall_mem_cons.mp haddrs
    have hchar : ∀ {y}, isXDigit y = false → y ∉ patchLocKey → ∀ x ∈ patchLocKey ++ a, x ≠ y := by
      rintro y hy hkey x hx rfl
      rcases List.mem_append.mp hx with hx | hx
      · exact hkey hx
      · exact ne_of_isXDigit (ha x hx) hy rfl
    have hread : fgets maxPatchCmd (addrLine a ++ (addrs.flatMap addrLine ++
        (count ++ 0x0A :: rest))) = some (addrLine a, addrs.flatMap addrLine ++
        (count ++ 0x0A :: rest)) := by
      have hline := @fgets_line (patchLocKey ++ a) (addrs.flatMap addrLine ++
        (count ++ 0x0A :: rest)) maxPatchCmd (hchar (by decide) (by decide))
        (by simp [patchLocKey, halen, maxPatchCmd])
      simpa [addrLine] using hline
    have hlen : ((addrLine a).takeWhile (· ≠ 0)).length = 12 := by
      rw [addrLine, strlen_line (hchar (by decide) (by decide)), List.length_append, halen]
      rfl
    have hkey : patchLocKey.isPrefixOf (addrLine a) = true :=
      List.isPrefixOf_iff_prefix.mpr ⟨a ++ [0x0A], by simp [addrLine]⟩
    have hdrop : (addrLine a).drop 3 = a ++ [0x0A] := by
      simp [addrLine, patchLocKey]
    have hrest := ih haddrs (by simpa using hn) (addrLine a)
      (strlcpy loc (a ++ [0x0A]) 8) (sent ++ [sentAddr a])
    rw [List.flatMap_cons, List.append_assoc, patchLines, hread]
    simp only [hlen, hkey, hdrop, setPatchRam_addr halen ha, bind, Except.bind]
    rw [if_neg (by decide), if_pos trivial, hrest]
    simp

theorem hexBytes_take_drop (k : ℕ) :
    hexBytes (ds.take (2 * k)) = (hexBytes ds).take k ∧
      hexBytes (ds.drop (2 * k)) = (hexBytes ds).drop k := by
  induction k generalizing ds with
  | zero => simp [hexBytes]
  | succ k ih =>
    match ds with
    | [] | [_] => simp [hexBytes, Nat.mul_succ]
    | c :: d :: ds => simp [hexBytes, Nat.mul_succ, ih]

theorem writePatches_chunks {m : ℕ} (hds : ∀ d ∈ ds, isXDigit d = true) (hlen : ds.length = 2 * m)
    (hn : m ≤ n) (count : ℕ) (sent : Sent) :
    writePatches (fun _ => true) n m count (ds ++ rest) sent =
      .ok (count + chunkCount maxPatchCmd m,
        sent ++ (List.range (chunkCount maxPatchCmd m)).map fun k =>
          writePatchCmd (count + k) (nthChunk maxPatchCmd (hexBytes ds) k)) := by
  have hzero : chunkCount maxPatchCmd 0 = 0 := by decide
  induction n generalizing m ds count sent with
  | zero =>
    obtain rfl : m = 0 := by omega
    simp [writePatches, hzero]
  | succ n ih =>
    by_cases hm : m = 0
    · subst hm
      simp [writePatches, hzero]
    have hbytes := (@readBytes_digits ds rest m hds hlen).2
    obtain ⟨htake, hdrop⟩ := @hexBytes_take_drop ds (min m maxPatchCmd)
    have hsplit : ds ++ rest = ds.take (2 * min m maxPatchCmd) ++
        (ds.drop (2 * min m maxPatchCmd) ++ rest) := by
      rw [← List.append_assoc, List.take_append_drop]
    have hread := (@readBytes_digits (ds.take (2 * min m maxPatchCmd))
      (ds.drop (2 * min m maxPatchCmd) ++ rest) (min m maxPatchCmd)
      (fun x hx => hds x (List.mem_of_mem_take hx)) (by rw [List.length_take]; omega)).1
    rw [← hsplit, htake] at hread
    have hrest := @ih (ds.drop (2 * min m maxPatchCmd)) (m - maxPatchCmd)
      (fun x hx => hds x (List.mem_of_mem_drop hx)) (by rw [List.length_drop]; omega)
      (by rw [maxPatchCmd]; omega) (count + 1)
    have hfirst :
        (hexBytes ds).take (min m maxPatchCmd) = nthChunk maxPatchCmd (hexBytes ds) 0 := by
      rw [nthChunk, Nat.zero_mul, List.drop_zero, ← hbytes, Nat.min_comm, ← List.take_take,
        List.take_length]
    have hlater : (hexBytes ds).drop (min m maxPatchCmd) = (hexBytes ds).drop maxPatchCmd := by
      rcases Nat.le_total m maxPatchCmd with hle | hle
      · rw [Nat.min_eq_left hle, List.drop_of_length_le hbytes.le,
          List.drop_of_length_le (hbytes.le.trans hle)]
      · rw [Nat.min_eq_right hle]
    have hmin : min m maxPatchCmd = (nthChunk maxPatchCmd (hexBytes ds) 0).length := by
      rw [length_nthChunk, hbytes, Nat.zero_mul, Nat.sub_zero, Nat.min_comm]
    rw [hdrop, hlater] at hrest
    rw [writePatches, if_neg hm]
    simp only [hread, writeCmd, if_true, bind, Except.bind, hrest]
    rw [chunkCount_of_pos (by decide : 0 < maxPatchCmd) (Nat.pos_of_ne_zero hm),
      List.range_succ_eq_map, List.map_cons, List.map_map, hfirst, hmin, Nat.add_right_comm]
    simp [writePatchCmd, Function.comp_def, nthChunk_succ, Nat.add_assoc, Nat.add_comm 1]

theorem pow_le_hexVal (hd : isXDigit d = true) (hzero : d ≠ 0x30) :
    16 ^ l.length ≤ hexVal (d :: l) := by
  have hpos : 1 ≤ digitVal d := by
    have hne : d.toNat ≠ 0x30 := fun heq => hzero (UInt8.toNat_inj.mp heq)
    simp only [isXDigit, Bool.or_eq_true, Bool.and_eq_true, decide_eq_true_eq,
      UInt8.le_iff_toNat_le, UInt8.reduceToNat] at hd
    simp only [digitVal, UInt8.le_iff_toNat_le, UInt8.reduceToNat]
    split_ifs <;> omega
  have hfold : ∀ (l : List UInt8) (m : ℕ),
      m * 16 ^ l.length ≤ l.foldl (fun n d => 16 * n + digitVal d) m := by
    intro l
    induction l with
    | nil => simp
    | cons c l ih =>
      intro m
      refine le_trans ?_ (ih _)
      rw [List.length_cons, Nat.pow_succ, ← Nat.mul_assoc, Nat.mul_right_comm]
      exact Nat.mul_le_mul_right _ (by show m * 16 ≤ 16 * m + digitVal c; omega)
  calc 16 ^ l.length ≤ digitVal d * 16 ^ l.length := Nat.le_mul_of_pos_left _ hpos
    _ ≤ hexVal (d :: l) := by simpa [hexVal] using hfold l (digitVal d)

/-- **The commands that are sent** for a well-formed file that is not too long. -/
theorem psPatchDownload_text (f : PatchFile) (hcount : hexVal f.count ≤ maxPatchCmd * 65536)
    (ptr loc : List UInt8) :
    commands (psPatchDownload (fun _ => true) ptr loc f.text) = f.addrs.map sentAddr ++
      (List.range (chunkCount maxPatchCmd (hexVal f.count))).map (fun k =>
        writePatchCmd k (nthChunk maxPatchCmd (hexBytes f.digits) k)) ++
      [loadHciPsHdr enablePatch 0 0] := by
  rw [maxPatchCmd] at hcount
  have hline : f.count.length < maxPatchCmd - 1 := by
    refine f.count_line.elim (fun hhead => ?_) id
    obtain ⟨d, l, hdl⟩ := List.exists_cons_of_ne_nil f.count_digits.1
    rw [hdl] at hhead hcount ⊢
    have hpow := @pow_le_hexVal d l (f.count_digits.2 d (by simp [hdl])) (by simpa using hhead)
    have hlt : 16 ^ l.length < 16 ^ 7 := (hpow.trans hcount).trans_lt (by norm_num)
    have hlen := (Nat.pow_lt_pow_iff_right (by decide : 1 < 16)).mp hlt
    rw [List.length_cons, maxPatchCmd]
    omega
  have haddrs : f.addrs.length < f.text.length + 1 := by
    have hle : ∀ as : List (List UInt8), as.length ≤ (as.flatMap addrLine).length := by
      intro as
      induction as with
      | nil => simp
      | cons a as ih =>
        simp only [List.flatMap_cons, List.length_append, List.length_cons, addrLine]
        omega
    have := hle f.addrs
    rw [PatchFile.text, List.length_append]
    omega
  have hlines := @patchLines_text (f.digits ++ f.tail) (f.text.length + 1) f.addrs f.count
    f.addr_digits f.count_digits hline haddrs ptr loc []
  have hval : strtol (f.count ++ [0x0A]) = hexVal f.count := by
    have hends : Ends [0x0A] := by
      simp only [Ends, List.head?_cons, Option.mem_def, Option.some.injEq]
      rintro x rfl
      decide
    rw [strtol_digits f.count_digits.2 f.count_digits.1 hends]
    omega
  have hwrites := @writePatches_chunks f.digits f.tail (hexVal f.count) (hexVal f.count)
    f.data_digits.2 f.data_digits.1 le_rfl 0
  simp only [Nat.zero_add] at hwrites
  rw [← PatchFile.text] at hlines
  simp [psPatchDownload, hlines, hval, hwrites, bind, Except.bind, pure, Except.pure, writeCmd,
    commands]

/-! ### Whether they are the commands of the file -/

theorem sentAddr_eq_iff {a : List UInt8} (hlen : a.length = 8) (ha : ∀ d ∈ a, isXDigit d = true) :
    sentAddr a = setPatchRamCmd a ↔ (hexBytes a).getLast? = some 0 := by
  obtain ⟨a₀, a₁, a₂, a₃, a₄, a₅, a₆, a₇, rfl⟩ := exists_digits hlen
  have h₆ := digitVal_lt (ha a₆ (by simp))
  have h₇ := digitVal_lt (ha a₇ (by simp))
  simp [sentAddr, setPatchRamCmd, hexBytes, byteOf, ← UInt8.toNat_inj]
  rw [Nat.mod_eq_of_lt (by omega), Nat.mod_eq_of_lt (by omega)]
  omega

theorem cmdIndex_lt (cmd : List UInt8) : cmdIndex cmd < 65536 := by
  have hlow := (cmd.getD 4 0).toNat_lt
  have hhigh := (cmd.getD 5 0).toNat_lt
  rw [cmdIndex]
  omega

theorem cmdIndex_writePatchCmd {k : ℕ} (hk : k < 65536) (data : List UInt8) :
    cmdIndex (writePatchCmd k data) = k := by
  simp only [cmdIndex, writePatchCmd, loadHciPsHdr, List.cons_append, List.getD_cons_succ,
    List.getD_cons_zero, UInt8.toNat_ofNat']
  omega

/-- **Patch download**: for every well-formed file and a controller that accepts every
command, the commands are those of the file exactly if the last byte of each address is zero
and the number of each command fits into its index. -/
theorem patch_download_iff (f : PatchFile) (ptr loc : List UInt8) :
    f.Downloaded (commands (psPatchDownload (fun _ => true) ptr loc f.text)) ↔
      (∀ a ∈ f.addrs, (hexBytes a).getLast? = some 0) ∧
        hexVal f.count ≤ maxPatchCmd * 65536 := by
  constructor
  · rintro ⟨writes, hsent, hlen, hwrites, -⟩
    have hcount : hexVal f.count ≤ maxPatchCmd * 65536 := by
      by_contra hlarge
      -- command 65536 cannot have its number as its index
      have hmul := le_chunkCount_mul (by decide : 0 < maxPatchCmd) (hexVal f.count)
      have hmany : 65536 < writes.length := by
        rw [hlen]
        by_contra hfew
        have hle := Nat.mul_le_mul_left maxPatchCmd (Nat.le_of_not_lt hfew)
        rw [Nat.mul_comm] at hmul
        omega
      obtain ⟨-, hindex, -⟩ := hwrites 65536 _ (List.getElem?_eq_getElem hmany)
      exact absurd hindex (cmdIndex_lt _).ne
    refine ⟨fun a ha => ?_, hcount⟩
    obtain ⟨halen, hdigits⟩ := f.addr_digits a ha
    rw [← sentAddr_eq_iff halen hdigits]
    rw [psPatchDownload_text f hcount, List.append_assoc, List.append_assoc] at hsent
    have hmap := (List.append_inj hsent (by simp)).1
    exact List.map_inj_left.mp hmap a ha
  · rintro ⟨haddrs, hcount⟩
    have hmap : f.addrs.map sentAddr = f.addrs.map setPatchRamCmd := by
      refine List.map_congr_left fun a ha => ?_
      obtain ⟨halen, hdigits⟩ := f.addr_digits a ha
      exact (sentAddr_eq_iff halen hdigits).mpr (haddrs a ha)
    have hbytes := (@readBytes_digits f.digits [] _ f.data_digits.2 f.data_digits.1).2
    have hdata : ∀ k data, cmdData (writePatchCmd k data) = data := fun _ _ => rfl
    refine ⟨_, by rw [psPatchDownload_text f hcount, hmap], by simp, ?_, ?_⟩
    · intro k cmd hcmd
      obtain ⟨j, hj, rfl⟩ := Option.map_eq_some_iff.mp (List.getElem?_map ▸ hcmd)
      obtain ⟨hk, hjk⟩ := List.getElem?_eq_some_iff.mp hj
      rw [List.length_range] at hk
      rw [List.getElem_range] at hjk
      subst hjk
      have hlt := mul_lt_of_lt_chunkCount (by decide) hk
      rw [maxPatchCmd] at hlt hcount
      rw [hdata]
      refine ⟨rfl, cmdIndex_writePatchCmd (by omega) _, ?_⟩
      rw [length_nthChunk]
      exact Nat.min_le_left _ _
    · rw [List.map_map, ← hbytes]
      exact flatten_chunks (by decide) _

/-- `DA:12345600`, one byte. -/
def alignedFile : PatchFile where
  addrs := [[0x31, 0x32, 0x33, 0x34, 0x35, 0x36, 0x30, 0x30]]
  count := [0x31]
  digits := [0x41, 0x42]
  tail := []
  addr_digits := by decide +kernel
  count_digits := by decide +kernel
  count_line := by decide
  data_digits := by decide +kernel

/-- Its commands are those of the file. -/
theorem patch_download_aligned : alignedFile.Downloaded
    (commands (psPatchDownload (fun _ => true) [] [] alignedFile.text)) :=
  (patch_download_iff alignedFile [] []).mpr ⟨by decide, by decide⟩

/-- `DA:12345678`, one byte. -/
def oddFile : PatchFile :=
  { alignedFile with
    addrs := [[0x31, 0x32, 0x33, 0x34, 0x35, 0x36, 0x37, 0x38]]
    addr_digits := by decide +kernel }

/-- The last byte of the address is sent as `0x07`. -/
theorem patch_address_truncated :
    commands (psPatchDownload (fun _ => true) [] [] oddFile.text) =
      [loadHciPsHdr setPatchRamId 4 0 ++ [0x07, 0x56, 0x34, 0x12],
        loadHciPsHdr writePatch 1 0 ++ [0xAB], loadHciPsHdr enablePatch 0 0] ∧
      setPatchRamCmd [0x31, 0x32, 0x33, 0x34, 0x35, 0x36, 0x37, 0x38] =
        loadHciPsHdr setPatchRamId 4 0 ++ [0x78, 0x56, 0x34, 0x12] ∧
      ¬ oddFile.Downloaded (commands (psPatchDownload (fun _ => true) [] [] oddFile.text)) := by
  have hcmds : commands (psPatchDownload (fun _ => true) [] [] oddFile.text) =
      [loadHciPsHdr setPatchRamId 4 0 ++ [0x07, 0x56, 0x34, 0x12],
        loadHciPsHdr writePatch 1 0 ++ [0xAB], loadHciPsHdr enablePatch 0 0] := by decide +kernel
  refine ⟨hcmds, by decide, fun hdown => ?_⟩
  obtain ⟨writes, hsent, -⟩ := hdown
  rw [hcmds] at hsent
  exact absurd (List.cons.inj hsent).1 (by decide)

end Ar3k

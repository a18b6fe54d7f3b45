/-
NVM files of the Rome controller, as they are written and as `rome_get_tlv_file` leaves
them.

* `NvmFile` — a file with a header and tags whose lengths agree, where a tag with the
  device address has room for it;
* `nvm_patching_iff` — the loader returns the size of the file and has put the address
  into every tag 2 exactly if the file has a tag: of the four bytes of a file without
  tags it reads the fifteenth.
-/
import HdxCommon.Rome

namespace Rome

/-! ### Files -/

/-- A tag: its header of 12 bytes (`tlv_nvm_hdr`) with the length of the payload. -/
structure Tag where
  hdr : List UInt8
  payload : List UInt8
  hdr_length : hdr.length = nvmHdrSize
  len_eq : tagLen hdr = payload.length

namespace Tag

def id (t : Tag) : ℕ := tagId t.hdr

def bytes (t : Tag) : List UInt8 := t.hdr ++ t.payload

/-- The tag with the device address in the first six bytes of its payload, if it is
tag 2. -/
def patched (bdAddr : Vector UInt8 6) (t : Tag) : List UInt8 :=
  t.hdr ++ if t.id = tagNum2 then bdAddr.toList ++ t.payload.drop 6 else t.payload

end Tag

/-- A well-formed NVM file: its tags fit the length field of three bytes, and tag 2 has
room for the address. -/
structure NvmFile where
  tags : List Tag
  fits : (tags.flatMap Tag.bytes).length < 2 ^ 24
  room : ∀ t ∈ tags, t.id = tagNum2 → 6 ≤ t.payload.length

namespace NvmFile

/-- The header: the type of the file, and the length of its tags. -/
def header (f : NvmFile) : List UInt8 :=
  let n := (f.tags.flatMap Tag.bytes).length
  [tlvTypeNvm, UInt8.ofNat n, UInt8.ofNat (n / 256), UInt8.ofNat (n / 65536)]

def bytes (f : NvmFile) : List UInt8 := f.header ++ f.tags.flatMap Tag.bytes

/-- The file with the device address in every tag 2. -/
def patched (bdAddr : Vector UInt8 6) (f : NvmFile) : List UInt8 :=
  f.header ++ f.tags.flatMap (Tag.patched bdAddr)

end NvmFile

/-! ### One tag -/

variable {bdAddr : Vector UInt8 6} {t : Tag} {pre post : List UInt8} {index : ℕ}

theorem Tag.length_bytes (t : Tag) : t.bytes.length = 12 + t.payload.length := by
  rw [bytes, List.length_append, t.hdr_length]
  rfl

theorem Tag.length_patched (hroom : t.id = tagNum2 → 6 ≤ t.payload.length) :
    (t.patched bdAddr).length = 12 + t.payload.length := by
  rw [patched, List.length_append, t.hdr_length, show nvmHdrSize = 12 from rfl]
  split_ifs with hid
  · have hlen := hroom hid
    rw [List.length_append, length_bdAddr, List.length_drop]
    omega
  · rfl

theorem Tag.tagLen_append (t : Tag) (rest : List UInt8) :
    tagLen (t.hdr ++ rest) = t.payload.length := by
  have hlen := t.hdr_length
  rw [show nvmHdrSize = 12 from rfl] at hlen
  have hsub : ((t.hdr ++ rest).drop 2).take 2 = (t.hdr.drop 2).take 2 := by
    rw [List.drop_append_of_le_length (by omega),
      List.take_append_of_le_length (by rw [List.length_drop]; omega)]
  rw [← t.len_eq, tagLen, hsub, tagLen]

theorem storeN_payload (h6 : 6 ≤ t.payload.length) :
    storeN (pre ++ (t.bytes ++ post)) (pre.length + nvmHdrSize) bdAddr.toList =
      some (pre ++ (t.hdr ++ (bdAddr.toList ++ t.payload.drop 6) ++ post)) := by
  have hlen := t.hdr_length
  have hbytes := t.length_bytes
  have hsize : nvmHdrSize = 12 := rfl
  have htake : (pre ++ (t.bytes ++ post)).take (pre.length + nvmHdrSize) = pre ++ t.hdr := by
    rw [List.take_length_add_append, Tag.bytes, List.append_assoc, ← hlen, List.take_left]
  have hdrop : (pre ++ (t.bytes ++ post)).drop (pre.length + nvmHdrSize + 6) =
      t.payload.drop 6 ++ post := by
    rw [Nat.add_assoc, List.drop_length_add_append, Tag.bytes, List.append_assoc, ← hlen,
      List.drop_length_add_append, List.drop_append_of_le_length h6]
  rw [storeN, length_bdAddr, if_pos (by simp only [List.length_append]; omega), htake, hdrop]
  simp only [List.append_assoc]

/-- **One tag**: the loader has put the address into it and stands behind it. -/
theorem nvmTag_tag (hroom : t.id = tagNum2 → 6 ≤ t.payload.length) :
    nvmTag bdAddr ⟨pre ++ (t.bytes ++ post), pre.length, index⟩ =
      some ⟨pre ++ (t.patched bdAddr ++ post), pre.length + (12 + t.payload.length),
        index + (12 + t.payload.length)⟩ := by
  have hlen := t.hdr_length
  have hbytes := t.length_bytes
  have hsize : nvmHdrSize = 12 := rfl
  have hload : loadN (pre ++ (t.bytes ++ post)) pre.length nvmHdrSize = some t.hdr := by
    rw [loadN_eq (by simp only [List.length_append]; omega), List.drop_left, Tag.bytes,
      List.append_assoc, ← hlen, List.take_left]
  have hid : leNat (t.hdr.take 2) = t.id := rfl
  simp only [nvmTag, hload, hid, Option.bind_eq_bind, Option.bind_some]
  -- the end of the tag is the same in both cases
  have hend : ∀ rest : List UInt8, rest.length = t.payload.length →
      ((do
        let len := leNat (← loadN (pre ++ (t.hdr ++ rest ++ post)) (pre.length + 2) 2)
        let _ ← (printedOffsets len).mapM fun i =>
          load (pre ++ (t.hdr ++ rest ++ post)) (pre.length + nvmHdrSize + i)
        return (⟨pre ++ (t.hdr ++ rest ++ post), pre.length + nvmHdrSize + len,
          index + nvmHdrSize + len⟩ : NvmWalk)) : Option NvmWalk) =
        some ⟨pre ++ (t.hdr ++ rest ++ post), pre.length + (12 + t.payload.length),
          index + (12 + t.payload.length)⟩ := by
    intro rest hrest
    rw [nvmTag_data (by simp only [List.length_append]; omega), List.drop_left,
      List.append_assoc t.hdr, t.tagLen_append, if_pos]
    simp only [List.length_append]
    omega
  simp only [Option.bind_eq_bind] at hend
  by_cases htag : t.id = tagNum2
  · have h6 := hroom htag
    have hrest : (bdAddr.toList ++ t.payload.drop 6).length = t.payload.length := by
      rw [List.length_append, length_bdAddr, List.length_drop]
      omega
    have hback : ∃ d, loadN (pre ++ (t.hdr ++ (bdAddr.toList ++ t.payload.drop 6) ++ post))
        (pre.length + nvmHdrSize) 6 = some d :=
      ⟨_, loadN_eq (by simp only [List.length_append] at hrest ⊢; omega)⟩
    obtain ⟨d, hback⟩ := hback
    rw [if_pos htag, storeN_payload h6]
    simp only [Option.bind_some, hback, Option.pure_def] at hend ⊢
    rw [hend _ hrest, Tag.patched, if_pos htag]
  · rw [if_neg htag]
    simp only [Option.pure_def, Option.bind_some, Tag.bytes] at hend ⊢
    rw [hend t.payload rfl, Tag.patched, if_neg htag]

/-! ### The walk -/

/-- **All tags**: the loader has put the address into each tag 2. -/
theorem loop_nvmRound_tags (bdAddr : Vector UInt8 6) {nvmLength n : ℕ} (tags : List Tag)
    (pre : List UInt8) (index : ℕ)
    (hroom : ∀ t ∈ tags, t.id = tagNum2 → 6 ≤ t.payload.length)
    (hindex : index + (tags.flatMap Tag.bytes).length = nvmLength) (hn : tags.length < n) :
    ∃ w, loop (nvmRound bdAddr nvmLength) n
        (some ⟨pre ++ tags.flatMap Tag.bytes, pre.length, index⟩) = some (some w) ∧
      w.pdataBuffer = pre ++ tags.flatMap (Tag.patched bdAddr) := by
  induction tags generalizing pre index n with
  | nil =>
    obtain ⟨n, rfl⟩ : ∃ m, n = m + 1 := ⟨n - 1, by omega⟩
    have hstop : nvmRound bdAddr nvmLength (some ⟨pre ++ [].flatMap Tag.bytes, pre.length, index⟩) =
        none := if_neg (by simpa using hindex.ge)
    exact ⟨_, by rw [loop, hstop], rfl⟩
  | cons t tags ih =>
    obtain ⟨n, rfl⟩ : ∃ m, n = m + 1 := ⟨n - 1, by omega⟩
    have hbytes := t.length_bytes
    have hpatched : (t.patched bdAddr).length = 12 + t.payload.length :=
      t.length_patched (hroom t List.mem_cons_self)
    rw [List.flatMap_cons, List.length_append] at hindex
    rw [List.length_cons] at hn
    have hround : nvmRound bdAddr nvmLength
        (some ⟨pre ++ (t :: tags).flatMap Tag.bytes, pre.length, index⟩) =
        some (nvmTag bdAddr ⟨pre ++ (t.bytes ++ tags.flatMap Tag.bytes), pre.length, index⟩) := by
      rw [List.flatMap_cons]
      exact if_pos (show index < nvmLength by omega)
    obtain ⟨w, hloop, hbuf⟩ := ih (n := n) (pre ++ t.patched bdAddr)
      (index + (12 + t.payload.length)) (fun u hu => hroom u (List.mem_cons_of_mem t hu))
      (by omega) (by omega)
    refine ⟨w, ?_, ?_⟩
    · rw [loop, hround, nvmTag_tag (hroom t List.mem_cons_self)]
      rw [List.length_append, hpatched, List.append_assoc] at hloop
      exact hloop
    · rw [hbuf, List.flatMap_cons, List.append_assoc]

/-! ### The loader -/

theorem leNat_header (f : NvmFile) :
    leNat ((f.bytes.drop 1).take 3) = (f.tags.flatMap Tag.bytes).length := by
  have hfits := f.fits
  change leNat [UInt8.ofNat (f.tags.flatMap Tag.bytes).length,
    UInt8.ofNat ((f.tags.flatMap Tag.bytes).length / 256),
    UInt8.ofNat ((f.tags.flatMap Tag.bytes).length / 65536)] = _
  simp only [leNat, UInt8.toNat_ofNat']
  omega

theorem le_length_of_tags (f : NvmFile) (h : f.tags ≠ []) : 16 ≤ f.bytes.length := by
  obtain ⟨t, tags, htags⟩ := List.exists_cons_of_ne_nil h
  have hbytes := t.length_bytes
  have hlen : f.bytes.length = 4 + (f.tags.flatMap Tag.bytes).length := by
    rw [NvmFile.bytes, List.length_append]
    rfl
  rw [htags, List.flatMap_cons, List.length_append] at hlen
  omega

theorem romeGetTlvFile_nvm {env : Env} (hmem : env.dataMem = true) (f : NvmFile)
    (h : f.tags ≠ []) :
    ∃ file, romeGetTlvFile env bdAddr f.bytes = some file ∧ file.ret = f.bytes.length ∧
      file.pdataBuffer = f.patched bdAddr := by
  have hlen := le_length_of_tags f h
  have hfits := f.fits
  have htotal : f.bytes.length = 4 + (f.tags.flatMap Tag.bytes).length := by
    rw [NvmFile.bytes, List.length_append]
    rfl
  have hopen : ¬ (env.dataMem = false ∨ 2 ^ 31 ≤ f.bytes.length) := by
    rw [hmem]
    simp only [Bool.true_eq_false, false_or]
    omega
  have htype : load f.bytes 0 = some tlvTypeNvm := rfl
  obtain ⟨cfg, hcfg⟩ := Option.isSome_iff_exists.mp
    (isSome_load.mpr (show 14 < f.bytes.length by omega))
  have hlength : loadN f.bytes 1 3 = some ((f.bytes.drop 1).take 3) := loadN_eq (by omega)
  have hne : (f.tags.flatMap Tag.bytes).length ≠ 0 := by omega
  -- each tag takes twelve bytes of the length at least
  have hrounds : f.tags.length < (f.tags.flatMap Tag.bytes).length + 2 := by
    have hle : ∀ tags : List Tag, tags.length ≤ (tags.flatMap Tag.bytes).length := by
      intro tags
      induction tags with
      | nil => exact le_rfl
      | cons t tags ih =>
        have hbytes := t.length_bytes
        rw [List.flatMap_cons, List.length_append, List.length_cons]
        omega
    have := hle f.tags
    omega
  obtain ⟨w, hwalk, hbuf⟩ := loop_nvmRound_tags bdAddr f.tags f.header 0 f.room (Nat.zero_add _)
    hrounds
  have hwalk' : nvmWalk bdAddr (f.tags.flatMap Tag.bytes).length f.bytes = some (some w) := hwalk
  have hnot : tlvTypeNvm ≠ tlvTypePatch := by decide
  refine ⟨_, by
    simp only [romeGetTlvFile, if_neg hopen, htype, hcfg, Option.bind_eq_bind, Option.bind_some,
      if_neg hnot, if_true, hlength, leNat_header, if_neg hne, hwalk', Option.join_some]
    rfl, rfl, hbuf⟩

/-- A file without tags is read behind its end. -/
theorem romeGetTlvFile_no_tags {env : Env} (hmem : env.dataMem = true) (f : NvmFile)
    (h : f.tags = []) : romeGetTlvFile env bdAddr f.bytes = none := by
  have hbytes : f.bytes = [tlvTypeNvm, 0, 0, 0] := by
    rw [NvmFile.bytes, NvmFile.header, h]
    rfl
  rw [hbytes, romeGetTlvFile, hmem]
  rfl

/-- **The loader puts the device address into every tag 2**, and changes nothing else,
exactly if the file has a tag. -/
theorem nvm_patching_iff (env : Env) (hmem : env.dataMem = true) (bdAddr : Vector UInt8 6)
    (f : NvmFile) :
    (∃ file, romeGetTlvFile env bdAddr f.bytes = some file ∧ file.ret = f.bytes.length ∧
      file.pdataBuffer = f.patched bdAddr) ↔ f.tags ≠ [] := by
  constructor
  · rintro ⟨file, hfile, -⟩ hnil
    rw [romeGetTlvFile_no_tags hmem f hnil] at hfile
    cases hfile
  · exact romeGetTlvFile_nvm hmem f

def addressFile : NvmFile where
  tags := [⟨[2, 0, 6, 0, 0, 0, 0, 0, 0, 0, 0, 0], [0, 0, 0, 0, 0, 0], rfl, rfl⟩]
  fits := by decide
  room := by decide

theorem nvm_patching_of_addressFile :
    ∃ file, romeGetTlvFile goodLink #v[1, 2, 3, 4, 5, 6] addressFile.bytes = some file ∧
      file.ret = 22 ∧ file.pdataBuffer =
        [2, 18, 0, 0, 2, 0, 6, 0, 0, 0, 0, 0, 0, 0, 0, 0, 1, 2, 3, 4, 5, 6] := by
  obtain ⟨file, hfile, hret, hbuf⟩ :=
    (nvm_patching_iff goodLink rfl #v[1, 2, 3, 4, 5, 6] addressFile).mpr (List.cons_ne_nil _ _)
  have hpatched : addressFile.patched #v[1, 2, 3, 4, 5, 6] =
      [2, 18, 0, 0, 2, 0, 6, 0, 0, 0, 0, 0, 0, 0, 0, 0, 1, 2, 3, 4, 5, 6] := by decide
  exact ⟨file, hfile, hret, hbuf.trans hpatched⟩

def emptyFile : NvmFile := ⟨[], by decide, by decide⟩

/-- The four bytes of the file without tags, whose length field is 0, are read at 14. -/
theorem empty_nvm_file_overrun :
    emptyFile.bytes = [2, 0, 0, 0] ∧
      romeGetTlvFile goodLink #v[1, 2, 3, 4, 5, 6] emptyFile.bytes = none :=
  ⟨rfl, romeGetTlvFile_no_tags rfl emptyFile rfl⟩

end Rome

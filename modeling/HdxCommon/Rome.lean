/-
The firmware loaders of the Rome Bluetooth controller (`hw_rome.c`).

A patch file is read into a header and a payload buffer, a TLV file into one
buffer; both are sent to the controller in segments, each framed in a command
buffer of 260 bytes.  The buffers are those of `Buffers.lean`: a function that
has no result has left one of them.

* `romeDownloadRampatch` — the loader of `rampatch.img`;
* `romeGetTlvFile`, `romeTlvDnldReq` — the loader of TLV files, with the walk
  over the tags of an NVM file (`nvmWalk`);
* `RampatchFits`, `TlvFits` — the files that the loaders can take;
* `firmware_loaders_inside_iff` — they stay inside their buffers exactly for
  these files, and the walk over the tags always ends.

What the controller answers and whether memory is to be had is given from
outside (`Env`).
-/
import HdxCommon.Buffers
import HdxCommon.Bytes
import HdxCommon.Runs

namespace Rome

/-! ### Constants -/

/-- `HCI_MAX_CMD_SIZE`. -/
def hciMaxCmdSize : ℕ := 260

/-- `PRINT_BUF_SIZE`. -/
def printBufSize : ℕ := hciMaxCmdSize * 3 + 2

/-- `PATCH_HDR_LEN`. -/
def patchHdrLen : ℕ := 28

/-- `MAX_DATA_PER_SEGMENT`. -/
def maxDataPerSegment : ℕ := 239

/-- `MAX_SIZE_PER_TLV_SEGMENT`. -/
def maxSizePerTlvSegment : ℕ := 243

/-- The commands of `frame_hci_cmd_pkt` that carry data; the others are framed
without. -/
inductive EdlCmd where
  | patchSetReq | patchDldReq | patchTlvReq
  deriving DecidableEq, Repr

def EdlCmd.code : EdlCmd → UInt8
  | .patchSetReq => 0x16
  | .patchDldReq => 0x01
  | .patchTlvReq => 0x1E

/-! ### Environment -/

/-- What comes of one command: the return value of `hci_send_vs_cmd`, and that of
the events that are waited for. -/
structure Answer where
  sent : ℤ
  event : ℤ

structure Env where
  /-- the header buffer, and the payload or file buffer, can be allocated -/
  hdrMem : Bool
  dataMem : Bool
  /-- the answer to each command -/
  link : ℕ → Answer

/-! ### Patch header -/

/-- `patch_info`.  The global is never cleared: a header is added by "or". -/
structure PatchInfo where
  patchId : BitVec 32
  romVersion : BitVec 16
  buildVersion : BitVec 16
  patchBaseAddr : BitVec 32
  patchEntryAddr : BitVec 32
  patchLength : BitVec 16
  patchCrc : BitVec 32
  patchCtrl : BitVec 16
  deriving DecidableEq

def PatchInfo.zero : PatchInfo := ⟨0, 0, 0, 0, 0, 0, 0, 0⟩

/-- `LSH`. -/
def lsh (val : UInt8) (n : ℕ) : BitVec 32 := (val.toBitVec.setWidth 32).shiftLeft n

/-- `field |= LSH(buf[index + offset], index * 8)` for each byte; what does not
fit into the field is cut off. -/
def orBytes {w : ℕ} (field : BitVec w) (bytes : List UInt8) : BitVec w :=
  bytes.zipIdx.foldl (fun v b => v ||| (lsh b.1 (b.2 * 8)).setWidth w) field

def romeExtractPatchHeaderInfo (buf : List UInt8) (info : PatchInfo) : Option PatchInfo := do
  let patchId := orBytes info.patchId (← loadN buf 0 4)
  let romVersion := orBytes info.romVersion (← loadN buf 4 2)
  let buildVersion := orBytes info.buildVersion (← loadN buf 6 2)
  let patchBaseAddr := orBytes info.patchBaseAddr (← loadN buf 8 4)
  let patchLength := orBytes info.patchLength (← loadN buf 16 4)
  let patchCrc := orBytes info.patchCrc (← loadN buf 20 4)
  let patchCtrl := orBytes info.patchCtrl (← loadN buf 24 4)
  -- base and entry address are the same
  return ⟨patchId, romVersion, buildVersion, patchBaseAddr, patchBaseAddr, patchLength, patchCrc,
    patchCtrl⟩

/-! ### Commands -/

/-- `cmd_opcode_pack`. -/
def cmdOpcodePack (ogf ocf : BitVec 16) : BitVec 16 := (ocf &&& 0x03ff) ||| (ogf <<< 10)

/-- `EXTRACT_BYTE`. -/
def extractByte {w : ℕ} (val : BitVec w) (pos : ℕ) : UInt8 :=
  ⟨(val >>> (8 * pos)).setWidth 8⟩

/-- The parameters of a command, which depend on it: the `switch` of
`frame_hci_cmd_pkt`. -/
def frameParams (phdrBuffer pdataBuffer cmd : List UInt8) (edlCmd : EdlCmd)
    (pBaseAddr : BitVec 32) (segtNo : ℤ) (size : ℕ) : Option (List UInt8) :=
  match edlCmd with
  | .patchSetReq => do storeN cmd 5 (← loadN phdrBuffer 0 patchHdrLen)
  | .patchDldReq => do
    let offset ← ((segtNo - 1) * maxDataPerSegment).toNat?
    let addr := pBaseAddr + BitVec.ofNat 32 offset
    let cmd ← store cmd 3 (UInt8.ofNat (size + 6))
    let cmd ← store cmd 5 (UInt8.ofNat (size + 4))
    let cmd ← storeN cmd 6 ((List.range 4).map (extractByte addr))
    storeN cmd 10 (← loadN pdataBuffer offset size)
  | .patchTlvReq => do
    let cmd ← store cmd 3 (UInt8.ofNat (size + 2))
    let cmd ← store cmd 5 (UInt8.ofNat size)
    let offset ← (segtNo * maxSizePerTlvSegment).toNat?
    storeN cmd 6 (← loadN pdataBuffer offset size)

/-- `frame_hci_cmd_pkt`; `size` bytes of data are copied behind the header of the
command. -/
def frameHciCmdPkt (phdrBuffer pdataBuffer cmd : List UInt8) (edlCmd : EdlCmd)
    (pBaseAddr : BitVec 32) (segtNo : ℤ) (size : ℕ) : Option (List UInt8) := do
  let opcode := cmdOpcodePack 0x3F 0
  let cmd ← storeN cmd 0 (List.replicate hciMaxCmdSize 0)
  let cmd ← store cmd 0 0x01
  let cmd ← storeN cmd 1 [extractByte opcode 0, extractByte opcode 1]
  let cmd ← store cmd 3 (UInt8.ofNat size)
  let cmd ← store cmd 4 edlCmd.code
  frameParams phdrBuffer pdataBuffer cmd edlCmd pBaseAddr segtNo size

/-- A `cmd` on the stack, which is cleared before it is used. -/
def cmdBuffer : List UInt8 := List.replicate hciMaxCmdSize 0

theorem length_cmdBuffer : cmdBuffer.length = hciMaxCmdSize := List.length_replicate

/-- What a command has led to: whether it was sent and answered, the value that
is returned, and the packets so far. -/
structure Exchange where
  ok : Bool
  err : ℤ
  packets : List (List UInt8)

/-- The packet is as long as its `plen` says; it is sent, and answered. -/
def exchange (env : Env) (cmd : List UInt8) (packets : List (List UInt8)) : Option Exchange := do
  let plen ← load cmd 3
  let packet ← loadN cmd 0 (1 + 3 + plen.toNat)
  let answer := env.link packets.length
  let packets := packets ++ [packet]
  return if answer.sent ≠ packet.length then ⟨false, answer.sent, packets⟩
    else ⟨decide (0 ≤ answer.event), answer.event, packets⟩

def romeEdlSetPatchRequest (env : Env) (phdrBuffer : List UInt8) : Option Exchange := do
  let cmd ← frameHciCmdPkt phdrBuffer [] cmdBuffer .patchSetReq 0 (-1) (patchHdrLen + 1)
  exchange env cmd []

/-- The loop of `rome_edl_patch_download_request` from segment `index` on. -/
def downloadSegments (env : Env) (info : PatchInfo) (pdataBuffer : List UInt8) :
    ℕ → ℕ → Exchange → Option Exchange
  | 0, _, x => some x
  | left + 1, index, x => do
    let cmd ← frameHciCmdPkt [] pdataBuffer cmdBuffer .patchDldReq info.patchBaseAddr index
      maxDataPerSegment
    let x ← exchange env cmd x.packets
    if x.ok then downloadSegments env info pdataBuffer left (index + 1) x else some x

def romeEdlPatchDownloadRequest (env : Env) (info : PatchInfo) (pdataBuffer : List UInt8)
    (packets : List (List UInt8)) : Option Exchange := do
  let length := info.patchLength.toNat
  let noOfPatchSegment := length / maxDataPerSegment
  let x ← downloadSegments env info pdataBuffer noOfPatchSegment 1 ⟨true, 0, packets⟩
  if x.ok then
    let size := if length < maxDataPerSegment then length else length % maxDataPerSegment
    if size ≠ 0 then
      let cmd ← frameHciCmdPkt [] pdataBuffer cmdBuffer .patchDldReq info.patchBaseAddr
        (noOfPatchSegment + 1) size
      exchange env cmd x.packets
    else some x
  else some x

/-! ### The patch file -/

/-- `fgetc` at a position, stored as a byte: the end of the file is `0xFF`. -/
def fgetc (file : List UInt8) (pos : ℕ) : UInt8 := file.getD pos 0xFF

/-- The payload is read until the end of the file, and the end is stored too. -/
def readPayload : List UInt8 → ℕ → List UInt8 → Option (List UInt8)
  | [], index, buf => store buf index 0xFF
  | c :: rest, index, buf => do
    let buf ← store buf index c
    readPayload rest (index + 1) buf

/-- `rome_download_rampatch`, with the patch info it leaves. -/
def romeDownloadRampatch (env : Env) (file : List UInt8) (info : PatchInfo) :
    Option (ℤ × PatchInfo) :=
  if env.hdrMem = false then some (-1, info)
  else do
    let phdrBuffer ← storeEach (List.replicate (patchHdrLen + 1) 0) 0
      ((List.range patchHdrLen).map (fgetc file))
    let info ← romeExtractPatchHeaderInfo phdrBuffer info
    let x ← romeEdlSetPatchRequest env phdrBuffer
    if x.err < 0 then return (x.err, info)
    if env.dataMem = false then return (x.err, info)
    let size := info.patchLength.toNat
    let pdataBuffer ← readPayload (file.drop patchHdrLen) 0 (List.replicate (size + 1) 0)
    let x ← romeEdlPatchDownloadRequest env info pdataBuffer x.packets
    return (x.err, info)

/-! ### TLV files -/

/-- `tlv_type`. -/
def tlvTypePatch : UInt8 := 1

def tlvTypeNvm : UInt8 := 2

/-- `sizeof(tlv_nvm_hdr)`. -/
def nvmHdrSize : ℕ := 12

/-- The tag that holds the device address. -/
def tagNum2 : ℕ := 2

/-- Where the walk over the tags stands. -/
structure NvmWalk where
  pdataBuffer : List UInt8
  nvmBytePtr : ℕ
  nvmIndex : ℕ

/-- The offsets of tag data that are printed: three characters each, as long as
they fit. -/
def printedOffsets (tagLen : ℕ) : List ℕ :=
  (List.range tagLen).takeWhile fun i => i * 3 + 2 < printBufSize

/-- One tag: its header is read, the address is written into tag 2, and the data
is printed. -/
def nvmTag (bdAddr : Vector UInt8 6) (w : NvmWalk) : Option NvmWalk := do
  let hdr ← loadN w.pdataBuffer w.nvmBytePtr nvmHdrSize
  let tagId := leNat (hdr.take 2)
  let data := w.nvmBytePtr + nvmHdrSize
  let pdataBuffer ← if tagId = tagNum2 then do
      let pdataBuffer ← storeN w.pdataBuffer data bdAddr.toList
      let _ ← loadN pdataBuffer data 6
      pure pdataBuffer
    else pure w.pdataBuffer
  -- the length is read again, for the loop and for the next tag
  let tagLen := leNat (← loadN pdataBuffer (w.nvmBytePtr + 2) 2)
  let _ ← (printedOffsets tagLen).mapM fun i => load pdataBuffer (data + i)
  return ⟨pdataBuffer, data + tagLen, w.nvmIndex + nvmHdrSize + tagLen⟩

/-- One round of the walk; `none` within is a tag that is not inside the
buffer, after which there is no further round. -/
def nvmRound (bdAddr : Vector UInt8 6) (nvmLength : ℕ) : Option NvmWalk → Option (Option NvmWalk)
  | none => none
  | some w => if w.nvmIndex < nvmLength then some (nvmTag bdAddr w) else none

/-- The walk over the tags; `none` outside would be a walk that does not end. -/
def nvmWalk (bdAddr : Vector UInt8 6) (nvmLength : ℕ) (pdataBuffer : List UInt8) :
    Option (Option NvmWalk) :=
  loop (nvmRound bdAddr nvmLength) (nvmLength + 2) (some ⟨pdataBuffer, 4, 0⟩)

/-- What `rome_get_tlv_file` returns and leaves in its globals. -/
structure TlvFile where
  ret : ℤ
  pdataBuffer : List UInt8
  tlvType : UInt8
  tlvDwndCfg : UInt8

/-- `rome_get_tlv_file` of a file that could be opened.  The size of one of 2 GiB
or more is not to be had. -/
def romeGetTlvFile (env : Env) (bdAddr : Vector UInt8 6) (file : List UInt8) : Option TlvFile :=
  if env.dataMem = false ∨ 2 ^ 31 ≤ file.length then some ⟨-1, [], 0, 0⟩
  else do
    let tlvType ← load file 0
    let dwndCfg ← load file 14
    if tlvType = tlvTypePatch then
      let _ ← loadN file 0 28
      return ⟨file.length, file, tlvType, dwndCfg⟩
    else if tlvType = tlvTypeNvm then
      let nvmLength := leNat (← loadN file 1 3)
      if nvmLength = 0 then return ⟨file.length, file, tlvType, dwndCfg⟩
      let w ← (nvmWalk bdAddr nvmLength file).join
      return ⟨file.length, w.pdataBuffer, tlvType, dwndCfg⟩
    else return ⟨file.length, file, tlvType, dwndCfg⟩

/-- `rome_tlv_dnld_segment`. -/
def romeTlvDnldSegment (env : Env) (pdataBuffer : List UInt8) (index segSize : ℕ)
    (packets : List (List UInt8)) : Option Exchange := do
  let cmd ← frameHciCmdPkt [] pdataBuffer cmdBuffer .patchTlvReq 0 index segSize
  exchange env cmd packets

/-- The loop of `rome_tlv_dnld_req` from segment `i` on. -/
def tlvSegments (env : Env) (pdataBuffer : List UInt8) : ℕ → ℕ → Exchange → Option Exchange
  | 0, _, x => some x
  | left + 1, i, x => do
    let x ← romeTlvDnldSegment env pdataBuffer i maxSizePerTlvSegment x.packets
    if x.err < 0 then some { x with ok := false }
    else tlvSegments env pdataBuffer left (i + 1) { x with ok := true }

/-- `rome_tlv_dnld_req`. -/
def romeTlvDnldReq (env : Env) (pdataBuffer : List UInt8) (tlvSize : ℕ) : Option Exchange := do
  let totalSegment := tlvSize / maxSizePerTlvSegment
  let remainSize := if tlvSize < maxSizePerTlvSegment then tlvSize
    else tlvSize % maxSizePerTlvSegment
  let x ← tlvSegments env pdataBuffer totalSegment 0 ⟨true, -1, []⟩
  if x.ok then
    if remainSize ≠ 0 then romeTlvDnldSegment env pdataBuffer totalSegment remainSize x.packets
    else some x
  else some x

/-- One file in `rome_download_tlv_file`: it is read, and sent. -/
def downloadTlv (env : Env) (bdAddr : Vector UInt8 6) (file : List UInt8) : Option ℤ := do
  let t ← romeGetTlvFile env bdAddr file
  if t.ret < 0 then return t.ret
  let x ← romeTlvDnldReq env t.pdataBuffer t.ret.toNat
  return x.err

/-! ### Commands stay in their buffer -/

section Commands

variable {phdr pdata cmd cmd' : List UInt8} {e : EdlCmd} {addr : BitVec 32} {segtNo : ℤ}
  {size offset : ℕ}

theorem length_frameParams (h : frameParams phdr pdata cmd e addr segtNo size = some cmd') :
    cmd'.length = cmd.length := by
  cases e with
  | patchSetReq =>
    simp only [frameParams, Option.bind_eq_bind, Option.bind_eq_some_iff] at h
    obtain ⟨d, -, h⟩ := h
    exact length_of_storeN h
  | patchDldReq =>
    simp only [frameParams, Option.bind_eq_bind, Option.bind_eq_some_iff] at h
    obtain ⟨off, -, c₁, h₁, c₂, h₂, c₃, h₃, d, -, h⟩ := h
    rw [length_of_storeN h, length_of_storeN h₃, length_of_store h₂, length_of_store h₁]
  | patchTlvReq =>
    simp only [frameParams, Option.bind_eq_bind, Option.bind_eq_some_iff] at h
    obtain ⟨c₁, h₁, c₂, h₂, off, -, d, -, h⟩ := h
    rw [length_of_storeN h, length_of_store h₂, length_of_store h₁]

theorem length_frameHciCmdPkt (h : frameHciCmdPkt phdr pdata cmd e addr segtNo size = some cmd') :
    cmd'.length = cmd.length := by
  simp only [frameHciCmdPkt, Option.bind_eq_bind, Option.bind_eq_some_iff] at h
  obtain ⟨c₁, h₁, c₂, h₂, c₃, h₃, c₄, h₄, c₅, h₅, h⟩ := h
  rw [length_frameParams h, length_of_store h₅, length_of_store h₄, length_of_storeN h₃,
    length_of_store h₂, length_of_storeN h₁]

theorem frameHciCmdPkt_cmdBuffer (phdr pdata : List UInt8) (e : EdlCmd) (addr : BitVec 32)
    (segtNo : ℤ) (size : ℕ) :
    frameHciCmdPkt phdr pdata cmdBuffer e addr segtNo size =
      frameParams phdr pdata
        ([0x01, 0x00, 0xFC, UInt8.ofNat size, e.code] ++ List.replicate 255 0) e addr segtNo
        size := by
  have hlo : extractByte (cmdOpcodePack 0x3F 0) 0 = 0x00 := by decide
  have hhi : extractByte (cmdOpcodePack 0x3F 0) 1 = 0xFC := by decide
  have hclear : storeN cmdBuffer 0 (List.replicate hciMaxCmdSize 0) =
      some ([0, 0, 0, 0, 0] ++ List.replicate 255 0) := by decide +kernel
  generalize List.replicate 255 (0 : UInt8) = zeros at hclear
  simp only [frameHciCmdPkt, hclear, hlo, hhi, Option.bind_eq_bind, Option.bind_some]
  simp [store, storeN]

theorem isSome_frameHciCmdPkt (hcmd : cmd.length = hciMaxCmdSize)
    (hparams : ∀ c, c.length = hciMaxCmdSize →
      (frameParams phdr pdata c e addr segtNo size).isSome = true) :
    (frameHciCmdPkt phdr pdata cmd e addr segtNo size).isSome = true := by
  have hmax : hciMaxCmdSize = 260 := rfl
  simp only [frameHciCmdPkt, Option.bind_eq_bind]
  refine isSome_storeN_bind ?_ fun c₁ h₁ => isSome_store_bind ?_ fun c₂ h₂ =>
    isSome_storeN_bind ?_ fun c₃ h₃ => isSome_store_bind ?_ fun c₄ h₄ =>
    isSome_store_bind ?_ fun c₅ h₅ => hparams c₅ ?_
  · rw [List.length_replicate]
    omega
  · omega
  · show 1 + 2 ≤ c₂.length
    omega
  all_goals omega

theorem isSome_frame_setReq (hcmd : cmd.length = hciMaxCmdSize)
    (hhdr : patchHdrLen ≤ phdr.length) :
    (frameHciCmdPkt phdr pdata cmd .patchSetReq addr segtNo size).isSome = true := by
  have hmax : hciMaxCmdSize = 260 := rfl
  have hlen : patchHdrLen = 28 := rfl
  refine isSome_frameHciCmdPkt hcmd fun c hc => isSome_loadN_bind ?_ fun d hd => ?_
  · omega
  · rw [isSome_storeN]
    omega

theorem isSome_frame_dldReq (hcmd : cmd.length = hciMaxCmdSize)
    (hoff : (segtNo - 1) * maxDataPerSegment = offset) (hsize : 10 + size ≤ hciMaxCmdSize)
    (hin : offset + size ≤ pdata.length) :
    (frameHciCmdPkt phdr pdata cmd .patchDldReq addr segtNo size).isSome = true := by
  have hmax : hciMaxCmdSize = 260 := rfl
  refine isSome_frameHciCmdPkt hcmd fun c hc => ?_
  simp only [frameParams, hoff, Int.toNat?, Option.bind_eq_bind, Option.bind_some]
  refine isSome_store_bind ?_ fun c₁ h₁ => isSome_store_bind ?_ fun c₂ h₂ =>
    isSome_storeN_bind ?_ fun c₃ h₃ => isSome_loadN_bind hin fun d hd => ?_
  · omega
  · omega
  · rw [List.length_map, List.length_range]
    omega
  · rw [isSome_storeN]
    omega

theorem isSome_frame_tlvReq (hcmd : cmd.length = hciMaxCmdSize)
    (hoff : segtNo * maxSizePerTlvSegment = offset) (hsize : 6 + size ≤ hciMaxCmdSize)
    (hin : offset + size ≤ pdata.length) :
    (frameHciCmdPkt phdr pdata cmd .patchTlvReq addr segtNo size).isSome = true := by
  have hmax : hciMaxCmdSize = 260 := rfl
  refine isSome_frameHciCmdPkt hcmd fun c hc => ?_
  simp only [frameParams, hoff, Int.toNat?, Option.bind_eq_bind, Option.bind_some]
  refine isSome_store_bind ?_ fun c₁ h₁ => isSome_store_bind ?_ fun c₂ h₂ =>
    isSome_loadN_bind hin fun d hd => ?_
  · omega
  · omega
  · rw [isSome_storeN]
    omega

/-- The length of a packet is a byte, so it is inside the buffer. -/
theorem isSome_exchange (env : Env) (packets : List (List UInt8))
    (hcmd : cmd.length = hciMaxCmdSize) : (exchange env cmd packets).isSome = true := by
  have hmax : hciMaxCmdSize = 260 := rfl
  obtain ⟨plen, hplen⟩ := Option.isSome_iff_exists.mp
    (isSome_load.mpr (show 3 < cmd.length by omega))
  have hbyte : plen.toNat < 256 := plen.toNat_lt
  simp only [exchange, hplen, Option.bind_eq_bind, Option.bind_some]
  refine isSome_loadN_bind ?_ fun d _ => rfl
  omega

/-- Of a command, as much is sent as its `plen` says. -/
theorem exchange_packet (env : Env) {packet : List UInt8} {plen : UInt8} (zeros : List UInt8)
    (packets : List (List UInt8)) (hplen : load packet 3 = some plen)
    (hlen : packet.length = 1 + 3 + plen.toNat) :
    exchange env (packet ++ zeros) packets =
      some (if (env.link packets.length).sent ≠ packet.length
        then ⟨false, (env.link packets.length).sent, packets ++ [packet]⟩
        else ⟨decide (0 ≤ (env.link packets.length).event), (env.link packets.length).event,
          packets ++ [packet]⟩) := by
  have hfield : load (packet ++ zeros) 3 = some plen := by
    rw [← hplen]
    exact List.getElem?_append_left (by omega)
  have hload : loadN (packet ++ zeros) 0 packet.length = some packet := by
    rw [loadN_eq (by rw [List.length_append]; omega), List.drop_zero, List.take_left]
  simp only [exchange, hfield, ← hlen, hload, Option.bind_eq_bind, Option.bind_some]
  rfl

theorem isSome_frame_exchange (env : Env) (packets : List (List UInt8))
    (hframe : (frameHciCmdPkt phdr pdata cmdBuffer e addr segtNo size).isSome = true) :
    ((frameHciCmdPkt phdr pdata cmdBuffer e addr segtNo size).bind fun cmd =>
      exchange env cmd packets).isSome = true := by
  obtain ⟨cmd, hcmd⟩ := Option.isSome_iff_exists.mp hframe
  have hlen : cmd.length = hciMaxCmdSize := by
    rw [length_frameHciCmdPkt hcmd, length_cmdBuffer]
  rw [hcmd, Option.bind_some]
  exact isSome_exchange env packets hlen

end Commands

/-! ### The patch loader -/

section Rampatch

variable {env : Env} {info info' : PatchInfo} {file buf pdata : List UInt8} {x : Exchange}

theorem isSome_downloadSegments (left index : ℕ) (x : Exchange)
    (hin : (index + left) * maxDataPerSegment ≤ pdata.length) :
    (downloadSegments env info pdata left (index + 1) x).isSome = true := by
  have hmax : maxDataPerSegment = 239 := rfl
  induction left generalizing index x with
  | zero => rfl
  | succ left ih =>
    -- segment `index + 1` begins at `index * 239`
    have hoff : (((index + 1 : ℕ) : ℤ) - 1) * maxDataPerSegment =
        ((index * maxDataPerSegment : ℕ) : ℤ) := by
      push_cast
      ring
    have hend : index * maxDataPerSegment + maxDataPerSegment ≤ pdata.length := by
      refine le_trans ?_ hin
      nlinarith
    have hframe : (frameHciCmdPkt [] pdata cmdBuffer .patchDldReq info.patchBaseAddr
        ((index + 1 : ℕ) : ℤ) maxDataPerSegment).isSome = true :=
      isSome_frame_dldReq length_cmdBuffer hoff (by decide) hend
    rw [downloadSegments, Option.bind_eq_bind, Option.bind_eq_bind, ← Option.bind_assoc]
    obtain ⟨y, hy⟩ := Option.isSome_iff_exists.mp (isSome_frame_exchange env x.packets hframe)
    rw [hy, Option.bind_some]
    split
    · refine ih (index + 1) y ?_
      rwa [show index + 1 + left = index + (left + 1) by omega]
    · rfl

theorem isSome_romeEdlPatchDownloadRequest (packets : List (List UInt8))
    (hin : info.patchLength.toNat ≤ pdata.length) :
    (romeEdlPatchDownloadRequest env info pdata packets).isSome = true := by
  set length := info.patchLength.toNat with hlength
  have hmax : maxDataPerSegment = 239 := rfl
  have hdiv : length / maxDataPerSegment * maxDataPerSegment + length % maxDataPerSegment =
      length := Nat.div_add_mod' length maxDataPerSegment
  have hmod : length % maxDataPerSegment < maxDataPerSegment := Nat.mod_lt _ (by decide)
  have hloop : (downloadSegments env info pdata (length / maxDataPerSegment) 1
      ⟨true, 0, packets⟩).isSome = true := by
    refine isSome_downloadSegments _ 0 _ ?_
    rw [Nat.zero_add]
    omega
  obtain ⟨x, hx⟩ := Option.isSome_iff_exists.mp hloop
  simp only [romeEdlPatchDownloadRequest, ← hlength, hx, Option.bind_eq_bind, Option.bind_some]
  -- what is left is less than a segment, and begins after the whole ones
  have hrest : (if length < maxDataPerSegment then length else length % maxDataPerSegment) =
      length % maxDataPerSegment := by
    split
    · rename_i hlt
      exact (Nat.mod_eq_of_lt hlt).symm
    · rfl
  rw [hrest]
  split
  · split
    · have hoff : (((length / maxDataPerSegment : ℕ) : ℤ) + 1 - 1) * maxDataPerSegment =
          ((length / maxDataPerSegment * maxDataPerSegment : ℕ) : ℤ) := by
        push_cast
        ring
      have hcmd : hciMaxCmdSize = 260 := rfl
      refine isSome_frame_exchange env x.packets (isSome_frame_dldReq length_cmdBuffer hoff ?_ ?_)
      all_goals omega
    · rfl
  · rfl

theorem readPayload_eq (rest : List UInt8) (index : ℕ) (buf : List UInt8) :
    readPayload rest index buf = storeEach buf index (rest ++ [0xFF]) := by
  induction rest generalizing index buf with
  | nil =>
    simp [readPayload, storeEach]
  | cons c rest ih =>
    rw [readPayload, List.cons_append, storeEach]
    simp only [ih]

/-- A length field of four bytes in 16 bits: the upper two are lost. -/
theorem orBytes_low (v : BitVec 16) (a b c d : UInt8) :
    orBytes v [a, b, c, d] = v ||| BitVec.ofNat 16 (leNat [a, b]) := by
  have hc : (lsh c 16).setWidth 16 = 0 := by
    ext i hi
    simp [lsh]
  have hd : (lsh d 24).setWidth 16 = 0 := by
    ext i hi
    simp [lsh]
  have hab : (lsh a 0).setWidth 16 ||| (lsh b 8).setWidth 16 = BitVec.ofNat 16 (leNat [a, b]) := by
    have ha := a.toNat_lt
    have hb := b.toNat_lt
    have hor : a.toNat ||| b.toNat <<< 8 = a.toNat + 256 * b.toNat := by
      rw [Nat.or_comm, ← Nat.shiftLeft_add_eq_or_of_lt (by simpa using ha), Nat.shiftLeft_eq]
      ring
    have hlt : b.toNat <<< 8 < 65536 := by
      rw [Nat.shiftLeft_eq]
      omega
    apply BitVec.eq_of_toNat_eq
    simp only [lsh, leNat, BitVec.toNat_or, BitVec.toNat_setWidth, BitVec.toNat_ofNat]
    simp [Nat.mod_eq_of_lt hlt, hor]
    omega
  simp [orBytes, List.zipIdx, hc, hd, ← hab, BitVec.or_assoc]

def headerBytes (file : List UInt8) : List UInt8 := (List.range patchHdrLen).map (fgetc file)

theorem length_headerBytes : (headerBytes file).length = patchHdrLen := by
  rw [headerBytes, List.length_map, List.length_range]

theorem storeEach_header :
    storeEach (List.replicate (patchHdrLen + 1) 0) 0 (headerBytes file) =
      some (headerBytes file ++ [0]) := by
  rw [storeEach_eq_storeN (Nat.zero_le _), storeN, if_pos]
  · rw [length_headerBytes, List.take_zero, List.nil_append, Nat.zero_add, List.drop_replicate]
    rfl
  · rw [length_headerBytes, List.length_replicate]
    omega

/-- The length that a header gives: the low two bytes of its field, over the
length that is there. -/
def patchLengthAfter (file : List UInt8) (info : PatchInfo) : BitVec 16 :=
  info.patchLength ||| BitVec.ofNat 16 (leNat [fgetc file 16, fgetc file 17])

theorem romeExtractPatchHeaderInfo_spec :
    ∃ info', romeExtractPatchHeaderInfo (headerBytes file ++ [0]) info = some info' ∧
      info'.patchLength = patchLengthAfter file info := by
  have hlen : (headerBytes file ++ [0]).length = 29 := by
    rw [List.length_append, length_headerBytes]
    rfl
  have hfield : ((headerBytes file ++ [0]).drop 16).take 4 =
      [fgetc file 16, fgetc file 17, fgetc file 18, fgetc file 19] := rfl
  simp only [romeExtractPatchHeaderInfo, loadN, hlen]
  refine ⟨_, rfl, ?_⟩
  show orBytes info.patchLength (((headerBytes file ++ [0]).drop 16).take 4) = _
  rw [hfield, orBytes_low]
  rfl

/-- The return value of the request that sets the header, whose packet has 33
bytes. -/
def headerReply (env : Env) : ℤ :=
  if (env.link 0).sent ≠ 33 then (env.link 0).sent else (env.link 0).event

theorem romeEdlSetPatchRequest_spec (env : Env) (hbuf : patchHdrLen ≤ buf.length) :
    ∃ x, romeEdlSetPatchRequest env buf = some x ∧ x.err = headerReply env := by
  obtain ⟨cmd, hcmd⟩ := Option.isSome_iff_exists.mp (@isSome_frame_setReq buf [] cmdBuffer 0 (-1)
    (patchHdrLen + 1) length_cmdBuffer hbuf)
  have hlen : cmd.length = hciMaxCmdSize := by
    rw [length_frameHciCmdPkt hcmd, length_cmdBuffer]
  -- nothing is stored over the length of the parameters
  have hplen : load cmd 3 = some (UInt8.ofNat (patchHdrLen + 1)) := by
    have hframe := hcmd
    simp only [frameHciCmdPkt, frameParams, Option.bind_eq_bind, Option.bind_eq_some_iff] at hframe
    obtain ⟨c₁, -, c₂, -, c₃, -, c₄, h₄, c₅, h₅, d, -, h₆⟩ := hframe
    rw [load_of_storeN h₆ (by decide), load_of_store_ne h₅ (by decide), load_of_store_self h₄]
  obtain ⟨packet, hpacket⟩ := Option.isSome_iff_exists.mp
    (isSome_loadN.mpr (show 0 + 33 ≤ cmd.length by rw [hlen]; decide))
  have hsize : packet.length = 33 := length_of_loadN hpacket
  have hload : loadN cmd 0 (1 + 3 + (UInt8.ofNat (patchHdrLen + 1)).toNat) = some packet := hpacket
  refine ⟨_, by simp only [romeEdlSetPatchRequest, hcmd, exchange, hplen, hload,
    Option.bind_eq_bind, Option.bind_some]; rfl, ?_⟩
  by_cases hsent : (env.link 0).sent = 33
  all_goals simp [hsize, headerReply, hsent]

/-- The payload is read: there is memory, and the header has been accepted. -/
def PayloadRead (env : Env) : Prop :=
  env.hdrMem = true ∧ env.dataMem = true ∧ 0 ≤ headerReply env

/-- A patch file that the loader can take: the payload is not longer than its
header says, if it is read at all. -/
def RampatchFits (env : Env) (file : List UInt8) (info : PatchInfo) : Prop :=
  PayloadRead env → file.length ≤ patchHdrLen + (patchLengthAfter file info).toNat

theorem isSome_readPayload_iff (n : ℕ) :
    (readPayload (file.drop patchHdrLen) 0 (List.replicate (n + 1) 0)).isSome = true ↔
      file.length ≤ patchHdrLen + n := by
  rw [readPayload_eq, storeEach_eq_storeN (Nat.zero_le _), isSome_storeN]
  simp only [List.length_append, List.length_drop, List.length_singleton, List.length_replicate]
  omega

/-- **The patch loader** stays inside its buffers exactly for files that fit. -/
theorem isSome_romeDownloadRampatch_iff (env : Env) (file : List UInt8) (info : PatchInfo) :
    (romeDownloadRampatch env file info).isSome = true ↔ RampatchFits env file info := by
  unfold romeDownloadRampatch
  by_cases hhdr : env.hdrMem = false
  · rw [if_pos hhdr]
    exact iff_of_true rfl fun hread => absurd (hhdr.symm.trans hread.1) Bool.false_ne_true
  rw [if_neg hhdr]
  obtain ⟨info', hinfo, hlength⟩ := @romeExtractPatchHeaderInfo_spec info file
  obtain ⟨x, hx, herr⟩ := @romeEdlSetPatchRequest_spec (headerBytes file ++ [0]) env (by
    rw [List.length_append, length_headerBytes]
    omega)
  have hstore := @storeEach_header file
  rw [headerBytes] at hstore hinfo hx
  simp only [hstore, hinfo, hx, Option.bind_eq_bind, Option.bind_some, herr]
  by_cases hreply : headerReply env < 0
  · rw [if_pos hreply]
    exact iff_of_true rfl fun hread => absurd hread.2.2 (by omega)
  rw [if_neg hreply]
  by_cases hmem : env.dataMem = false
  · rw [if_pos hmem]
    exact iff_of_true rfl fun hread => absurd (hmem.symm.trans hread.2.1) Bool.false_ne_true
  rw [if_neg hmem]
  have hread : PayloadRead env := ⟨by simpa using hhdr, by simpa using hmem, by omega⟩
  have hfits : RampatchFits env file info ↔
      file.length ≤ patchHdrLen + info'.patchLength.toNat := by
    rw [hlength]
    exact ⟨fun h => h hread, fun h _ => h⟩
  rw [hfits, ← isSome_readPayload_iff]
  cases hpayload : readPayload (file.drop patchHdrLen) 0
      (List.replicate (info'.patchLength.toNat + 1) 0) with
  | none => rfl
  | some pdata =>
    -- the segments are cut by the length that the buffer was made for
    have hlen : pdata.length = info'.patchLength.toNat + 1 := by
      rw [readPayload_eq, storeEach_eq_storeN (Nat.zero_le _)] at hpayload
      rw [length_of_storeN hpayload, List.length_replicate]
    have hsent : (romeEdlPatchDownloadRequest env info' pdata x.packets).isSome = true :=
      isSome_romeEdlPatchDownloadRequest x.packets (by omega)
    obtain ⟨y, hy⟩ := Option.isSome_iff_exists.mp hsent
    rw [Option.bind_some, hy]
    exact iff_of_true rfl rfl

end Rampatch

/-! ### The tags of an NVM file -/

section Tags

variable {bdAddr : Vector UInt8 6} {bs buf : List UInt8} {w w' : NvmWalk} {n nvmLength : ℕ}

def tagId (bs : List UInt8) : ℕ := leNat (bs.take 2)

def tagLen (bs : List UInt8) : ℕ := leNat ((bs.drop 2).take 2)

/-- The bytes of the file from a tag on, with the address written into tag 2. -/
def withAddress (bdAddr : Vector UInt8 6) (bs : List UInt8) : List UInt8 :=
  if tagId bs = tagNum2 then bs.take 12 ++ bdAddr.toList ++ bs.drop 18 else bs

/-- `TagsFit bdAddr n bs`: with `n` bytes of tags to come, the bytes `bs` hold the
header of each tag, as much of its data as is printed, and in tag 2 the six
bytes of the address. -/
inductive TagsFit (bdAddr : Vector UInt8 6) : ℕ → List UInt8 → Prop
  | done (bs : List UInt8) : TagsFit bdAddr 0 bs
  | tag {n : ℕ} {bs : List UInt8} (hleft : 0 < n) (hdata : 12 + min (tagLen bs) 260 ≤ bs.length)
      (haddr : tagId bs = tagNum2 → 18 ≤ bs.length)
      (hrest : TagsFit bdAddr (n - (12 + tagLen bs))
        ((withAddress bdAddr bs).drop (12 + tagLen bs))) : TagsFit bdAddr n bs

/-- What one tag needs. -/
def TagFits (bs : List UInt8) : Prop :=
  12 + min (tagLen bs) 260 ≤ bs.length ∧ (tagId bs = tagNum2 → 18 ≤ bs.length)

theorem tagsFit_iff (hleft : 0 < n) : TagsFit bdAddr n bs ↔
    TagFits bs ∧ TagsFit bdAddr (n - (12 + tagLen bs))
      ((withAddress bdAddr bs).drop (12 + tagLen bs)) := by
  constructor
  · intro h
    cases h with
    | done => omega
    | tag _ hdata haddr hrest => exact ⟨⟨hdata, haddr⟩, hrest⟩
  · rintro ⟨⟨hdata, haddr⟩, hrest⟩
    exact .tag hleft hdata haddr hrest

theorem takeWhile_range (n k : ℕ) :
    (List.range n).takeWhile (fun i => decide (i < k)) = List.range (min n k) := by
  induction n with
  | zero => simp
  | succ n ih =>
    rw [List.range_succ, List.takeWhile_append, ih, List.length_range, List.length_range]
    by_cases hk : n < k
    · rw [if_pos (by omega), min_eq_left (by omega), List.range_succ]
      simp [hk]
    · rw [min_eq_right (by omega), min_eq_right (by omega)]
      split
      · rename_i hnk
        simp [show n = k by omega]
      · rfl

/-- At most 260 bytes of a tag are printed. -/
theorem printedOffsets_eq (k : ℕ) : printedOffsets k = List.range (min k 260) := by
  have hbound : ∀ i : ℕ, i * 3 + 2 < printBufSize ↔ i < 260 := by
    intro i
    show i * 3 + 2 < 782 ↔ i < 260
    omega
  simp only [printedOffsets, hbound, takeWhile_range]

theorem length_bdAddr : bdAddr.toList.length = 6 := Vector.length_toList

theorem storeN_address {p : ℕ} (hin : p + 18 ≤ buf.length) :
    ∃ buf', storeN buf (p + nvmHdrSize) bdAddr.toList = some buf' ∧ buf'.length = buf.length ∧
      buf'.drop p = (buf.drop p).take 12 ++ bdAddr.toList ++ (buf.drop p).drop 18 := by
  have hfits : p + nvmHdrSize + bdAddr.toList.length ≤ buf.length := by
    rw [length_bdAddr]
    exact hin
  obtain ⟨buf', hbuf'⟩ := Option.isSome_iff_exists.mp (isSome_storeN.mpr hfits)
  refine ⟨buf', hbuf', length_of_storeN hbuf', ?_⟩
  rw [storeN, if_pos hfits, length_bdAddr] at hbuf'
  have htake : (buf.take (p + 12)).drop p = (buf.drop p).take 12 := by
    rw [List.drop_take, Nat.add_sub_cancel_left]
  rw [← Option.some.inj hbuf', List.append_assoc, List.drop_append_of_le_length, List.drop_drop,
    List.append_assoc]
  · exact congrArg (· ++ (bdAddr.toList ++ buf.drop (p + 18))) htake
  · rw [List.length_take]
    show p ≤ min (p + 12) buf.length
    omega

theorem tagLen_withAddress (hhdr : 12 ≤ bs.length) :
    tagLen (withAddress bdAddr bs) = tagLen bs := by
  unfold withAddress
  split
  · have hdrop : ((bs.take 12 ++ bdAddr.toList ++ bs.drop 18).drop 2).take 2 =
        (bs.drop 2).take 2 := by
      rw [List.append_assoc, List.take_drop, List.take_drop, List.take_append_of_le_length,
        List.take_take]
      · rfl
      · rw [List.length_take]
        omega
    rw [tagLen, hdrop, tagLen]
  · rfl

/-- The end of a tag, in the buffer that may hold the address: the length is read
once more, and the data is printed. -/
theorem nvmTag_data {p index : ℕ} (hhdr : p + 12 ≤ buf.length) :
    ((do
        let len := leNat (← loadN buf (p + 2) 2)
        let _ ← (printedOffsets len).mapM fun i => load buf (p + nvmHdrSize + i)
        return (⟨buf, p + nvmHdrSize + len, index + nvmHdrSize + len⟩ : NvmWalk)) :
      Option NvmWalk) =
      if 12 + min (tagLen (buf.drop p)) 260 ≤ (buf.drop p).length then
        some ⟨buf, p + (12 + tagLen (buf.drop p)), index + (12 + tagLen (buf.drop p))⟩
      else none := by
  have hload : loadN buf (p + 2) 2 = some (((buf.drop p).drop 2).take 2) := by
    rw [loadN_eq (by omega), List.drop_drop]
  have hprint : ((printedOffsets (tagLen (buf.drop p))).mapM fun i =>
      load buf (p + nvmHdrSize + i)).isSome = true ↔
      12 + min (tagLen (buf.drop p)) 260 ≤ (buf.drop p).length := by
    rw [isSome_mapM_load, printedOffsets_eq, List.length_drop]
    simp only [List.mem_range, show nvmHdrSize = 12 from rfl]
    constructor
    · intro h
      by_contra hlt
      have hlast := h (min (tagLen (buf.drop p)) 260 - 1) (by omega)
      omega
    · intro h k hk
      omega
  simp only [hload, Option.bind_eq_bind, Option.bind_some]
  rw [show leNat (((buf.drop p).drop 2).take 2) = tagLen (buf.drop p) from rfl]
  split
  · rename_i hfits
    obtain ⟨ds, hds⟩ := Option.isSome_iff_exists.mp (hprint.mpr hfits)
    rw [hds, Option.bind_some, show nvmHdrSize = 12 from rfl, Nat.add_assoc, Nat.add_assoc]
    rfl
  · rename_i hout
    have hnone := mt hprint.mp hout
    rw [Option.not_isSome_iff_eq_none.mp hnone]
    rfl

structure TagDone (bdAddr : Vector UInt8 6) (w w' : NvmWalk) : Prop where
  length_eq : w'.pdataBuffer.length = w.pdataBuffer.length
  index_eq : w'.nvmIndex = w.nvmIndex + (12 + tagLen (w.pdataBuffer.drop w.nvmBytePtr))
  rest_eq : w'.pdataBuffer.drop w'.nvmBytePtr =
    (withAddress bdAddr (w.pdataBuffer.drop w.nvmBytePtr)).drop
      (12 + tagLen (w.pdataBuffer.drop w.nvmBytePtr))

/-- **One tag** is inside the buffer exactly if it fits. -/
theorem nvmTag_spec (bdAddr : Vector UInt8 6) (w : NvmWalk) :
    (¬ TagFits (w.pdataBuffer.drop w.nvmBytePtr) ∧ nvmTag bdAddr w = none) ∨
    ∃ w', TagFits (w.pdataBuffer.drop w.nvmBytePtr) ∧ nvmTag bdAddr w = some w' ∧
      TagDone bdAddr w w' := by
  obtain ⟨buf, p, index⟩ := w
  have hsub : (buf.drop p).length = buf.length - p := List.length_drop
  by_cases hhdr : p + 12 ≤ buf.length
  swap
  · -- the header is not inside the buffer
    refine .inl ⟨fun hfits => ?_, ?_⟩
    · have hdata : 12 + min (tagLen (buf.drop p)) 260 ≤ (buf.drop p).length := hfits.1
      omega
    · simp only [nvmTag, loadN, show nvmHdrSize = 12 from rfl, if_neg hhdr, Option.bind_eq_bind]
      rfl
  have hload : loadN buf p nvmHdrSize = some ((buf.drop p).take 12) := loadN_eq hhdr
  have hid : leNat (((buf.drop p).take 12).take 2) = tagId (buf.drop p) := by
    rw [List.take_take]
    rfl
  simp only [nvmTag, hload, hid, Option.bind_eq_bind, Option.bind_some]
  by_cases htag : tagId (buf.drop p) = tagNum2
  · rw [if_pos htag]
    by_cases haddr : p + 18 ≤ buf.length
    · obtain ⟨buf', hstore, hlen, hdrop⟩ := @storeN_address bdAddr buf p haddr
      have hwith : buf'.drop p = withAddress bdAddr (buf.drop p) := by
        rw [hdrop, withAddress, if_pos htag]
      have hback : loadN buf' (p + nvmHdrSize) 6 = some ((buf'.drop (p + nvmHdrSize)).take 6) :=
        loadN_eq (by rw [hlen]; exact haddr)
      have hend := @nvmTag_data buf' p index (by omega)
      have hsame : tagLen (buf'.drop p) = tagLen (buf.drop p) := by
        rw [hwith, tagLen_withAddress (by omega)]
      simp only [Option.bind_eq_bind] at hend
      simp only [hstore, hback, Option.bind_some, Option.pure_def] at hend ⊢
      rw [hend, hsame, List.length_drop, hlen]
      split
      · rename_i hfits
        refine .inr ⟨_, ⟨by omega, fun _ => by omega⟩, rfl, hlen, rfl, ?_⟩
        rw [← hwith, List.drop_drop]
      · rename_i hout
        exact .inl ⟨fun hfits => hout (by have := hfits.1; omega), rfl⟩
    · refine .inl ⟨fun hfits => ?_, ?_⟩
      · have h18 := hfits.2 htag
        omega
      · have hnone : storeN buf (p + nvmHdrSize) bdAddr.toList = none := by
          rw [storeN, if_neg]
          rw [length_bdAddr]
          exact haddr
        rw [hnone]
        rfl
  · rw [if_neg htag]
    have hend := @nvmTag_data buf p index hhdr
    simp only [Option.bind_eq_bind, Option.pure_def] at hend
    simp only [Option.bind_some, Option.pure_def]
    rw [hend]
    split
    · rename_i hfits
      refine .inr ⟨_, ⟨hfits, fun h => absurd h htag⟩, rfl, rfl, rfl, ?_⟩
      rw [withAddress, if_neg htag, List.drop_drop]
    · rename_i hout
      exact .inl ⟨fun hfits => hout hfits.1, rfl⟩

/-- **The walk over the tags** ends, and stays inside the buffer exactly if the
tags fit.  The rounds are bounded by the length, since each tag takes twelve
bytes of it at least. -/
theorem loop_nvmRound (bdAddr : Vector UInt8 6) (nvmLength : ℕ) {n : ℕ} {w : NvmWalk}
    (hn : nvmLength - w.nvmIndex + 1 < n) :
    ∃ r, loop (nvmRound bdAddr nvmLength) n (some w) = some r ∧
      (r.isSome = true ↔ TagsFit bdAddr (nvmLength - w.nvmIndex)
        (w.pdataBuffer.drop w.nvmBytePtr)) ∧
      ∀ w' ∈ r, w'.pdataBuffer.length = w.pdataBuffer.length := by
  induction n generalizing w with
  | zero => omega
  | succ n ih =>
    by_cases hlt : w.nvmIndex < nvmLength
    · have hround : nvmRound bdAddr nvmLength (some w) = some (nvmTag bdAddr w) := if_pos hlt
      rw [loop, hround, tagsFit_iff (by omega)]
      obtain ⟨hnot, hnone⟩ | ⟨w', hfits, hsome, hdone⟩ := nvmTag_spec bdAddr w
      · -- the round after a tag that does not fit is the last
        obtain ⟨m, rfl⟩ : ∃ m, n = m + 1 := ⟨n - 1, by omega⟩
        refine ⟨none, ?_, ?_, fun w' hw' => absurd hw' (by simp)⟩
        · rw [hnone]
          rfl
        · exact iff_of_false (by simp) fun h => hnot h.1
      · have hindex := hdone.index_eq
        obtain ⟨r, hloop, hiff, hlen⟩ := ih (w := w') (by omega)
        refine ⟨r, ?_, ?_, fun w'' hw'' => (hlen w'' hw'').trans hdone.length_eq⟩
        · rw [hsome]
          exact hloop
        · rw [hiff, hdone.rest_eq, hindex, Nat.sub_add_eq]
          exact ⟨fun h => ⟨hfits, h⟩, fun h => h.2⟩
    · have hround : nvmRound bdAddr nvmLength (some w) = none := if_neg hlt
      refine ⟨some w, by rw [loop, hround], ?_, ?_⟩
      · rw [show nvmLength - w.nvmIndex = 0 by omega]
        exact iff_of_true rfl (.done _)
      · rintro w' ⟨⟩
        rfl

theorem nvmWalk_spec (bdAddr : Vector UInt8 6) (nvmLength : ℕ) (buf : List UInt8) :
    ∃ r, nvmWalk bdAddr nvmLength buf = some r ∧
      (r.isSome = true ↔ TagsFit bdAddr nvmLength (buf.drop 4)) ∧
      ∀ w' ∈ r, w'.pdataBuffer.length = buf.length :=
  @loop_nvmRound bdAddr nvmLength (nvmLength + 2) ⟨buf, 4, 0⟩ (by
    show nvmLength - 0 + 1 < nvmLength + 2
    omega)

end Tags

/-! ### The TLV loader -/

section Tlv

variable {env : Env} {bdAddr : Vector UInt8 6} {file pdata : List UInt8} {x : Exchange}

theorem isSome_romeTlvDnldSegment (packets : List (List UInt8)) {index size : ℕ}
    (hsize : size ≤ maxSizePerTlvSegment)
    (hin : index * maxSizePerTlvSegment + size ≤ pdata.length) :
    (romeTlvDnldSegment env pdata index size packets).isSome = true := by
  have hmax : maxSizePerTlvSegment = 243 := rfl
  have hcmd : hciMaxCmdSize = 260 := rfl
  have hoff : (index : ℤ) * maxSizePerTlvSegment = ((index * maxSizePerTlvSegment : ℕ) : ℤ) := by
    push_cast
    ring
  rw [romeTlvDnldSegment, Option.bind_eq_bind]
  exact isSome_frame_exchange env packets
    (isSome_frame_tlvReq length_cmdBuffer hoff (by omega) hin)

theorem isSome_tlvSegments (left i : ℕ) (x : Exchange)
    (hin : (i + left) * maxSizePerTlvSegment ≤ pdata.length) :
    (tlvSegments env pdata left i x).isSome = true := by
  induction left generalizing i x with
  | zero => rfl
  | succ left ih =>
    have hend : i * maxSizePerTlvSegment + maxSizePerTlvSegment ≤ pdata.length := by
      refine le_trans ?_ hin
      nlinarith
    obtain ⟨y, hy⟩ := Option.isSome_iff_exists.mp
      (@isSome_romeTlvDnldSegment env pdata x.packets i _ le_rfl hend)
    simp only [tlvSegments, Option.bind_eq_bind, hy, Option.bind_some]
    split
    · rfl
    · refine ih (i + 1) _ ?_
      rw [show i + 1 + left = i + (left + 1) by omega]
      exact hin

theorem isSome_romeTlvDnldReq (env : Env) (pdata : List UInt8) :
    (romeTlvDnldReq env pdata pdata.length).isSome = true := by
  set size := pdata.length with hsize
  have hmax : maxSizePerTlvSegment = 243 := rfl
  have hdiv : size / maxSizePerTlvSegment * maxSizePerTlvSegment + size % maxSizePerTlvSegment =
      size := Nat.div_add_mod' size maxSizePerTlvSegment
  have hmod : size % maxSizePerTlvSegment < maxSizePerTlvSegment := Nat.mod_lt _ (by decide)
  have hloop : (tlvSegments env pdata (size / maxSizePerTlvSegment) 0 ⟨true, -1, []⟩).isSome =
      true := by
    refine isSome_tlvSegments _ 0 _ ?_
    rw [Nat.zero_add]
    omega
  have hrest : (if size < maxSizePerTlvSegment then size else size % maxSizePerTlvSegment) =
      size % maxSizePerTlvSegment := by
    split
    · rename_i hlt
      exact (Nat.mod_eq_of_lt hlt).symm
    · rfl
  obtain ⟨x, hx⟩ := Option.isSome_iff_exists.mp hloop
  simp only [romeTlvDnldReq, hx, hrest, Option.bind_eq_bind, Option.bind_some]
  split
  · split
    · exact isSome_romeTlvDnldSegment x.packets (by omega) (by omega)
    · rfl
  · rfl

/-- **Where the TLV loader stays inside its buffer**: it reads the fields of a
header of 15 bytes, of one of 28 if the file is a patch, and the tags of an NVM
file as far as the length in its header says. -/
def TlvFits (env : Env) (bdAddr : Vector UInt8 6) (file : List UInt8) : Prop :=
  env.dataMem = true → file.length < 2 ^ 31 →
    15 ≤ file.length ∧ (file[0]? = some tlvTypePatch → 28 ≤ file.length) ∧
      (file[0]? = some tlvTypeNvm → TagsFit bdAddr (leNat (file.drop 1 |>.take 3)) (file.drop 4))

/-- `rome_get_tlv_file` stays inside its buffer exactly if the file fits, and what
it returns is the size of that buffer or an error. -/
theorem romeGetTlvFile_spec (env : Env) (bdAddr : Vector UInt8 6) (file : List UInt8) :
    ((romeGetTlvFile env bdAddr file).isSome = true ↔ TlvFits env bdAddr file) ∧
      ∀ t ∈ romeGetTlvFile env bdAddr file, t.ret < 0 ∨ t.ret = t.pdataBuffer.length := by
  by_cases hopen : env.dataMem = false ∨ 2 ^ 31 ≤ file.length
  · rw [romeGetTlvFile, if_pos hopen]
    refine ⟨iff_of_true rfl fun hmem hlt => ?_, ?_⟩
    · obtain hmem' | hle := hopen
      · exact absurd (hmem'.symm.trans hmem) Bool.false_ne_true
      · omega
    · rintro t ⟨⟩
      exact Or.inl (by decide)
  · have hmem : env.dataMem = true := by
      simpa using fun h => hopen (Or.inl h)
    have hlt : file.length < 2 ^ 31 := by
      simpa using fun h => hopen (Or.inr h)
    rw [romeGetTlvFile, if_neg hopen]
    by_cases h15 : 15 ≤ file.length
    swap
    · -- the configuration byte at 14 is not there
      have hnone : load file 14 = none := List.getElem?_eq_none (by omega)
      simp only [hnone, Option.bind_eq_bind, Option.bind_none, Option.bind_fun_none]
      exact ⟨iff_of_false Bool.false_ne_true fun h => h15 (h hmem hlt).1,
        fun t ht => absurd ht (by simp)⟩
    obtain ⟨tlvType, htype⟩ := Option.isSome_iff_exists.mp
      (isSome_load.mpr (show 0 < file.length by omega))
    obtain ⟨cfg, hcfg⟩ := Option.isSome_iff_exists.mp
      (isSome_load.mpr (show 14 < file.length by omega))
    have hfits : TlvFits env bdAddr file ↔ (tlvType = tlvTypePatch → 28 ≤ file.length) ∧
        (tlvType = tlvTypeNvm →
          TagsFit bdAddr (leNat (file.drop 1 |>.take 3)) (file.drop 4)) := by
      have hzero : file[0]? = some tlvType := htype
      simp only [TlvFits, hmem, hlt, h15, hzero, Option.some.injEq, true_and, true_implies]
    rw [hfits]
    simp only [htype, hcfg, Option.bind_eq_bind, Option.bind_some]
    split_ifs with hpatch hnvm
    · have hnot : tlvType ≠ tlvTypeNvm := by
        rw [hpatch]
        decide
      by_cases h28 : 28 ≤ file.length
      · rw [loadN_eq (by omega), Option.bind_some]
        refine ⟨iff_of_true rfl ⟨fun _ => h28, fun h => absurd h hnot⟩, ?_⟩
        rintro t ⟨⟩
        exact Or.inr rfl
      · have hnone : loadN file 0 28 = none := if_neg (by omega)
        rw [hnone, Option.bind_none]
        exact ⟨iff_of_false Bool.false_ne_true fun h => h28 (h.1 hpatch),
          fun t ht => absurd ht (by simp)⟩
    · have hnvmLength := @loadN_eq _ file 1 3 (by omega)
      obtain ⟨r, hwalk, hiff, hlen⟩ := nvmWalk_spec bdAddr (leNat (file.drop 1 |>.take 3)) file
      rw [hnvmLength, Option.bind_some, hwalk, Option.join_some]
      have hcontent : ((tlvType = tlvTypePatch → 28 ≤ file.length) ∧ (tlvType = tlvTypeNvm →
          TagsFit bdAddr (leNat (file.drop 1 |>.take 3)) (file.drop 4))) ↔ r.isSome = true :=
        ⟨fun h => hiff.mpr (h.2 hnvm), fun h => ⟨fun h' => absurd h' hpatch, fun _ => hiff.mp h⟩⟩
      rw [hcontent]
      split_ifs with hzero
      · -- no tag at all
        rw [hiff, hzero]
        refine ⟨iff_of_true rfl (.done _), ?_⟩
        rintro t ⟨⟩
        exact Or.inr rfl
      · cases r with
        | none => exact ⟨iff_of_false Bool.false_ne_true Bool.false_ne_true,
            fun t ht => absurd ht (by simp)⟩
        | some w =>
          refine ⟨iff_of_true rfl rfl, ?_⟩
          rintro t ⟨⟩
          exact Or.inr (by rw [hlen w rfl])
    · exact ⟨iff_of_true rfl ⟨fun h => absurd h hpatch, fun h => absurd h hnvm⟩, by
        rintro t ⟨⟩
        exact Or.inr rfl⟩

theorem isSome_downloadTlv_iff (env : Env) (bdAddr : Vector UInt8 6) (file : List UInt8) :
    (downloadTlv env bdAddr file).isSome = true ↔ TlvFits env bdAddr file := by
  obtain ⟨hiff, hret⟩ := romeGetTlvFile_spec env bdAddr file
  rw [← hiff, downloadTlv, Option.bind_eq_bind]
  cases hfile : romeGetTlvFile env bdAddr file with
  | none => rfl
  | some t =>
    refine iff_of_true ?_ rfl
    rw [Option.bind_some]
    split_ifs with hneg
    · rfl
    · -- all of the buffer is sent, and no more
      obtain hlt | heq := hret t hfile
      · exact absurd hlt hneg
      · have hsent := isSome_romeTlvDnldReq env t.pdataBuffer
        obtain ⟨x, hx⟩ := Option.isSome_iff_exists.mp hsent
        rw [heq, Int.toNat_natCast, hx]
        rfl

end Tlv

/-! ### The loaders -/

/-- **The firmware loaders stay inside their buffers** exactly for the files that
fit: a patch file with a header and no more payload than its length field says,
a TLV file with its header, and an NVM file with tags that are inside the file.
The walk over the tags ends for every file. -/
theorem firmware_loaders_inside_iff (env : Env) :
    (∀ file info, (romeDownloadRampatch env file info).isSome = true ↔
        RampatchFits env file info) ∧
      (∀ bdAddr file, (downloadTlv env bdAddr file).isSome = true ↔ TlvFits env bdAddr file) ∧
      ∀ bdAddr nvmLength file, (nvmWalk bdAddr nvmLength file).isSome = true := by
  refine ⟨isSome_romeDownloadRampatch_iff env, isSome_downloadTlv_iff env, ?_⟩
  intro bdAddr nvmLength file
  obtain ⟨r, hwalk, -⟩ := nvmWalk_spec bdAddr nvmLength file
  rw [hwalk]
  rfl

/-- A link on which every command is sent, the header with its 33 bytes. -/
def goodLink : Env := ⟨true, true, fun _ => ⟨33, 0⟩⟩

/-- A patch with one byte more than its header says is stored outside the payload
buffer; a TLV file of one byte is read outside its buffer, and so is an NVM file
of 15 bytes with a tag of 255. -/
theorem firmware_loaders_overrun :
    romeDownloadRampatch goodLink (List.replicate 29 0) .zero = none ∧
      downloadTlv goodLink (.replicate 6 0) [1] = none ∧
      downloadTlv goodLink (.replicate 6 0)
        [2, 11, 0, 0, 1, 0, 255, 0, 0, 0, 0, 0, 0, 0, 0] = none := by
  refine ⟨?_, ?_, ?_⟩
  · rw [← Option.not_isSome_iff_eq_none, isSome_romeDownloadRampatch_iff]
    exact fun h => absurd (h ⟨rfl, rfl, by decide⟩) (by decide)
  · rw [← Option.not_isSome_iff_eq_none, isSome_downloadTlv_iff]
    exact fun h => absurd (h rfl (by decide)).1 (by decide)
  · rw [← Option.not_isSome_iff_eq_none, isSome_downloadTlv_iff]
    intro h
    have htags := (h rfl (by decide)).2.2 rfl
    exact absurd ((tagsFit_iff (by decide)).mp htags).1.1 (by decide)

end Rome

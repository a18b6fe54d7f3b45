/-
What the downloads of patch files send to the Rome controller
(`rome_download_rampatch`), one after another in a process.

* `rampatchExchange` — a download with its packets; `romeDownloadRampatch` is its return
  value;
* `dataPackets` — the packets of a payload, with their addresses;
* `rampatch_downloads_iff` — in every sequence of downloads, each one sends its own
  payload to its own addresses exactly if the header adds no bit to what is left of the
  earlier ones (`KeepsBits`): the fields are filled by "or" and never cleared, and the
  length has 16 bits.
-/
import HdxCommon.Chunks
import HdxCommon.Rome

namespace Rome

/-! ### The code -/

/-- `rome_download_rampatch`, with all that it has sent. -/
def rampatchExchange (env : Env) (file : List UInt8) (info : PatchInfo) :
    Option (Exchange × PatchInfo) :=
  if env.hdrMem = false then some (⟨false, -1, []⟩, info)
  else do
    let phdrBuffer ← storeEach (List.replicate (patchHdrLen + 1) 0) 0
      ((List.range patchHdrLen).map (fgetc file))
    let info ← romeExtractPatchHeaderInfo phdrBuffer info
    let x ← romeEdlSetPatchRequest env phdrBuffer
    if x.err < 0 then return (x, info)
    if env.dataMem = false then return (x, info)
    let size := info.patchLength.toNat
    let pdataBuffer ← readPayload (file.drop patchHdrLen) 0 (List.replicate (size + 1) 0)
    let x ← romeEdlPatchDownloadRequest env info pdataBuffer x.packets
    return (x, info)

theorem romeDownloadRampatch_eq (env : Env) (file : List UInt8) (info : PatchInfo) :
    romeDownloadRampatch env file info =
      (rampatchExchange env file info).map fun r => (r.1.err, r.2) := by
  unfold romeDownloadRampatch rampatchExchange
  by_cases hmem : env.hdrMem = false
  · rw [if_pos hmem, if_pos hmem]
    rfl
  rw [if_neg hmem, if_neg hmem]
  simp only [Option.bind_eq_bind, Option.map_bind]
  refine Option.bind_congr fun phdr _ => ?_
  simp only [Function.comp, Option.map_bind]
  refine Option.bind_congr fun info' _ => Option.bind_congr fun x _ => ?_
  by_cases herr : x.err < 0
  · rw [if_pos herr, if_pos herr]
    rfl
  rw [if_neg herr, if_neg herr]
  by_cases hdata : env.dataMem = false
  · rw [if_pos hdata, if_pos hdata]
    rfl
  rw [if_neg hdata, if_neg hdata]
  cases readPayload (file.drop patchHdrLen) 0 (List.replicate (info'.patchLength.toNat + 1) 0) with
  | none => rfl
  | some pdata =>
    rw [Option.bind_some, Option.bind_some]
    cases romeEdlPatchDownloadRequest env info' pdata x.packets with
    | none | some y => rfl

/-! ### Packets -/

/-- The packet of a segment: its header, the address, and the data. -/
def dldPacket (addr : BitVec 32) (data : List UInt8) : List UInt8 :=
  [0x01, 0x00, 0xFC, UInt8.ofNat (data.length + 6), 0x01, UInt8.ofNat (data.length + 4)] ++
    (List.range 4).map (extractByte addr) ++ data

def dataPackets (base : BitVec 32) (payload : List UInt8) (i : ℕ) : List (List UInt8) :=
  (List.range i).map fun k => dldPacket (base + BitVec.ofNat 32 (k * maxDataPerSegment))
    (nthChunk maxDataPerSegment payload k)

variable {env : Env} {pdata : List UInt8} {addr : BitVec 32} {info info' : PatchInfo}
  {size index : ℕ}

theorem length_dldPacket (addr : BitVec 32) (data : List UInt8) :
    (dldPacket addr data).length = data.length + 10 := by
  simp only [dldPacket, List.length_append, List.length_map, List.length_range, List.length_cons,
    List.length_nil]
  omega

theorem frame_dldReq (hsize : size ≤ maxDataPerSegment)
    (hin : index * maxDataPerSegment + size ≤ pdata.length) :
    frameHciCmdPkt [] pdata cmdBuffer .patchDldReq addr ((index + 1 : ℕ) : ℤ) size =
      some (dldPacket (addr + BitVec.ofNat 32 (index * maxDataPerSegment))
        ((pdata.drop (index * maxDataPerSegment)).take size) ++
        List.replicate (250 - size) 0) := by
  have hmax : maxDataPerSegment = 239 := rfl
  have hoff : (((index + 1 : ℕ) : ℤ) - 1) * maxDataPerSegment =
      ((index * maxDataPerSegment : ℕ) : ℤ) := by
    push_cast
    ring
  have hdata := loadN_eq hin
  have hlen : ((pdata.drop (index * maxDataPerSegment)).take size).length = size :=
    length_of_loadN hdata
  generalize (pdata.drop (index * maxDataPerSegment)).take size = data at hdata hlen ⊢
  generalize index * maxDataPerSegment = offset at hoff hdata ⊢
  generalize ((index + 1 : ℕ) : ℤ) = segtNo at hoff ⊢
  have hzeros : List.replicate 255 (0 : UInt8) =
      0 :: 0 :: 0 :: 0 :: 0 :: List.replicate 250 0 := rfl
  have hdrop : (List.replicate 250 (0 : UInt8)).drop size = List.replicate (250 - size) 0 :=
    List.drop_replicate
  have htotal : (List.replicate 250 (0 : UInt8)).length = 250 := List.length_replicate
  have hrange : List.range 4 = [0, 1, 2, 3] := rfl
  rw [frameHciCmdPkt_cmdBuffer, hzeros, ← hdrop]
  generalize List.replicate 250 (0 : UInt8) = zeros at htotal ⊢
  simp [frameParams, hoff, hdata, store, storeN, Int.toNat?, hlen, htotal, dldPacket,
    EdlCmd.code, hrange]
  refine ⟨by omega, ?_⟩
  rw [Nat.add_comm]
  rfl

/-! ### Commands that are answered -/

/-- All packets were sent, and all events behind them reported success. -/
def Answered (env : Env) (packets : List (List UInt8)) : Prop :=
  ∀ k packet, packets[k]? = some packet →
    (env.link k).sent = packet.length ∧ 0 ≤ (env.link k).event

theorem Answered.left {ps qs : List (List UInt8)} (h : Answered env (ps ++ qs)) :
    Answered env ps := by
  intro k packet hk
  have hlt := (List.getElem?_eq_some_iff.mp hk).1
  exact h k packet (by rw [List.getElem?_append_left hlt, hk])

theorem exchange_dldPacket (env : Env) {data : List UInt8} (zeros : List UInt8)
    (packets : List (List UInt8)) (hlen : data.length ≤ maxDataPerSegment) :
    ∃ x, exchange env (dldPacket addr data ++ zeros) packets = some x ∧
      x.packets = packets ++ [dldPacket addr data] ∧ (Answered env x.packets → x.ok = true) := by
  have hmax : maxDataPerSegment = 239 := rfl
  have hsize : (dldPacket addr data).length =
      1 + 3 + (UInt8.ofNat (data.length + 6)).toNat := by
    rw [length_dldPacket, UInt8.toNat_ofNat']
    omega
  refine ⟨_, exchange_packet env zeros packets rfl hsize, ?_, ?_⟩
  · split_ifs
    all_goals rfl
  · intro hans
    have hlast : Answered env (packets ++ [dldPacket addr data]) := by
      split_ifs at hans
      all_goals exact hans
    have hk := hlast packets.length (dldPacket addr data) (by simp)
    rw [if_neg (not_not.mpr hk.1)]
    exact decide_eq_true hk.2

/-! ### The segments -/

variable {body rest : List UInt8}

theorem segment_data (hin : index * maxDataPerSegment + size ≤ body.length) :
    ((body ++ rest).drop (index * maxDataPerSegment)).take size =
      (body.drop (index * maxDataPerSegment)).take size := by
  rw [List.drop_append_of_le_length (by omega),
    List.take_append_of_le_length (by rw [List.length_drop]; omega)]

theorem dataPackets_succ (base : BitVec 32) (body : List UInt8) (i : ℕ) :
    dataPackets base body (i + 1) = dataPackets base body i ++
      [dldPacket (base + BitVec.ofNat 32 (i * maxDataPerSegment))
        (nthChunk maxDataPerSegment body i)] := by
  rw [dataPackets, List.range_succ, List.map_append]
  rfl

theorem segment_sent (env : Env) (addr : BitVec 32) (rest : List UInt8)
    (packets : List (List UInt8)) (hsize : size ≤ maxDataPerSegment)
    (hin : index * maxDataPerSegment + size ≤ body.length)
    (hchunk : (body.drop (index * maxDataPerSegment)).take size =
      nthChunk maxDataPerSegment body index) :
    ∃ cmd x, frameHciCmdPkt [] (body ++ rest) cmdBuffer .patchDldReq addr ((index + 1 : ℕ) : ℤ)
        size = some cmd ∧
      exchange env cmd packets = some x ∧
      x.packets = packets ++ [dldPacket (addr + BitVec.ofNat 32 (index * maxDataPerSegment))
        (nthChunk maxDataPerSegment body index)] ∧
      (Answered env x.packets → x.ok = true) := by
  have hframe : frameHciCmdPkt [] (body ++ rest) cmdBuffer .patchDldReq addr
      ((index + 1 : ℕ) : ℤ) size = _ :=
    frame_dldReq hsize (by rw [List.length_append]; omega)
  have hlen : (nthChunk maxDataPerSegment body index).length ≤ maxDataPerSegment := by
    rw [length_nthChunk]
    exact min_le_left _ _
  rw [segment_data hin, hchunk] at hframe
  obtain ⟨x, hx, hpackets, hok⟩ :=
    exchange_dldPacket env (List.replicate (250 - size) 0) packets hlen
  exact ⟨_, x, hframe, hx, hpackets, hok⟩

/-- **The whole segments**: if all is answered, they are sent one after another. -/
theorem downloadSegments_sent (head : List (List UInt8)) (left index : ℕ) (x : Exchange)
    (hin : (index + left) * maxDataPerSegment ≤ body.length)
    (hx : x.packets = head ++ dataPackets info.patchBaseAddr body index) (hok : x.ok = true) :
    ∃ x', downloadSegments env info (body ++ rest) left (index + 1) x = some x' ∧
      (∃ more, x'.packets = x.packets ++ more) ∧
      (Answered env x'.packets → x'.ok = true ∧
        x'.packets = head ++ dataPackets info.patchBaseAddr body (index + left)) := by
  induction left generalizing index x with
  | zero => exact ⟨x, rfl, ⟨[], by simp⟩, fun _ => ⟨hok, hx⟩⟩
  | succ left ih =>
    have hend : index * maxDataPerSegment + maxDataPerSegment ≤ body.length := by
      refine le_trans ?_ hin
      nlinarith
    obtain ⟨cmd, y, hframe, hy, hpackets, hyok⟩ :=
      segment_sent env info.patchBaseAddr rest x.packets le_rfl hend rfl
    have hy' : y.packets = head ++ dataPackets info.patchBaseAddr body (index + 1) := by
      rw [hpackets, hx, dataPackets_succ, List.append_assoc]
    simp only [downloadSegments, hframe, hy, Option.bind_eq_bind, Option.bind_some]
    have hshift : index + 1 + left = index + (left + 1) := by omega
    by_cases hgo : y.ok = true
    · rw [if_pos hgo]
      obtain ⟨z, hz, ⟨more, hmore⟩, hans⟩ := ih (index + 1) y (by rw [hshift]; exact hin) hy' hgo
      rw [hshift] at hans
      exact ⟨z, hz, ⟨_, by rw [hmore, hpackets, List.append_assoc]⟩, hans⟩
    · rw [if_neg hgo]
      exact ⟨y, rfl, ⟨_, hpackets⟩, fun hans => absurd (hyok hans) hgo⟩

/-- **The request**: if all is answered, the payload is sent in segments. -/
theorem romeEdlPatchDownloadRequest_sent (env : Env) (info : PatchInfo)
    (packets : List (List UInt8)) (body rest : List UInt8)
    (hlen : info.patchLength.toNat = body.length) :
    ∃ x, romeEdlPatchDownloadRequest env info (body ++ rest) packets = some x ∧
      (∃ more, x.packets = packets ++ more) ∧
      (Answered env x.packets → x.packets = packets ++ dataPackets info.patchBaseAddr body
        (chunkCount maxDataPerSegment body.length)) := by
  have hdiv := Nat.div_add_mod' body.length maxDataPerSegment
  have hmod := Nat.mod_lt body.length (show 0 < maxDataPerSegment by decide)
  have hcount := chunkCount_eq (s := maxDataPerSegment) (by decide) body.length
  have hleft : (if body.length < maxDataPerSegment then body.length
      else body.length % maxDataPerSegment) = body.length % maxDataPerSegment := by
    split_ifs with hlt
    · exact (Nat.mod_eq_of_lt hlt).symm
    · rfl
  obtain ⟨x, hx, ⟨more, hmore⟩, hans⟩ := @downloadSegments_sent env info body rest packets
    (body.length / maxDataPerSegment) 0 ⟨true, 0, packets⟩ (by rw [Nat.zero_add]; omega)
    (by simp [dataPackets]) rfl
  rw [Nat.zero_add] at hx hans
  simp only [romeEdlPatchDownloadRequest, hlen, hx, hleft, Option.bind_eq_bind, Option.bind_some]
  by_cases hok : x.ok = true
  swap
  · rw [if_neg hok]
    exact ⟨x, rfl, ⟨more, hmore⟩, fun h => absurd (hans h).1 hok⟩
  rw [if_pos hok]
  by_cases hzero : body.length % maxDataPerSegment = 0
  · rw [if_neg (not_not.mpr hzero)]
    rw [if_pos hzero, Nat.add_zero] at hcount
    exact ⟨x, rfl, ⟨more, hmore⟩, fun h => by rw [hcount]; exact (hans h).2⟩
  · obtain ⟨cmd, y, hframe, hy, hpackets, -⟩ := segment_sent env info.patchBaseAddr rest x.packets
      hmod.le (by omega) (nthChunk_rest (by decide) body).symm
    rw [if_neg hzero] at hcount
    have hframe' : frameHciCmdPkt [] (body ++ rest) cmdBuffer .patchDldReq info.patchBaseAddr
        ((body.length / maxDataPerSegment : ℕ) + 1 : ℤ) (body.length % maxDataPerSegment) =
        some cmd := hframe
    rw [if_pos hzero, hframe', Option.bind_some, hy]
    refine ⟨y, rfl, ⟨more ++ _, by rw [hpackets, hmore, List.append_assoc]⟩, fun h => ?_⟩
    rw [hpackets] at h ⊢
    rw [(hans h.left).2, hcount, dataPackets_succ, List.append_assoc]

/-! ### Patch files -/

structure RampatchFile where
  bytes : List UInt8
  header : patchHdrLen ≤ bytes.length
  len_eq : leNat ((bytes.drop 16).take 4) = bytes.length - patchHdrLen

namespace RampatchFile

def payload (f : RampatchFile) : List UInt8 := f.bytes.drop patchHdrLen

/-- The base address in the header. -/
def base (f : RampatchFile) : BitVec 32 := BitVec.ofNat 32 (leNat ((f.bytes.drop 8).take 4))

/-- The length in the header, as far as it fits `patch_length`. -/
def length16 (f : RampatchFile) : BitVec 16 := BitVec.ofNat 16 f.payload.length

end RampatchFile

/-- The bytes of an address do not overlap, so their "or" is their sum. -/
theorem lsh_or_eq (a b c d : UInt8) :
    lsh a 0 ||| lsh b 8 ||| lsh c 16 ||| lsh d 24 = BitVec.ofNat 32 (leNat [a, b, c, d]) := by
  have ha := a.toNat_lt
  have hb := b.toNat_lt
  have hc := c.toNat_lt
  have hd := d.toNat_lt
  have hor : ∀ {n m k : ℕ}, n < 2 ^ k → n ||| m <<< k = n + 2 ^ k * m := by
    intro n m k hn
    rw [Nat.or_comm, ← Nat.shiftLeft_add_eq_or_of_lt hn, Nat.shiftLeft_eq]
    ring
  have hab := hor (m := b.toNat) (k := 8) (show a.toNat < 2 ^ 8 from ha)
  have habc := hor (m := c.toNat) (k := 16) (show a.toNat + 2 ^ 8 * b.toNat < 2 ^ 16 by omega)
  have habcd := hor (m := d.toNat) (k := 24)
    (show a.toNat + 2 ^ 8 * b.toNat + 2 ^ 16 * c.toNat < 2 ^ 24 by omega)
  have hshift : ∀ (e : UInt8) {k : ℕ}, k ≤ 24 →
      ((lsh e k).toNat = e.toNat <<< k) := by
    intro e k hk
    have he := e.toNat_lt
    have hpow : e.toNat * 2 ^ k < 2 ^ 8 * 2 ^ 24 :=
      Nat.mul_lt_mul_of_lt_of_le he (Nat.pow_le_pow_right (by decide) hk) (by decide)
    simp only [lsh, BitVec.shiftLeft_eq, BitVec.toNat_shiftLeft, BitVec.toNat_setWidth,
      UInt8.toNat_toBitVec]
    rw [Nat.mod_eq_of_lt (show e.toNat < 2 ^ 32 by omega), Nat.shiftLeft_eq,
      Nat.mod_eq_of_lt (by omega)]
  apply BitVec.eq_of_toNat_eq
  rw [BitVec.toNat_or, BitVec.toNat_or, BitVec.toNat_or, hshift a (by decide),
    hshift b (by decide), hshift c (by decide), hshift d (by decide), Nat.shiftLeft_zero,
    hab, habc, habcd, BitVec.toNat_ofNat]
  simp only [leNat]
  omega

theorem orBytes_address (v : BitVec 32) (a b c d : UInt8) :
    orBytes v [a, b, c, d] = v ||| BitVec.ofNat 32 (leNat [a, b, c, d]) := by
  simp [orBytes, List.zipIdx, ← lsh_or_eq, BitVec.or_assoc]

theorem leNat_extractByte (a : BitVec 32) :
    leNat ((List.range 4).map (extractByte a)) = a.toNat := by
  have ha := a.isLt
  have hrange : List.range 4 = [0, 1, 2, 3] := rfl
  simp only [hrange, List.map_cons, List.map_nil, leNat, extractByte]
  simp [UInt8.toNat, Nat.shiftRight_eq_div_pow]
  omega

theorem RampatchFile.field (f : RampatchFile) {i : ℕ} (hi : i + 4 ≤ patchHdrLen) :
    (f.bytes.drop i).take 4 =
      [fgetc f.bytes i, fgetc f.bytes (i + 1), fgetc f.bytes (i + 2), fgetc f.bytes (i + 3)] := by
  have hlen := f.header
  have hget : ∀ {k : ℕ}, k < f.bytes.length → f.bytes[k]? = some (fgetc f.bytes k) := by
    intro k hk
    simp [fgetc, hk]
  refine List.ext_getElem? fun k => ?_
  rw [List.getElem?_take]
  by_cases hk : k < 4
  · rw [if_pos hk, List.getElem?_drop, hget (by omega)]
    interval_cases k
    all_goals rfl
  · rw [if_neg hk]
    exact (List.getElem?_eq_none (by simpa using hk)).symm

theorem length16_eq (f : RampatchFile) (info : PatchInfo) :
    patchLengthAfter f.bytes info = info.patchLength ||| f.length16 := by
  have hfield : (f.bytes.drop 16).take 4 =
      [fgetc f.bytes 16, fgetc f.bytes 17, fgetc f.bytes 18, fgetc f.bytes 19] :=
    f.field (by decide)
  have hlen := f.len_eq
  have hsize : f.payload.length = f.bytes.length - patchHdrLen := List.length_drop
  rw [hfield, ← hsize] at hlen
  have hlow : BitVec.ofNat 16 (leNat [fgetc f.bytes 16, fgetc f.bytes 17]) = f.length16 := by
    rw [RampatchFile.length16, ← hlen]
    apply BitVec.eq_of_toNat_eq
    simp only [leNat, BitVec.toNat_ofNat]
    omega
  rw [patchLengthAfter, hlow]

/-- **The header**: its bits are added to those that are there. -/
theorem romeExtractPatchHeaderInfo_file (f : RampatchFile) (info : PatchInfo) :
    ∃ info', romeExtractPatchHeaderInfo (headerBytes f.bytes ++ [0]) info = some info' ∧
      info'.patchLength = info.patchLength ||| f.length16 ∧
      info'.patchBaseAddr = info.patchBaseAddr ||| f.base := by
  have hlen : (headerBytes f.bytes ++ [0]).length = 29 := by
    rw [List.length_append, length_headerBytes]
    rfl
  obtain ⟨info', hinfo, hlength⟩ := @romeExtractPatchHeaderInfo_spec info f.bytes
  refine ⟨info', hinfo, by rw [hlength, length16_eq], ?_⟩
  have hfield : ((headerBytes f.bytes ++ [0]).drop 8).take 4 =
      [fgetc f.bytes 8, fgetc f.bytes 9, fgetc f.bytes 10, fgetc f.bytes 11] := rfl
  have hbase : orBytes info.patchBaseAddr (((headerBytes f.bytes ++ [0]).drop 8).take 4) =
      info.patchBaseAddr ||| f.base := by
    rw [hfield, orBytes_address, RampatchFile.base, f.field (by decide)]
  simp only [romeExtractPatchHeaderInfo, loadN, hlen] at hinfo
  rw [← Option.some.inj hinfo]
  exact hbase

/-! ### A download -/

variable {f : RampatchFile} {x : Exchange}

/-- The length by which the payload is sent. -/
def sentLength (f : RampatchFile) (info : PatchInfo) : ℕ :=
  (info.patchLength ||| f.length16).toNat

theorem readPayload_file {n : ℕ} (h : readPayload f.payload 0 (List.replicate (n + 1) 0) =
    some pdata) :
    f.payload.length ≤ n ∧ pdata.length = n + 1 ∧ pdata.take f.payload.length = f.payload := by
  rw [readPayload_eq, storeEach_eq_storeN (Nat.zero_le _)] at h
  have hfits := isSome_storeN.mp (Option.isSome_of_mem h)
  rw [List.length_append, List.length_replicate] at hfits
  have hlen := length_of_storeN h
  rw [List.length_replicate] at hlen
  refine ⟨by simpa using hfits, hlen, ?_⟩
  rw [storeN, if_pos (by simpa using hfits)] at h
  rw [← Option.some.inj h, List.take_zero, List.nil_append, List.append_assoc, List.take_left]

theorem exchange_added {cmd : List UInt8} {packets : List (List UInt8)}
    (h : exchange env cmd packets = some x) :
    ∃ packet, x.packets = packets ++ [packet] ∧ (Answered env x.packets → 0 ≤ x.err) := by
  simp only [exchange, Option.bind_eq_bind, Option.bind_eq_some_iff] at h
  obtain ⟨plen, -, packet, -, hx⟩ := h
  have hx := Option.some.inj hx
  by_cases hsent : (env.link packets.length).sent = packet.length
  · rw [if_neg (not_not.mpr hsent)] at hx
    subst hx
    exact ⟨packet, rfl, fun hans => (hans packets.length packet (by simp)).2⟩
  · rw [if_pos hsent] at hx
    subst hx
    exact ⟨packet, rfl, fun hans => absurd (hans packets.length packet (by simp)).1 hsent⟩

/-- **A download whose commands are all answered** sends as many bytes as the length now
says, to the base address that is now there. -/
theorem rampatchExchange_data (hhdr : env.hdrMem = true) (hdata : env.dataMem = true)
    (h : rampatchExchange env f.bytes info = some (x, info')) (hans : Answered env x.packets) :
    f.payload.length ≤ sentLength f info ∧ ∃ body : List UInt8,
      body.length = sentLength f info ∧ body.take f.payload.length = f.payload ∧
      x.packets.tail = dataPackets (info.patchBaseAddr ||| f.base) body
        (chunkCount maxDataPerSegment body.length) := by
  obtain ⟨info₁, hinfo, hlength, hbase⟩ := romeExtractPatchHeaderInfo_file f info
  obtain ⟨x₁, hx₁, -⟩ := @romeEdlSetPatchRequest_spec (headerBytes f.bytes ++ [0]) env (by
    rw [List.length_append, length_headerBytes]
    omega)
  obtain ⟨hdr, hpackets, herr⟩ : ∃ packet, x₁.packets = [] ++ [packet] ∧
      (Answered env x₁.packets → 0 ≤ x₁.err) := by
    have hset := hx₁
    simp only [romeEdlSetPatchRequest, Option.bind_eq_bind, Option.bind_eq_some_iff] at hset
    obtain ⟨cmd, -, hexchange⟩ := hset
    exact exchange_added hexchange
  have hstore := @storeEach_header f.bytes
  rw [headerBytes] at hstore hinfo hx₁
  simp only [rampatchExchange, hhdr, hdata, Bool.true_eq_false, if_false, hstore, hinfo, hx₁,
    Option.bind_eq_bind, Option.bind_some, hlength] at h
  by_cases hneg : x₁.err < 0
  · -- the header was not taken
    rw [if_pos hneg] at h
    cases h
    exact absurd (herr hans) (by omega)
  rw [if_neg hneg, Option.bind_eq_some_iff] at h
  obtain ⟨pdata, hread, h⟩ := h
  obtain ⟨hfits, hlen, htake⟩ := readPayload_file (n := sentLength f info) hread
  refine ⟨hfits, pdata.take (sentLength f info), ?_, ?_, ?_⟩
  · rw [List.length_take]
    omega
  · rw [List.take_take, min_eq_left hfits, htake]
  · obtain ⟨y, hy, ⟨more, hmore⟩, hsent⟩ := romeEdlPatchDownloadRequest_sent env info₁ x₁.packets
      (pdata.take (sentLength f info)) (pdata.drop (sentLength f info))
      (by rw [hlength, List.length_take, hlen]; exact (min_eq_left (Nat.le_succ _)).symm)
    rw [List.take_append_drop] at hy
    rw [hy, Option.bind_some] at h
    cases h
    rw [hsent hans, hpackets, hbase]
    rfl

/-- The data in a packet, and the address it goes to. -/
def packetData (packet : List UInt8) : List UInt8 := packet.drop 10

def packetAddr (packet : List UInt8) : BitVec 32 :=
  BitVec.ofNat 32 (leNat ((packet.drop 6).take 4))

/-- The data packets of a download: their data is the payload, in segments of at most 239
bytes, and each goes to the base address of the file plus its offset. -/
def SendsPayload (f : RampatchFile) (packets : List (List UInt8)) : Prop :=
  (packets.map packetData).flatten = f.payload ∧
    ∀ k packet, packets[k]? = some packet → (packetData packet).length ≤ 239 ∧
      packetAddr packet =
        f.base + BitVec.ofNat 32 (((packets.take k).map packetData).flatten.length)

theorem packetAddr_dldPacket (addr : BitVec 32) (data : List UInt8) :
    packetAddr (dldPacket addr data) = addr := by
  have hbytes : ((dldPacket addr data).drop 6).take 4 = (List.range 4).map (extractByte addr) := rfl
  rw [packetAddr, hbytes, leNat_extractByte, BitVec.ofNat_toNat, BitVec.setWidth_eq]

theorem flatten_dataPackets (base : BitVec 32) (body : List UInt8) (i : ℕ) :
    ((dataPackets base body i).map packetData).flatten = body.take (i * maxDataPerSegment) := by
  rw [dataPackets, List.map_map]
  exact flatten_map_nthChunk maxDataPerSegment body i

theorem sendsPayload_dataPackets (f : RampatchFile) :
    SendsPayload f (dataPackets f.base f.payload
      (chunkCount maxDataPerSegment f.payload.length)) := by
  have hs : 0 < maxDataPerSegment := by decide
  refine ⟨?_, ?_⟩
  · rw [flatten_dataPackets, List.take_of_length_le (le_chunkCount_mul hs _)]
  · intro k packet hk
    have hlt : k < chunkCount maxDataPerSegment f.payload.length := by
      have := (List.getElem?_eq_some_iff.mp hk).1
      rwa [dataPackets, List.length_map, List.length_range] at this
    have hbegin := mul_lt_of_lt_chunkCount hs hlt
    have htake : (dataPackets f.base f.payload
        (chunkCount maxDataPerSegment f.payload.length)).take k =
        dataPackets f.base f.payload k := by
      rw [dataPackets, ← List.map_take, List.take_range, min_eq_left hlt.le]
      rfl
    rw [htake, flatten_dataPackets, List.length_take, min_eq_left hbegin.le]
    rw [dataPackets, List.getElem?_map, List.getElem?_range hlt] at hk
    cases hk
    refine ⟨?_, packetAddr_dldPacket _ _⟩
    change (nthChunk maxDataPerSegment f.payload k).length ≤ 239
    rw [length_nthChunk]
    exact min_le_left _ _

/-- The header adds no bit to what is left of earlier downloads: the length fits 16 bits,
and neither the length nor the base address is changed. -/
structure KeepsBits (f : RampatchFile) (info : PatchInfo) : Prop where
  short : f.payload.length < 2 ^ 16
  length : info.patchLength ||| f.length16 = f.length16
  base : f.payload ≠ [] → info.patchBaseAddr ||| f.base = f.base

theorem sentLength_eq_iff (f : RampatchFile) (info : PatchInfo) :
    sentLength f info = f.payload.length ↔
      f.payload.length < 2 ^ 16 ∧ info.patchLength ||| f.length16 = f.length16 := by
  constructor
  · intro heq
    have hlt : sentLength f info < 2 ^ 16 := BitVec.isLt _
    refine ⟨by omega, BitVec.eq_of_toNat_eq ?_⟩
    have hright : f.length16.toNat = f.payload.length := by
      rw [RampatchFile.length16, BitVec.toNat_ofNat, Nat.mod_eq_of_lt (by omega)]
    exact heq.trans hright.symm
  · rintro ⟨hlt, heq⟩
    rw [sentLength, heq, RampatchFile.length16, BitVec.toNat_ofNat, Nat.mod_eq_of_lt hlt]

/-- There is memory for a download, and all its commands are answered. -/
def Successful (env : Env) (f : RampatchFile) (info : PatchInfo) : Prop :=
  env.hdrMem = true ∧ env.dataMem = true ∧
    ∀ x info', rampatchExchange env f.bytes info = some (x, info') → Answered env x.packets

/-- A download sends its payload; its first packet is the header. -/
def SendsFile (env : Env) (f : RampatchFile) (info : PatchInfo) : Prop :=
  ∃ x info', rampatchExchange env f.bytes info = some (x, info') ∧ SendsPayload f x.packets.tail

/-- **One download** sends its own payload exactly if it keeps the bits. -/
theorem sendsFile_iff (h : Successful env f info) : SendsFile env f info ↔ KeepsBits f info := by
  obtain ⟨hhdr, hdata, hans⟩ := h
  constructor
  · rintro ⟨x, info', hx, hflat, haddr⟩
    obtain ⟨-, body, hlen, -, htail⟩ := rampatchExchange_data hhdr hdata hx (hans x info' hx)
    have hs : 0 < maxDataPerSegment := by decide
    -- the data that is sent is as long as the length says
    have hbody : body = f.payload := by
      rw [← hflat, htail, flatten_dataPackets,
        List.take_of_length_le (le_chunkCount_mul hs body.length)]
    rw [hbody] at hlen htail
    have hlength := (sentLength_eq_iff f info).mp hlen.symm
    refine ⟨hlength.1, hlength.2, fun hne => ?_⟩
    -- the address of the first packet
    have hcount : 0 < chunkCount maxDataPerSegment f.payload.length := by
      have hle := le_chunkCount_mul hs f.payload.length
      have hpos := List.length_pos_iff.mpr hne
      by_contra hzero
      rw [Nat.eq_zero_of_not_pos hzero] at hle
      omega
    have hfirst : x.packets.tail[0]? = some (dldPacket
        ((info.patchBaseAddr ||| f.base) + BitVec.ofNat 32 (0 * maxDataPerSegment))
        (nthChunk maxDataPerSegment f.payload 0)) := by
      rw [htail, dataPackets, List.getElem?_map, List.getElem?_range hcount]
      rfl
    have hbase := (haddr 0 _ hfirst).2
    rw [packetAddr_dldPacket] at hbase
    simpa using hbase
  · intro hkeeps
    have hlen := (sentLength_eq_iff f info).mpr ⟨hkeeps.short, hkeeps.length⟩
    have hsome : (romeDownloadRampatch env f.bytes info).isSome = true := by
      rw [isSome_romeDownloadRampatch_iff]
      intro _
      have hpayload : f.payload.length = f.bytes.length - patchHdrLen := List.length_drop
      have hafter : (patchLengthAfter f.bytes info).toNat = f.payload.length := by
        rw [length16_eq]
        exact hlen
      omega
    rw [romeDownloadRampatch_eq, Option.isSome_map] at hsome
    obtain ⟨⟨x, info'⟩, hx⟩ := Option.isSome_iff_exists.mp hsome
    obtain ⟨-, body, hbody, htake, htail⟩ := rampatchExchange_data hhdr hdata hx (hans x info' hx)
    rw [hlen] at hbody
    rw [List.take_of_length_le hbody.le] at htake
    refine ⟨x, info', hx, ?_⟩
    rw [htail, htake]
    by_cases hne : f.payload = []
    · -- no data packet, whatever the base address
      have hnone : chunkCount maxDataPerSegment f.payload.length = 0 := by
        rw [hne]
        rfl
      have hright := sendsPayload_dataPackets f
      rw [hnone] at hright ⊢
      exact hright
    · rw [hkeeps.base hne]
      exact sendsPayload_dataPackets f

/-! ### Downloads one after another -/

/-- `P` holds of each of the downloads, in the state that the earlier ones leave. -/
def Each (P : Env → RampatchFile → PatchInfo → Prop) : PatchInfo → List (Env × RampatchFile) → Prop
  | _, [] => True
  | info, (env, f) :: downloads => P env f info ∧
    ∀ x info', rampatchExchange env f.bytes info = some (x, info') → Each P info' downloads

/-- **In every sequence of downloads, each one sends its own payload to its own
addresses exactly if each one keeps the bits that it finds.** -/
theorem rampatch_downloads_iff (info : PatchInfo) (downloads : List (Env × RampatchFile))
    (h : Each Successful info downloads) :
    Each SendsFile info downloads ↔ Each (fun _ => KeepsBits) info downloads := by
  induction downloads generalizing info with
  | nil => rfl
  | cons download downloads ih =>
    obtain ⟨env, f⟩ := download
    obtain ⟨hone, hmore⟩ := h
    refine and_congr (sendsFile_iff hone) ?_
    exact forall_congr' fun x => forall_congr' fun info' => forall_congr' fun hx =>
      ih info' (hmore x info' hx)

def oneByte : RampatchFile where
  bytes := List.replicate 16 0 ++ [1, 0, 0, 0] ++ List.replicate 8 0 ++ [7]
  header := by decide
  len_eq := by decide

def twoBytes : RampatchFile where
  bytes := List.replicate 16 0 ++ [2, 0, 0, 0] ++ List.replicate 8 0 ++ [8, 9]
  header := by decide
  len_eq := by decide

/-- A link that answers the header, and a data packet of `n` bytes. -/
def answering (n : ℕ) : Env := ⟨true, true, fun k => ⟨if k = 0 then 33 else n, 0⟩⟩

theorem successful_answering {n : ℕ} {info₁ : PatchInfo}
    (h : (rampatchExchange (answering n) f.bytes info).map
      (fun r => (r.1.packets.map List.length, r.2)) = some ([33, n], info₁)) :
    Successful (answering n) f info := by
  refine ⟨rfl, rfl, fun x info' hx k packet hk => ⟨?_, le_rfl⟩⟩
  rw [hx] at h
  have hlengths : x.packets.map List.length = [33, n] := (Prod.mk.inj (Option.some.inj h)).1
  have hpacket : ([33, n] : List ℕ)[k]? = some packet.length := by
    rw [← hlengths, List.getElem?_map, hk]
    rfl
  rcases k with _ | _ | k
  · rw [← Option.some.inj hpacket]
    rfl
  · rw [← Option.some.inj hpacket]
    rfl
  · simp at hpacket

def infoAfterOne : PatchInfo := { PatchInfo.zero with patchLength := 1 }

theorem oneByte_sent : (rampatchExchange (answering 11) oneByte.bytes PatchInfo.zero).map
    (fun r => (r.1.packets.map List.length, r.2)) = some ([33, 11], infoAfterOne) := by
  decide +kernel

/-- The length of two, over that of one, is three. -/
theorem twoBytes_sent : (rampatchExchange (answering 13) twoBytes.bytes infoAfterOne).map
    (fun r => (r.1.packets.map List.length, r.2)) =
      some ([33, 13], { PatchInfo.zero with patchLength := 3 }) := by
  decide +kernel

theorem rampatch_download_of_one : Each SendsFile PatchInfo.zero [(answering 11, oneByte)] :=
  (rampatch_downloads_iff PatchInfo.zero [(answering 11, oneByte)]
    ⟨successful_answering oneByte_sent, fun _ _ _ => trivial⟩).mpr
    ⟨⟨by decide, by decide, fun _ => by decide⟩, fun _ _ _ => trivial⟩

/-- The second of two downloads, all of whose commands are answered, does not send its
payload. -/
theorem second_download_wrong :
    Each Successful PatchInfo.zero [(answering 11, oneByte), (answering 13, twoBytes)] ∧
      ¬ Each SendsFile PatchInfo.zero [(answering 11, oneByte), (answering 13, twoBytes)] := by
  obtain ⟨⟨x, info⟩, hx, hinfo⟩ := Option.map_eq_some_iff.mp oneByte_sent
  have hinfo : info = infoAfterOne := (Prod.mk.inj hinfo).2
  have hsecond : Successful (answering 13) twoBytes infoAfterOne :=
    successful_answering twoBytes_sent
  refine ⟨⟨successful_answering oneByte_sent, fun y info' hy =>
    ⟨?_, fun _ _ _ => trivial⟩⟩, fun hsends => ?_⟩
  · obtain ⟨-, rfl⟩ := Prod.mk.inj (Option.some.inj (hx.symm.trans hy))
    rw [hinfo]
    exact hsecond
  · have hfile := (hsends.2 x info hx).1
    rw [hinfo, sendsFile_iff hsecond] at hfile
    exact absurd hfile.length (by decide)

end Rome

/-
Vendor events of the Rome controller: how the host reads and interprets them
(`read_vs_hci_event`, `get_vs_hci_event`).

* `readVsHciEvent` — the two functions of the source, which call each other at a stray
  event while a patch is downloaded;
* `nextPacket` — the next event in a stream of bytes, as the protocol frames it;
* `event_reads_inside_iff` — the host stays inside its buffers, but for one length of the
  build label.

A read that fails is the end of the stream: nothing is read after it.
-/
import HdxCommon.Reads

namespace Rome

/-! ### The code -/

/-- `HCI_MAX_EVENT_SIZE` -/
def hciMaxEventSize : ℕ := 260

/-- The size of `build_label`. -/
def buildLabelSize : ℕ := 255

structure EventGlobals where
  romeVer : BitVec 32
  wipowerFlag : Bool
  wipowerHandoffReady : UInt8
  /-- `persist.bluetooth.a4wp` has been set -/
  a4wp : Bool
  patchDnldPending : Bool
  /-- `dnld_fd != -1` -/
  dnldOpen : Bool
  deriving DecidableEq

/-- A stray event is followed by another read. -/
def EventGlobals.retries (g : EventGlobals) : Bool := g.patchDnldPending && g.dnldOpen

/-- What an event leaves to do: return `err`, or read another event first. -/
inductive Interpreted where
  | status (err : ℤ)
  | stray
  deriving DecidableEq

/-- `EDL_PATCH_VER_RES_EVT` and `EDL_APP_VER_RES_EVT`: the version of the chip is put
together from that of the build and that of the SoC, which old chips do not send. -/
def versionEvent (g : EventGlobals) (rsp : List UInt8) (paramlen : UInt8) :
    Option EventGlobals := do
  let _productid ← loadN rsp 5 4
  let _patchversion ← loadN rsp 9 2
  let buildVer ← loadN rsp 11 2
  let socId ← if paramlen ≠ 10 then loadN rsp 13 4 else some [0, 0, 0, 0]
  let ofBytes (bytes : List UInt8) : BitVec 32 :=
    bytes.foldr (fun b v => v <<< 8 ||| b.toBitVec.setWidth 32) 0
  return { g with romeVer := ofBytes buildVer <<< 16 ||| (ofBytes socId &&& 0x0000ffff) }

/-- `HCI_VS_GET_BUILD_VER_EVT`: the label is copied and terminated. -/
def buildLabelEvent (rsp : List UInt8) : Option (List UInt8) := do
  let buildLblLen ← load rsp 5
  let text ← loadN rsp 6 buildLblLen.toNat
  let buildLabel ← storeN (List.replicate buildLabelSize 0) 0 text
  store buildLabel buildLblLen.toNat 0

/-- `EDL_CMD_REQ_RES_EVT`, by the type of the response. -/
def commandResponse (g : EventGlobals) (rsp : List UInt8) (paramlen rspType : UInt8) :
    Option (Interpreted × EventGlobals) :=
  if rspType = 0x19 ∨ rspType = 0x02 then do
    let g ← versionEvent g rsp paramlen
    return (.status 0, g)
  else if rspType = 0x04 ∨ rspType = 0x00 then do
    let err ← load rsp 5
    return (.status err.toNat, g)
  else if rspType = 0x05 then do
    let _ ← buildLabelEvent rsp
    return (.status 0, g)
  else some (.status 0, g)

/-- `get_vs_hci_event`, up to the read behind a stray event. -/
def getVsHciEvent (g : EventGlobals) (rsp : List UInt8) : Option (Interpreted × EventGlobals) := do
  let code ← load rsp 1
  if code ≠ 0xFF ∧ code ≠ 0x0E then
    return (.status (-5), g)
  else
    let paramlen ← load rsp 2
    let cmdRsp ← load rsp 3
    let rspType ← load rsp 4
    if cmdRsp = 0x00 then commandResponse g rsp paramlen rspType
    -- `NVM_ACCESS_CODE`
    else if cmdRsp = 0x0B then return (.status 0, g)
    -- `EDL_SET_BAUDRATE_RSP_EVT`
    else if cmdRsp = 0x92 then return (.status (if rspType ≠ 1 then -1 else 0), g)
    -- `EDL_WIP_QUERY_CHARGING_STATUS_EVT`
    else if cmdRsp = 0x18 then
      return (.status 0, if rspType < 0x02 then
        { g with wipowerHandoffReady := rspType, wipowerFlag := true } else g)
    -- `EDL_WIP_START_HANDOFF_TO_HOST_EVENT`
    else if cmdRsp = 0x19 then return (.status 0, g)
    -- `HCI_VS_GET_ADDON_FEATURES_EVENT`
    else if cmdRsp = 0x1B then
      return (.status 0, if rspType &&& 0x01 ≠ 0 then { g with a4wp := true } else g)
    -- `HCI_VS_STRAY_EVT`
    else if cmdRsp = 0x17 then return (if g.retries then .stray else .status (-1), g)
    else return (.status (-1), g)

/-- Bytes are read one by one until a packet of type 0x04, an event, begins. -/
def readPacketType (src : Source) (buf : List UInt8) :
    Option (Option (List UInt8) × Source) :=
  match _h : src.read 1 with
  | none => some (none, src)
  | some (d, src') =>
    match storeN buf 0 d with
    | none => none
    | some buf' =>
      if load buf' 0 = some 0x04 then some (some buf', src') else readPacketType src' buf'
termination_by src.bytes.length
decreasing_by
  have hbytes := congrArg List.length (Source.bytes_of_read _h).1
  have hlen := (Source.bytes_of_read _h).2.1
  rw [List.length_append] at hbytes
  omega

/-- An event is read: the packet type, the event code and the length, which are checked
as they come in, and the parameters.  The result is the buffer with the number of bytes. -/
def readFrame (check : List UInt8 → Bool) (src : Source) (buf : List UInt8) :
    Option (Option (List UInt8 × ℕ) × Source) :=
  match readPacketType src buf with
  | none => none
  | some (none, src) => some (none, src)
  | some (some buf, src) =>
    match readUntil check 3 src buf 1 with
    | none => none
    | some (none, src) => some (none, src)
    | some (some buf, src) =>
      match load buf 2 with
      | none => none
      | some plen =>
        let remain := if plen.toNat < hciMaxEventSize - 3 then plen.toNat
          else hciMaxEventSize - 3
        match readUntil (fun _ => true) (3 + remain) src buf 3 with
        | none => none
        | some (none, src) => some (none, src)
        | some (some buf, src) => some (some (buf, 3 + remain), src)

def isVendor (buf : List UInt8) : Bool := load buf 1 = some 0xFF

/-- `read_hci_event`: any event will do. -/
def readHciEvent (src : Source) (buf : List UInt8) : Option (ℤ × Source) :=
  match readFrame (fun _ => true) src buf with
  | none => none
  | some (none, src) => some (-1, src)
  | some (some (_, count), src) => some (count, src)

def clearedRsp : List UInt8 := List.replicate hciMaxEventSize 0

theorem length_readPacketType_lt {src src' : Source} {buf buf' : List UInt8}
    (h : readPacketType src buf = some (some buf', src')) :
    src'.bytes.length < src.bytes.length := by
  fun_induction readPacketType src buf with
  | case1 | case2 => cases h
  | case3 src buf d src₁ hread buf₁ hstore hfound =>
    obtain ⟨hbytes, hone, -⟩ := Source.bytes_of_read hread
    cases h
    rw [hbytes, List.length_append]
    omega
  | case4 src buf d src₁ hread buf₁ hstore hother ih =>
    have hbytes := (Source.bytes_of_read hread).1
    have := ih h
    rw [hbytes, List.length_append]
    omega

theorem length_readFrame_lt {check : List UInt8 → Bool} {src src' : Source} {buf : List UInt8}
    {frame : List UInt8 × ℕ} (h : readFrame check src buf = some (some frame, src')) :
    src'.bytes.length < src.bytes.length := by
  unfold readFrame at h
  split at h
  · cases h
  · cases h
  rename_i buf₁ src₁ htype
  split at h
  · cases h
  · cases h
  rename_i buf₂ src₂ hheader
  split at h
  · cases h
  rename_i plen hplen
  dsimp only at h
  generalize (if plen.toNat < hciMaxEventSize - 3 then plen.toNat
    else hciMaxEventSize - 3) = remain at h
  split at h
  · cases h
  · cases h
  rename_i buf₃ src₃ hparams
  obtain ⟨-, rfl⟩ := Prod.mk.inj (Option.some.inj h)
  calc src₃.bytes.length ≤ src₂.bytes.length := length_readUntil_le hparams
    _ ≤ src₁.bytes.length := length_readUntil_le hheader
    _ < src.bytes.length := length_readPacketType_lt htype

/-- `read_vs_hci_event` with `get_vs_hci_event`.  What the read behind a stray event
returns is not looked at. -/
def readVsHciEvent (src : Source) (g : EventGlobals) (buf : List UInt8) :
    Option (ℤ × Source × EventGlobals) :=
  match _h : readFrame isVendor src buf with
  | none => none
  | some (none, src') => some (-1, src', g)
  | some (some (rsp, count), src') =>
    match getVsHciEvent g rsp with
    | none => none
    | some (.status err, g') => some (if err ≠ 0 then -1 else count, src', g')
    | some (.stray, g') =>
      match readVsHciEvent src' g' clearedRsp with
      | none => none
      | some (_, src'', g'') => some (count, src'', g'')
termination_by src.bytes.length
decreasing_by exact length_readFrame_lt _h

/-! ### Events in the stream -/

/-- The next event: its code, its parameters, and the bytes behind it. -/
def nextPacket (bytes : List UInt8) : Option (UInt8 × List UInt8 × List UInt8) :=
  match bytes.dropWhile (· ≠ 0x04) with
  | _ :: code :: plen :: rest =>
    if plen.toNat ≤ rest.length then
      some (code, rest.take plen.toNat, rest.drop plen.toNat)
    else none
  | _ => none

def response (buf params : List UInt8) : List UInt8 :=
  0x04 :: 0xFF :: UInt8.ofNat params.length :: params ++ buf.drop (3 + params.length)

section Frame

variable {src : Source} {buf params rest : List UInt8}

theorem nextPacket_eq_some {bytes : List UInt8} {code : UInt8}
    (h : nextPacket bytes = some (code, params, rest)) :
    bytes.dropWhile (· ≠ 0x04) = 0x04 :: code :: UInt8.ofNat params.length :: (params ++ rest) ∧
      params.length < 256 := by
  unfold nextPacket at h
  split at h
  · rename_i start code' plen tail hdrop
    split_ifs at h with hle
    simp only [Option.some.injEq, Prod.mk.injEq] at h
    obtain ⟨rfl, rfl, rfl⟩ := h
    have hstart : start = 0x04 := by
      have hhead := List.head?_dropWhile_not (· ≠ 0x04) bytes
      rw [hdrop] at hhead
      simpa using hhead
    have hlen : (tail.take plen.toNat).length = plen.toNat := by
      rw [List.length_take, min_eq_left hle]
    rw [hdrop, hstart, hlen, UInt8.ofNat_toNat, List.take_append_drop]
    exact ⟨rfl, plen.toNat_lt⟩
  · cases h

theorem length_nextPacket_lt {bytes : List UInt8} {code : UInt8}
    (h : nextPacket bytes = some (code, params, rest)) : rest.length < bytes.length := by
  have hdrop := congrArg List.length (nextPacket_eq_some h).1
  have hle := (List.dropWhile_suffix (· ≠ (0x04 : UInt8)) (l := bytes)).length_le
  simp only [List.length_cons, List.length_append] at hdrop
  omega

theorem length_response (hbuf : buf.length = hciMaxEventSize) (hlen : params.length < 256) :
    (response buf params).length = hciMaxEventSize := by
  have hmax : hciMaxEventSize = 260 := rfl
  simp only [response, List.cons_append, List.length_cons, List.length_append, List.length_drop]
  omega

theorem readPacketType_nil (h : src.bytes = []) : readPacketType src buf = some (none, src) := by
  rw [readPacketType]
  split
  · rfl
  · rename_i hread
    rw [Source.read_nil h] at hread
    cases hread

theorem readPacketType_read {b : UInt8} {src' : Source} (hread : src.read 1 = some ([b], src'))
    (hbuf : 1 ≤ buf.length) :
    readPacketType src buf =
      if b = 0x04 then some (some (filledWith buf 0 [b]), src')
      else readPacketType src' (filledWith buf 0 [b]) := by
  have hfill : 0 + [b].length ≤ buf.length := hbuf
  have hload : load (filledWith buf 0 [b]) 0 = some b := rfl
  rw [readPacketType]
  split
  · rename_i hnone
    rw [hread] at hnone
    cases hnone
  · rename_i hsome
    rw [hread] at hsome
    cases hsome
    simp only [storeN_eq_filledWith hfill, hload, Option.some.injEq]

theorem readPacketType_spec (hbuf : 1 ≤ buf.length) :
    match src.bytes.dropWhile (· ≠ 0x04) with
    | [] => ∃ src', readPacketType src buf = some (none, src')
    | _ :: rest => ∃ src', readPacketType src buf = some (some (filledWith buf 0 [0x04]), src') ∧
        src'.bytes = rest := by
  induction hn : src.bytes.length using Nat.strong_induction_on generalizing src buf with
  | _ n ih =>
    by_cases hnil : src.bytes = []
    · rw [hnil]
      exact ⟨src, readPacketType_nil hnil⟩
    obtain ⟨d, src', hread, hbytes, hone, hmost⟩ := Source.read_spec hnil one_ne_zero
    obtain ⟨b, rfl⟩ := List.length_eq_one_iff.mp (le_antisymm hmost hone)
    rw [readPacketType_read hread hbuf]
    by_cases hb : b = 0x04
    · subst hb
      rw [hbytes]
      exact ⟨src', rfl, rfl⟩
    · have hlen : src'.bytes.length < n := by
        rw [← hn, hbytes, List.length_append]
        exact Nat.lt_add_of_pos_left Nat.one_pos
      have hfill : 0 + [b].length ≤ buf.length := hbuf
      have hdrop : src.bytes.dropWhile (· ≠ 0x04) = src'.bytes.dropWhile (· ≠ 0x04) := by
        rw [hbytes, List.singleton_append, List.dropWhile_cons_of_pos (by simpa using hb)]
      have hrest := @ih _ hlen src' (filledWith buf 0 [b])
        (by rw [length_filledWith hfill]; exact hbuf) rfl
      -- the byte that was skipped is overwritten
      have hover : filledWith (filledWith buf 0 [b]) 0 [0x04] = filledWith buf 0 [0x04] := rfl
      rw [hover] at hrest
      rw [hdrop, if_neg hb]
      exact hrest

theorem readHeader {tail : List UInt8} (hbuf : buf.length = hciMaxEventSize)
    (hbytes : src.bytes = 0xFF :: tail) :
    match tail with
    | [] => ∃ src', readUntil isVendor 3 src
        (filledWith buf 0 [0x04]) 1 = some (none, src')
    | plen :: rest => ∃ src', readUntil isVendor 3 src
        (filledWith buf 0 [0x04]) 1 = some (some (filledWith buf 0 [0x04, 0xFF, plen]), src') ∧
          src'.bytes = rest := by
  have hmax : hciMaxEventSize = 260 := rfl
  have hfill : 0 + [(0x04 : UInt8)].length ≤ buf.length := by
    rw [List.length_singleton]
    omega
  have hlen := length_filledWith hfill
  have hspec := @readUntil_spec isVendor 3 1 src
    (filledWith buf 0 [0x04]) (by decide) (by omega) (fun k hk _ _ => by
      obtain ⟨k, rfl⟩ := Nat.exists_eq_add_of_le' hk
      rw [hbytes, List.take_succ_cons, isVendor, load_filledWith_self (by omega)]
      rfl)
  cases tail with
  | nil =>
    rw [hbytes, if_neg (by decide)] at hspec
    exact hspec
  | cons plen rest =>
    rw [hbytes, if_pos (by rw [List.length_cons, List.length_cons]; omega)] at hspec
    obtain ⟨src', hread, hrest⟩ := hspec
    have htwo := @filledWith_filledWith 0 buf [0x04] [0xFF, plen] hfill
    exact ⟨src', hread.trans (congrArg (fun buf => some (some buf, src')) htwo), hrest⟩

theorem readParams {plen : UInt8} (hbuf : buf.length = hciMaxEventSize) :
    if plen.toNat ≤ src.bytes.length then
      ∃ src', readUntil (fun _ => true) (3 + plen.toNat) src
          (filledWith buf 0 [0x04, 0xFF, plen]) 3 =
        some (some (response buf (src.bytes.take plen.toNat)), src') ∧
        src'.bytes = src.bytes.drop plen.toNat
    else ∃ src', readUntil (fun _ => true) (3 + plen.toNat) src
        (filledWith buf 0 [0x04, 0xFF, plen]) 3 = some (none, src') := by
  have hmax : hciMaxEventSize = 260 := rfl
  have hplen := plen.toNat_lt
  have hfill : 0 + [0x04, 0xFF, plen].length ≤ buf.length := by
    simp only [List.length_cons, List.length_nil]
    omega
  have hspec := @readUntil_spec (fun _ => true) (3 + plen.toNat) 3 src
    (filledWith buf 0 [0x04, 0xFF, plen]) (Nat.le_add_right _ _)
    (by rw [length_filledWith hfill]; omega) (fun _ _ _ _ => rfl)
  rw [Nat.add_sub_cancel_left] at hspec
  split_ifs at hspec ⊢ with hle
  · obtain ⟨src', hread, hrest⟩ := hspec
    have hlen : (src.bytes.take plen.toNat).length = plen.toNat := by
      rw [List.length_take, min_eq_left hle]
    have hrsp : filledWith (filledWith buf 0 [0x04, 0xFF, plen]) 3 (src.bytes.take plen.toNat) =
        response buf (src.bytes.take plen.toNat) := by
      refine (filledWith_filledWith hfill).trans ?_
      rw [response, filledWith, hlen, UInt8.ofNat_toNat, List.length_append, hlen, Nat.zero_add]
      rfl
    rw [hrsp] at hread
    exact ⟨src', hread, hrest⟩
  · exact hspec

theorem remain_eq (plen : UInt8) :
    (if plen.toNat < hciMaxEventSize - 3 then plen.toNat else hciMaxEventSize - 3) =
      plen.toNat := by
  have hplen := plen.toNat_lt
  have hmax : hciMaxEventSize = 260 := rfl
  exact if_pos (by omega)

/-- **A vendor event is read** as the protocol frames it. -/
theorem readFrame_event (hbuf : buf.length = hciMaxEventSize)
    (h : nextPacket src.bytes = some (0xFF, params, rest)) :
    ∃ src', readFrame isVendor src buf =
        some (some (response buf params, 3 + params.length), src') ∧ src'.bytes = rest := by
  have hmax : hciMaxEventSize = 260 := rfl
  obtain ⟨hdrop, hlen⟩ := nextPacket_eq_some h
  have hplen : (UInt8.ofNat params.length).toNat = params.length := by
    rw [UInt8.toNat_ofNat', Nat.mod_eq_of_lt hlen]
  have htype := @readPacketType_spec src buf (by omega)
  rw [hdrop] at htype
  obtain ⟨src₁, htype, hbytes₁⟩ := htype
  obtain ⟨src₂, hheader, hbytes₂⟩ := readHeader hbuf hbytes₁
  have hparams := @readParams src₂ buf (UInt8.ofNat params.length) hbuf
  rw [hbytes₂, hplen, if_pos (by rw [List.length_append]; omega), List.take_left,
    List.drop_left] at hparams
  obtain ⟨src₃, hparams, hbytes₃⟩ := hparams
  have hload : load (filledWith buf 0 [0x04, 0xFF, UInt8.ofNat params.length]) 2 =
    some (UInt8.ofNat params.length) := rfl
  have hremain := remain_eq (UInt8.ofNat params.length)
  rw [hplen] at hremain
  refine ⟨src₃, ?_, hbytes₃⟩
  simp only [readFrame, htype, hheader, hload, hplen, hremain, hparams]

theorem readFrame_none (hbuf : buf.length = hciMaxEventSize)
    (h : ∀ params rest, nextPacket src.bytes ≠ some (0xFF, params, rest)) :
    ∃ src', readFrame isVendor src buf = some (none, src') := by
  have hmax : hciMaxEventSize = 260 := rfl
  have hfill : 0 + [(0x04 : UInt8)].length ≤ buf.length := by
    rw [List.length_singleton]
    omega
  have hlen := length_filledWith hfill
  have htype := @readPacketType_spec src buf (by omega)
  unfold nextPacket at h
  cases hdrop : src.bytes.dropWhile (· ≠ 0x04) with
  | nil =>
    rw [hdrop] at htype
    obtain ⟨src₁, htype⟩ := htype
    exact ⟨src₁, by simp only [readFrame, htype]⟩
  | cons start tail =>
    rw [hdrop] at htype
    obtain ⟨src₁, htype, rfl⟩ := htype
    -- the header is refused, or it is not complete
    by_cases hcode : src₁.bytes.head? = some 0xFF
    swap
    · obtain ⟨src₂, hheader⟩ := @readUntil_refused isVendor 3 1 src₁
        (filledWith buf 0 [0x04]) (by decide) (by omega) (fun k hk hkl => by
          obtain ⟨code, tail, hbytes⟩ := List.exists_cons_of_length_pos (hk.trans hkl)
          obtain ⟨k, rfl⟩ := Nat.exists_eq_add_of_le' hk
          rw [hbytes, List.take_succ_cons, isVendor, load_filledWith_self (by omega),
            decide_eq_false_iff_not]
          rwa [hbytes] at hcode)
      exact ⟨src₂, by simp only [readFrame, htype, hheader]⟩
    obtain ⟨tail, hbytes⟩ := List.head?_eq_some_iff.mp hcode
    cases tail with
    | nil =>
      obtain ⟨src₂, hheader⟩ := readHeader hbuf hbytes
      exact ⟨src₂, by simp only [readFrame, htype, hheader]⟩
    | cons plen tail =>
      obtain ⟨src₂, hheader, hbytes₂⟩ := readHeader hbuf hbytes
      have hshort : ¬ plen.toNat ≤ src₂.bytes.length := by
        intro hle
        rw [hdrop, hbytes, ← hbytes₂] at h
        exact h _ _ (if_pos hle)
      have hparams := @readParams src₂ buf plen hbuf
      rw [if_neg hshort] at hparams
      obtain ⟨src₃, hparams⟩ := hparams
      have hload : load (filledWith buf 0 [0x04, 0xFF, plen]) 2 = some plen := rfl
      exact ⟨src₃, by simp only [readFrame, htype, hheader, hload, remain_eq, hparams]⟩

end Frame

/-! ### What an event says -/

/-- The verdict on an event, from its first three parameters. -/
def verdict (retries : Bool) (cmdRsp rspType status : UInt8) : Interpreted :=
  if cmdRsp = 0x00 then
    .status (if rspType = 0x04 ∨ rspType = 0x00 then (status.toNat : ℤ) else 0)
  else if cmdRsp = 0x0B then .status 0
  else if cmdRsp = 0x92 then .status (if rspType ≠ 1 then -1 else 0)
  else if cmdRsp = 0x18 ∨ cmdRsp = 0x19 ∨ cmdRsp = 0x1B then .status 0
  else if cmdRsp = 0x17 ∧ retries = true then .stray
  else .status (-1)

/-- The build label has 255 bytes: neither the event nor the array has room for its end. -/
def LabelOverrun (rsp : List UInt8) : Prop :=
  rsp.getD 3 0 = 0x00 ∧ rsp.getD 4 0 = 0x05 ∧ rsp.getD 5 0 = 0xFF

instance (rsp : List UInt8) : Decidable (LabelOverrun rsp) :=
  inferInstanceAs (Decidable (_ ∧ _ ∧ _))

theorem verdict_eq_stray {retries : Bool} {cmdRsp rspType status : UInt8} :
    verdict retries cmdRsp rspType status = .stray ↔ cmdRsp = 0x17 ∧ retries = true := by
  unfold verdict
  constructor
  · intro h
    split_ifs at h with _ _ _ _ hstray
    exact hstray
  · rintro ⟨rfl, rfl⟩
    rfl

section Interpret

variable {g : EventGlobals} {rsp : List UInt8}

theorem load_eq_getD {k : ℕ} (hk : k < rsp.length) : load rsp k = some (rsp.getD k 0) := by
  rw [load, List.getD_eq_getElem?_getD, List.getElem?_eq_getElem hk, Option.getD_some]

theorem versionEvent_spec (hlen : rsp.length = hciMaxEventSize) (paramlen : UInt8) :
    ∃ v, versionEvent g rsp paramlen = some { g with romeVer := v } := by
  have hmax : hciMaxEventSize = 260 := rfl
  have hin : ∀ i n, i + n ≤ 20 → loadN rsp i n = some ((rsp.drop i).take n) := fun i n h =>
    loadN_eq (by omega)
  unfold versionEvent
  rw [hin 5 4 (by decide), hin 9 2 (by decide), hin 11 2 (by decide), hin 13 4 (by decide)]
  split_ifs
  · exact ⟨_, rfl⟩
  · exact ⟨_, rfl⟩

/-- The label is copied inside both buffers exactly if it is shorter than 255 bytes. -/
theorem isSome_buildLabelEvent_iff (hlen : rsp.length = hciMaxEventSize) :
    (buildLabelEvent rsp).isSome = true ↔ rsp.getD 5 0 ≠ 0xFF := by
  have hmax : hciMaxEventSize = 260 := rfl
  have hsize : buildLabelSize = 255 := rfl
  have hfull : rsp.getD 5 0 = 0xFF ↔ (rsp.getD 5 0).toNat = 255 := UInt8.toNat_inj.symm
  have hle := (rsp.getD 5 0).toNat_lt
  unfold buildLabelEvent
  rw [load_eq_getD (by omega), Option.bind_eq_bind, Option.bind_some, ne_eq, hfull]
  generalize (rsp.getD 5 0).toNat = n at hle ⊢
  constructor
  · rintro h rfl
    -- the text would end behind the response
    rw [show loadN rsp 6 255 = none from if_neg (by omega)] at h
    cases h
  · intro hn
    refine isSome_loadN_bind (by omega) fun text htext => ?_
    refine isSome_storeN_bind (by rw [List.length_replicate]; omega) fun label hlabel => ?_
    rw [isSome_store, hlabel, List.length_replicate]
    omega

theorem commandResponse_overrun (hlen : rsp.length = hciMaxEventSize)
    (hover : LabelOverrun rsp) (paramlen : UInt8) :
    commandResponse g rsp paramlen (rsp.getD 4 0) = none := by
  have hnone : buildLabelEvent rsp = none := by
    rw [← Option.not_isSome_iff_eq_none, isSome_buildLabelEvent_iff hlen]
    exact fun h => h hover.2.2
  rw [hover.2.1, commandResponse, if_neg (by decide), if_neg (by decide), if_pos rfl, hnone]
  rfl

theorem commandResponse_spec (hlen : rsp.length = hciMaxEventSize) (hcmd : rsp.getD 3 0 = 0x00)
    (hover : ¬ LabelOverrun rsp) (paramlen : UInt8) :
    ∃ g', commandResponse g rsp paramlen (rsp.getD 4 0) =
      some (verdict g.retries 0x00 (rsp.getD 4 0) (rsp.getD 5 0), g') ∧
      g'.retries = g.retries := by
  have hmax : hciMaxEventSize = 260 := rfl
  have hstatus := @load_eq_getD rsp 5 (by omega)
  obtain ⟨v, hversion⟩ := @versionEvent_spec g rsp hlen paramlen
  rw [commandResponse, verdict, if_pos rfl, hversion, hstatus]
  have hlabel : rsp.getD 4 0 = 0x05 → ∃ label, buildLabelEvent rsp = some label := fun htype =>
    Option.isSome_iff_exists.mp ((isSome_buildLabelEvent_iff hlen).mpr fun hfull =>
      hover ⟨hcmd, htype, hfull⟩)
  generalize rsp.getD 4 0 = rspType at hlabel ⊢
  by_cases hver : rspType = 0x19 ∨ rspType = 0x02
  · have hexe : ¬ (rspType = 0x04 ∨ rspType = 0x00) := by
      rcases hver with rfl | rfl <;> decide
    rw [if_pos hver, if_neg hexe]
    exact ⟨_, rfl, rfl⟩
  rw [if_neg hver]
  by_cases hexe : rspType = 0x04 ∨ rspType = 0x00
  · rw [if_pos hexe, if_pos hexe]
    exact ⟨g, rfl, rfl⟩
  rw [if_neg hexe, if_neg hexe]
  split_ifs with htype
  · obtain ⟨label, hlabel⟩ := hlabel htype
    rw [hlabel]
    exact ⟨g, rfl, rfl⟩
  · exact ⟨g, rfl, rfl⟩

theorem getVsHciEvent_eq (hlen : rsp.length = hciMaxEventSize) (hcode : rsp.getD 1 0 = 0xFF)
    (hcmd : rsp.getD 3 0 = 0x00) :
    getVsHciEvent g rsp = commandResponse g rsp (rsp.getD 2 0) (rsp.getD 4 0) := by
  have hmax : hciMaxEventSize = 260 := rfl
  have hload : ∀ k, k ≤ 4 → load rsp k = some (rsp.getD k 0) := fun k hk =>
    load_eq_getD (by omega)
  simp only [getVsHciEvent, hload 1 (by decide), hload 2 (by decide), hload 3 (by decide),
    hload 4 (by decide), hcode, hcmd, Option.bind_eq_bind, Option.bind_some]
  rfl

theorem getVsHciEvent_other (hlen : rsp.length = hciMaxEventSize) (hcode : rsp.getD 1 0 = 0xFF)
    (hcmd : rsp.getD 3 0 ≠ 0x00) :
    ∃ g', getVsHciEvent g rsp =
      some (verdict g.retries (rsp.getD 3 0) (rsp.getD 4 0) (rsp.getD 5 0), g') ∧
      g'.retries = g.retries := by
  have hmax : hciMaxEventSize = 260 := rfl
  have hload : ∀ k, k ≤ 4 → load rsp k = some (rsp.getD k 0) := fun k hk =>
    load_eq_getD (by omega)
  simp only [getVsHciEvent, hload 1 (by decide), hload 2 (by decide), hload 3 (by decide),
    hload 4 (by decide), hcode, Option.bind_eq_bind, Option.bind_some]
  generalize rsp.getD 3 0 = cmdRsp at hcmd ⊢
  generalize rsp.getD 4 0 = rspType
  rw [if_neg (by decide), if_neg hcmd, verdict, if_neg hcmd]
  by_cases hnvm : cmdRsp = 0x0B
  · rw [if_pos hnvm, if_pos hnvm]
    exact ⟨g, rfl, rfl⟩
  rw [if_neg hnvm, if_neg hnvm]
  by_cases hbaud : cmdRsp = 0x92
  · rw [if_pos hbaud, if_pos hbaud]
    exact ⟨g, rfl, rfl⟩
  rw [if_neg hbaud, if_neg hbaud]
  by_cases hquery : cmdRsp = 0x18
  · have hknown : cmdRsp = 0x18 ∨ cmdRsp = 0x19 ∨ cmdRsp = 0x1B := .inl hquery
    rw [if_pos hquery, if_pos hknown]
    refine ⟨_, rfl, ?_⟩
    split_ifs <;> rfl
  rw [if_neg hquery]
  by_cases hhandoff : cmdRsp = 0x19
  · have hknown : cmdRsp = 0x18 ∨ cmdRsp = 0x19 ∨ cmdRsp = 0x1B := .inr (.inl hhandoff)
    rw [if_pos hhandoff, if_pos hknown]
    exact ⟨g, rfl, rfl⟩
  rw [if_neg hhandoff]
  by_cases haddon : cmdRsp = 0x1B
  · have hknown : cmdRsp = 0x18 ∨ cmdRsp = 0x19 ∨ cmdRsp = 0x1B := .inr (.inr haddon)
    rw [if_pos haddon, if_pos hknown]
    refine ⟨_, rfl, ?_⟩
    split_ifs <;> rfl
  have hunknown : ¬ (cmdRsp = 0x18 ∨ cmdRsp = 0x19 ∨ cmdRsp = 0x1B) := by
    simp only [hquery, hhandoff, haddon, or_self, not_false_eq_true]
  rw [if_neg haddon, if_neg hunknown]
  by_cases hstray : cmdRsp = 0x17
  · simp only [hstray, if_true, true_and]
    exact ⟨g, rfl, rfl⟩
  · rw [if_neg hstray, if_neg fun h => hstray h.1]
    exact ⟨g, rfl, rfl⟩

theorem getVsHciEvent_overrun (hlen : rsp.length = hciMaxEventSize)
    (hcode : rsp.getD 1 0 = 0xFF) (hover : LabelOverrun rsp) : getVsHciEvent g rsp = none := by
  rw [getVsHciEvent_eq hlen hcode hover.1, commandResponse_overrun hlen hover]

/-- **The interpretation of a vendor event**: its verdict is that of its first parameters,
and stray events go on being read. -/
theorem getVsHciEvent_spec (hlen : rsp.length = hciMaxEventSize) (hcode : rsp.getD 1 0 = 0xFF)
    (hover : ¬ LabelOverrun rsp) :
    ∃ g', getVsHciEvent g rsp =
      some (verdict g.retries (rsp.getD 3 0) (rsp.getD 4 0) (rsp.getD 5 0), g') ∧
      g'.retries = g.retries := by
  by_cases hcmd : rsp.getD 3 0 = 0x00
  · rw [getVsHciEvent_eq hlen hcode hcmd, hcmd]
    exact commandResponse_spec hlen hcmd hover _
  · exact getVsHciEvent_other hlen hcode hcmd

end Interpret

section Reading

variable {src : Source} {g : EventGlobals} {buf params rest : List UInt8}

theorem readVsHciEvent_none (hbuf : buf.length = hciMaxEventSize)
    (h : ∀ params rest, nextPacket src.bytes ≠ some (0xFF, params, rest)) :
    ∃ src', readVsHciEvent src g buf = some (-1, src', g) := by
  obtain ⟨src', hframe⟩ := readFrame_none hbuf h
  refine ⟨src', ?_⟩
  rw [readVsHciEvent]
  split
  · rename_i hnone
    rw [hframe] at hnone
    cases hnone
  · rename_i hsome
    rw [hframe] at hsome
    cases hsome
    rfl
  · rename_i hsome
    rw [hframe] at hsome
    cases hsome

theorem readVsHciEvent_event (hbuf : buf.length = hciMaxEventSize)
    (h : nextPacket src.bytes = some (0xFF, params, rest)) :
    ∃ src', src'.bytes = rest ∧ readVsHciEvent src g buf =
      match getVsHciEvent g (response buf params) with
      | none => none
      | some (.status err, g') =>
        some (if err ≠ 0 then -1 else ((3 + params.length : ℕ) : ℤ), src', g')
      | some (.stray, g') =>
        match readVsHciEvent src' g' clearedRsp with
        | none => none
        | some (_, src'', g'') => some (((3 + params.length : ℕ) : ℤ), src'', g'') := by
  obtain ⟨src', hframe, hrest⟩ := readFrame_event hbuf h
  refine ⟨src', hrest, ?_⟩
  rw [readVsHciEvent]
  split
  · rename_i hnone
    rw [hframe] at hnone
    cases hnone
  · rename_i hsome
    rw [hframe] at hsome
    cases hsome
  · rename_i hsome
    rw [hframe] at hsome
    cases hsome
    rfl

theorem getD_response_clearedRsp (k : ℕ) :
    (response clearedRsp params).getD (k + 3) 0 = params.getD k 0 := by
  simp only [response, clearedRsp, List.drop_replicate, List.cons_append,
    List.getD_eq_getElem?_getD, List.getElem?_cons_succ]
  by_cases hk : k < params.length
  · rw [List.getElem?_append_left hk]
  · rw [List.getElem?_append_right (by omega), List.getElem?_replicate,
      List.getElem?_eq_none (by omega : params.length ≤ k)]
    split_ifs <;> rfl

theorem length_clearedRsp : clearedRsp.length = hciMaxEventSize := List.length_replicate

theorem readVsHciEvent_status {err : ℤ} (hbuf : buf.length = hciMaxEventSize)
    (h : nextPacket src.bytes = some (0xFF, params, rest))
    (hover : ¬ LabelOverrun (response buf params))
    (hverdict : verdict g.retries ((response buf params).getD 3 0)
      ((response buf params).getD 4 0) ((response buf params).getD 5 0) = .status err) :
    ∃ src' g', readVsHciEvent src g buf =
      some (if err ≠ 0 then -1 else ((3 + params.length : ℕ) : ℤ), src', g') := by
  have hlen := length_response hbuf (nextPacket_eq_some h).2
  obtain ⟨src', -, hread⟩ := @readVsHciEvent_event src g buf params rest hbuf h
  obtain ⟨g', hevent, -⟩ := @getVsHciEvent_spec g (response buf params) hlen rfl hover
  rw [hevent, hverdict] at hread
  exact ⟨src', g', hread⟩

/-- Behind a stray event, whatever the next read gives, the result is the size of the stray
event. -/
theorem readVsHciEvent_stray (hbuf : buf.length = hciMaxEventSize)
    (h : nextPacket src.bytes = some (0xFF, params, rest)) (hretries : g.retries = true)
    (hstray : (response buf params).getD 3 0 = 0x17) :
    ∃ src' g', src'.bytes = rest ∧ g'.retries = true ∧ readVsHciEvent src g buf =
      (readVsHciEvent src' g' clearedRsp).map fun r =>
        (((3 + params.length : ℕ) : ℤ), r.2.1, r.2.2) := by
  have hlen := length_response hbuf (nextPacket_eq_some h).2
  have hover : ¬ LabelOverrun (response buf params) := by
    intro hover
    rw [LabelOverrun, hstray] at hover
    exact absurd hover.1 (by decide)
  obtain ⟨src', hrest, hread⟩ := @readVsHciEvent_event src g buf params rest hbuf h
  obtain ⟨g', hevent, hg'⟩ := @getVsHciEvent_spec g (response buf params) hlen rfl hover
  rw [hevent, verdict_eq_stray.mpr ⟨hstray, hretries⟩] at hread
  refine ⟨src', g', hrest, hg'.trans hretries, hread.trans ?_⟩
  dsimp only
  cases readVsHciEvent src' g' clearedRsp <;> rfl

end Reading

/-! ### Inside the buffers -/

/-- The responses that are interpreted, one after the other: behind a stray event another
is read, into a cleared buffer. -/
def responses (retries : Bool) (bytes buf : List UInt8) : List (List UInt8) :=
  match _h : nextPacket bytes with
  | none => []
  | some (code, params, rest) =>
    if code ≠ 0xFF then []
    else response buf params ::
      if (response buf params).getD 3 0 = 0x17 ∧ retries = true then
        responses retries rest clearedRsp
      else []
termination_by bytes.length
decreasing_by exact length_nextPacket_lt _h

theorem responses_none {retries : Bool} {bytes buf : List UInt8}
    (h : ∀ params rest, nextPacket bytes ≠ some (0xFF, params, rest)) :
    responses retries bytes buf = [] := by
  rw [responses]
  split
  · rfl
  · rename_i code params rest hsome
    refine if_pos ?_
    rintro rfl
    exact h params rest hsome

theorem responses_event {retries : Bool} {bytes buf params rest : List UInt8}
    (h : nextPacket bytes = some (0xFF, params, rest)) :
    responses retries bytes buf = response buf params ::
      if (response buf params).getD 3 0 = 0x17 ∧ retries = true then
        responses retries rest clearedRsp
      else [] := by
  rw [responses]
  split
  · rename_i hnone
    rw [h] at hnone
    cases hnone
  · rename_i hsome
    rw [h] at hsome
    cases hsome
    exact if_neg (by decide)

theorem isSome_readVsHciEvent_iff {src : Source} {g : EventGlobals} {buf : List UInt8}
    (hbuf : buf.length = hciMaxEventSize) :
    (readVsHciEvent src g buf).isSome = true ↔
      ∀ rsp ∈ responses g.retries src.bytes buf, ¬ LabelOverrun rsp := by
  induction hn : src.bytes.length using Nat.strong_induction_on generalizing src g buf with
  | _ n ih =>
    by_cases hevent : ∃ params rest, nextPacket src.bytes = some (0xFF, params, rest)
    swap
    · have hnone : ∀ params rest, nextPacket src.bytes ≠ some (0xFF, params, rest) :=
        fun params rest h => hevent ⟨params, rest, h⟩
      obtain ⟨src', hread⟩ := @readVsHciEvent_none src g buf hbuf hnone
      rw [hread, responses_none hnone]
      simp
    obtain ⟨params, rest, hnext⟩ := hevent
    have hlen := length_response hbuf (nextPacket_eq_some hnext).2
    rw [responses_event hnext, List.forall_mem_cons]
    by_cases hover : LabelOverrun (response buf params)
    · obtain ⟨src', -, hread⟩ := @readVsHciEvent_event src g buf params rest hbuf hnext
      rw [hread, getVsHciEvent_overrun hlen rfl hover]
      simp [hover]
    by_cases hstray : (response buf params).getD 3 0 = 0x17 ∧ g.retries = true
    · -- the nested read is inside by induction
      obtain ⟨src', g', hrest, hg', hread⟩ := readVsHciEvent_stray hbuf hnext hstray.2 hstray.1
      have hlt : src'.bytes.length < n := by
        rw [hrest, ← hn]
        exact length_nextPacket_lt hnext
      rw [if_pos hstray, hread, Option.isSome_map, ih _ hlt length_clearedRsp rfl, hrest, hg',
        hstray.2]
      exact (and_iff_right hover).symm
    · obtain ⟨err, herr⟩ : ∃ err, verdict g.retries ((response buf params).getD 3 0)
          ((response buf params).getD 4 0) ((response buf params).getD 5 0) = .status err := by
        cases hv : verdict g.retries ((response buf params).getD 3 0)
            ((response buf params).getD 4 0) ((response buf params).getD 5 0) with
        | status err => exact ⟨err, rfl⟩
        | stray => exact absurd (verdict_eq_stray.mp hv) hstray
      obtain ⟨src', g', hread⟩ := readVsHciEvent_status hbuf hnext hover herr
      rw [if_neg hstray, hread]
      simp [hover]

/-- **Events stay inside the buffers** exactly if none of those that are interpreted is a
build label of 255 bytes, however the stream is split. -/
theorem event_reads_inside_iff (src : Source) (g : EventGlobals) (buf : Vector UInt8 260) :
    (readVsHciEvent src g buf.toList).isSome = true ↔
      ∀ rsp ∈ responses g.retries src.bytes buf.toList, ¬ LabelOverrun rsp :=
  isSome_readVsHciEvent_iff Vector.length_toList

/-- A label length of 255 in an event of three bytes: the copy ends one byte behind the
response, and the terminator is stored one behind the label. -/
theorem build_label_overrun :
    readVsHciEvent ⟨[0x04, 0xFF, 0x03, 0x00, 0x05, 0xFF], fun _ => 1⟩
      ⟨0, false, 0, false, false, false⟩ (Vector.replicate 260 0).toList = none := by
  have hbuf : (Vector.replicate 260 (0 : UInt8)).toList.length = hciMaxEventSize :=
    Vector.length_toList
  rw [← Option.not_isSome_iff_eq_none, isSome_readVsHciEvent_iff hbuf,
    responses_event (show nextPacket _ = some (0xFF, [0x00, 0x05, 0xFF], []) from rfl)]
  exact fun h => h _ List.mem_cons_self ⟨rfl, rfl, rfl⟩

end Rome

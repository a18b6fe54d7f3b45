/-
How commands go to the Rome controller and how the answer to a segment is judged
(`do_write`, `hci_send_vs_cmd`, `rome_tlv_dnld_segment`).

* `complete_writes_iff` — a command arrives unaltered under a pattern of short writes
  exactly if there are at most two writes;
* `sendTlvSegment` — a segment that waits for a vendor event, over a stream of bytes from
  the controller;
* `no_false_success_iff` — the streams under which a segment is reported as downloaded
  only if the controller has said so.
-/
import HdxCommon.RomeEvents
import HdxCommon.TlvDownload

namespace Rome

/-! ### The code -/

/-- The loop of `do_write` from write `k` on; `ret k` is what that write returns.  The
result is what the function returns, and the bytes that the device accepts. -/
def doWriteFrom (ret : ℕ → ℤ) (buf : List UInt8) (len k writeOffset writeLen : ℕ) :
    ℤ × List UInt8 :=
  if ret k < 0 then (-1, [])
  else if ret k = 0 then (0, [])
  else
    let accepted := (buf.drop writeOffset).take (ret k).toNat
    if ret k < writeLen then
      -- `write_offset = ret`: the offset does not add up
      let (r, later) := doWriteFrom ret buf len (k + 1) (ret k).toNat (writeLen - (ret k).toNat)
      (r, accepted ++ later)
    else (len, accepted)
termination_by writeLen
decreasing_by omega

def doWrite (ret : ℕ → ℤ) (buf : List UInt8) (len : ℕ) : ℤ × List UInt8 :=
  doWriteFrom ret buf len 0 0 len

/-- `hci_send_wipower_vs_cmd`: the command complete event behind it is read, but what
comes of that is not returned. -/
def hciSendWipowerVsCmd (ret : ℕ → ℤ) (cmd rsp : List UInt8) (size : ℕ) (src : Source) :
    List UInt8 × Option (ℤ × Source) :=
  let (r, accepted) := doWrite ret cmd size
  (accepted,
    if r ≠ size then some (r, src)
    else (readHciEvent src rsp).map fun event => (r, event.2))

/-- `hci_send_vs_cmd`: the bytes that the device accepts, and what is returned. -/
def hciSendVsCmd (ret : ℕ → ℤ) (waitVscEvt : Bool) (cmd rsp : List UInt8) (size : ℕ)
    (src : Source) (g : EventGlobals) : List UInt8 × Option (ℤ × Source × EventGlobals) :=
  let (r, accepted) := doWrite ret cmd size
  (accepted,
    if r ≠ size then some (r, src, g)
    else if waitVscEvt then
      (readVsHciEvent src g rsp).map fun event =>
        (if event.1 < 0 then -110 else r, event.2)
    else some (r, src, g))

/-- `rome_tlv_dnld_segment`, while `wait_vsc_evt` is set.  The buffer of the second event
need not be what the first has left: it is overwritten before it is read. -/
def sendTlvSegment (ret : ℕ → ℤ) (waitCcEvt : Bool) (pdataBuffer : List UInt8)
    (index segSize : ℕ) (src : Source) (g : EventGlobals) : Option ℤ := do
  let cmd ← frameHciCmdPkt [] pdataBuffer cmdBuffer .patchTlvReq 0 index segSize
  let plen ← load cmd 3
  let size := 1 + 3 + plen.toNat
  let (err, src, _) ← (hciSendVsCmd ret true cmd clearedRsp size src g).2
  if err ≠ size then return err
  else if waitCcEvt then (readHciEvent src clearedRsp).map Prod.fst
  else return err

/-! ### Short writes -/

/-- What write `k` is asked to write. -/
def requested (ret : ℕ → ℤ) (len k : ℕ) : ℤ := len - ∑ j ∈ Finset.range k, ret j

/-- Each write that is made accepts one byte at least, and no more than it is asked to. -/
def ShortWrites (ret : ℕ → ℤ) (len : ℕ) : Prop :=
  ∀ k, k = 0 ∨ 0 < requested ret len k → 1 ≤ ret k ∧ ret k ≤ requested ret len k

/-- The first write accepts all, or the second accepts the rest. -/
def AtMostTwoWrites (ret : ℕ → ℤ) (len : ℕ) : Prop := ret 0 = len ∨ ret 0 + ret 1 = len

section Writes

variable {ret : ℕ → ℤ} {buf : List UInt8} {len k offset writeLen : ℕ}

theorem doWriteFrom_short (hpos : 1 ≤ ret k) (hlt : ret k < writeLen) :
    doWriteFrom ret buf len k offset writeLen =
      ((doWriteFrom ret buf len (k + 1) (ret k).toNat (writeLen - (ret k).toNat)).1,
        (buf.drop offset).take (ret k).toNat ++
          (doWriteFrom ret buf len (k + 1) (ret k).toNat (writeLen - (ret k).toNat)).2) := by
  rw [doWriteFrom, if_neg (by omega), if_neg (by omega)]
  exact if_pos hlt

theorem doWriteFrom_whole (hpos : 1 ≤ ret k) (hle : writeLen ≤ ret k) :
    doWriteFrom ret buf len k offset writeLen =
      ((len : ℤ), (buf.drop offset).take (ret k).toNat) := by
  rw [doWriteFrom, if_neg (by omega), if_neg (by omega)]
  exact if_neg (by omega)

theorem requested_zero : requested ret len 0 = len := by
  rw [requested, Finset.sum_range_zero, sub_zero]

theorem requested_succ : requested ret len (k + 1) = requested ret len k - ret k := by
  rw [requested, requested, Finset.sum_range_succ, sub_sub]

/-- **The loop ends and returns the length**, whatever the pattern of short writes. -/
theorem doWriteFrom_returns (hshort : ShortWrites ret len) (hk : k = 0 ∨ 0 < writeLen)
    (hreq : requested ret len k = writeLen) :
    (doWriteFrom ret buf len k offset writeLen).1 = len := by
  induction hn : writeLen using Nat.strong_induction_on generalizing k offset writeLen with
  | _ n ih =>
    subst hn
    obtain ⟨hpos, hmost⟩ := hshort k (by omega)
    by_cases hlt : ret k < writeLen
    · rw [doWriteFrom_short hpos hlt]
      exact ih (writeLen - (ret k).toNat) (by omega) (.inr (by omega))
        (by rw [requested_succ, hreq]; omega) rfl
    · rw [doWriteFrom_whole hpos (by omega)]

theorem doWrite_returns (hshort : ShortWrites ret len) : (doWrite ret buf len).1 = len :=
  doWriteFrom_returns hshort (.inl rfl) requested_zero

theorem doWrite_of_atMostTwo (hshort : ShortWrites ret len) (htwo : AtMostTwoWrites ret len) :
    doWrite ret buf len = ((len : ℤ), buf.take len) := by
  obtain ⟨hpos, hmost⟩ := hshort 0 (.inl rfl)
  rw [requested_zero] at hmost
  rw [doWrite]
  by_cases hlt : ret 0 < len
  · have hsecond : ret 0 + ret 1 = len := htwo.resolve_left (by omega)
    have hrest := @doWriteFrom_whole ret buf len 1 (ret 0).toNat (len - (ret 0).toNat)
      (by omega) (by omega)
    have hsum : (ret 0).toNat + (ret 1).toNat = len := by omega
    rw [doWriteFrom_short hpos hlt, hrest, List.drop_zero, ← List.take_add, hsum]
  · rw [doWriteFrom_whole hpos (by omega), List.drop_zero]
    congr 2
    omega

/-- What a write accepts first is the byte at its offset. -/
theorem head?_doWriteFrom (hpos : 1 ≤ ret k) (hin : offset < buf.length) :
    (doWriteFrom ret buf len k offset writeLen).2.head? = buf[offset]? := by
  have htake : ((buf.drop offset).take (ret k).toNat).head? = buf[offset]? := by
    rw [List.head?_take, if_neg (by omega), List.head?_drop]
  by_cases hlt : ret k < writeLen
  · rw [doWriteFrom_short hpos hlt, List.head?_append, htake, List.getElem?_eq_getElem hin]
    rfl
  · rw [doWriteFrom_whole hpos (by omega), htake]

/-- A third write begins at `ret 1`, and not behind what the first two have accepted. -/
theorem getElem?_doWrite_third (hshort : ShortWrites ret len) (htwo : ¬ AtMostTwoWrites ret len)
    (hbuf : len ≤ buf.length) :
    1 ≤ ret 0 ∧ 1 ≤ ret 1 ∧ ret 0 + ret 1 < len ∧
      (doWrite ret buf len).2[(ret 0).toNat + (ret 1).toNat]? = buf[(ret 1).toNat]? := by
  obtain ⟨hone, hsum⟩ := not_or.mp htwo
  have hreq₁ : requested ret len 1 = len - ret 0 := by rw [requested_succ, requested_zero]
  have hreq₂ : requested ret len 2 = len - ret 0 - ret 1 := by rw [requested_succ, hreq₁]
  obtain ⟨hpos₀, hmost₀⟩ := hshort 0 (.inl rfl)
  rw [requested_zero] at hmost₀
  obtain ⟨hpos₁, hmost₁⟩ := hshort 1 (.inr (by omega))
  rw [hreq₁] at hmost₁
  obtain ⟨hpos₂, -⟩ := hshort 2 (.inr (by omega))
  refine ⟨hpos₀, hpos₁, by omega, ?_⟩
  have hlen₀ : ((buf.drop 0).take (ret 0).toNat).length = (ret 0).toNat := by
    rw [List.length_take, List.length_drop]
    omega
  have hlen₁ : ((buf.drop (ret 0).toNat).take (ret 1).toNat).length = (ret 1).toNat := by
    rw [List.length_take, List.length_drop]
    omega
  rw [doWrite, doWriteFrom_short hpos₀ (by omega), doWriteFrom_short hpos₁ (by omega),
    ← List.append_assoc, List.getElem?_append_right, List.length_append, hlen₀, hlen₁,
    Nat.sub_self, ← List.head?_eq_getElem?]
  · exact head?_doWriteFrom hpos₂ (by omega)
  · rw [List.length_append, hlen₀, hlen₁]

/-- Under three writes or more, some buffer is altered. -/
theorem exists_doWrite_altered (hshort : ShortWrites ret len)
    (htwo : ¬ AtMostTwoWrites ret len) :
    ∃ buf : List UInt8, len ≤ buf.length ∧ (doWrite ret buf len).2 ≠ buf.take len := by
  -- a buffer that differs at the two places only
  have hbuf : len ≤ ((List.replicate len (0 : UInt8)).set
      ((ret 0).toNat + (ret 1).toNat) 1).length := by
    rw [List.length_set, List.length_replicate]
  refine ⟨_, hbuf, fun heq => ?_⟩
  obtain ⟨hpos₀, hpos₁, hlt, hthird⟩ := getElem?_doWrite_third hshort htwo hbuf
  rw [heq, List.getElem?_take_of_lt (by omega),
    List.getElem?_set_self (by rw [List.length_replicate]; omega),
    List.getElem?_set_ne (by omega), List.getElem?_replicate_of_lt (by omega)] at hthird
  cases hthird

theorem shortWrites_one (hlen : 1 ≤ len) : ShortWrites (fun _ => 1) len := by
  intro k hk
  have hreq : requested (fun _ => 1) len k = len - k := by
    rw [requested, Finset.sum_const, Finset.card_range, nsmul_one]
  rw [hreq] at hk ⊢
  dsimp only
  omega

end Writes

/-- **Commands arrive unaltered** under a pattern of short writes exactly if a command takes
at most two writes: from the third on, the offset is wrong. -/
theorem complete_writes_iff (ret : ℕ → ℤ) (len : ℕ) (hshort : ShortWrites ret len) :
    (∀ buf : List UInt8, len ≤ buf.length →
      doWrite ret buf len = ((len : ℤ), buf.take len) ∧
      (∀ rsp src, (hciSendWipowerVsCmd ret buf rsp len src).1 = buf.take len) ∧
      ∀ waitVscEvt rsp src g,
        (hciSendVsCmd ret waitVscEvt buf rsp len src g).1 = buf.take len) ↔
      AtMostTwoWrites ret len := by
  constructor
  · intro hall
    by_contra htwo
    obtain ⟨buf, hbuf, haltered⟩ := exists_doWrite_altered hshort htwo
    exact haltered (congrArg Prod.snd (hall buf hbuf).1)
  · intro htwo buf _
    have hwrite : doWrite ret buf len = ((len : ℤ), buf.take len) :=
      doWrite_of_atMostTwo hshort htwo
    exact ⟨hwrite, fun _ _ => congrArg Prod.snd hwrite, fun _ _ _ _ => congrArg Prod.snd hwrite⟩

/-- Two bytes, written one by one. -/
theorem complete_writes_of_two :
    ShortWrites (fun _ => 1) 2 ∧ doWrite (fun _ => 1) [0x01, 0x02] 2 = (2, [0x01, 0x02]) :=
  have hshort := shortWrites_one (by decide)
  ⟨hshort, ((complete_writes_iff (fun _ => 1) 2 hshort).mpr (.inr rfl) [0x01, 0x02] le_rfl).1⟩

/-- Of three bytes that are written one by one, the second is sent twice. -/
theorem third_write_repeats :
    ShortWrites (fun _ => 1) 3 ∧
      doWrite (fun _ => 1) [0x01, 0x02, 0x03] 3 = (3, [0x01, 0x02, 0x02]) := by
  refine ⟨shortWrites_one (by decide), ?_⟩
  rw [doWrite, doWriteFrom_short (by decide) (by decide), doWriteFrom_short (by decide) (by decide),
    doWriteFrom_whole (by decide) (by decide)]
  rfl

/-! ### False success -/

def vendorEvents (bytes : List UInt8) : List (List UInt8) :=
  match _h : nextPacket bytes with
  | none => []
  | some (code, params, rest) =>
    if code = 0xFF then params :: vendorEvents rest else vendorEvents rest
termination_by bytes.length
decreasing_by
  all_goals exact length_nextPacket_lt _h

/-- `HCI_VS_STRAY_EVT` -/
def IsStray (params : List UInt8) : Prop := params.head? = some 0x17

instance (params : List UInt8) : Decidable (IsStray params) :=
  inferInstanceAs (Decidable (_ = _))

def firstNonStray (bytes : List UInt8) : Option (List UInt8) :=
  (vendorEvents bytes).find? fun params => ¬ IsStray params

/-- The answer to a command or to a TLV download, with `HCI_CMD_SUCCESS` as its status. -/
def CarriesSuccess (params : List UInt8) : Prop :=
  params[0]? = some 0x00 ∧ (params[1]? = some 0x04 ∨ params[1]? = some 0x00) ∧
    params[2]? = some 0x00

/-- The events that are taken for success though they do not carry a status: answers of
another type, answers that end before their status, and other kinds of events. -/
def PassesWithoutStatus (params : List UInt8) : Prop :=
  (params.getD 0 0 = 0x00 ∧
    ((params.getD 1 0 ≠ 0x04 ∧ params.getD 1 0 ≠ 0x00) ∨ params.length < 3)) ∨
  params.getD 0 0 = 0x0B ∨ (params.getD 0 0 = 0x92 ∧ params.getD 1 0 = 0x01) ∨
  params.getD 0 0 = 0x18 ∨ params.getD 0 0 = 0x19 ∨ params.getD 0 0 = 0x1B

/-- The first event is one whose status is looked at, or a stray event that a success
follows. -/
def Trustworthy (retries : Bool) (bytes : List UInt8) : Prop :=
  ∀ params rest, nextPacket bytes = some (0xFF, params, rest) →
    if IsStray params then
      retries = true → ∃ event, firstNonStray rest = some event ∧ CarriesSuccess event
    else ¬ PassesWithoutStatus params

/-- A segment that returns no error.  A run that leaves its buffers may return anything. -/
def Reported (r : Option ℤ) : Prop := ∀ v ∈ r, 0 ≤ v

section Answers

variable {bytes params rest : List UInt8}

theorem vendorEvents_event (h : nextPacket bytes = some (0xFF, params, rest)) :
    vendorEvents bytes = params :: vendorEvents rest := by
  rw [vendorEvents]
  split
  · rename_i hnone
    rw [h] at hnone
    cases hnone
  · rename_i hsome
    rw [h] at hsome
    cases hsome
    exact if_pos rfl

theorem firstNonStray_stray (h : nextPacket bytes = some (0xFF, params, rest))
    (hstray : IsStray params) : firstNonStray bytes = firstNonStray rest := by
  rw [firstNonStray, vendorEvents_event h, List.find?_cons_of_neg (by simpa using hstray)]
  rfl

theorem firstNonStray_event (h : nextPacket bytes = some (0xFF, params, rest))
    (hstray : ¬ IsStray params) : firstNonStray bytes = some params := by
  rw [firstNonStray, vendorEvents_event h, List.find?_cons_of_pos (by simpa using hstray)]

theorem isStray_iff : IsStray params ↔ params.getD 0 0 = 0x17 := by
  cases params with
  | nil => exact iff_of_false (by simp [IsStray]) (by decide)
  | cons b params => exact Option.some_inj

theorem carriesSuccess_iff : CarriesSuccess params ↔
    3 ≤ params.length ∧ params.getD 0 0 = 0x00 ∧
      (params.getD 1 0 = 0x04 ∨ params.getD 1 0 = 0x00) ∧ params.getD 2 0 = 0x00 := by
  match params with
  | [] | [_] | [_, _] | a :: b :: c :: params => simp [CarriesSuccess]

theorem PassesWithoutStatus.not_carriesSuccess (h : PassesWithoutStatus params) :
    ¬ CarriesSuccess params := by
  rw [carriesSuccess_iff]
  rintro ⟨hlen, hcmd, htype, -⟩
  rcases h with ⟨-, hother | hshort⟩ | hkind
  · exact not_or.mpr hother htype
  · omega
  · rw [hcmd] at hkind
    simp at hkind

theorem verdict_eq_zero_iff {retries : Bool} (hstray : ¬ IsStray params) :
    verdict retries (params.getD 0 0) (params.getD 1 0) (params.getD 2 0) = .status 0 ↔
      PassesWithoutStatus params ∨ CarriesSuccess params := by
  rw [isStray_iff] at hstray
  rw [carriesSuccess_iff, PassesWithoutStatus]
  have hshort : params.length < 3 → params.getD 2 0 = 0 := fun h => by
    rw [List.getD_eq_getElem?_getD, List.getElem?_eq_none (by omega), Option.getD_none]
  generalize params.getD 0 0 = cmdRsp at hstray ⊢
  generalize params.getD 1 0 = rspType
  generalize params.getD 2 0 = status at hshort ⊢
  by_cases hcmd : cmdRsp = 0x00
  · subst hcmd
    rw [verdict, if_pos rfl, Interpreted.status.injEq]
    by_cases htype : rspType = 0x04 ∨ rspType = 0x00
    · -- the status is looked at, also if the event ends before it
      have hzero : (status.toNat : ℤ) = 0 ↔ status = 0 := by
        rw [Int.natCast_eq_zero]
        exact (UInt8.toNat_inj (b := 0))
      rw [if_pos htype, hzero]
      constructor
      · intro hstatus
        by_cases hlen : params.length < 3
        · exact .inl (.inl ⟨rfl, .inr hlen⟩)
        · exact .inr ⟨not_lt.mp hlen, rfl, htype, hstatus⟩
      · rintro ((⟨-, hother | hlen⟩ | hkind) | hsuccess)
        · exact absurd htype (not_or.mpr hother)
        · exact hshort hlen
        · simp at hkind
        · exact hsuccess.2.2.2
    · rw [if_neg htype]
      exact iff_of_true rfl (.inl (.inl ⟨rfl, .inl (not_or.mp htype)⟩))
  · rw [verdict, if_neg hcmd]
    simp only [hcmd, hstray, false_and, and_false, false_or, or_false, if_false]
    split_ifs <;> simp_all

variable {src : Source} {g : EventGlobals}

theorem not_reported_none (h : ∀ params rest, nextPacket src.bytes ≠ some (0xFF, params, rest)) :
    ¬ Reported ((readVsHciEvent src g clearedRsp).map Prod.fst) := by
  obtain ⟨src', hread⟩ := @readVsHciEvent_none src g clearedRsp length_clearedRsp h
  rw [hread]
  exact fun h => absurd (h (-1) rfl) (by decide)

theorem reported_status_iff {err : ℤ} (h : nextPacket src.bytes = some (0xFF, params, rest))
    (hover : ¬ LabelOverrun (response clearedRsp params))
    (hverdict : verdict g.retries (params.getD 0 0) (params.getD 1 0) (params.getD 2 0) =
      .status err) :
    Reported ((readVsHciEvent src g clearedRsp).map Prod.fst) ↔ err = 0 := by
  rw [← getD_response_clearedRsp 0, ← getD_response_clearedRsp 1,
    ← getD_response_clearedRsp 2] at hverdict
  obtain ⟨src', g', hread⟩ := readVsHciEvent_status length_clearedRsp h hover hverdict
  rw [hread]
  by_cases herr : err = 0
  · rw [if_neg (not_not.mpr herr)]
    refine iff_of_true (fun v hv => ?_) herr
    rw [← Option.some.inj hv]
    exact Int.natCast_nonneg _
  · rw [if_pos herr]
    exact iff_of_false (fun h => absurd (h (-1) rfl) (by decide)) herr

/-- **A stray event is taken for success** while stray events are retried. -/
theorem reported_stray_iff (h : nextPacket src.bytes = some (0xFF, params, rest))
    (hstray : IsStray params) :
    Reported ((readVsHciEvent src g clearedRsp).map Prod.fst) ↔ g.retries = true := by
  rw [isStray_iff] at hstray
  have hthird : (response clearedRsp params).getD 3 0 = 0x17 :=
    (getD_response_clearedRsp 0).trans hstray
  by_cases hretries : g.retries = true
  · obtain ⟨src', g', -, -, hread⟩ := readVsHciEvent_stray length_clearedRsp h hretries hthird
    refine iff_of_true (fun v hv => ?_) hretries
    rw [hread, Option.map_map, Option.mem_map] at hv
    obtain ⟨r, -, rfl⟩ := hv
    exact Int.natCast_nonneg _
  · have hover : ¬ LabelOverrun (response clearedRsp params) := by
      rw [LabelOverrun, hthird]
      exact fun hover => absurd hover.1 (by decide)
    have hverdict : verdict g.retries (params.getD 0 0) (params.getD 1 0) (params.getD 2 0) =
        .status (-1) := by
      rw [hstray, Bool.eq_false_iff.mpr hretries]
      rfl
    rw [reported_status_iff h hover hverdict]
    exact iff_of_false (by decide) hretries

/-- **Another event is taken for success** if it carries it, or passes without a status. -/
theorem reported_event_iff (h : nextPacket src.bytes = some (0xFF, params, rest))
    (hstray : ¬ IsStray params) :
    Reported ((readVsHciEvent src g clearedRsp).map Prod.fst) ↔
      PassesWithoutStatus params ∨ CarriesSuccess params := by
  by_cases hover : LabelOverrun (response clearedRsp params)
  · -- a build label is not a status
    have hlen := length_response length_clearedRsp (nextPacket_eq_some h).2
    obtain ⟨src', -, hread⟩ := @readVsHciEvent_event src g clearedRsp params rest
      length_clearedRsp h
    rw [hread, getVsHciEvent_overrun hlen rfl hover]
    obtain ⟨hcmd, htype, -⟩ := hover
    rw [getD_response_clearedRsp 0] at hcmd
    rw [getD_response_clearedRsp 1] at htype
    refine iff_of_true (fun v hv => by cases hv) (.inl (.inl ⟨hcmd, .inl ?_⟩))
    rw [htype]
    decide
  rw [← @verdict_eq_zero_iff params g.retries hstray]
  cases hverdict : verdict g.retries (params.getD 0 0) (params.getD 1 0) (params.getD 2 0) with
  | status err => rw [reported_status_iff h hover hverdict, Interpreted.status.injEq]
  | stray => exact absurd (isStray_iff.mpr (verdict_eq_stray.mp hverdict).1) hstray

theorem trustworthy_iff :
    (Reported ((readVsHciEvent src g clearedRsp).map Prod.fst) →
      ∃ event, firstNonStray src.bytes = some event ∧ CarriesSuccess event) ↔
      Trustworthy g.retries src.bytes := by
  by_cases hnone : ∀ params rest, nextPacket src.bytes ≠ some (0xFF, params, rest)
  · exact iff_of_true (fun h => absurd h (not_reported_none hnone))
      fun params rest h => absurd h (hnone params rest)
  push Not at hnone
  obtain ⟨params, rest, hnext⟩ := hnone
  have hhere : Trustworthy g.retries src.bytes ↔ if IsStray params then
      g.retries = true → ∃ event, firstNonStray rest = some event ∧ CarriesSuccess event
      else ¬ PassesWithoutStatus params := by
    refine ⟨fun h => h params rest hnext, fun h params' rest' hnext' => ?_⟩
    rw [hnext] at hnext'
    cases hnext'
    exact h
  rw [hhere]
  by_cases hstray : IsStray params
  · rw [if_pos hstray, reported_stray_iff hnext hstray, firstNonStray_stray hnext hstray]
  · rw [if_neg hstray, reported_event_iff hnext hstray, firstNonStray_event hnext hstray]
    constructor
    · intro h hpass
      obtain ⟨event, hevent, hsuccess⟩ := h (.inl hpass)
      cases hevent
      exact hpass.not_carriesSuccess hsuccess
    · exact fun hpass h => ⟨params, rfl, h.resolve_left hpass⟩

end Answers

section Segments

variable {ret : ℕ → ℤ} {pdata : List UInt8} {index segSize : ℕ}

theorem sendTlvSegment_eq (hsize : segSize ≤ maxSizePerTlvSegment)
    (hin : index * maxSizePerTlvSegment + segSize ≤ pdata.length)
    (hshort : ShortWrites ret (segSize + 6)) (waitCcEvt : Bool) (src : Source)
    (g : EventGlobals) :
    sendTlvSegment ret waitCcEvt pdata index segSize src g =
      (readVsHciEvent src g clearedRsp).bind fun event =>
        if event.1 < 0 then some (-110)
        else if waitCcEvt then (readHciEvent event.2.1 clearedRsp).map Prod.fst
        else some (segSize + 6) := by
  have hmax : maxSizePerTlvSegment = 243 := rfl
  have hlen : ((pdata.drop (index * maxSizePerTlvSegment)).take segSize).length = segSize :=
    length_of_loadN (loadN_eq hin)
  have hplen : (UInt8.ofNat (segSize + 2)).toNat = segSize + 2 := by
    rw [UInt8.toNat_ofNat', Nat.mod_eq_of_lt (by omega)]
  have hadd : 1 + 3 + (segSize + 2) = segSize + 6 := by omega
  rw [sendTlvSegment, frame_tlvReq hsize hin]
  generalize (pdata.drop (index * maxSizePerTlvSegment)).take segSize = data at hlen ⊢
  generalize List.replicate (254 - segSize) (0 : UInt8) = zeros
  have hload : load (tlvPacket data ++ zeros) 3 = some (UInt8.ofNat (segSize + 2)) := by
    rw [← hlen]
    rfl
  have hret := @doWrite_returns ret (tlvPacket data ++ zeros) (segSize + 6) hshort
  simp only [Option.bind_eq_bind, Option.bind_some, hload, hplen, hadd, hciSendVsCmd, hret,
    ne_eq, not_true_eq_false, if_false, if_true]
  cases readVsHciEvent src g clearedRsp with
  | none => rfl
  | some event =>
    simp only [Option.map_some, Option.bind_some]
    by_cases hneg : event.1 < 0
    · rw [if_pos hneg, if_pos hneg, if_pos (by omega)]
      rfl
    · rw [if_neg hneg, if_neg hneg, if_neg (not_not.mpr rfl)]
      rfl

variable {src : Source} {g : EventGlobals}

theorem reported_sendTlvSegment (hsize : segSize ≤ maxSizePerTlvSegment)
    (hin : index * maxSizePerTlvSegment + segSize ≤ pdata.length)
    (hshort : ShortWrites ret (segSize + 6)) {waitCcEvt : Bool}
    (h : Reported (sendTlvSegment ret waitCcEvt pdata index segSize src g)) :
    Reported ((readVsHciEvent src g clearedRsp).map Prod.fst) := by
  rw [sendTlvSegment_eq hsize hin hshort] at h
  intro v hv
  obtain ⟨event, hevent, rfl⟩ := Option.mem_map.mp hv
  rw [Option.mem_def.mp hevent, Option.bind_some] at h
  by_contra hneg
  rw [if_pos (not_le.mp hneg)] at h
  exact absurd (h _ rfl) (by decide)

theorem reported_sendTlvSegment_iff (hsize : segSize ≤ maxSizePerTlvSegment)
    (hin : index * maxSizePerTlvSegment + segSize ≤ pdata.length)
    (hshort : ShortWrites ret (segSize + 6)) :
    Reported (sendTlvSegment ret false pdata index segSize src g) ↔
      Reported ((readVsHciEvent src g clearedRsp).map Prod.fst) := by
  refine ⟨reported_sendTlvSegment hsize hin hshort, fun h v hv => ?_⟩
  rw [sendTlvSegment_eq hsize hin hshort, Option.mem_def, Option.bind_eq_some_iff] at hv
  obtain ⟨event, hevent, hv⟩ := hv
  have hpos := h event.1 (Option.mem_map_of_mem _ hevent)
  rw [if_neg (not_lt.mpr hpos)] at hv
  cases hv
  omega

theorem shortWrites_whole {len : ℕ} (hlen : 1 ≤ len) : ShortWrites (fun _ => len) len := by
  intro k hk
  have hreq : requested (fun _ => len) len k = len - k * len := by
    rw [requested, Finset.sum_const, Finset.card_range, nsmul_eq_mul]
  rw [hreq] at hk ⊢
  dsimp only
  obtain rfl : k = 0 := by
    by_contra hne
    have : (len : ℤ) ≤ k * len := le_mul_of_one_le_left (by omega) (by omega)
    omega
  omega

end Segments

/-- **No false success**: whatever the controller sends and however it is split, a segment
is reported as downloaded only on a success, exactly if the first event is not a stray one
in front of a failure, nor one of those that pass without a status. -/
theorem no_false_success_iff (ret : ℕ → ℤ) (pdata : List UInt8) (index segSize : ℕ)
    (hsize : segSize ≤ maxSizePerTlvSegment)
    (hin : index * maxSizePerTlvSegment + segSize ≤ pdata.length)
    (hshort : ShortWrites ret (segSize + 6)) (src : Source) (g : EventGlobals) :
    (∀ waitCcEvt, Reported (sendTlvSegment ret waitCcEvt pdata index segSize src g) →
      ∃ event, firstNonStray src.bytes = some event ∧ CarriesSuccess event) ↔
      Trustworthy g.retries src.bytes := by
  rw [← trustworthy_iff]
  constructor
  · exact fun h hreported => h false ((reported_sendTlvSegment_iff hsize hin hshort).mpr hreported)
  · exact fun h _ hreported => h (reported_sendTlvSegment hsize hin hshort hreported)

/-- The controller reports that a segment of one byte has arrived. -/
theorem success_reported :
    ∃ event, firstNonStray [0x04, 0xFF, 0x03, 0x00, 0x04, 0x00] = some event ∧
      CarriesSuccess event := by
  have hnext : nextPacket [0x04, 0xFF, 0x03, 0x00, 0x04, 0x00] =
    some (0xFF, [0x00, 0x04, 0x00], []) := rfl
  have hstray : ¬ IsStray [0x00, 0x04, 0x00] := by decide
  have hshort : ShortWrites (fun _ => 7) (1 + 6) := @shortWrites_whole 7 (by decide)
  refine (no_false_success_iff (fun _ => 7) [0xAA] 0 1 (by decide) (by decide)
    hshort ⟨_, fun _ => 1⟩ ⟨0, false, 0, false, true, true⟩).mpr ?_ false ?_
  · intro params rest h
    rw [hnext] at h
    cases h
    rw [if_neg hstray, PassesWithoutStatus]
    decide
  · rw [reported_sendTlvSegment_iff (by decide) (by decide) hshort,
      reported_event_iff hnext hstray]
    exact .inr ⟨rfl, .inl rfl, rfl⟩

/-- A stray event comes before the answer, which says that the segment has failed: the
segment is reported as downloaded. -/
theorem stray_event_hides_failure :
    sendTlvSegment (fun _ => 7) false [0xAA] 0 1
      ⟨[0x04, 0xFF, 0x01, 0x17, 0x04, 0xFF, 0x03, 0x00, 0x04, 0x01], fun _ => 1⟩
      ⟨0, false, 0, false, true, true⟩ = some 7 ∧
    firstNonStray [0x04, 0xFF, 0x01, 0x17, 0x04, 0xFF, 0x03, 0x00, 0x04, 0x01] =
      some [0x00, 0x04, 0x01] ∧ ¬ CarriesSuccess [0x00, 0x04, 0x01] := by
  have hnext : nextPacket [0x04, 0xFF, 0x01, 0x17, 0x04, 0xFF, 0x03, 0x00, 0x04, 0x01] =
    some (0xFF, [0x17], [0x04, 0xFF, 0x03, 0x00, 0x04, 0x01]) := rfl
  have hstray : IsStray [0x17] := rfl
  refine ⟨?_, ?_, ?_⟩
  · have hshort : ShortWrites (fun _ => 7) (1 + 6) := @shortWrites_whole 7 (by decide)
    obtain ⟨src', g', hrest, -, hread⟩ := @readVsHciEvent_stray
      ⟨[0x04, 0xFF, 0x01, 0x17, 0x04, 0xFF, 0x03, 0x00, 0x04, 0x01], fun _ => 1⟩
      ⟨0, false, 0, false, true, true⟩ clearedRsp _ _ length_clearedRsp hnext rfl rfl
    -- the failure is read behind the stray event, and forgotten
    have hfailed : nextPacket src'.bytes = some (0xFF, [0x00, 0x04, 0x01], []) := by
      rw [hrest]
      rfl
    obtain ⟨src'', g'', hnested⟩ := @readVsHciEvent_status src' g' clearedRsp _ _ 1
      length_clearedRsp hfailed (by decide) rfl
    rw [sendTlvSegment_eq (by decide) (by decide) hshort, hread, hnested]
    rfl
  · rw [firstNonStray_stray hnext hstray]
    exact firstNonStray_event rfl (by decide)
  · rintro ⟨-, -, h⟩
    cases h

end Rome

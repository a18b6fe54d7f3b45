/-
Reference counts of stream buffers.

* `Settled` — the count of a buffer is the number of its holders, and it is in
  the kernel exactly when there is none;
* `Inv.step` — every step of the system keeps every buffer settled, unless it
  receives a buffer nobody takes or the matcher drops one;
* `buf_refcnt_accounted` — so in every run.
-/
import HdxCommon.ChannelStart

namespace Interface

open Superbuf (BufInfo Cmd Effect processStreamBuf)

/-! ### The count of one buffer -/

/-- The status after `mm_stream_buf_done`. -/
def BufStatus.done (st : BufStatus) : BufStatus :=
  if st.bufRefcnt = 0 then st
  else if st.bufRefcnt = 1 then { st with bufRefcnt := 0, inKernel := true }
  else { st with bufRefcnt := st.bufRefcnt - 1 }

/-- A buffer with `n` holders that the kernel holds `k` times: the count is
right, and the kernel holds it exactly when nobody else does. -/
structure Settled (st : BufStatus) (k n : ℕ) : Prop where
  count : st.bufRefcnt.toNat = n
  kernel : k = if n = 0 then 1 else 0
  inKernel : st.inKernel = true ↔ n = 0

section Settled

variable {st : BufStatus} {k n : ℕ}

theorem Settled.done (h : Settled st k (n + 1)) :
    Settled st.done (k + if st.bufRefcnt = 1 then 1 else 0) n := by
  obtain ⟨hcount, hkernel, hin⟩ := h
  have hk : k = 0 := by simpa using hkernel
  have hne : st.bufRefcnt ≠ 0 := by
    intro h0
    rw [h0] at hcount
    simp at hcount
  by_cases hone : st.bufRefcnt = 1
  · obtain rfl : n = 0 := by
      rw [hone] at hcount
      simpa using hcount.symm
    refine ⟨?_, ?_, ?_⟩ <;> simp [BufStatus.done, hone, hk]
  · have hn : n ≠ 0 := by
      rintro rfl
      exact hone (UInt8.toNat_inj.mp hcount)
    refine ⟨?_, ?_, ?_⟩
    · simp only [BufStatus.done, hne, hone, if_false]
      have hle : (1 : UInt8) ≤ st.bufRefcnt := by
        rw [UInt8.le_iff_toNat_le, hcount]
        simp
      rw [UInt8.toNat_sub_of_le _ _ hle, hcount]
      simp
    · simp [hk, hone, hn]
    · simp only [BufStatus.done, hne, hone, if_false]
      simp [hin, hn]

theorem Settled.rcvd {s : StreamObj} (h : Settled st k 0) (htaken : s.isBundled ∨ s.hasCb) :
    Settled (s.rcvdStatus st) (k - 1)
      ((if s.isBundled then 1 else 0) + if s.hasCb then 1 else 0) := by
  obtain ⟨hcount, hkernel, hin⟩ := h
  have hz : st.bufRefcnt = 0 := UInt8.toNat_inj.mp hcount
  have hk : k = 1 := by simpa using hkernel
  cases hb : s.isBundled <;> cases hc : s.hasCb <;> simp only [hb, hc] at htaken
  · simp at htaken
  all_goals refine ⟨?_, ?_, ?_⟩ <;> simp [StreamObj.rcvdStatus, hb, hc, hz, hk]

/-- A holder passes the buffer on to `m` others. -/
theorem Settled.share {m : ℕ} (h : Settled st k n) (hn : n ≠ 0) (hlt : n + m < 256) :
    Settled { st with bufRefcnt := st.bufRefcnt + UInt8.ofNat m } k (n + m) := by
  obtain ⟨hcount, hkernel, hin⟩ := h
  refine ⟨?_, ?_, ?_⟩
  · rw [UInt8.toNat_add, UInt8.toNat_ofNat', hcount]
    omega
  · rw [hkernel, if_neg hn, if_neg (by omega)]
  · simp [hin, hn]

end Settled

/-! ### What the operations do to one buffer -/

section Operations

variable {c : ChannelObj} {s : StreamObj} {st : BufStatus} {h x : Handle} {hdl : UInt32}

theorem bufDone_eq (s : StreamObj) (i : ℕ) (ok : Bool) :
    ∃ l d, (s.bufDone i ok).2 = { s with bufStatus := l, device := d } := by
  unfold StreamObj.bufDone
  split
  · exact ⟨_, _, rfl⟩
  · split
    · exact ⟨_, _, rfl⟩
    · split
      · split
        all_goals exact ⟨_, _, rfl⟩
      · exact ⟨_, _, rfl⟩

theorem sub_one_eq_zero_iff (a : UInt8) : a - 1 = 0 ↔ a = 1 := by
  constructor
  · intro h
    have := UInt8.sub_add_cancel a 1
    rw [h] at this
    exact this.symm
  · rintro rfl
    rfl

theorem status_bufDone (s : StreamObj) (i j : ℕ) :
    (s.bufDone i true).2.status j = (s.status j).map fun st => if i = j then st.done else st := by
  unfold StreamObj.bufDone
  by_cases hij : i = j
  · subst hij
    cases hs : s.status i with
    | none => simp [hs]
    | some st =>
      simp only [sub_one_eq_zero_iff]
      by_cases h0 : st.bufRefcnt = 0
      · simp [hs, h0, BufStatus.done]
      · by_cases h1 : st.bufRefcnt = 1
        · simp [h1, status_withDevice, status_updateStatus, hs, BufStatus.done]
        · simp [h0, h1, status_updateStatus, hs, BufStatus.done]
  · cases hs : s.status i with
    | none => simp [hij]
    | some st =>
      simp only [sub_one_eq_zero_iff]
      by_cases h0 : st.bufRefcnt = 0
      · simp [h0, hij]
      · by_cases h1 : st.bufRefcnt = 1
        · simp [h1, status_withDevice, status_updateStatus, hij]
        · simp [h0, h1, status_updateStatus, hij]

/-- The buffer goes back to the kernel with its last reference. -/
theorem queued_bufDone {i j : ℕ} (hst : s.status j = some st) :
    (s.bufDone i true).2.device.queued.count j =
      s.device.queued.count j + if i = j ∧ st.bufRefcnt = 1 then 1 else 0 := by
  unfold StreamObj.bufDone
  cases hs : s.status i with
  | none =>
    have hij : i ≠ j := by
      rintro rfl
      rw [hs] at hst
      cases hst
    simp [hij]
  | some st' =>
    simp only [sub_one_eq_zero_iff]
    have hsame : i = j → st' = st := by
      rintro rfl
      rw [hs, Option.some.injEq] at hst
      exact hst
    by_cases h0 : st'.bufRefcnt = 0
    · have hno : ¬ (i = j ∧ st.bufRefcnt = 1) := by
        rintro ⟨hij, h1⟩
        rw [hsame hij, h1] at h0
        cases h0
      simp [h0, hno]
    · by_cases h1 : st'.bufRefcnt = 1
      · by_cases hij : i = j
        · obtain rfl := hsame hij
          simp [h1, hij, StreamObj.updateStatus, List.count_append]
        · simp [h1, hij, StreamObj.updateStatus, List.count_append]
      · have hno : ¬ (i = j ∧ st.bufRefcnt = 1) := by
          rintro ⟨hij, h1'⟩
          rw [hsame hij] at h1
          exact h1 h1'
        simp [h0, h1, hno, StreamObj.updateStatus]

theorem keepsId_qbuf (i : ℕ) :
    KeepsId fun s => if s.state = .active then (s.bufDone i true).2 else s := by
  intro s
  obtain ⟨l, d, heq⟩ := bufDone_eq s i true
  by_cases hs : s.state = .active
  · simp [hs, heq]
  · simp [hs]

def ChannelObj.AllActive (c : ChannelObj) : Prop :=
  ∀ hdl s, c.getStream hdl = some s → s.state = .active

theorem getStream_qbuf (hact : c.AllActive) (x : Handle) (hdl : UInt32) :
    (c.qbuf x).getStream hdl =
      (c.getStream hdl).map fun s => if x.1 = hdl then (s.bufDone x.2 true).2 else s := by
  rw [ChannelObj.qbuf, getStream_modifyStream (keepsId_qbuf x.2)]
  cases hs : c.getStream hdl with
  | none => rfl
  | some s => simp [getStream_myHdl hs, hact hdl s hs, eq_comm]

theorem bufStatus_qbuf (hact : c.AllActive) (x h : Handle) :
    (c.qbuf x).bufStatus h = (c.bufStatus h).map fun st => if x = h then st.done else st := by
  rw [ChannelObj.bufStatus, ChannelObj.bufStatus, getStream_qbuf hact]
  cases hs : c.getStream h.1 with
  | none => rfl
  | some s =>
    by_cases hx : x.1 = h.1
    · simp [hx, status_bufDone, Prod.ext_iff]
    · have hne : x ≠ h := fun heq => hx (by rw [heq])
      simp [hx, hne]

theorem inDevice_qbuf (hact : c.AllActive) (x : Handle) (hst : c.bufStatus h = some st) :
    (c.qbuf x).inDevice h = c.inDevice h + if x = h ∧ st.bufRefcnt = 1 then 1 else 0 := by
  rw [ChannelObj.inDevice, ChannelObj.inDevice, getStream_qbuf hact]
  rw [ChannelObj.bufStatus] at hst
  cases hs : c.getStream h.1 with
  | none =>
    rw [hs] at hst
    cases hst
  | some s =>
    rw [hs] at hst
    by_cases hx : x.1 = h.1
    · simp [hx, queued_bufDone hst, Prod.ext_iff]
    · have hne : x ≠ h := fun heq => hx (by rw [heq])
      simp [hx, hne]

theorem streamBufs_qbuf (hact : c.AllActive) (x : Handle) (hdl : UInt32) :
    (c.qbuf x).streamBufs hdl = c.streamBufs hdl := by
  rw [ChannelObj.streamBufs, ChannelObj.streamBufs, getStream_qbuf hact]
  cases hs : c.getStream hdl with
  | none => rfl
  | some s =>
    obtain ⟨l, d, heq⟩ := bufDone_eq s x.2 true
    by_cases hx : x.1 = hdl
    · simp [hx, heq]
    · simp [hx]

end Operations

/-! ### The invariant -/

/-- A streaming stream of a bundle with the streams `ids`. -/
structure StreamObj.Running (ids : List UInt32) (s : StreamObj) : Prop where
  active : s.state = .active
  bundled : s.isBundled = true → s.myHdl ∈ ids
  callbacks : s.bufCb.length ≤ streamBufCbMax
  own : ∀ b ∈ s.cmdThread.getD [], b.streamId = s.myHdl

def ChannelObj.AllRunning (c : ChannelObj) : Prop :=
  ∀ hdl s, c.getStream hdl = some s → s.Running c.queue.bundledStreams

/-- The threads of the bundle run and there is a callback, or nothing is on its
way through the bundle. -/
def System.Threads (sys : System) : Prop :=
  sys.channel.cmdThread.isSome ∧ sys.channel.cbThread.isSome ∧
      sys.channel.superBufNotifyCb = true ∨
    sys.channel.cmdThread = none ∧ sys.channel.cbThread.getD [] = [] ∧ sys.pending = []

/-- A buffer is settled, and has few holders: at most the bundle and the
callbacks of its stream. -/
structure Account (sys : System) (h : Handle) (st : BufStatus) : Prop where
  settled : Settled st (sys.channel.inDevice h) (sys.holders h)
  few : sys.inBundle h + streamBufCbMax * sys.inStream h + sys.client.count h ≤ streamBufCbMax + 1

structure Inv (sys : System) : Prop where
  good : sys.channel.matcher.Good
  running : sys.channel.AllRunning
  cmds : ∀ cmd ∈ sys.channel.cmdThread.getD [], ∀ b ∈ cmd.taken,
    b.streamId ∈ sys.channel.queue.bundledStreams
  threads : sys.Threads
  account : ∀ h st, sys.channel.bufStatus h = some st → Account sys h st

section Inv

variable {c : ChannelObj} {sys sys' : System} {s : StreamObj} {st : BufStatus} {h x : Handle}
  {hdl : UInt32} {f : StreamObj → StreamObj} {b : BufInfo}

theorem ChannelObj.AllRunning.allActive (h : c.AllRunning) : c.AllActive :=
  fun hdl s hs => (h hdl s hs).active

theorem ChannelObj.AllRunning.modify (h : c.AllRunning) (hf : KeepsId f)
    (hrun : ∀ s, c.getStream hdl = some s → (f s).Running c.queue.bundledStreams) :
    (c.modifyStream hdl f).AllRunning := by
  intro hdl' s hs
  show s.Running c.queue.bundledStreams
  by_cases heq : hdl' = hdl
  · subst heq
    rw [getStream_modifyStream_self hf, Option.map_eq_some_iff] at hs
    obtain ⟨t, ht, rfl⟩ := hs
    exact hrun t ht
  · rw [getStream_modifyStream_of_ne hf heq] at hs
    exact h hdl' s hs

theorem StreamObj.Running.bufDone {ids : List UInt32} (h : s.Running ids) (i : ℕ) :
    ((s.bufDone i true).2).Running ids := by
  obtain ⟨l, d, heq⟩ := bufDone_eq s i true
  rw [heq]
  exact ⟨h.active, h.bundled, h.callbacks, h.own⟩

theorem ChannelObj.AllRunning.qbuf (h : c.AllRunning) (x : Handle) : (c.qbuf x).AllRunning := by
  refine h.modify (keepsId_qbuf x.2) ?_
  intro s hs
  have hrun := h x.1 s hs
  rw [if_pos hrun.active]
  exact hrun.bufDone x.2

theorem holders_eq (sys : System) (h : Handle) :
    sys.holders h = sys.inBundle h + sys.inStream h + sys.client.count h := rfl

theorem inStream_qbuf (hact : sys.channel.AllActive)
    (hch : sys'.channel.streams = (sys.channel.qbuf x).streams) (h : Handle) :
    sys'.inStream h = sys.inStream h := by
  have hget : sys'.channel.streamBufs h.1 = (sys.channel.qbuf x).streamBufs h.1 := by
    rw [ChannelObj.streamBufs, ChannelObj.streamBufs, ChannelObj.getStream, hch]
    rfl
  rw [System.inStream, hget, streamBufs_qbuf hact, System.inStream]

theorem Account.release (hact : sys.channel.AllActive)
    (hacc : ∀ h st, sys.channel.bufStatus h = some st → Account sys h st)
    (hch : sys'.channel.streams = (sys.channel.qbuf x).streams)
    (hheld : ∀ h, sys'.inBundle h + sys'.client.count h + (if x = h then 1 else 0) =
      sys.inBundle h + sys.client.count h) :
    ∀ h st, sys'.channel.bufStatus h = some st → Account sys' h st := by
  intro h st' hst'
  have hget : sys'.channel.getStream = (sys.channel.qbuf x).getStream := by
    funext hdl
    rw [ChannelObj.getStream, hch]
    rfl
  have hstatus : sys'.channel.bufStatus h = (sys.channel.qbuf x).bufStatus h := by
    rw [ChannelObj.bufStatus, hget, ChannelObj.bufStatus]
  have hdev : sys'.channel.inDevice h = (sys.channel.qbuf x).inDevice h := by
    rw [ChannelObj.inDevice, hget, ChannelObj.inDevice]
  rw [hstatus, bufStatus_qbuf hact, Option.map_eq_some_iff] at hst'
  obtain ⟨st, hst, rfl⟩ := hst'
  obtain ⟨hset, hfew⟩ := hacc h st hst
  have hheld := hheld h
  have hstr := inStream_qbuf hact hch h
  rw [← hstr] at hfew
  refine ⟨?_, ?_⟩
  · rw [hdev, inDevice_qbuf hact x hst]
    rw [holders_eq] at hset ⊢
    by_cases hx : x = h
    · simp only [hx, if_true, true_and] at hheld ⊢
      have hn : sys.inBundle h + sys.inStream h + sys.client.count h =
          sys'.inBundle h + sys'.inStream h + sys'.client.count h + 1 := by omega
      rw [hn] at hset
      exact hset.done
    · simp only [hx, if_false, false_and, add_zero] at hheld ⊢
      have hn : sys.inBundle h + sys.inStream h + sys.client.count h =
          sys'.inBundle h + sys'.inStream h + sys'.client.count h := by omega
      rw [hn] at hset
      exact hset
  · split at hheld <;> omega

theorem Account.pass (hacc : ∀ h st, sys.channel.bufStatus h = some st → Account sys h st)
    (hch : sys'.channel.streams = sys.channel.streams)
    (hheld : ∀ h, sys'.inBundle h + sys'.client.count h = sys.inBundle h + sys.client.count h) :
    ∀ h st, sys'.channel.bufStatus h = some st → Account sys' h st := by
  intro h st hst
  have hget : sys'.channel.getStream = sys.channel.getStream := by
    funext hdl
    rw [ChannelObj.getStream, hch]
    rfl
  have hstatus : sys'.channel.bufStatus h = sys.channel.bufStatus h := by
    rw [ChannelObj.bufStatus, hget, ChannelObj.bufStatus]
  have hdev : sys'.channel.inDevice h = sys.channel.inDevice h := by
    rw [ChannelObj.inDevice, hget, ChannelObj.inDevice]
  have hstr : sys'.inStream h = sys.inStream h := by
    rw [System.inStream, System.inStream, ChannelObj.streamBufs, hget, ChannelObj.streamBufs]
  have hheld := hheld h
  rw [hstatus] at hst
  obtain ⟨hset, hfew⟩ := hacc h st hst
  have hn : sys'.holders h = sys.holders h := by
    rw [holders_eq, holders_eq]
    omega
  refine ⟨?_, ?_⟩
  · rw [hdev, hn]
    exact hset
  · rw [hstr]
    omega

/-! ### A received frame -/

theorem keepsId_dataNotify (b : BufInfo) : KeepsId fun s => s.dataNotify b :=
  fun _ => ⟨rfl, Iff.rfl⟩

theorem status_dataNotify (s : StreamObj) (b : BufInfo) (j : ℕ) :
    (s.dataNotify b).status j =
      (s.status j).map fun st => if b.bufIdx = j then s.rcvdStatus st else st :=
  status_updateStatus s b.bufIdx j s.rcvdStatus

theorem StreamObj.Running.dataNotify {ids : List UInt32} (h : s.Running ids)
    (hb : b.streamId = s.myHdl) : (s.dataNotify b).Running ids := by
  refine ⟨h.active, h.bundled, h.callbacks, ?_⟩
  intro d hd
  show d.streamId = s.myHdl
  unfold StreamObj.dataNotify at hd
  by_cases hcb : s.hasCb
  · cases hq : s.cmdThread with
    | none => simp [hcb, hq] at hd
    | some q =>
      simp only [hcb, hq, if_true, Option.map_some, Option.getD_some, List.mem_append,
        List.mem_singleton] at hd
      rcases hd with hd | rfl
      · exact h.own d (by rw [hq]; exact hd)
      · exact hb
  · simp only [hcb] at hd
    exact h.own d hd

theorem getStream_frame (c : ChannelObj) (s : StreamObj) (b : BufInfo) (hdl : UInt32) :
    (c.frame s b).getStream hdl =
      (c.getStream hdl).map fun s => if b.streamId = hdl then s.dataNotify b else s := by
  show (c.modifyStream b.streamId fun s => s.dataNotify b).getStream hdl = _
  rw [getStream_modifyStream (keepsId_dataNotify b)]
  cases hs : c.getStream hdl with
  | none => rfl
  | some t => simp [getStream_myHdl hs, eq_comm]

theorem inBundle_frame (hcmd : s.isBundled → sys.channel.cmdThread.isSome) (h : Handle) :
    { sys with channel := sys.channel.frame s b }.inBundle h =
      sys.inBundle h + if s.isBundled = true ∧ handle b = h then 1 else 0 := by
  rw [System.inBundle, System.inBundle]
  unfold System.bundleBufs ChannelObj.bundleBufs
  by_cases hb : s.isBundled = true
  · obtain ⟨q, hq⟩ := Option.isSome_iff_exists.mp (hcmd hb)
    simp only [ChannelObj.frame, hb, hq, ChannelObj.modifyStream, if_true, Option.map_some,
      Option.getD_some, List.flatMap_append, List.flatMap_cons, List.flatMap_nil, Cmd.taken,
      List.map_append, List.map_cons, List.map_nil, List.count_append, List.append_nil,
      List.count_singleton, beq_iff_eq, true_and]
    omega
  · simp [ChannelObj.frame, hb, ChannelObj.modifyStream]

theorem inStream_frame (hs : sys.channel.getStream b.streamId = some s)
    (hcb : s.hasCb → s.cmdThread.isSome) (h : Handle) :
    { sys with channel := sys.channel.frame s b }.inStream h =
      sys.inStream h + if s.hasCb = true ∧ handle b = h then 1 else 0 := by
  rw [System.inStream, System.inStream, ChannelObj.streamBufs, ChannelObj.streamBufs,
    getStream_frame]
  by_cases hid : b.streamId = h.1
  · rw [← hid, hs]
    by_cases hc : s.hasCb = true
    · obtain ⟨q, hq⟩ := Option.isSome_iff_exists.mp (hcb hc)
      simp [StreamObj.dataNotify, hc, hq, List.count_singleton]
    · simp [StreamObj.dataNotify, hc]
  · have hne : handle b ≠ h := fun heq => hid (by rw [← heq]; rfl)
    cases sys.channel.getStream h.1 <;> simp [hid, hne]

theorem Account.frame (hacc : ∀ h st, sys.channel.bufStatus h = some st → Account sys h st)
    (hs : sys.channel.getStream b.streamId = some s) (hq : b.bufIdx ∈ s.device.queued)
    (hcmd : s.isBundled → sys.channel.cmdThread.isSome) (hcb : s.hasCb → s.cmdThread.isSome)
    (htaken : s.isBundled ∨ s.hasCb) :
    ∀ h st, (sys.channel.frame s b).bufStatus h = some st →
      Account { sys with channel := sys.channel.frame s b } h st := by
  intro h st' hst'
  have hB := inBundle_frame (b := b) hcmd h
  have hS := inStream_frame hs hcb h
  have hn := holders_eq { sys with channel := sys.channel.frame s b } h
  rw [hB, hS] at hn
  rw [ChannelObj.bufStatus, getStream_frame] at hst'
  by_cases heq : handle b = h
  · subst heq
    rw [show (handle b).1 = b.streamId from rfl, hs] at hst'
    simp only [if_true, Option.map_some, Option.bind_some, status_dataNotify,
      Option.map_eq_some_iff] at hst'
    obtain ⟨st, hst, rfl⟩ := hst'
    have hstatus : sys.channel.bufStatus (handle b) = some st := by
      rw [ChannelObj.bufStatus, show (handle b).1 = b.streamId from rfl, hs]
      exact hst
    obtain ⟨hset, -⟩ := hacc _ st hstatus
    -- the kernel had the buffer, so nobody else did
    have hdev : sys.channel.inDevice (handle b) = s.device.queued.count b.bufIdx := by
      rw [ChannelObj.inDevice, show (handle b).1 = b.streamId from rfl, hs]
      rfl
    have hpos : 0 < sys.channel.inDevice (handle b) := by
      rw [hdev]
      exact List.count_pos_iff.mpr hq
    have hzero : sys.holders (handle b) = 0 := by
      have hk := hset.kernel
      by_contra hne
      rw [if_neg hne] at hk
      omega
    rw [hzero] at hset
    have hdev' : (sys.channel.frame s b).inDevice (handle b) =
        sys.channel.inDevice (handle b) - 1 := by
      rw [hdev, ChannelObj.inDevice, getStream_frame, show (handle b).1 = b.streamId from rfl, hs]
      simp [StreamObj.dataNotify, handle]
    rw [holders_eq] at hzero
    simp only [and_true] at hB hS hn
    refine ⟨?_, ?_⟩
    · have hrcvd := hset.rcvd (s := s) htaken
      rw [hdev', hn]
      have hsum : sys.inBundle (handle b) + (if s.isBundled = true then 1 else 0) +
          (sys.inStream (handle b) + if s.hasCb = true then 1 else 0) +
          sys.client.count (handle b) =
          (if s.isBundled = true then 1 else 0) + if s.hasCb = true then 1 else 0 := by omega
      rw [hsum, show b.bufIdx = (handle b).2 from rfl, if_pos rfl]
      exact hrcvd
    · rw [hB, hS]
      have hB0 : sys.inBundle (handle b) = 0 := by omega
      have hS0 : sys.inStream (handle b) = 0 := by omega
      have hC0 : sys.client.count (handle b) = 0 := by omega
      rw [hB0, hS0, hC0, streamBufCbMax]
      split <;> split <;> omega
  · -- another buffer, of this stream or of another
    simp only [heq, and_false, if_false, add_zero] at hB hS hn
    have hstatus : sys.channel.bufStatus h = some st' ∧
        (sys.channel.frame s b).inDevice h = sys.channel.inDevice h := by
      rw [ChannelObj.bufStatus, ChannelObj.inDevice, ChannelObj.inDevice, getStream_frame]
      cases ht : sys.channel.getStream h.1 with
      | none =>
        rw [ht] at hst'
        cases hst'
      | some t =>
        rw [ht] at hst'
        by_cases hid : b.streamId = h.1
        · have hidx : b.bufIdx ≠ h.2 := fun hidx => heq (Prod.ext hid hidx)
          simp only [hid, if_true, Option.map_some, Option.bind_some, status_dataNotify, hidx,
            if_false, Option.map_id'] at hst'
          refine ⟨hst', ?_⟩
          simp [hid, StreamObj.dataNotify, List.count_erase_of_ne hidx.symm]
        · simp only [hid, if_false, Option.map_some, Option.bind_some] at hst'
          exact ⟨hst', by simp [hid]⟩
    obtain ⟨hset, hfew⟩ := hacc h st' hstatus.1
    refine ⟨?_, ?_⟩
    · rw [hstatus.2, hn]
      exact hset
    · rw [hB, hS]
      exact hfew

/-! ### A dispatched buffer -/

/-- The stream after its thread has taken `b` from its queue and dispatched
it. -/
def StreamObj.dispatched (rest : List BufInfo) (b : BufInfo) (s : StreamObj) : StreamObj :=
  { s.dispatchAppData b true with cmdThread := some rest }

theorem dispatched_eq (rest : List BufInfo) (b : BufInfo) (s : StreamObj) :
    ∃ l d, s.dispatched rest b =
      { s with
        bufStatus := l, device := d, bufCb := s.bufCb.map DataCb.countDown
        cmdThread := some rest } := by
  obtain ⟨l, d, heq⟩ := bufDone_eq (s.runCallbacks b.bufIdx) b.bufIdx true
  refine ⟨l, d, ?_⟩
  rw [StreamObj.dispatched, StreamObj.dispatchAppData, heq]
  rfl

theorem keepsId_dispatched (rest : List BufInfo) (b : BufInfo) :
    KeepsId (StreamObj.dispatched rest b) := by
  intro s
  obtain ⟨l, d, heq⟩ := dispatched_eq rest b s
  rw [heq]
  exact ⟨rfl, Iff.rfl⟩

theorem StreamObj.Running.dispatched {ids : List UInt32} {rest : List BufInfo}
    (h : s.Running ids) (hq : s.cmdThread = some (b :: rest)) :
    (s.dispatched rest b).Running ids := by
  obtain ⟨l, d, heq⟩ := dispatched_eq rest b s
  rw [heq]
  refine ⟨h.active, h.bundled, ?_, ?_⟩
  · simpa using h.callbacks
  · intro d hd
    refine h.own d ?_
    rw [hq]
    exact List.mem_cons_of_mem _ hd

theorem status_runCallbacks (s : StreamObj) (i j : ℕ) :
    (s.runCallbacks i).status j = (s.status j).map fun st =>
      if i = j then { st with bufRefcnt := st.bufRefcnt + UInt8.ofNat s.calls } else st :=
  status_updateStatus s i j _

theorem status_dispatched (rest : List BufInfo) (b : BufInfo) (s : StreamObj) (j : ℕ) :
    (s.dispatched rest b).status j = (s.status j).map fun st =>
      if b.bufIdx = j then { st with bufRefcnt := st.bufRefcnt + UInt8.ofNat s.calls }.done
      else st := by
  show ((s.runCallbacks b.bufIdx).bufDone b.bufIdx true).2.status j = _
  rw [status_bufDone, status_runCallbacks, Option.map_map]
  congr 1
  funext st
  by_cases hj : b.bufIdx = j <;> simp [hj]

theorem queued_dispatched {rest : List BufInfo} {j : ℕ} (hst : s.status j = some st) :
    (s.dispatched rest b).device.queued.count j = s.device.queued.count j +
      if b.bufIdx = j ∧ st.bufRefcnt + UInt8.ofNat s.calls = 1 then 1 else 0 := by
  have hshare := status_runCallbacks s b.bufIdx j
  rw [hst, Option.map_some] at hshare
  show ((s.runCallbacks b.bufIdx).bufDone b.bufIdx true).2.device.queued.count j = _
  rw [queued_bufDone hshare]
  by_cases hj : b.bufIdx = j
  all_goals simp [hj, StreamObj.runCallbacks, StreamObj.updateStatus]

theorem StreamObj.Running.calls_le {ids : List UInt32} (h : s.Running ids) :
    s.calls ≤ streamBufCbMax :=
  (List.countP_le_length).trans h.callbacks

theorem ChannelObj.AllRunning.own_head {rest : List BufInfo} (hrun : sys.channel.AllRunning)
    (hs : sys.channel.getStream hdl = some s) (hq : s.cmdThread = some (b :: rest)) :
    b.streamId = hdl := by
  rw [← getStream_myHdl hs]
  exact (hrun hdl s hs).own b (by rw [hq]; exact List.mem_cons_self)

theorem getStream_dispatched {rest : List BufInfo}
    (hch : sys'.channel = sys.channel.modifyStream hdl (StreamObj.dispatched rest b))
    (hdl' : UInt32) : sys'.channel.getStream hdl' =
      (sys.channel.getStream hdl').map fun s => if hdl = hdl' then s.dispatched rest b else s := by
  rw [hch, getStream_modifyStream (keepsId_dispatched rest b)]
  cases ht : sys.channel.getStream hdl' with
  | none => rfl
  | some t => simp [getStream_myHdl ht, eq_comm]

theorem inStream_dispatched {rest : List BufInfo} (hrun : sys.channel.AllRunning)
    (hs : sys.channel.getStream hdl = some s) (hq : s.cmdThread = some (b :: rest))
    (hch : sys'.channel = sys.channel.modifyStream hdl (StreamObj.dispatched rest b)) (h : Handle) :
    sys'.inStream h + (if handle b = h then 1 else 0) = sys.inStream h := by
  rw [System.inStream, System.inStream, ChannelObj.streamBufs, ChannelObj.streamBufs,
    getStream_dispatched hch]
  by_cases hid : hdl = h.1
  · rw [← hid, hs]
    obtain ⟨l, d, heq⟩ := dispatched_eq rest b s
    simp [heq, hq, List.count_cons]
  · have hne : handle b ≠ h := fun heq => hid (by rw [← heq, ← hrun.own_head hs hq]; rfl)
    cases sys.channel.getStream h.1 <;> simp [hid, hne]

theorem Account.data {rest : List BufInfo} (hrun : sys.channel.AllRunning)
    (hacc : ∀ h st, sys.channel.bufStatus h = some st → Account sys h st)
    (hs : sys.channel.getStream hdl = some s) (hq : s.cmdThread = some (b :: rest))
    (hch : sys'.channel = sys.channel.modifyStream hdl (StreamObj.dispatched rest b))
    (hpend : sys'.pending = sys.pending)
    (hclient : sys'.client = sys.client ++ List.replicate s.calls (handle b)) :
    ∀ h st, sys'.channel.bufStatus h = some st → Account sys' h st := by
  intro h st' hst'
  have hown := hrun.own_head hs hq
  have hB : sys'.inBundle h = sys.inBundle h := by
    rw [System.inBundle, System.inBundle, System.bundleBufs, System.bundleBufs, hch, hpend]
    rfl
  have hC : sys'.client.count h = sys.client.count h + if handle b = h then s.calls else 0 := by
    rw [hclient, List.count_append, List.count_replicate]
    simp
  have hget := getStream_dispatched hch h.1
  have hS := inStream_dispatched hrun hs hq hch h
  have hn := holders_eq sys h
  have hn' := holders_eq sys' h
  rw [ChannelObj.bufStatus, hget] at hst'
  by_cases heq : handle b = h
  · subst heq
    have hfst : (handle b).1 = hdl := hown
    rw [hfst, hs] at hst'
    simp only [if_true, Option.map_some, Option.bind_some, status_dispatched,
      Option.map_eq_some_iff] at hst'
    obtain ⟨st, hst, rfl⟩ := hst'
    have hstatus : sys.channel.bufStatus (handle b) = some st := by
      rw [ChannelObj.bufStatus, hfst, hs]
      exact hst
    obtain ⟨hset, hfew⟩ := hacc _ st hstatus
    have hcalls := (hrun hdl s hs).calls_le
    simp only [if_true] at hC hS
    rw [streamBufCbMax] at hfew hcalls
    have hdev : sys'.channel.inDevice (handle b) = sys.channel.inDevice (handle b) +
        if st.bufRefcnt + UInt8.ofNat s.calls = 1 then 1 else 0 := by
      rw [ChannelObj.inDevice, ChannelObj.inDevice, hget, hfst, hs]
      simp only [if_true, Option.map_some, Option.elim_some, queued_dispatched hst]
      rw [show b.bufIdx = (handle b).2 from rfl]
      simp
    refine ⟨?_, ?_⟩
    · -- first the callbacks take their references, then the thread drops its own
      have hshare := hset.share (m := s.calls) (by omega) (by omega)
      have hsum : sys.holders (handle b) + s.calls = sys'.holders (handle b) + 1 := by omega
      rw [hsum] at hshare
      rw [hdev, show b.bufIdx = (handle b).2 from rfl, if_pos rfl]
      exact hshare.done
    · rw [hB, hC, streamBufCbMax]
      omega
  · simp only [heq, if_false, add_zero] at hC hS
    have hstatus : sys.channel.bufStatus h = some st' ∧
        sys'.channel.inDevice h = sys.channel.inDevice h := by
      rw [ChannelObj.bufStatus, ChannelObj.inDevice, ChannelObj.inDevice, hget]
      cases ht : sys.channel.getStream h.1 with
      | none =>
        rw [ht] at hst'
        cases hst'
      | some t =>
        rw [ht] at hst'
        by_cases hid : hdl = h.1
        · have hidx : b.bufIdx ≠ h.2 := fun hidx => heq (Prod.ext (hown.trans hid) hidx)
          simp only [hid, if_true, Option.map_some, Option.bind_some, status_dispatched, hidx,
            if_false, Option.map_id'] at hst'
          refine ⟨hst', ?_⟩
          simp [hid, queued_dispatched hst', hidx]
        · simp only [hid, if_false, Option.map_some, Option.bind_some] at hst'
          exact ⟨hst', by simp [hid]⟩
    obtain ⟨hset, hfew⟩ := hacc h st' hstatus.1
    refine ⟨?_, ?_⟩
    · rw [hstatus.2, hn', hB, hS, hC, ← hn]
      exact hset
    · rw [hB, hS, hC]
      exact hfew

/-! ### Steps -/

/-- What a step must not do: receive a buffer that neither the bundle nor a data
callback takes, or take a command that makes the matcher drop a buffer. -/
def Kept (sys : System) : Event → Prop
  | .frame hdl _ _ _ => ∀ s ∈ sys.channel.getStream hdl, s.isBundled ∨ s.hasCb
  | .command => ∀ cmd ∈ (sys.channel.cmdThread.getD []).head?,
      ¬ Superbuf.Drops sys.channel.matcher cmd
  | _ => True

/-- A command that drops nothing moves its buffers, and those of the queue, to
the queue and the effects. -/
theorem processStreamBuf_perm {ch ch' : Superbuf.Channel} {cmd : Cmd} {es : List Effect}
    (hgood : ch.Good) (hmem : ∀ b ∈ cmd.taken, b.streamId ∈ ch.queue.bundledStreams)
    (hkeep : ¬ Superbuf.Drops ch cmd) (hs : processStreamBuf ch (cmd, .ample) = some (ch', es)) :
    (ch'.queue.stored ++ (Superbuf.returned es ++ Superbuf.sent es)).Perm
        (ch.queue.stored ++ cmd.taken) ∧
      ch.SameSetup ch' ∧ ch'.queue.bundledStreams = ch.queue.bundledStreams := by
  obtain ⟨M, U, hshape, hM⟩ := hgood
  obtain ⟨ch₁, es₁, l, heq, hset, hms, hl, -⟩ :=
    Superbuf.processStreamBuf_moves cmd .ample hshape hM
  rw [hs, Option.some.injEq, Prod.mk.injEq] at heq
  obtain ⟨rfl, rfl⟩ := heq
  refine ⟨?_, hset, hms.bundledStreams_eq⟩
  have hnil : l = [] := by
    rw [hl Superbuf.Mem.allOk_ample]
    exact (hshape.lostBy_eq_nil_iff hmem).mpr hkeep
  rw [List.perm_iff_count]
  intro b
  have hb := hms.accounts hshape b
  rw [hnil, Superbuf.returned_bufEffects, Superbuf.sent_bufEffects] at hb
  simp only [List.count_append, List.count_nil] at hb ⊢
  omega

theorem Inv.request {cmd : Cmd} {queue : List Cmd} (hinv : Inv sys) (htaken : cmd.taken = [])
    (hq : sys.channel.cmdThread = some queue) :
    Inv { sys with channel := { sys.channel with cmdThread := some (queue ++ [cmd]) } } := by
  refine ⟨hinv.good, hinv.running, ?_, ?_, ?_⟩
  · intro d hd b hb
    rcases List.mem_append.mp hd with hd | hd
    · exact hinv.cmds d (by rw [hq]; exact hd) b hb
    · rw [List.mem_singleton.mp hd, htaken] at hb
      cases hb
  · rcases hinv.threads with h | h
    · exact .inl ⟨rfl, h.2⟩
    · rw [h.1] at hq
      cases hq
  · refine Account.pass hinv.account rfl ?_
    intro h
    simp [System.inBundle, System.bundleBufs, ChannelObj.bundleBufs, hq, htaken]

theorem Inv.command {cmd : Cmd} {cmds : List Cmd} {ch : Superbuf.Channel} {es : List Effect}
    (hinv : Inv sys) (hkept : Kept sys .command) (hpend : sys.pending = [])
    (hcmds : sys.channel.cmdThread = some (cmd :: cmds))
    (hproc : processStreamBuf sys.channel.matcher (cmd, .ample) = some (ch, es)) :
    Inv { sys with
      channel := { sys.channel.withMatcher ch with cmdThread := some cmds }
      pending := es } := by
  have hmem : ∀ b ∈ cmd.taken, b.streamId ∈ sys.channel.queue.bundledStreams :=
    hinv.cmds cmd (by rw [hcmds]; exact List.mem_cons_self)
  have hkeep : ¬ Superbuf.Drops sys.channel.matcher cmd := hkept cmd (by simp [hcmds])
  obtain ⟨hperm, hset, hids⟩ := processStreamBuf_perm hinv.good hmem hkeep hproc
  have hids' : ch.queue.bundledStreams = sys.channel.queue.bundledStreams := hids
  refine ⟨?_, ?_, ?_, ?_, ?_⟩
  · have hgood := hinv.good.step hproc
    obtain ⟨M, U, hshape, hM⟩ := hgood
    exact ⟨M, U, hshape, hM⟩
  · intro hdl s hget
    show s.Running ch.queue.bundledStreams
    rw [hids']
    exact hinv.running hdl s hget
  · intro d hd b hb
    show b.streamId ∈ ch.queue.bundledStreams
    rw [hids']
    exact hinv.cmds d (by rw [hcmds]; exact List.mem_cons_of_mem _ hd) b hb
  · rcases hinv.threads with h | h
    · exact .inl ⟨rfl, h.2⟩
    · rw [h.1] at hcmds
      cases hcmds
  · refine Account.pass hinv.account rfl ?_
    intro h
    have hcount := (hperm.map handle).count_eq h
    have hstored : sys.channel.matcher.queue.stored = sys.channel.queue.stored := rfl
    rw [hstored] at hcount
    simp only [System.inBundle, System.bundleBufs, ChannelObj.bundleBufs,
      ChannelObj.withMatcher, hcmds, hpend, Option.getD_some, List.flatMap_cons,
      List.map_append, List.count_append, show Superbuf.returned [] = [] from rfl,
      show Superbuf.sent [] = [] from rfl, List.map_nil, List.count_nil] at hcount ⊢
    omega

theorem Inv.effect {e : Effect} {es : List Effect} (hinv : Inv sys)
    (hpend : sys.pending = e :: es) : Inv { sys.applyEffect e with pending := es } := by
  rcases hinv.threads with hthr | hthr
  swap
  · rw [hthr.2.2] at hpend
    cases hpend
  cases e with
  | qbuf b =>
    refine ⟨?_, hinv.running.qbuf (handle b), hinv.cmds, .inl hthr, ?_⟩
    · obtain ⟨M, U, hshape, hM⟩ := hinv.good
      exact ⟨M, U, hshape, hM⟩
    · refine Account.release hinv.running.allActive hinv.account rfl ?_
      intro h
      simp only [System.inBundle, System.bundleBufs, System.applyEffect, hpend]
      rw [show Superbuf.returned (.qbuf b :: es) = b :: Superbuf.returned es from rfl,
        show Superbuf.sent (.qbuf b :: es) = Superbuf.sent es from rfl]
      rw [show (sys.channel.qbuf (handle b)).bundleBufs = sys.channel.bundleBufs from rfl]
      simp only [List.map_append, List.map_cons, List.count_append, List.count_cons,
        beq_iff_eq]
      omega
  | superbufCb bufs =>
    obtain ⟨queue, hqueue⟩ := Option.isSome_iff_exists.mp hthr.2.1
    refine ⟨hinv.good, hinv.running, hinv.cmds, ?_, ?_⟩
    · refine .inl ⟨hthr.1, ?_, hthr.2.2⟩
      simp [System.applyEffect, hqueue]
    · refine Account.pass hinv.account rfl ?_
      intro h
      simp only [System.inBundle, System.bundleBufs, System.applyEffect, hpend]
      rw [show Superbuf.returned (.superbufCb bufs :: es) = Superbuf.returned es from rfl,
        show Superbuf.sent (.superbufCb bufs :: es) =
          bufs.reduceOption ++ Superbuf.sent es from rfl]
      simp only [ChannelObj.bundleBufs, hqueue, Option.map_some, Option.getD_some,
        List.flatMap_append, List.flatMap_cons, List.flatMap_nil, List.append_nil,
        List.map_append, List.count_append]
      omega
  | _ =>
    refine ⟨hinv.good, hinv.running, hinv.cmds, .inl hthr, ?_⟩
    refine Account.pass hinv.account rfl ?_
    intro h
    simp only [System.inBundle, System.bundleBufs, System.applyEffect, hpend]
    rfl

theorem Inv.superbuf {bufs : List (Option BufInfo)} {rest : List (List (Option BufInfo))}
    (hinv : Inv sys) (hqueue : sys.channel.cbThread = some (bufs :: rest)) :
    Inv { sys with
      channel := { sys.channel with cbThread := some rest }
      client := sys.client ++
        if sys.channel.superBufNotifyCb then bufs.reduceOption.map handle else [] } := by
  rcases hinv.threads with hthr | hthr
  swap
  · rw [hqueue] at hthr
    cases hthr.2.1
  refine ⟨hinv.good, hinv.running, hinv.cmds, .inl ⟨hthr.1, rfl, hthr.2.2⟩, ?_⟩
  refine Account.pass hinv.account rfl ?_
  intro h
  simp only [System.inBundle, System.bundleBufs, ChannelObj.bundleBufs, hqueue, hthr.2.2,
    if_true, Option.getD_some, List.flatMap_cons, List.map_append, List.count_append]
  omega

theorem Inv.data {rest : List BufInfo} (hinv : Inv sys)
    (hget : sys.channel.getStream hdl = some s) (hq : s.cmdThread = some (b :: rest)) :
    Inv { sys with
      channel := sys.channel.modifyStream hdl fun s =>
        { s.dispatchAppData b true with cmdThread := some rest }
      client := sys.client ++ List.replicate s.calls (handle b) } := by
  refine ⟨?_, ?_, hinv.cmds, hinv.threads, ?_⟩
  · obtain ⟨M, U, hshape, hM⟩ := hinv.good
    exact ⟨M, U, hshape, hM⟩
  · refine hinv.running.modify (keepsId_dispatched rest b) ?_
    intro t ht
    rw [hget, Option.some.injEq] at ht
    rw [← ht]
    exact (hinv.running hdl s hget).dispatched hq
  · exact Account.data hinv.running hinv.account hget hq rfl rfl rfl

theorem Inv.frame (hinv : Inv sys) (htaken : s.isBundled ∨ s.hasCb)
    (hget : sys.channel.getStream b.streamId = some s) (hq : b.bufIdx ∈ s.device.queued)
    (hcmd : s.isBundled → sys.channel.cmdThread.isSome) (hcb : s.hasCb → s.cmdThread.isSome) :
    Inv { sys with channel := sys.channel.frame s b } := by
  refine ⟨?_, ?_, ?_, ?_, ?_⟩
  · obtain ⟨M, U, hshape, hM⟩ := hinv.good
    exact ⟨M, U, hshape, hM⟩
  · refine hinv.running.modify (keepsId_dataNotify b) ?_
    intro t ht
    exact (hinv.running _ t ht).dataNotify (getStream_myHdl ht).symm
  · intro d hd c hc
    show c.streamId ∈ sys.channel.queue.bundledStreams
    by_cases hb : s.isBundled = true
    · obtain ⟨queue, hqueue⟩ := Option.isSome_iff_exists.mp (hcmd hb)
      simp only [ChannelObj.frame, hb, hqueue, if_true, Option.map_some, Option.getD_some,
        List.mem_append, List.mem_singleton] at hd
      rcases hd with hd | rfl
      · exact hinv.cmds d (by rw [hqueue]; exact hd) c hc
      · rw [List.mem_singleton.mp hc, ← getStream_myHdl hget]
        exact (hinv.running _ s hget).bundled hb
    · simp only [ChannelObj.frame, hb] at hd
      exact hinv.cmds d hd c hc
  · rcases hinv.threads with hthr | hthr
    · refine .inl ⟨?_, hthr.2⟩
      obtain ⟨queue, hqueue⟩ := Option.isSome_iff_exists.mp hthr.1
      by_cases hb : s.isBundled = true <;> simp [ChannelObj.frame, hb, hqueue]
    · refine .inr ⟨?_, hthr.2⟩
      simp [ChannelObj.frame, hthr.1]
  · exact Account.frame hinv.account hget hq hcmd hcb htaken

theorem Inv.qbuf (hinv : Inv sys) (hx : x ∈ sys.client) :
    Inv { sys with channel := sys.channel.qbuf x, client := sys.client.erase x } := by
  refine ⟨?_, hinv.running.qbuf x, hinv.cmds, hinv.threads, ?_⟩
  · obtain ⟨M, U, hshape, hM⟩ := hinv.good
    exact ⟨M, U, hshape, hM⟩
  · refine Account.release hinv.running.allActive hinv.account rfl ?_
    intro h
    have hpos : 0 < sys.client.count x := List.count_pos_iff.mpr hx
    show sys.inBundle h + (sys.client.erase x).count h + _ = _
    by_cases hxh : x = h
    · subst hxh
      rw [List.count_erase_self, if_pos rfl]
      omega
    · rw [List.count_erase_of_ne (Ne.symm hxh), if_neg hxh]
      rfl

/-- **Every step keeps the invariant**, if no buffer is lost in it. -/
theorem Inv.step {ev : Event} {given : List Handle} (hinv : Inv sys) (hkept : Kept sys ev)
    (hs : sys.step ev = some (sys', given)) : Inv sys' := by
  cases System.transition_of_step hs with
  | frame hget hq hcmd hcb => exact hinv.frame (hkept _ hget) hget hq hcmd hcb
  | request htaken hq => exact hinv.request htaken hq
  | command hpend hcmds hproc => exact hinv.command hkept hpend hcmds hproc
  | effect hpend => exact hinv.effect hpend
  | superbuf hqueue hgiven =>
    subst hgiven
    exact hinv.superbuf hqueue
  | data hget hq => exact hinv.data hget hq
  | qbuf hx => exact hinv.qbuf hx

end Inv

/-! ### Runs -/

/-- The buffers that are not queued at the start are with the client. -/
def HeldByClient (c : ChannelObj) (client : List Handle) : Prop :=
  ∀ h st, c.bufStatus h = some st → client.count h = if st.initialRegFlag then 0 else 1

/-- The count of every buffer is the number of its holders, a buffer marked as
in the kernel has count 0, and the kernel has exactly the buffers without a
holder, each of them once. -/
def Accounted (sys : System) : Prop :=
  ∀ h st, sys.channel.bufStatus h = some st →
    st.bufRefcnt.toNat = sys.holders h ∧
    (st.inKernel = true → st.bufRefcnt = 0) ∧
    (sys.holders h = 0 ↔ st.inKernel = true) ∧
    sys.channel.inDevice h = if sys.holders h = 0 then 1 else 0

section Runs

variable {env : UInt32 → StreamOps} {c c' : ChannelObj} {client : List Handle} {sys : System}
  {evs : List Event} {given : List Handle}

theorem count_flaggedFrom (i j : ℕ) (flags : List Bool) :
    (flaggedFrom i flags).count j = if i ≤ j ∧ flags[j - i]? = some true then 1 else 0 := by
  induction flags generalizing i with
  | nil => simp [flaggedFrom]
  | cons flag flags ih =>
    have hrest : i < j → (flag :: flags)[j - i]? = flags[j - (i + 1)]? := by
      intro hlt
      rw [show j - i = j - (i + 1) + 1 by omega, List.getElem?_cons_succ]
    rcases Nat.lt_trichotomy i j with hlt | rfl | hgt
    · have hle : i + 1 ≤ j := hlt
      cases flag <;>
        simp [flaggedFrom, ih, hrest hlt, Nat.le_of_lt hlt, hle, hlt.ne]
    · cases flag <;> simp [flaggedFrom, ih]
    · have hle : ¬ i + 1 ≤ j := by omega
      cases flag <;> simp [flaggedFrom, ih, Nat.not_le.mpr hgt, hle, hgt.ne']

theorem Settled.registered (flag : Bool) :
    Settled (.registered flag) (if flag then 1 else 0) (if flag then 0 else 1) := by
  cases flag <;> exact ⟨rfl, rfl, by simp [BufStatus.registered]⟩

/-- The bundle of a channel that is about to start its streams: its queue is
empty, and its threads run if it has a callback. -/
theorem prepare_bundle (h : c.Configured) :
    c.prepare.queue.Fresh ∧ c.prepare.superBufNotifyCb = c.superBufNotifyCb ∧
    (c.superBufNotifyCb = true → c.prepare.queue.bundledStreams = c.startOrder ∧
      c.prepare.cmdThread = some [] ∧ c.prepare.cbThread = some []) ∧
    (c.superBufNotifyCb = false → c.prepare.cmdThread = none ∧ c.prepare.cbThread = none) := by
  unfold ChannelObj.prepare
  cases hcb : c.superBufNotifyCb with
  | true => exact ⟨⟨rfl, rfl, h.fresh.2.2⟩, hcb, fun _ => ⟨rfl, rfl, rfl⟩, by simp⟩
  | false => exact ⟨h.fresh, hcb, by simp, fun _ => ⟨h.cmdThread, h.cbThread⟩⟩

theorem bundleBufs_start {l : List StreamObj} (h : c.Configured) :
    System.bundleBufs ⟨{ c.prepare with streams := l }, [], client⟩ = [] := by
  obtain ⟨hfresh, -, hcb, hno⟩ := prepare_bundle h
  have hstored : c.prepare.queue.stored = [] := by simp [Superbuf.Queue.stored, hfresh.1]
  unfold System.bundleBufs ChannelObj.bundleBufs
  cases hc : c.superBufNotifyCb with
  | true => simp [hstored, (hcb hc).2.1, (hcb hc).2.2, Superbuf.returned, Superbuf.sent]
  | false => simp [hstored, (hno hc).1, (hno hc).2, Superbuf.returned, Superbuf.sent]

/-- **A started channel meets the invariant.** -/
theorem Inv.of_start (h : c.Configured) (hstart : c.start env = (0, c'))
    (hclient : HeldByClient c' client) : Inv ⟨c', [], client⟩ := by
  obtain ⟨rc, l, heq⟩ := start_eq env c
  rw [hstart] at heq
  have hc' : c' = { c.prepare with streams := l } := (Prod.mk.inj heq).2
  obtain ⟨hfresh, hnotify, hcb, hno⟩ := prepare_bundle h
  have hcmds : c'.cmdThread.getD [] = [] := by
    rw [hc']
    cases hc : c.superBufNotifyCb with
    | true => simp [(hcb hc).2.1]
    | false => simp [(hno hc).1]
  refine ⟨?_, ?_, ?_, ?_, ?_⟩
  · refine .of_fresh ?_
    rw [hc']
    exact hfresh
  · intro hdl s' hs'
    obtain ⟨s, flags, hs, -, rfl⟩ := getStream_of_start h hstart hs'
    refine ⟨rfl, ?_, h.callbacks hdl s hs, ?_⟩
    · intro hbundled
      show s.myHdl ∈ c'.queue.bundledStreams
      rw [hc', (hcb hbundled).1, getStream_myHdl hs]
      exact h.mem_startOrder.mpr ⟨s, hs⟩
    · intro b hb
      by_cases hcb : StreamObj.hasCb { s with isBundled := c.superBufNotifyCb }
      all_goals simp [StreamObj.started, hcb] at hb
  · intro cmd hcmd
    rw [hcmds] at hcmd
    cases hcmd
  · show System.Threads ⟨c', [], client⟩
    rw [hc']
    cases hc : c.superBufNotifyCb with
    | true =>
      exact .inl ⟨by simp [(hcb hc).2.1], by simp [(hcb hc).2.2], hnotify.trans hc⟩
    | false => exact .inr ⟨(hno hc).1, by simp [(hno hc).2], rfl⟩
  · intro x st hst
    have hB : System.inBundle ⟨c', [], client⟩ x = 0 := by
      rw [hc', System.inBundle, bundleBufs_start h]
      rfl
    have hC := hclient x st hst
    rw [ChannelObj.bufStatus] at hst
    cases hs' : c'.getStream x.1 with
    | none =>
      rw [hs'] at hst
      cases hst
    | some s' =>
      obtain ⟨s, flags, -, -, rfl⟩ := getStream_of_start h hstart hs'
      rw [hs'] at hst
      simp only [Option.bind_some, StreamObj.status, StreamObj.started, Option.getD_some,
        List.getElem?_map, Option.map_eq_some_iff] at hst
      obtain ⟨flag, hflag, rfl⟩ := hst
      have hreg : (BufStatus.registered flag).initialRegFlag = flag := by cases flag <;> rfl
      rw [hreg] at hC
      have hS : System.inStream ⟨c', [], client⟩ x = 0 := by
        rw [System.inStream, ChannelObj.streamBufs, hs']
        by_cases hcb : StreamObj.hasCb { s with isBundled := c.superBufNotifyCb }
        all_goals simp [StreamObj.started, hcb]
      have hdev : c'.inDevice x = if flag then 1 else 0 := by
        rw [ChannelObj.inDevice, hs']
        simp [StreamObj.started, count_flaggedFrom, hflag]
      have hn : System.holders ⟨c', [], client⟩ x = if flag then 0 else 1 := by
        rw [holders_eq, hB, hS, hC]
        simp
      refine ⟨?_, ?_⟩
      · rw [hn]
        show Settled _ (c'.inDevice x) _
        rw [hdev]
        exact .registered flag
      · rw [hB, hS, hC]
        split <;> simp [streamBufCbMax]

theorem Inv.accounted (hinv : Inv sys) : Accounted sys := by
  intro h st hst
  obtain ⟨⟨hcount, hkernel, hin⟩, -⟩ := hinv.account h st hst
  refine ⟨hcount, ?_, hin.symm, hkernel⟩
  intro hk
  refine UInt8.toNat_inj.mp ?_
  rw [hcount, hin.mp hk]
  rfl

/-- **Reference counts of stream buffers.**  In every run of a started channel
in which every received buffer is taken by the bundle or by a data callback and
the matcher drops none, the count of each buffer is the number of its holders,
and the kernel has exactly the buffers without one. -/
theorem buf_refcnt_accounted (h : c.Configured) (hstart : c.start env = (0, c'))
    (hclient : HeldByClient c' client)
    (hrun : Runs System.step Kept ⟨c', [], client⟩ evs given sys) : Accounted sys := by
  have hinv := hrun.inv (fun _ _ sys => Inv sys) (.of_start h hstart hclient)
    (fun _ _ _ _ _ _ hinv hkept hs => hinv.step hkept hs)
  exact hinv.accounted

end Runs

theorem bufStatus_mem {c : ChannelObj} {h : Handle} {st : BufStatus}
    (hst : c.bufStatus h = some st) : ∃ s ∈ c.streams, st ∈ s.bufStatus.getD [] := by
  obtain ⟨s, hs, hst⟩ := Option.bind_eq_some_iff.mp hst
  exact ⟨s, List.mem_of_find?_eq_some hs, List.mem_of_getElem? hst⟩

theorem previewChannel_heldByClient (cb : Bool) :
    HeldByClient ((previewChannel false cb).start fun _ => ampleOps).2 [] := by
  intro h st hst
  obtain ⟨s, hs, hmem⟩ := bufStatus_mem hst
  have hall : ∀ cb, ∀ s ∈ ((previewChannel false cb).start fun _ => ampleOps).2.streams,
      ∀ st ∈ s.bufStatus.getD [], st.initialRegFlag = true := by decide
  rw [hall cb s hs st hmem]
  rfl

theorem buf_refcnt_accounted_preview : ∃ sys,
    Runs System.step Kept ⟨((previewChannel false true).start fun _ => ampleOps).2, [], []⟩
      [.frame 1 0 7 none, .data 1, .qbuf (1, 0)] [(1, 0)] sys ∧ Accounted sys := by
  have hframe : Kept ⟨((previewChannel false true).start fun _ => ampleOps).2, [], []⟩
      (.frame 1 0 7 none) := by
    intro s hs
    cases hs
    exact .inr rfl
  obtain ⟨sys, hexec⟩ : ∃ sys, exec System.step
      ⟨((previewChannel false true).start fun _ => ampleOps).2, [], []⟩
      [.frame 1 0 7 none, .data 1, .qbuf (1, 0)] = some (sys, [(1, 0)]) := ⟨_, rfl⟩
  have hrun := runs_of_exec_guarded (G := Kept) .nil hexec
    ⟨hframe, fun _ _ => ⟨trivial, fun _ _ => ⟨trivial, fun _ _ => trivial⟩⟩⟩
  exact ⟨sys, hrun, buf_refcnt_accounted (previewChannel_configured false true)
    (show (previewChannel false true).start (fun _ => ampleOps) = (0, _) from rfl)
    (previewChannel_heldByClient true) hrun⟩

/-- A buffer of a stream that is neither bundled nor has a callback is stranded:
it has left the kernel and nobody has it. -/
theorem buf_refcnt_not_accounted_noCallback : (previewChannel false false).Configured ∧
    ((previewChannel false false).start fun _ => ampleOps).1 = 0 ∧
    HeldByClient ((previewChannel false false).start fun _ => ampleOps).2 [] ∧
    ∃ sys, Runs System.step (fun _ _ => True)
      ⟨((previewChannel false false).start fun _ => ampleOps).2, [], []⟩
      [.frame 1 0 7 none] [] sys ∧
    ¬ Accounted sys := by
  refine ⟨previewChannel_configured false false, rfl, previewChannel_heldByClient false, _,
    .single trivial rfl, ?_⟩
  intro hacc
  have h := (hacc (1, 0) ⟨0, true, false⟩ rfl).2.2.1
  revert h
  decide
end Interface

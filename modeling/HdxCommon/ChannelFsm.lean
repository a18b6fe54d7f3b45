/-
The state machine of a channel, `mm_channel_fsm_fn`, over its four streams.

In the stopped state streams are added, configured and deleted, and the channel
is started; in the active state it is stopped.  Any other event is ignored, and
so is an event that the state machine of a stream does not expect.

* `Slots` — a stream in use sits in the slot its handle names;
* `Idle` and `Serving` — what the streams of a stopped and of an active channel
  are like, whichever calls into the kernel failed on the way there;
* `channel_agrees_with_streams` — both along every run in which the streams are
  configured before a start.
-/
import HdxCommon.ChannelStart
import HdxCommon.Handlers

namespace Interface

open Superbuf (StreamType Attr)

/-! ### Adding, configuring and deleting streams -/

/-- `mm_camera_stream_config_t`: the type of the stream, and whether it has a
callback of its own. -/
structure StreamConfig where
  streamInfo : StreamType
  streamCb : Bool

namespace StreamObj

/-- A stream object set to 0.  The entry in the poll thread of the channel is
not a part of the object. -/
def memset (s : StreamObj) : StreamObj where
  myHdl := 0
  state := .notUsed
  streamInfo := none
  isBundled := false
  bufCb := List.replicate streamBufCbMax ⟨false, 0⟩
  bufStatus := none
  cmdThread := none
  pollEntry := s.pollEntry
  device := ⟨false, [], false⟩

/-- The ACQUIRE event, with the outcomes of opening the device and of setting
its mode. -/
def acquire (opened extMode : Bool) (s : StreamObj) : ℤ × StreamObj :=
  match s.state with
  | .notUsed => (-1, s)
  | .inited => if opened && extMode then (0, { s with state := .acquired }) else (-1, s)
  | _ => (0, s)

/-- The SET_FMT event, `mm_stream_config`.  The stream counts as configured also
when one of the calls into the kernel fails. -/
def setFmt (config : StreamConfig) (synced fmt : Bool) (s : StreamObj) : ℤ × StreamObj :=
  match s.state with
  | .notUsed => (-1, s)
  | .acquired | .cfg =>
    (if synced && fmt then 0 else -1,
      { s with
        state := .cfg
        streamInfo := some config.streamInfo
        bufCb := s.bufCb.set 0 ⟨config.streamCb, -1⟩ })
  | _ => (0, s)

/-- The RELEASE event, `mm_stream_release`. -/
def release (s : StreamObj) : ℤ × StreamObj :=
  match s.state with
  | .notUsed => (-1, s)
  | .acquired | .cfg => (0, s.memset)
  | _ => (0, s)

/-- The stream object of a slot when a stream is added to it, and the handle
that is returned: 0 if the stream cannot be acquired. -/
def add (hdl : UInt32) (opened extMode : Bool) (s : StreamObj) : UInt32 × StreamObj :=
  let (rc, s) := { s.memset with myHdl := hdl, state := .inited }.acquire opened extMode
  if rc = 0 then (s.myHdl, s) else (0, s.memset)

end StreamObj

/-- `MAX_STREAM_NUM_IN_BUNDLE`. -/
def maxStreamNumInBundle : ℕ := 4

namespace ChannelObj

/-- A channel object that `mm_channel_init` has set up. -/
def init (attr : Attr) (channelCb : Bool) : ChannelObj where
  state := .stopped
  isActive := false
  queue := ⟨[], 0, [], attr, 0, 0⟩
  superBufNotifyCb := channelCb
  pendingCnt := 0
  startZslSnapshotCalled := false
  needLedFlash := false
  cmdThread := none
  cbThread := none
  streams := List.replicate maxStreamNumInBundle
    (StreamObj.memset ⟨0, .notUsed, none, false, [], none, none, false, ⟨false, [], false⟩⟩)

/-- `mm_channel_add_stream`: the first free slot is taken. -/
def addStream (count : UInt16) (opened extMode : Bool) (c : ChannelObj) :
    UInt32 × UInt16 × ChannelObj :=
  match c.streams.findIdx? fun s => s.state = .notUsed with
  | none => (0, count, c)
  | some idx =>
    let (count, hdl) := generateHandler count (UInt8.ofNat idx)
    (c.streams[idx]?.elim 0 fun s => (s.add hdl opened extMode).1, count,
      { c with streams := c.streams.modify idx fun s => (s.add hdl opened extMode).2 })

/-- `mm_channel_del_stream`. -/
def delStream (streamId : UInt32) (c : ChannelObj) : ℤ × ChannelObj :=
  match c.getStream streamId with
  | none => (-1, c)
  | some s => (s.release.1, c.modifyStream streamId fun s => s.release.2)

/-- `mm_channel_config_stream`. -/
def configStream (streamId : UInt32) (config : StreamConfig) (synced fmt : Bool)
    (c : ChannelObj) : ℤ × ChannelObj :=
  match c.getStream streamId with
  | none => (-1, c)
  | some s =>
    ((s.setFmt config synced fmt).1,
      c.modifyStream streamId fun s => (s.setFmt config synced fmt).2)

end ChannelObj

/-! ### The state machine -/

/-- The events of a channel, with the outcomes of the calls into the kernel that
they lead to. -/
inductive ChannelEvt where
  | addStream (opened extMode : Bool)
  | delStream (streamId : UInt32)
  | configStream (streamId : UInt32) (config : StreamConfig) (synced fmt : Bool)
  | start (env : UInt32 → StreamOps)
  | stop (env : UInt32 → StreamOps)

/-- What an event of a channel answers: the return code, and the handle of a
stream added. -/
structure Answer where
  rc : ℤ
  outVal : Option UInt32
  deriving DecidableEq

structure Session where
  historyCount : UInt16
  sys : System
  deriving DecidableEq

/-- What can happen to a channel: an event, a step of its traffic, or another
object of the process taking a handle. -/
inductive SessionEvt where
  | channel (evt : ChannelEvt)
  | traffic (ev : Event)
  | handler (index : UInt8)

namespace Session

def withChannel (s : Session) (c : ChannelObj) : Session :=
  { s with sys := { s.sys with channel := c } }

/-- `mm_channel_fsm_fn`. -/
def fsmFn (s : Session) (evt : ChannelEvt) : Option (Answer × Session) :=
  let c := s.sys.channel
  match c.state, evt with
  | .notUsed, _ => some (⟨-1, none⟩, s)
  | .stopped, .addStream opened extMode =>
    let (hdl, count, c) := c.addStream s.historyCount opened extMode
    some (⟨0, some hdl⟩, { s.withChannel c with historyCount := count })
  | .stopped, .delStream streamId =>
    let (rc, c) := c.delStream streamId
    some (⟨rc, none⟩, s.withChannel c)
  | .stopped, .configStream streamId config synced fmt =>
    let (rc, c) := c.configStream streamId config synced fmt
    some (⟨rc, none⟩, s.withChannel c)
  | .stopped, .start env =>
    let (rc, c) := c.startEvt env
    some (⟨rc, none⟩, s.withChannel c)
  | .active, .stop env => do
    let sys ← s.sys.stop env
    return (⟨0, none⟩, { s with sys := sys })
  | _, _ => some (⟨0, none⟩, s)

def step (s : Session) : SessionEvt → Option (Session × List Answer)
  | .channel evt => do
    let (answer, s) ← s.fsmFn evt
    return (s, [answer])
  | .traffic ev => do
    let (sys, _) ← s.sys.step ev
    return ({ s with sys := sys }, [])
  | .handler index => some ({ s with historyCount := (generateHandler s.historyCount index).1 }, [])

end Session

/-! ### Slots -/

/-- What a slot shows of its stream: the handle, and whether it is in use. -/
def StreamObj.ident (s : StreamObj) : UInt32 × Bool := (s.myHdl, decide (s.state ≠ .notUsed))

/-- The handle of a stream in use names its slot; a free slot has no handle. -/
structure Slots (c : ChannelObj) : Prop where
  length : c.streams.length = maxStreamNumInBundle
  used : ∀ (i : ℕ) s, c.streams[i]? = some s → s.state ≠ .notUsed →
    s.myHdl ≠ 0 ∧ (getIndexByHandler s.myHdl).toNat = i
  free : ∀ s ∈ c.streams, s.state = .notUsed → s.myHdl = 0

section Slots

variable {c c' : ChannelObj} {s t : StreamObj} {hdl : UInt32} {hdls : List UInt32}
  {f : UInt32 → StreamObj → StreamObj}

theorem StreamObj.ident_eq_iff :
    s.ident = t.ident ↔ s.myHdl = t.myHdl ∧ (s.state = .notUsed ↔ t.state = .notUsed) := by
  simp only [StreamObj.ident, Prod.mk.injEq, decide_eq_decide, ne_eq, not_iff_not]

theorem Slots.congr (h : Slots c)
    (hids : c'.streams.map StreamObj.ident = c.streams.map StreamObj.ident) : Slots c' := by
  have hat : ∀ (i : ℕ) s', c'.streams[i]? = some s' → ∃ s, c.streams[i]? = some s ∧
      s'.myHdl = s.myHdl ∧ (s'.state = .notUsed ↔ s.state = .notUsed) := by
    intro i s' hs'
    have hi := congrArg (·[i]?) hids
    simp only [List.getElem?_map, hs', Option.map_some] at hi
    obtain ⟨s, hs, heq⟩ := Option.map_eq_some_iff.mp hi.symm
    exact ⟨s, hs, StreamObj.ident_eq_iff.mp heq.symm⟩
  refine ⟨?_, ?_, ?_⟩
  · have hlen := congrArg List.length hids
    rw [List.length_map, List.length_map] at hlen
    exact hlen.trans h.length
  · intro i s' hs' hused
    obtain ⟨s, hs, hhdl, hst⟩ := hat i s' hs'
    rw [hhdl]
    exact h.used i s hs fun hfree => hused (hst.mpr hfree)
  · intro s' hs' hfree
    obtain ⟨i, hi⟩ := List.mem_iff_getElem?.mp hs'
    obtain ⟨s, hs, hhdl, hst⟩ := hat i s' hi
    rw [hhdl]
    exact h.free s (List.mem_of_getElem? hs) (hst.mp hfree)

theorem Slots.used_of_mem (h : Slots c) (hs : s ∈ c.streams) (hused : s.state ≠ .notUsed) :
    s.myHdl > 0 := by
  obtain ⟨i, hi⟩ := List.mem_iff_getElem?.mp hs
  exact UInt32.pos_iff_ne_zero.mpr (h.used i s hi hused).1

theorem Slots.eq_of_myHdl_eq (h : Slots c) (hs : s ∈ c.streams) (ht : t ∈ c.streams)
    (hus : s.state ≠ .notUsed) (hut : t.state ≠ .notUsed) (heq : s.myHdl = t.myHdl) : s = t := by
  obtain ⟨i, hi⟩ := List.mem_iff_getElem?.mp hs
  obtain ⟨j, hj⟩ := List.mem_iff_getElem?.mp ht
  have hij : i = j := by
    rw [← (h.used i s hi hus).2, heq, (h.used j t hj hut).2]
  rw [hij] at hi
  exact Option.some.inj (hi.symm.trans hj)

theorem Slots.getStream_of_mem (h : Slots c) (hs : s ∈ c.streams) (hused : s.state ≠ .notUsed) :
    c.getStream s.myHdl = some s := by
  have hsome : (c.getStream s.myHdl).isSome := by
    rw [ChannelObj.getStream, List.find?_isSome]
    exact ⟨s, hs, by simp [hused]⟩
  obtain ⟨t, ht⟩ := Option.isSome_iff_exists.mp hsome
  have hut := List.find?_some ht
  simp only [Bool.and_eq_true, decide_eq_true_eq, beq_iff_eq] at hut
  rw [ht, h.eq_of_myHdl_eq hs (List.mem_of_find?_eq_some ht) hused hut.1 hut.2]

theorem Slots.positive (h : Slots c) : ∀ hdl s, c.getStream hdl = some s → hdl > 0 := by
  intro hdl s hs
  have hused := List.find?_some hs
  simp only [Bool.and_eq_true, decide_eq_true_eq] at hused
  rw [← getStream_myHdl hs]
  exact h.used_of_mem (List.mem_of_find?_eq_some hs) hused.1

theorem Slots.distinct (h : Slots c) :
    ((c.streams.map StreamObj.myHdl).filter fun hdl => hdl > 0).Nodup := by
  rw [List.Nodup, List.pairwise_filter, List.pairwise_map, List.pairwise_iff_getElem]
  intro i j hi hj hlt hpos hpos' heq
  have hused : ∀ k (hk : k < c.streams.length), c.streams[k].myHdl > 0 →
      c.streams[k].state ≠ .notUsed := by
    intro k hk hpos hfree
    rw [h.free _ (List.getElem_mem hk) hfree] at hpos
    exact absurd hpos (by decide)
  have hi' := h.used i _ (List.getElem?_eq_getElem hi) (hused i hi (by simpa using hpos))
  have hj' := h.used j _ (List.getElem?_eq_getElem hj) (hused j hj (by simpa using hpos'))
  rw [heq] at hi'
  omega

theorem Slots.mem_startOrder (h : Slots c) (hs : s ∈ c.streams) :
    s.myHdl ∈ c.startOrder ↔ s.state ≠ .notUsed := by
  rw [mem_startOrder_iff h.positive]
  constructor
  · rintro ⟨t, ht⟩ hfree
    have hpos := h.positive _ t ht
    rw [h.free s hs hfree] at hpos
    exact absurd hpos (by decide)
  · intro hused
    exact ⟨s, h.getStream_of_mem hs hused⟩

theorem Slots.nodup_startOrder (h : Slots c) : c.startOrder.Nodup :=
  (startOrder_perm c).nodup_iff.mpr (nodup_usedStreams h.distinct)

theorem stopOrder_perm (c : ChannelObj) : c.stopOrder.Perm c.startOrder := by
  refine .trans ?_ (startOrder_perm c).symm
  simp only [ChannelObj.stopOrder]
  split
  · exact swapAt_perm _ _ _
  · exact .refl _

theorem idents_modifyStream {f : StreamObj → StreamObj} (hf : KeepsId f) (c : ChannelObj)
    (hdl : UInt32) :
    (c.modifyStream hdl f).streams.map StreamObj.ident = c.streams.map StreamObj.ident := by
  simp only [ChannelObj.modifyStream, List.map_map]
  refine List.map_congr_left ?_
  intro s _
  by_cases hs : s.myHdl = hdl
  · simp only [Function.comp, hs, if_true]
    exact StreamObj.ident_eq_iff.mpr (hf s)
  · simp only [Function.comp, hs, if_false]

theorem modifyStreams_streams (hf : ∀ hdl, KeepsId (f hdl)) (hnd : hdls.Nodup) (c : ChannelObj) :
    (c.modifyStreams f hdls).streams =
      c.streams.map fun s => if s.myHdl ∈ hdls then f s.myHdl s else s := by
  induction hdls generalizing c with
  | nil => simp [ChannelObj.modifyStreams]
  | cons hdl rest ih =>
    obtain ⟨hnot, hnd⟩ := List.nodup_cons.mp hnd
    show ((c.modifyStream hdl (f hdl)).modifyStreams f rest).streams = _
    rw [ih hnd, ChannelObj.modifyStream, List.map_map]
    refine List.map_congr_left ?_
    intro s _
    by_cases hs : s.myHdl = hdl
    · simp [hs, (hf hdl s).1, hnot]
    · simp [hs]

theorem idents_modifyStreams (hf : ∀ hdl, KeepsId (f hdl)) (hnd : hdls.Nodup) (c : ChannelObj) :
    (c.modifyStreams f hdls).streams.map StreamObj.ident = c.streams.map StreamObj.ident := by
  rw [modifyStreams_streams hf hnd, List.map_map]
  refine List.map_congr_left ?_
  intro s _
  simp only [Function.comp]
  split
  · exact StreamObj.ident_eq_iff.mpr (hf _ s)
  · rfl

end Slots

/-! ### One stream -/

structure StreamObj.Idle (s : StreamObj) : Prop where
  state : s.state = .notUsed ∨ s.state = .acquired ∨ s.state = .cfg
  bufStatus : s.bufStatus = none
  pollEntry : s.pollEntry = false

/-- The buffers of a stream are allocated, and the kernel was asked for that
many. -/
def StreamObj.Registered (s : StreamObj) : Prop :=
  ∃ bufs, s.bufStatus = some bufs ∧ bufs.length ≤ maxNumFrames ∧
    s.device.requested = decide (0 < bufs.length)

/-- A stream of an active channel: it streams, unless its slot is free. -/
def StreamObj.Serving (s : StreamObj) : Prop :=
  s.state = .notUsed ∧ s.Idle ∨ s.state = .active ∧ s.Registered

/-- A stream that was taken out of CFG and may be on its way to ACTIVE. -/
structure StreamObj.Starting (s : StreamObj) : Prop where
  state : s.state = .cfg ∧ s.bufStatus = none ∨ s.state = .buffed ∨ s.state = .reg ∨
    s.state = .active
  pollEntry : s.state ≠ .active → s.pollEntry = false

section OneStream

open StreamObj

variable {s : StreamObj} (ops : StreamOps)

theorem regLoop_length (i : ℕ) (bufs : List BufStatus) :
    (regLoop ops i bufs).2.1.length = bufs.length := by
  induction bufs generalizing i with
  | nil => rfl
  | cons st rest ih =>
    simp only [regLoop]
    split_ifs
    · simp [ih]
    · rfl
    · simp [ih]

theorem fsmFn_getBuf_cases (hst : s.state = .cfg) (hbufs : s.bufStatus = none) :
    s.fsmFn ops .getBuf = (-1, s) ∨ ∃ flags : List Bool, s.fsmFn ops .getBuf =
      (0, { s with state := .buffed, bufStatus := some (flags.map .fresh) }) := by
  obtain ⟨hdl, state, info, bundled, cbs, bufs, thread, poll, dev⟩ := s
  obtain rfl : state = .cfg := hst
  obtain rfl : bufs = none := hbufs
  cases hget : ops.getBufs with
  | none =>
    left
    simp [fsmFn, initBufs, deinitBufs, hget]
  | some flags =>
    cases hmem : ops.statusMem with
    | true =>
      right
      refine ⟨flags, ?_⟩
      simp [fsmFn, initBufs, deinitBufs, hget, hmem]
    | false =>
      left
      simp [fsmFn, initBufs, deinitBufs, hget, hmem]

theorem fsmFn_regBuf_cases {bufs : List BufStatus} (hst : s.state = .buffed)
    (hbufs : s.bufStatus = some bufs) :
    ((s.fsmFn ops .regBuf).1 ≠ 0 ∧ (s.fsmFn ops .regBuf).2.state = .buffed ∨
      (s.fsmFn ops .regBuf).2.state = .reg ∧ (s.fsmFn ops .regBuf).2.Registered) ∧
    (s.fsmFn ops .regBuf).2.pollEntry = s.pollEntry := by
  obtain ⟨hdl, state, info, bundled, cbs, _, thread, poll, dev⟩ := s
  obtain rfl : state = .buffed := hst
  obtain rfl := hbufs
  by_cases hlen : bufs.length > maxNumFrames
  · simp [fsmFn, regBuf, requestBuf, hlen]
  cases hreq : ops.reqBufs with
  | false => simp [fsmFn, regBuf, requestBuf, hlen, hreq]
  | true =>
    have hbufs' := regLoop_length ops 0 bufs
    generalize hloop : regLoop ops 0 bufs = r at hbufs'
    obtain ⟨rc, bufs', queued⟩ := r
    have hbufs' : bufs'.length = bufs.length := hbufs'
    by_cases hrc : rc = 0
    · refine ⟨.inr ?_, ?_⟩
      · simp only [fsmFn, regBuf, requestBuf, Option.getD_some, hlen, hreq, if_true, if_false,
          hloop, hrc, Option.map_some]
        exact ⟨rfl, bufs', rfl, by omega, by simp [hbufs']⟩
      · simp [fsmFn, regBuf, requestBuf, hlen, hreq, hloop, hrc]
    · simp [fsmFn, regBuf, requestBuf, hlen, hreq, hloop, hrc]

theorem fsmFn_start_cases (hst : s.state = .reg) :
    (s.fsmFn ops .start).1 = 0 ∧ (s.fsmFn ops .start).2.state = .active ∧
      (s.Registered → (s.fsmFn ops .start).2.Registered) ∨
    (s.fsmFn ops .start).1 ≠ 0 ∧ (s.fsmFn ops .start).2.state = .reg ∧
      (s.fsmFn ops .start).2.pollEntry = false := by
  obtain ⟨hdl, state, info, bundled, cbs, bufs, thread, poll, dev⟩ := s
  obtain rfl : state = .reg := hst
  simp only [fsmFn, streamon]
  cases ops.streamOn with
  | true => exact .inl ⟨rfl, rfl, id⟩
  | false => exact .inr ⟨by simp, rfl, rfl⟩

/-- A configured stream that is started is active and registered if that
succeeds, and on its way there if not. -/
theorem startStream_starting (hst : s.state = .cfg) (h : s.Idle) :
    (s.startStream ops).2.Starting ∧ ((s.startStream ops).1 = 0 →
      (s.startStream ops).2.state = .active ∧ (s.startStream ops).2.Registered) := by
  simp only [startStream, hst]
  rcases fsmFn_getBuf_cases ops hst h.bufStatus with hget | ⟨flags, hget⟩
  · rw [hget]
    exact ⟨⟨.inl ⟨hst, h.bufStatus⟩, fun _ => h.pollEntry⟩, by simp⟩
  rw [hget]
  obtain ⟨hreg, hpoll⟩ := fsmFn_regBuf_cases ops
    (s := { s with state := .buffed, bufStatus := some (flags.map .fresh) }) rfl rfl
  have hpoll' := hpoll.trans h.pollEntry
  generalize fsmFn ops _ .regBuf = r at hreg hpoll' ⊢
  obtain ⟨rc, s₁⟩ := r
  simp only [reduceCtorEq, if_false, ne_eq, not_true_eq_false]
  rcases hreg with ⟨hrc, hst₁⟩ | ⟨hst₁, hreg⟩
  · rw [if_pos hrc]
    exact ⟨⟨.inr (.inl hst₁), fun _ => hpoll'⟩, fun h0 => absurd h0 hrc⟩
  split
  · exact ⟨⟨.inr (.inr (.inl hst₁)), fun _ => hpoll'⟩, fun h0 => absurd h0 (by assumption)⟩
  · rcases fsmFn_start_cases ops hst₁ with ⟨-, hst₂, hreg₂⟩ | ⟨hrc, hst₂, hpoll₂⟩
    · exact ⟨⟨.inr (.inr (.inr hst₂)), fun hne => absurd hst₂ hne⟩, fun _ => ⟨hst₂, hreg₂ hreg⟩⟩
    · exact ⟨⟨.inr (.inr (.inl hst₂)), fun _ => hpoll₂⟩, fun h0 => absurd h0 hrc⟩

/-- The three events of the error handling take a stream back from wherever it
got to, whatever they return. -/
theorem undoStream_idle (h : s.Starting) : (s.undoStream ops).Idle := by
  obtain ⟨hdl, state, info, bundled, cbs, bufs, thread, poll, dev⟩ := s
  obtain ⟨hst, hpoll⟩ := h
  simp only [undoStream]
  rcases hst with ⟨rfl, rfl⟩ | rfl | rfl | rfl
  · exact ⟨.inr (.inr rfl), rfl, hpoll (by simp)⟩
  · exact ⟨.inr (.inr rfl), by cases bufs <;> rfl, by cases bufs <;> exact hpoll (by simp)⟩
  · simp only [fsmFn, unregBuf, deinitBufs]
    cases ops.unreqBufs <;> cases bufs <;>
      exact ⟨.inr (.inr rfl), rfl, hpoll (by simp)⟩
  · simp only [fsmFn, streamoff, unregBuf, deinitBufs]
    cases ops.streamOff <;> cases ops.unreqBufs <;> cases bufs <;>
      exact ⟨.inr (.inr rfl), rfl, rfl⟩

end OneStream

section Start

variable {c : ChannelObj} {env : UInt32 → StreamOps} {hdls : List UInt32}

theorem mem_streams_prepare {s : StreamObj} (hs : s ∈ c.prepare.streams) :
    ∃ t ∈ c.streams, ∃ flag, s = { t with isBundled := flag } := by
  unfold ChannelObj.prepare at hs
  split at hs
  · obtain ⟨t, ht, rfl⟩ := List.mem_map.mp hs
    refine ⟨t, ht, ?_⟩
    split
    · exact ⟨true, rfl⟩
    · exact ⟨t.isBundled, rfl⟩
  · exact ⟨s, hs, s.isBundled, rfl⟩

theorem idents_prepare (c : ChannelObj) :
    c.prepare.streams.map StreamObj.ident = c.streams.map StreamObj.ident := by
  unfold ChannelObj.prepare
  split
  · simp only [ChannelObj.startBundle, List.map_map]
    refine List.map_congr_left ?_
    intro s _
    simp only [Function.comp]
    split
    all_goals rfl
  · rfl

theorem start_state (env : UInt32 → StreamOps) (c : ChannelObj) :
    (c.start env).2.state = c.state := by
  obtain ⟨rc, l, heq⟩ := start_eq env c
  rw [heq]
  show c.prepare.state = c.state
  unfold ChannelObj.prepare
  split <;> rfl

/-- **The loop of the start**: all streams run, or all are idle again after the
error handling. -/
theorem startStreams_serving_or_idle (h : Slots c) (hnd : hdls.Nodup)
    (hhdls : ∀ hdl ∈ hdls, ∃ s, c.getStream hdl = some s)
    (hmem : ∀ s ∈ c.streams, s.state ≠ .notUsed → s.myHdl ∈ hdls)
    (hidle : ∀ s ∈ c.streams, s.Idle)
    (hcfg : ∀ s ∈ c.streams, s.state ≠ .notUsed → s.state = .cfg) :
    (∃ c', c.startStreams env hdls = (0, hdls, c') ∧ Slots c' ∧ ∀ s ∈ c'.streams, s.Serving) ∨
    ∃ rc tried c', c.startStreams env hdls = (rc, tried, c') ∧ rc ≠ 0 ∧
      Slots (c'.undoStreams env tried) ∧ ∀ s ∈ (c'.undoStreams env tried).streams, s.Idle := by
  -- a stream whose handle is in the list is configured
  have hused : ∀ s ∈ c.streams, s.myHdl ∈ hdls → s.state ≠ .notUsed := by
    intro s hs hin hfree
    obtain ⟨t, ht⟩ := hhdls s.myHdl hin
    have hpos := h.positive _ t ht
    rw [h.free s hs hfree] at hpos
    exact absurd hpos (by decide)
  have hstart := startAll_keepsId env
  have hundo : ∀ hdl, KeepsId fun s => s.undoStream (env hdl) := fun hdl => undoStream_keepsId _
  rcases @startStreams_rounds c env hdls hnd hhdls with
    ⟨hall, heq⟩ | ⟨done, hdl, rest, s, rfl, -, -, hrc, heq⟩
  · refine .inl ⟨_, heq, h.congr (idents_modifyStreams hstart hnd c), ?_⟩
    intro s' hs'
    rw [modifyStreams_streams hstart hnd] at hs'
    obtain ⟨s, hs, rfl⟩ := List.mem_map.mp hs'
    split
    next hin =>
      have hus := hused s hs hin
      have hok := hall s.myHdl hin s (h.getStream_of_mem hs hus)
      exact .inr ((startStream_starting _ (hcfg s hs hus) (hidle s hs)).2 hok)
    next hout =>
      have hfree : s.state = .notUsed := by
        by_contra hus
        exact hout (hmem s hs hus)
      exact .inl ⟨hfree, hidle s hs⟩
  · have hnd' : (done ++ [hdl]).Nodup := by
      rw [← List.singleton_append, ← List.append_assoc] at hnd
      exact hnd.of_append_left
    refine .inr ⟨_, _, _, heq, hrc, ?_, ?_⟩
    · exact (h.congr (idents_modifyStreams hstart hnd' c)).congr
        (idents_modifyStreams hundo hnd' _)
    · intro s' hs'
      rw [ChannelObj.undoStreams, modifyStreams_streams hundo hnd',
        modifyStreams_streams hstart hnd', List.map_map] at hs'
      obtain ⟨s, hs, rfl⟩ := List.mem_map.mp hs'
      simp only [Function.comp]
      by_cases hin : s.myHdl ∈ done ++ [hdl]
      · have hus := hused s hs (by
          simp only [List.mem_append, List.mem_cons, List.not_mem_nil, or_false] at hin ⊢
          tauto)
        have hid : (startAll env s.myHdl s).myHdl = s.myHdl := (hstart s.myHdl s).1
        simp only [hin, if_true, hid]
        exact undoStream_idle _ (startStream_starting _ (hcfg s hs hus) (hidle s hs)).1
      · simp only [hin, if_false]
        exact hidle s hs

/-- **A start**: all streams run, or all are idle. -/
theorem start_serving_or_idle (env : UInt32 → StreamOps) (h : Slots c)
    (hidle : ∀ s ∈ c.streams, s.Idle)
    (hcfg : ∀ s ∈ c.streams, s.state ≠ .notUsed → s.state = .cfg) :
    Slots (c.start env).2 ∧ ((c.start env).1 = 0 ∧ (∀ s ∈ (c.start env).2.streams, s.Serving) ∨
      (c.start env).1 ≠ 0 ∧ ∀ s ∈ (c.start env).2.streams, s.Idle) := by
  have hslots : Slots c.prepare := h.congr (idents_prepare c)
  have hhdls : ∀ hdl ∈ c.startOrder, ∃ s, c.prepare.getStream hdl = some s := by
    intro hdl hin
    obtain ⟨s, hs⟩ := (mem_startOrder_iff h.positive).mp hin
    have hused := List.find?_some hs
    simp only [Bool.and_eq_true, decide_eq_true_eq] at hused
    -- the slot of the stream in the prepared channel
    obtain ⟨i, hi⟩ := List.mem_iff_getElem?.mp (List.mem_of_find?_eq_some hs)
    have hat := congrArg (·[i]?) (idents_prepare c)
    simp only [List.getElem?_map, hi, Option.map_some] at hat
    obtain ⟨t, ht, heq⟩ := Option.map_eq_some_iff.mp hat
    obtain ⟨hhdl, hst⟩ := StreamObj.ident_eq_iff.mp heq
    refine ⟨t, ?_⟩
    rw [← getStream_myHdl hs, ← hhdl]
    exact hslots.getStream_of_mem (List.mem_of_getElem? ht) fun hfree => hused.1 (hst.mp hfree)
  have hmem : ∀ s ∈ c.prepare.streams, s.state ≠ .notUsed → s.myHdl ∈ c.startOrder := by
    intro s hs hus
    obtain ⟨t, ht, flag, rfl⟩ := mem_streams_prepare hs
    exact (h.mem_startOrder ht).mpr hus
  have hidle' : ∀ s ∈ c.prepare.streams, s.Idle := by
    intro s hs
    obtain ⟨t, ht, flag, rfl⟩ := mem_streams_prepare hs
    exact ⟨(hidle t ht).state, (hidle t ht).bufStatus, (hidle t ht).pollEntry⟩
  have hcfg' : ∀ s ∈ c.prepare.streams, s.state ≠ .notUsed → s.state = .cfg := by
    intro s hs hus
    obtain ⟨t, ht, flag, rfl⟩ := mem_streams_prepare hs
    exact hcfg t ht hus
  simp only [ChannelObj.start]
  rcases @startStreams_serving_or_idle c.prepare env c.startOrder hslots h.nodup_startOrder hhdls
      hmem hidle' hcfg' with ⟨c', heq, hs', hrun⟩ | ⟨rc, tried, c', heq, hrc, hs', hidl⟩
  · rw [heq]
    exact ⟨hs', .inl ⟨rfl, hrun⟩⟩
  · rw [heq]
    simp only [if_pos hrc]
    exact ⟨hs', .inr ⟨hrc, hidl⟩⟩

end Start

/-! ### The data path -/

/-- The data path changes the buffers of a stream only: which of them the kernel
has, and how often they are held. -/
structure StreamObj.Same (s t : StreamObj) : Prop where
  myHdl : t.myHdl = s.myHdl
  state : t.state = s.state
  pollEntry : t.pollEntry = s.pollEntry
  bufStatus : t.bufStatus.map List.length = s.bufStatus.map List.length
  requested : t.device.requested = s.device.requested

section DataPath

variable {s t u : StreamObj}

theorem StreamObj.Same.refl (s : StreamObj) : s.Same s := ⟨rfl, rfl, rfl, rfl, rfl⟩

theorem StreamObj.Same.trans (h : s.Same t) (h' : t.Same u) : s.Same u :=
  ⟨h'.myHdl.trans h.myHdl, h'.state.trans h.state, h'.pollEntry.trans h.pollEntry,
    h'.bufStatus.trans h.bufStatus, h'.requested.trans h.requested⟩

theorem StreamObj.Same.idle (h : s.Same t) (hs : s.Idle) : t.Idle := by
  have hbufs := h.bufStatus
  rw [hs.bufStatus, Option.map_none, Option.map_eq_none_iff] at hbufs
  exact ⟨by rw [h.state]; exact hs.state, hbufs, h.pollEntry.trans hs.pollEntry⟩

theorem StreamObj.Same.serving (h : s.Same t) (hs : s.Serving) : t.Serving := by
  rcases hs with ⟨hst, hidle⟩ | ⟨hst, bufs, hbufs, hlen, hreq⟩
  · exact .inl ⟨h.state.trans hst, h.idle hidle⟩
  · have hmap := h.bufStatus
    rw [hbufs, Option.map_some] at hmap
    obtain ⟨bufs', hbufs', hlen'⟩ := Option.map_eq_some_iff.mp hmap
    refine .inr ⟨h.state.trans hst, bufs', hbufs', ?_, ?_⟩
    · rw [hlen']
      exact hlen
    · rw [h.requested, hreq, hlen']

theorem same_updateStatus (s : StreamObj) (idx : ℕ) (f : BufStatus → BufStatus) :
    s.Same (s.updateStatus idx f) := by
  refine ⟨rfl, rfl, rfl, ?_, rfl⟩
  simp only [StreamObj.updateStatus, Option.map_map]
  congr 1
  funext l
  exact List.length_modify f l idx

theorem same_bufDone (s : StreamObj) (idx : ℕ) (ok : Bool) : s.Same (s.bufDone idx ok).2 := by
  unfold StreamObj.bufDone
  cases s.status idx with
  | none => exact .refl s
  | some st =>
    simp only
    split_ifs
    · exact .refl s
    · exact (same_updateStatus s idx _).trans ⟨rfl, rfl, rfl, rfl, rfl⟩
    all_goals exact same_updateStatus s idx _

theorem same_dispatchAppData (s : StreamObj) (b : Superbuf.BufInfo) (ok : Bool) :
    s.Same (s.dispatchAppData b ok) := by
  refine .trans ?_ (same_bufDone _ b.bufIdx ok)
  exact (same_updateStatus s b.bufIdx _).trans ⟨rfl, rfl, rfl, rfl, rfl⟩

theorem same_dataNotify (s : StreamObj) (b : Superbuf.BufInfo) : s.Same (s.dataNotify b) :=
  (same_updateStatus s b.bufIdx s.rcvdStatus).trans ⟨rfl, rfl, rfl, rfl, rfl⟩

theorem same_drain (s : StreamObj) : s.Same s.drain.1 := by
  unfold StreamObj.drain
  refine List.foldlRecOn (motive := fun p : StreamObj × List Handle => s.Same p.1) _ _ (.refl s) ?_
  rintro ⟨t, given⟩ ht b -
  exact ht.trans (same_dispatchAppData t b true)

end DataPath

def SameStreams (c c' : ChannelObj) : Prop :=
  List.Forall₂ StreamObj.Same c.streams c'.streams

section SameStreams

variable {c c' c'' : ChannelObj} {sys sys' : System} {given : List Handle}

theorem SameStreams.refl (c : ChannelObj) : SameStreams c c :=
  List.forall₂_same.mpr fun s _ => .refl s

theorem SameStreams.slots (h : SameStreams c c') (hs : Slots c) : Slots c' := by
  refine hs.congr ?_
  symm
  rw [← List.forall₂_eq_eq_eq, List.forall₂_map_left_iff, List.forall₂_map_right_iff]
  refine h.imp ?_
  intro s t hst
  exact StreamObj.ident_eq_iff.mpr ⟨hst.myHdl.symm, by rw [hst.state]⟩

theorem SameStreams.forall {P : StreamObj → Prop} (h : SameStreams c c')
    (hP : ∀ s t, StreamObj.Same s t → P s → P t) (hc : ∀ s ∈ c.streams, P s) :
    ∀ t ∈ c'.streams, P t := by
  unfold SameStreams at h
  generalize c.streams = l at h hc
  generalize c'.streams = l' at h
  induction h with
  | nil => simp
  | cons hst _ ih =>
    rw [List.forall_mem_cons] at hc ⊢
    exact ⟨hP _ _ hst hc.1, ih hc.2⟩

theorem sameStreams_modifyStream (c : ChannelObj) (hdl : UInt32) {f : StreamObj → StreamObj}
    (hf : ∀ s, StreamObj.Same s (f s)) : SameStreams c (c.modifyStream hdl f) := by
  unfold SameStreams ChannelObj.modifyStream
  rw [List.forall₂_map_right_iff, List.forall₂_same]
  intro s _
  split
  · exact hf s
  · exact .refl s

theorem sameStreams_qbuf (c : ChannelObj) (h : Handle) : SameStreams c (c.qbuf h) := by
  refine sameStreams_modifyStream c h.1 ?_
  intro s
  split
  · exact same_bufDone s h.2 true
  · exact .refl s

/-- **The traffic of a channel leaves its streams as they are.** -/
theorem sameStreams_step {ev : Event} (hs : sys.step ev = some (sys', given)) :
    SameStreams sys.channel sys'.channel := by
  cases System.transition_of_step hs with
  | frame => exact sameStreams_modifyStream _ _ fun s => same_dataNotify s _
  | request | command | superbuf => exact .refl _
  | @effect e =>
    cases e with
    | qbuf b => exact sameStreams_qbuf _ _
    | _ => exact .refl _
  | data =>
    refine sameStreams_modifyStream _ _ ?_
    intro s
    exact (same_dispatchAppData s _ true).trans ⟨rfl, rfl, rfl, rfl, rfl⟩
  | qbuf => exact sameStreams_qbuf _ _

theorem step_channelState {ev : Event} (hs : sys.step ev = some (sys', given)) :
    sys'.channel.state = sys.channel.state := by
  cases System.transition_of_step hs with
  | @effect e => cases e <;> rfl
  | _ => rfl

end SameStreams

/-! ### The stop -/

/-- A stream between the two rounds of the stop: its buffers are no longer
registered, but still allocated. -/
def StreamObj.Off (s : StreamObj) : Prop :=
  s.state = .notUsed ∧ s.Idle ∨ s.state = .buffed ∧ s.pollEntry = false

section Stop

variable {s : StreamObj} {sys sys' : System} {env : UInt32 → StreamOps}

theorem stopStream_keepsId (ops : StreamOps) : KeepsId fun s => s.stopStream ops := by
  intro s
  have hdrain := same_drain s
  obtain ⟨hhdl, hst⟩ := (fsmFn_keepsId ops .stop).comp (fsmFn_keepsId ops .unregBuf) s.drain.1
  exact ⟨hhdl.trans hdrain.myHdl, by rw [← hdrain.state]; exact hst⟩

/-- The first round takes an active stream back to BUFFED, whatever the kernel
answers. -/
theorem stopStream_off (ops : StreamOps) (hst : s.state = .active) : (s.stopStream ops).Off := by
  have hdrain : s.drain.1.state = .active := (same_drain s).state.trans hst
  unfold StreamObj.stopStream
  generalize s.drain.1 = t at hdrain
  obtain ⟨hdl, state, info, bundled, cbs, bufs, thread, poll, dev⟩ := t
  obtain rfl : state = .active := hdrain
  simp only [StreamObj.fsmFn, StreamObj.streamoff, StreamObj.unregBuf]
  cases ops.streamOff <;> cases ops.unreqBufs <;> exact .inr ⟨rfl, rfl⟩

theorem putBuf_idle (ops : StreamOps) (hst : s.state = .buffed) (hpoll : s.pollEntry = false) :
    (s.fsmFn ops .putBuf).2.Idle := by
  obtain ⟨hdl, state, info, bundled, cbs, bufs, thread, poll, dev⟩ := s
  obtain rfl : state = .buffed := hst
  simp only [StreamObj.fsmFn, StreamObj.deinitBufs]
  cases bufs <;> exact ⟨.inr (.inr rfl), rfl, hpoll⟩

theorem foldl_stopStream_eq (env : UInt32 → StreamOps) (hdls : List UInt32) (sys : System) :
    (hdls.foldl (System.stopStream env) sys).channel =
      sys.channel.modifyStreams (fun hdl s => s.stopStream (env hdl)) hdls := by
  induction hdls generalizing sys with
  | nil => rfl
  | cons hdl rest ih => exact ih (sys.stopStream env hdl)

theorem applyEffect_streams (hoff : ∀ s ∈ sys.channel.streams, s.Off) (e : Superbuf.Effect) :
    (sys.applyEffect e).channel.streams = sys.channel.streams := by
  cases e with
  | qbuf b =>
    refine (List.map_congr_left ?_).trans (List.map_id _)
    intro s hs
    have hinactive : s.state ≠ .active := by
      rcases hoff s hs with ⟨hst, -⟩ | ⟨hst, -⟩ <;> simp [hst]
    simp [hinactive]
  | _ => rfl

theorem foldl_applyEffect_streams (es : List Superbuf.Effect)
    (hoff : ∀ s ∈ sys.channel.streams, s.Off) :
    (es.foldl System.applyEffect sys).channel.streams = sys.channel.streams := by
  induction es generalizing sys with
  | nil => rfl
  | cons e es ih =>
    have hone := applyEffect_streams hoff e
    exact (ih (by rw [hone]; exact hoff)).trans hone

theorem releaseCmdThread_streams (hoff : ∀ s ∈ sys.channel.streams, s.Off)
    (h : sys.releaseCmdThread = some sys') : sys'.channel.streams = sys.channel.streams := by
  simp only [System.releaseCmdThread, Option.bind_eq_bind, Option.bind_eq_some_iff,
    Option.pure_def, Option.some.injEq] at h
  obtain ⟨⟨ch, es⟩, -, rfl⟩ := h
  have hpend := @foldl_applyEffect_streams { sys with pending := [] } sys.pending hoff
  refine (foldl_applyEffect_streams es ?_).trans hpend
  intro s hs
  exact hoff s (hpend ▸ hs)

theorem endBundle_streams (hoff : ∀ s ∈ sys.channel.streams, s.Off)
    (h : sys.endBundle = some sys') : sys'.channel.streams = sys.channel.streams := by
  simp only [System.endBundle] at h
  split at h
  · simp only [Option.bind_eq_bind, Option.bind_eq_some_iff, Option.pure_def,
      Option.some.injEq] at h
    obtain ⟨t, ht, rfl⟩ := h
    show t.channel.streams = sys.channel.streams
    exact releaseCmdThread_streams hoff ht
  · rw [Option.some.inj h]

/-- **The stop**: all streams are idle, whichever calls fail. -/
theorem stop_idle (h : Slots sys.channel) (hrun : ∀ s ∈ sys.channel.streams, s.Serving)
    (hs : sys.stop env = some sys') :
    sys'.channel.state = .stopped ∧ Slots sys'.channel ∧ ∀ s ∈ sys'.channel.streams, s.Idle := by
  have hnd : sys.channel.stopOrder.Nodup :=
    (stopOrder_perm _).nodup_iff.mpr h.nodup_startOrder
  have hmem : ∀ s ∈ sys.channel.streams, s.myHdl ∈ sys.channel.stopOrder ↔ s.state ≠ .notUsed :=
    fun s hs => (stopOrder_perm _).mem_iff.trans (h.mem_startOrder hs)
  have hstop : ∀ hdl, KeepsId fun s => s.stopStream (env hdl) := fun hdl => stopStream_keepsId _
  have hput : ∀ hdl, KeepsId fun s => (s.fsmFn (env hdl) .putBuf).2 := fun hdl => fsmFn_keepsId _ _
  -- after the first round
  have hstreams₁ := modifyStreams_streams hstop hnd sys.channel
  rw [← foldl_stopStream_eq] at hstreams₁
  have hoff : ∀ s ∈ (sys.channel.stopOrder.foldl (System.stopStream env) sys).channel.streams,
      s.Off ∧ (s.myHdl ∈ sys.channel.stopOrder ↔ s.state ≠ .notUsed) := by
    intro s' hs'
    rw [hstreams₁] at hs'
    obtain ⟨s, hs, rfl⟩ := List.mem_map.mp hs'
    rcases hrun s hs with ⟨hst, hidle⟩ | ⟨hst, -⟩
    · rw [if_neg (by rw [hmem s hs]; simpa using hst)]
      exact ⟨.inl ⟨hst, hidle⟩, hmem s hs⟩
    · rw [if_pos ((hmem s hs).mpr (by simp [hst]))]
      obtain ⟨hhdl, hused⟩ := hstop s.myHdl s
      refine ⟨stopStream_off _ hst, ?_⟩
      rw [hhdl, hmem s hs, not_iff_not]
      exact hused.symm
  -- ending the threads does not change the streams any more
  obtain ⟨sys₂, hstreams₂, rfl⟩ : ∃ sys₂ : System, sys₂.channel.streams =
      (sys.channel.stopOrder.foldl (System.stopStream env) sys).channel.streams ∧
      sys' = { sys₂ with
        channel := { sys₂.channel.modifyStreams (fun hdl s => (s.fsmFn (env hdl) .putBuf).2)
          sys.channel.stopOrder with state := .stopped } } := by
    simp only [System.stop, Option.bind_eq_bind, Option.bind_eq_some_iff, Option.pure_def,
      Option.some.injEq] at hs
    obtain ⟨sys₂, hend, rfl⟩ := hs
    exact ⟨sys₂, endBundle_streams (fun s hs => (hoff s hs).1) hend, rfl⟩
  have hslots₂ : Slots sys₂.channel := by
    refine h.congr ?_
    rw [hstreams₂, foldl_stopStream_eq]
    exact idents_modifyStreams hstop hnd _
  refine ⟨rfl, hslots₂.congr (idents_modifyStreams hput hnd _), ?_⟩
  intro s' hs'
  have hs' : s' ∈ (sys₂.channel.modifyStreams (fun hdl s => (s.fsmFn (env hdl) .putBuf).2)
      sys.channel.stopOrder).streams := hs'
  rw [modifyStreams_streams hput hnd, hstreams₂] at hs'
  obtain ⟨s, hs, rfl⟩ := List.mem_map.mp hs'
  obtain ⟨hoff, hmem⟩ := hoff s hs
  rcases hoff with ⟨hst, hidle⟩ | ⟨hst, hpoll⟩
  · rw [if_neg (by rw [hmem]; simpa using hst)]
    exact hidle
  · rw [if_pos (hmem.mpr (by simp [hst]))]
    exact putBuf_idle _ hst hpoll

end Stop

/-! ### Runs -/

/-- The streams of a channel agree with its state. -/
inductive Agrees (c : ChannelObj) : Prop
  | stopped (hst : c.state = .stopped) (hidle : ∀ s ∈ c.streams, s.Idle)
  | active (hst : c.state = .active) (hserving : ∀ s ∈ c.streams, s.Serving)

def ConfiguredBeforeStart (s : Session) : SessionEvt → Prop
  | .channel (.start _) => ∀ t ∈ s.sys.channel.streams, t.state ≠ .notUsed → t.state = .cfg
  | _ => True

instance (s : Session) : DecidablePred (ConfiguredBeforeStart s) := by
  intro evt
  unfold ConfiguredBeforeStart
  split <;> infer_instance

section Run

variable {c : ChannelObj} {s s' : Session} {t : StreamObj}

theorem add_cases (hdl : UInt32) (opened extMode : Bool) (t : StreamObj) :
    (t.add hdl opened extMode).2.pollEntry = t.pollEntry ∧
    (t.add hdl opened extMode).2.bufStatus = none ∧
    ((t.add hdl opened extMode).2.state = .acquired ∧ (t.add hdl opened extMode).2.myHdl = hdl ∨
      (t.add hdl opened extMode).2.state = .notUsed ∧ (t.add hdl opened extMode).2.myHdl = 0) := by
  cases hok : opened && extMode with
  | true | false => simp [StreamObj.add, StreamObj.acquire, StreamObj.memset, hok]

theorem addStream_idle (count : UInt16) (opened extMode : Bool) (h : Slots c)
    (hidle : ∀ t ∈ c.streams, t.Idle) :
    (c.addStream count opened extMode).2.2.state = c.state ∧
      Slots (c.addStream count opened extMode).2.2 ∧
      ∀ t ∈ (c.addStream count opened extMode).2.2.streams, t.Idle := by
  unfold ChannelObj.addStream
  cases hfind : c.streams.findIdx? fun t => t.state = .notUsed with
  | none => exact ⟨rfl, h, hidle⟩
  | some idx =>
    obtain ⟨hlt, -⟩ := List.findIdx?_eq_some_iff_findIdx_eq.mp hfind
    have hidx : (UInt8.ofNat idx).toNat = idx := by
      rw [h.length] at hlt
      have hlen : idx < 4 := hlt
      rw [UInt8.toNat_ofNat']
      omega
    simp only
    generalize hgen : generateHandler count (UInt8.ofNat idx) = g
    -- the slots other than `idx` are as they were
    have hat : ∀ (i : ℕ) t', (c.streams.modify idx fun t => (t.add g.2 opened extMode).2)[i]? =
        some t' → ∃ t, c.streams[i]? = some t ∧ (idx ≠ i ∧ t' = t ∨
          idx = i ∧ t' = (t.add g.2 opened extMode).2) := by
      intro i t' ht'
      rw [List.getElem?_modify] at ht'
      obtain ⟨t, ht, rfl⟩ := Option.map_eq_some_iff.mp ht'
      refine ⟨t, ht, ?_⟩
      by_cases hi : idx = i
      · exact .inr ⟨hi, if_pos hi⟩
      · exact .inl ⟨hi, if_neg hi⟩
    refine ⟨trivial, ⟨(List.length_modify _ _ _).trans h.length, ?_, ?_⟩, ?_⟩
    · intro i t' ht' hused
      obtain ⟨t, ht, ⟨-, rfl⟩ | ⟨rfl, rfl⟩⟩ := hat i t' ht'
      · exact h.used i _ ht hused
      · obtain ⟨-, -, ⟨-, hhdl⟩ | ⟨hfree, -⟩⟩ := add_cases g.2 opened extMode t
        · rw [hhdl, ← hgen]
          exact ⟨generateHandler_ne_zero, by rw [getIndexByHandler_generateHandler, hidx]⟩
        · exact absurd hfree hused
    · intro t' hmem hfree
      obtain ⟨i, ht'⟩ := List.mem_iff_getElem?.mp hmem
      obtain ⟨t, ht, ⟨-, rfl⟩ | ⟨rfl, rfl⟩⟩ := hat i t' ht'
      · exact h.free _ (List.mem_of_getElem? ht) hfree
      · obtain ⟨-, -, ⟨hst, -⟩ | ⟨-, hhdl⟩⟩ := add_cases g.2 opened extMode t
        · rw [hst] at hfree
          cases hfree
        · exact hhdl
    · intro t' hmem
      obtain ⟨i, ht'⟩ := List.mem_iff_getElem?.mp hmem
      obtain ⟨t, ht, ⟨-, rfl⟩ | ⟨rfl, rfl⟩⟩ := hat i t' ht'
      · exact hidle _ (List.mem_of_getElem? ht)
      · obtain ⟨hpoll, hbufs, hst⟩ := add_cases g.2 opened extMode t
        refine ⟨?_, hbufs, hpoll.trans (hidle t (List.mem_of_getElem? ht)).pollEntry⟩
        rcases hst with ⟨hst, -⟩ | ⟨hst, -⟩
        · exact .inr (.inl hst)
        · exact .inl hst

/-- A released stream leaves its slot free. -/
theorem release_cases (h : t.Idle) : t.release.2.Idle ∧
    (t.release.2 = t ∨ t.release.2.state = .notUsed ∧ t.release.2.myHdl = 0) := by
  unfold StreamObj.release
  rcases h.state with hst | hst | hst
  · simp only [hst]
    exact ⟨h, .inl trivial⟩
  all_goals
    simp only [hst]
    exact ⟨⟨.inl rfl, rfl, h.pollEntry⟩, .inr ⟨rfl, rfl⟩⟩

theorem delStream_idle (streamId : UInt32) (h : Slots c) (hidle : ∀ t ∈ c.streams, t.Idle) :
    (c.delStream streamId).2.state = c.state ∧ Slots (c.delStream streamId).2 ∧
      ∀ t ∈ (c.delStream streamId).2.streams, t.Idle := by
  unfold ChannelObj.delStream
  cases c.getStream streamId with
  | none => exact ⟨rfl, h, hidle⟩
  | some _ =>
    -- every slot is as it was, or free
    have hat : ∀ (i : ℕ) t', (c.modifyStream streamId fun t => t.release.2).streams[i]? =
        some t' → ∃ t, c.streams[i]? = some t ∧ t'.Idle ∧
          (t' = t ∨ t'.state = .notUsed ∧ t'.myHdl = 0) := by
      intro i t' ht'
      simp only [ChannelObj.modifyStream, List.getElem?_map] at ht'
      obtain ⟨t, ht, rfl⟩ := Option.map_eq_some_iff.mp ht'
      have hone := hidle t (List.mem_of_getElem? ht)
      refine ⟨t, ht, ?_⟩
      split
      · exact release_cases hone
      · exact ⟨hone, .inl rfl⟩
    refine ⟨rfl, ⟨(List.length_map _).trans h.length, ?_, ?_⟩, ?_⟩
    · intro i t' ht' hused
      obtain ⟨t, ht, -, rfl | ⟨hfree, -⟩⟩ := hat i t' ht'
      · exact h.used i _ ht hused
      · exact absurd hfree hused
    · intro t' hmem hfree
      obtain ⟨i, ht'⟩ := List.mem_iff_getElem?.mp hmem
      obtain ⟨t, ht, -, rfl | ⟨-, hhdl⟩⟩ := hat i t' ht'
      · exact h.free _ (List.mem_of_getElem? ht) hfree
      · exact hhdl
    · intro t' hmem
      obtain ⟨i, ht'⟩ := List.mem_iff_getElem?.mp hmem
      obtain ⟨t, -, hone, -⟩ := hat i t' ht'
      exact hone

theorem setFmt_idle (config : StreamConfig) (synced fmt : Bool) (h : t.Idle) :
    (t.setFmt config synced fmt).2.Idle := by
  unfold StreamObj.setFmt
  rcases h.state with hst | hst | hst
  · simp only [hst]
    exact h
  all_goals
    simp only [hst]
    exact ⟨.inr (.inr rfl), h.bufStatus, h.pollEntry⟩

theorem setFmt_keepsId (config : StreamConfig) (synced fmt : Bool) :
    KeepsId fun t => (t.setFmt config synced fmt).2 := by
  intro t
  unfold StreamObj.setFmt
  cases hst : t.state <;> simp [hst]

theorem configStream_idle (streamId : UInt32) (config : StreamConfig) (synced fmt : Bool)
    (h : Slots c) (hidle : ∀ t ∈ c.streams, t.Idle) :
    (c.configStream streamId config synced fmt).2.state = c.state ∧
      Slots (c.configStream streamId config synced fmt).2 ∧
      ∀ t ∈ (c.configStream streamId config synced fmt).2.streams, t.Idle := by
  unfold ChannelObj.configStream
  cases c.getStream streamId with
  | none => exact ⟨rfl, h, hidle⟩
  | some _ =>
    refine ⟨rfl, h.congr (idents_modifyStream (setFmt_keepsId config synced fmt) c streamId), ?_⟩
    intro t' hmem
    obtain ⟨t, ht, rfl⟩ := List.mem_map.mp hmem
    split
    · exact setFmt_idle config synced fmt (hidle t ht)
    · exact hidle t ht

theorem startEvt_agrees {env : UInt32 → StreamOps} (hst : c.state = .stopped)
    (hslots : Slots (c.start env).2)
    (h : (c.start env).1 = 0 ∧ (∀ t ∈ (c.start env).2.streams, t.Serving) ∨
      (c.start env).1 ≠ 0 ∧ ∀ t ∈ (c.start env).2.streams, t.Idle) :
    Slots (c.startEvt env).2 ∧ Agrees (c.startEvt env).2 := by
  simp only [ChannelObj.startEvt]
  rcases h with ⟨hrc, hserving⟩ | ⟨hrc, hidle⟩
  · rw [if_pos hrc]
    exact ⟨⟨hslots.length, hslots.used, hslots.free⟩, .active rfl hserving⟩
  · rw [if_neg hrc]
    exact ⟨hslots, .stopped ((start_state env c).trans hst) hidle⟩

theorem Agrees.step {evt : SessionEvt} {answers : List Answer} (hslots : Slots s.sys.channel)
    (h : Agrees s.sys.channel) (hcfg : ConfiguredBeforeStart s evt)
    (hs : s.step evt = some (s', answers)) : Slots s'.sys.channel ∧ Agrees s'.sys.channel := by
  cases evt with
  | handler index =>
    cases hs
    exact ⟨hslots, h⟩
  | traffic ev =>
    simp only [Session.step, Option.bind_eq_bind, Option.bind_eq_some_iff, Option.pure_def,
      Option.some.injEq, Prod.mk.injEq] at hs
    obtain ⟨⟨sys', given⟩, hstep, rfl, -⟩ := hs
    have hsame := sameStreams_step hstep
    have hst := step_channelState hstep
    refine ⟨hsame.slots hslots, ?_⟩
    cases h with
    | stopped hst' hidle =>
      exact .stopped (hst.trans hst') (hsame.forall (fun _ _ h => h.idle) hidle)
    | active hst' hserving =>
      exact .active (hst.trans hst') (hsame.forall (fun _ _ h => h.serving) hserving)
  | channel evt =>
    simp only [Session.step, Option.bind_eq_bind, Option.bind_eq_some_iff, Option.pure_def,
      Option.some.injEq, Prod.mk.injEq] at hs
    obtain ⟨⟨answer, t⟩, hstep, rfl, -⟩ := hs
    simp only [Session.fsmFn] at hstep
    cases h with
    | stopped hst hidle =>
      rw [hst] at hstep
      cases evt with
      | addStream opened extMode =>
        cases hstep
        obtain ⟨hst', hslots', hidle'⟩ :=
          addStream_idle s.historyCount opened extMode hslots hidle
        exact ⟨hslots', .stopped (hst'.trans hst) hidle'⟩
      | delStream streamId =>
        cases hstep
        obtain ⟨hst', hslots', hidle'⟩ := delStream_idle streamId hslots hidle
        exact ⟨hslots', .stopped (hst'.trans hst) hidle'⟩
      | configStream streamId config synced fmt =>
        cases hstep
        obtain ⟨hst', hslots', hidle'⟩ :=
          configStream_idle streamId config synced fmt hslots hidle
        exact ⟨hslots', .stopped (hst'.trans hst) hidle'⟩
      | start env =>
        cases hstep
        obtain ⟨hslots', hcase⟩ := start_serving_or_idle env hslots hidle hcfg
        exact startEvt_agrees hst hslots' hcase
      | stop env =>
        cases hstep
        exact ⟨hslots, .stopped hst hidle⟩
    | active hst hserving =>
      rw [hst] at hstep
      cases evt with
      | stop env =>
        simp only [Option.bind_eq_bind, Option.bind_eq_some_iff, Option.pure_def,
          Option.some.injEq, Prod.mk.injEq] at hstep
        obtain ⟨sys', hstop, -, rfl⟩ := hstep
        obtain ⟨hst', hslots', hidle'⟩ := stop_idle hslots hserving hstop
        exact ⟨hslots', .stopped hst' hidle'⟩
      | _ =>
        cases hstep
        exact ⟨hslots, .active hst hserving⟩

theorem slots_init (attr : Attr) (channelCb : Bool) : Slots (.init attr channelCb) := by
  have hmem : ∀ t ∈ (ChannelObj.init attr channelCb).streams, t.state = .notUsed ∧ t.myHdl = 0 := by
    intro t ht
    rw [List.eq_of_mem_replicate ht]
    exact ⟨rfl, rfl⟩
  refine ⟨List.length_replicate, ?_, fun t ht _ => (hmem t ht).2⟩
  intro i t ht hused
  exact absurd (hmem t (List.mem_of_getElem? ht)).1 hused

theorem agrees_init (attr : Attr) (channelCb : Bool) : Agrees (.init attr channelCb) := by
  refine .stopped rfl ?_
  intro t ht
  rw [List.eq_of_mem_replicate ht]
  exact ⟨.inl rfl, rfl, rfl⟩

theorem Agrees.of_runs {attr : Attr} {channelCb : Bool} {count : UInt16} {evts : List SessionEvt}
    {answers : List Answer}
    (h : Runs Session.step ConfiguredBeforeStart ⟨count, .init attr channelCb, [], []⟩ evts
      answers s) : Slots s.sys.channel ∧ Agrees s.sys.channel :=
  h.inv (fun _ _ s => Slots s.sys.channel ∧ Agrees s.sys.channel)
    ⟨slots_init attr channelCb, agrees_init attr channelCb⟩
    fun _ _ _ _ _ _ hinv hcfg hs => hinv.2.step hinv.1 hcfg hs

end Run

end Interface

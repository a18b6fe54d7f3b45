/-
Starting and stopping a channel, `mm_channel_start` and `mm_channel_stop`.

Starting a channel sets up its bundle, if it has a superbuf callback, and then
starts its streams one after the other, the metadata stream first; when a stream
fails, those started so far are taken back.  Stopping takes the streams back,
the metadata stream last, ends the threads of the bundle and clears it.
-/
import HdxCommon.Streaming

namespace Interface

open Superbuf (Queue Cmd processStreamBuf)

namespace StreamObj

/-- One round of the loop of `mm_channel_start`. -/
def startStream (ops : StreamOps) (s : StreamObj) : ℤ × StreamObj :=
  if s.state = .active then (-1, s)
  else
    let (rc, s) := s.fsmFn ops .getBuf
    if rc ≠ 0 then (rc, s)
    else
      let (rc, s) := s.fsmFn ops .regBuf
      if rc ≠ 0 then (rc, s) else s.fsmFn ops .start

/-- One round of the error handling of `mm_channel_start`; the return codes are
not looked at. -/
def undoStream (ops : StreamOps) (s : StreamObj) : StreamObj :=
  let s := (s.fsmFn ops .stop).2
  let s := (s.fsmFn ops .unregBuf).2
  (s.fsmFn ops .putBuf).2

/-- Ending the command thread of a stream: it dispatches the buffers in its
queue first.  Also returns what the client was given. -/
def drain (s : StreamObj) : StreamObj × List Handle :=
  (s.cmdThread.getD []).foldl (fun (s, given) b =>
    (s.dispatchAppData b true, given ++ List.replicate s.calls (handle b))) (s, [])

/-- The first round of `mm_channel_stop`. -/
def stopStream (ops : StreamOps) (s : StreamObj) : StreamObj :=
  ((s.drain.1.fsmFn ops .stop).2.fsmFn ops .unregBuf).2

end StreamObj

def swapAt (l : List UInt32) (i j : ℕ) : List UInt32 :=
  match l[i]?, l[j]? with
  | some a, some b => (l.set i b).set j a
  | _, _ => l

/-- The index of the last metadata stream among `s_objs`, counted from `n`. -/
def metaStreamIdx : List StreamObj → ℕ → ℕ → ℕ
  | [], _, idx => idx
  | s :: rest, n, idx =>
    metaStreamIdx rest (n + 1) (if s.streamInfo = some .metadata then n else idx)

namespace ChannelObj

/-- The streams in use, `s_objs`. -/
def usedStreams (c : ChannelObj) : List StreamObj :=
  c.streams.filterMap fun s => if s.myHdl > 0 then c.getStream s.myHdl else none

/-- The order in which the streams are started: metadata first. -/
def startOrder (c : ChannelObj) : List UInt32 :=
  let idx := metaStreamIdx c.usedStreams 0 0
  let hdls := c.usedStreams.map StreamObj.myHdl
  if idx > 0 then swapAt hdls 0 idx else hdls

/-- The order in which the streams are stopped: metadata last. -/
def stopOrder (c : ChannelObj) : List UInt32 :=
  let idx := metaStreamIdx c.usedStreams 0 0
  let hdls := c.usedStreams.map StreamObj.myHdl
  if idx + 1 < hdls.length then swapAt hdls (hdls.length - 1) idx else hdls

/-- Set up the bundle of the streams `hdls` and launch its threads. -/
def startBundle (c : ChannelObj) (hdls : List UInt32) : ChannelObj :=
  { c with
    queue := { c.queue with que := [], size := 0, bundledStreams := hdls, expectedFrameId := 0 }
    streams := c.streams.map fun s => if s.myHdl ∈ hdls then { s with isBundled := true } else s
    cbThread := some []
    cmdThread := some []
    isActive := true }

/-- The loop that starts the streams; also returns the streams it tried. -/
def startStreams (env : UInt32 → StreamOps) : List UInt32 → ChannelObj →
    ℤ × List UInt32 × ChannelObj
  | [], c => (0, [], c)
  | hdl :: rest, c =>
    let rc := (c.getStream hdl).elim 0 fun s => (s.startStream (env hdl)).1
    let c := c.modifyStream hdl fun s => (s.startStream (env hdl)).2
    if rc ≠ 0 then (rc, [hdl], c)
    else
      let (rc, tried, c) := startStreams env rest c
      (rc, hdl :: tried, c)

def modifyStreams (f : UInt32 → StreamObj → StreamObj) (hdls : List UInt32) (c : ChannelObj) :
    ChannelObj :=
  hdls.foldl (fun c hdl => c.modifyStream hdl (f hdl)) c

def undoStreams (env : UInt32 → StreamOps) (tried : List UInt32) (c : ChannelObj) : ChannelObj :=
  c.modifyStreams (fun hdl s => s.undoStream (env hdl)) tried

/-- The channel when the first stream is started. -/
def prepare (c : ChannelObj) : ChannelObj :=
  if c.superBufNotifyCb then c.startBundle c.startOrder else c

/-- `mm_channel_start`. -/
def start (env : UInt32 → StreamOps) (c : ChannelObj) : ℤ × ChannelObj :=
  let (rc, tried, c) := startStreams env c.startOrder c.prepare
  if rc ≠ 0 then (rc, undoStreams env tried c) else (0, c)

def startEvt (env : UInt32 → StreamOps) (c : ChannelObj) : ℤ × ChannelObj :=
  let (rc, c) := c.start env
  if rc = 0 then (rc, { c with state := .active }) else (rc, c)

/-- The bundle as `memset` leaves it. -/
def clearBundle (c : ChannelObj) : ChannelObj :=
  { c with
    isActive := false
    queue := ⟨[], 0, [], ⟨.burst, 0, 0, 0, 0⟩, 0, 0⟩
    superBufNotifyCb := false }

end ChannelObj

namespace System

/-- Ending the command thread: it finishes the command in progress and those in
its queue first. -/
def releaseCmdThread (sys : System) : Option System := do
  let sys := sys.pending.foldl applyEffect { sys with pending := [] }
  let cmds := (sys.channel.cmdThread.getD []).map fun cmd => (cmd, Superbuf.Mem.ample)
  let (ch, es) ← exec processStreamBuf sys.channel.matcher cmds
  let sys := { sys with channel := sys.channel.withMatcher ch }
  let sys := es.foldl applyEffect sys
  return { sys with channel := { sys.channel with cmdThread := none } }

/-- Ending the callback thread: it hands out the superbufs in its queue first. -/
def releaseCbThread (sys : System) : System :=
  let bufs := (sys.channel.cbThread.getD []).flatMap List.reduceOption
  { sys with
    channel := { sys.channel with cbThread := none }
    client := sys.client ++ if sys.channel.superBufNotifyCb then bufs.map handle else [] }

def stopStream (env : UInt32 → StreamOps) (sys : System) (hdl : UInt32) : System :=
  { sys with
    channel := sys.channel.modifyStream hdl fun s => s.stopStream (env hdl)
    client := sys.client ++ (sys.channel.getStream hdl).elim [] fun s => s.drain.2 }

/-- The bundle of an active channel ends: its threads, and all it consists of. -/
def endBundle (sys : System) : Option System :=
  if sys.channel.isActive then do
    let sys ← sys.releaseCmdThread
    let sys := sys.releaseCbThread
    return { sys with channel := sys.channel.clearBundle }
  else some sys

/-- `mm_channel_stop`, and the STOP event in the active state. -/
def stop (env : UInt32 → StreamOps) (sys : System) : Option System := do
  let hdls := sys.channel.stopOrder
  let sys ← (hdls.foldl (stopStream env) sys).endBundle
  let c := sys.channel.modifyStreams (fun hdl s => (s.fsmFn (env hdl) .putBuf).2) hdls
  return { sys with channel := { c with state := .stopped } }

end System

/-! ### Starting one stream -/

structure StreamObj.Configured (s : StreamObj) : Prop where
  state : s.state = .cfg
  bufStatus : s.bufStatus = none
  cmdThread : s.cmdThread = none
  pollEntry : s.pollEntry = false
  device : s.device = ⟨false, [], false⟩

def BufStatus.registered (flag : Bool) : BufStatus :=
  if flag then ⟨0, flag, true⟩ else ⟨1, flag, false⟩

/-- The indices of the flagged buffers, from `i` on. -/
def flaggedFrom : ℕ → List Bool → List ℕ
  | _, [] => []
  | i, flag :: flags => if flag then i :: flaggedFrom (i + 1) flags else flaggedFrom (i + 1) flags

def StreamOps.Requests (ops : StreamOps) (flags : List Bool) : Prop :=
  ops.getBufs = some flags ∧ ops.statusMem = true ∧ flags.length ≤ maxNumFrames ∧
    ops.reqBufs = true

def StreamOps.Queues (ops : StreamOps) (flags : List Bool) : Prop :=
  ∀ i, flags[i]? = some true → ops.qbuf i = true

/-- Everything a start asks for succeeds. -/
def StreamOps.Starts (ops : StreamOps) : Prop :=
  ∃ flags, ops.Requests flags ∧ ops.Queues flags ∧ ops.streamOn = true

def StreamOps.FailsAtQbuf (ops : StreamOps) : Prop :=
  ∃ flags, ops.Requests flags ∧ ¬ ops.Queues flags

def StreamOps.StopOk (ops : StreamOps) : Prop :=
  ops.streamOff = true ∧ ops.unreqBufs = true ∧ ops.putBufs = true

def StreamObj.started (flags : List Bool) (s : StreamObj) : StreamObj :=
  { s with
    state := .active
    bufStatus := some (flags.map .registered)
    cmdThread := if s.hasCb then some [] else none
    pollEntry := true
    device := ⟨0 < flags.length, flaggedFrom 0 flags, true⟩ }

section StartStream

open StreamObj

variable {ops : StreamOps} {s : StreamObj} {flags : List Bool}

attribute [local simp] startStream undoStream fsmFn initBufs deinitBufs regBuf requestBuf unregBuf
  streamon streamoff

theorem regLoop_ok (ops : StreamOps) (i : ℕ) (flags : List Bool)
    (h : ∀ j, flags[j]? = some true → ops.qbuf (i + j) = true) :
    regLoop ops i (flags.map .fresh) =
      (0, flags.map .registered, flaggedFrom i flags) := by
  induction flags generalizing i with
  | nil => rfl
  | cons flag flags ih =>
    have hrest := ih (i + 1) (fun j hj => by
      have := h (j + 1) (by simpa using hj)
      rwa [show i + (j + 1) = i + 1 + j by omega] at this)
    cases flag with
    | true =>
      have hi : ops.qbuf i = true := h 0 rfl
      simp [regLoop, BufStatus.fresh, hi, hrest, flaggedFrom, BufStatus.registered]
    | false =>
      simp [regLoop, BufStatus.fresh, hrest, flaggedFrom, BufStatus.registered]

/-- The loop stops at the first buffer that cannot be queued. -/
theorem regLoop_fail (ops : StreamOps) (i : ℕ) (flags : List Bool)
    (h : ¬ ∀ j, flags[j]? = some true → ops.qbuf (i + j) = true) :
    (regLoop ops i (flags.map .fresh)).1 = -1 := by
  induction flags generalizing i with
  | nil => simp at h
  | cons flag flags ih =>
    by_cases hi : flag = true ∧ ops.qbuf i = false
    · simp [regLoop, BufStatus.fresh, hi.1, hi.2]
    · have hrest := ih (i + 1) (by
        intro hall
        refine h ?_
        intro j hj
        cases j with
        | zero =>
          have hflag : flag = true := by simpa using hj
          simpa [hflag] using hi
        | succ j =>
          have := hall j (by simpa using hj)
          rwa [show i + 1 + j = i + (j + 1) by omega] at this)
      cases flag with
      | true =>
        have hq : ops.qbuf i = true := by simpa using hi
        simp [regLoop, BufStatus.fresh, hq, hrest]
      | false => simp [regLoop, BufStatus.fresh, hrest]

theorem startStream_noBufs (hs : s.Configured)
    (h : ops.getBufs = none ∨ ops.statusMem = false) : s.startStream ops = (-1, s) := by
  obtain ⟨hdl, state, info, bundled, cbs, bufs, thread, poll, dev⟩ := s
  obtain ⟨rfl, rfl, rfl, rfl, rfl⟩ := hs
  cases hget : ops.getBufs with
  | none =>
    simp [hget]
  | some flags =>
    have hmem : ops.statusMem = false := by simpa [hget] using h
    simp [hget, hmem]

theorem startStream_noRequest (hs : s.Configured) (hget : ops.getBufs = some flags)
    (hmem : ops.statusMem = true) (h : maxNumFrames < flags.length ∨ ops.reqBufs = false) :
    s.startStream ops =
      (-1, { s with state := .buffed, bufStatus := some (flags.map .fresh) }) := by
  obtain ⟨hdl, state, info, bundled, cbs, bufs, thread, poll, dev⟩ := s
  obtain ⟨rfl, rfl, rfl, rfl, rfl⟩ := hs
  rcases h with h | h
  all_goals
    simp [hget, hmem, h]

theorem startStream_noQueue (hs : s.Configured) (hreq : ops.Requests flags)
    (h : ¬ ops.Queues flags) :
    ∃ bufs queued, s.startStream ops =
      (-1, { s with
        state := .buffed, bufStatus := some bufs
        device := ⟨0 < flags.length, queued, false⟩ }) := by
  obtain ⟨hdl, state, info, bundled, cbs, bufs, thread, poll, dev⟩ := s
  obtain ⟨rfl, rfl, rfl, rfl, rfl⟩ := hs
  obtain ⟨hget, hmem, hlen, hbuf⟩ := hreq
  have hfail := regLoop_fail ops 0 flags (by simpa [StreamOps.Queues] using h)
  generalize hloop : regLoop ops 0 (flags.map .fresh) = r at hfail
  obtain ⟨rc, bufs, queued⟩ := r
  obtain rfl : rc = -1 := hfail
  refine ⟨bufs, queued, ?_⟩
  simp [hget, hmem, hbuf, Nat.not_lt.mpr hlen, hloop]

/-- With its buffers queued, the stream starts if it can be switched on. -/
theorem startStream_queued (hs : s.Configured) (hreq : ops.Requests flags)
    (hq : ops.Queues flags) :
    s.startStream ops =
      if ops.streamOn then (0, s.started flags)
      else (-1, { s with
        state := .reg, bufStatus := some (flags.map .registered)
        device := ⟨0 < flags.length, flaggedFrom 0 flags, false⟩ }) := by
  obtain ⟨hdl, state, info, bundled, cbs, bufs, thread, poll, dev⟩ := s
  obtain ⟨rfl, rfl, rfl, rfl, rfl⟩ := hs
  obtain ⟨hget, hmem, hlen, hbuf⟩ := hreq
  have hloop := regLoop_ok ops 0 flags (by simpa [StreamOps.Queues] using hq)
  cases h : ops.streamOn
  all_goals
    simp [hasCb, hget, hmem, hbuf, Nat.not_lt.mpr hlen, hloop, h, started]

theorem startStream_of_starts (hs : s.Configured) (h : ops.Starts) :
    ∃ flags, ops.Requests flags ∧ s.startStream ops = (0, s.started flags) := by
  obtain ⟨flags, hreq, hq, hon⟩ := h
  exact ⟨flags, hreq, (startStream_queued hs hreq hq).trans (if_pos hon)⟩

theorem not_starts_cases (h : ¬ ops.Starts) :
    (ops.getBufs = none ∨ ops.statusMem = false) ∨
    (∃ flags, ops.getBufs = some flags ∧ ops.statusMem = true ∧
      (maxNumFrames < flags.length ∨ ops.reqBufs = false)) ∨
    ops.FailsAtQbuf ∨
    ∃ flags, ops.Requests flags ∧ ops.Queues flags ∧ ops.streamOn = false := by
  cases hget : ops.getBufs with
  | none => exact .inl (.inl rfl)
  | some flags =>
    by_cases hmem : ops.statusMem = true
    swap
    · exact .inl (.inr (by simpa using hmem))
    by_cases hlen : flags.length ≤ maxNumFrames
    swap
    · exact .inr (.inl ⟨flags, rfl, hmem, .inl (Nat.lt_of_not_le hlen)⟩)
    by_cases hbuf : ops.reqBufs = true
    swap
    · exact .inr (.inl ⟨flags, rfl, hmem, .inr (by simpa using hbuf)⟩)
    have hreq : ops.Requests flags := ⟨hget, hmem, hlen, hbuf⟩
    by_cases hq : ops.Queues flags
    swap
    · exact .inr (.inr (.inl ⟨flags, hreq, hq⟩))
    refine .inr (.inr (.inr ⟨flags, hreq, hq, ?_⟩))
    by_contra hon
    exact h ⟨flags, hreq, hq, by simpa using hon⟩

theorem startStream_rc_eq_zero_iff (hs : s.Configured) :
    (s.startStream ops).1 = 0 ↔ ops.Starts := by
  constructor
  · intro hrc
    by_contra hfail
    rcases not_starts_cases hfail with h | ⟨flags, hget, hmem, h⟩ | ⟨flags, hreq, h⟩ |
      ⟨flags, hreq, hq, h⟩
    · rw [startStream_noBufs hs h] at hrc
      cases hrc
    · rw [startStream_noRequest hs hget hmem h] at hrc
      cases hrc
    · obtain ⟨bufs, queued, heq⟩ := startStream_noQueue hs hreq h
      rw [heq] at hrc
      cases hrc
    · rw [startStream_queued hs hreq hq, h] at hrc
      cases hrc
  · intro h
    obtain ⟨flags, -, heq⟩ := startStream_of_starts hs h
    rw [heq]

/-- Taking back a started stream leaves nothing of the start. -/
theorem undoStream_started (hs : s.Configured) (hok : ops.StopOk) :
    (s.started flags).undoStream ops = s := by
  obtain ⟨hdl, state, info, bundled, cbs, bufs, thread, poll, dev⟩ := s
  obtain ⟨rfl, rfl, rfl, rfl, rfl⟩ := hs
  obtain ⟨hoff, hun, hput⟩ := hok
  simp [started, hasCb, hoff, hun, hput]

/-- Taking back a stream that failed leaves nothing of the attempt either, unless
it failed while its buffers were queued. -/
theorem undoStream_failed (hs : s.Configured) (hok : ops.StopOk) (hfail : ¬ ops.Starts)
    (hq : ¬ ops.FailsAtQbuf) : (s.startStream ops).2.undoStream ops = s := by
  obtain ⟨hoff, hun, hput⟩ := hok
  rcases not_starts_cases hfail with h | ⟨flags, hget, hmem, h⟩ | h | ⟨flags, hreq, hq, h⟩
  · rw [startStream_noBufs hs h]
    simp [hs.state]
  · rw [startStream_noRequest hs hget hmem h]
    obtain ⟨hdl, state, info, bundled, cbs, bufs, thread, poll, dev⟩ := s
    obtain ⟨rfl, rfl, rfl, rfl, rfl⟩ := hs
    simp
  · exact absurd h hq
  · rw [startStream_queued hs hreq hq, h]
    obtain ⟨hdl, state, info, bundled, cbs, bufs, thread, poll, dev⟩ := s
    obtain ⟨rfl, rfl, rfl, rfl, rfl⟩ := hs
    simp [hun]

/-- A stream that failed while its buffers were queued stays registered: UNREG
is not handled in the BUFFED state. -/
theorem undoStream_failed_qbuf (hs : s.Configured) (h : ops.FailsAtQbuf) :
    ((s.startStream ops).2.undoStream ops).device.requested = true := by
  obtain ⟨flags, hreq, hq⟩ := h
  have hpos : 0 < flags.length := by
    rw [List.length_pos_iff]
    rintro rfl
    exact hq (by simp [StreamOps.Queues])
  obtain ⟨bufs, queued, heq⟩ := startStream_noQueue hs hreq hq
  rw [heq]
  obtain ⟨hdl, state, info, bundled, cbs, bufs', thread, poll, dev⟩ := s
  obtain ⟨rfl, rfl, rfl, rfl, rfl⟩ := hs
  simp [hpos]

end StartStream

section StartStreams

variable {c : ChannelObj} {env : UInt32 → StreamOps} {hdl : UInt32} {hdls : List UInt32}
  {f g : UInt32 → StreamObj → StreamObj} {s : StreamObj}

theorem KeepsId.comp {f g : StreamObj → StreamObj} (hf : KeepsId f) (hg : KeepsId g) :
    KeepsId (g ∘ f) :=
  fun s => ⟨(hg (f s)).1.trans (hf s).1, (hg (f s)).2.trans (hf s).2⟩

theorem fsmFn_keepsId (ops : StreamOps) (evt : StreamEvt) :
    KeepsId fun s => (s.fsmFn ops evt).2 := by
  intro s
  obtain ⟨hdl, state, info, bundled, cbs, bufs, thread, poll, dev⟩ := s
  -- one case for each state and event
  cases state <;> cases evt <;>
    simp only [StreamObj.fsmFn, StreamObj.initBufs, StreamObj.deinitBufs, StreamObj.regBuf,
      StreamObj.requestBuf, StreamObj.unregBuf, StreamObj.streamon, StreamObj.streamoff] <;>
    (repeat' split) <;> simp_all

theorem startStream_keepsId (ops : StreamOps) : KeepsId fun s => (s.startStream ops).2 := by
  intro s
  have hget := fsmFn_keepsId ops .getBuf s
  have hreg := fsmFn_keepsId ops .regBuf (s.fsmFn ops .getBuf).2
  have hstart := fsmFn_keepsId ops .start ((s.fsmFn ops .getBuf).2.fsmFn ops .regBuf).2
  simp only [StreamObj.startStream]
  split
  · exact ⟨rfl, Iff.rfl⟩
  · split
    · exact hget
    · split
      · exact ⟨hreg.1.trans hget.1, hreg.2.trans hget.2⟩
      · exact ⟨hstart.1.trans (hreg.1.trans hget.1), hstart.2.trans (hreg.2.trans hget.2)⟩

theorem undoStream_keepsId (ops : StreamOps) : KeepsId fun s => s.undoStream ops :=
  ((fsmFn_keepsId ops .stop).comp (fsmFn_keepsId ops .unregBuf)).comp (fsmFn_keepsId ops .putBuf)

theorem getStream_modifyStreams (hf : ∀ hdl, KeepsId (f hdl)) (hnd : hdls.Nodup) (hdl : UInt32) :
    (c.modifyStreams f hdls).getStream hdl =
      if hdl ∈ hdls then (c.getStream hdl).map (f hdl) else c.getStream hdl := by
  induction hdls generalizing c with
  | nil => rfl
  | cons hdl' rest ih =>
    obtain ⟨hnot, hnd⟩ := List.nodup_cons.mp hnd
    show ((c.modifyStream hdl' (f hdl')).modifyStreams f rest).getStream hdl = _
    rw [ih hnd]
    by_cases heq : hdl = hdl'
    · subst heq
      simp [hnot, getStream_modifyStream_self (hf hdl)]
    · simp [heq, getStream_modifyStream_of_ne (hf hdl') heq]

theorem modifyStreams_eq (f : UInt32 → StreamObj → StreamObj) (hdls : List UInt32)
    (c : ChannelObj) : ∃ l, c.modifyStreams f hdls = { c with streams := l } := by
  induction hdls generalizing c with
  | nil => exact ⟨_, rfl⟩
  | cons hdl rest ih =>
    obtain ⟨l, hl⟩ := ih (c.modifyStream hdl (f hdl))
    exact ⟨l, hl⟩

theorem startStreams_eq (env : UInt32 → StreamOps) (hdls : List UInt32) (c : ChannelObj) :
    ∃ rc tried l, c.startStreams env hdls = (rc, tried, { c with streams := l }) := by
  induction hdls generalizing c with
  | nil => exact ⟨0, [], c.streams, rfl⟩
  | cons hdl rest ih =>
    obtain ⟨rc, tried, l, heq⟩ := ih (c.modifyStream hdl fun s => (s.startStream (env hdl)).2)
    rw [ChannelObj.startStreams]
    by_cases hrc : ((c.getStream hdl).elim 0 fun s => (s.startStream (env hdl)).1) = 0
    · simp only [hrc, ne_eq, not_true_eq_false, if_false]
      rw [heq]
      exact ⟨rc, hdl :: tried, l, rfl⟩
    · simp only [hrc, ne_eq, not_false_eq_true, if_true]
      exact ⟨_, [hdl], _, rfl⟩

/-- The streams started, as a change of the streams that were tried. -/
def startAll (env : UInt32 → StreamOps) (hdl : UInt32) (s : StreamObj) : StreamObj :=
  (s.startStream (env hdl)).2

theorem startAll_keepsId (env : UInt32 → StreamOps) (hdl : UInt32) :
    KeepsId (startAll env hdl) :=
  startStream_keepsId (env hdl)

/-- The rounds of the start: all of them succeed, or the first that does not is
the last one tried. -/
theorem startStreams_rounds (hnd : hdls.Nodup)
    (hused : ∀ hdl ∈ hdls, ∃ s, c.getStream hdl = some s) :
    (∀ hdl ∈ hdls, ∀ s, c.getStream hdl = some s → (s.startStream (env hdl)).1 = 0) ∧
      c.startStreams env hdls = (0, hdls, c.modifyStreams (startAll env) hdls) ∨
    ∃ done hdl rest s, hdls = done ++ hdl :: rest ∧
      (∀ h ∈ done, ∀ s, c.getStream h = some s → (s.startStream (env h)).1 = 0) ∧
      c.getStream hdl = some s ∧ (s.startStream (env hdl)).1 ≠ 0 ∧ c.startStreams env hdls =
        ((s.startStream (env hdl)).1, done ++ [hdl],
          c.modifyStreams (startAll env) (done ++ [hdl])) := by
  induction hdls generalizing c with
  | nil => exact .inl ⟨by simp, rfl⟩
  | cons hdl rest ih =>
    obtain ⟨hnot, hnd⟩ := List.nodup_cons.mp hnd
    obtain ⟨s, hs⟩ := hused hdl List.mem_cons_self
    -- the other streams are as they were
    have hother : ∀ h ∈ hdl :: rest, h ≠ hdl →
        (c.modifyStream hdl (startAll env hdl)).getStream h = c.getStream h :=
      fun h _ hne => getStream_modifyStream_of_ne (startAll_keepsId env hdl) hne
    have hne : ∀ h ∈ rest, h ≠ hdl := fun h hh heq => hnot (heq ▸ hh)
    by_cases hrc : (s.startStream (env hdl)).1 = 0
    · have hhead : ∀ s', c.getStream hdl = some s' → (s'.startStream (env hdl)).1 = 0 := by
        intro s' hs'
        rw [← Option.some.inj (hs.symm.trans hs')]
        exact hrc
      have hstep : c.startStreams env (hdl :: rest) =
          (((c.modifyStream hdl (startAll env hdl)).startStreams env rest).1,
            hdl :: ((c.modifyStream hdl (startAll env hdl)).startStreams env rest).2.1,
            ((c.modifyStream hdl (startAll env hdl)).startStreams env rest).2.2) := by
        rw [ChannelObj.startStreams, hs]
        simp only [Option.elim_some, hrc]
        rfl
      have hrest : ∀ h ∈ rest, ∃ s,
          (c.modifyStream hdl (startAll env hdl)).getStream h = some s := by
        intro h hh
        rw [hother h (List.mem_cons_of_mem _ hh) (hne h hh)]
        exact hused h (List.mem_cons_of_mem _ hh)
      rcases ih hnd hrest with ⟨hall, heq⟩ | ⟨done, h, rest', s', rfl, hdone, hs', hrc', heq⟩
      · left
        rw [heq] at hstep
        refine ⟨List.forall_mem_cons.mpr ⟨hhead, ?_⟩, hstep⟩
        intro h hh s' hs'
        refine hall h hh s' ?_
        rw [hother h (List.mem_cons_of_mem _ hh) (hne h hh)]
        exact hs'
      · right
        rw [heq] at hstep
        rw [hother h (by simp) (hne h (by simp))] at hs'
        refine ⟨hdl :: done, h, rest', s', rfl, List.forall_mem_cons.mpr ⟨hhead, ?_⟩, hs', hrc',
          hstep⟩
        intro h' hh' s'' hs''
        refine hdone h' hh' s'' ?_
        rw [hother h' (by simp [hh']) (hne h' (by simp [hh']))]
        exact hs''
    · right
      refine ⟨[], hdl, rest, s, rfl, by simp, hs, hrc, ?_⟩
      rw [ChannelObj.startStreams, hs]
      simp only [Option.elim_some, ne_eq, hrc, not_false_eq_true, if_true]
      rfl

/-- **The loop of the start**: all streams start, or the first that does not is
the last one tried. -/
theorem startStreams_cases (hnd : hdls.Nodup)
    (hcfg : ∀ hdl ∈ hdls, ∃ s, c.getStream hdl = some s ∧ s.Configured) :
    (∀ hdl ∈ hdls, (env hdl).Starts) ∧
      c.startStreams env hdls = (0, hdls, c.modifyStreams (startAll env) hdls) ∨
    ∃ done hdl rest rc, hdls = done ++ hdl :: rest ∧ (∀ h ∈ done, (env h).Starts) ∧
      ¬ (env hdl).Starts ∧ rc ≠ 0 ∧ c.startStreams env hdls =
        (rc, done ++ [hdl], c.modifyStreams (startAll env) (done ++ [hdl])) := by
  have hstarts : ∀ hdl ∈ hdls, (∀ s, c.getStream hdl = some s →
      (s.startStream (env hdl)).1 = 0) → (env hdl).Starts := by
    intro hdl hh hrc
    obtain ⟨s, hs, hconf⟩ := hcfg hdl hh
    exact (startStream_rc_eq_zero_iff hconf).mp (hrc s hs)
  have hused : ∀ hdl ∈ hdls, ∃ s, c.getStream hdl = some s := by
    intro hdl hh
    obtain ⟨s, hs, -⟩ := hcfg hdl hh
    exact ⟨s, hs⟩
  rcases @startStreams_rounds c env hdls hnd hused with
    ⟨hall, heq⟩ | ⟨done, hdl, rest, s, rfl, hdone, hs, hrc, heq⟩
  · exact .inl ⟨fun hdl hh => hstarts hdl hh (hall hdl hh), heq⟩
  · right
    refine ⟨done, hdl, rest, _, rfl, ?_, ?_, hrc, heq⟩
    · intro h hh
      exact hstarts h (by simp [hh]) (hdone h hh)
    · intro hst
      obtain ⟨s', hs', hconf⟩ := hcfg hdl (by simp)
      rw [Option.some.inj (hs'.symm.trans hs)] at hconf
      exact hrc ((startStream_rc_eq_zero_iff hconf).mpr hst)

end StartStreams

/-! ### The order of the start -/

/-- A channel whose streams are configured and which was not started yet: its
handles are those `mm_camera_util_generate_handler` makes, and its bundle is as
`mm_channel_init` leaves it. -/
structure ChannelObj.Configured (c : ChannelObj) : Prop where
  streams : ∀ hdl s, c.getStream hdl = some s → s.Configured
  unbundled : ∀ hdl s, c.getStream hdl = some s → s.isBundled = false
  callbacks : ∀ hdl s, c.getStream hdl = some s → s.bufCb.length ≤ streamBufCbMax
  positive : ∀ hdl s, c.getStream hdl = some s → hdl > 0
  distinct : ((c.streams.map StreamObj.myHdl).filter fun hdl => hdl > 0).Nodup
  fresh : c.queue.Fresh
  cmdThread : c.cmdThread = none
  cbThread : c.cbThread = none
  isActive : c.isActive = false

section StartOrder

variable {c : ChannelObj} {hdl : UInt32}

theorem swapAt_perm (l : List UInt32) (i j : ℕ) : (swapAt l i j).Perm l := by
  unfold swapAt
  split
  · rename_i a b ha hb
    obtain ⟨hi, rfl⟩ := List.getElem?_eq_some_iff.mp ha
    obtain ⟨hj, rfl⟩ := List.getElem?_eq_some_iff.mp hb
    exact List.set_set_perm hi hj
  · exact .refl l

theorem startOrder_perm (c : ChannelObj) :
    c.startOrder.Perm (c.usedStreams.map StreamObj.myHdl) := by
  simp only [ChannelObj.startOrder]
  split
  · exact swapAt_perm _ _ _
  · exact .refl _

theorem mem_usedStreams {s : StreamObj} (hpos : ∀ hdl s, c.getStream hdl = some s → hdl > 0) :
    s ∈ c.usedStreams ↔ c.getStream s.myHdl = some s := by
  unfold ChannelObj.usedStreams
  rw [List.mem_filterMap]
  constructor
  · rintro ⟨t, -, ht⟩
    split at ht
    · rwa [getStream_myHdl ht]
    · cases ht
  · intro hs
    refine ⟨s, List.mem_of_find?_eq_some hs, ?_⟩
    rw [if_pos (hpos _ s hs), hs]

theorem mem_startOrder_iff (hpos : ∀ hdl s, c.getStream hdl = some s → hdl > 0) :
    hdl ∈ c.startOrder ↔ ∃ s, c.getStream hdl = some s := by
  rw [(startOrder_perm c).mem_iff, List.mem_map]
  constructor
  · rintro ⟨s, hs, rfl⟩
    exact ⟨s, (mem_usedStreams hpos).mp hs⟩
  · rintro ⟨s, hs⟩
    have hid := getStream_myHdl hs
    exact ⟨s, (mem_usedStreams hpos).mpr (by rw [hid]; exact hs), hid⟩

theorem nodup_usedStreams
    (hdistinct : ((c.streams.map StreamObj.myHdl).filter fun hdl => hdl > 0).Nodup) :
    (c.usedStreams.map StreamObj.myHdl).Nodup := by
  refine hdistinct.sublist ?_
  unfold ChannelObj.usedStreams
  have hmono : ∀ l : List StreamObj,
      ((l.filterMap fun s => if s.myHdl > 0 then c.getStream s.myHdl else none).map
        StreamObj.myHdl).Sublist ((l.map StreamObj.myHdl).filter fun hdl => hdl > 0) := by
    intro l
    induction l with
    | nil => exact .slnil
    | cons s l ih =>
      by_cases hpos : s.myHdl > 0
      · cases hs : c.getStream s.myHdl with
        | none =>
          simp only [List.filterMap_cons, hpos, if_true, hs, List.map_cons, decide_true,
            List.filter_cons_of_pos]
          exact ih.cons _
        | some t =>
          simp only [List.filterMap_cons, hpos, if_true, hs, List.map_cons, decide_true,
            List.filter_cons_of_pos, getStream_myHdl hs]
          exact ih.cons_cons _
      · simpa [List.filterMap_cons, hpos] using ih
  exact hmono c.streams

theorem ChannelObj.Configured.mem_startOrder (h : c.Configured) :
    hdl ∈ c.startOrder ↔ ∃ s, c.getStream hdl = some s :=
  mem_startOrder_iff h.positive

theorem ChannelObj.Configured.nodup_startOrder (h : c.Configured) : c.startOrder.Nodup :=
  (startOrder_perm c).nodup_iff.mpr (nodup_usedStreams h.distinct)

theorem getStream_prepare (h : c.Configured) (hdl : UInt32) :
    c.prepare.getStream hdl =
      (c.getStream hdl).map fun s => { s with isBundled := c.superBufNotifyCb } := by
  unfold ChannelObj.prepare
  by_cases hcb : c.superBufNotifyCb = true
  · rw [if_pos hcb]
    have hfind : (c.startBundle c.startOrder).getStream hdl = (c.getStream hdl).map fun s =>
        if s.myHdl ∈ c.startOrder then { s with isBundled := true } else s := by
      unfold ChannelObj.getStream ChannelObj.startBundle
      rw [List.find?_map]
      congr 2
      funext s
      by_cases hs : s.myHdl ∈ c.startOrder <;> simp [hs]
    rw [hfind]
    cases hs : c.getStream hdl with
    | none => rfl
    | some s =>
      have hmem : s.myHdl ∈ c.startOrder := by
        rw [getStream_myHdl hs]
        exact h.mem_startOrder.mpr ⟨s, hs⟩
      simp [hmem, hcb]
  · rw [if_neg hcb]
    cases hs : c.getStream hdl with
    | none => rfl
    | some s =>
      have hun := h.unbundled hdl s hs
      have hcb' : c.superBufNotifyCb = false := by simpa using hcb
      simp [hcb', ← hun]

theorem StreamObj.Configured.bundle {s : StreamObj} (h : s.Configured) (flag : Bool) :
    { s with isBundled := flag }.Configured :=
  ⟨h.state, h.bufStatus, h.cmdThread, h.pollEntry, h.device⟩

theorem ChannelObj.Configured.prepare (h : c.Configured) :
    ∀ hdl ∈ c.startOrder, ∃ s, c.prepare.getStream hdl = some s ∧ s.Configured := by
  intro hdl hmem
  obtain ⟨s, hs⟩ := h.mem_startOrder.mp hmem
  rw [getStream_prepare h, hs]
  exact ⟨_, rfl, (h.streams hdl s hs).bundle _⟩

/-- **Starting a channel**: all its streams start, or the first that does not is
taken back with those before it. -/
theorem start_cases (env : UInt32 → StreamOps) (h : c.Configured) :
    (∀ hdl ∈ c.startOrder, (env hdl).Starts) ∧
      c.start env = (0, c.prepare.modifyStreams (startAll env) c.startOrder) ∨
    ∃ done hdl rest rc, c.startOrder = done ++ hdl :: rest ∧ (∀ h ∈ done, (env h).Starts) ∧
      ¬ (env hdl).Starts ∧ rc ≠ 0 ∧ c.start env = (rc, ChannelObj.undoStreams env (done ++ [hdl])
        (c.prepare.modifyStreams (startAll env) (done ++ [hdl]))) := by
  rcases startStreams_cases h.nodup_startOrder h.prepare with
    ⟨hall, heq⟩ | ⟨done, hdl, rest, rc, horder, hdone, hfail, hrc, heq⟩
  · left
    refine ⟨hall, ?_⟩
    simp only [ChannelObj.start]
    rw [heq]
    rfl
  · right
    refine ⟨done, hdl, rest, rc, horder, hdone, hfail, hrc, ?_⟩
    simp only [ChannelObj.start]
    rw [heq]
    simp [hrc]

theorem start_eq (env : UInt32 → StreamOps) (c : ChannelObj) :
    ∃ rc l, c.start env = (rc, { c.prepare with streams := l }) := by
  obtain ⟨rc, tried, l, heq⟩ := startStreams_eq env c.startOrder c.prepare
  simp only [ChannelObj.start]
  rw [heq]
  by_cases hrc : rc = 0
  · exact ⟨0, l, by simp [hrc]⟩
  · obtain ⟨l', hl'⟩ := modifyStreams_eq (fun hdl s => s.undoStream (env hdl)) tried
      { c.prepare with streams := l }
    refine ⟨rc, l', ?_⟩
    simp only [ne_eq, hrc, not_false_eq_true, if_true, ChannelObj.undoStreams]
    rw [hl']

theorem getStream_of_start {env : UInt32 → StreamOps} {c' : ChannelObj} {s' : StreamObj}
    (h : c.Configured) (hstart : c.start env = (0, c')) (hs' : c'.getStream hdl = some s') :
    ∃ s flags, c.getStream hdl = some s ∧ (env hdl).getBufs = some flags ∧
      s' = { s with isBundled := c.superBufNotifyCb }.started flags := by
  rcases start_cases env h with ⟨hall, heq⟩ | ⟨_, _, _, rc, _, _, _, hrc, heq⟩
  swap
  · rw [heq] at hstart
    exact absurd (Prod.mk.inj hstart).1 hrc
  rw [heq] at hstart
  obtain rfl := (Prod.mk.inj hstart).2
  rw [getStream_modifyStreams (startAll_keepsId env) h.nodup_startOrder,
    getStream_prepare h] at hs'
  cases hs : c.getStream hdl with
  | none =>
    rw [hs] at hs'
    simp at hs'
  | some s =>
    have hmem : hdl ∈ c.startOrder := h.mem_startOrder.mpr ⟨s, hs⟩
    obtain ⟨flags, hreq, hok⟩ := startStream_of_starts
      ((h.streams hdl s hs).bundle c.superBufNotifyCb) (hall hdl hmem)
    rw [if_pos hmem, hs] at hs'
    simp only [Option.map_some, startAll, hok, Option.some.injEq] at hs'
    exact ⟨s, flags, rfl, hreq.1, hs'.symm⟩

end StartOrder

/-! ### A failed start -/

/-- Nothing of a start is left: every stream is in the state it had, without
buffers allocated or registered, command thread or poll entry, no thread of the
bundle runs, and the bundle is not active. -/
def Undone (c c' : ChannelObj) : Prop :=
  (∀ hdl s', c'.getStream hdl = some s' →
    (∃ s, c.getStream hdl = some s ∧ s'.state = s.state) ∧ s'.bufStatus = none ∧
      s'.device.requested = false ∧ s'.cmdThread = none ∧ s'.pollEntry = false) ∧
  c'.cmdThread = none ∧ c'.cbThread = none ∧ c'.isActive = false

/-- The first stream of the order that does not start fails while its buffers
are queued. -/
def FirstFailsAtQbuf (env : UInt32 → StreamOps) (order : List UInt32) : Prop :=
  ∃ done hdl rest, order = done ++ hdl :: rest ∧ (∀ h ∈ done, (env h).Starts) ∧
    (env hdl).FailsAtQbuf

section Undone

variable {c : ChannelObj} {env : UInt32 → StreamOps} {hdl hdl' : UInt32}
  {done done' rest rest' : List UInt32}

theorem StreamOps.FailsAtQbuf.not_starts {ops : StreamOps} (h : ops.FailsAtQbuf) :
    ¬ ops.Starts := by
  rintro ⟨flags, hreq, hq, -⟩
  obtain ⟨flags', hreq', hnot⟩ := h
  have hsame : flags' = flags := Option.some.inj (hreq'.1.symm.trans hreq.1)
  rw [hsame] at hnot
  exact hnot hq

theorem first_unique {P : UInt32 → Prop} (heq : done ++ hdl :: rest = done' ++ hdl' :: rest')
    (hdone : ∀ h ∈ done, P h) (hnot : ¬ P hdl) (hdone' : ∀ h ∈ done', P h) (hnot' : ¬ P hdl') :
    hdl = hdl' := by
  rcases List.append_eq_append_iff.mp heq with ⟨a, rfl, ha⟩ | ⟨a, rfl, ha⟩
  · cases a with
    | nil => exact (List.cons.inj ha).1
    | cons x a =>
      obtain ⟨rfl, -⟩ := List.cons.inj ha
      exact absurd (hdone' hdl (by simp)) hnot
  · cases a with
    | nil => exact (List.cons.inj ha).1.symm
    | cons x a =>
      obtain ⟨rfl, -⟩ := List.cons.inj ha
      exact absurd (hdone hdl' (by simp)) hnot'

theorem firstFailsAtQbuf_iff (hdone : ∀ h ∈ done, (env h).Starts) (hfail : ¬ (env hdl).Starts) :
    FirstFailsAtQbuf env (done ++ hdl :: rest) ↔ (env hdl).FailsAtQbuf := by
  constructor
  · rintro ⟨done', hdl', rest', heq, hdone', hq⟩
    rw [first_unique heq hdone hfail hdone' hq.not_starts]
    exact hq
  · intro hq
    exact ⟨done, hdl, rest, rfl, hdone, hq⟩

theorem getStream_undone (c : ChannelObj) (env : UInt32 → StreamOps)
    (hnd : (done ++ [hdl]).Nodup) (h : UInt32) :
    (ChannelObj.undoStreams env (done ++ [hdl])
        (c.modifyStreams (startAll env) (done ++ [hdl]))).getStream h =
      if h ∈ done ++ [hdl] then
        (c.getStream h).map fun s => (startAll env h s).undoStream (env h)
      else c.getStream h := by
  rw [ChannelObj.undoStreams, getStream_modifyStreams (fun h => undoStream_keepsId (env h)) hnd,
    getStream_modifyStreams (startAll_keepsId env) hnd]
  by_cases hmem : h ∈ done ++ [hdl]
  · simp only [hmem, if_true, Option.map_map]
    rfl
  · simp only [hmem, if_false]

theorem undoStream_startAll {s : StreamObj} (hs : s.Configured) (hok : (env hdl).StopOk)
    (hq : ¬ (env hdl).FailsAtQbuf) : (startAll env hdl s).undoStream (env hdl) = s := by
  by_cases hst : (env hdl).Starts
  · obtain ⟨flags, -, heq⟩ := startStream_of_starts hs hst
    rw [startAll, heq]
    exact undoStream_started hs hok
  · exact undoStream_failed hs hok hst hq

/-- **A failed start is undone** if and only if the channel has no superbuf
callback and the stream that failed did not fail while its buffers were
queued. -/
theorem channel_start_undone_iff (h : c.Configured) (hok : ∀ hdl, (env hdl).StopOk)
    (hrc : (c.start env).1 ≠ 0) :
    Undone c (c.start env).2 ↔
      c.superBufNotifyCb = false ∧ ¬ FirstFailsAtQbuf env c.startOrder := by
  rcases start_cases env h with ⟨-, heq⟩ | ⟨done, hdl, rest, rc, horder, hdone, hfail, -, heq⟩
  · rw [heq] at hrc
    exact absurd rfl hrc
  have hnd : (done ++ [hdl]).Nodup := by
    have hnd := h.nodup_startOrder
    rw [horder, ← List.singleton_append, ← List.append_assoc] at hnd
    exact hnd.of_append_left
  have hthread : (c.start env).2.cmdThread = c.prepare.cmdThread ∧
      (c.start env).2.cbThread = c.prepare.cbThread ∧
      (c.start env).2.isActive = c.prepare.isActive := by
    obtain ⟨rc', l, heq'⟩ := start_eq env c
    rw [heq']
    exact ⟨rfl, rfl, rfl⟩
  rw [horder, firstFailsAtQbuf_iff hdone hfail]
  have hget := getStream_undone c.prepare env hnd
  constructor
  · rintro ⟨hstreams, hcmd, -⟩
    have hcb : c.superBufNotifyCb = false := by
      by_contra hcb
      have hcb : c.superBufNotifyCb = true := by simpa using hcb
      rw [hthread.1, ChannelObj.prepare, if_pos hcb] at hcmd
      cases hcmd
    refine ⟨hcb, ?_⟩
    intro hq
    -- the stream that failed is still registered
    have hmem : hdl ∈ c.startOrder := by simp [horder]
    obtain ⟨s, hs, hconf⟩ := h.prepare hdl hmem
    have hs' := hget hdl
    rw [if_pos (by simp), hs, Option.map_some] at hs'
    rw [heq] at hstreams
    have hreq := (hstreams hdl _ hs').2.2.1
    rw [startAll, undoStream_failed_qbuf hconf hq] at hreq
    cases hreq
  · rintro ⟨hcb, hq⟩
    have hprep : c.prepare = c := by
      rw [ChannelObj.prepare, hcb]
      rfl
    refine ⟨?_, ?_, ?_, ?_⟩
    · intro h' s' hs'
      rw [heq] at hs'
      have hcase := hget h'
      rw [hs', hprep] at hcase
      -- every stream is as it was
      have hsame : c.getStream h' = some s' := by
        split at hcase
        · rename_i hmem
          cases hs : c.getStream h' with
          | none =>
            rw [hs] at hcase
            cases hcase
          | some s =>
            have hq' : ¬ (env h').FailsAtQbuf := by
              rcases List.mem_append.mp hmem with hmem | hmem
              · exact fun hq' => hq'.not_starts (hdone h' hmem)
              · rw [List.mem_singleton.mp hmem]
                exact hq
            rw [hs, Option.map_some, undoStream_startAll (h.streams h' s hs) (hok h') hq'] at hcase
            exact hcase.symm
        · exact hcase.symm
      have hconf := h.streams h' s' hsame
      exact ⟨⟨s', hsame, rfl⟩, hconf.bufStatus, by rw [hconf.device], hconf.cmdThread,
        hconf.pollEntry⟩
    · rw [hthread.1, hprep]
      exact h.cmdThread
    · rw [hthread.2.1, hprep]
      exact h.cbThread
    · rw [hthread.2.2, hprep]
      exact h.isActive

end Undone

/-- A channel with one preview stream, handle 1, with or without a superbuf
callback and a data callback. -/
def previewChannel (superCb cb : Bool) : ChannelObj where
  state := .stopped
  isActive := false
  queue := ⟨[], 0, [], ⟨.burst, 0, 0, 0, 0⟩, 0, 0⟩
  superBufNotifyCb := superCb
  pendingCnt := 0
  startZslSnapshotCalled := false
  needLedFlash := false
  cmdThread := none
  cbThread := none
  streams := [⟨1, .cfg, some .preview, false, [⟨cb, -1⟩], none, none, false, ⟨false, [], false⟩⟩]

/-- Two buffers are allocated, both for the kernel, and every call succeeds. -/
def ampleOps : StreamOps := ⟨some [true, true], true, true, fun _ => true, true, true, true, true⟩

theorem configured_single {s : StreamObj} (superCb cb : Bool) (hs : s.Configured)
    (hbundled : s.isBundled = false) (hcb : s.bufCb.length ≤ streamBufCbMax) (hid : s.myHdl > 0) :
    ChannelObj.Configured { previewChannel superCb cb with streams := [s] } := by
  have hget : ∀ hdl t, ChannelObj.getStream { previewChannel superCb cb with streams := [s] } hdl =
      some t → t = s ∧ hdl = s.myHdl := by
    intro hdl t ht
    obtain rfl := List.mem_singleton.mp (List.mem_of_find?_eq_some ht)
    exact ⟨rfl, (getStream_myHdl ht).symm⟩
  refine ⟨?_, ?_, ?_, ?_, ?_, ⟨rfl, rfl, rfl⟩, rfl, rfl, rfl⟩
  · intro hdl t ht
    rw [(hget hdl t ht).1]
    exact hs
  · intro hdl t ht
    rw [(hget hdl t ht).1]
    exact hbundled
  · intro hdl t ht
    rw [(hget hdl t ht).1]
    exact hcb
  · intro hdl t ht
    rw [(hget hdl t ht).2]
    exact hid
  · exact (List.nodup_singleton _).filter _

theorem previewChannel_configured (superCb cb : Bool) : (previewChannel superCb cb).Configured :=
  configured_single superCb cb ⟨rfl, rfl, rfl, rfl, rfl⟩ rfl (by simp [streamBufCbMax])
    (show (1 : UInt32) > 0 by decide)

/-- The preview channel when its stream cannot be switched on. -/
theorem channel_start_undone_preview :
    Undone (previewChannel false true)
      ((previewChannel false true).start fun _ => { ampleOps with streamOn := false }).2 := by
  refine (channel_start_undone_iff (previewChannel_configured false true)
    (fun _ => ⟨rfl, rfl, rfl⟩) (by decide)).mpr ⟨rfl, ?_⟩
  rintro ⟨_, _, _, -, -, flags, -, hq⟩
  exact hq fun _ _ => rfl

/-- With a superbuf callback the threads of the bundle are left running. -/
theorem channel_start_not_undone_bundle : (previewChannel true true).Configured ∧
    ((previewChannel true true).start fun _ => { ampleOps with streamOn := false }).1 ≠ 0 ∧
    ¬ Undone (previewChannel true true)
      ((previewChannel true true).start fun _ => { ampleOps with streamOn := false }).2 := by
  refine ⟨previewChannel_configured true true, by decide, ?_⟩
  rintro ⟨-, hcmd, -⟩
  revert hcmd
  decide

end Interface

/-
Frames for the application: `video_stream_cb_routine`,
`nodisplay_preview_stream_cb_routine` and `releaseRecordingFrame`.

A video frame is given to the application by the callback notifier and comes
back through `releaseRecordingFrame`.  A preview frame without a display is
given to it too, and goes back to the driver when the notification is released.

* `Conserved` — a frame that was received has been returned, waits in the
  notifier or is with the application, and a buffer is in one place only;
* `stream_frames_kept` — this holds along every run in which the messages of
  video frames stay enabled and no notification of one is dropped, and the
  notifier thread alone then delivers or returns all that waits.
-/
import HdxCommon.CbNotifier

namespace Qcamera

/-! ### Memory of the streams -/

inductive FrameSource where
  | video | preview
  deriving DecidableEq, Repr

abbrev StreamFrame := FrameSource × ℕ

/-- A frame as the application gets it: its buffer, and the address in the
`camera_memory_t`. -/
structure FrameArg where
  frame : StreamFrame
  addr : UInt32
  deriving DecidableEq, Repr

/-- `QCameraStreamMemory`: the addresses of the first `mBufferCount` entries of
`mCameraMemory`, which are not checked when they are allocated. -/
structure StreamMemory where
  cameraMemory : List (Option UInt32)
  deriving DecidableEq, Repr

/-- `QCameraVideoMemory`: there are metadata buffers, too. -/
structure VideoMemory where
  cameraMemory : List (Option UInt32)
  metadata : List UInt32
  deriving DecidableEq, Repr

/-- `getMemory` for a frame. -/
def StreamMemory.getMemory (m : StreamMemory) (index : ℕ) : Option UInt32 :=
  m.cameraMemory[index]?.join

namespace VideoMemory

def entries (m : VideoMemory) (metadata : Bool) : List (Option UInt32) :=
  if metadata then m.metadata.map some else m.cameraMemory

/-- `getMemory`. -/
def getMemory (m : VideoMemory) (index : ℕ) (metadata : Bool) : Option UInt32 :=
  (m.entries metadata)[index]?.join

/-- The loop of `getMatchBufIndex`; `none` if it reads through a null pointer. -/
def matchLoop (addr : UInt32) : ℕ → List (Option UInt32) → Option (Option ℕ)
  | _, [] => some none
  | _, none :: _ => none
  | i, some a :: l => if a = addr then some (some i) else matchLoop addr (i + 1) l

/-- `getMatchBufIndex`. -/
def getMatchBufIndex (m : VideoMemory) (addr : UInt32) (metadata : Bool) : Option (Option ℕ) :=
  matchLoop addr 0 (m.entries metadata)

end VideoMemory

/-! ### The callbacks -/

/-- `CAMERA_MSG_PREVIEW_FRAME`. -/
def msgPreviewFrame : UInt32 := 0x0010

/-- `CAMERA_MSG_VIDEO_FRAME`. -/
def msgVideoFrame : UInt32 := 0x0020

/-- The interface as far as these frames are concerned: the notifier, the
enabled message types, the callbacks of the application, the memory of the two
streams, the buffers that the driver has, and the video frames that the
application has. -/
structure FrameHal where
  notifier : CbNotifier FrameArg
  msgEnabled : UInt32
  dataCb : Bool
  dataCbTimestamp : Bool
  storeMetaDataInFrame : Bool
  videoMem : VideoMemory
  previewMem : StreamMemory
  kernel : List StreamFrame
  framework : List FrameArg
  deriving DecidableEq, Repr

inductive FrameEvt where
  /-- a callback receives a frame -/
  | received (f : StreamFrame)
  /-- a buffer is returned to the driver -/
  | bufDone (f : StreamFrame)
  /-- the application gets a frame -/
  | handed (d : FrameArg)
  deriving DecidableEq, Repr

inductive FrameInput where
  | videoFrame (idx : ℕ) (mem : NotifyMem)
  /-- `running` and `running'` are the answers of `needProcessPreviewFrame` -/
  | previewFrame (idx : ℕ) (running running' : Bool) (mem : NotifyMem)
  /-- another part of the interface sends a notification -/
  | notifyOther (cbType : CbType) (msgType : ℕ) (mem : NotifyMem)
  | enableMsgType (msg : UInt32)
  | disableMsgType (msg : UInt32)
  | startSnapshots (mem : CmdMem)
  | stopSnapshots (mem : CmdMem)
  | exit (mem : CmdMem)
  /-- the notifier thread takes a command -/
  | next (numOfSnapshotsExpected : UInt8)
  /-- the application returns a video frame -/
  | releaseRecordingFrame (d : FrameArg)

/-- The video frame that a callback gives to the application; a preview frame
is the application's during the callback only. -/
def NotifierEvt.handsOver : NotifierEvt FrameArg → Option FrameArg
  | .callback cb => cb.data.filter fun d => d.frame.1 = .video
  | _ => none

/-- What a step of the notifier does to frames; the release callback is
`returnStreamBuffer`. -/
def NotifierEvt.frameEvts (e : NotifierEvt FrameArg) : List FrameEvt :=
  match e with
  | .release d => [.bufDone d.frame]
  | e => e.handsOver.toList.map .handed

def videoArgm (d : FrameArg) : CallbackArgm FrameArg :=
  ⟨.dataTimestamp, msgVideoFrame.toNat, some d, none⟩

def previewArgm (d : FrameArg) : CallbackArgm FrameArg :=
  ⟨.data, msgPreviewFrame.toNat, some d, some d⟩

namespace FrameHal

/-- `msgTypeEnabledWithLock`. -/
def msgTypeEnabled (s : FrameHal) (msg : UInt32) : Bool := s.msgEnabled &&& msg != 0

/-- `QCameraStream::bufDone`. -/
def bufDone (s : FrameHal) (f : StreamFrame) : FrameHal × List FrameEvt :=
  ({ s with kernel := s.kernel ++ [f] }, [.bufDone f])

/-- Send the notification of a frame; the frame is returned if that fails. -/
def notify (cb : CallbackArgm FrameArg) (f : StreamFrame) (mem : NotifyMem) (s : FrameHal) :
    FrameHal × List FrameEvt :=
  let (ok, notifier, _) := s.notifier.notifyCallback cb mem
  let s := { s with notifier := notifier }
  if ok then (s, []) else s.bufDone f

/-- `video_stream_cb_routine`. -/
def videoStreamCb (idx : ℕ) (mem : NotifyMem) (s : FrameHal) : FrameHal × List FrameEvt :=
  match s.videoMem.getMemory idx s.storeMetaDataInFrame with
  | none => (s, [])
  | some addr =>
    if s.dataCbTimestamp && s.msgTypeEnabled msgVideoFrame then
      s.notify (videoArgm ⟨(.video, idx), addr⟩) (.video, idx) mem
    else (s, [])

/-- `nodisplay_preview_stream_cb_routine`. -/
def nodisplayPreviewStreamCb (idx : ℕ) (running running' : Bool) (mem : NotifyMem)
    (s : FrameHal) : FrameHal × List FrameEvt :=
  if !running then s.bufDone (.preview, idx)
  else
    match s.previewMem.getMemory idx with
    | none => (s, [])
    | some addr =>
      if running' && s.dataCb && s.msgTypeEnabled msgPreviewFrame then
        s.notify (previewArgm ⟨(.preview, idx), addr⟩) (.preview, idx) mem
      else s.bufDone (.preview, idx)

def receive (s : FrameHal) (f : StreamFrame) (cb : FrameHal → FrameHal × List FrameEvt) :
    Option (FrameHal × List FrameEvt) :=
  if f ∈ s.kernel then
    let (s, o) := cb { s with kernel := s.kernel.erase f }
    some (s, .received f :: o)
  else none

/-- A step of the notifier, and what its callbacks do. -/
def notifierStep (s : FrameHal) (i : NotifierInput FrameArg) :
    Option (FrameHal × List FrameEvt) := do
  let (notifier, es) ← s.notifier.step i
  return ({ s with
      notifier := notifier
      kernel := s.kernel ++ (releasedData es).map FrameArg.frame
      framework := s.framework ++ es.filterMap NotifierEvt.handsOver },
    es.flatMap NotifierEvt.frameEvts)

/-- `releaseRecordingFrame`, with the address of a frame that the application
has. -/
def releaseRecordingFrame (s : FrameHal) (d : FrameArg) : Option (FrameHal × List FrameEvt) :=
  if d ∈ s.framework then do
    let index ← s.videoMem.getMatchBufIndex d.addr s.storeMetaDataInFrame
    let s := { s with framework := s.framework.erase d }
    return index.elim (s, []) fun i => s.bufDone (.video, i)
  else none

def step (s : FrameHal) : FrameInput → Option (FrameHal × List FrameEvt)
  | .videoFrame idx mem => s.receive (.video, idx) (videoStreamCb idx mem)
  | .previewFrame idx running running' mem =>
    s.receive (.preview, idx) (nodisplayPreviewStreamCb idx running running' mem)
  | .notifyOther cbType msgType mem =>
    s.notifierStep (.notifyCallback ⟨cbType, msgType, none, none⟩ mem)
  | .enableMsgType msg => some ({ s with msgEnabled := s.msgEnabled ||| msg }, [])
  | .disableMsgType msg => some ({ s with msgEnabled := s.msgEnabled &&& ~~~msg }, [])
  | .startSnapshots mem => s.notifierStep (.startSnapshots mem)
  | .stopSnapshots mem => s.notifierStep (.stopSnapshots mem)
  | .exit mem => s.notifierStep (.exit mem)
  | .next n => s.notifierStep (.next ⟨fun msg => s.msgTypeEnabled msg.toUInt32, n⟩)
  | .releaseRecordingFrame d => s.releaseRecordingFrame d

end FrameHal

/-! ### Where the frames are -/

def receivedFrames (os : List FrameEvt) : List StreamFrame :=
  os.filterMap fun e => match e with
    | .received f => some f
    | _ => none

def returnedFrames (os : List FrameEvt) : List StreamFrame :=
  os.filterMap fun e => match e with
    | .bufDone f => some f
    | _ => none

@[simp] theorem receivedFrames_append (os os' : List FrameEvt) :
    receivedFrames (os ++ os') = receivedFrames os ++ receivedFrames os' :=
  List.filterMap_append ..

@[simp] theorem returnedFrames_append (os os' : List FrameEvt) :
    returnedFrames (os ++ os') = returnedFrames os ++ returnedFrames os' :=
  List.filterMap_append ..

def queuedFrames (cbs : List (CallbackArgm FrameArg)) : List StreamFrame :=
  (cbs.filterMap CallbackArgm.data).map FrameArg.frame

@[simp] theorem queuedFrames_append (cbs cbs' : List (CallbackArgm FrameArg)) :
    queuedFrames (cbs ++ cbs') = queuedFrames cbs ++ queuedFrames cbs' := by
  simp [queuedFrames]

namespace FrameHal

/-- The frames that wait in the notifier. -/
def waiting (s : FrameHal) : List StreamFrame := queuedFrames s.notifier.dataQ

/-- The frames that the application has. -/
def held (s : FrameHal) : List StreamFrame := s.framework.map FrameArg.frame

end FrameHal

/-- The addresses of the frames, as they are given to the application. -/
structure FrameAddrs where
  video : List (Option UInt32)
  preview : List (Option UInt32)

def FrameHal.addrs (s : FrameHal) : FrameAddrs :=
  ⟨s.videoMem.entries s.storeMetaDataInFrame, s.previewMem.cameraMemory⟩

namespace FrameAddrs

def InStream (m : FrameAddrs) : StreamFrame → Prop
  | (.video, i) => i < m.video.length
  | (.preview, i) => i < m.preview.length

structure Given (m : FrameAddrs) : Prop where
  video : ∀ a ∈ m.video, a.isSome
  distinct : m.video.Nodup
  preview : ∀ a ∈ m.preview, a.isSome

def VideoArg (m : FrameAddrs) (d : FrameArg) : Prop :=
  d.frame.1 = .video ∧ m.video[d.frame.2]? = some (some d.addr)

def PreviewArg (m : FrameAddrs) (d : FrameArg) : Prop := d.frame.1 = .preview ∧ m.InStream d.frame

/-- What can be in the queue of the notifier. -/
inductive Queued (m : FrameAddrs) : CallbackArgm FrameArg → Prop
  | video {d : FrameArg} (hd : m.VideoArg d) : Queued m (videoArgm d)
  | preview {d : FrameArg} (hd : m.PreviewArg d) : Queued m (previewArgm d)
  | other (cbType : CbType) (msgType : ℕ) : Queued m ⟨cbType, msgType, none, none⟩

end FrameAddrs

/-- No frame is lost and none is returned twice: a buffer that was in one place
is in one place, and a frame that was received is returned, waits or is with the
application. -/
structure Conserved (s : FrameHal) (o : List FrameEvt) (s' : FrameHal) : Prop where
  place : ∀ f, s'.kernel.count f + s'.waiting.count f + s'.held.count f =
    s.kernel.count f + s.waiting.count f + s.held.count f
  seen : ∀ f, (returnedFrames o).count f + s'.waiting.count f + s'.held.count f =
    (receivedFrames o).count f + s.waiting.count f + s.held.count f

structure FrameInv (s : FrameHal) : Prop where
  memory : s.addrs.Given
  kernel : ∀ f ∈ s.kernel, s.addrs.InStream f
  queue : ∀ cb ∈ s.notifier.dataQ, s.addrs.Queued cb
  framework : ∀ d ∈ s.framework, s.addrs.VideoArg d
  ends : EndsEmpty s.notifier
  wake : s.notifier.running = true →
    s.notifier.dataQ.length ≤ s.notifier.cmds.count .doNextJob

section Steps

open CbNotifier

variable {s s' s'' : FrameHal} {o os : List FrameEvt} {cb : CallbackArgm FrameArg}
  {f : StreamFrame} {mem : NotifyMem}

theorem Conserved.refl (s : FrameHal) : Conserved s [] s := ⟨fun _ => rfl, fun _ => rfl⟩

theorem Conserved.trans (h : Conserved s os s') (h' : Conserved s' o s'') :
    Conserved s (os ++ o) s'' := by
  refine ⟨fun f => (h'.place f).trans (h.place f), ?_⟩
  intro f
  have h₁ := h.seen f
  have h₂ := h'.seen f
  rw [returnedFrames_append, receivedFrames_append, List.count_append, List.count_append]
  omega

theorem notifyCallback_cases (n : CbNotifier FrameArg) (cb : CallbackArgm FrameArg)
    (h : mem.cmd.Sends) :
    n.notifyCallback cb mem = (false, n, []) ∨
    n.notifyCallback cb mem =
      (true, { n with dataQ := n.dataQ ++ [cb], cmds := n.cmds ++ [.doNextJob] },
        [.queued cb]) := by
  unfold CbNotifier.notifyCallback
  split
  · exact .inl rfl
  split
  · exact .inl rfl
  split
  · right
    have hsend : sendCmd .doNextJob false mem.cmd n.cmds = (true, n.cmds ++ [.doNextJob]) := by
      refine Prod.ext ?_ ?_
      · rw [sendCmd_fst, h.1]
      · rw [sendCmd_eq, if_pos h]
        rfl
    simp only [hsend]
  · exact .inl rfl

/-- A callback that has the frame `f` in hand returns it, or a notification of
it waits. -/
structure FrameSettled (s : FrameHal) (f : StreamFrame) (r : FrameHal × List FrameEvt) : Prop where
  inv : FrameInv r.1
  place : ∀ x, r.1.kernel.count x + r.1.waiting.count x =
    s.kernel.count x + s.waiting.count x + [f].count x
  seen : ∀ x, (returnedFrames r.2).count x + r.1.waiting.count x =
    s.waiting.count x + [f].count x
  received : receivedFrames r.2 = []
  framework : r.1.framework = s.framework

theorem FrameInv.bufDone (h : FrameInv s) (hf : s.addrs.InStream f) :
    FrameSettled s f (s.bufDone f) := by
  refine ⟨⟨h.memory, ?_, h.queue, h.framework, h.ends, h.wake⟩, ?_, ?_, rfl, rfl⟩
  · intro x hx
    rcases List.mem_append.mp hx with hx | hx
    · exact h.kernel x hx
    · rw [List.mem_singleton.mp hx]
      exact hf
  · intro x
    show (s.kernel ++ [f]).count x + s.waiting.count x = _
    rw [List.count_append]
    omega
  · intro x
    show [f].count x + s.waiting.count x = _
    omega

theorem FrameInv.enqueue (h : FrameInv s) (hcb : s.addrs.Queued cb)
    (hends : EndsEmpty { s.notifier with
      dataQ := s.notifier.dataQ ++ [cb], cmds := s.notifier.cmds ++ [.doNextJob] }) :
    FrameInv { s with notifier := { s.notifier with
      dataQ := s.notifier.dataQ ++ [cb], cmds := s.notifier.cmds ++ [.doNextJob] } } := by
  refine ⟨h.memory, h.kernel, ?_, h.framework, hends, ?_⟩
  · intro x hx
    rcases List.mem_append.mp hx with hx | hx
    · exact h.queue x hx
    · rw [List.mem_singleton.mp hx]
      exact hcb
  · intro hrun
    have hwake := h.wake hrun
    show (s.notifier.dataQ ++ [cb]).length ≤
      (s.notifier.cmds ++ [CmdType.doNextJob]).count CmdType.doNextJob
    rw [List.length_append, List.count_append]
    exact Nat.add_le_add_right hwake 1

theorem FrameInv.notify (h : FrameInv s) (hcb : s.addrs.Queued cb) (hf : s.addrs.InStream f)
    (hframes : queuedFrames [cb] = [f]) (hmem : mem.cmd.Sends) :
    FrameSettled s f (s.notify cb f mem) := by
  have hends : EndsEmpty (s.notifier.notifyCallback cb mem).2.1 := h.ends.notifyCallback
  rcases notifyCallback_cases s.notifier cb hmem with heq | heq
  · have hnot : s.notify cb f mem = s.bufDone f := by
      simp only [FrameHal.notify, heq]
      rfl
    rw [hnot]
    exact h.bufDone hf
  · rw [heq] at hends
    have hnot : s.notify cb f mem = ({ s with notifier := { s.notifier with
        dataQ := s.notifier.dataQ ++ [cb], cmds := s.notifier.cmds ++ [.doNextJob] } }, []) := by
      simp only [FrameHal.notify, heq]
      rfl
    have hwait : ∀ x, (queuedFrames (s.notifier.dataQ ++ [cb])).count x =
        s.waiting.count x + [f].count x := by
      intro x
      rw [queuedFrames_append, hframes, List.count_append]
      rfl
    rw [hnot]
    refine ⟨h.enqueue hcb hends, ?_, ?_, rfl, rfl⟩
    · intro x
      have hx := hwait x
      show s.kernel.count x + (queuedFrames (s.notifier.dataQ ++ [cb])).count x = _
      omega
    · intro x
      have hx := hwait x
      show 0 + (queuedFrames (s.notifier.dataQ ++ [cb])).count x = _
      omega

/-- A frame comes from the driver and its callback settles it. -/
theorem FrameInv.receive {g : FrameHal → FrameHal × List FrameEvt} (h : FrameInv s)
    (hg : FrameInv { s with kernel := s.kernel.erase f } → s.addrs.InStream f →
      FrameSettled { s with kernel := s.kernel.erase f } f
        (g { s with kernel := s.kernel.erase f }))
    (hs : s.receive f g = some (s', o)) : FrameInv s' ∧ Conserved s o s' := by
  unfold FrameHal.receive at hs
  split_ifs at hs with hf
  cases hs
  have hrest : FrameInv { s with kernel := s.kernel.erase f } :=
    ⟨h.memory, fun x hx => h.kernel x (List.mem_of_mem_erase hx), h.queue, h.framework, h.ends,
      h.wake⟩
  obtain ⟨hinv, hplace, hseen, hrec, hframe⟩ := hg hrest (h.kernel f hf)
  have hpos : 0 < s.kernel.count f := List.count_pos_iff.mpr hf
  have hheld : (g { s with kernel := s.kernel.erase f }).1.held = s.held := by
    rw [FrameHal.held, hframe]
    rfl
  refine ⟨hinv, ?_, ?_⟩
  · intro x
    have hx : _ = (s.kernel.erase f).count x + s.waiting.count x + [f].count x := hplace x
    rw [hheld]
    by_cases heq : f = x
    · subst heq
      rw [List.count_erase_self, List.count_singleton_self] at hx
      omega
    · rw [List.count_erase_of_ne (Ne.symm heq), List.count_cons_of_ne heq, List.count_nil] at hx
      omega
  · intro x
    have hx : _ = s.waiting.count x + [f].count x := hseen x
    rw [hheld]
    show (returnedFrames (g _).2).count x + _ + _ =
      (f :: receivedFrames (g { s with kernel := s.kernel.erase f }).2).count x + _ + _
    rw [hrec]
    omega

theorem FrameInv.videoStreamCb {idx : ℕ} (h : FrameInv s) (hf : s.addrs.InStream (.video, idx))
    (hcb : s.dataCbTimestamp = true) (hmsg : s.msgTypeEnabled msgVideoFrame = true)
    (hmem : mem.cmd.Sends) : FrameSettled s (.video, idx) (s.videoStreamCb idx mem) := by
  have hlt : idx < s.addrs.video.length := hf
  obtain ⟨addr, haddr⟩ := Option.isSome_iff_exists.mp (h.memory.video _ (List.getElem_mem hlt))
  have hget : s.addrs.video[idx]? = some (some addr) := by
    rw [List.getElem?_eq_getElem hlt, haddr]
  have hmemory : s.videoMem.getMemory idx s.storeMetaDataInFrame = some addr :=
    congrArg Option.join hget
  have heq : s.videoStreamCb idx mem =
      s.notify (videoArgm ⟨(.video, idx), addr⟩) (.video, idx) mem := by
    simp [FrameHal.videoStreamCb, hmemory, hcb, hmsg]
  rw [heq]
  exact h.notify (.video ⟨rfl, hget⟩) hf rfl hmem

theorem FrameInv.nodisplayPreviewStreamCb {idx : ℕ} {running running' : Bool} (h : FrameInv s)
    (hf : s.addrs.InStream (.preview, idx)) (hmem : mem.cmd.Sends) :
    FrameSettled s (.preview, idx) (s.nodisplayPreviewStreamCb idx running running' mem) := by
  have hlt : idx < s.addrs.preview.length := hf
  obtain ⟨addr, haddr⟩ := Option.isSome_iff_exists.mp (h.memory.preview _ (List.getElem_mem hlt))
  have hget : s.addrs.preview[idx]? = some (some addr) := by
    rw [List.getElem?_eq_getElem hlt, haddr]
  have hmemory : s.previewMem.getMemory idx = some addr := congrArg Option.join hget
  unfold FrameHal.nodisplayPreviewStreamCb
  rw [hmemory]
  dsimp only
  split_ifs
  · exact h.bufDone hf
  · exact h.notify (.preview ⟨rfl, hf⟩) hf rfl hmem
  · exact h.bufDone hf

/-! ### The notifier thread -/

/-- What must not happen to a notification of a video frame: it is delivered
while its message type is disabled, or thrown away when the thread ends. -/
def DeliversVideo (s : FrameHal) : Prop :=
  (s.notifier.cmds.head? = some .doNextJob → ∀ cb ∈ s.notifier.dataQ.head?,
    cb.cbType = .dataTimestamp →
      s.notifier.dataCbTimestamp = true ∧ s.msgTypeEnabled msgVideoFrame = true) ∧
  (s.notifier.cmds.head? = some .exit → ∀ cb ∈ s.notifier.dataQ, cb.cbType ≠ .dataTimestamp)

/-- What a step of the notifier does to the frames in its queue: some are
released, some are handed over, and the others stay. -/
structure Passes (m : FrameAddrs) (n : CbNotifier FrameArg) (es : List (NotifierEvt FrameArg))
    (n' : CbNotifier FrameArg) : Prop where
  frames : ∀ x, (queuedFrames n'.dataQ).count x + ((releasedData es).map FrameArg.frame).count x +
    ((es.filterMap NotifierEvt.handsOver).map FrameArg.frame).count x =
      (queuedFrames n.dataQ).count x
  queue : ∀ cb ∈ n'.dataQ, m.Queued cb
  released : ∀ d ∈ releasedData es, m.PreviewArg d
  handed : ∀ d ∈ es.filterMap NotifierEvt.handsOver, m.VideoArg d
  wake : n'.running = true → n'.dataQ.length ≤ n'.cmds.count .doNextJob

section Passes

variable {m : FrameAddrs} {n n' : CbNotifier FrameArg} {es : List (NotifierEvt FrameArg)}
  {dataQ : List (CallbackArgm FrameArg)}

theorem Passes.of_silent (hqueue : ∀ cb ∈ n'.dataQ, m.Queued cb)
    (hframes : queuedFrames n'.dataQ = queuedFrames n.dataQ) (hrel : releasedData es = [])
    (hhand : es.filterMap NotifierEvt.handsOver = [])
    (hwake : n'.running = true → n'.dataQ.length ≤ n'.cmds.count .doNextJob) :
    Passes m n es n' := by
  refine ⟨?_, hqueue, ?_, ?_, hwake⟩
  · intro x
    rw [hframes, hrel, hhand]
    rfl
  · rw [hrel]
    intro d hd
    cases hd
  · rw [hhand]
    intro d hd
    cases hd

theorem handsOver_deliver (cb : CallbackArgm FrameArg) (n : CbNotifier FrameArg)
    (h : (cb.data.filter fun d => d.frame.1 = .video) = none) :
    (n.deliver cb).2.filterMap NotifierEvt.handsOver = [] := by
  unfold CbNotifier.deliver
  cases cb.cbType with
  | notify => cases n.notifyCb <;> simp [NotifierEvt.handsOver, h]
  | data => cases n.dataCb <;> simp [NotifierEvt.handsOver, h]
  | dataTimestamp => cases n.dataCbTimestamp <;> simp [NotifierEvt.handsOver, h]
  | snapshot =>
    dsimp only
    split
    · split <;> rfl
    · rfl

theorem handsOver_releaseNotifications (cbs : List (CallbackArgm FrameArg)) :
    (releaseNotifications cbs).filterMap NotifierEvt.handsOver = [] := by
  simp [releaseNotifications, List.filterMap_map, Function.comp_def, NotifierEvt.handsOver]

theorem FrameAddrs.Queued.snapshot {cb : CallbackArgm FrameArg} (h : m.Queued cb)
    (hcb : matchSnapshotNotifications cb = true) : cb.data = none ∧ cb.release = none := by
  cases h with
  | video | preview => cases hcb
  | other => exact ⟨rfl, rfl⟩

theorem FrameAddrs.Queued.release {cb : CallbackArgm FrameArg} (h : m.Queued cb)
    {d : FrameArg} (hd : cb.release = some d) : m.PreviewArg d := by
  cases h with
  | preview hp => exact Option.some.inj hd ▸ hp
  | video | other => cases hd

theorem Passes.stopDataProc (hqueue : ∀ cb ∈ n.dataQ, m.Queued cb) (env : NotifierEnv)
    (hwake : n.running = true → n.dataQ.length ≤ n.cmds.count .doNextJob) :
    Passes m n (n.cbNotifyRoutine env .stopDataProc).2 (n.cbNotifyRoutine env .stopDataProc).1 := by
  have hnone : ∀ cb ∈ n.dataQ, matchSnapshotNotifications cb = true →
      cb.data = none ∧ cb.release = none := fun cb hcb => (hqueue cb hcb).snapshot
  have hdata : (n.dataQ.filter fun cb => !matchSnapshotNotifications cb).filterMap
      CallbackArgm.data = n.dataQ.filterMap CallbackArgm.data := by
    rw [List.filterMap_filter]
    refine List.filterMap_congr ?_
    intro cb hcb
    by_cases hmatch : matchSnapshotNotifications cb = true
    · simp [hmatch, (hnone cb hcb hmatch).1]
    · simp [hmatch]
  have hrel : (n.dataQ.filter matchSnapshotNotifications).filterMap CallbackArgm.release = [] := by
    rw [List.filterMap_eq_nil_iff]
    intro cb hcb
    obtain ⟨hmem, hmatch⟩ := List.mem_filter.mp hcb
    exact (hnone cb hmem hmatch).2
  refine .of_silent ?_ ?_ ?_ ?_ ?_
  · intro cb hcb
    exact hqueue cb (List.mem_of_mem_filter hcb)
  · exact congrArg (List.map FrameArg.frame) hdata
  · simp only [cbNotifyRoutine, flushNodes, releasedData_append,
      releasedData_releaseNotifications, hrel]
    rfl
  · simp only [cbNotifyRoutine, List.filterMap_append, handsOver_releaseNotifications]
    rfl
  · intro hrun
    exact (List.length_filter_le _ _).trans (hwake hrun)

/-- A delivery takes the notification out of the queue, hands its video frame
over and releases its preview frame. -/
theorem doNextJob_cons (env : NotifierEnv) {cb : CallbackArgm FrameArg}
    (hq : n.dataQ = cb :: dataQ) :
    (n.cbNotifyRoutine env .doNextJob).1.dataQ = dataQ ∧
    releasedData (n.cbNotifyRoutine env .doNextJob).2 = cb.release.toList ∧
    ((cb.data.filter fun d => d.frame.1 = .video) = none →
      (n.cbNotifyRoutine env .doNextJob).2.filterMap NotifierEvt.handsOver = []) := by
  simp only [cbNotifyRoutine, hq]
  have hrel : releasedData (releaseNotifications [cb]) = cb.release.toList := by
    rw [releasedData_releaseNotifications]
    cases hcb : cb.release <;> simp [hcb]
  split
  · obtain ⟨hdata, hnone, -⟩ := deliver_silent cb { n with dataQ := dataQ }
    refine ⟨hdata, ?_, ?_⟩
    · rw [releasedData_append, hnone, hrel]
      rfl
    · intro hcb
      rw [List.filterMap_append, handsOver_deliver _ _ hcb, handsOver_releaseNotifications]
      rfl
  · refine ⟨rfl, ?_, ?_⟩
    · rw [releasedData_append, hrel]
      rfl
    · intro _
      exact handsOver_releaseNotifications [cb]

theorem handsOver_doNextJob_video {env : NotifierEnv} {d : FrameArg}
    (hq : n.dataQ = videoArgm d :: dataQ) (hd : d.frame.1 = .video)
    (hcb : n.dataCbTimestamp = true) (hmsg : env.msgTypeEnabled msgVideoFrame.toNat = true) :
    (n.cbNotifyRoutine env .doNextJob).2.filterMap NotifierEvt.handsOver = [d] := by
  have hover : NotifierEvt.handsOver (.callback (videoArgm d)) = some d := by
    simp [NotifierEvt.handsOver, videoArgm, hd]
  have hdeliver : (CbNotifier.deliver (videoArgm d) { n with dataQ := dataQ }).2 =
      [.callback (videoArgm d)] := by
    simp [CbNotifier.deliver, videoArgm, hcb]
  simp only [cbNotifyRoutine, hq]
  rw [if_pos (show env.msgTypeEnabled (videoArgm d).msgType = true from hmsg),
    List.filterMap_append, handsOver_releaseNotifications, hdeliver,
    List.filterMap_cons_some hover]
  rfl

theorem Passes.doNextJob (hqueue : ∀ cb ∈ n.dataQ, m.Queued cb) (env : NotifierEnv)
    (hvideo : ∀ cb ∈ n.dataQ.head?, cb.cbType = .dataTimestamp →
      n.dataCbTimestamp = true ∧ env.msgTypeEnabled msgVideoFrame.toNat = true)
    (hwake : n.running = true → n.dataQ.length ≤ n.cmds.count .doNextJob + 1) :
    Passes m n (n.cbNotifyRoutine env .doNextJob).2 (n.cbNotifyRoutine env .doNextJob).1 := by
  obtain ⟨hrunning, -, hcmds⟩ := running_cbNotifyRoutine (s := n) env
    (show CmdType.doNextJob ≠ .exit by decide)
  cases hq : n.dataQ with
  | nil =>
    have heq : n.cbNotifyRoutine env .doNextJob = (n, []) := by
      simp only [cbNotifyRoutine, hq]
    rw [heq]
    refine .of_silent ?_ rfl rfl rfl ?_
    · rw [hq]
      intro cb hcb
      cases hcb
    · rw [hq]
      exact fun _ => Nat.zero_le _
  | cons cb dataQ =>
    obtain ⟨hdata, hrel, hhand⟩ := doNextJob_cons env hq
    rw [hq] at hqueue hwake hvideo
    have hcb : m.Queued cb := hqueue cb List.mem_cons_self
    refine ⟨?_, ?_, ?_, ?_, ?_⟩
    · intro x
      rw [hdata, hrel, hq]
      cases hcb with
      | @video d hd =>
        obtain ⟨hts, hmsg⟩ := hvideo _ rfl rfl
        rw [handsOver_doNextJob_video hq hd.1 hts hmsg]
        show _ + 0 + [d.frame].count x = (d.frame :: queuedFrames dataQ).count x
        rw [List.count_singleton, List.count_cons]
        omega
      | @preview d hd =>
        rw [hhand (by simp [previewArgm, hd.1])]
        show _ + [d.frame].count x + 0 = (d.frame :: queuedFrames dataQ).count x
        rw [List.count_singleton, List.count_cons]
        omega
      | other => rw [hhand rfl]; rfl
    · rw [hdata]
      exact fun x hx => hqueue x (List.mem_cons_of_mem _ hx)
    · rw [hrel]
      exact fun d hd => hcb.release (Option.mem_toList.mp hd)
    · cases hcb with
      | @video d hd =>
        obtain ⟨hts, hmsg⟩ := hvideo _ rfl rfl
        rw [handsOver_doNextJob_video hq hd.1 hts hmsg]
        intro x hx
        rw [List.mem_singleton.mp hx]
        exact hd
      | @preview d hd =>
        rw [hhand (by simp [previewArgm, hd.1])]
        intro x hx
        cases hx
      | other =>
        rw [hhand rfl]
        intro x hx
        cases hx
    · rw [hrunning, hcmds, hdata]
      intro hrun
      exact Nat.le_of_succ_le_succ (hwake hrun)

/-- The end of the thread releases the preview frames that wait. -/
theorem Passes.exit (hqueue : ∀ cb ∈ n.dataQ, m.Queued cb) (env : NotifierEnv)
    (hvideo : ∀ cb ∈ n.dataQ, cb.cbType ≠ .dataTimestamp) :
    Passes m n (n.cbNotifyRoutine env .exit).2 (n.cbNotifyRoutine env .exit).1 := by
  have hsame : n.dataQ.filterMap CallbackArgm.release = n.dataQ.filterMap CallbackArgm.data := by
    refine List.filterMap_congr ?_
    intro cb hcb
    have hne := hvideo cb hcb
    cases hqueue cb hcb with
    | video => exact absurd rfl hne
    | preview | other => rfl
  have hrel : releasedData (n.cbNotifyRoutine env .exit).2 =
      n.dataQ.filterMap CallbackArgm.release := releasedData_releaseNotifications n.dataQ
  have hhand : (n.cbNotifyRoutine env .exit).2.filterMap NotifierEvt.handsOver = [] :=
    handsOver_releaseNotifications n.dataQ
  refine ⟨?_, ?_, ?_, ?_, ?_⟩
  · intro x
    rw [hrel, hhand, hsame]
    show 0 + (queuedFrames n.dataQ).count x + 0 = _
    omega
  · intro cb hcb
    cases hcb
  · rw [hrel]
    intro d hd
    obtain ⟨cb, hcb, hd⟩ := List.mem_filterMap.mp hd
    exact (hqueue cb hcb).release hd
  · rw [hhand]
    intro d hd
    cases hd
  · intro hrun
    cases hrun

theorem count_doNextJob_sendCmd {cmd : CmdType} (mem : CmdMem) (cmds : List CmdType)
    (hne : cmd ≠ .doNextJob) :
    (sendCmd cmd true mem cmds).2.count .doNextJob = cmds.count .doNextJob := by
  rcases sendCmd_cases cmd true mem cmds with heq | heq
  · rw [heq]
  · rw [heq, if_pos rfl, List.count_cons_of_ne hne]

/-- **Every step of the notifier passes the frames on.** -/
theorem Passes.step {s : FrameHal} {i : NotifierInput FrameArg} (h : FrameInv s)
    (hnotify : ∀ cb mem, i = .notifyCallback cb mem →
      (cb.data = none ∧ cb.release = none) ∧ mem.cmd.Sends)
    (hnext : ∀ env, i = .next env → DeliversVideo s ∧
      (s.msgTypeEnabled msgVideoFrame = true → env.msgTypeEnabled msgVideoFrame.toNat = true))
    (hs : s.notifier.step i = some (n', es)) : Passes s.addrs s.notifier es n' := by
  cases transition_of_step hs with
  | notify cb mem =>
    obtain ⟨⟨hdata, hrelease⟩, hmem⟩ := hnotify cb mem rfl
    obtain ⟨cbType, msgType, data, release⟩ := cb
    dsimp only at hdata hrelease
    subst hdata hrelease
    rcases notifyCallback_cases s.notifier ⟨cbType, msgType, none, none⟩ hmem with heq | heq
    · rw [heq]
      exact .of_silent h.queue rfl rfl rfl h.wake
    · have hends : EndsEmpty (s.notifier.notifyCallback ⟨cbType, msgType, none, none⟩ mem).2.1 :=
        h.ends.notifyCallback
      rw [heq] at hends ⊢
      have hinv := h.enqueue (.other cbType msgType) hends
      refine .of_silent hinv.queue ?_ rfl rfl hinv.wake
      show queuedFrames (s.notifier.dataQ ++ [_]) = _
      rw [queuedFrames_append]
      exact List.append_nil _
  | start mem | stop mem | exit mem =>
    refine .of_silent h.queue rfl rfl rfl ?_
    intro hrun
    exact (h.wake hrun).trans_eq (count_doNextJob_sendCmd mem _ (by decide)).symm
  | idle => exact .of_silent h.queue rfl rfl rfl h.wake
  | @cmd env cmd cmds hrun hcmds =>
    obtain ⟨⟨hvideo, hexit⟩, henv⟩ := hnext env rfl
    have hwake := h.wake hrun
    rw [hcmds] at hwake hvideo hexit
    cases cmd with
    | startDataProc =>
      refine .of_silent h.queue rfl rfl rfl ?_
      exact fun _ => hwake
    | stopDataProc =>
      have hstop := Passes.stopDataProc (n := s.notifier.withCmds cmds) h.queue env fun _ => hwake
      exact ⟨hstop.frames, hstop.queue, hstop.released, hstop.handed, hstop.wake⟩
    | doNextJob =>
      have hjob := Passes.doNextJob (n := s.notifier.withCmds cmds) h.queue env ?_ ?_
      · exact ⟨hjob.frames, hjob.queue, hjob.released, hjob.handed, hjob.wake⟩
      · intro cb hcb hts
        obtain ⟨hcall, hmsg⟩ := hvideo rfl cb hcb hts
        exact ⟨hcall, henv hmsg⟩
      · intro _
        rw [List.count_cons_self] at hwake
        exact hwake
    | exit =>
      have hend := Passes.exit (n := s.notifier.withCmds cmds) h.queue env (hexit rfl)
      exact ⟨hend.frames, hend.queue, hend.released, hend.handed, hend.wake⟩

end Passes

theorem returnedFrames_frameEvts (es : List (NotifierEvt FrameArg)) :
    returnedFrames (es.flatMap NotifierEvt.frameEvts) = (releasedData es).map FrameArg.frame ∧
      receivedFrames (es.flatMap NotifierEvt.frameEvts) = [] := by
  induction es with
  | nil => exact ⟨rfl, rfl⟩
  | cons e es ih =>
    have hone : returnedFrames e.frameEvts = (releasedData [e]).map FrameArg.frame ∧
        receivedFrames e.frameEvts = [] := by
      cases e with
      | callback cb =>
        cases hd : NotifierEvt.handsOver (.callback cb) <;>
          simp [NotifierEvt.frameEvts, hd, returnedFrames, receivedFrames, releasedData]
      | _ => exact ⟨rfl, rfl⟩
    rw [List.flatMap_cons, returnedFrames_append, receivedFrames_append, ih.1, ih.2, hone.1,
      hone.2, ← List.map_append, ← releasedData_append]
    exact ⟨rfl, rfl⟩

theorem FrameInv.notifierStep {i : NotifierInput FrameArg} (h : FrameInv s)
    (hnotify : ∀ cb mem, i = .notifyCallback cb mem →
      (cb.data = none ∧ cb.release = none) ∧ mem.cmd.Sends)
    (hnext : ∀ env, i = .next env → DeliversVideo s ∧
      (s.msgTypeEnabled msgVideoFrame = true → env.msgTypeEnabled msgVideoFrame.toNat = true))
    (hs : s.notifierStep i = some (s', o)) : FrameInv s' ∧ Conserved s o s' := by
  simp only [FrameHal.notifierStep, Option.bind_eq_bind, Option.bind_eq_some_iff, Option.pure_def,
    Option.some.injEq, Prod.mk.injEq, Prod.exists] at hs
  obtain ⟨n, es, hstep, rfl, rfl⟩ := hs
  obtain ⟨hframes, hqueue, hreleased, hhanded, hwake⟩ := Passes.step h hnotify hnext hstep
  obtain ⟨hret, hrec⟩ := returnedFrames_frameEvts es
  have hheld : ((s.framework ++ es.filterMap NotifierEvt.handsOver).map FrameArg.frame) =
      s.held ++ (es.filterMap NotifierEvt.handsOver).map FrameArg.frame := List.map_append
  refine ⟨⟨h.memory, ?_, hqueue, ?_, h.ends.step hstep, hwake⟩, ?_, ?_⟩
  · intro f hf
    rcases List.mem_append.mp hf with hf | hf
    · exact h.kernel f hf
    · obtain ⟨d, hd, rfl⟩ := List.mem_map.mp hf
      exact (hreleased d hd).2
  · intro d hd
    rcases List.mem_append.mp hd with hd | hd
    · exact h.framework d hd
    · exact hhanded d hd
  · intro x
    have hx : _ = s.waiting.count x := hframes x
    show (s.kernel ++ (releasedData es).map FrameArg.frame).count x +
      (queuedFrames n.dataQ).count x +
      ((s.framework ++ es.filterMap NotifierEvt.handsOver).map FrameArg.frame).count x = _
    rw [hheld, List.count_append, List.count_append]
    omega
  · intro x
    have hx : _ = s.waiting.count x := hframes x
    show _ + (queuedFrames n.dataQ).count x +
      ((s.framework ++ es.filterMap NotifierEvt.handsOver).map FrameArg.frame).count x = _
    rw [hheld, hret, hrec, List.count_append, List.count_nil]
    omega

/-! ### The application returns a frame -/

theorem matchLoop_spec {l : List (Option UInt32)} (hsome : ∀ a ∈ l, a.isSome) (hnodup : l.Nodup)
    {i : ℕ} {addr : UInt32} (hi : l[i]? = some (some addr)) (k : ℕ) :
    VideoMemory.matchLoop addr k l = some (some (k + i)) := by
  induction l generalizing i k with
  | nil => cases hi
  | cons a l ih =>
    obtain ⟨hnot, hrest⟩ := List.nodup_cons.mp hnodup
    obtain ⟨b, rfl⟩ := Option.isSome_iff_exists.mp (hsome _ List.mem_cons_self)
    rw [VideoMemory.matchLoop]
    cases i with
    | zero =>
      obtain rfl := Option.some.inj (Option.some.inj hi)
      rw [if_pos rfl]
      rfl
    | succ i =>
      rw [List.getElem?_cons_succ] at hi
      have hne : b ≠ addr := by
        rintro rfl
        exact hnot (List.mem_of_getElem? hi)
      rw [if_neg hne, ih (fun a ha => hsome a (List.mem_cons_of_mem _ ha)) hrest hi]
      exact congrArg (fun j => some (some j)) (by omega)

theorem FrameInv.releaseRecordingFrame_eq (h : FrameInv s) {d : FrameArg} (hd : d ∈ s.framework) :
    s.releaseRecordingFrame d =
      some (FrameHal.bufDone { s with framework := s.framework.erase d } d.frame) := by
  obtain ⟨hvideo, haddr⟩ := h.framework d hd
  have hmatch : s.videoMem.getMatchBufIndex d.addr s.storeMetaDataInFrame =
      some (some d.frame.2) := by
    have hloop := matchLoop_spec h.memory.video h.memory.distinct haddr 0
    rw [Nat.zero_add] at hloop
    exact hloop
  rw [FrameHal.releaseRecordingFrame, if_pos hd, hmatch]
  obtain ⟨⟨src, i⟩, addr⟩ := d
  cases hvideo
  rfl

theorem FrameInv.releaseRecordingFrame {d : FrameArg} (h : FrameInv s)
    (hs : s.releaseRecordingFrame d = some (s', o)) : FrameInv s' ∧ Conserved s o s' := by
  by_cases hd : d ∈ s.framework
  swap
  · rw [FrameHal.releaseRecordingFrame, if_neg hd] at hs
    cases hs
  rw [h.releaseRecordingFrame_eq hd] at hs
  cases hs
  have hrest : FrameInv { s with framework := s.framework.erase d } :=
    ⟨h.memory, h.kernel, h.queue, fun x hx => h.framework x (List.mem_of_mem_erase hx), h.ends,
      h.wake⟩
  have hin : s.addrs.InStream d.frame := by
    obtain ⟨hvideo, haddr⟩ := h.framework d hd
    obtain ⟨⟨src, i⟩, addr⟩ := d
    cases hvideo
    exact (List.getElem?_eq_some_iff.mp haddr).1
  have hheld : ∀ x, ((s.framework.erase d).map FrameArg.frame).count x + [d.frame].count x =
      s.held.count x := by
    intro x
    have hperm := ((List.perm_cons_erase hd).map FrameArg.frame).count_eq x
    rw [FrameHal.held, hperm, List.map_cons, List.count_singleton, List.count_cons]
  refine ⟨(hrest.bufDone hin).inv, ?_, ?_⟩
  · intro x
    have hx := hheld x
    show (s.kernel ++ [d.frame]).count x + s.waiting.count x +
      ((s.framework.erase d).map FrameArg.frame).count x = _
    rw [List.count_append]
    omega
  · intro x
    have hx := hheld x
    show [d.frame].count x + s.waiting.count x +
      ((s.framework.erase d).map FrameArg.frame).count x = 0 + _ + _
    omega

end Steps

/-! ### Runs -/

/-- What must not happen: a video frame comes while the application does not
want it, a notification of one is dropped, or there is no memory for a wake-up
of the notifier. -/
def Keeps (s : FrameHal) : FrameInput → Prop
  | .videoFrame _ mem => s.dataCbTimestamp = true ∧ s.msgTypeEnabled msgVideoFrame = true ∧
      mem.cmd.Sends
  | .previewFrame _ _ _ mem => mem.cmd.Sends
  | .notifyOther _ _ mem => mem.cmd.Sends
  | .next _ => DeliversVideo s
  | _ => True

instance (s : FrameHal) : Decidable (DeliversVideo s) := inferInstanceAs (Decidable (_ ∧ _))

instance (s : FrameHal) : (i : FrameInput) → Decidable (Keeps s i)
  | .videoFrame _ _ => inferInstanceAs (Decidable (_ ∧ _ ∧ _))
  | .previewFrame _ _ _ mem | .notifyOther _ _ mem => inferInstanceAs (Decidable mem.cmd.Sends)
  | .next _ => inferInstanceAs (Decidable (DeliversVideo s))
  | .enableMsgType _ | .disableMsgType _ | .startSnapshots _ | .stopSnapshots _ | .exit _
  | .releaseRecordingFrame _ => inferInstanceAs (Decidable True)

section Runs

variable {s s₀ s' : FrameHal} {is : List FrameInput} {o os : List FrameEvt}

/-- **Every step keeps the frames**, if no video frame is dropped in it. -/
theorem FrameInv.step {i : FrameInput} (h : FrameInv s) (hkeep : Keeps s i)
    (hs : s.step i = some (s', o)) : FrameInv s' ∧ Conserved s o s' := by
  cases i with
  | videoFrame idx mem =>
    obtain ⟨hcb, hmsg, hmem⟩ := hkeep
    exact h.receive (fun hinv hf => hinv.videoStreamCb hf hcb hmsg hmem) hs
  | previewFrame idx running running' mem =>
    exact h.receive (fun hinv hf => hinv.nodisplayPreviewStreamCb hf hkeep) hs
  | notifyOther cbType msgType mem =>
    refine h.notifierStep ?_ (by simp) hs
    rintro cb mem ⟨⟩
    exact ⟨⟨rfl, rfl⟩, hkeep⟩
  | enableMsgType msg | disableMsgType msg =>
    cases hs
    exact ⟨⟨h.memory, h.kernel, h.queue, h.framework, h.ends, h.wake⟩, fun _ => rfl, fun _ => rfl⟩
  | startSnapshots mem | stopSnapshots mem | exit mem => exact h.notifierStep (by simp) (by simp) hs
  | next n =>
    refine h.notifierStep (by simp) ?_ hs
    rintro env ⟨⟩
    exact ⟨hkeep, id⟩
  | releaseRecordingFrame d => exact h.releaseRecordingFrame hs

/-- The interface when the notifier is launched: the driver has every buffer at
most once, and the application has given memory for all of them. -/
structure FrameHal.Launched (s : FrameHal) : Prop where
  notifier : ∃ notifyCb dataCb dataCbTimestamp,
    s.notifier = .launched notifyCb dataCb dataCbTimestamp
  memory : s.addrs.Given
  kernel : ∀ f ∈ s.kernel, s.addrs.InStream f
  once : s.kernel.Nodup
  framework : s.framework = []

theorem FrameInv.of_launched (h : s.Launched) : FrameInv s := by
  obtain ⟨⟨notifyCb, dataCb, dataCbTimestamp, hn⟩, hmem, hkernel, -, hframe⟩ := h
  refine ⟨hmem, hkernel, ?_, ?_, ?_, ?_⟩
  · rw [hn]
    intro cb hcb
    cases hcb
  · rw [hframe]
    intro d hd
    cases hd
  · rw [hn]
    refine ⟨?_, ?_⟩
    · intro hmem
      cases hmem
    · intro hrun
      cases hrun
  · rw [hn]
    exact fun _ => le_rfl

theorem frames_inv (hrun : Runs FrameHal.step Keeps s₀ is os s) (h : FrameInv s₀) :
    FrameInv s ∧ Conserved s₀ os s := by
  refine hrun.inv (fun _ os s => FrameInv s ∧ Conserved s₀ os s) ⟨h, .refl s₀⟩ ?_
  rintro is os s i s' o ⟨hinv, hcons⟩ hkeep hs
  obtain ⟨hinv', hcons'⟩ := hinv.step hkeep hs
  exact ⟨hinv', hcons.trans hcons'⟩

theorem cmds_next {n : UInt8} (hs : s.step (.next n) = some (s', o)) :
    s'.notifier.cmds = s.notifier.cmds.tail := by
  simp only [FrameHal.step, FrameHal.notifierStep, Option.bind_eq_bind, Option.bind_eq_some_iff,
    Option.pure_def, Option.some.injEq, Prod.mk.injEq, Prod.exists] at hs
  obtain ⟨notifier, es, hstep, rfl, -⟩ := hs
  simp only [CbNotifier.step] at hstep
  split_ifs at hstep
  cases hcmds : s.notifier.cmds with
  | nil =>
    rw [hcmds] at hstep
    cases hstep
    exact hcmds
  | cons cmd cmds =>
    rw [hcmds] at hstep
    obtain ⟨rfl, -⟩ := Prod.ext_iff.mp (Option.some.inj hstep)
    by_cases hexit : cmd = .exit
    · subst hexit
      rfl
    · exact (running_cbNotifyRoutine _ hexit).2.2

/-- The thread alone works off the queue. -/
theorem FrameInv.drained {ns : List UInt8} (h : FrameInv s)
    (hlen : s.notifier.cmds.length ≤ ns.length)
    (hrun : Runs FrameHal.step Keeps s (ns.map .next) os s') : s'.waiting = [] := by
  have hinv := (frames_inv hrun h).1
  have hleft := hrun.inv (fun is _ t => (∀ i ∈ is, ∃ n, i = .next n) →
    t.notifier.cmds.length = s.notifier.cmds.length - is.length) (fun _ => rfl) ?_
  swap
  · intro is _ t i t' o ih _ hs hall
    have hlen := ih fun j hj => hall j (List.mem_append_left _ hj)
    obtain ⟨n, rfl⟩ := hall i (List.mem_append_right _ (List.mem_singleton_self i))
    rw [cmds_next hs, List.length_tail, hlen, List.length_append, List.length_singleton]
    omega
  have hnil : s'.notifier.cmds = [] := by
    rw [← List.length_eq_zero_iff, hleft (by simp), List.length_map]
    omega
  have hempty : s'.notifier.dataQ = [] := by
    by_cases hon : s'.notifier.running = true
    · have hwake := hinv.wake hon
      rw [hnil] at hwake
      exact List.length_eq_zero_iff.mp (Nat.le_zero.mp hwake)
    · exact (hinv.ends.2 (Bool.eq_false_iff.mpr hon)).2
  rw [FrameHal.waiting, hempty]
  rfl

/-- **Frames for the application are kept.**  In every run in which no video
frame is dropped, a frame that was received has been returned once, waits in the
notifier or is with the application, and every buffer is in one place.  What the
application gives back goes to the driver, and the notifier thread alone works
off all that waits. -/
theorem stream_frames_kept (h : s₀.Launched) (hrun : Runs FrameHal.step Keeps s₀ is os s) :
    (receivedFrames os).Perm (returnedFrames os ++ s.waiting ++ s.held) ∧
    (s.kernel ++ s.waiting ++ s.held).Perm s₀.kernel ∧
    (s.kernel ++ s.waiting ++ s.held).Nodup ∧
    (∀ d ∈ s.framework, ∃ s', s.step (.releaseRecordingFrame d) = some (s', [.bufDone d.frame])) ∧
    ∀ (ns : List UInt8) os' s', s.notifier.cmds.length ≤ ns.length →
      Runs FrameHal.step Keeps s (ns.map .next) os' s' → s'.waiting = [] := by
  obtain ⟨hinv, hcons⟩ := frames_inv hrun (.of_launched h)
  obtain ⟨⟨notifyCb, dataCb, dataCbTimestamp, hn⟩, -, -, honce, hframe⟩ := h
  have hwait₀ : s₀.waiting = [] := by
    rw [FrameHal.waiting, hn]
    rfl
  have hheld₀ : s₀.held = [] := by
    rw [FrameHal.held, hframe]
    rfl
  have hperm : (s.kernel ++ s.waiting ++ s.held).Perm s₀.kernel := by
    rw [List.perm_iff_count]
    intro f
    have hf := hcons.place f
    rw [hwait₀, hheld₀, List.count_nil] at hf
    rw [List.count_append, List.count_append]
    omega
  refine ⟨?_, hperm, hperm.nodup_iff.mpr honce, ?_, ?_⟩
  · rw [List.perm_iff_count]
    intro f
    have hf := hcons.seen f
    rw [hwait₀, hheld₀, List.count_nil] at hf
    rw [List.count_append, List.count_append]
    omega
  · intro d hd
    exact ⟨_, hinv.releaseRecordingFrame_eq hd⟩
  · intro ns os' s' hlen hdrain
    exact hinv.drained hlen hdrain

end Runs

/-- An interface with one video and one preview buffer; the message types in
`msg` are enabled. -/
def smallHal (msg : UInt32) : FrameHal where
  notifier := .launched true true true
  msgEnabled := msg
  dataCb := true
  dataCbTimestamp := true
  storeMetaDataInFrame := true
  videoMem := ⟨[some 0x1000], [0x2000]⟩
  previewMem := ⟨[some 0x3000]⟩
  kernel := [(.video, 0), (.preview, 0)]
  framework := []

theorem smallHal_launched (msg : UInt32) : (smallHal msg).Launched := by
  refine ⟨⟨true, true, true, rfl⟩, ⟨?_, ?_, ?_⟩, ?_, ?_, rfl⟩
  · intro a ha
    rw [List.mem_singleton.mp ha]
    rfl
  · exact List.nodup_singleton _
  · intro a ha
    rw [List.mem_singleton.mp ha]
    rfl
  · intro f hf
    simp only [smallHal, List.mem_cons, List.not_mem_nil, or_false] at hf
    rcases hf with rfl | rfl
    · exact Nat.zero_lt_one
    · exact Nat.zero_lt_one
  · show ([(.video, 0), (.preview, 0)] : List StreamFrame).Nodup
    decide

/-- A video and a preview frame come, the thread delivers the first, and the
application returns it. -/
theorem stream_frames_kept_small : ∃ s,
    Runs FrameHal.step Keeps (smallHal 0x30)
      [.videoFrame 0 .ample, .previewFrame 0 true true .ample, .next 0,
        .releaseRecordingFrame ⟨(.video, 0), 0x2000⟩]
      [.received (.video, 0), .received (.preview, 0), .handed ⟨(.video, 0), 0x2000⟩,
        .bufDone (.video, 0)] s ∧
    s.waiting = [(.preview, 0)] ∧ s.held = [] ∧
    ([(.video, 0), (.preview, 0)] : List StreamFrame).Perm
      ([(.video, 0)] ++ s.waiting ++ s.held) := by
  obtain ⟨s, hexec, hwait, hheld⟩ : ∃ s, exec FrameHal.step (smallHal 0x30)
      [.videoFrame 0 .ample, .previewFrame 0 true true .ample, .next 0,
        .releaseRecordingFrame ⟨(.video, 0), 0x2000⟩] =
      some (s, [.received (.video, 0), .received (.preview, 0),
        .handed ⟨(.video, 0), 0x2000⟩, .bufDone (.video, 0)]) ∧
      s.waiting = [(.preview, 0)] ∧ s.held = [] := ⟨_, rfl, rfl, rfl⟩
  have hrun := runs_of_exec_guarded (G := Keeps) .nil hexec (by decide)
  exact ⟨s, hrun, hwait, hheld, (stream_frames_kept (smallHal_launched _) hrun).1⟩

/-- A video frame comes while its message type is disabled: it is not returned,
and nobody has it any more. -/
theorem video_frame_lost : (smallHal 0x10).Launched ∧ ∃ s,
    Runs FrameHal.step (fun _ _ => True) (smallHal 0x10) [.videoFrame 0 .ample]
      [.received (.video, 0)] s ∧
    s.waiting = [] ∧ s.held = [] ∧ s.kernel = [(.preview, 0)] ∧
    ¬ (s.kernel ++ s.waiting ++ s.held).Perm (smallHal 0x10).kernel := by
  obtain ⟨s, hexec, hwait, hheld, hkernel⟩ : ∃ s, exec FrameHal.step (smallHal 0x10)
      [.videoFrame 0 .ample] = some (s, [.received (.video, 0)]) ∧
      s.waiting = [] ∧ s.held = [] ∧ s.kernel = [(.preview, 0)] := ⟨_, rfl, rfl, rfl, rfl⟩
  refine ⟨smallHal_launched _, s, runs_of_exec hexec, hwait, hheld, hkernel, ?_⟩
  rw [hwait, hheld, hkernel]
  intro hperm
  exact absurd hperm.length_eq (by decide)

end Qcamera

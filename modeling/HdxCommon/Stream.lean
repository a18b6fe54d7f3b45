/-
The stream objects of a camera channel, `mm_camera_stream.c`.

A stream goes from CFG over BUFFED (buffers allocated) and REG (buffers
registered with the kernel) to ACTIVE (streaming) and back.  While it is active
the kernel delivers its buffers one by one; a buffer is reference counted, and
goes back to the kernel when the count reaches 0.

This file is the translation: the buffer operations with their error paths, the
state machine `fsmFn` over the events that start and stop a stream, and the three
functions of the data path.  The outcomes of calls that leave
the library are a parameter, `StreamOps`; the V4L2 device behind the stream's
file is `Device`.
-/
import HdxCommon.Superbuf

namespace Interface

open Superbuf (StreamType StreamRef BufInfo)

/-! ### Data -/

/-- `mm_stream_state_type_t`. -/
inductive StreamState where
  | notUsed | inited | acquired | cfg | buffed | reg | active
  deriving DecidableEq, Repr

/-- `mm_stream_buf_status_t`. -/
structure BufStatus where
  bufRefcnt : UInt8
  initialRegFlag : Bool
  inKernel : Bool
  deriving DecidableEq, Repr

def BufStatus.fresh (flag : Bool) : BufStatus := ⟨0, flag, false⟩

/-- `mm_stream_data_cb_t`: whether a callback is registered, and for how many
more buffers (negative: for all). -/
structure DataCb where
  cb : Bool
  cbCount : Int8
  deriving DecidableEq

/-- The kernel's side of a stream: whether buffers are registered, which of them
it holds, and whether it streams. -/
structure Device where
  requested : Bool
  queued : List ℕ
  streaming : Bool
  deriving DecidableEq, Repr

/-- `mm_stream_t`.  `bufStatus` is `none` while no buffers are allocated,
`cmdThread` is the queue of the running command thread, `pollEntry` says whether
the poll thread of the channel has an entry for the stream. -/
structure StreamObj where
  myHdl : UInt32
  state : StreamState
  streamInfo : Option StreamType
  isBundled : Bool
  bufCb : List DataCb
  bufStatus : Option (List BufStatus)
  cmdThread : Option (List BufInfo)
  pollEntry : Bool
  device : Device
  deriving DecidableEq

/-- `MM_CAMERA_MAX_NUM_FRAMES`. -/
def maxNumFrames : ℕ := 24

/-- `MM_CAMERA_STREAM_BUF_CB_MAX`. -/
def streamBufCbMax : ℕ := 4

/-- The outcomes of what a stream asks of the memory ops, the allocator and the
kernel: the flags that `get_bufs` returns, one a buffer, and which calls
succeed. -/
structure StreamOps where
  getBufs : Option (List Bool)
  statusMem : Bool
  reqBufs : Bool
  qbuf : ℕ → Bool
  streamOn : Bool
  streamOff : Bool
  unreqBufs : Bool
  putBufs : Bool

inductive StreamEvt where
  | getBuf | putBuf | regBuf | unregBuf | start | stop
  deriving DecidableEq, Repr

namespace StreamObj

def ref (s : StreamObj) : StreamRef := ⟨s.myHdl, s.state ≠ .notUsed, s.streamInfo⟩

def hasCb (s : StreamObj) : Bool := s.bufCb.any DataCb.cb

def status (s : StreamObj) (idx : ℕ) : Option BufStatus := (s.bufStatus.getD [])[idx]?

def updateStatus (s : StreamObj) (idx : ℕ) (f : BufStatus → BufStatus) : StreamObj :=
  { s with bufStatus := s.bufStatus.map fun l => l.modify idx f }

/-! ### Allocating and registering buffers -/

/-- `mm_stream_deinit_bufs`. -/
def deinitBufs (ops : StreamOps) (s : StreamObj) : ℤ × StreamObj :=
  match s.bufStatus with
  | none => (0, s)
  | some _ => (if ops.putBufs then 0 else -1, { s with bufStatus := none })

/-- `mm_stream_init_bufs`. -/
def initBufs (ops : StreamOps) (s : StreamObj) : ℤ × StreamObj :=
  let s := (s.deinitBufs ops).2
  match ops.getBufs with
  | none => (-1, s)
  | some flags =>
    let s := { s with bufStatus := some (flags.map .fresh) }
    if ops.statusMem then (0, s) else (-1, (s.deinitBufs ops).2)

/-- `mm_stream_request_buf`; a request for no buffers frees them. -/
def requestBuf (ops : StreamOps) (s : StreamObj) : ℤ × StreamObj :=
  let bufNum := (s.bufStatus.getD []).length
  if bufNum > maxNumFrames then (-1, s)
  else if ops.reqBufs then
    (0, { s with device := { s.device with requested := 0 < bufNum, queued := [] } })
  else (-1, s)

/-- The loop of `mm_stream_reg_buf` from buffer `i` on: the buffers with the
flag are queued, the others are held by the upper layer. -/
def regLoop (ops : StreamOps) : ℕ → List BufStatus → ℤ × List BufStatus × List ℕ
  | _, [] => (0, [], [])
  | i, st :: rest =>
    if st.initialRegFlag then
      if ops.qbuf i then
        let (rc, rest, queued) := regLoop ops (i + 1) rest
        (rc, { st with bufRefcnt := 0, inKernel := true } :: rest, i :: queued)
      else (-1, st :: rest, [])
    else
      let (rc, rest, queued) := regLoop ops (i + 1) rest
      (rc, { st with bufRefcnt := 1, inKernel := false } :: rest, queued)

/-- `mm_stream_reg_buf`. -/
def regBuf (ops : StreamOps) (s : StreamObj) : ℤ × StreamObj :=
  let (rc, s) := s.requestBuf ops
  if rc ≠ 0 then (rc, s)
  else
    let (rc, bufs, queued) := regLoop ops 0 (s.bufStatus.getD [])
    (rc, { s with
      bufStatus := s.bufStatus.map fun _ => bufs
      device := { s.device with queued := s.device.queued ++ queued } })

/-- `mm_stream_unreg_buf`. -/
def unregBuf (ops : StreamOps) (s : StreamObj) : ℤ × StreamObj :=
  let reset := s.bufStatus.map fun l =>
    l.map fun st => { st with bufRefcnt := 0, inKernel := false }
  if ops.unreqBufs then
    (0, { s with
      bufStatus := reset
      device := { s.device with requested := false, queued := [] } })
  else (-1, { s with bufStatus := reset })

/-! ### Streaming on and off -/

/-- `mm_stream_streamon`.  Adding the poll entry does not fail for a stream of
the channel. -/
def streamon (ops : StreamOps) (s : StreamObj) : ℤ × StreamObj :=
  if ops.streamOn then
    (0, { s with pollEntry := true, device := { s.device with streaming := true } })
  else (-1, { s with pollEntry := false })

/-- `mm_stream_streamoff`; the device gives up its queue. -/
def streamoff (ops : StreamOps) (s : StreamObj) : ℤ × StreamObj :=
  if ops.streamOff then
    (0, { s with
      pollEntry := false
      device := { s.device with queued := [], streaming := false } })
  else (-1, { s with pollEntry := false })

/-- `mm_stream_fsm_fn` for the events that start and stop a stream: an event
that the state does not handle does nothing and counts as a success. -/
def fsmFn (ops : StreamOps) (s : StreamObj) (evt : StreamEvt) : ℤ × StreamObj :=
  match s.state, evt with
  | .notUsed, _ => (-1, s)
  | .cfg, .getBuf =>
    let (rc, s) := s.initBufs ops
    if rc = 0 then (rc, { s with state := .buffed }) else (rc, s)
  | .buffed, .putBuf =>
    let (rc, s) := s.deinitBufs ops
    (rc, { s with state := .cfg })
  | .buffed, .regBuf =>
    let (rc, s) := s.regBuf ops
    if rc = 0 then (rc, { s with state := .reg }) else (rc, s)
  | .reg, .unregBuf =>
    let (rc, s) := s.unregBuf ops
    (rc, { s with state := .buffed })
  | .reg, .start =>
    let cmdThread := if s.hasCb then some [] else s.cmdThread
    let (rc, s) := { s with state := .active, cmdThread := cmdThread }.streamon ops
    if rc = 0 then (rc, s)
    else
      -- stream-on failed: release the command thread if it was launched
      (rc, { s with state := .reg, cmdThread := if s.hasCb then none else s.cmdThread })
  | .active, .stop =>
    let (rc, s) := s.streamoff ops
    (rc, { s with state := .reg, cmdThread := if s.hasCb then none else s.cmdThread })
  | _, _ => (0, s)

end StreamObj

/-! ### The data path -/

def DataCb.called (c : DataCb) : Bool := c.cb && c.cbCount != 0

/-- A callback registered for a number of buffers is counted down, and removed
after the last. -/
def DataCb.countDown (c : DataCb) : DataCb :=
  if c.cb ∧ 0 < c.cbCount then
    if c.cbCount - 1 = 0 then ⟨false, 0⟩ else { c with cbCount := c.cbCount - 1 }
  else c

namespace StreamObj

/-- The count of a received buffer grows by one for the bundle and by one for
the data callbacks. -/
def rcvdStatus (s : StreamObj) (st : BufStatus) : BufStatus :=
  { st with
    inKernel := false
    bufRefcnt := (if s.isBundled then st.bufRefcnt + 1 else st.bufRefcnt) +
      if s.hasCb then 1 else 0 }

/-- `mm_stream_data_notify` and the part of `mm_stream_handle_rcvd_buf` on the
stream's own command queue. -/
def dataNotify (s : StreamObj) (b : BufInfo) : StreamObj :=
  let s' := s.updateStatus b.bufIdx s.rcvdStatus
  { s' with
    device := { s.device with queued := s.device.queued.erase b.bufIdx }
    cmdThread := if s.hasCb then s.cmdThread.map fun q => q ++ [b] else s.cmdThread }

/-- `mm_stream_buf_done`, with the outcome of queueing the buffer. -/
def bufDone (s : StreamObj) (idx : ℕ) (ok : Bool) : ℤ × StreamObj :=
  match s.status idx with
  | none => (-1, s)
  | some st =>
    if st.bufRefcnt = 0 then (-1, s)
    else if st.bufRefcnt - 1 = 0 then
      if ok then
        let s := s.updateStatus idx fun st => { st with bufRefcnt := 0, inKernel := true }
        (0, { s with device := { s.device with queued := s.device.queued ++ [idx] } })
      else (-1, s.updateStatus idx fun st => { st with bufRefcnt := 0 })
    else (0, s.updateStatus idx fun st => { st with bufRefcnt := st.bufRefcnt - 1 })

/-- How many callbacks are called for the next buffer. -/
def calls (s : StreamObj) : ℕ := s.bufCb.countP DataCb.called

/-- The loop of `mm_stream_dispatch_app_data`: every callback that is called
takes a reference to the buffer. -/
def runCallbacks (s : StreamObj) (idx : ℕ) : StreamObj :=
  { s.updateStatus idx fun st => { st with bufRefcnt := st.bufRefcnt + UInt8.ofNat s.calls } with
    bufCb := s.bufCb.map DataCb.countDown }

/-- `mm_stream_dispatch_app_data`: after the callbacks the thread drops its own
reference.  The client is given the buffer `s.calls` times. -/
def dispatchAppData (s : StreamObj) (b : BufInfo) (ok : Bool) : StreamObj :=
  ((s.runCallbacks b.bufIdx).bufDone b.bufIdx ok).2

end StreamObj

end Interface

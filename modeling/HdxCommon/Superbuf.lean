/-
The superbuf matcher of a camera channel, `mm_camera_channel.c`.

The command thread of a channel collects the buffers of its bundled streams
into superbufs, one slot per stream, keyed by frame number.  A superbuf whose
slots are all filled is matched; matched superbufs wait at the front of the
queue until they are dispatched to the client, and the ones that are too many
are given back to the streams.

This file is the translation: the queue operations, `compAndEnqueue` for one
buffer and `processStreamBuf` for one command.  What a call does to the outside
is a list of `Effect`s.  Loops are `loop`s with one round more than there are
superbufs; `none` is a loop that has not ended by then.

A filled slot is `some b`; a slot as `memset` leaves it is `none`, with frame
number 0 and no buffer.  Counters are the machine's: `uint32_t` for frame
numbers, `match_cnt`, `pending_cnt` and `que.size`, `uint8_t` for the attributes
and for the count of unmatched superbufs.
-/
import HdxCommon.Runs

namespace Superbuf

/-! ### Data -/

/-- `cam_stream_type_t`. -/
inductive StreamType where
  | default | preview | postview | snapshot | video | implDefined | yuv | metadata | raw
  | offlineProc
  deriving DecidableEq, Repr

inductive PrepSnapshotState where
  | doNotNeedFutureFrame | needFutureFrame
  deriving DecidableEq, Repr

/-- The part of `cam_metadata_info_t` that frame matching reads. -/
structure Metadata where
  isPrepSnapshotDoneValid : Bool
  prepSnapshotDoneState : PrepSnapshotState
  isGoodFrameIdxRangeValid : Bool
  minFrameIdx : UInt32
  deriving DecidableEq, Repr

/-- A received buffer, `mm_camera_buf_info_t`: its stream, its frame number,
which of the stream's buffers it is, and the metadata it points to, if any. -/
structure BufInfo where
  streamId : UInt32
  frameIdx : UInt32
  bufIdx : ℕ
  metadata : Option Metadata
  deriving DecidableEq, Repr

/-- `mm_channel_queue_node_t`, with one slot for each bundled stream. -/
structure Node where
  superBuf : List (Option BufInfo)
  matched : Bool
  frameIdx : UInt32
  deriving DecidableEq, Repr

inductive NotifyMode where
  | burst | continuous | max
  deriving DecidableEq, Repr

/-- `mm_camera_channel_attr_t`. -/
structure Attr where
  notifyMode : NotifyMode
  waterMark : UInt8
  lookBack : UInt8
  postFrameSkip : UInt8
  maxUnmatchedFrames : UInt8
  deriving DecidableEq, Repr

/-- `mm_channel_queue_t`. -/
structure Queue where
  que : List Node
  size : UInt32
  bundledStreams : List UInt32
  attr : Attr
  expectedFrameId : UInt32
  matchCnt : UInt32
  deriving DecidableEq, Repr

def Queue.numStreams (q : Queue) : ℕ := q.bundledStreams.length

/-- What frame matching reads of a stream object. -/
structure StreamRef where
  myHdl : UInt32
  inUse : Bool
  streamInfo : Option StreamType
  deriving DecidableEq, Repr

/-- The part of `mm_channel_t` the command thread works on;
`superBufNotifyCb` says whether a callback is registered. -/
structure Channel where
  queue : Queue
  superBufNotifyCb : Bool
  pendingCnt : UInt32
  startZslSnapshotCalled : Bool
  needLedFlash : Bool
  streams : List StreamRef
  deriving DecidableEq, Repr

/-- What the command thread does to the outside: give a buffer back to its
stream, queue a superbuf for the callback thread, complete a superbuf (the point
where `match_cnt` grows), start or stop the snapshot of the sensor. -/
inductive Effect where
  | qbuf (b : BufInfo)
  | superbufCb (bufs : List (Option BufInfo))
  | matched (frameIdx : UInt32)
  | startZslSnapshot
  | stopZslSnapshot
  deriving DecidableEq, Repr

inductive Cmd where
  | dataCb (b : BufInfo)
  | reqDataCb (numBufRequested : UInt32)
  | configNotify (notifyMode : NotifyMode)
  | flushQueue (frameIdx : UInt32)
  deriving DecidableEq, Repr

/-- Which allocations succeed while a command is processed: the node of a new
superbuf, and for the `k`-th dispatch the callback command and its list node. -/
structure Mem where
  newNode : Bool
  cbNode : ℕ → Bool
  cbEnq : ℕ → Bool

def Mem.ample : Mem := ⟨true, fun _ => true, fun _ => true⟩

/-! ### Queue operations -/

/-- The frame number of a slot; a slot that was only zeroed has number 0. -/
def slotFrameIdx : Option BufInfo → UInt32
  | none => 0
  | some b => b.frameIdx

/-- Give back every buffer of a superbuf: the slots with a buffer pointer. -/
def bufdone (n : Node) : List Effect := n.superBuf.filterMap (Option.map .qbuf)

/-- Give back the slots with a frame number other than 0. -/
def bufdoneNonzero (n : Node) : List Effect :=
  (n.superBuf.filter fun s => slotFrameIdx s ≠ 0).filterMap (Option.map .qbuf)

/-- `mm_channel_superbuf_dequeue_internal`; `none` is the NULL result, which
leaves the queue alone. -/
def dequeueInternal (q : Queue) (matchedOnly : Bool) : Option (Node × Queue) :=
  match q.que with
  | [] => none
  | n :: rest =>
    if matchedOnly && !n.matched then none
    else some (n, { q with
      que := rest
      size := q.size - 1
      matchCnt := if n.matched then q.matchCnt - 1 else q.matchCnt })

def dequeue (q : Queue) : Option (Node × Queue) := dequeueInternal q true

/-- One round of `while (match_cnt > bound)` in overflow and skip.  A NULL
superbuf does not leave the loop. -/
def drainRound (bound : UInt8) : Queue × List Effect → Option (Queue × List Effect)
  | (q, es) =>
    if q.matchCnt.toNat > bound.toNat then
      match dequeueInternal q true with
      | some (n, q') => some (q', es ++ bufdone n)
      | none => some (q, es)
    else none

def superbufBufdoneOverflow (q : Queue) : Option (Queue × List Effect) :=
  if q.attr.notifyMode = .continuous then some (q, [])
  else loop (drainRound q.attr.waterMark) (q.que.length + 1) (q, [])

def superbufSkip (q : Queue) : Option (Queue × List Effect) :=
  if q.attr.notifyMode = .continuous then some (q, [])
  else loop (drainRound q.attr.lookBack) (q.que.length + 1) (q, [])

def flushRound : Queue × List Effect → Option (Queue × List Effect)
  | (q, es) => (dequeueInternal q false).map fun (n, q') => (q', es ++ bufdone n)

def superbufFlush (q : Queue) : Option (Queue × List Effect) :=
  loop flushRound (q.que.length + 1) (q, [])

/-! ### Matching one buffer -/

def utilSeqCompWRollover (v1 v2 : UInt32) : ℤ :=
  if v1 > v2 then 1 else if v1 < v2 then -1 else 0

def utilGetStreamByHandler (streams : List StreamRef) (handler : UInt32) : Option StreamRef :=
  streams.find? fun s => s.inUse && handler == s.myHdl

/-- `mm_channel_handle_metadata`, with its return code. -/
def handleMetadata (ch : Channel) (b : BufInfo) : Option (ℤ × Channel × List Effect) :=
  match utilGetStreamByHandler ch.streams b.streamId with
  | none => some (-1, ch, [])
  | some s =>
    match s.streamInfo with
    | none => some (-1, ch, [])
    | some .metadata =>
      match b.metadata with
      | none => some (-1, ch, [])
      | some md =>
        if md.isPrepSnapshotDoneValid && md.isGoodFrameIdxRangeValid then some (-1, ch, [])
        else if md.isPrepSnapshotDoneValid then
          if md.prepSnapshotDoneState = .needFutureFrame then do
            -- far enough ahead to wait for the good frame range
            let (q, es) ← superbufFlush
              { ch.queue with expectedFrameId := ch.queue.expectedFrameId + 100 }
            return (0, { ch with queue := q, needLedFlash := true }, es)
          else some (0, { ch with needLedFlash := false }, [])
        else if md.isGoodFrameIdxRangeValid then
          some (0, { ch with queue := { ch.queue with expectedFrameId := md.minFrameIdx } }, [])
        else some (0, ch, [])
    | some _ => some (0, ch, [])

/-- The variables of the comparison loop: the unmatched superbuf of the frame,
how many other unmatched ones were passed, the first older one and the first
newer one, each with its position. -/
structure Scan where
  found : Option (ℕ × Node)
  unmatchedBundles : UInt8
  lastBuf : Option (ℕ × Node)
  insertBeforeBuf : Option (ℕ × Node)
  deriving DecidableEq, Repr

/-- The comparison loop, from position `pos` on. -/
def scanFrom (f : UInt32) : List Node → ℕ → Scan → Scan
  | [], _, s => s
  | n :: rest, pos, s =>
    if n.matched then scanFrom f rest (pos + 1) s
    else if f = n.frameIdx then { s with found := some (pos, n) }
    else
      scanFrom f rest (pos + 1)
        { s with
          unmatchedBundles := s.unmatchedBundles + 1
          lastBuf := if s.lastBuf.isNone && n.frameIdx < f then some (pos, n) else s.lastBuf
          insertBeforeBuf :=
            if s.insertBeforeBuf.isNone && n.frameIdx > f then some (pos, n)
            else s.insertBeforeBuf }

def scan (f : UInt32) (que : List Node) : Scan := scanFrom f que 0 ⟨none, 0, none, none⟩

/-- Put a buffer into its slot of an unmatched superbuf of its frame. -/
def Node.fill (n : Node) (idx : ℕ) (b : BufInfo) : Node :=
  let slots := n.superBuf.set idx (some b)
  { n with superBuf := slots, matched := slots.all fun s => slotFrameIdx s ≠ 0 }

/-- A new superbuf with one buffer; with a single stream it is matched. -/
def Node.new (numStreams idx : ℕ) (b : BufInfo) : Node :=
  { superBuf := (List.replicate numStreams none).set idx (some b)
    matched := numStreams == 1
    frameIdx := b.frameIdx }

/-- A superbuf of frame `f` became matched: the next frame expected is
`post_frame_skip` further on. -/
def Queue.countMatch (q : Queue) (f : UInt32) : Queue :=
  { q with
    expectedFrameId := f + q.attr.postFrameSkip.toUInt32
    matchCnt := q.matchCnt + 1 }

/-- The superbuf of this frame is queued at `pos`: fill its slot and, if that
completes it, give back the older unmatched superbufs in front of it. -/
def fillFound (q : Queue) (idx : ℕ) (b : BufInfo) (s : Scan) (pos : ℕ) (n : Node) :
    Queue × List Effect :=
  let n' := n.fill idx b
  let q := { q with que := q.que.set pos n' }
  if n'.matched then
    let q := q.countMatch b.frameIdx
    match s.lastBuf with
    | none => (q, [.matched b.frameIdx])
    | some (last, _) =>
      let older := (q.que.take pos).drop last
      ({ q with
          que := q.que.take last ++ q.que.drop pos
          size := q.size - UInt32.ofNat older.length },
        .matched b.frameIdx :: older.flatMap bufdoneNonzero)
  else (q, [])

/-- Queue a new superbuf at `pos`, or at the end. -/
def insertNew (q : Queue) (idx : ℕ) (b : BufInfo) (pos : Option ℕ) : Queue × List Effect :=
  let n := Node.new q.numStreams idx b
  let q := { q with
    que := q.que.insertIdx (pos.getD q.que.length) n
    size := q.size + 1 }
  if q.numStreams = 1 then (q.countMatch b.frameIdx, [.matched b.frameIdx]) else (q, [])

/-- No superbuf of this frame is queued: reject the buffer, or make room for it
if there are too many unmatched superbufs and queue a new one. -/
def enqueueNew (q : Queue) (idx : ℕ) (b : BufInfo) (s : Scan) (newNode : Bool) :
    Queue × List Effect :=
  if q.attr.maxUnmatchedFrames < s.unmatchedBundles then
    match s.lastBuf with
    | none => (q, [.qbuf b])
    | some (last, n) =>
      -- release the oldest unmatched superbuf; positions behind it move up
      let q := { q with que := q.que.eraseIdx last, size := q.size - 1 }
      let pos := s.insertBeforeBuf.map fun p => if last < p.1 then p.1 - 1 else p.1
      if newNode then
        let (q, es) := insertNew q idx b pos
        (q, bufdoneNonzero n ++ es)
      else (q, bufdoneNonzero n ++ [.qbuf b])
  else if newNode then insertNew q idx b (s.insertBeforeBuf.map Prod.fst)
  else (q, [.qbuf b])

/-- The part of `comp_and_enqueue` under the queue lock. -/
def enqueueLocked (q : Queue) (idx : ℕ) (b : BufInfo) (newNode : Bool) : Queue × List Effect :=
  let s := scan b.frameIdx q.que
  match s.found with
  | some (pos, n) => fillFound q idx b s pos n
  | none => enqueueNew q idx b s newNode

/-- `mm_channel_superbuf_comp_and_enqueue`, with its return code. -/
def compAndEnqueue (ch : Channel) (b : BufInfo) (newNode : Bool) :
    Option (ℤ × Channel × List Effect) := do
  let idx := ch.queue.bundledStreams.idxOf b.streamId
  if idx = ch.queue.numStreams then return (-1, ch, [])
  let (rc, ch, es) ← handleMetadata ch b
  if rc < 0 then return (-1, ch, es)
  if utilSeqCompWRollover b.frameIdx ch.queue.expectedFrameId < 0 then
    -- older than expected, discard it
    return (0, ch, es ++ [.qbuf b])
  let (q, es') := enqueueLocked ch.queue idx b newNode
  return (0, { ch with queue := q }, es ++ es')

/-! ### One command of the thread -/

/-- Hand a matched superbuf to the callback thread, or give its buffers back if
there is no callback or no memory for the command.  The result of queueing the
command is not looked at. -/
def sendSuperbuf (ch : Channel) (mem : Mem) (k : ℕ) (n : Node) : List Effect :=
  if ch.superBufNotifyCb then
    if mem.cbNode k then if mem.cbEnq k then [.superbufCb n.superBuf] else []
    else bufdone n
  else bufdone n

/-- In burst mode a dispatched superbuf counts against the request; with the
last one the snapshot is stopped. -/
def countDispatched (mode : NotifyMode) (ch : Channel) : Channel × List Effect :=
  if mode = .burst then
    let pendingCnt := ch.pendingCnt - 1
    if pendingCnt = 0 ∧ ch.startZslSnapshotCalled then
      ({ ch with pendingCnt := pendingCnt, startZslSnapshotCalled := false }, [.stopZslSnapshot])
    else ({ ch with pendingCnt := pendingCnt }, [])
  else (ch, [])

/-- One round of the dispatch loop, with the number of superbufs dispatched so
far. -/
def dispatchRound (mode : NotifyMode) (mem : Mem) :
    Channel × ℕ × List Effect → Option (Channel × ℕ × List Effect)
  | (ch, k, es) =>
    if ch.pendingCnt > 0 ∨ mode = .continuous then
      match dequeue ch.queue with
      | none => none
      | some (n, q) =>
        let (ch, zsl) := countDispatched mode { ch with queue := q }
        some (ch, k + 1, es ++ zsl ++ sendSuperbuf ch mem k n)
    else none

def dispatch (ch : Channel) (mem : Mem) : Option (Channel × List Effect) := do
  let (ch, _, es) ← loop (dispatchRound ch.queue.attr.notifyMode mem)
    (ch.queue.que.length + 1) (ch, 0, [])
  return (ch, es)

/-- What follows every command but a flush: give back the overflow, then
dispatch what is asked for. -/
def overflowAndDispatch (ch : Channel) (mem : Mem) : Option (Channel × List Effect) := do
  let (q, es) ← superbufBufdoneOverflow ch.queue
  let (ch, es') ← dispatch { ch with queue := q } mem
  return (ch, es ++ es')

/-- A request for superbufs: remember how many, skip what is too old, and start
or stop the snapshot. -/
def requestData (ch : Channel) (num : UInt32) : Option (Channel × List Effect) := do
  let (q, es) ← superbufSkip ch.queue
  let ch := { ch with pendingCnt := num, queue := q }
  if ch.pendingCnt > 0 ∧ ch.needLedFlash then
    return ({ ch with startZslSnapshotCalled := true, needLedFlash := false },
      es ++ [.startZslSnapshot])
  else if ch.pendingCnt = 0 ∧ ch.startZslSnapshotCalled then
    return ({ ch with startZslSnapshotCalled := false, needLedFlash := false },
      es ++ [.stopZslSnapshot])
  else return (ch, es)

/-- `mm_channel_process_stream_buf`. -/
def processStreamBuf (ch : Channel) : Cmd × Mem → Option (Channel × List Effect)
  | (.dataCb b, mem) => do
    let (_, ch, es) ← compAndEnqueue ch b mem.newNode
    let (ch, es') ← overflowAndDispatch ch mem
    return (ch, es ++ es')
  | (.reqDataCb num, mem) => do
    let (ch, es) ← requestData ch num
    let (ch, es') ← overflowAndDispatch ch mem
    return (ch, es ++ es')
  | (.configNotify mode, mem) =>
    overflowAndDispatch
      { ch with queue := { ch.queue with attr := { ch.queue.attr with notifyMode := mode } } } mem
  | (.flushQueue frameIdx, _) => do
    let (q, es) ← superbufFlush { ch.queue with expectedFrameId := frameIdx }
    return ({ ch with queue := q }, es)

/-- The queue as `mm_channel_start` leaves it. -/
def Queue.Fresh (q : Queue) : Prop := q.que = [] ∧ q.size = 0 ∧ q.matchCnt = 0

end Superbuf

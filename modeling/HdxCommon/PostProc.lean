/-
The post-processor: queues, data thread and notifier.

Captured superbufs go through five queues.  `processData`, `processRawData`,
`processPPData` and `processJpegEvt` are called by other threads and put frames
into queues; the data thread takes commands and moves frames on.

* `PostProc.step` — a call from outside, or the data thread up to its next call
  of the encoder, the notifier or the reprocess channel (`Phase`);
* `PostEffect` — what becomes of superbufs, memory and jobs.

Every allocation can fail.  A superbuf is a number, and so is a block of memory;
`release` stands for `releaseSuperBuf` together with the `free` after it.
-/
import HdxCommon.CbNotifier

namespace Qcamera

/-! ### Data -/

/-- `qcamera_jpeg_data_t`. -/
structure JpegJob where
  jobId : UInt32
  srcFrame : ℕ
  srcReprocFrame : Option ℕ
  deriving DecidableEq, Repr

/-- `qcamera_release_data_t`. -/
structure ReleaseData where
  data : Option ℕ
  frame : Option ℕ
  streamBufs : Bool
  deriving DecidableEq, Repr

inductive PostEffect where
  /-- a superbuf is given back to its channel and its copy freed -/
  | release (f : ℕ)
  | getMemory (m : ℕ)
  | releaseMem (m : ℕ)
  /-- `start` has sent its commands -/
  | started
  /-- `stop` returns -/
  | stopReturned
  /-- a job is sent to the encoder -/
  | startJob (id : UInt32)
  | abortJob (id : UInt32)
  /-- a job is completed by the event of a job id -/
  | jobDone (id : UInt32) (job : JpegJob)
  /-- an error is reported to the application -/
  | error
  | notifier (e : NotifierEvt ReleaseData)
  deriving DecidableEq, Repr

/-- Where the data thread is in a `DO_NEXT_JOB` while it is active.  `queued` says
whether the job could be put into the queue of ongoing jobs. -/
inductive Phase where
  | idle
  /-- in `encodeData` -/
  | encoding (job : JpegJob) (queued : Bool)
  /-- before the raw queue -/
  | raw
  /-- before the reprocess queue -/
  | pp
  /-- in `doReprocess` -/
  | reprocessing (f : ℕ) (queued : Bool)
  deriving DecidableEq, Repr

structure PostProc where
  inited : Bool
  cmds : List CmdType
  phase : Phase
  active : Bool
  needNewSess : Bool
  inputPPQ : List ℕ
  ongoingPPQ : List ℕ
  inputJpegQ : List JpegJob
  ongoingJpegQ : List JpegJob
  inputRawQ : List ℕ
  reprocChannel : Bool
  rawBurstCount : UInt32
  /-- `m_pJpegOutputMem` -/
  jpegOutputMem : Option ℕ
  /-- the next block of memory -/
  nextMem : ℕ
  /-- the state machine thread waits in `stop` -/
  stopping : Bool
  notifier : CbNotifier ReleaseData
  deriving DecidableEq, Repr

/-! ### What the outside decides -/

structure StartEnv where
  needReprocess : Bool
  addChannel : Bool
  startChannel : Bool
  numOfSnapshots : UInt8
  dataMem : CmdMem
  notifyMem : CmdMem
  deriving DecidableEq, Repr

structure FrameEnv where
  needReprocess : Bool
  isNV16 : Bool
  job : Bool
  node : Bool
  rawCmd : CmdMem
  cmd : CmdMem
  deriving DecidableEq, Repr

/-- Memory of `sendDataNotify`. -/
structure DataNotifyMem where
  argm : Bool
  notify : NotifyMem
  deriving DecidableEq, Repr

/-- `qcamera_jpeg_evt_payload_t`. -/
structure JpegEvt where
  jobId : UInt32
  ok : Bool
  deriving DecidableEq, Repr

structure JpegEvtEnv where
  /-- the application takes compressed images -/
  dataCb : Bool
  getMemory : Bool
  mem : DataNotifyMem
  cmd : CmdMem
  deriving DecidableEq, Repr

structure EncodeEnv where
  /-- channel, main frame, its memory and the encoder are there -/
  ready : Bool
  /-- the streams have their buffers -/
  streamBufs : Bool
  outputObj : Bool
  outputMem : Bool
  createSession : Bool
  /-- the job id that `start_job` gives -/
  startJob : Option UInt32
  deriving DecidableEq, Repr

structure RawEnv where
  /-- buffer, channel and stream are found -/
  valid : Bool
  rawMem : Bool
  dataCb : Bool
  mem : DataNotifyMem
  deriving DecidableEq, Repr

structure PPEnv where
  job : Bool
  node : Bool
  deriving DecidableEq, Repr

inductive PostInput where
  | start (env : StartEnv)
  | stop (dataMem notifyMem : CmdMem)
  | processData (f : ℕ) (env : FrameEnv)
  | processRawData (f : ℕ) (node : Bool) (cmd : CmdMem)
  | processPPData (f : ℕ) (env : FrameEnv)
  | processJpegEvt (evt : JpegEvt) (env : JpegEvtEnv)
  /-- the data thread takes a command -/
  | next (node : Bool)
  /-- `encodeData` returns -/
  | encoded (env : EncodeEnv)
  /-- the data thread looks at the raw queue -/
  | raw (env : RawEnv)
  /-- the data thread looks at the reprocess queue -/
  | pp (env : PPEnv)
  /-- `doReprocess` returns -/
  | reprocessed (ok : Bool)
  /-- the notifier thread takes a command -/
  | notify (env : NotifierEnv)
  /-- some part of the camera sends a notification with nothing to release -/
  | notifyOther (cbType : CbType) (msgType : ℕ) (mem : NotifyMem)

/-! ### Operations -/

/-- `CAMERA_MSG_COMPRESSED_IMAGE`. -/
def msgCompressedImage : ℕ := 0x100

def releaseNotifyData (r : ReleaseData) : List PostEffect :=
  r.data.toList.map .releaseMem ++ r.frame.toList.map .release

def JpegJob.frames (job : JpegJob) : List ℕ := job.srcReprocFrame.toList ++ [job.srcFrame]

def releaseJpegJobData (job : JpegJob) : List PostEffect := job.frames.map .release

namespace PostProc

/-- `DO_NEXT_JOB` for the data thread. -/
def doNextJob (mem : CmdMem) (s : PostProc) : PostProc :=
  { s with cmds := (sendCmd .doNextJob false mem s.cmds).2 }

def enqueuePP (node : Bool) (f : ℕ) (s : PostProc) : PostProc :=
  { s with inputPPQ := enqueue node f s.inputPPQ }

def enqueueRaw (node : Bool) (f : ℕ) (s : PostProc) : PostProc :=
  { s with inputRawQ := enqueue node f s.inputRawQ }

def enqueueJpeg (node : Bool) (job : JpegJob) (s : PostProc) : PostProc :=
  { s with inputJpegQ := enqueue node job s.inputJpegQ }

def start (env : StartEnv) (s : PostProc) : PostProc × List PostEffect :=
  if !s.inited then (s, [])
  else if env.needReprocess && !(env.addChannel && env.startChannel) then
    ({ s with reprocChannel := false }, [])
  else
    ({ s with
        reprocChannel := s.reprocChannel || env.needReprocess
        cmds := (sendCmd .startDataProc false env.dataMem s.cmds).2
        notifier := s.notifier.withCmds
          (sendCmd .startDataProc true env.notifyMem s.notifier.cmds).2
        rawBurstCount := env.numOfSnapshots.toUInt32 }, [.started])

/-- `stop` up to its wait for the data thread; without memory for the command it
does not wait. -/
def stop (dataMem notifyMem : CmdMem) (s : PostProc) : PostProc × List PostEffect :=
  if s.inited then
    ({ s with
        notifier := s.notifier.withCmds (sendCmd .stopDataProc true notifyMem s.notifier.cmds).2
        cmds := (sendCmd .stopDataProc true dataMem s.cmds).2
        stopping := dataMem.cmd }, if dataMem.cmd then [] else [.stopReturned])
  else (s, [.stopReturned])

def processRawData (f : ℕ) (node : Bool) (cmd : CmdMem) (s : PostProc) : PostProc :=
  if !s.inited then s
  else (s.enqueueRaw node f).doNextJob cmd

def processData (f : ℕ) (env : FrameEnv) (s : PostProc) : PostProc :=
  if !s.inited then s
  else if env.needReprocess then (s.enqueuePP env.node f).doNextJob env.cmd
  else if env.isNV16 then (s.processRawData f env.node env.rawCmd).doNextJob env.cmd
  else if !env.job then s
  else (s.enqueueJpeg env.node ⟨0, f, none⟩).doNextJob env.cmd

/-- A frame comes back from reprocessing, and its source is known. -/
def reprocResult (src f : ℕ) (env : FrameEnv) (s : PostProc) : PostProc × List PostEffect :=
  if env.isNV16 then (s.processRawData f env.node env.cmd, [.release src])
  else if !env.job then (s, [])
  else ((s.enqueueJpeg env.node ⟨0, f, some src⟩).doNextJob env.cmd, [])

def withOngoingPPQ (s : PostProc) (ongoing : List ℕ) : PostProc := { s with ongoingPPQ := ongoing }

def processPPData (f : ℕ) (env : FrameEnv) (s : PostProc) : PostProc × List PostEffect :=
  if !s.inited then (s, [])
  else
    match s.ongoingPPQ with
    | [] => (s, [])
    | src :: ongoing => (s.withOngoingPPQ ongoing).reprocResult src f env

def withNotifier (s : PostProc) (notifier : CbNotifier ReleaseData) : PostProc :=
  { s with notifier := notifier }

/-- The notification of an image with what is to be released after it. -/
def dataArgm (r : ReleaseData) : CallbackArgm ReleaseData :=
  ⟨.snapshot, msgCompressedImage, some r, some r⟩

/-- Hand data to the notifier, which releases it after delivery. -/
def sendDataNotify (r : ReleaseData) (mem : DataNotifyMem) (s : PostProc) :
    Bool × PostProc × List PostEffect :=
  if !mem.argm then (false, s, [])
  else
    let (ok, notifier, _) := s.notifier.notifyCallback (dataArgm r) mem.notify
    (ok, s.withNotifier notifier, if ok then [] else releaseNotifyData r)

def withOngoingJpegQ (s : PostProc) (ongoing : List JpegJob) : PostProc :=
  { s with ongoingJpegQ := ongoing }

/-- Since only one job is ongoing, the head of the queue is taken. -/
def findJpegJobByJobId (jobId : UInt32) (s : PostProc) : Option JpegJob × PostProc :=
  if jobId = 0 then (none, s)
  else
    match s.ongoingJpegQ with
    | [] => (none, s)
    | job :: ongoing => (some job, s.withOngoingJpegQ ongoing)

def withNextMem (s : PostProc) (m : ℕ) : PostProc := { s with nextMem := m }

def sendJpeg (mem : DataNotifyMem) (s : PostProc) : PostProc × List PostEffect :=
  let m := s.nextMem
  let (ok, s, es) := (s.withNextMem (m + 1)).sendDataNotify ⟨some m, none, false⟩ mem
  (s, .getMemory m :: es ++ if ok then [] else [.error, .releaseMem m])

/-- What the event of a job brings to the application. -/
def jpegResult (evt : JpegEvt) (env : JpegEvtEnv) (s : PostProc) : PostProc × List PostEffect :=
  if !env.dataCb then (s, [])
  else if !(evt.ok && env.getMemory) then (s, [.error])
  else s.sendJpeg env.mem

def processJpegEvt (evt : JpegEvt) (env : JpegEvtEnv) (s : PostProc) :
    PostProc × List PostEffect :=
  if !s.inited then (s, [])
  else
    match s.findJpegJobByJobId evt.jobId with
    | (none, s) => (s.doNextJob env.cmd, [.error])
    | (some job, s) =>
      let (s, es) := s.jpegResult evt env
      (s.doNextJob env.cmd, .jobDone evt.jobId job :: es ++ releaseJpegJobData job)

/-- The output buffer of a new session; the old one is released in any case. -/
def getJpegEncodingConfig (env : EncodeEnv) (s : PostProc) : PostProc × List PostEffect :=
  let old := s.jpegOutputMem.toList.map PostEffect.releaseMem
  let m := s.nextMem
  if !(env.streamBufs && env.outputObj) then ({ s with jpegOutputMem := none }, old)
  else if env.outputMem then
    ({ s with jpegOutputMem := some m, nextMem := m + 1 }, old ++ [.getMemory m])
  else
    ({ s with jpegOutputMem := none, nextMem := m + 1 }, old ++ [.getMemory m, .releaseMem m])

/-- The job id, if the job could be sent to the encoder. -/
def encodeData (env : EncodeEnv) (s : PostProc) : Option UInt32 × PostProc × List PostEffect :=
  if !env.ready then (none, s, [])
  else if s.needNewSess then
    -- the result of the configuration is not looked at
    let (s, es) := s.getJpegEncodingConfig env
    if !env.createSession then (none, s, es)
    else (env.startJob, { s with needNewSess := false }, es)
  else (env.startJob, s, [])

/-- `encodeData` returns to the data thread. -/
def encoded (env : EncodeEnv) (job : JpegJob) (s : PostProc) : PostProc × List PostEffect :=
  match s.encodeData env with
  | (some id, s, es) =>
    ({ s with
        phase := .raw
        ongoingJpegQ := s.ongoingJpegQ.map fun j => { j with jobId := id } }, es ++ [.startJob id])
  | (none, s, es) =>
    ({ s with phase := .raw, ongoingJpegQ := s.ongoingJpegQ.dropLast },
      es ++ releaseJpegJobData job ++ [.error])

/-- What is released after a raw image: with the last image of a burst the buffers
of the stream, which it takes along. -/
def rawReleaseData (f : ℕ) (rawBurstCount : UInt32) : ReleaseData :=
  if rawBurstCount = 0 then ⟨none, none, true⟩ else ⟨none, some f, false⟩

def countRaw (s : PostProc) : PostProc := { s with rawBurstCount := s.rawBurstCount - 1 }

def processRawImageImpl (f : ℕ) (env : RawEnv) (s : PostProc) :
    Bool × PostProc × List PostEffect :=
  if !(env.valid && env.rawMem) then (false, s, [])
  else if !env.dataCb then (true, s, [])
  else s.countRaw.sendDataNotify (rawReleaseData f s.countRaw.rawBurstCount) env.mem

def withInputRawQ (s : PostProc) (rest : List ℕ) : PostProc :=
  { s with phase := .pp, inputRawQ := rest }

def rawStep (env : RawEnv) (s : PostProc) : PostProc × List PostEffect :=
  match s.inputRawQ with
  | [] => ({ s with phase := .pp }, [])
  | f :: rest =>
    let (ok, s, es) := (s.withInputRawQ rest).processRawImageImpl f env
    (s, es ++ if ok then [] else [.release f, .error])

def ppStep (env : PPEnv) (s : PostProc) : PostProc × List PostEffect :=
  match s.inputPPQ with
  | [] => ({ s with phase := .idle }, [])
  | f :: rest =>
    if env.job && s.reprocChannel then
      ({ s with
          phase := .reprocessing f env.node
          inputPPQ := rest
          ongoingPPQ := enqueue env.node f s.ongoingPPQ }, [])
    else ({ s with phase := .idle, inputPPQ := rest }, [.release f, .error])

/-- `doReprocess` returns to the data thread. -/
def reprocessed (ok : Bool) (f : ℕ) (s : PostProc) : PostProc × List PostEffect :=
  if ok then ({ s with phase := .idle }, [])
  else ({ s with phase := .idle, ongoingPPQ := s.ongoingPPQ.dropLast }, [.release f, .error])

/-- `STOP_DATA_PROC`: all jobs are released, and `stop` returns. -/
def stopDataProc (s : PostProc) : PostProc × List PostEffect :=
  ({ s with
      active := false
      needNewSess := true
      ongoingJpegQ := []
      jpegOutputMem := none
      reprocChannel := false
      ongoingPPQ := []
      inputJpegQ := []
      inputPPQ := []
      inputRawQ := []
      stopping := false },
    (s.ongoingJpegQ.flatMap fun job => .abortJob job.jobId :: releaseJpegJobData job) ++
      s.jpegOutputMem.toList.map .releaseMem ++ s.ongoingPPQ.map .release ++
      s.inputJpegQ.flatMap releaseJpegJobData ++ s.inputPPQ.map .release ++
      s.inputRawQ.map .release ++ [.stopReturned])

/-- `DO_NEXT_JOB` while the thread is active: a job is sent to the encoder unless
one is ongoing. -/
def nextJob (node : Bool) (s : PostProc) : PostProc :=
  match s.ongoingJpegQ, s.inputJpegQ with
  | [], job :: rest =>
    { s with
      phase := .encoding job node
      inputJpegQ := rest
      ongoingJpegQ := enqueue node job [] }
  | _, _ => { s with phase := .raw }

/-- `DO_NEXT_JOB` while the thread is not active: one item of each queue is
released. -/
def dropJobs (s : PostProc) : PostProc × List PostEffect :=
  ({ s with
      inputJpegQ := s.inputJpegQ.tail
      inputRawQ := s.inputRawQ.tail
      inputPPQ := s.inputPPQ.tail },
    s.inputJpegQ.head?.toList.flatMap releaseJpegJobData ++
      s.inputRawQ.head?.toList.map .release ++ s.inputPPQ.head?.toList.map .release)

def dataProcessRoutine (node : Bool) (cmd : CmdType) (s : PostProc) :
    PostProc × List PostEffect :=
  match cmd with
  | .startDataProc => ({ s with active := true, needNewSess := true }, [])
  | .stopDataProc => s.stopDataProc
  | .doNextJob => if s.active then (s.nextJob node, []) else s.dropJobs
  -- sent by `deinit` only
  | .exit => (s, [])

def withCmds (s : PostProc) (cmds : List CmdType) : PostProc := { s with cmds := cmds }

/-- What the notifier thread releases belongs to the post-processor. -/
def ofNotifierEvt : NotifierEvt ReleaseData → List PostEffect
  | .release r => releaseNotifyData r
  | e => [.notifier e]

def step (s : PostProc) : PostInput → Option (PostProc × List PostEffect)
  | .start env => if s.stopping then none else some (s.start env)
  | .stop dataMem notifyMem => if s.stopping then none else some (s.stop dataMem notifyMem)
  | .processData f env => some (s.processData f env, [])
  | .processRawData f node cmd => some (s.processRawData f node cmd, [])
  | .processPPData f env => some (s.processPPData f env)
  | .processJpegEvt evt env => if s.stopping then none else some (s.processJpegEvt evt env)
  | .next node =>
    match s.phase, s.cmds with
    | .idle, cmd :: cmds => some ((s.withCmds cmds).dataProcessRoutine node cmd)
    | _, _ => none
  | .encoded env =>
    match s.phase with
    | .encoding job _ => some (s.encoded env job)
    | _ => none
  | .raw env =>
    match s.phase with
    | .raw => some (s.rawStep env)
    | _ => none
  | .pp env =>
    match s.phase with
    | .pp => some (s.ppStep env)
    | _ => none
  | .reprocessed ok =>
    match s.phase with
    | .reprocessing f _ => some (s.reprocessed ok f)
    | _ => none
  | .notify env => do
    let (notifier, es) ← s.notifier.step (.next env)
    return (s.withNotifier notifier, es.flatMap ofNotifierEvt)
  | .notifyOther cbType msgType mem =>
    some (s.withNotifier (s.notifier.notifyCallback ⟨cbType, msgType, none, none⟩ mem).2.1, [])

/-- `init` has launched the data thread, and the callbacks are set. -/
def opened (inited : Bool) : PostProc :=
  ⟨inited, [], .idle, false, true, [], [], [], [], [], false, 0, none, 0, false,
    .launched true true true⟩

end PostProc

/-! ### The steps one by one -/

inductive PostTransition (s : PostProc) : PostInput → List PostEffect → PostProc → Prop
  | start (env : StartEnv) (hwait : s.stopping = false) :
      PostTransition s (.start env) (s.start env).2 (s.start env).1
  | stop (dataMem notifyMem : CmdMem) (hwait : s.stopping = false) :
      PostTransition s (.stop dataMem notifyMem) (s.stop dataMem notifyMem).2
        (s.stop dataMem notifyMem).1
  | data (f : ℕ) (env : FrameEnv) :
      PostTransition s (.processData f env) [] (s.processData f env)
  | rawData (f : ℕ) (node : Bool) (cmd : CmdMem) :
      PostTransition s (.processRawData f node cmd) [] (s.processRawData f node cmd)
  | ppData (f : ℕ) (env : FrameEnv) :
      PostTransition s (.processPPData f env) (s.processPPData f env).2 (s.processPPData f env).1
  | jpegEvt (evt : JpegEvt) (env : JpegEvtEnv) (hwait : s.stopping = false) :
      PostTransition s (.processJpegEvt evt env) (s.processJpegEvt evt env).2
        (s.processJpegEvt evt env).1
  | cmd (node : Bool) {cmd : CmdType} {cmds : List CmdType} (hphase : s.phase = .idle)
      (hcmds : s.cmds = cmd :: cmds) :
      PostTransition s (.next node) ((s.withCmds cmds).dataProcessRoutine node cmd).2
        ((s.withCmds cmds).dataProcessRoutine node cmd).1
  | encoded (env : EncodeEnv) {job : JpegJob} {queued : Bool}
      (hphase : s.phase = .encoding job queued) :
      PostTransition s (.encoded env) (s.encoded env job).2 (s.encoded env job).1
  | raw (env : RawEnv) (hphase : s.phase = .raw) :
      PostTransition s (.raw env) (s.rawStep env).2 (s.rawStep env).1
  | pp (env : PPEnv) (hphase : s.phase = .pp) :
      PostTransition s (.pp env) (s.ppStep env).2 (s.ppStep env).1
  | reprocessed (ok : Bool) {f : ℕ} {queued : Bool} (hphase : s.phase = .reprocessing f queued) :
      PostTransition s (.reprocessed ok) (s.reprocessed ok f).2 (s.reprocessed ok f).1
  | notify (env : NotifierEnv) {n : CbNotifier ReleaseData} {es : List (NotifierEvt ReleaseData)}
      (hn : s.notifier.step (.next env) = some (n, es)) :
      PostTransition s (.notify env) (es.flatMap PostProc.ofNotifierEvt) (s.withNotifier n)
  | notifyOther (cbType : CbType) (msgType : ℕ) (mem : NotifyMem) :
      PostTransition s (.notifyOther cbType msgType mem) []
        (s.withNotifier (s.notifier.notifyCallback ⟨cbType, msgType, none, none⟩ mem).2.1)

theorem PostProc.transition_of_step {s s' : PostProc} {i : PostInput} {o : List PostEffect}
    (hs : s.step i = some (s', o)) : PostTransition s i o s' := by
  -- each result is read off as a pair, which keeps the operation folded
  have hpair : ∀ {r : PostProc × List PostEffect}, some r = some (s', o) →
      PostTransition s i r.2 r.1 → PostTransition s i o s' := by
    rintro r hr ht
    cases hr
    exact ht
  cases i with
  | start env =>
    simp only [step] at hs
    split at hs
    · cases hs
    · rename_i hwait
      exact hpair hs (.start env (by simpa using hwait))
  | stop dataMem notifyMem =>
    simp only [step] at hs
    split at hs
    · cases hs
    · rename_i hwait
      exact hpair hs (.stop dataMem notifyMem (by simpa using hwait))
  | processData f env => exact hpair hs (.data f env)
  | processRawData f node cmd => exact hpair hs (.rawData f node cmd)
  | processPPData f env => exact hpair hs (.ppData f env)
  | processJpegEvt evt env =>
    simp only [step] at hs
    split at hs
    · cases hs
    · rename_i hwait
      exact hpair hs (.jpegEvt evt env (by simpa using hwait))
  | next node =>
    simp only [step] at hs
    split at hs
    · rename_i cmd cmds hphase hcmds
      exact hpair hs (.cmd node hphase hcmds)
    · cases hs
  | encoded env =>
    simp only [step] at hs
    split at hs
    · rename_i job queued hphase
      exact hpair hs (.encoded env hphase)
    · cases hs
  | raw env =>
    simp only [step] at hs
    split at hs
    · rename_i hphase
      exact hpair hs (.raw env hphase)
    · cases hs
  | pp env =>
    simp only [step] at hs
    split at hs
    · rename_i hphase
      exact hpair hs (.pp env hphase)
    · cases hs
  | reprocessed ok =>
    simp only [step] at hs
    split at hs
    · rename_i f queued hphase
      exact hpair hs (.reprocessed ok hphase)
    · cases hs
  | notify env =>
    simp only [step, Option.bind_eq_bind, Option.bind_eq_some_iff, Option.pure_def,
      Option.some.injEq, Prod.mk.injEq, Prod.exists] at hs
    obtain ⟨n, es, hn, rfl, rfl⟩ := hs
    exact .notify env hn
  | notifyOther cbType msgType mem => exact hpair hs (.notifyOther cbType msgType mem)

/-! ### What a step leaves alone -/

/-- A step that neither starts nor stops a thread: the queues of commands only get
wake-ups. -/
structure Wakes (s s' : PostProc) : Prop where
  inited : s'.inited = s.inited
  active : s'.active = s.active
  stopping : s'.stopping = s.stopping
  cmds : ∃ k, s'.cmds = s.cmds ++ List.replicate k .doNextJob
  isSnapshotActive : s'.notifier.isSnapshotActive = s.notifier.isSnapshotActive
  notifierCmds : ∃ k, s'.notifier.cmds = s.notifier.cmds ++ List.replicate k .doNextJob

/-- A call from outside also leaves the data thread where it is, and takes from
the queues of ongoing jobs at their front only. -/
structure Outside (s s' : PostProc) : Prop extends Wakes s s' where
  phase : s'.phase = s.phase
  ongoingJpegQ : s'.ongoingJpegQ <:+ s.ongoingJpegQ
  ongoingPPQ : s'.ongoingPPQ <:+ s.ongoingPPQ

section Frame

open PostProc

variable {s s' s'' : PostProc} {f : ℕ}

theorem exists_replicate_trans {q q' q'' : List CmdType}
    (h : ∃ k, q' = q ++ List.replicate k .doNextJob)
    (h' : ∃ k, q'' = q' ++ List.replicate k .doNextJob) :
    ∃ k, q'' = q ++ List.replicate k .doNextJob := by
  obtain ⟨k, rfl⟩ := h
  obtain ⟨k', rfl⟩ := h'
  exact ⟨k + k', by rw [List.append_assoc, ← List.replicate_add]⟩

theorem Wakes.of_eq (hinited : s'.inited = s.inited) (hactive : s'.active = s.active)
    (hstopping : s'.stopping = s.stopping) (hcmds : s'.cmds = s.cmds)
    (hnotifier : s'.notifier = s.notifier) : Wakes s s' := by
  refine ⟨hinited, hactive, hstopping, ⟨0, ?_⟩, ?_, ⟨0, ?_⟩⟩
  · rw [hcmds, List.replicate_zero, List.append_nil]
  · rw [hnotifier]
  · rw [hnotifier, List.replicate_zero, List.append_nil]

theorem Wakes.trans (h : Wakes s s') (h' : Wakes s' s'') : Wakes s s'' :=
  ⟨h'.inited.trans h.inited, h'.active.trans h.active, h'.stopping.trans h.stopping,
    exists_replicate_trans h.cmds h'.cmds, h'.isSnapshotActive.trans h.isSnapshotActive,
    exists_replicate_trans h.notifierCmds h'.notifierCmds⟩

theorem Outside.refl (s : PostProc) : Outside s s :=
  ⟨.of_eq rfl rfl rfl rfl rfl, rfl, List.suffix_rfl, List.suffix_rfl⟩

theorem Outside.trans (h : Outside s s') (h' : Outside s' s'') : Outside s s'' :=
  ⟨h.toWakes.trans h'.toWakes, h'.phase.trans h.phase, h'.ongoingJpegQ.trans h.ongoingJpegQ,
    h'.ongoingPPQ.trans h.ongoingPPQ⟩

theorem outside_doNextJob (mem : CmdMem) : Outside s (s.doNextJob mem) :=
  ⟨⟨rfl, rfl, rfl, exists_sendCmd_doNextJob mem s.cmds, rfl, 0, (List.append_nil _).symm⟩, rfl,
    List.suffix_rfl, List.suffix_rfl⟩

theorem outside_enqueueRaw (node : Bool) : Outside s (s.enqueueRaw node f) :=
  ⟨.of_eq rfl rfl rfl rfl rfl, rfl, List.suffix_rfl, List.suffix_rfl⟩

theorem outside_enqueuePP (node : Bool) : Outside s (s.enqueuePP node f) :=
  ⟨.of_eq rfl rfl rfl rfl rfl, rfl, List.suffix_rfl, List.suffix_rfl⟩

theorem outside_enqueueJpeg (node : Bool) (job : JpegJob) : Outside s (s.enqueueJpeg node job) :=
  ⟨.of_eq rfl rfl rfl rfl rfl, rfl, List.suffix_rfl, List.suffix_rfl⟩

theorem outside_processRawData (f : ℕ) (node : Bool) (cmd : CmdMem) :
    Outside s (s.processRawData f node cmd) := by
  unfold processRawData
  split
  · exact .refl s
  · exact (outside_enqueueRaw node).trans (outside_doNextJob cmd)

theorem outside_processData (f : ℕ) (env : FrameEnv) : Outside s (s.processData f env) := by
  unfold processData
  split
  · exact .refl s
  split
  · exact (outside_enqueuePP env.node).trans (outside_doNextJob env.cmd)
  split
  · exact (outside_processRawData f env.node env.rawCmd).trans (outside_doNextJob env.cmd)
  split
  · exact .refl s
  · exact (outside_enqueueJpeg env.node _).trans (outside_doNextJob env.cmd)

theorem outside_reprocResult (src f : ℕ) (env : FrameEnv) :
    Outside s (s.reprocResult src f env).1 := by
  unfold reprocResult
  split
  · exact outside_processRawData f env.node env.cmd
  split
  · exact .refl s
  · exact (outside_enqueueJpeg env.node _).trans (outside_doNextJob env.cmd)

theorem outside_processPPData (f : ℕ) (env : FrameEnv) : Outside s (s.processPPData f env).1 := by
  unfold processPPData
  split
  · exact .refl s
  split
  · exact .refl s
  · rename_i src ongoing hq
    -- the source of the frame leaves the queue
    have hsrc : Outside s (s.withOngoingPPQ ongoing) :=
      ⟨.of_eq rfl rfl rfl rfl rfl, rfl, List.suffix_rfl, hq ▸ List.suffix_cons src ongoing⟩
    exact hsrc.trans (outside_reprocResult src f env)

theorem outside_notifyCallback (cb : CallbackArgm ReleaseData) (mem : NotifyMem) :
    Outside s (s.withNotifier (s.notifier.notifyCallback cb mem).2.1) := by
  refine ⟨⟨rfl, rfl, rfl, ⟨0, (List.append_nil _).symm⟩, ?_, ?_⟩, rfl, List.suffix_rfl,
    List.suffix_rfl⟩
  · unfold CbNotifier.notifyCallback withNotifier
    split
    · rfl
    split
    · rfl
    split <;> rfl
  · unfold CbNotifier.notifyCallback withNotifier
    split
    · exact ⟨0, (List.append_nil _).symm⟩
    split
    · exact ⟨0, (List.append_nil _).symm⟩
    split
    · exact exists_sendCmd_doNextJob mem.cmd s.notifier.cmds
    · exact ⟨0, (List.append_nil _).symm⟩

theorem outside_sendDataNotify (r : ReleaseData) (mem : DataNotifyMem) :
    Outside s (s.sendDataNotify r mem).2.1 := by
  unfold sendDataNotify
  split
  · exact .refl s
  · exact outside_notifyCallback (dataArgm r) mem.notify

theorem outside_jpegResult (evt : JpegEvt) (env : JpegEvtEnv) :
    Outside s (s.jpegResult evt env).1 := by
  unfold jpegResult
  split
  · exact .refl s
  split
  · exact .refl s
  · have hmem : Outside s (s.withNextMem (s.nextMem + 1)) :=
      ⟨.of_eq rfl rfl rfl rfl rfl, rfl, List.suffix_rfl, List.suffix_rfl⟩
    exact hmem.trans (outside_sendDataNotify _ env.mem)

theorem outside_processJpegEvt (evt : JpegEvt) (env : JpegEvtEnv) :
    Outside s (s.processJpegEvt evt env).1 := by
  unfold processJpegEvt findJpegJobByJobId
  split
  · exact .refl s
  by_cases hid : evt.jobId = 0
  · rw [if_pos hid]
    exact outside_doNextJob env.cmd
  rw [if_neg hid]
  cases hq : s.ongoingJpegQ with
  | nil => exact outside_doNextJob env.cmd
  | cons job ongoing =>
    have hjob : Outside s (s.withOngoingJpegQ ongoing) :=
      ⟨.of_eq rfl rfl rfl rfl rfl, rfl, hq ▸ List.suffix_cons job ongoing, List.suffix_rfl⟩
    exact (hjob.trans (outside_jpegResult evt env)).trans (outside_doNextJob env.cmd)

/-! Apart from the notifier, memory and a count, these calls change nothing. -/

theorem exists_sendDataNotify (r : ReleaseData) (mem : DataNotifyMem) :
    ∃ n, (s.sendDataNotify r mem).2.1 = s.withNotifier n := by
  unfold sendDataNotify
  split
  · exact ⟨s.notifier, rfl⟩
  · exact ⟨_, rfl⟩

theorem exists_jpegResult (evt : JpegEvt) (env : JpegEvtEnv) :
    ∃ m n, (s.jpegResult evt env).1 = (s.withNextMem m).withNotifier n := by
  unfold jpegResult
  split
  · exact ⟨s.nextMem, s.notifier, rfl⟩
  split
  · exact ⟨s.nextMem, s.notifier, rfl⟩
  · obtain ⟨n, hn⟩ := exists_sendDataNotify (s := s.withNextMem (s.nextMem + 1))
      ⟨some s.nextMem, none, false⟩ env.mem
    exact ⟨s.nextMem + 1, n, hn⟩

theorem exists_processRawImageImpl (f : ℕ) (env : RawEnv) : ∃ b n,
    (s.processRawImageImpl f env).2.1 = { s with rawBurstCount := b, notifier := n } := by
  unfold processRawImageImpl
  split
  · exact ⟨s.rawBurstCount, s.notifier, rfl⟩
  split
  · exact ⟨s.rawBurstCount, s.notifier, rfl⟩
  · obtain ⟨n, hn⟩ := exists_sendDataNotify (s := s.countRaw)
      (rawReleaseData f s.countRaw.rawBurstCount) env.mem
    exact ⟨s.rawBurstCount - 1, n, hn⟩

end Frame

/-! ### Plain environments -/

/-- One snapshot without reprocessing; there is memory for the commands. -/
def plainStart : StartEnv := ⟨false, false, false, 1, .ample, .ample⟩

def plainFrame : FrameEnv := ⟨false, false, true, true, .ample, .ample⟩

def plainEncode (id : UInt32) : EncodeEnv := ⟨true, true, true, true, true, some id⟩

/-- The notifier has memory for an image if `node` says so. -/
def plainJpegEvt (node : Bool) : JpegEvtEnv := ⟨true, true, ⟨true, ⟨true, node, .ample⟩⟩, .ample⟩

def plainRaw : RawEnv := ⟨true, true, true, ⟨true, .ample⟩⟩

end Qcamera

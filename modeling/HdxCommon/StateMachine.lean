/-
The state machine of the HAL (`QCameraStateMachine`).

Every API call and every event of the backend is an event of one state machine,
whose eight states each have a handler.  A handler drives the hardware, answers
an API call with `signalAPIResult` and the end of a snapshot with
`signalEvtResult`, and moves to another state.
-/
import HdxCommon.Hwi
import HdxCommon.Runs

namespace Qcamera

/-! ### Events -/

/-- `qcamera_sm_evt_enum_t`. -/
inductive SmEvt where
  | setPreviewWindow | setCallbacks | enableMsgType | disableMsgType | msgTypeEnabled
  | setParams | getParams | putParams
  | startPreview | startNodisplayPreview | stopPreview | previewEnabled
  | storeMetadataInBufs | startRecording | stopRecording | recordingEnabled
  | releaseRecordingFrame
  | prepareSnapshot | takePicture | cancelPicture
  | startAutoFocus | stopAutoFocus | sendCommand
  | release | dump | regFaceImage
  | evtInternal | evtNotify | jpegEvtNotify | snapshotDone | thermalNotify
  deriving DecidableEq, Repr

/-- The events between the marks of the API in the enumeration. -/
def SmEvt.isApi : SmEvt → Bool
  | .evtInternal | .evtNotify | .jpegEvtNotify | .snapshotDone | .thermalNotify => false
  | _ => true

/-- `qcamera_internal_evt_type_t`. -/
inductive InternalEvt where
  | focusUpdate | prepSnapshotDone | faceDetectResult | histogramStats | cropInfo
  deriving DecidableEq, Repr

inductive ServerEvt where
  | daemonDied | other
  deriving DecidableEq, Repr

/-- An event with its payload, of which the handlers read what belongs to the
event, and with the outcomes of the operations it invokes. -/
structure Call where
  evt : SmEvt
  /-- the preview window given is not null -/
  window : Bool
  msgType : UInt32
  parms : ParamString
  metadata : ℤ
  internal : InternalEvt
  server : ServerEvt
  outcomes : Outcomes

/-! ### Results -/

/-- The result type, with the value it comes with. -/
inductive ResultValue where
  | default
  | enableFlag (enabled : UInt32)
  | params
  | handle (handle : ℤ)
  deriving DecidableEq, Repr

/-- `qcamera_api_result_t`. -/
structure ApiResult where
  status : Status
  requestApi : SmEvt
  result : ResultValue
  deriving DecidableEq, Repr

/-- What a handler sends: `signalAPIResult`, `signalEvtResult`, and the notice
that the server died. -/
inductive Signal where
  | api (r : ApiResult)
  | evt (r : ApiResult)
  | serverDied
  deriving DecidableEq, Repr

/-! ### The machine -/

/-- `qcamera_state_enum_t`. -/
inductive SmState where
  | previewStopped | previewReady | previewing | prepareSnapshot
  | picTaking | recording | videoPicTaking | previewPicTaking
  deriving DecidableEq, Repr

structure Machine where
  state : SmState
  hwi : Hwi

/-- `isPreviewRunning`. -/
def SmState.isPreviewRunning : SmState → Bool
  | .previewing | .recording | .videoPicTaking | .previewPicTaking | .prepareSnapshot => true
  | _ => false

/-- A handler is done: the next state, the hardware and the answer. -/
def Call.done (c : Call) (s : SmState) (r : Status × Hwi) : Machine × List Signal :=
  (⟨s, r.2⟩, [.api ⟨r.1, c.evt, .default⟩])

def Call.ended (c : Call) (s : SmState) (r : Status × Hwi) : Machine × List Signal :=
  (⟨s, r.2⟩, [.evt ⟨r.1, c.evt, .default⟩])

namespace Machine

def answer (c : Call) (rc : Status) (m : Machine) : Machine × List Signal :=
  c.done m.state (rc, m.hwi)

/-- The event cannot be handled in this state. -/
def reject (c : Call) (m : Machine) : Machine × List Signal := m.answer c .invalidOperation

def answerFlag (c : Call) (enabled : UInt32) (m : Machine) : Machine × List Signal :=
  (m, [.api ⟨.noError, c.evt, .enableFlag enabled⟩])

/-- Calls that every state but the one preparing a snapshot treats alike. -/
def serve (c : Call) (m : Machine) : Machine × List Signal :=
  match c.evt with
  | .enableMsgType =>
    c.done m.state (.noError, { m.hwi with msgEnabled := m.hwi.msgEnabled ||| c.msgType })
  | .disableMsgType =>
    c.done m.state (.noError, { m.hwi with msgEnabled := m.hwi.msgEnabled &&& ~~~c.msgType })
  | .msgTypeEnabled => m.answerFlag c (m.hwi.msgEnabled &&& c.msgType)
  | .getParams => (m, [.api ⟨.noError, c.evt, .params⟩])
  -- `dump` is not supported
  | .dump => m.answer c .invalidOperation
  | .storeMetadataInBufs =>
    c.done m.state (.noError, { m.hwi with storeMetaDataInFrame := c.metadata })
  | .startAutoFocus | .stopAutoFocus | .sendCommand =>
    c.done m.state (m.hwi.service c.outcomes)
  | .releaseRecordingFrame => c.done m.state (m.hwi.releaseRecordingFrame c.outcomes)
  | .regFaceImage =>
    (m, [.api ⟨c.outcomes.service, c.evt, .handle c.outcomes.faceId⟩])
  | _ => m.answer c .noError

/-- `EVT_INTERNAL` where the handler only passes the event on. -/
def internalEvt (c : Call) (m : Machine) : Machine × List Signal :=
  match c.internal with
  | .focusUpdate => ({ m with hwi := (m.hwi.service c.outcomes).2 }, [])
  | _ => (m, [])

/-- `EVT_NOTIFY`. -/
def evtNotify (c : Call) (m : Machine) : Machine × List Signal :=
  match c.server with
  | .daemonDied => (m, [.serverDied])
  | .other => (m, [])

/-- `THERMAL_NOTIFY`, which nobody waits for. -/
def thermalNotify (c : Call) (m : Machine) : Machine × List Signal :=
  ({ m with hwi := (m.hwi.service c.outcomes).2 }, [])

/-- The preview is prepared and started; what was prepared is taken back when
the start fails. -/
def preparedStart (o : Outcomes) (h : Hwi) : Status × Hwi :=
  let (rc, h) := h.preparePreview o
  if rc = .noError then
    let (rc, h) := h.startPreview o
    if rc ≠ .noError then (rc, h.unpreparePreview) else (rc, h)
  else (rc, h)

/-- `SET_PARAMS` with the parameters committed and nothing restarted. -/
def setParams (c : Call) (m : Machine) : Machine × List Signal :=
  let (rc, _, h) := m.hwi.updateParameters c.parms
  c.done m.state (if rc = .noError then h.commitParameterChanges c.outcomes else (rc, h))

/-- `SET_PARAMS` while the preview runs: it is restarted when the parameters
need that, and the machine goes to `failed` when that fails. -/
def setParamsRestarting (c : Call) (failed : SmState) (m : Machine) : Machine × List Signal :=
  let (rc, needRestart, h) := m.hwi.updateParameters c.parms
  if rc = .noError then
    if needRestart then
      let h := (h.stopPreview c.outcomes).2
      let h := (h.commitParameterChanges c.outcomes).2
      let r := preparedStart c.outcomes h
      c.done (if r.1 ≠ .noError then failed else m.state) r
    else c.done m.state (h.commitParameterChanges c.outcomes)
  else c.done m.state (rc, h)

/-- `SET_PARAMS` while recording: a restart is refused. -/
def setParamsRecording (c : Call) (m : Machine) : Machine × List Signal :=
  let (rc, needRestart, h) := m.hwi.updateParameters c.parms
  c.done m.state
    (if rc = .noError then
      if needRestart then (.badValue, h) else h.commitParameterChanges c.outcomes
    else (rc, h))

/-! ### The handlers -/

def procEvtPreviewStoppedState (c : Call) (m : Machine) : Machine × List Signal :=
  match c.evt with
  | .setPreviewWindow => c.done m.state (m.hwi.setPreviewWindow c.window)
  | .setCallbacks | .enableMsgType | .disableMsgType | .msgTypeEnabled | .getParams | .putParams
  | .storeMetadataInBufs | .dump | .sendCommand | .stopAutoFocus | .regFaceImage => m.serve c
  | .setParams => m.setParams c
  | .startPreview =>
    if m.hwi.previewWindow = false then
      -- no window yet: the preview is only prepared
      let r := m.hwi.preparePreview c.outcomes
      c.done (if r.1 = .noError then .previewReady else m.state) r
    else
      let r := preparedStart c.outcomes m.hwi
      c.done (if r.1 = .noError then .previewing else m.state) r
  | .startNodisplayPreview =>
    let r := preparedStart c.outcomes m.hwi
    c.done (if r.1 = .noError then .previewing else m.state) r
  | .stopPreview | .cancelPicture => m.answer c .noError
  | .previewEnabled | .recordingEnabled => m.answerFlag c 0
  | .release => c.done m.state m.hwi.release
  | .startRecording | .stopRecording | .releaseRecordingFrame | .prepareSnapshot | .takePicture
  | .startAutoFocus => m.reject c
  | .thermalNotify => m.thermalNotify c
  | .evtNotify => m.evtNotify c
  | .snapshotDone => c.ended m.state (.noError, m.hwi)
  | .evtInternal | .jpegEvtNotify => (m, [])

def procEvtPreviewReadyState (c : Call) (m : Machine) : Machine × List Signal :=
  match c.evt with
  | .setPreviewWindow =>
    let h := (m.hwi.setPreviewWindow c.window).2
    if h.previewWindow then
      let r := h.startPreview c.outcomes
      if r.1 ≠ .noError then c.done .previewStopped (r.1, r.2.unpreparePreview)
      else c.done .previewing r
    else c.done m.state (.noError, h)
  | .setCallbacks | .enableMsgType | .disableMsgType | .msgTypeEnabled | .getParams | .putParams
  | .storeMetadataInBufs | .dump | .startAutoFocus | .stopAutoFocus | .sendCommand
  | .regFaceImage => m.serve c
  | .setParams =>
    let (rc, needRestart, h) := m.hwi.updateParameters c.parms
    if rc = .noError then
      if needRestart then
        let h := (h.unpreparePreview.commitParameterChanges c.outcomes).2
        let r := h.preparePreview c.outcomes
        c.done (if r.1 ≠ .noError then .previewStopped else m.state) r
      else c.done m.state (h.commitParameterChanges c.outcomes)
    else c.done m.state (rc, h)
  | .startPreview => m.answer c .noError
  | .stopPreview => c.done .previewStopped (.noError, m.hwi.unpreparePreview)
  | .previewEnabled => m.answerFlag c 1
  | .recordingEnabled => m.answerFlag c 0
  | .startNodisplayPreview | .startRecording | .stopRecording | .prepareSnapshot | .takePicture
  | .cancelPicture | .releaseRecordingFrame | .release => m.reject c
  | .evtNotify => m.evtNotify c
  | .snapshotDone => c.ended m.state (.noError, m.hwi)
  | .evtInternal | .jpegEvtNotify | .thermalNotify => (m, [])

def procEvtPreviewingState (c : Call) (m : Machine) : Machine × List Signal :=
  match c.evt with
  | .setCallbacks | .enableMsgType | .disableMsgType | .msgTypeEnabled | .getParams | .putParams
  | .storeMetadataInBufs | .dump | .startAutoFocus | .stopAutoFocus | .sendCommand
  | .regFaceImage => m.serve c
  | .setParams => m.setParamsRestarting c .previewStopped
  | .startPreview | .startNodisplayPreview => m.answer c .noError
  | .stopPreview => c.done .previewStopped (m.hwi.stopPreview c.outcomes)
  | .previewEnabled => m.answerFlag c 1
  | .recordingEnabled => m.answerFlag c 0
  | .startRecording =>
    let r := m.hwi.startRecording c.outcomes
    c.done (if r.1 = .noError then .recording else m.state) r
  | .prepareSnapshot =>
    -- a success is answered when the end of the preparation is known
    if c.outcomes.prepareSnapshot = .noError then ({ m with state := .prepareSnapshot }, [])
    else m.answer c c.outcomes.prepareSnapshot
  | .takePicture =>
    if m.hwi.params.recordingHint = false then
      let r := m.hwi.takePicture c.outcomes
      if m.hwi.params.zslMode then
        c.done (if r.1 ≠ .noError then .previewing else .previewPicTaking) r
      else c.done (if r.1 ≠ .noError then .previewStopped else .picTaking) r
    else
      let r := m.hwi.takeLiveSnapshot c.outcomes
      c.done (if r.1 ≠ .noError then .previewing else .previewPicTaking) r
  | .setPreviewWindow | .cancelPicture | .stopRecording | .releaseRecordingFrame
  | .release => m.reject c
  | .evtInternal => m.internalEvt c
  | .evtNotify => m.evtNotify c
  | .thermalNotify => m.thermalNotify c
  | .snapshotDone => c.ended m.state (.noError, m.hwi)
  | .jpegEvtNotify => (m, [])

def procEvtPrepareSnapshotState (c : Call) (m : Machine) : Machine × List Signal :=
  match c.evt with
  | .setPreviewWindow | .setCallbacks | .enableMsgType | .disableMsgType | .msgTypeEnabled
  | .setParams | .getParams | .putParams | .startPreview | .startNodisplayPreview | .stopPreview
  | .previewEnabled | .recordingEnabled | .storeMetadataInBufs | .dump | .startAutoFocus
  | .stopAutoFocus | .startRecording | .takePicture | .prepareSnapshot | .sendCommand
  | .cancelPicture | .stopRecording | .releaseRecordingFrame | .release => m.reject c
  | .evtInternal =>
    if c.internal = .prepSnapshotDone then
      ({ m with state := .previewing }, [.api ⟨.noError, .prepareSnapshot, .default⟩])
    else m.internalEvt c
  | .evtNotify => m.evtNotify c
  | .snapshotDone => c.ended m.state (.noError, m.hwi)
  | .thermalNotify | .jpegEvtNotify => (m, [])
  -- the enumeration goes on, the cases of this handler do not
  | .regFaceImage => (m, [])

def procEvtPicTakingState (c : Call) (m : Machine) : Machine × List Signal :=
  match c.evt with
  | .setCallbacks | .enableMsgType | .disableMsgType | .msgTypeEnabled | .getParams | .putParams
  | .storeMetadataInBufs | .dump | .startAutoFocus | .stopAutoFocus | .sendCommand
  | .regFaceImage => m.serve c
  | .setParams => m.setParams c
  | .stopPreview | .cancelPicture => c.done .previewStopped (m.hwi.cancelPicture c.outcomes)
  | .previewEnabled | .recordingEnabled => m.answerFlag c 0
  | .setPreviewWindow | .prepareSnapshot | .takePicture | .startRecording | .stopRecording
  | .releaseRecordingFrame | .startPreview | .startNodisplayPreview | .release => m.reject c
  | .evtInternal => m.internalEvt c
  | .evtNotify => m.evtNotify c
  | .snapshotDone => c.ended .previewStopped (m.hwi.cancelPicture c.outcomes)
  | .thermalNotify => m.thermalNotify c
  | .jpegEvtNotify => (m, [])

def procEvtRecordingState (c : Call) (m : Machine) : Machine × List Signal :=
  match c.evt with
  | .setCallbacks | .enableMsgType | .disableMsgType | .msgTypeEnabled | .getParams | .putParams
  | .storeMetadataInBufs | .dump | .startAutoFocus | .stopAutoFocus | .sendCommand
  | .releaseRecordingFrame | .regFaceImage => m.serve c
  | .setParams => m.setParamsRecording c
  | .startPreview | .setPreviewWindow | .startRecording | .prepareSnapshot => m.answer c .noError
  | .previewEnabled => m.answerFlag c 0
  | .recordingEnabled => m.answerFlag c 1
  | .takePicture =>
    let r := m.hwi.takeLiveSnapshot c.outcomes
    c.done (if r.1 ≠ .noError then .recording else .videoPicTaking) r
  | .stopRecording => c.done .previewing (m.hwi.stopRecording c.outcomes)
  | .stopPreview =>
    c.done .previewStopped ((m.hwi.stopRecording c.outcomes).2.stopPreview c.outcomes)
  | .cancelPicture | .startNodisplayPreview | .release => m.reject c
  | .evtInternal => m.internalEvt c
  | .evtNotify => m.evtNotify c
  | .thermalNotify => m.thermalNotify c
  | .snapshotDone => c.ended m.state (.noError, m.hwi)
  | .jpegEvtNotify => (m, [])

def procEvtVideoPicTakingState (c : Call) (m : Machine) : Machine × List Signal :=
  match c.evt with
  | .setCallbacks | .enableMsgType | .disableMsgType | .msgTypeEnabled | .getParams | .putParams
  | .storeMetadataInBufs | .dump | .startAutoFocus | .stopAutoFocus | .sendCommand
  | .releaseRecordingFrame | .regFaceImage => m.serve c
  | .setParams => m.setParamsRecording c
  | .previewEnabled | .recordingEnabled => m.answerFlag c 1
  | .stopRecording => c.done .previewPicTaking (m.hwi.stopRecording c.outcomes)
  | .cancelPicture => c.done .recording (m.hwi.cancelLiveSnapshot c.outcomes)
  | .stopPreview =>
    let h := (m.hwi.cancelLiveSnapshot c.outcomes).2
    c.done .previewStopped ((h.stopRecording c.outcomes).2.stopPreview c.outcomes)
  | .setPreviewWindow | .startRecording | .startPreview | .startNodisplayPreview
  | .prepareSnapshot | .takePicture | .release => m.reject c
  | .evtInternal => m.internalEvt c
  | .evtNotify => m.evtNotify c
  | .snapshotDone => c.ended .recording (m.hwi.cancelLiveSnapshot c.outcomes)
  | .thermalNotify => m.thermalNotify c
  | .jpegEvtNotify => (m, [])

/-- The picture in progress is cancelled, by the mode in force now. -/
def cancelCurrent (o : Outcomes) (h : Hwi) : Status × Hwi :=
  if h.params.zslMode then h.cancelPicture o else h.cancelLiveSnapshot o

def procEvtPreviewPicTakingState (c : Call) (m : Machine) : Machine × List Signal :=
  match c.evt with
  | .setCallbacks | .enableMsgType | .disableMsgType | .msgTypeEnabled | .getParams | .putParams
  | .storeMetadataInBufs | .dump | .startAutoFocus | .stopAutoFocus | .sendCommand
  | .releaseRecordingFrame | .regFaceImage => m.serve c
  | .setParams => m.setParamsRestarting c .picTaking
  | .previewEnabled => m.answerFlag c 1
  | .recordingEnabled => m.answerFlag c 0
  | .cancelPicture => c.done .previewing (cancelCurrent c.outcomes m.hwi)
  | .stopPreview =>
    let r := cancelCurrent c.outcomes m.hwi
    let h := (r.2.stopChannel c.outcomes (if m.hwi.params.zslMode then .zsl else .preview)).2
    c.done .previewStopped (r.1, h.unpreparePreview)
  | .startRecording =>
    if m.hwi.params.zslMode then m.reject c
    else
      let r := m.hwi.startRecording c.outcomes
      c.done (if r.1 = .noError then .videoPicTaking else m.state) r
  | .stopRecording | .startPreview | .startNodisplayPreview | .prepareSnapshot | .takePicture
  | .setPreviewWindow | .release => m.reject c
  | .evtInternal => m.internalEvt c
  | .evtNotify => m.evtNotify c
  | .snapshotDone => c.ended .previewing (cancelCurrent c.outcomes m.hwi)
  | .thermalNotify => m.thermalNotify c
  | .jpegEvtNotify => (m, [])

/-- `stateMachine`: the handler of the state takes the event. -/
def stateMachine (m : Machine) (c : Call) : Machine × List Signal :=
  match m.state with
  | .previewStopped => m.procEvtPreviewStoppedState c
  | .previewReady => m.procEvtPreviewReadyState c
  | .previewing => m.procEvtPreviewingState c
  | .prepareSnapshot => m.procEvtPrepareSnapshotState c
  | .picTaking => m.procEvtPicTakingState c
  | .recording => m.procEvtRecordingState c
  | .videoPicTaking => m.procEvtVideoPicTakingState c
  | .previewPicTaking => m.procEvtPreviewPicTakingState c

def step (m : Machine) (c : Call) : Option (Machine × List Signal) := some (m.stateMachine c)

def opened (p : Params) (inited : Bool) : Machine where
  state := .previewStopped
  hwi :=
    { channels := fun _ => none
      postproc := ⟨inited, false, fun h => nomatch h⟩
      params := p
      previewWindow := false
      msgEnabled := 0
      storeMetaDataInFrame := 0 }

end Machine

/-! ### A plain camera -/

def okOutcomes : Outcomes where
  addChannel _ := .noError
  startChannel _ := .noError
  stopChannel _ := .noError
  requestSuperBuf := .noError
  setParms := .noError
  setNumOfSnapshot := .noError
  hdrEnabled := false
  needReprocess := false
  addOnlineReprocChannel := true
  startReprocChannel := .noError
  prepareSnapshot := .noError
  releaseFrame _ := .noError
  service := .noError
  serviceCommits := false
  faceId := 0

def plainCall (evt : SmEvt) (o : Outcomes) : Call :=
  ⟨evt, true, 0, ⟨some .jpeg, none, none, .noError, false⟩, 0, .cropInfo, .other, o⟩

def plainParams : Params := ⟨false, false, false, false, some false, some false, none, .jpeg⟩

end Qcamera

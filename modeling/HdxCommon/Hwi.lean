/-
The camera hardware as the HAL drives it (`QCamera2HardwareInterface`).

The HAL holds an array of channels, a post-processor and the parameters that
decide which channel carries the preview.  What the calls to the backend return
is given from outside (`Outcomes`), one outcome for each call an event can make.

A channel counts as started while its `m_bIsActive` is set.  The destructor of
a channel stops it, so a deleted channel is not started.
-/
import Mathlib.Tactic

namespace Qcamera

/-! ### Parameters -/

/-- The codes the HAL returns itself, and those it passes on. -/
inductive Status where
  | noError | unknownError | invalidOperation | badValue
  /-- what an operation of the backend returned -/
  | error (code : ℕ)
  deriving DecidableEq, Repr

inductive PictureFormat where
  | jpeg | nv16 | raw
  deriving DecidableEq, Repr

/-- The parameters that select channels.  Mode and hint have a value in force
and one that the next commit puts in force; `zslKey` and `hintKey` are the
stored texts, `tempHint` the text of the hint in `m_tempMap`. -/
structure Params where
  zslMode : Bool
  zslModeNew : Bool
  recordingHint : Bool
  recordingHintNew : Bool
  zslKey : Option Bool
  hintKey : Option Bool
  tempHint : Option Bool
  pictureFormat : PictureFormat
  deriving DecidableEq, Repr

/-- What `updateParameters` reads in the string of the client.  A key is absent,
has an unknown text or a value; `othersRc` and `othersRestart` stand for the
setters of all other keys. -/
structure ParamString where
  pictureFormat : Option PictureFormat
  zsl : Option (Option Bool)
  recordingHint : Option (Option Bool)
  othersRc : Status
  othersRestart : Bool
  deriving DecidableEq, Repr

namespace Params

def initBatchUpdate (p : Params) : Params := { p with tempHint := none }

/-- `commitSetBatch` with `commitParamChanges`; `rc` is what `set_parms`
returns.  A batch that fails leaves the new values pending. -/
def commitSetBatch (rc : Status) (p : Params) : Status × Params :=
  if rc = .noError then
    (.noError, { p with
      hintKey := p.tempHint <|> p.hintKey
      tempHint := none
      recordingHint := p.recordingHintNew
      zslMode := p.zslModeNew })
  else (rc, p)

/-- A batch of other parameters, as for focus, face detection or thermal level. -/
def otherBatch (rc : Status) (p : Params) : Params := (p.initBatchUpdate.commitSetBatch rc).2

def setPictureFormat (s : ParamString) (p : Params) : Status × Params :=
  match s.pictureFormat with
  | some f => (.noError, { p with pictureFormat := f })
  | none => (.badValue, p)

/-- With the flag that the preview has to be restarted. -/
def setZslMode (s : ParamString) (p : Params) : Status × Bool × Params :=
  match s.zsl with
  | some (some v) =>
    if p.zslKey = some v then (.noError, false, p)
    else (.noError, true, { p with zslKey := some v, zslModeNew := v })
  | some none => (.badValue, false, p)
  | none => (.noError, false, p)

def setRecordingHintValue (v : Bool) (p : Params) : Bool × Params :=
  if p.recordingHint ≠ v then (true, { p with recordingHintNew := v })
  else (false, { p with recordingHintNew := p.recordingHint })

def setRecordingHint (s : ParamString) (p : Params) : Status × Bool × Params :=
  match s.recordingHint with
  | some (some v) =>
    if p.hintKey = some v then (.noError, false, p)
    else (.noError, setRecordingHintValue v { p with tempHint := some v })
  | some none => (.badValue, false, p)
  | none => (.noError, false, p)

/-- The setters run one after the other; the last failure is returned. -/
def updateParameters (s : ParamString) (p : Params) : Status × Bool × Params :=
  let (rcFormat, p) := setPictureFormat s p.initBatchUpdate
  let (rcZsl, restartZsl, p) := setZslMode s p
  let (rcHint, restartHint, p) := setRecordingHint s p
  let finalRc := [rcFormat, rcZsl, rcHint, s.othersRc].foldl
    (fun final rc => if rc = .noError then final else rc) .noError
  (finalRc, restartZsl || restartHint || s.othersRestart, p)

def updateRecordingHintValue (rc : Status) (v : Bool) (p : Params) : Params :=
  (((setRecordingHintValue v p.initBatchUpdate).2).commitSetBatch rc).2

/-- The preview is carried by the ZSL channel, not by the preview channel. -/
def zslPreview (p : Params) : Bool := p.zslMode && !p.recordingHint

end Params

/-! ### Channels and post-processor -/

inductive ChType where
  | zsl | capture | preview | video | snapshot | raw | metadata
  deriving DecidableEq, Repr

/-- A channel, as far as the HAL knows its state. -/
structure Channel where
  isActive : Bool
  deriving DecidableEq, Repr

/-- The post-processor; it is started while a start has had no stop.  Only an
initialised one starts. -/
structure Postproc where
  inited : Bool
  started : Bool
  inited_of_started : started = true → inited = true
  deriving DecidableEq

structure Outcomes where
  addChannel : ChType → Status
  startChannel : ChType → Status
  stopChannel : ChType → Status
  requestSuperBuf : Status
  /-- `set_parms` of the batch that the event commits -/
  setParms : Status
  setNumOfSnapshot : Status
  hdrEnabled : Bool
  needReprocess : Bool
  addOnlineReprocChannel : Bool
  startReprocChannel : Status
  prepareSnapshot : Status
  /-- the video stream takes a frame back, which may hold meta data -/
  releaseFrame : Bool → Status
  /-- the other operations, that touch no channel; some commit a batch -/
  service : Status
  serviceCommits : Bool
  faceId : ℤ

namespace Postproc

/-- `start` of the post-processor for a source channel that may be missing. -/
def start (o : Outcomes) (src : Option Channel) (p : Postproc) : Status × Postproc :=
  if h : p.inited then
    if o.needReprocess then
      if src.isSome ∧ o.addOnlineReprocChannel then
        if o.startReprocChannel = .noError then (.noError, ⟨p.inited, true, fun _ => h⟩)
        else (o.startReprocChannel, p)
      else (.unknownError, p)
    else (.noError, ⟨p.inited, true, fun _ => h⟩)
  else (.unknownError, p)

def stop (p : Postproc) : Postproc :=
  if p.inited then ⟨p.inited, false, fun h => nomatch h⟩ else p

end Postproc

/-- `QCamera2HardwareInterface`. -/
structure Hwi where
  channels : ChType → Option Channel
  postproc : Postproc
  params : Params
  /-- `mPreviewWindow` is set -/
  previewWindow : Bool
  msgEnabled : UInt32
  storeMetaDataInFrame : ℤ

namespace Hwi

def started (h : Hwi) (ch : ChType) : Bool := (h.channels ch).any Channel.isActive

/-- A channel that carries the preview is started. -/
def previewStarted (h : Hwi) : Bool := h.started .zsl || h.started .preview

def setChannel (h : Hwi) (ch : ChType) (x : Option Channel) : Hwi :=
  { h with channels := Function.update h.channels ch x }

def withParams (h : Hwi) (p : Params) : Hwi := { h with params := p }

def withPostproc (h : Hwi) (p : Postproc) : Hwi := { h with postproc := p }

/-! ### Operations on channels -/

/-- The `add…Channel` functions: an old channel is deleted first. -/
def addChannel (o : Outcomes) (ch : ChType) (h : Hwi) : Status × Hwi :=
  if o.addChannel ch = .noError then (.noError, h.setChannel ch (some ⟨false⟩))
  else (o.addChannel ch, h.setChannel ch none)

def delChannel (ch : ChType) (h : Hwi) : Hwi := h.setChannel ch none

/-- A start that fails leaves the channel as it is. -/
def startChannel (o : Outcomes) (ch : ChType) (h : Hwi) : Status × Hwi :=
  match h.channels ch with
  | none => (.unknownError, h)
  | some c =>
    if o.startChannel ch = .noError then
      (.noError, h.setChannel ch (some { c with isActive := true }))
    else (o.startChannel ch, h)

/-- A channel counts as stopped whatever the backend says. -/
def stopChannel (o : Outcomes) (ch : ChType) (h : Hwi) : Status × Hwi :=
  match h.channels ch with
  | none => (.unknownError, h)
  | some c => (o.stopChannel ch, h.setChannel ch (some { c with isActive := false }))

def startPostproc (o : Outcomes) (src : ChType) (h : Hwi) : Status × Hwi :=
  ((h.postproc.start o (h.channels src)).1,
    h.withPostproc (h.postproc.start o (h.channels src)).2)

def stopPostproc (h : Hwi) : Hwi := h.withPostproc h.postproc.stop

/-! ### Preview -/

def setPreviewWindow (window : Bool) (h : Hwi) : Status × Hwi :=
  (.noError, { h with previewWindow := window })

def preparePreview (o : Outcomes) (h : Hwi) : Status × Hwi :=
  if h.params.zslPreview then h.addChannel o .zsl
  else
    let recordingHint := h.params.recordingHint
    let (rc, h) := if recordingHint then
        let (rc, h) := h.addChannel o .snapshot
        if rc ≠ .noError then (rc, h)
        else
          let (rc, h) := h.addChannel o .video
          if rc ≠ .noError then (rc, h.delChannel .snapshot) else (rc, h)
      else (.noError, h)
    if rc ≠ .noError then (rc, h)
    else
      let (rc, h) := h.addChannel o .preview
      if rc ≠ .noError ∧ recordingHint then (rc, (h.delChannel .snapshot).delChannel .video)
      else (rc, h)

def unpreparePreview (h : Hwi) : Hwi :=
  (((h.delChannel .zsl).delChannel .preview).delChannel .video).delChannel .snapshot

def startPreview (o : Outcomes) (h : Hwi) : Status × Hwi :=
  if h.params.zslPreview then h.startChannel o .zsl else h.startChannel o .preview

def stopPreview (o : Outcomes) (h : Hwi) : Status × Hwi :=
  (.noError, ((h.stopChannel o .zsl).2.stopChannel o .preview).2.unpreparePreview)

/-! ### Recording and pictures -/

def startPreparedPreview (o : Outcomes) (h : Hwi) : Status × Hwi :=
  let (rc, h) := h.preparePreview o
  if rc = .noError then h.startChannel o .preview else (rc, h)

/-- The preview is stopped and started again with the recording hint set, which
puts it on the preview channel. -/
def restartWithHint (o : Outcomes) (h : Hwi) : Status × Hwi :=
  let h := (h.stopPreview o).2
  (h.withParams (h.params.updateRecordingHintValue o.setParms true)).startPreparedPreview o

def startRecording (o : Outcomes) (h : Hwi) : Status × Hwi :=
  let (rc, h) := if h.params.recordingHint = false then h.restartWithHint o else (.noError, h)
  if rc = .noError then h.startChannel o .video else (rc, h)

def stopRecording (o : Outcomes) (h : Hwi) : Status × Hwi := h.stopChannel o .video

/-- The picture of a channel made for it; the post-processor's answer is not
looked at. -/
def takeOn (o : Outcomes) (ch : ChType) (h : Hwi) : Status × Hwi :=
  let (rc, h) := h.addChannel o ch
  if rc = .noError then
    let h := (h.startPostproc o ch).2
    let (rc, h) := h.startChannel o ch
    if rc ≠ .noError then (rc, h.stopPostproc.delChannel ch) else (rc, h)
  else (rc, h)

def pictureChannel (h : Hwi) : ChType :=
  if h.params.pictureFormat = .jpeg ∨ h.params.pictureFormat = .nv16 then .capture else .raw

def takePicture (o : Outcomes) (h : Hwi) : Status × Hwi :=
  if h.params.zslMode then
    match h.channels .zsl with
    | some _ =>
      let h := (h.startPostproc o .zsl).2
      if o.requestSuperBuf ≠ .noError then (o.requestSuperBuf, h.stopPostproc)
      else (.noError, h)
    | none => (.unknownError, h)
  else
    let h := (h.stopChannel o .preview).2.delChannel .preview
    let (rc, h) := if o.hdrEnabled then
        -- `setHDRAEBracket` commits a batch of its own
        let (rc, p) := h.params.initBatchUpdate.commitSetBatch o.setParms
        (rc, h.withParams p)
      else (.noError, h)
    if rc ≠ .noError then (rc, h) else h.takeOn o h.pictureChannel

def cancelPicture (o : Outcomes) (h : Hwi) : Status × Hwi :=
  let h := h.stopPostproc
  if h.params.zslMode then (.noError, h)
  else
    let h := if o.hdrEnabled then h.withParams (h.params.otherBatch o.setParms) else h
    (.noError, (h.stopChannel o h.pictureChannel).2.delChannel h.pictureChannel)

def takeLiveSnapshot (o : Outcomes) (h : Hwi) : Status × Hwi :=
  let (rc, h) := h.startPostproc o .snapshot
  if rc = .noError then h.startChannel o .snapshot else (rc, h)

def cancelLiveSnapshot (o : Outcomes) (h : Hwi) : Status × Hwi :=
  h.stopPostproc.stopChannel o .snapshot

def release (h : Hwi) : Status × Hwi := (.noError, { h with channels := fun _ => none })

/-! ### Parameters and services -/

def updateParameters (s : ParamString) (h : Hwi) : Status × Bool × Hwi :=
  let (rc, needRestart, p) := h.params.updateParameters s
  (rc, needRestart, h.withParams p)

def commitParameterChanges (o : Outcomes) (h : Hwi) : Status × Hwi :=
  let (rc, p) := h.params.commitSetBatch o.setParms
  (if rc = .noError then o.setNumOfSnapshot else rc, h.withParams p)

/-- An operation that touches no channel, but may commit a batch: auto focus,
commands, focus events, thermal level. -/
def service (o : Outcomes) (h : Hwi) : Status × Hwi :=
  (o.service, if o.serviceCommits then h.withParams (h.params.otherBatch o.setParms) else h)

def releaseRecordingFrame (o : Outcomes) (h : Hwi) : Status × Hwi :=
  (if (h.channels .video).isSome then o.releaseFrame (decide (h.storeMetaDataInFrame > 0))
    else .unknownError, h)

/-! ### Which channels an operation starts -/

section Started

variable (o : Outcomes) (h : Hwi) (ch d : ChType)

@[simp] theorem channels_setChannel (x : Option Channel) :
    (h.setChannel ch x).channels d = if d = ch then x else h.channels d := by
  simp [setChannel, Function.update_apply]

@[simp] theorem started_setChannel (x : Option Channel) :
    (h.setChannel ch x).started d = if d = ch then x.any Channel.isActive else h.started d := by
  by_cases hd : d = ch <;> simp [started, hd]

@[simp] theorem params_setChannel (x : Option Channel) :
    (h.setChannel ch x).params = h.params := rfl

@[simp] theorem postproc_setChannel (x : Option Channel) :
    (h.setChannel ch x).postproc = h.postproc := rfl

@[simp] theorem started_withParams (p : Params) : (h.withParams p).started d = h.started d := rfl

@[simp] theorem params_withParams (p : Params) : (h.withParams p).params = p := rfl

@[simp] theorem postproc_withParams (p : Params) : (h.withParams p).postproc = h.postproc := rfl

@[simp] theorem started_withPostproc (p : Postproc) :
    (h.withPostproc p).started d = h.started d := rfl

@[simp] theorem postproc_withPostproc (p : Postproc) : (h.withPostproc p).postproc = p := rfl

@[simp] theorem addChannel_fst : (h.addChannel o ch).1 = o.addChannel ch := by
  unfold addChannel
  split <;> simp_all

@[simp] theorem addChannel_snd :
    (h.addChannel o ch).2 =
      h.setChannel ch (if o.addChannel ch = .noError then some ⟨false⟩ else none) := by
  unfold addChannel
  split <;> rfl

@[simp] theorem started_delChannel :
    (h.delChannel ch).started d = if d = ch then false else h.started d := by
  simp [delChannel]

@[simp] theorem params_delChannel : (h.delChannel ch).params = h.params := rfl

@[simp] theorem postproc_delChannel : (h.delChannel ch).postproc = h.postproc := rfl

theorem startChannel_fst_eq_noError :
    (h.startChannel o ch).1 = .noError ↔
      (h.channels ch).isSome ∧ o.startChannel ch = .noError := by
  unfold startChannel
  cases h.channels ch with
  | none => simp
  | some c =>
    by_cases hrc : o.startChannel ch = .noError <;> simp [hrc]

@[simp] theorem started_startChannel :
    (h.startChannel o ch).2.started d =
      if d = ch ∧ (h.startChannel o ch).1 = .noError then true else h.started d := by
  unfold startChannel
  cases h.channels ch with
  | none => simp
  | some c =>
    by_cases hrc : o.startChannel ch = .noError <;> by_cases hd : d = ch <;> simp [hrc, hd]

@[simp] theorem params_startChannel : (h.startChannel o ch).2.params = h.params := by
  unfold startChannel
  split
  · rfl
  · split <;> rfl

@[simp] theorem postproc_startChannel : (h.startChannel o ch).2.postproc = h.postproc := by
  unfold startChannel
  split
  · rfl
  · split <;> rfl

@[simp] theorem started_stopChannel :
    (h.stopChannel o ch).2.started d = if d = ch then false else h.started d := by
  unfold stopChannel
  cases hch : h.channels ch with
  | none =>
    by_cases hd : d = ch
    · subst hd
      simp [started, hch]
    · simp [hd]
  | some c => simp

@[simp] theorem params_stopChannel : (h.stopChannel o ch).2.params = h.params := by
  unfold stopChannel
  split <;> rfl

@[simp] theorem postproc_stopChannel : (h.stopChannel o ch).2.postproc = h.postproc := by
  unfold stopChannel
  split <;> rfl

end Started

end Hwi

end Qcamera

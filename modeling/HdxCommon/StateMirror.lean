/-
Does the state of the HAL mirror the hardware?

A state says whether a channel that carries the preview is started, whether the
video channel is, and whether the post-processor has been started without being
stopped (`SmState.shown`).  Every step keeps the hardware in agreement with it,
except for four ways to fail half-way, which `Clean` rules out.

* `mirrors_stateMachine_iff` — an event keeps the agreement exactly if it is
  clean;
* `state_mirrors_hardware` — so runs of clean events mirror the hardware.
-/
import HdxCommon.StateMachine

namespace Qcamera

/-- What a state says about the hardware: preview and video channel started,
post-processor started. -/
structure Shown where
  preview : Bool
  video : Bool
  postproc : Bool
  deriving DecidableEq, Repr

namespace Hwi

def shown (h : Hwi) : Shown := ⟨h.previewStarted, h.started .video, h.postproc.started⟩

end Hwi

def SmState.isRecording : SmState → Bool
  | .recording | .videoPicTaking => true
  | _ => false

def SmState.isPicTaking : SmState → Bool
  | .picTaking | .videoPicTaking | .previewPicTaking => true
  | _ => false

def SmState.shown (s : SmState) : Shown := ⟨s.isPreviewRunning, s.isRecording, s.isPicTaking⟩

@[simp] theorem SmState.shown_recording : SmState.recording.shown = ⟨true, true, false⟩ := rfl

@[simp] theorem SmState.shown_videoPicTaking :
    SmState.videoPicTaking.shown = ⟨true, true, true⟩ := rfl

@[simp] theorem SmState.shown_previewing : SmState.previewing.shown = ⟨true, false, false⟩ := rfl

@[simp] theorem SmState.shown_previewPicTaking :
    SmState.previewPicTaking.shown = ⟨true, false, true⟩ := rfl

@[simp] theorem SmState.shown_previewStopped :
    SmState.previewStopped.shown = ⟨false, false, false⟩ := rfl

@[simp] theorem SmState.shown_picTaking : SmState.picTaking.shown = ⟨false, false, true⟩ := rfl

/-- The state mirrors the hardware. -/
def Mirrors (m : Machine) : Prop := m.hwi.shown = m.state.shown

instance (m : Machine) : Decidable (Mirrors m) := inferInstanceAs (Decidable (_ = _))

/-! ### Where the agreement is lost -/

/-- After `startRecording` has stopped the preview, it comes up again.  With a
hint that could not be set the preview must not be one for ZSL. -/
def PreviewRestarts (o : Outcomes) (p : Params) : Prop :=
  (if o.setParms = .noError then o.addChannel .snapshot = .noError ∧ o.addChannel .video = .noError
    else p.zslMode = false) ∧
  o.addChannel .preview = .noError ∧ o.startChannel .preview = .noError

def PostprocStarts (o : Outcomes) (h : Hwi) (src : Bool) : Prop :=
  h.postproc.inited ∧
    (o.needReprocess →
      src ∧ o.addOnlineReprocChannel ∧ o.startReprocChannel = .noError)

instance (o : Outcomes) (h : Hwi) (src : Bool) : Decidable (PostprocStarts o h src) :=
  inferInstanceAs (Decidable (_ ∧ _))

/-- A live snapshot that starts the post-processor also starts its channel. -/
def LiveSnapshotClean (o : Outcomes) (h : Hwi) : Prop :=
  PostprocStarts o h (h.channels .snapshot).isSome →
    (h.channels .snapshot).isSome ∧ o.startChannel .snapshot = .noError

/-- A ZSL picture that is asked for has the post-processor started. -/
def ZslPictureClean (o : Outcomes) (h : Hwi) : Prop :=
  (h.channels .zsl).isSome → o.requestSuperBuf = .noError → PostprocStarts o h true

/-- A picture without ZSL is not taken while the ZSL channel streams, and one
whose channel starts has the post-processor started. -/
def PictureClean (o : Outcomes) (h : Hwi) : Prop :=
  h.started .zsl = false ∧
    ((o.hdrEnabled → o.setParms = .noError) → o.addChannel h.pictureChannel = .noError →
      o.startChannel h.pictureChannel = .noError → PostprocStarts o h true)

/-- No event fails half-way. -/
def Clean (m : Machine) (c : Call) : Prop :=
  match m.state, c.evt with
  | .previewing, .startRecording =>
    m.hwi.params.recordingHint = false → PreviewRestarts c.outcomes m.hwi.params
  | .previewPicTaking, .startRecording =>
    m.hwi.params.zslMode = false → m.hwi.params.recordingHint = false →
      PreviewRestarts c.outcomes m.hwi.params
  | .previewing, .takePicture =>
    if m.hwi.params.recordingHint then LiveSnapshotClean c.outcomes m.hwi
    else if m.hwi.params.zslMode then ZslPictureClean c.outcomes m.hwi
    else PictureClean c.outcomes m.hwi
  | .recording, .takePicture => LiveSnapshotClean c.outcomes m.hwi
  | _, _ => True

/-! ### What the operations leave -/

section Operations

variable (o : Outcomes) (h : Hwi)

namespace Hwi

@[simp] theorem shown_updateParameters (s : ParamString) :
    (h.updateParameters s).2.2.shown = h.shown := rfl

@[simp] theorem shown_commitParameterChanges :
    (h.commitParameterChanges o).2.shown = h.shown := rfl

@[simp] theorem shown_service : (h.service o).2.shown = h.shown := by
  unfold service
  split <;> rfl

@[simp] theorem shown_unpreparePreview :
    h.unpreparePreview.shown = ⟨false, false, h.postproc.started⟩ := by
  simp [shown, previewStarted, unpreparePreview, delChannel]

@[simp] theorem shown_stopPreview :
    (h.stopPreview o).2.shown = ⟨false, false, h.postproc.started⟩ := by
  simp [stopPreview]

@[simp] theorem shown_stopRecording :
    (h.stopRecording o).2.shown = ⟨h.previewStarted, false, h.postproc.started⟩ := by
  simp [stopRecording, shown, previewStarted]

@[simp] theorem shown_release : h.release.2.shown = ⟨false, false, h.postproc.started⟩ := rfl

@[simp] theorem started_stop (p : Postproc) : p.stop.started = false := by
  unfold Postproc.stop
  split
  · rfl
  · rename_i hinit
    by_contra hstarted
    exact hinit (p.inited_of_started (by simpa using hstarted))

@[simp] theorem shown_cancelLiveSnapshot :
    (h.cancelLiveSnapshot o).2.shown = ⟨h.previewStarted, h.started .video, false⟩ := by
  simp [cancelLiveSnapshot, stopPostproc, shown, previewStarted]

theorem pictureChannel_ne (ch : ChType) (h₁ : ch ≠ .capture) (h₂ : ch ≠ .raw) :
    ch ≠ h.pictureChannel := by
  unfold pictureChannel
  split
  · exact h₁
  · exact h₂

@[simp] theorem shown_cancelPicture :
    (h.cancelPicture o).2.shown = ⟨h.previewStarted, h.started .video, false⟩ := by
  simp only [cancelPicture]
  split
  · simp [stopPostproc, shown, previewStarted]
  · split <;> simp [stopPostproc, shown, previewStarted, pictureChannel_ne]

theorem shown_preparePreview {w : Bool} (hidle : h.shown = ⟨false, false, w⟩) :
    (h.preparePreview o).2.shown = ⟨false, false, w⟩ := by
  simp only [shown, previewStarted, Shown.mk.injEq, Bool.or_eq_false_iff] at hidle
  obtain ⟨⟨hzsl, hpreview⟩, hvideo, rfl⟩ := hidle
  have hoff : ∀ rc : Status, Option.any Channel.isActive
      (if rc = .noError then some ⟨false⟩ else none) = false := by
    intro rc
    split <;> rfl
  simp only [preparePreview]
  split_ifs <;> simp [shown, previewStarted, hzsl, hpreview, hvideo, hoff]

theorem shown_startPreview {w : Bool} (hidle : h.shown = ⟨false, false, w⟩) :
    (h.startPreview o).2.shown = ⟨decide ((h.startPreview o).1 = .noError), false, w⟩ := by
  simp only [shown, previewStarted, Shown.mk.injEq, Bool.or_eq_false_iff] at hidle
  obtain ⟨⟨hzsl, hpreview⟩, hvideo, rfl⟩ := hidle
  unfold startPreview
  split
  · by_cases hrc : (h.startChannel o .zsl).1 = .noError <;>
      simp [shown, previewStarted, hzsl, hpreview, hvideo, hrc]
  · by_cases hrc : (h.startChannel o .preview).1 = .noError <;>
      simp [shown, previewStarted, hzsl, hpreview, hvideo, hrc]

@[simp] theorem params_preparePreview : (h.preparePreview o).2.params = h.params := by
  simp only [preparePreview]
  split_ifs <;> simp

/-- Exactly what `preparePreview` needs. -/
theorem preparePreview_fst_eq_noError (hzsl : h.params.zslPreview = false) :
    (h.preparePreview o).1 = .noError ↔
      (h.params.recordingHint →
        o.addChannel .snapshot = .noError ∧ o.addChannel .video = .noError) ∧
      o.addChannel .preview = .noError := by
  simp only [preparePreview, hzsl]
  split_ifs <;> simp_all

theorem preview_preparePreview (hzsl : h.params.zslPreview = false)
    (hrc : (h.preparePreview o).1 = .noError) :
    (h.preparePreview o).2.channels .preview = some ⟨false⟩ := by
  have hadd := ((preparePreview_fst_eq_noError o h hzsl).mp hrc).2
  simp only [preparePreview, hzsl] at hrc ⊢
  split_ifs at hrc ⊢ <;> simp_all

theorem startPreparedPreview_fst_eq_noError (hzsl : h.params.zslPreview = false) :
    (h.startPreparedPreview o).1 = .noError ↔
      ((h.params.recordingHint →
        o.addChannel .snapshot = .noError ∧ o.addChannel .video = .noError) ∧
      o.addChannel .preview = .noError) ∧ o.startChannel .preview = .noError := by
  rw [← preparePreview_fst_eq_noError o h hzsl]
  simp only [startPreparedPreview]
  split
  · rename_i hrc
    rw [startChannel_fst_eq_noError, preview_preparePreview o h hzsl hrc]
    simp [hrc]
  · rename_i hrc
    simp [hrc]

/-- With a preview for ZSL prepared there is no preview channel to start. -/
theorem startPreparedPreview_zsl (hzsl : h.params.zslPreview = true)
    (hnone : h.channels .preview = none) : (h.startPreparedPreview o).1 ≠ .noError := by
  have hprep : h.preparePreview o = h.addChannel o .zsl := by simp [preparePreview, hzsl]
  simp only [startPreparedPreview, hprep, addChannel_fst, addChannel_snd]
  split
  · rw [Ne, startChannel_fst_eq_noError, channels_setChannel]
    simp [hnone]
  · assumption

theorem shown_startPreparedPreview {w : Bool} (hidle : h.shown = ⟨false, false, w⟩) :
    (h.startPreparedPreview o).2.shown =
      ⟨decide ((h.startPreparedPreview o).1 = .noError), false, w⟩ := by
  have hprep := shown_preparePreview o h hidle
  simp only [startPreparedPreview]
  split
  · simp only [shown, previewStarted, Shown.mk.injEq, Bool.or_eq_false_iff] at hprep ⊢
    by_cases hrc : ((h.preparePreview o).2.startChannel o .preview).1 = .noError <;>
      simp [hprep, hrc]
  · rename_i hrc
    simp [hprep, hrc]

theorem updateRecordingHintValue_true (rc : Status) (p : Params) (hhint : p.recordingHint = false) :
    (p.updateRecordingHintValue rc true).recordingHint = decide (rc = .noError) ∧
      (rc ≠ .noError → (p.updateRecordingHintValue rc true).zslMode = p.zslMode) := by
  by_cases hrc : rc = .noError <;>
    simp [Params.updateRecordingHintValue, Params.setRecordingHintValue, Params.commitSetBatch,
      Params.initBatchUpdate, hhint, hrc]

theorem restartWithHint_fst_eq_noError (hhint : h.params.recordingHint = false) :
    (h.restartWithHint o).1 = .noError ↔ PreviewRestarts o h.params := by
  obtain ⟨hnew, hzsl⟩ := updateRecordingHintValue_true o.setParms h.params hhint
  have hparams : (h.stopPreview o).2.params = h.params := by simp [stopPreview, unpreparePreview]
  simp only [restartWithHint, hparams]
  by_cases hset : o.setParms = .noError
  · -- the hint is set
    rw [decide_eq_true hset] at hnew
    rw [startPreparedPreview_fst_eq_noError, PreviewRestarts, if_pos hset, and_assoc]
    · simp [hnew]
    · simp [Params.zslPreview, hnew]
  · by_cases hzm : h.params.zslMode = true
    · -- it is not, and the preview is for ZSL
      have hfail := startPreparedPreview_zsl o
        ((h.stopPreview o).2.withParams (h.params.updateRecordingHintValue o.setParms true))
        (by simp [Params.zslPreview, hnew, hset, hzsl hset, hzm])
        (by simp [withParams, stopPreview, unpreparePreview, delChannel])
      simp [PreviewRestarts, hfail, hset, hzm]
    · rw [startPreparedPreview_fst_eq_noError, PreviewRestarts, if_neg hset, and_assoc]
      · simp [hnew, hset, hzm]
      · simp [Params.zslPreview, hzsl hset, hzm]

theorem shown_restartWithHint :
    (h.restartWithHint o).2.shown =
      ⟨decide ((h.restartWithHint o).1 = .noError), false, h.postproc.started⟩ :=
  shown_startPreparedPreview o _ (shown_stopPreview o h)

theorem shown_startRecording :
    (h.startRecording o).2.shown =
      ⟨if h.params.recordingHint then h.previewStarted
        else decide ((h.restartWithHint o).1 = .noError),
        (h.params.recordingHint && h.started .video) || decide ((h.startRecording o).1 = .noError),
        h.postproc.started⟩ := by
  have hrestart := shown_restartWithHint o h
  simp only [shown, previewStarted, Shown.mk.injEq] at hrestart
  cases hhint : h.params.recordingHint with
  | false =>
    simp only [startRecording, hhint, if_true]
    split
    · rename_i hrc
      by_cases hv : ((h.restartWithHint o).2.startChannel o .video).1 = .noError <;>
        simp [shown, previewStarted, hrestart, hrc, hv]
    · rename_i hrc
      simp [shown, previewStarted, hrestart, hrc]
  | true =>
    by_cases hv : (h.startChannel o .video).1 = .noError <;>
      simp [startRecording, hhint, shown, previewStarted, hv]

/-- While the preview runs, `startRecording` keeps it exactly if it does not
have to restart it or can do so. -/
theorem shown_startRecording_iff (hon : h.previewStarted = true)
    (hvideo : h.started .video = false) :
    (h.startRecording o).2.shown =
        ⟨true, decide ((h.startRecording o).1 = .noError), h.postproc.started⟩ ↔
      (h.params.recordingHint = false → PreviewRestarts o h.params) := by
  rw [shown_startRecording, hon, hvideo]
  cases hhint : h.params.recordingHint with
  | true => simp
  | false =>
    rw [← restartWithHint_fst_eq_noError o h hhint]
    simp

/-! ### Pictures -/

theorem startPostproc_fst_eq_noError (src : ChType) :
    (h.startPostproc o src).1 = .noError ↔ PostprocStarts o h (h.channels src).isSome := by
  simp only [startPostproc, Postproc.start, PostprocStarts]
  split_ifs <;> simp_all

@[simp] theorem startPostproc_started (src : ChType) :
    (h.startPostproc o src).2.postproc.started =
      (h.postproc.started || decide ((h.startPostproc o src).1 = .noError)) := by
  simp only [startPostproc, Postproc.start, postproc_withPostproc]
  split_ifs <;> simp_all

@[simp] theorem started_startPostproc (src d : ChType) :
    (h.startPostproc o src).2.started d = h.started d := rfl

@[simp] theorem channels_startPostproc (src : ChType) :
    (h.startPostproc o src).2.channels = h.channels := rfl

theorem shown_takeLiveSnapshot :
    (h.takeLiveSnapshot o).2.shown =
      ⟨h.previewStarted, h.started .video,
        h.postproc.started || decide ((h.startPostproc o .snapshot).1 = .noError)⟩ := by
  simp only [takeLiveSnapshot]
  split <;> simp [shown, previewStarted]

theorem takeLiveSnapshot_fst_eq_noError :
    (h.takeLiveSnapshot o).1 = .noError ↔ (h.startPostproc o .snapshot).1 = .noError ∧
      (h.channels .snapshot).isSome ∧ o.startChannel .snapshot = .noError := by
  simp only [takeLiveSnapshot]
  split
  · rename_i hrc
    simp [startChannel_fst_eq_noError, hrc]
  · rename_i hrc
    simp [hrc]

/-- A live snapshot leaves the post-processor started exactly when it succeeds,
if it is clean. -/
theorem liveSnapshotClean_iff :
    LiveSnapshotClean o h ↔
      ((h.startPostproc o .snapshot).1 = .noError ↔ (h.takeLiveSnapshot o).1 = .noError) := by
  rw [takeLiveSnapshot_fst_eq_noError, startPostproc_fst_eq_noError, LiveSnapshotClean]
  tauto

theorem shown_takePicture_zsl (hzsl : h.params.zslMode = true)
    (hstopped : h.postproc.started = false) :
    (h.takePicture o).2.shown =
      ⟨h.previewStarted, h.started .video,
        decide ((h.takePicture o).1 = .noError ∧ (h.startPostproc o .zsl).1 = .noError)⟩ := by
  simp only [takePicture, hzsl, if_true]
  cases hch : h.channels .zsl with
  | none => simp [shown, hstopped]
  | some ch =>
    by_cases hreq : o.requestSuperBuf = .noError <;>
      simp [shown, previewStarted, stopPostproc, hreq, hstopped]

theorem takePicture_zsl_fst_eq_noError (hzsl : h.params.zslMode = true) :
    (h.takePicture o).1 = .noError ↔
      (h.channels .zsl).isSome ∧ o.requestSuperBuf = .noError := by
  simp only [takePicture, hzsl, if_true]
  cases hch : h.channels .zsl with
  | none => simp
  | some ch => by_cases hreq : o.requestSuperBuf = .noError <;> simp [hreq]

/-- A picture on a channel of its own leaves the post-processor started only if
the channel is. -/
theorem shown_takeOn (ch : ChType) (hch : ch ≠ .zsl ∧ ch ≠ .preview ∧ ch ≠ .video)
    (hstopped : h.postproc.started = false) :
    (h.takeOn o ch).2.shown =
      ⟨h.previewStarted, h.started .video,
        decide ((h.takeOn o ch).1 = .noError ∧ PostprocStarts o h true)⟩ := by
  obtain ⟨hzsl, hpreview, hvideo⟩ := hch
  simp only [takeOn, addChannel_fst, addChannel_snd]
  by_cases hadd : o.addChannel ch = .noError
  swap
  · simp [hadd, shown, previewStarted, hzsl.symm, hpreview.symm, hvideo.symm, hstopped]
  simp only [hadd, if_true]
  have hpost : ((h.setChannel ch (some ⟨false⟩)).startPostproc o ch).1 = .noError ↔
      PostprocStarts o h true := by
    rw [startPostproc_fst_eq_noError, channels_setChannel]
    simp [PostprocStarts]
  split_ifs with hrc
  · simp [shown, previewStarted, stopPostproc, hrc, hzsl.symm, hpreview.symm, hvideo.symm]
  · rw [not_not] at hrc
    simp [shown, previewStarted, hrc, hzsl.symm, hpreview.symm, hvideo.symm, hstopped, hpost]

theorem takeOn_fst_eq_noError (ch : ChType) :
    (h.takeOn o ch).1 = .noError ↔
      o.addChannel ch = .noError ∧ o.startChannel ch = .noError := by
  simp only [takeOn, addChannel_fst, addChannel_snd]
  by_cases hadd : o.addChannel ch = .noError
  swap
  · simp [hadd]
  simp only [hadd, if_true]
  have hstart : (((h.setChannel ch (some ⟨false⟩)).startPostproc o ch).2.startChannel o ch).1 =
      .noError ↔ o.startChannel ch = .noError := by
    simp [startChannel_fst_eq_noError]
  rw [true_and, ← hstart]
  split <;> rfl

/-- The hardware when a picture without ZSL is taken: preview stopped and
deleted, the batch for HDR committed. -/
def pictureReady (o : Outcomes) (h : Hwi) : Hwi :=
  let h := (h.stopChannel o .preview).2.delChannel .preview
  if o.hdrEnabled then h.withParams (h.params.otherBatch o.setParms) else h

theorem pictureChannel_pictureReady : (h.pictureReady o).pictureChannel = h.pictureChannel := by
  have hformat : (h.pictureReady o).params.pictureFormat = h.params.pictureFormat := by
    simp only [pictureReady]
    split
    · simp only [params_withParams, params_delChannel, params_stopChannel, Params.otherBatch,
        Params.commitSetBatch, Params.initBatchUpdate]
      split <;> rfl
    · simp
  simp [pictureChannel, hformat]

theorem takePicture_eq (hzsl : h.params.zslMode = false) :
    h.takePicture o =
      if o.hdrEnabled ∧ o.setParms ≠ .noError then (o.setParms, h.pictureReady o)
      else (h.pictureReady o).takeOn o h.pictureChannel := by
  rw [← pictureChannel_pictureReady o h]
  simp only [takePicture, hzsl, pictureReady, Params.otherBatch]
  by_cases hhdr : o.hdrEnabled = true
  · by_cases hset : o.setParms = .noError <;> simp [hhdr, hset, Params.commitSetBatch]
  · simp [hhdr]

theorem shown_takePicture (hzsl : h.params.zslMode = false)
    (hstopped : h.postproc.started = false) :
    (h.takePicture o).2.shown =
      ⟨h.started .zsl, h.started .video,
        decide ((h.takePicture o).1 = .noError ∧ PostprocStarts o h true)⟩ := by
  have hready : (h.pictureReady o).shown = ⟨h.started .zsl, h.started .video, false⟩ := by
    simp only [pictureReady]
    split <;> simp [shown, previewStarted, hstopped]
  have hpost : (h.pictureReady o).postproc = h.postproc := by
    simp only [pictureReady]
    split <;> simp
  rw [takePicture_eq o h hzsl]
  split
  · rename_i hfail
    simp [hready, hfail.2]
  · rw [shown_takeOn _ _ _ ⟨?_, ?_, ?_⟩ (by rw [hpost, hstopped])]
    · simp only [shown, Shown.mk.injEq] at hready
      simp [hready, PostprocStarts, hpost]
    all_goals exact (pictureChannel_ne _ _ (by decide) (by decide)).symm

theorem takePicture_fst_eq_noError (hzsl : h.params.zslMode = false) :
    (h.takePicture o).1 = .noError ↔ (o.hdrEnabled → o.setParms = .noError) ∧
      o.addChannel h.pictureChannel = .noError ∧ o.startChannel h.pictureChannel = .noError := by
  rw [takePicture_eq o h hzsl]
  split
  · rename_i hfail
    simp [hfail]
  · rename_i hok
    rw [takeOn_fst_eq_noError]
    tauto

end Hwi

end Operations

/-! ### Events that keep the agreement -/

section Handlers

variable {m : Machine} {c : Call}

@[simp] theorem mirrors_done (s : SmState) (r : Status × Hwi) :
    Mirrors (c.done s r).1 ↔ r.2.shown = s.shown := Iff.rfl

theorem mirrors_done_iff {r : Status × Hwi} (hr : r.2.shown = m.hwi.shown) :
    Mirrors (c.done m.state r).1 ↔ Mirrors m := by
  rw [mirrors_done, hr]
  rfl

namespace Machine

@[simp] theorem mirrors_answer (rc : Status) : Mirrors (m.answer c rc).1 ↔ Mirrors m := Iff.rfl

@[simp] theorem mirrors_reject : Mirrors (m.reject c).1 ↔ Mirrors m := Iff.rfl

@[simp] theorem mirrors_answerFlag (enabled : UInt32) :
    Mirrors (m.answerFlag c enabled).1 ↔ Mirrors m := Iff.rfl

@[simp] theorem mirrors_serve : Mirrors (m.serve c).1 ↔ Mirrors m := by
  unfold serve
  split <;> first | exact Iff.rfl | exact mirrors_done_iff (by simp)

@[simp] theorem mirrors_thermalNotify : Mirrors (m.thermalNotify c).1 ↔ Mirrors m := by
  simp [thermalNotify, Mirrors]

@[simp] theorem mirrors_internalEvt : Mirrors (m.internalEvt c).1 ↔ Mirrors m := by
  unfold internalEvt
  split <;> simp [Mirrors]

@[simp] theorem mirrors_evtNotify : Mirrors (m.evtNotify c).1 ↔ Mirrors m := by
  unfold evtNotify
  split <;> exact Iff.rfl

@[simp] theorem mirrors_setParams : Mirrors (m.setParams c).1 ↔ Mirrors m := by
  simp only [setParams]
  refine mirrors_done_iff ?_
  split <;> rfl

@[simp] theorem mirrors_setParamsRecording : Mirrors (m.setParamsRecording c).1 ↔ Mirrors m := by
  simp only [setParamsRecording]
  refine mirrors_done_iff ?_
  split_ifs <;> rfl

theorem shown_preparedStart (o : Outcomes) (h : Hwi) {w : Bool}
    (hidle : h.shown = ⟨false, false, w⟩) :
    (preparedStart o h).2.shown =
      ⟨decide ((preparedStart o h).1 = .noError), false, w⟩ := by
  have hprep := Hwi.shown_preparePreview o h hidle
  simp only [preparedStart]
  split
  · have hstart := Hwi.shown_startPreview o _ hprep
    split
    · rename_i hrc
      simp only [Hwi.shown, Shown.mk.injEq] at hstart
      simp [hrc, hstart]
    · exact hstart
  · rename_i hrc
    simp [hprep, hrc]

theorem mirrors_setParamsRestarting (hm : Mirrors m) (failed : SmState)
    (hrun : m.state.shown = ⟨true, false, m.state.isPicTaking⟩)
    (hfailed : failed.shown = ⟨false, false, m.state.isPicTaking⟩) :
    Mirrors (m.setParamsRestarting c failed).1 := by
  have hpost : m.hwi.postproc.started = m.state.isPicTaking := congrArg Shown.postproc hm
  have hidle : (((m.hwi.updateParameters c.parms).2.2.stopPreview
      c.outcomes).2.commitParameterChanges c.outcomes).2.shown =
      ⟨false, false, m.state.isPicTaking⟩ := by
    rw [Hwi.shown_commitParameterChanges, Hwi.shown_stopPreview, ← hpost]
    rfl
  have hstart := shown_preparedStart c.outcomes _ hidle
  simp only [setParamsRestarting]
  split_ifs with hrc hrestart hok
  · rw [mirrors_done, hstart, hfailed]
    simp [hok]
  · rw [mirrors_done, hstart, hrun]
    simp [not_not.mp hok]
  · exact (mirrors_done_iff (by simp)).mpr hm
  · exact hm

/-! ### The handlers -/

variable {h : Hwi}

theorem mirrors_previewStopped (hm : Mirrors ⟨.previewStopped, h⟩) :
    Mirrors (procEvtPreviewStoppedState c ⟨.previewStopped, h⟩).1 := by
  have hstart := shown_preparedStart c.outcomes h hm
  unfold procEvtPreviewStoppedState
  cases hevt : c.evt
  case startPreview =>
    simp only
    split
    · rw [mirrors_done, Hwi.shown_preparePreview _ _ hm]
      split <;> rfl
    · rw [mirrors_done, hstart]
      split_ifs with hrc <;> simp [hrc] <;> rfl
  case startNodisplayPreview =>
    rw [mirrors_done, hstart]
    split_ifs with hrc <;> simp [hrc] <;> rfl
  case release =>
    have hpost : h.postproc.started = false := congrArg Shown.postproc hm
    rw [mirrors_done, Hwi.shown_release, hpost]
    rfl
  case setPreviewWindow | snapshotDone => exact hm
  -- the other events leave the hardware as it is
  all_goals simpa using hm

theorem mirrors_previewReady (hm : Mirrors ⟨.previewReady, h⟩) :
    Mirrors (procEvtPreviewReadyState c ⟨.previewReady, h⟩).1 := by
  have hpost : h.postproc.started = false := congrArg Shown.postproc hm
  unfold procEvtPreviewReadyState
  cases hevt : c.evt
  case setPreviewWindow =>
    have hstart := Hwi.shown_startPreview c.outcomes (h.setPreviewWindow c.window).2 hm
    simp only
    split_ifs with hw hrc
    · rw [mirrors_done, Hwi.shown_unpreparePreview]
      simp only [Hwi.shown, Shown.mk.injEq] at hstart
      rw [hstart.2.2]
      rfl
    · rw [mirrors_done, hstart, not_not.mp hrc]
      rfl
    · exact hm
  case setParams =>
    have hidle : ((h.updateParameters c.parms).2.2.unpreparePreview.commitParameterChanges
        c.outcomes).2.shown = ⟨false, false, false⟩ := by
      rw [Hwi.shown_commitParameterChanges, Hwi.shown_unpreparePreview, ← hpost]
      rfl
    have hprep := Hwi.shown_preparePreview c.outcomes _ hidle
    simp only
    split_ifs with hrc hrestart hok
    · rw [mirrors_done, hprep]
      rfl
    · rw [mirrors_done, hprep]
      rfl
    · exact hm
    · exact hm
  case stopPreview =>
    rw [mirrors_done, Hwi.shown_unpreparePreview, hpost]
    rfl
  case snapshotDone => exact hm
  all_goals simpa using hm

theorem mirrors_prepareSnapshot (hm : Mirrors ⟨.prepareSnapshot, h⟩) :
    Mirrors (procEvtPrepareSnapshotState c ⟨.prepareSnapshot, h⟩).1 := by
  unfold procEvtPrepareSnapshotState
  cases hevt : c.evt
  case evtInternal =>
    simp only
    split
    · exact hm
    · simpa using hm
  case snapshotDone => exact hm
  all_goals simpa using hm

theorem mirrors_picTaking (hm : Mirrors ⟨.picTaking, h⟩) :
    Mirrors (procEvtPicTakingState c ⟨.picTaking, h⟩).1 := by
  have hcancel : (h.cancelPicture c.outcomes).2.shown = ⟨false, false, false⟩ := by
    have hoff : h.previewStarted = false := congrArg Shown.preview hm
    have hvideo : h.started .video = false := congrArg Shown.video hm
    rw [Hwi.shown_cancelPicture, hoff, hvideo]
  unfold procEvtPicTakingState
  cases hevt : c.evt
  case stopPreview | cancelPicture => exact hcancel
  case snapshotDone => exact hcancel
  all_goals simpa using hm

theorem mirrors_videoPicTaking (hm : Mirrors ⟨.videoPicTaking, h⟩) :
    Mirrors (procEvtVideoPicTakingState c ⟨.videoPicTaking, h⟩).1 := by
  have hon : h.previewStarted = true := congrArg Shown.preview hm
  have hcancel : (h.cancelLiveSnapshot c.outcomes).2.shown = ⟨true, true, false⟩ := by
    have hvideo : h.started .video = true := congrArg Shown.video hm
    rw [Hwi.shown_cancelLiveSnapshot, hon, hvideo]
  unfold procEvtVideoPicTakingState
  cases hevt : c.evt
  case stopRecording =>
    have hpost : h.postproc.started = true := congrArg Shown.postproc hm
    rw [mirrors_done, Hwi.shown_stopRecording, hon, hpost]
    rfl
  case cancelPicture | snapshotDone => exact hcancel
  case stopPreview =>
    rw [mirrors_done, Hwi.shown_stopPreview]
    have hstop := Hwi.shown_stopRecording c.outcomes (h.cancelLiveSnapshot c.outcomes).2
    simp only [Hwi.shown, Shown.mk.injEq] at hstop hcancel
    rw [hstop.2.2, hcancel.2.2]
    rfl
  all_goals simpa using hm

theorem mirrors_recording_iff (hm : Mirrors ⟨.recording, h⟩) :
    Mirrors (procEvtRecordingState c ⟨.recording, h⟩).1 ↔ Clean ⟨.recording, h⟩ c := by
  have hon : h.previewStarted = true := congrArg Shown.preview hm
  have hvideo : h.started .video = true := congrArg Shown.video hm
  have hpost : h.postproc.started = false := congrArg Shown.postproc hm
  unfold procEvtRecordingState
  cases hevt : c.evt
  case takePicture =>
    have hclean := Hwi.liveSnapshotClean_iff c.outcomes h
    simp only [Clean, hevt]
    rw [mirrors_done, Hwi.shown_takeLiveSnapshot, hon, hvideo, hpost, hclean]
    by_cases hrc : (h.takeLiveSnapshot c.outcomes).1 = .noError <;> simp [hrc]
  case stopRecording =>
    simp only [Clean, hevt, iff_true]
    rw [mirrors_done, Hwi.shown_stopRecording, hon, hpost]
    rfl
  case stopPreview =>
    have hstop := Hwi.shown_stopRecording c.outcomes h
    simp only [Hwi.shown, Shown.mk.injEq] at hstop
    simp only [Clean, hevt, iff_true]
    rw [mirrors_done, Hwi.shown_stopPreview, hstop.2.2, hpost]
    rfl
  case snapshotDone =>
    simp only [Clean, hevt, iff_true]
    exact hm
  all_goals simpa [Clean, hevt] using hm

theorem shown_cancelCurrent (o : Outcomes) :
    (cancelCurrent o h).2.shown = ⟨h.previewStarted, h.started .video, false⟩ := by
  unfold cancelCurrent
  split <;> simp

theorem mirrors_previewPicTaking_iff (hm : Mirrors ⟨.previewPicTaking, h⟩) :
    Mirrors (procEvtPreviewPicTakingState c ⟨.previewPicTaking, h⟩).1 ↔
      Clean ⟨.previewPicTaking, h⟩ c := by
  have hon : h.previewStarted = true := congrArg Shown.preview hm
  have hvideo : h.started .video = false := congrArg Shown.video hm
  have hpost : h.postproc.started = true := congrArg Shown.postproc hm
  have hcancel : (cancelCurrent c.outcomes h).2.shown = ⟨true, false, false⟩ := by
    rw [shown_cancelCurrent, hon, hvideo]
  unfold procEvtPreviewPicTakingState
  cases hevt : c.evt
  case setParams =>
    simp only [Clean, hevt, iff_true]
    exact mirrors_setParamsRestarting hm _ rfl rfl
  case cancelPicture | snapshotDone =>
    simp only [Clean, hevt, iff_true]
    exact hcancel
  case stopPreview =>
    simp only [Hwi.shown, Shown.mk.injEq] at hcancel
    simp only [Clean, hevt, iff_true]
    rw [mirrors_done, Hwi.shown_unpreparePreview, Hwi.postproc_stopChannel, hcancel.2.2]
    rfl
  case startRecording =>
    have hshown := Hwi.shown_startRecording_iff c.outcomes h hon hvideo
    simp only [Clean, hevt]
    cases hzsl : h.params.zslMode with
    | true => simpa using hm
    | false =>
      simp only [Bool.false_eq_true, if_false, true_imp_iff]
      rw [mirrors_done, ← hshown, hpost]
      by_cases hrc : (h.startRecording c.outcomes).1 = .noError <;> simp [hrc]
  all_goals simpa [Clean, hevt] using hm

theorem mirrors_previewing_iff (hm : Mirrors ⟨.previewing, h⟩) :
    Mirrors (procEvtPreviewingState c ⟨.previewing, h⟩).1 ↔ Clean ⟨.previewing, h⟩ c := by
  have hon : h.previewStarted = true := congrArg Shown.preview hm
  have hvideo : h.started .video = false := congrArg Shown.video hm
  have hpost : h.postproc.started = false := congrArg Shown.postproc hm
  unfold procEvtPreviewingState
  cases hevt : c.evt
  case setParams =>
    simp only [Clean, hevt, iff_true]
    exact mirrors_setParamsRestarting hm _ rfl rfl
  case stopPreview =>
    simp only [Clean, hevt, iff_true]
    rw [mirrors_done, Hwi.shown_stopPreview, hpost]
    rfl
  case startRecording =>
    simp only [Clean, hevt]
    rw [mirrors_done, ← Hwi.shown_startRecording_iff c.outcomes h hon hvideo, hpost]
    by_cases hrc : (h.startRecording c.outcomes).1 = .noError <;> simp [hrc]
  case prepareSnapshot =>
    simp only [Clean, hevt, iff_true]
    split <;> exact hm
  case takePicture =>
    simp only [Clean, hevt]
    cases hhint : h.params.recordingHint with
    | true =>
      have hclean := Hwi.liveSnapshotClean_iff c.outcomes h
      simp only [Bool.true_eq_false, if_false, if_true]
      rw [mirrors_done, Hwi.shown_takeLiveSnapshot, hon, hvideo, hpost, hclean]
      by_cases hrc : (h.takeLiveSnapshot c.outcomes).1 = .noError <;> simp [hrc]
    | false =>
      simp only [if_true, Bool.false_eq_true, if_false]
      cases hzsl : h.params.zslMode with
      | true =>
        have hok := Hwi.takePicture_zsl_fst_eq_noError c.outcomes h hzsl
        simp only [if_true]
        rw [mirrors_done, Hwi.shown_takePicture_zsl c.outcomes h hzsl hpost, hon, hvideo,
          ZslPictureClean, ← and_imp, ← hok]
        by_cases hrc : (h.takePicture c.outcomes).1 = .noError
        · simp [hrc, Hwi.startPostproc_fst_eq_noError, (hok.mp hrc).1]
        · simp [hrc]
      | false =>
        have hok := Hwi.takePicture_fst_eq_noError c.outcomes h hzsl
        simp only [Bool.false_eq_true, if_false]
        rw [mirrors_done, Hwi.shown_takePicture c.outcomes h hzsl hpost, hvideo, PictureClean,
          ← and_imp, ← and_imp, and_assoc, ← hok]
        by_cases hrc : (h.takePicture c.outcomes).1 = .noError <;> simp [hrc]
  case snapshotDone =>
    simp only [Clean, hevt, iff_true]
    exact hm
  all_goals simpa [Clean, hevt] using hm

/-- **An event keeps the agreement exactly if it is clean.** -/
theorem mirrors_stateMachine_iff (hm : Mirrors m) :
    Mirrors (m.stateMachine c).1 ↔ Clean m c := by
  obtain ⟨s, h⟩ := m
  cases s with
  | previewStopped =>
    simp only [stateMachine, Clean, iff_true]
    exact mirrors_previewStopped hm
  | previewReady =>
    simp only [stateMachine, Clean, iff_true]
    exact mirrors_previewReady hm
  | previewing => exact mirrors_previewing_iff hm
  | prepareSnapshot =>
    simp only [stateMachine, Clean, iff_true]
    exact mirrors_prepareSnapshot hm
  | picTaking =>
    simp only [stateMachine, Clean, iff_true]
    exact mirrors_picTaking hm
  | recording => exact mirrors_recording_iff hm
  | videoPicTaking =>
    simp only [stateMachine, Clean, iff_true]
    exact mirrors_videoPicTaking hm
  | previewPicTaking => exact mirrors_previewPicTaking_iff hm

end Machine

end Handlers

/-! ### Runs -/

theorem mirrors_opened (p : Params) (inited : Bool) : Mirrors (.opened p inited) := rfl

/-- **Runs of clean events mirror the hardware.**  After every event of such a
run the state says which channels are started and whether the post-processor
is, and the events that are not clean are those that end this. -/
theorem state_mirrors_hardware {p : Params} {inited : Bool} {m : Machine} {cs : List Call}
    {sigs : List Signal} (hrun : Runs Machine.step Clean (.opened p inited) cs sigs m) :
    Mirrors m ∧ ∀ c, Mirrors (m.stateMachine c).1 ↔ Clean m c := by
  have hm : Mirrors m := by
    refine hrun.inv (fun _ _ m => Mirrors m) (mirrors_opened p inited) ?_
    intro cs sigs m c m' o hm hclean hs
    obtain rfl : (m.stateMachine c).1 = m' := congrArg Prod.fst (Option.some.inj hs)
    exact (Machine.mirrors_stateMachine_iff hm).mpr hclean
  exact ⟨hm, fun c => Machine.mirrors_stateMachine_iff hm⟩

/-- Preview, recording and a live snapshot, with every operation successful. -/
theorem state_mirrors_hardware_snapshot : ∃ m sigs,
    Runs Machine.step Clean (.opened plainParams true)
      [plainCall .setPreviewWindow okOutcomes, plainCall .startPreview okOutcomes,
        plainCall .startRecording okOutcomes, plainCall .takePicture okOutcomes] sigs m ∧
    m.state = .videoPicTaking ∧ Mirrors m := by
  obtain ⟨m, sigs, hexec, hstate⟩ : ∃ m sigs, exec Machine.step (.opened plainParams true)
      [plainCall .setPreviewWindow okOutcomes, plainCall .startPreview okOutcomes,
        plainCall .startRecording okOutcomes, plainCall .takePicture okOutcomes] =
        some (m, sigs) ∧ m.state = .videoPicTaking := ⟨_, _, rfl, rfl⟩
  have hrestart : PreviewRestarts okOutcomes plainParams := ⟨⟨rfl, rfl⟩, rfl, rfl⟩
  have hrun := runs_of_exec_guarded (G := Clean) .nil hexec <| by
    refine ⟨trivial, ?_⟩
    rintro _ ⟨⟩
    refine ⟨trivial, ?_⟩
    rintro _ ⟨⟩
    refine ⟨fun _ => hrestart, ?_⟩
    rintro _ ⟨⟩
    exact ⟨fun _ => ⟨rfl, rfl⟩, fun _ _ => trivial⟩
  exact ⟨m, sigs, hrun, hstate, (state_mirrors_hardware hrun).1⟩

/-- The preview channel cannot be added again when recording starts without the
hint: the machine says it is previewing, and nothing is started. -/
theorem previewing_without_preview : ∃ m sigs,
    exec Machine.step (.opened plainParams true)
      [plainCall .setPreviewWindow okOutcomes, plainCall .startPreview okOutcomes,
        plainCall .startRecording
          { okOutcomes with
            addChannel := fun ch => if ch = .preview then .error 1 else .noError }] =
      some (m, sigs) ∧
    m.state = .previewing ∧ m.hwi.previewStarted = false ∧ ¬ Mirrors m := by
  refine ⟨_, _, rfl, rfl, rfl, ?_⟩
  decide

end Qcamera

/-
What a picture sets up is torn down when it ends.

`takePicture` and `cancelPicture` each read the parameters for themselves to
decide which channel a picture is on, and whether the exposures are bracketed
for HDR.  `CaptureHal` is the state machine together with what these calls leave
at the backend and with the HDR flags, which change by `SET_PARAMS` and by the
scene data of a frame.

* `CaptureHal.step` — one event of the machine, or scene data;
* `Steady` — what must not change while a picture is taken;
* `setUp_of_step` — a picture that begins has its channel and bracket set up;
* `picture_torn_down` — in a run of steady steps every picture that is left is
  torn down.
-/
import HdxCommon.Parameters

namespace Qcamera

/-! ### Pictures -/

/-- The three events that end a picture. -/
def SmEvt.endsPicture : SmEvt → Bool
  | .stopPreview | .cancelPicture | .snapshotDone => true
  | _ => false

/-- What `takePicture` or `takeLiveSnapshot` has set up: the channel it has
started, or asked for a frame, and the bracketing for HDR. -/
structure PictureSetup where
  channel : ChType
  hdrBracket : Bool
  deriving DecidableEq, Repr

/-- What the string of a `SET_PARAMS` says of HDR. -/
structure HdrString where
  /-- a scene mode other than the stored one, and whether it is HDR -/
  scene : Option Bool
  /-- an `ae-bracket-hdr` other than the stored one -/
  bracketNew : Bool

/-- What pictures leave at the backend: a request on the ZSL channel, and
bracketing other than what the client has set. -/
structure Pending where
  zslRequest : Bool
  hdrBracket : Bool
  deriving DecidableEq, Repr

namespace Pending

/-- The part of `Hwi.takePicture` that concerns the backend. -/
def takePicture (o : Outcomes) (h : Hwi) (b : Pending) : Pending :=
  if h.params.zslMode then
    { b with zslRequest :=
        b.zslRequest || ((h.channels .zsl).isSome && o.requestSuperBuf = .noError) }
  else { b with hdrBracket := b.hdrBracket || (o.hdrEnabled && o.setParms = .noError) }

/-- The part of `Hwi.cancelPicture` that concerns the backend. -/
def cancelPicture (o : Outcomes) (h : Hwi) (b : Pending) : Pending :=
  if h.params.zslMode then
    { b with zslRequest := b.zslRequest && (h.channels .zsl).isNone }
  else { b with hdrBracket := b.hdrBracket && !(o.hdrEnabled && o.setParms = .noError) }

/-- The handlers that call one of the two. -/
def handle (m : Machine) (c : Call) (b : Pending) : Pending :=
  if m.state = .previewing ∧ c.evt = .takePicture ∧ m.hwi.params.recordingHint = false then
    b.takePicture c.outcomes m.hwi
  else if c.evt.endsPicture ∧
      (m.state = .picTaking ∨ m.state = .previewPicTaking ∧ m.hwi.params.zslMode) then
    b.cancelPicture c.outcomes m.hwi
  else b

end Pending

namespace Machine

/-- The event calls `updateParameters`. -/
def updates (m : Machine) (c : Call) : Bool :=
  c.evt = .setParams ∧ m.state.setPath ≠ .reject

/-- The event is a `SET_PARAMS` whose batch gets to the backend. -/
def commits (m : Machine) (c : Call) : Bool :=
  let (rc, needRestart, _) := m.hwi.params.updateParameters c.parms
  m.updates c ∧ rc = .noError ∧ ¬ (needRestart ∧ m.state.setPath = .refuse) ∧
    c.outcomes.setParms = .noError

def restartsPreview (m : Machine) (c : Call) : Bool :=
  let (rc, needRestart, _) := m.hwi.params.updateParameters c.parms
  c.evt = .setParams ∧ m.state.setPath = .restart ∧ rc = .noError ∧ needRestart

/-- The event deletes the ZSL channel, and may have a new one by its end. -/
def replacesZsl (m : Machine) (c : Call) : Bool :=
  m.restartsPreview c ||
    match m.state, c.evt with
    | .previewStopped, .startPreview | .previewStopped, .startNodisplayPreview =>
      m.hwi.params.zslPreview
    | .previewing, .startRecording => !m.hwi.params.recordingHint
    | .previewPicTaking, .startRecording => !m.hwi.params.zslMode && !m.hwi.params.recordingHint
    | _, _ => false

/-- What a picture that begins now sets up; `hdr` is `isHDREnabled`. -/
def setsUp (hdr : Bool) (m : Machine) : PictureSetup :=
  if m.state = .previewing ∧ m.hwi.params.recordingHint = false then
    if m.hwi.params.zslMode then ⟨.zsl, false⟩ else ⟨m.hwi.pictureChannel, hdr⟩
  else ⟨.snapshot, false⟩

end Machine

/-! ### The machine with its pictures -/

structure CaptureHal where
  machine : Machine
  /-- `m_bHDREnabled` -/
  hdrEnabled : Bool
  /-- `m_HDRSceneEnabled` -/
  hdrScene : Bool
  pending : Pending
  /-- what the picture that is being taken has set up -/
  picture : Option PictureSetup

/-- What is left of a picture: its channel, and what is pending. -/
structure Teardown where
  picture : PictureSetup
  channel : Option Channel
  pending : Pending
  deriving DecidableEq

/-- Nothing is left.  The snapshot channel belongs to the preview and is only
stopped; that of ZSL keeps running. -/
def Teardown.Complete (t : Teardown) : Prop :=
  (match t.picture.channel with
    | .zsl => t.pending.zslRequest = false
    | .snapshot => t.channel.any Channel.isActive = false
    | _ => t.channel = none) ∧
  (t.picture.hdrBracket = true → t.pending.hdrBracket = false)

/-- An event with the payload and the HDR keys of its string, or the scene data
of a frame, as `processHDRData` judges it. -/
inductive HalInput where
  | event (c : Call) (str : HdrString)
  | hdrData (isHdrScene : Bool)

def Call.withHdr (c : Call) (hdr : Bool) : Call :=
  { c with outcomes := { c.outcomes with hdrEnabled := hdr } }

namespace CaptureHal

def isHDREnabled (s : CaptureHal) : Bool := s.hdrEnabled || s.hdrScene

/-- `setSceneMode` has its effect at once, whatever comes of the update. -/
def setSceneMode (c : Call) (str : HdrString) (s : CaptureHal) : Bool :=
  if s.machine.updates c then str.scene.getD s.hdrEnabled else s.hdrEnabled

/-- What is pending after an event.  A request goes with its channel; an update
sends the bracketing of the client when HDR is on or its text is new. -/
def pendingAfter (c : Call) (str : HdrString) (m' : Machine) (s : CaptureHal) : Pending :=
  let b := s.pending.handle s.machine c
  { zslRequest := b.zslRequest && !s.machine.replacesZsl c && (m'.hwi.channels .zsl).isSome
    hdrBracket := b.hdrBracket && !(s.machine.commits c &&
      (s.setSceneMode c str || s.hdrScene || str.bracketNew)) }

def pictureAfter (m' : Machine) (s : CaptureHal) : Option PictureSetup :=
  if m'.state.isPicTaking then
    if s.machine.state.isPicTaking then s.picture
    else some (s.machine.setsUp s.isHDREnabled)
  else none

/-- What an event that leaves the states of a picture leaves of it. -/
def teardown (m' : Machine) (pending : Pending) (s : CaptureHal) : List Teardown :=
  if s.machine.state.isPicTaking ∧ m'.state.isPicTaking = false then
    s.picture.toList.map fun pic => ⟨pic, m'.hwi.channels pic.channel, pending⟩
  else []

def event (c : Call) (str : HdrString) (s : CaptureHal) : CaptureHal × List Teardown :=
  let c := c.withHdr s.isHDREnabled
  let m' := (s.machine.stateMachine c).1
  let pending := s.pendingAfter c str m'
  ({ machine := m'
     hdrEnabled := s.setSceneMode c str
     hdrScene := s.hdrScene
     pending := pending
     picture := s.pictureAfter m' }, s.teardown m' pending)

def step (s : CaptureHal) : HalInput → Option (CaptureHal × List Teardown)
  | .event c str => some (s.event c str)
  | .hdrData isHdrScene => some ({ s with hdrScene := isHdrScene }, [])

def opened (p : Params) (inited : Bool) : CaptureHal where
  machine := .opened p inited
  hdrEnabled := false
  hdrScene := false
  pending := ⟨false, false⟩
  picture := none

end CaptureHal

/-! ### What must not change -/

/-- The ZSL mode is `v`, and no other is pending. -/
def Params.ZslIs (v : Bool) (p : Params) : Prop := p.zslMode = v ∧ p.zslModeNew = v

instance (v : Bool) (p : Params) : Decidable (p.ZslIs v) := inferInstanceAs (Decidable (_ ∧ _))

/-- A `SET_PARAMS` that leaves alone what the end of a picture reads: whether the
picture format is raw, the ZSL mode, and HDR if it is on. -/
structure KeepsChoices (s : CaptureHal) (c : Call) (str : HdrString) : Prop where
  format : ∀ f ∈ c.parms.pictureFormat, f = .raw ↔ s.machine.hwi.params.pictureFormat = .raw
  zsl : ∀ v ∈ c.parms.zsl.join, s.machine.hwi.params.zslKey = some v
  hdr : s.isHDREnabled = true → (str.scene.getD s.hdrEnabled || s.hdrScene) = true

instance (s : CaptureHal) (c : Call) (str : HdrString) : Decidable (KeepsChoices s c str) :=
  decidable_of_iff
    ((∀ f ∈ c.parms.pictureFormat, f = .raw ↔ s.machine.hwi.params.pictureFormat = .raw) ∧
      (∀ v ∈ c.parms.zsl.join, s.machine.hwi.params.zslKey = some v) ∧
      (s.isHDREnabled = true → (str.scene.getD s.hdrEnabled || s.hdrScene) = true))
    ⟨fun h => ⟨h.1, h.2.1, h.2.2⟩, fun h => ⟨h.format, h.zsl, h.hdr⟩⟩

/-- A picture begins with no ZSL mode pending.  A live snapshot of the preview is
taken, and goes on after a recording, with ZSL off. -/
def BeginsSteady (m : Machine) (c : Call) : Prop :=
  (m.state = .previewing → c.evt = .takePicture →
    m.hwi.params.ZslIs m.hwi.params.zslMode ∧
      (m.hwi.params.recordingHint = true → m.hwi.params.zslMode = false)) ∧
  (m.state = .videoPicTaking → c.evt = .stopRecording → m.hwi.params.ZslIs false)

instance (m : Machine) (c : Call) : Decidable (BeginsSteady m c) :=
  inferInstanceAs (Decidable (_ ∧ _))

/-- While a picture is taken nothing changes that its end reads, and the batch
that restores the bracketing succeeds. -/
def Steady (s : CaptureHal) : HalInput → Prop
  | .event c str => BeginsSteady s.machine c ∧
    (s.machine.state.isPicTaking = true → c.evt = .setParams → KeepsChoices s c str) ∧
    (s.machine.state = .picTaking → c.evt.endsPicture = true → s.isHDREnabled = true →
      c.outcomes.setParms = .noError)
  | .hdrData isHdrScene => s.machine.state.isPicTaking = true → s.isHDREnabled = true →
      (s.hdrEnabled || isHdrScene) = true

instance (s : CaptureHal) : (i : HalInput) → Decidable (Steady s i)
  | .event _ _ => inferInstanceAs (Decidable (_ ∧ _))
  | .hdrData _ => inferInstanceAs (Decidable (_ → _))

section Params

variable {p : Params} {str : ParamString} {v : Bool} {rc : Status}

theorem Params.ZslIs.commitSetBatch (h : p.ZslIs v) (rc : Status) :
    (p.commitSetBatch rc).2.ZslIs v := by
  unfold Params.commitSetBatch
  split
  · exact ⟨h.2, h.2⟩
  · exact h

theorem Params.ZslIs.initBatchUpdate (h : p.ZslIs v) : p.initBatchUpdate.ZslIs v := h

theorem Params.ZslIs.otherBatch (h : p.ZslIs v) (rc : Status) : (p.otherBatch rc).ZslIs v :=
  h.initBatchUpdate.commitSetBatch rc

theorem Params.ZslIs.setRecordingHintValue (h : p.ZslIs v) (b : Bool) :
    (p.setRecordingHintValue b).2.ZslIs v := by
  unfold Params.setRecordingHintValue
  split <;> exact h

@[simp] theorem Params.pictureFormat_commitSetBatch (rc : Status) :
    (p.commitSetBatch rc).2.pictureFormat = p.pictureFormat := by
  unfold Params.commitSetBatch
  split <;> rfl

theorem Params.pictureFormat_updateParameters :
    (p.updateParameters str).2.2.pictureFormat = str.pictureFormat.getD p.pictureFormat := by
  have hhint : ∀ q : Params, (q.setRecordingHint str).2.2.pictureFormat = q.pictureFormat := by
    intro q
    simp only [setRecordingHint, setRecordingHintValue]
    split
    · split_ifs <;> rfl
    all_goals rfl
  have hzsl : ∀ q : Params, (q.setZslMode str).2.2.pictureFormat = q.pictureFormat := by
    intro q
    simp only [setZslMode]
    split
    · split_ifs <;> rfl
    all_goals rfl
  simp only [updateParameters, hhint, hzsl]
  cases hf : str.pictureFormat <;> simp [setPictureFormat, hf, initBatchUpdate]

theorem Params.ZslIs.setRecordingHint (h : p.ZslIs v) (str : ParamString) :
    (p.setRecordingHint str).2.2.ZslIs v := by
  unfold Params.setRecordingHint
  split
  · rename_i b _
    split
    · exact h
    · have hhint : ({ p with tempHint := some b } : Params).ZslIs v := h
      exact hhint.setRecordingHintValue b
  all_goals exact h

theorem Params.ZslIs.setZslMode (h : p.ZslIs v) (hstr : ∀ b ∈ str.zsl.join, p.zslKey = some b) :
    (p.setZslMode str).2.2.ZslIs v := by
  unfold Params.setZslMode
  split
  · rename_i b hb
    rw [if_pos (hstr b (by rw [hb]; rfl))]
    exact h
  all_goals exact h

theorem Params.ZslIs.updateParameters (h : p.ZslIs v)
    (hstr : ∀ b ∈ str.zsl.join, p.zslKey = some b) : (p.updateParameters str).2.2.ZslIs v := by
  have hformat : (p.initBatchUpdate.setPictureFormat str).2.ZslIs v ∧
      (p.initBatchUpdate.setPictureFormat str).2.zslKey = p.zslKey := by
    unfold Params.setPictureFormat
    split <;> exact ⟨h, rfl⟩
  have hzsl := hformat.1.setZslMode (by rwa [hformat.2])
  exact hzsl.setRecordingHint str

end Params

/-! ### What an event does during a picture -/

structure Same (h h' : Hwi) : Prop where
  channels_eq : h'.channels = h.channels
  channel_eq : h'.pictureChannel = h.pictureChannel
  zsl : ∀ v, h.params.ZslIs v → h'.params.ZslIs v

section Unmoved

variable {m : Machine} {c : Call} {h h' : Hwi}

theorem Same.refl (h : Hwi) : Same h h := ⟨rfl, rfl, fun _ hz => hz⟩

theorem pictureChannel_congr (hf : h'.params.pictureFormat = .raw ↔ h.params.pictureFormat = .raw) :
    h'.pictureChannel = h.pictureChannel := by
  have hiff : ∀ f : PictureFormat, f = .jpeg ∨ f = .nv16 ↔ ¬ f = .raw := by
    intro f
    cases f <;> decide
  simp only [Hwi.pictureChannel, hiff, hf]

theorem Same.withParams (h : Hwi) {p : Params}
    (hf : p.pictureFormat = .raw ↔ h.params.pictureFormat = .raw)
    (hz : ∀ v, h.params.ZslIs v → p.ZslIs v) : Same h (h.withParams p) :=
  ⟨rfl, pictureChannel_congr hf, hz⟩

theorem Same.otherBatch (h : Hwi) (rc : Status) : Same h (h.withParams (h.params.otherBatch rc)) :=
  .withParams h (by simp [Params.otherBatch, Params.initBatchUpdate])
    fun _ hz => hz.otherBatch rc

theorem Same.service (o : Outcomes) (h : Hwi) : Same h (h.service o).2 := by
  unfold Hwi.service
  split
  · exact .otherBatch h o.setParms
  · exact .refl h

/-- The string of the client names no new ZSL mode, and keeps the channel. -/
def KeepsChannel (str : ParamString) (p : Params) : Prop :=
  (∀ f ∈ str.pictureFormat, f = .raw ↔ p.pictureFormat = .raw) ∧
    ∀ v ∈ str.zsl.join, p.zslKey = some v

theorem Same.updateParameters (hk : KeepsChannel c.parms h.params) :
    Same h (h.updateParameters c.parms).2.2 := by
  have hf : (h.params.updateParameters c.parms).2.2.pictureFormat = .raw ↔
      h.params.pictureFormat = .raw := by
    rw [Params.pictureFormat_updateParameters]
    cases hstr : c.parms.pictureFormat with
    | none => exact Iff.rfl
    | some f => exact hk.1 f hstr
  exact .withParams h hf fun v hz => hz.updateParameters hk.2

theorem Same.trans {h'' : Hwi} (h₁ : Same h h') (h₂ : Same h' h'') : Same h h'' :=
  ⟨h₂.channels_eq.trans h₁.channels_eq, h₂.channel_eq.trans h₁.channel_eq,
    fun v hz => h₂.zsl v (h₁.zsl v hz)⟩

theorem Same.commitParameterChanges (o : Outcomes) (h : Hwi) :
    Same h (h.commitParameterChanges o).2 := by
  have hf : (h.params.commitSetBatch o.setParms).2.pictureFormat = .raw ↔
      h.params.pictureFormat = .raw := by rw [Params.pictureFormat_commitSetBatch]
  exact .withParams h hf fun _ hz => hz.commitSetBatch o.setParms

/-- The event leaves the state, and what the end of a picture looks at. -/
def Unmoved (m : Machine) (r : Machine × List Signal) : Prop :=
  r.1.state = m.state ∧ Same m.hwi r.1.hwi

theorem Unmoved.done {r : Status × Hwi} (hr : Same m.hwi r.2) : Unmoved m (c.done m.state r) :=
  ⟨rfl, hr⟩

theorem Unmoved.refl (m : Machine) (os : List Signal) : Unmoved m (m, os) := ⟨rfl, .refl _⟩

theorem Unmoved.serve (m : Machine) (c : Call) : Unmoved m (m.serve c) := by
  unfold Machine.serve
  split
  case h_7 | h_8 | h_9 => exact .done (.service _ _)
  all_goals exact ⟨rfl, rfl, rfl, fun _ hz => hz⟩

theorem Unmoved.internalEvt (m : Machine) (c : Call) : Unmoved m (m.internalEvt c) := by
  unfold Machine.internalEvt
  split
  · exact ⟨rfl, .service _ _⟩
  · exact .refl m _

theorem Unmoved.evtNotify (m : Machine) (c : Call) : Unmoved m (m.evtNotify c) := by
  unfold Machine.evtNotify
  split <;> exact .refl m _

theorem Unmoved.thermalNotify (m : Machine) (c : Call) : Unmoved m (m.thermalNotify c) :=
  ⟨rfl, .service _ _⟩

theorem Unmoved.setParams (hk : KeepsChannel c.parms m.hwi.params) : Unmoved m (m.setParams c) := by
  have hup : Same m.hwi (m.hwi.updateParameters c.parms).2.2 := .updateParameters hk
  simp only [Machine.setParams]
  refine .done ?_
  split
  · exact hup.trans (.commitParameterChanges _ _)
  · exact hup

theorem Unmoved.setParamsRecording (hk : KeepsChannel c.parms m.hwi.params) :
    Unmoved m (m.setParamsRecording c) := by
  have hup : Same m.hwi (m.hwi.updateParameters c.parms).2.2 := .updateParameters hk
  simp only [Machine.setParamsRecording]
  refine .done ?_
  split_ifs
  · exact hup
  · exact hup.trans (.commitParameterChanges _ _)
  · exact hup

end Unmoved

/-! ### The operations, for the channels of a picture -/

section Operations

variable (o : Outcomes) (h : Hwi)

theorem isSome_channels_stopChannel (ch d : ChType) :
    ((h.stopChannel o ch).2.channels d).isSome = (h.channels d).isSome := by
  unfold Hwi.stopChannel
  cases hch : h.channels ch with
  | none => rfl
  | some x =>
    by_cases hd : d = ch
    · simp [hd, hch]
    · simp [hd]

theorem cancelPicture_zsl (hzsl : h.params.zslMode = true) :
    (h.cancelPicture o).2 = h.stopPostproc := by
  have hz : h.stopPostproc.params.zslMode = true := hzsl
  simp only [Hwi.cancelPicture, if_pos hz]

theorem cancelPicture_eq (hzsl : h.params.zslMode = false) :
    ∃ h₀, Same h h₀ ∧ (h.cancelPicture o).2 =
      (h₀.stopChannel o h.pictureChannel).2.delChannel h.pictureChannel := by
  have hz : ¬ h.stopPostproc.params.zslMode = true := by
    rw [show h.stopPostproc.params = h.params from rfl, hzsl]
    exact Bool.false_ne_true
  have hstop : Same h h.stopPostproc := ⟨rfl, rfl, fun _ hv => hv⟩
  cases hhdr : o.hdrEnabled with
  | true =>
    have hsame := hstop.trans (.otherBatch _ o.setParms)
    refine ⟨_, hsame, ?_⟩
    rw [← hsame.channel_eq]
    simp only [Hwi.cancelPicture, if_neg hz, hhdr, if_true]
  | false =>
    refine ⟨_, hstop, ?_⟩
    simp only [Hwi.cancelPicture, if_neg hz, hhdr, if_false, Bool.false_eq_true]
    rfl

theorem channels_cancelPicture (hzsl : h.params.zslMode = false) :
    (h.cancelPicture o).2.channels h.pictureChannel = none := by
  obtain ⟨h₀, -, heq⟩ := cancelPicture_eq o h hzsl
  simp [heq, Hwi.delChannel]

theorem Same.started {h h' : Hwi} (hs : Same h h') (d : ChType) : h'.started d = h.started d := by
  rw [Hwi.started, hs.channels_eq]
  rfl

theorem started_cancelPicture {d : ChType} (hd : (h.cancelPicture o).2.started d = true) :
    h.started d = true := by
  cases hzsl : h.params.zslMode with
  | true => rwa [cancelPicture_zsl o h hzsl] at hd
  | false =>
    obtain ⟨h₀, hsame, heq⟩ := cancelPicture_eq o h hzsl
    rw [heq, Hwi.started_delChannel, Hwi.started_stopChannel, hsame.started] at hd
    split_ifs at hd
    exact hd

theorem isSome_channels_cancelPicture {d : ChType}
    (hd : ((h.cancelPicture o).2.channels d).isSome = true) : (h.channels d).isSome = true := by
  cases hzsl : h.params.zslMode with
  | true => rwa [cancelPicture_zsl o h hzsl] at hd
  | false =>
    obtain ⟨h₀, hsame, heq⟩ := cancelPicture_eq o h hzsl
    rw [heq, Hwi.delChannel, Hwi.channels_setChannel] at hd
    split at hd
    · exact absurd hd Bool.false_ne_true
    · rwa [isSome_channels_stopChannel, hsame.channels_eq] at hd

@[simp] theorem started_snapshot_cancelLiveSnapshot :
    (h.cancelLiveSnapshot o).2.started .snapshot = false := by
  simp [Hwi.cancelLiveSnapshot]

@[simp] theorem started_snapshot_unpreparePreview :
    h.unpreparePreview.started .snapshot = false := by
  simp [Hwi.unpreparePreview]

@[simp] theorem started_snapshot_stopPreview : (h.stopPreview o).2.started .snapshot = false := by
  simp [Hwi.stopPreview]

@[simp] theorem channels_zsl_unpreparePreview : h.unpreparePreview.channels .zsl = none := by
  simp [Hwi.unpreparePreview, Hwi.delChannel]

theorem started_snapshot_preparePreview (hoff : h.started .snapshot = false) :
    (h.preparePreview o).2.started .snapshot = false := by
  have hnew : ∀ rc : Status, Option.any Channel.isActive
      (if rc = .noError then some ⟨false⟩ else none) = false := by
    intro rc
    split <;> rfl
  simp only [Hwi.preparePreview]
  split_ifs <;> simp [hoff, hnew]

theorem started_snapshot_startChannel {ch : ChType} (hch : ch ≠ .snapshot) :
    (h.startChannel o ch).2.started .snapshot = h.started .snapshot := by
  rw [Hwi.started_startChannel, if_neg fun hs => hch hs.1.symm]

theorem started_snapshot_preparedStart (hoff : h.started .snapshot = false) :
    (Machine.preparedStart o h).2.started .snapshot = false := by
  have hprep := started_snapshot_preparePreview o h hoff
  have hstart : ((h.preparePreview o).2.startPreview o).2.started .snapshot = false := by
    unfold Hwi.startPreview
    split
    all_goals rw [started_snapshot_startChannel o _ (by decide), hprep]
  simp only [Machine.preparedStart]
  split_ifs
  · exact started_snapshot_unpreparePreview _
  · exact hstart
  · exact hprep

theorem started_snapshot_restartWithHint : (h.restartWithHint o).2.started .snapshot = false := by
  have hoff : ((h.stopPreview o).2.withParams ((h.stopPreview o).2.params.updateRecordingHintValue
      o.setParms true)).started .snapshot = false := started_snapshot_stopPreview o h
  have hprep := started_snapshot_preparePreview o _ hoff
  simp only [Hwi.restartWithHint, Hwi.startPreparedPreview]
  split
  · rw [started_snapshot_startChannel o _ (by decide), hprep]
  · exact hprep

theorem startRecording_spec :
    ((h.startRecording o).2.started .snapshot = true → h.started .snapshot = true) ∧
    ∀ v, h.params.ZslIs v → (h.startRecording o).2.params.ZslIs v := by
  have hrestart : ∀ v, h.params.ZslIs v → (h.restartWithHint o).2.params.ZslIs v := by
    intro v hv
    have hnew : (h.params.updateRecordingHintValue o.setParms true).ZslIs v :=
      (hv.initBatchUpdate.setRecordingHintValue true).commitSetBatch o.setParms
    simp only [Hwi.restartWithHint, Hwi.startPreparedPreview, params_stopPreview]
    split <;> simpa using hnew
  have hoff := started_snapshot_restartWithHint o h
  simp only [Hwi.startRecording]
  split_ifs with hhint hrc
  · rw [started_snapshot_startChannel o _ (by decide), hoff, Hwi.params_startChannel]
    exact ⟨fun hs => absurd hs Bool.false_ne_true, hrestart⟩
  · rw [hoff]
    exact ⟨fun hs => absurd hs Bool.false_ne_true, hrestart⟩
  · rw [started_snapshot_startChannel o _ (by decide), Hwi.params_startChannel]
    exact ⟨id, fun _ => id⟩
  · exact ⟨id, fun _ => id⟩

end Operations

/-! ### One event during a picture -/

structure Ended (m : Machine) (h' : Hwi) : Prop where
  picture : m.state = .picTaking → m.hwi.params.zslMode = false →
    h'.channels m.hwi.pictureChannel = none
  snapshot : h'.started .snapshot = true → m.hwi.started .snapshot = true ∧
    (m.state = .picTaking ∨ m.state = .previewPicTaking ∧ m.hwi.params.zslMode = true)
  zsl : (h'.channels .zsl).isSome = true → (m.hwi.channels .zsl).isSome = true

/-- What an event can do during a picture. -/
inductive PictureEvent (m : Machine) (c : Call) (m' : Machine) : Prop
  | stays (hends : c.evt.endsPicture = false) (hstate : m'.state = m.state)
      (hsame : Same m.hwi m'.hwi)
  | restarts (hends : c.evt.endsPicture = false) (hstate : m.state = .previewPicTaking)
      (hrestart : m.restartsPreview c = true) (hpic : m'.state.isPicTaking = true)
      (hsnap : m'.hwi.started .snapshot = false)
  | records (hends : c.evt.endsPicture = false) (hstate : m.state = .previewPicTaking)
      (hzsl : m.hwi.params.zslMode = false)
      (hstate' : m'.state = .videoPicTaking ∨ m'.state = .previewPicTaking)
      (hsnap : m'.hwi.started .snapshot = true → m.hwi.started .snapshot = true)
      (hkeep : ∀ v, m.hwi.params.ZslIs v → m'.hwi.params.ZslIs v)
  | stopsRecording (hevt : c.evt = .stopRecording) (hstate : m.state = .videoPicTaking)
      (hstate' : m'.state = .previewPicTaking) (hparams : m'.hwi.params = m.hwi.params)
  | ends (hends : c.evt.endsPicture = true) (hstate' : m'.state.isPicTaking = false)
      (hended : Ended m m'.hwi)

section Handlers

open Machine

variable {m : Machine} {c : Call} {h : Hwi}

theorem PictureEvent.of_unmoved {r : Machine × List Signal} (hq : Unmoved m r)
    (hends : c.evt.endsPicture = false) : PictureEvent m c r.1 :=
  .stays hends hq.1 hq.2

theorem pictureEvent_setParamsRestarting (hevt : c.evt = .setParams)
    (hk : KeepsChannel c.parms h.params) :
    PictureEvent ⟨.previewPicTaking, h⟩ c
      (setParamsRestarting c .picTaking ⟨.previewPicTaking, h⟩).1 := by
  have hends : c.evt.endsPicture = false := by rw [hevt]; rfl
  have hup : Same h (h.updateParameters c.parms).2.2 := .updateParameters hk
  have hoff := started_snapshot_preparedStart c.outcomes
    (((h.updateParameters c.parms).2.2.stopPreview c.outcomes).2.commitParameterChanges
      c.outcomes).2 (started_snapshot_stopPreview c.outcomes (h.updateParameters c.parms).2.2)
  simp only [setParamsRestarting]
  split_ifs with hrc hrestart hok
  · exact .restarts hends rfl (decide_eq_true ⟨hevt, rfl, hrc, hrestart⟩) rfl hoff
  · exact .restarts hends rfl (decide_eq_true ⟨hevt, rfl, hrc, hrestart⟩) rfl hoff
  · exact .stays hends rfl (hup.trans (.commitParameterChanges _ _))
  · exact .stays hends rfl hup

theorem ended_picTaking (o : Outcomes) : Ended ⟨.picTaking, h⟩ (h.cancelPicture o).2 where
  picture _ hzsl := channels_cancelPicture o h hzsl
  snapshot hs := ⟨started_cancelPicture o h hs, .inl rfl⟩
  zsl hs := isSome_channels_cancelPicture o h hs

theorem pictureEvent_picTaking
    (hk : c.evt = .setParams → KeepsChannel c.parms h.params) :
    PictureEvent ⟨.picTaking, h⟩ c (procEvtPicTakingState c ⟨.picTaking, h⟩).1 := by
  unfold procEvtPicTakingState
  cases hevt : c.evt
  case setParams => exact .of_unmoved (.setParams (hk hevt)) (by rw [hevt]; rfl)
  case stopPreview | cancelPicture | snapshotDone =>
    exact .ends (by rw [hevt]; rfl) rfl (ended_picTaking _)
  all_goals refine .of_unmoved ?_ (by rw [hevt]; rfl)
  case evtInternal => exact .internalEvt _ _
  case evtNotify => exact .evtNotify _ _
  case thermalNotify => exact .thermalNotify _ _
  all_goals first | exact .serve _ _ | exact .refl _ _

theorem ended_liveSnapshot {h' : Hwi} (hstate : m.state ≠ .picTaking)
    (hoff : h'.started .snapshot = false)
    (hzsl : (h'.channels .zsl).isSome = true → (m.hwi.channels .zsl).isSome = true) :
    Ended m h' where
  picture hs := absurd hs hstate
  snapshot hs := absurd (hoff.symm.trans hs) Bool.false_ne_true
  zsl := hzsl

theorem isSome_channels_cancelLiveSnapshot (o : Outcomes) (d : ChType) :
    ((h.cancelLiveSnapshot o).2.channels d).isSome = (h.channels d).isSome :=
  isSome_channels_stopChannel o h.stopPostproc .snapshot d

theorem pictureEvent_videoPicTaking
    (hk : c.evt = .setParams → KeepsChannel c.parms h.params) :
    PictureEvent ⟨.videoPicTaking, h⟩ c (procEvtVideoPicTakingState c ⟨.videoPicTaking, h⟩).1 := by
  have hstate : (Machine.mk .videoPicTaking h).state ≠ .picTaking := SmState.noConfusion
  unfold procEvtVideoPicTakingState
  cases hevt : c.evt
  case setParams => exact .of_unmoved (.setParamsRecording (hk hevt)) (by rw [hevt]; rfl)
  case cancelPicture | snapshotDone =>
    refine .ends (by rw [hevt]; rfl) rfl (ended_liveSnapshot hstate ?_ fun hs => ?_)
    · exact started_snapshot_cancelLiveSnapshot _ _
    · exact (isSome_channels_cancelLiveSnapshot _ _).symm.trans hs
  case stopPreview =>
    refine .ends (by rw [hevt]; rfl) rfl (ended_liveSnapshot hstate ?_ fun hs => ?_)
    · exact started_snapshot_stopPreview _ _
    · simp [Call.done, Hwi.stopPreview] at hs
  case stopRecording => exact .stopsRecording hevt rfl rfl (Hwi.params_stopChannel _ _ _)
  all_goals refine .of_unmoved ?_ (by rw [hevt]; rfl)
  case evtInternal => exact .internalEvt _ _
  case evtNotify => exact .evtNotify _ _
  case thermalNotify => exact .thermalNotify _ _
  all_goals first | exact .serve _ _ | exact .refl _ _

theorem ended_cancelCurrent (o : Outcomes) :
    Ended ⟨.previewPicTaking, h⟩ (cancelCurrent o h).2 := by
  unfold cancelCurrent
  cases hzsl : h.params.zslMode with
  | true =>
    exact ⟨fun hs => SmState.noConfusion hs,
      fun hs => ⟨started_cancelPicture o h hs, .inr ⟨rfl, hzsl⟩⟩,
      fun hs => isSome_channels_cancelPicture o h hs⟩
  | false =>
    refine ended_liveSnapshot SmState.noConfusion (started_snapshot_cancelLiveSnapshot o h) ?_
    exact fun hs => (isSome_channels_cancelLiveSnapshot o .zsl).symm.trans hs

theorem pictureEvent_previewPicTaking
    (hk : c.evt = .setParams → KeepsChannel c.parms h.params) :
    PictureEvent ⟨.previewPicTaking, h⟩ c
      (procEvtPreviewPicTakingState c ⟨.previewPicTaking, h⟩).1 := by
  unfold procEvtPreviewPicTakingState
  cases hevt : c.evt
  case setParams => exact pictureEvent_setParamsRestarting hevt (hk hevt)
  case cancelPicture | snapshotDone =>
    exact .ends (by rw [hevt]; rfl) rfl (ended_cancelCurrent _)
  case stopPreview =>
    refine .ends (by rw [hevt]; rfl) rfl (ended_liveSnapshot SmState.noConfusion ?_ fun hs => ?_)
    · exact started_snapshot_unpreparePreview _
    · simp [Call.done] at hs
  case startRecording =>
    have hends : c.evt.endsPicture = false := by rw [hevt]; rfl
    have hrec := startRecording_spec c.outcomes h
    simp only
    split_ifs with hzsl
    · exact .of_unmoved (.refl _ _) hends
    · exact .records hends rfl (Bool.eq_false_iff.mpr hzsl) (.inl rfl) hrec.1 hrec.2
    · exact .records hends rfl (Bool.eq_false_iff.mpr hzsl) (.inr rfl) hrec.1 hrec.2
  all_goals refine .of_unmoved ?_ (by rw [hevt]; rfl)
  case evtInternal => exact .internalEvt _ _
  case evtNotify => exact .evtNotify _ _
  case thermalNotify => exact .thermalNotify _ _
  all_goals first | exact .serve _ _ | exact .refl _ _

/-- **One event during a picture.** -/
theorem pictureEvent_stateMachine (hpic : m.state.isPicTaking = true)
    (hk : c.evt = .setParams → KeepsChannel c.parms m.hwi.params) :
    PictureEvent m c (m.stateMachine c).1 := by
  obtain ⟨state, h⟩ := m
  cases state with
  | picTaking => exact pictureEvent_picTaking hk
  | videoPicTaking => exact pictureEvent_videoPicTaking hk
  | previewPicTaking => exact pictureEvent_previewPicTaking hk
  | previewStopped | previewReady | previewing | prepareSnapshot | recording =>
    exact absurd hpic Bool.false_ne_true

/-! ### The beginning of a picture -/

inductive Begins (m : Machine) (c : Call) (m' : Machine) : Prop
  | picture (hstate : m.state = .previewing) (hevt : c.evt = .takePicture)
      (hhint : m.hwi.params.recordingHint = false)
      (hrc : (m.hwi.takePicture c.outcomes).1 = .noError)
      (heq : m' = ⟨if m.hwi.params.zslMode then .previewPicTaking else .picTaking,
        (m.hwi.takePicture c.outcomes).2⟩)
  | liveSnapshot (hevt : c.evt = .takePicture)
      (hstate : m.state = .previewing ∧ m.hwi.params.recordingHint = true ∧
        m'.state = .previewPicTaking ∨ m.state = .recording ∧ m'.state = .videoPicTaking)
      (hrc : (m.hwi.takeLiveSnapshot c.outcomes).1 = .noError)
      (heq : m'.hwi = (m.hwi.takeLiveSnapshot c.outcomes).2)

@[simp] theorem state_done (state : SmState) (r : Status × Hwi) :
    (c.done state r).1.state = state := rfl

@[simp] theorem state_ended (state : SmState) (r : Status × Hwi) :
    (c.ended state r).1.state = state := rfl

@[simp] theorem state_answer (rc : Status) : (m.answer c rc).1.state = m.state := rfl

@[simp] theorem state_reject : (m.reject c).1.state = m.state := rfl

@[simp] theorem state_answerFlag (enabled : UInt32) :
    (m.answerFlag c enabled).1.state = m.state := rfl

@[simp] theorem state_serve : (m.serve c).1.state = m.state := (Unmoved.serve m c).1

@[simp] theorem state_internalEvt : (m.internalEvt c).1.state = m.state :=
  (Unmoved.internalEvt m c).1

@[simp] theorem state_evtNotify : (m.evtNotify c).1.state = m.state := (Unmoved.evtNotify m c).1

@[simp] theorem state_thermalNotify : (m.thermalNotify c).1.state = m.state := rfl

@[simp] theorem state_setParams : (m.setParams c).1.state = m.state := rfl

@[simp] theorem state_setParamsRecording : (m.setParamsRecording c).1.state = m.state := rfl

theorem isPicTaking_setParamsRestarting (hpic : m.state.isPicTaking = false) :
    (m.setParamsRestarting c .previewStopped).1.state.isPicTaking = false := by
  simp only [setParamsRestarting]
  split_ifs <;> first | exact hpic | rfl

theorem isPicTaking_stateMachine (hpic : m.state.isPicTaking = false)
    (hevt : c.evt ≠ .takePicture) : (m.stateMachine c).1.state.isPicTaking = false := by
  obtain ⟨state, h⟩ := m
  cases state with
  | picTaking | videoPicTaking | previewPicTaking => exact absurd hpic.symm Bool.false_ne_true
  | previewStopped =>
    simp only [stateMachine, procEvtPreviewStoppedState]
    cases c.evt
    case startPreview | startNodisplayPreview => simp only; split_ifs <;> rfl
    all_goals simp [SmState.isPicTaking]
  | previewReady =>
    simp only [stateMachine, procEvtPreviewReadyState]
    cases c.evt
    case setPreviewWindow | setParams => simp only; split_ifs <;> rfl
    all_goals simp [SmState.isPicTaking]
  | previewing =>
    simp only [stateMachine, procEvtPreviewingState]
    cases hc : c.evt
    case takePicture => exact absurd hc hevt
    case setParams => exact isPicTaking_setParamsRestarting rfl
    case startRecording | prepareSnapshot => simp only; split_ifs <;> rfl
    all_goals simp [SmState.isPicTaking]
  | prepareSnapshot =>
    simp only [stateMachine, procEvtPrepareSnapshotState]
    cases c.evt
    case evtInternal =>
      simp only
      split_ifs
      · rfl
      · rw [state_internalEvt]
        rfl
    all_goals simp [SmState.isPicTaking]
  | recording =>
    simp only [stateMachine, procEvtRecordingState]
    cases hc : c.evt
    case takePicture => exact absurd hc hevt
    all_goals simp [SmState.isPicTaking]

/-- **The beginning of a picture.** -/
theorem begins_stateMachine (hpic : m.state.isPicTaking = false)
    (hpic' : (m.stateMachine c).1.state.isPicTaking = true) : Begins m c (m.stateMachine c).1 := by
  have hevt : c.evt = .takePicture := by
    by_contra hne
    exact Bool.false_ne_true ((isPicTaking_stateMachine hpic hne).symm.trans hpic')
  obtain ⟨state, h⟩ := m
  cases state with
  | picTaking | videoPicTaking | previewPicTaking => exact absurd hpic.symm Bool.false_ne_true
  | previewStopped =>
    simp only [stateMachine, procEvtPreviewStoppedState, hevt] at hpic'
    exact absurd hpic' Bool.false_ne_true
  | previewReady =>
    simp only [stateMachine, procEvtPreviewReadyState, hevt] at hpic'
    exact absurd hpic' Bool.false_ne_true
  | prepareSnapshot =>
    simp only [stateMachine, procEvtPrepareSnapshotState, hevt] at hpic'
    exact absurd hpic' Bool.false_ne_true
  | recording =>
    simp only [stateMachine, procEvtRecordingState, hevt] at hpic' ⊢
    split_ifs at hpic' ⊢ with hrc
    · exact absurd hpic' Bool.false_ne_true
    · exact .liveSnapshot hevt (.inr ⟨rfl, rfl⟩) (not_not.mp hrc) rfl
  | previewing =>
    simp only [stateMachine, procEvtPreviewingState, hevt] at hpic' ⊢
    by_cases hhint : h.params.recordingHint = false
    · rw [if_pos hhint] at hpic' ⊢
      by_cases hrc : (h.takePicture c.outcomes).1 = .noError
      · refine .picture rfl hevt hhint hrc ?_
        split <;> rw [if_neg (not_not.mpr hrc)] <;> rfl
      · rw [if_pos hrc, if_pos hrc] at hpic'
        split at hpic' <;> exact absurd hpic' Bool.false_ne_true
    · rw [if_neg hhint] at hpic' ⊢
      split_ifs at hpic' ⊢ with hrc
      · exact absurd hpic' Bool.false_ne_true
      · exact .liveSnapshot hevt (.inl ⟨rfl, by simpa using hhint, rfl⟩) (not_not.mp hrc) rfl

end Handlers

section Begin

variable {o : Outcomes} {h : Hwi}

theorem takeOn_spec {ch : ChType} (hrc : (h.takeOn o ch).1 = .noError) :
    (h.takeOn o ch).2.started ch = true ∧ (h.takeOn o ch).2.params = h.params := by
  obtain ⟨hadd, hstart⟩ := (Hwi.takeOn_fst_eq_noError o h ch).mp hrc
  have hrc' : (((h.setChannel ch (some ⟨false⟩)).startPostproc o ch).2.startChannel o ch).1 =
      .noError := by
    rw [Hwi.startChannel_fst_eq_noError]
    simp [hstart]
  simp only [Hwi.takeOn, Hwi.addChannel_fst, Hwi.addChannel_snd, hadd, if_true, hrc', ne_eq,
    not_true_eq_false, if_false]
  rw [Hwi.started_startChannel, if_pos ⟨rfl, hrc'⟩, Hwi.params_startChannel]
  exact ⟨rfl, rfl⟩

/-- A picture without ZSL is on the channel of its format. -/
theorem takePicture_eq_takeOn (hzsl : h.params.zslMode = false)
    (hrc : (h.takePicture o).1 = .noError) :
    h.takePicture o = (h.pictureReady o).takeOn o h.pictureChannel := by
  have hok := (Hwi.takePicture_fst_eq_noError o h hzsl).mp hrc
  rw [Hwi.takePicture_eq o h hzsl, if_neg fun hfail => hfail.2 (hok.1 hfail.1)]

theorem started_takePicture (hzsl : h.params.zslMode = false)
    (hrc : (h.takePicture o).1 = .noError) :
    (h.takePicture o).2.started h.pictureChannel = true := by
  have heq := takePicture_eq_takeOn hzsl hrc
  rw [heq] at hrc ⊢
  exact (takeOn_spec hrc).1

theorem params_takePicture (hzsl : h.params.ZslIs false)
    (hrc : (h.takePicture o).1 = .noError) :
    (h.takePicture o).2.params.ZslIs false ∧
      (h.takePicture o).2.pictureChannel = h.pictureChannel := by
  have heq := takePicture_eq_takeOn hzsl.1 hrc
  rw [heq] at hrc ⊢
  have hparams := (takeOn_spec hrc).2
  have hready : (h.pictureReady o).params.ZslIs false := by
    simp only [Hwi.pictureReady]
    split
    · simpa using hzsl.otherBatch o.setParms
    · simpa using hzsl
  refine ⟨by rwa [hparams], ?_⟩
  exact (pictureChannel_congr (by rw [hparams])).trans (Hwi.pictureChannel_pictureReady o h)

theorem takePicture_zsl_spec (hzsl : h.params.zslMode = true)
    (hrc : (h.takePicture o).1 = .noError) :
    (h.takePicture o).2.channels = h.channels ∧ (h.takePicture o).2.params = h.params := by
  obtain ⟨hsome, hreq⟩ := (Hwi.takePicture_zsl_fst_eq_noError o h hzsl).mp hrc
  obtain ⟨ch, hch⟩ := Option.isSome_iff_exists.mp hsome
  simp only [Hwi.takePicture, hzsl, if_true, hch, hreq, ne_eq, not_true_eq_false, if_false]
  exact ⟨rfl, rfl⟩

theorem takeLiveSnapshot_spec (hrc : (h.takeLiveSnapshot o).1 = .noError) :
    (h.takeLiveSnapshot o).2.started .snapshot = true ∧
      (h.takeLiveSnapshot o).2.params = h.params := by
  obtain ⟨hpost, hsome, hstart⟩ := (Hwi.takeLiveSnapshot_fst_eq_noError o h).mp hrc
  have hrc' : ((h.startPostproc o .snapshot).2.startChannel o .snapshot).1 = .noError :=
    (Hwi.startChannel_fst_eq_noError _ _ _).mpr ⟨hsome, hstart⟩
  simp only [Hwi.takeLiveSnapshot, hpost, if_true]
  rw [Hwi.started_startChannel, if_pos ⟨rfl, hrc'⟩, Hwi.params_startChannel]
  exact ⟨rfl, rfl⟩

end Begin

/-! ### Pictures of the whole machine -/

/-- What a picture has set up is in force. -/
def PictureSetup.SetUp (pic : PictureSetup) (s : CaptureHal) : Prop :=
  (match pic.channel with
    | .zsl => s.pending.zslRequest = true
    | ch => s.machine.hwi.started ch = true) ∧
  (pic.hdrBracket = true → s.pending.hdrBracket = true)

/-- What is in force of a picture is found by its end: the event that ends the
picture looks for it by the mode, the format and the HDR flags of that moment. -/
inductive PictureSetup.Found (s : CaptureHal) : PictureSetup → Prop
  | zsl (h : s.pending.zslRequest = true → s.machine.state = .previewPicTaking ∧
      s.machine.hwi.params.ZslIs true) : Found s ⟨.zsl, false⟩
  | snapshot (h : s.machine.hwi.started .snapshot = true → s.machine.state = .videoPicTaking ∨
      s.machine.state = .previewPicTaking ∧ s.machine.hwi.params.ZslIs false) :
      Found s ⟨.snapshot, false⟩
  | picture (pic : PictureSetup) (hstate : s.machine.state = .picTaking)
      (hzsl : s.machine.hwi.params.ZslIs false) (hch : s.machine.hwi.pictureChannel = pic.channel)
      (hhdr : pic.hdrBracket = true → s.isHDREnabled = true) : Found s pic

def PictureSetup.left (pic : PictureSetup) (s : CaptureHal) : Teardown :=
  ⟨pic, s.machine.hwi.channels pic.channel, s.pending⟩

section Event

variable {s : CaptureHal} {c : Call} {str : HdrString} {pic : PictureSetup}

theorem pictureChannel_eq (h : Hwi) : h.pictureChannel = .capture ∨ h.pictureChannel = .raw := by
  unfold Hwi.pictureChannel
  split
  · exact .inl rfl
  · exact .inr rfl

theorem pending_event : (s.event c str).1.pending =
    s.pendingAfter (c.withHdr s.isHDREnabled) str (s.event c str).1.machine := rfl

theorem setsUp_liveSnapshot {m : Machine} {hdr : Bool}
    (hlive : m.state = .previewing ∧ m.hwi.params.recordingHint = true ∨ m.state = .recording) :
    m.setsUp hdr = ⟨.snapshot, false⟩ := by
  refine if_neg fun hs => ?_
  obtain ⟨-, hhint⟩ | hrec := hlive
  · exact Bool.false_ne_true (hs.2.symm.trans hhint)
  · exact SmState.noConfusion (hs.1.symm.trans hrec)

/-- **A picture that begins is set up.** -/
theorem setUp_of_step (hpic : s.machine.state.isPicTaking = false)
    (hpic' : (s.event c str).1.machine.state.isPicTaking = true) :
    ∃ pic, (s.event c str).1.picture = some pic ∧ pic.SetUp (s.event c str).1 := by
  refine ⟨s.machine.setsUp s.isHDREnabled, ?_, ?_⟩
  · simp only [CaptureHal.event] at hpic' ⊢
    simp [CaptureHal.pictureAfter, hpic, hpic']
  cases begins_stateMachine hpic hpic' with
  | picture hstate hevt hhint hrc heq =>
    have hmach : (s.event c str).1.machine = _ := heq
    have hhandle : s.pending.handle s.machine (c.withHdr s.isHDREnabled) =
        s.pending.takePicture (c.withHdr s.isHDREnabled).outcomes s.machine.hwi :=
      if_pos ⟨hstate, hevt, hhint⟩
    rw [Machine.setsUp, if_pos ⟨hstate, hhint⟩]
    cases hzsl : s.machine.hwi.params.zslMode with
    | true =>
      obtain ⟨hsome, hreq⟩ := (Hwi.takePicture_zsl_fst_eq_noError _ _ hzsl).mp hrc
      refine ⟨?_, fun hb => absurd hb Bool.false_ne_true⟩
      simp [pending_event, CaptureHal.pendingAfter, Machine.replacesZsl, Machine.restartsPreview,
        hevt, hmach, hhandle, Pending.takePicture, hzsl, (takePicture_zsl_spec hzsl hrc).1, hsome,
        hreq]
    | false =>
      refine ⟨?_, fun hb => ?_⟩
      · have hstarted := started_takePicture hzsl hrc
        rw [hmach]
        obtain hch | hch := pictureChannel_eq s.machine.hwi
        all_goals
          rw [hch] at hstarted ⊢
          exact hstarted
      · have hset := ((Hwi.takePicture_fst_eq_noError _ _ hzsl).mp hrc).1 hb
        have hon : (c.withHdr s.isHDREnabled).outcomes.hdrEnabled = true := hb
        simp [pending_event, CaptureHal.pendingAfter, Machine.commits, Machine.updates, hevt,
          hhandle, Pending.takePicture, hzsl, hon, hset]
  | liveSnapshot hevt hstate hrc heq =>
    rw [setsUp_liveSnapshot (hstate.imp (fun hs => ⟨hs.1, hs.2.1⟩) And.left)]
    refine ⟨?_, fun hb => absurd hb Bool.false_ne_true⟩
    have hhwi : (s.event c str).1.machine.hwi = _ := heq
    rw [hhwi]
    exact (takeLiveSnapshot_spec hrc).1

/-- During a picture a handler can only cancel it. -/
theorem handle_of_isPicTaking {m : Machine} {b : Pending} (hpic : m.state.isPicTaking = true) :
    b.handle m c = if c.evt.endsPicture ∧ (m.state = .picTaking ∨
      m.state = .previewPicTaking ∧ m.hwi.params.zslMode) then b.cancelPicture c.outcomes m.hwi
      else b := by
  refine if_neg fun hs => ?_
  rw [hs.1] at hpic
  exact Bool.false_ne_true hpic

/-- A request on the ZSL channel survives neither its channel nor the end of its
picture; none is made during one. -/
theorem zslRequest_event (hpic : s.machine.state.isPicTaking = true)
    (hreq : (s.event c str).1.pending.zslRequest = true) :
    s.pending.zslRequest = true ∧ s.machine.restartsPreview (c.withHdr s.isHDREnabled) = false ∧
      ((s.event c str).1.machine.hwi.channels .zsl).isSome = true ∧
      (c.evt.endsPicture = true → s.machine.state = .previewPicTaking →
        s.machine.hwi.params.zslMode = true → (s.machine.hwi.channels .zsl).isSome = false) := by
  simp only [pending_event, CaptureHal.pendingAfter, handle_of_isPicTaking hpic,
    Machine.replacesZsl, Bool.and_eq_true, Bool.not_eq_true', Bool.or_eq_false_iff] at hreq
  obtain ⟨⟨hhandle, hrestart, -⟩, hsome⟩ := hreq
  refine ⟨?_, hrestart, hsome, fun hends hstate hzsl => ?_⟩
  · revert hhandle
    split
    · unfold Pending.cancelPicture
      split
      · exact fun hb => (Bool.and_eq_true_iff.mp hb).1
      · exact id
    · exact id
  · have hcond : (c.withHdr s.isHDREnabled).evt.endsPicture ∧ (s.machine.state = .picTaking ∨
        s.machine.state = .previewPicTaking ∧ s.machine.hwi.params.zslMode) :=
      ⟨hends, .inr ⟨hstate, hzsl⟩⟩
    rw [if_pos hcond, Pending.cancelPicture, if_pos hzsl] at hhandle
    have hnone := (Bool.and_eq_true_iff.mp hhandle).2
    simpa using hnone

/-- HDR stays on during a picture. -/
theorem isHDREnabled_event (hG : Steady s (.event c str))
    (hpic : s.machine.state.isPicTaking = true) (hhdr : s.isHDREnabled = true) :
    (s.event c str).1.isHDREnabled = true := by
  have hnew : (s.event c str).1.isHDREnabled =
      ((if s.machine.updates c then str.scene.getD s.hdrEnabled else s.hdrEnabled) ||
        s.hdrScene) := rfl
  rw [hnew]
  by_cases hup : s.machine.updates c = true
  · have hevt : c.evt = .setParams := (of_decide_eq_true hup).1
    rw [if_pos hup]
    exact (hG.2.1 hpic hevt).hdr hhdr
  · rw [if_neg hup]
    exact hhdr

/-- What one event leaves of a picture: it is still found, or torn down. -/
structure Continues (pic : PictureSetup) (s' : CaptureHal) : Prop where
  found : s'.machine.state.isPicTaking = true → pic.Found s'
  complete : s'.machine.state.isPicTaking = false → (pic.left s').Complete

theorem pictureEvent_event (hG : Steady s (.event c str))
    (hpic : s.machine.state.isPicTaking = true) :
    PictureEvent s.machine (c.withHdr s.isHDREnabled) (s.event c str).1.machine :=
  pictureEvent_stateMachine hpic fun hevt => ⟨(hG.2.1 hpic hevt).format, (hG.2.1 hpic hevt).zsl⟩

theorem Continues.of_found {s' : CaptureHal} (hpic : s'.machine.state.isPicTaking = true)
    (hf : pic.Found s') : Continues pic s' :=
  ⟨fun _ => hf, fun hout => absurd (hout.symm.trans hpic) Bool.false_ne_true⟩

theorem continues_zsl (hG : Steady s (.event c str)) (hpic : s.machine.state.isPicTaking = true)
    (hf : s.pending.zslRequest = true → s.machine.state = .previewPicTaking ∧
      s.machine.hwi.params.ZslIs true) :
    Continues ⟨.zsl, false⟩ (s.event c str).1 := by
  have hreq := @zslRequest_event s c str hpic
  -- without a request nothing is left to be found
  have hno : ¬ (s.event c str).1.pending.zslRequest = true →
      Continues ⟨.zsl, false⟩ (s.event c str).1 := fun hno =>
    ⟨fun _ => .zsl fun h => absurd h hno,
      fun _ => ⟨Bool.eq_false_iff.mpr hno, fun hb => absurd hb Bool.false_ne_true⟩⟩
  cases pictureEvent_event hG hpic with
  | stays hends hstate hsame =>
    refine .of_found (by rw [hstate, hpic]) (.zsl fun h => ?_)
    obtain ⟨hpreview, hzsl⟩ := hf (hreq h).1
    exact ⟨hstate.trans hpreview, hsame.zsl true hzsl⟩
  | restarts hends hstate hrestart hpic' hsnap =>
    exact hno fun h => Bool.false_ne_true ((hreq h).2.1.symm.trans hrestart)
  | records hends hstate hzsl hstate' hsnap hkeep =>
    exact hno fun h => Bool.false_ne_true (hzsl.symm.trans (hf (hreq h).1).2.1)
  | stopsRecording hevt hstate hstate' hparams =>
    exact hno fun h => SmState.noConfusion (hstate.symm.trans (hf (hreq h).1).1)
  | ends hends hstate' hended =>
    refine hno fun h => ?_
    obtain ⟨hbefore, -, hsome, hcancel⟩ := hreq h
    obtain ⟨hstate, hzsl⟩ := hf hbefore
    exact Bool.false_ne_true ((hcancel hends hstate hzsl.1).symm.trans (hended.zsl hsome))

theorem continues_snapshot (hG : Steady s (.event c str))
    (hpic : s.machine.state.isPicTaking = true)
    (hf : s.machine.hwi.started .snapshot = true → s.machine.state = .videoPicTaking ∨
      s.machine.state = .previewPicTaking ∧ s.machine.hwi.params.ZslIs false) :
    Continues ⟨.snapshot, false⟩ (s.event c str).1 := by
  cases pictureEvent_event hG hpic with
  | stays hends hstate hsame =>
    refine .of_found (by rw [hstate, hpic]) (.snapshot fun h => ?_)
    rw [hsame.started] at h
    obtain hvideo | ⟨hpreview, hzsl⟩ := hf h
    · exact .inl (hstate.trans hvideo)
    · exact .inr ⟨hstate.trans hpreview, hsame.zsl false hzsl⟩
  | restarts hends hstate hrestart hpic' hsnap =>
    exact .of_found hpic' (.snapshot fun h => absurd (hsnap.symm.trans h) Bool.false_ne_true)
  | records hends hstate hzsl hstate' hsnap hkeep =>
    refine .of_found (by obtain h | h := hstate' <;> rw [h] <;> rfl) (.snapshot fun h => ?_)
    obtain hvideo | ⟨-, hoff⟩ := hf (hsnap h)
    · exact SmState.noConfusion (hstate.symm.trans hvideo)
    · exact hstate'.imp_right fun hpreview => ⟨hpreview, hkeep false hoff⟩
  | stopsRecording hevt hstate hstate' hparams =>
    refine .of_found (by rw [hstate']; rfl) (.snapshot fun _ => .inr ⟨hstate', ?_⟩)
    rw [hparams]
    exact hG.1.2 hstate hevt
  | ends hends hstate' hended =>
    refine ⟨fun h => absurd (hstate'.symm.trans h) Bool.false_ne_true, fun _ => ⟨?_, ?_⟩⟩
    · refine Bool.eq_false_iff.mpr fun h => ?_
      obtain ⟨hon, hmode⟩ := hended.snapshot h
      obtain hvideo | ⟨hpreview, hoff⟩ := hf hon
      · obtain hs | ⟨hs, -⟩ := hmode <;> exact SmState.noConfusion (hvideo.symm.trans hs)
      · obtain hs | ⟨-, hz⟩ := hmode
        · exact SmState.noConfusion (hpreview.symm.trans hs)
        · exact Bool.false_ne_true (hoff.1.symm.trans hz)
    · exact fun hb => absurd hb Bool.false_ne_true

/-- The end of a picture without ZSL restores the bracketing, if HDR is still on. -/
theorem hdrBracket_event (hends : c.evt.endsPicture = true) (hstate : s.machine.state = .picTaking)
    (hzsl : s.machine.hwi.params.zslMode = false) (hhdr : s.isHDREnabled = true)
    (hset : c.outcomes.setParms = .noError) : (s.event c str).1.pending.hdrBracket = false := by
  have hpic : s.machine.state.isPicTaking = true := by rw [hstate]; rfl
  have hcond : (c.withHdr s.isHDREnabled).evt.endsPicture ∧ (s.machine.state = .picTaking ∨
      s.machine.state = .previewPicTaking ∧ s.machine.hwi.params.zslMode) := ⟨hends, .inl hstate⟩
  have hon : (c.withHdr s.isHDREnabled).outcomes.hdrEnabled = true := hhdr
  have hok : (c.withHdr s.isHDREnabled).outcomes.setParms = .noError := hset
  have hhandle := (@handle_of_isPicTaking (c.withHdr s.isHDREnabled) s.machine s.pending
    hpic).trans (if_pos hcond)
  simp [pending_event, CaptureHal.pendingAfter, hhandle, Pending.cancelPicture, hzsl, hon, hok]

theorem continues_picture (hG : Steady s (.event c str)) (hstate : s.machine.state = .picTaking)
    (hzsl : s.machine.hwi.params.ZslIs false) (hch : s.machine.hwi.pictureChannel = pic.channel)
    (hhdr : pic.hdrBracket = true → s.isHDREnabled = true) :
    Continues pic (s.event c str).1 := by
  have hpic : s.machine.state.isPicTaking = true := by rw [hstate]; rfl
  cases pictureEvent_event hG hpic with
  | stays hends hstate' hsame =>
    refine .of_found (by rw [hstate', hpic]) (.picture pic (hstate'.trans hstate)
      (hsame.zsl false hzsl) (hsame.channel_eq.trans hch) fun hb => ?_)
    exact isHDREnabled_event hG hpic (hhdr hb)
  | restarts hends hs hrestart hpic' hsnap | records hends hs hz hstate' hsnap hkeep
  | stopsRecording hevt hs hstate' hparams => exact SmState.noConfusion (hstate.symm.trans hs)
  | ends hends hstate' hended =>
    refine ⟨fun h => absurd (hstate'.symm.trans h) Bool.false_ne_true, fun _ => ⟨?_, fun hb => ?_⟩⟩
    · have hnone := hended.picture hstate hzsl.1
      have hown := pictureChannel_eq s.machine.hwi
      rw [hch] at hnone hown
      obtain hcapture | hraw := hown
      · simpa [PictureSetup.left, hcapture] using hnone
      · simpa [PictureSetup.left, hraw] using hnone
    · exact hdrBracket_event hends hstate hzsl.1 (hhdr hb) (hG.2.2 hstate hends (hhdr hb))

theorem PictureSetup.Found.event (hf : pic.Found s) (hG : Steady s (.event c str))
    (hpic : s.machine.state.isPicTaking = true) : Continues pic (s.event c str).1 := by
  cases hf with
  | zsl hf => exact continues_zsl hG hpic hf
  | snapshot hf => exact continues_snapshot hG hpic hf
  | picture _ hstate hzsl hch hhdr => exact continues_picture hG hstate hzsl hch hhdr

theorem found_of_begins (hG : Steady s (.event c str)) (hpic : s.machine.state.isPicTaking = false)
    (hpic' : (s.event c str).1.machine.state.isPicTaking = true) :
    (s.machine.setsUp s.isHDREnabled).Found (s.event c str).1 := by
  cases begins_stateMachine hpic hpic' with
  | picture hstate hevt hhint hrc heq =>
    obtain ⟨hsettled, -⟩ := hG.1.1 hstate hevt
    have hmach : (s.event c str).1.machine = _ := heq
    rw [Machine.setsUp, if_pos ⟨hstate, hhint⟩]
    cases hzsl : s.machine.hwi.params.zslMode with
    | true =>
      refine .zsl fun _ => ?_
      rw [hzsl] at hsettled
      rw [hmach]
      exact ⟨if_pos hzsl, by rw [(takePicture_zsl_spec hzsl hrc).2]; exact hsettled⟩
    | false =>
      rw [hzsl] at hsettled
      obtain ⟨hz, hch⟩ := params_takePicture hsettled hrc
      refine .picture _ ?_ ?_ ?_ fun hb => ?_
      · rw [hmach]
        exact if_neg (by rw [hzsl]; exact Bool.false_ne_true)
      · rw [hmach]
        exact hz
      · rw [hmach]
        exact hch
      · have hup : s.machine.updates c = false :=
          decide_eq_false fun h => SmEvt.noConfusion (h.1.symm.trans hevt)
        have hsame : (s.event c str).1.isHDREnabled =
            ((if s.machine.updates c then str.scene.getD s.hdrEnabled else s.hdrEnabled) ||
              s.hdrScene) := rfl
        rw [hsame, hup]
        exact hb
  | liveSnapshot hevt hstate hrc heq =>
    have hhwi : (s.event c str).1.machine.hwi = _ := heq
    rw [setsUp_liveSnapshot (hstate.imp (fun hs => ⟨hs.1, hs.2.1⟩) And.left)]
    refine .snapshot fun _ => ?_
    rw [hhwi, (takeLiveSnapshot_spec hrc).2]
    obtain ⟨hpreviewing, hhint, hstate'⟩ | ⟨-, hstate'⟩ := hstate
    · obtain ⟨hsettled, hoff⟩ := hG.1.1 hpreviewing hevt
      rw [hoff hhint] at hsettled
      exact .inr ⟨hstate', hsettled⟩
    · exact .inl hstate'

end Event

section Runs

variable {s s' : CaptureHal} {i : HalInput} {os o : List Teardown}

/-- A picture that is being taken is known, and found by its end. -/
def PictureFound (s : CaptureHal) : Prop :=
  s.machine.state.isPicTaking = true → ∃ pic, s.picture = some pic ∧ pic.Found s

theorem PictureFound.event {c : Call} {str : HdrString} (h : PictureFound s)
    (hG : Steady s (.event c str)) :
    PictureFound (s.event c str).1 ∧ ∀ t ∈ (s.event c str).2, t.Complete := by
  have hpicture : (s.event c str).1.picture = s.pictureAfter (s.event c str).1.machine := rfl
  have hteardown : (s.event c str).2 =
      s.teardown (s.event c str).1.machine (s.event c str).1.pending := rfl
  cases hpic : s.machine.state.isPicTaking with
  | false =>
    refine ⟨fun hpic' => ⟨_, ?_, found_of_begins hG hpic hpic'⟩, ?_⟩
    · rw [hpicture, CaptureHal.pictureAfter, if_pos hpic', if_neg (by simp [hpic])]
    · simp [hteardown, CaptureHal.teardown, hpic]
  | true =>
    obtain ⟨pic, hknown, hf⟩ := h hpic
    have hnext := hf.event hG hpic
    refine ⟨fun hpic' => ⟨pic, ?_, hnext.found hpic'⟩, fun t ht => ?_⟩
    · rw [hpicture, CaptureHal.pictureAfter, if_pos hpic', if_pos hpic, hknown]
    · rw [hteardown, CaptureHal.teardown, hknown] at ht
      split at ht
      · rename_i hleaves
        obtain rfl : t = pic.left (s.event c str).1 := by simpa [PictureSetup.left] using ht
        exact hnext.complete hleaves.2
      · exact absurd ht (List.not_mem_nil)

theorem PictureFound.hdrData {b : Bool} (h : PictureFound s) (hG : Steady s (.hdrData b)) :
    PictureFound { s with hdrScene := b } := by
  intro hpic
  obtain ⟨pic, hknown, hf⟩ := h hpic
  refine ⟨pic, hknown, ?_⟩
  cases hf with
  | zsl hf => exact .zsl hf
  | snapshot hf => exact .snapshot hf
  | picture _ hstate hzsl hch hhdr =>
    exact .picture pic hstate hzsl hch fun hb => hG hpic (hhdr hb)

theorem PictureFound.step (h : PictureFound s) (hG : Steady s i)
    (hs : s.step i = some (s', o)) : PictureFound s' ∧ ∀ t ∈ o, t.Complete := by
  cases i with
  | event c str =>
    obtain heq : s.event c str = (s', o) := Option.some.inj hs
    have hevent := h.event hG
    rwa [heq] at hevent
  | hdrData b =>
    cases hs
    exact ⟨h.hdrData hG, fun t ht => absurd ht List.not_mem_nil⟩

/-- **A picture is torn down when its states are left.**  In a run of steady
steps what is left of each picture is nothing, and no picture is unknown. -/
theorem picture_torn_down {p : Params} {inited : Bool} {is : List HalInput}
    (hrun : Runs CaptureHal.step Steady (.opened p inited) is os s) :
    (∀ t ∈ os, t.Complete) ∧ (s.machine.state.isPicTaking = true → s.picture.isSome = true) := by
  have hopened : PictureFound (.opened p inited) := fun hpic => absurd hpic Bool.false_ne_true
  have hinv := hrun.inv (fun _ os s => PictureFound s ∧ ∀ t ∈ os, t.Complete)
    ⟨hopened, fun t ht => absurd ht List.not_mem_nil⟩
    fun _ os s i s' o h hG hs => by
      obtain ⟨hfound, hnew⟩ := h.1.step hG hs
      refine ⟨hfound, fun t ht => ?_⟩
      exact (List.mem_append.mp ht).elim (h.2 t) (hnew t)
  refine ⟨hinv.2, fun hpic => ?_⟩
  obtain ⟨pic, hknown, -⟩ := hinv.1 hpic
  rw [hknown]
  rfl

end Runs

/-! ### Two pictures -/

def plainEvent (evt : SmEvt) : HalInput := .event (plainCall evt okOutcomes) ⟨none, false⟩

def setScene (hdr : Bool) : HalInput :=
  .event { plainCall .setParams okOutcomes with
    parms := ⟨some .jpeg, none, none, .noError, true⟩ } ⟨some hdr, false⟩

def setFormat (f : PictureFormat) : HalInput :=
  .event { plainCall .setParams okOutcomes with
    parms := ⟨some f, none, none, .noError, false⟩ } ⟨none, false⟩

/-- An HDR picture from beginning to end. -/
def hdrPicture : List HalInput :=
  [setScene true, plainEvent .startNodisplayPreview, plainEvent .takePicture,
    plainEvent .snapshotDone]

theorem setUp_of_step_plain :
    let s := ((CaptureHal.opened plainParams true).event
      (plainCall .startNodisplayPreview okOutcomes) ⟨none, false⟩).1
    ∃ pic, (s.event (plainCall .takePicture okOutcomes) ⟨none, false⟩).1.picture = some pic ∧
      pic.SetUp (s.event (plainCall .takePicture okOutcomes) ⟨none, false⟩).1 :=
  setUp_of_step rfl rfl

theorem picture_torn_down_hdr : ∃ s, Runs CaptureHal.step Steady (.opened plainParams true)
    hdrPicture [⟨⟨.capture, true⟩, none, ⟨false, false⟩⟩] s ∧
    Teardown.Complete ⟨⟨.capture, true⟩, none, ⟨false, false⟩⟩ := by
  obtain ⟨s, hrun⟩ : ∃ s, Runs CaptureHal.step Steady (.opened plainParams true) hdrPicture
      [⟨⟨.capture, true⟩, none, ⟨false, false⟩⟩] s :=
    exists_runs_of_outputs (by decide) (by decide)
  exact ⟨s, hrun, (picture_torn_down hrun).1 _ (List.mem_singleton_self _)⟩

def zslHintParams : Params := ⟨true, true, true, true, some true, some true, none, .jpeg⟩

/-- The picture format becomes raw while a picture is taken: its end deletes the
raw channel, and the capture channel goes on.  With HDR turned off meanwhile the
exposures stay bracketed.  A live snapshot with the ZSL mode set is ended as a ZSL
picture, and its channel goes on. -/
theorem picture_left_behind :
    (∃ s, Runs CaptureHal.step (fun _ _ => True) (.opened plainParams true)
      [plainEvent .startNodisplayPreview, plainEvent .takePicture, setFormat .raw,
        plainEvent .snapshotDone] [⟨⟨.capture, false⟩, some ⟨true⟩, ⟨false, false⟩⟩] s) ∧
    (∃ s, Runs CaptureHal.step (fun _ _ => True) (.opened plainParams true)
      [setScene true, plainEvent .startNodisplayPreview, plainEvent .takePicture, setScene false,
        plainEvent .snapshotDone] [⟨⟨.capture, true⟩, none, ⟨false, true⟩⟩] s) ∧
    (∃ s, Runs CaptureHal.step (fun _ _ => True) (.opened zslHintParams true)
      [plainEvent .startNodisplayPreview, plainEvent .takePicture, plainEvent .snapshotDone]
      [⟨⟨.snapshot, false⟩, some ⟨true⟩, ⟨false, false⟩⟩] s) ∧
    ¬ Teardown.Complete ⟨⟨.capture, false⟩, some ⟨true⟩, ⟨false, false⟩⟩ ∧
    ¬ Teardown.Complete ⟨⟨.capture, true⟩, none, ⟨false, true⟩⟩ ∧
    ¬ Teardown.Complete ⟨⟨.snapshot, false⟩, some ⟨true⟩, ⟨false, false⟩⟩ := by
  refine ⟨exists_runs_of_outputs (by decide) (by decide),
    exists_runs_of_outputs (by decide) (by decide),
    exists_runs_of_outputs (by decide) (by decide), ?_, ?_, ?_⟩
  · exact fun h => Option.some_ne_none _ h.1
  · exact fun h => Bool.false_ne_true (h.2 rfl).symm
  · exact fun h => Bool.false_ne_true h.1.symm

end Qcamera

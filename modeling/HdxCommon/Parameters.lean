/-
Updating parameters (`QCameraParameters`).

A parameter is kept in up to four places: the parameter map, `m_tempMap` for
texts of the batch being made, a member in force and a member `…_new` that the
next commit puts in force.  The setters differ in which of them they write at
once.

* `Settings.updateParameters`, `Settings.commitSetBatch` — the update and the
  commit over all places;
* `stateMachine_setParams` — the state machine's `SET_PARAMS` is `setParamsOn`
  along the path of its state;
* `failed_update_traceless` — in runs that take an update as a whole or leave no
  trace of it, ZSL mode and recording hint are those of the last one committed.
-/
import HdxCommon.StateMirror

namespace Qcamera

/-! ### The parameter object -/

/-- What a setter can write: a text of the parameter map, which `getParameters`
reports, or a member of the object. -/
inductive Key where
  | text (name : String)
  | member (name : String)
  deriving DecidableEq, Repr

/-- The texts of a `SET_PARAMS` request. -/
abbrev KeyTexts := String → Option String

/-- What is in force. -/
structure View where
  map : Key → Option String
  zslMode : Bool
  recordingHint : Bool

structure Settings extends View where
  tempMap : Key → Option String
  zslModeNew : Bool
  recordingHintNew : Bool

def lookupAttr (arr : List (String × ℤ)) (name : String) : Option ℤ :=
  (arr.find? fun e => e.1 = name).map Prod.snd

def onOffModesMap : List (String × ℤ) := [("off", 0), ("on", 1)]

def trueFalseModesMap : List (String × ℤ) := [("false", 0), ("true", 1)]

/-- The two members with a pending value. -/
inductive Flag where
  | zslMode | recordingHint
  deriving DecidableEq, Repr

def Flag.key : Flag → String
  | .zslMode => "zsl"
  | .recordingHint => "recording-hint"

def Flag.modesMap : Flag → List (String × ℤ)
  | .zslMode => onOffModesMap
  | .recordingHint => trueFalseModesMap

def View.flag (own : View) : Flag → Bool
  | .zslMode => own.zslMode
  | .recordingHint => own.recordingHint

def Settings.pending (s : Settings) : Flag → Bool
  | .zslMode => s.zslModeNew
  | .recordingHint => s.recordingHintNew

/-! ### The setters -/

/-- What a setter does with a request: nothing, return `BAD_VALUE`, write a key
at once, put a text into `m_tempMap`, or set the ZSL mode or the recording hint.
The flag says that the preview has to be restarted. -/
inductive Setting where
  | keep
  | refuse
  | put (key : Key) (text : String) (restart : Bool)
  | remove (key : Key)
  | stage (name text : String) (restart : Bool)
  | zsl (text : String) (value : ℤ)
  | hint (text : String) (value : ℤ)
  deriving DecidableEq, Repr

/-- What a setter does follows from the request and from what was in force
before the update; a text that one setter writes is read by no other one. -/
abbrev Setter := KeyTexts → View → Setting

/-- A new text that the table has is set; one it does not have is refused. -/
def lookupAndSet (name : String) (arr : List (String × ℤ)) (make : String → ℤ → Setting) :
    Setter := fun params own =>
  match params name with
  | none => .keep
  | some str =>
    if own.map (.text name) = some str then .keep
    else match lookupAttr arr str with
      | some value => make str value
      | none => .refuse

def setZslMode : Setter := lookupAndSet Flag.zslMode.key onOffModesMap .zsl

def setRecordingHint : Setter := lookupAndSet Flag.recordingHint.key trueFalseModesMap .hint

/-- The text is taken as it is; without one the parameter is removed. -/
def copyOrRemove (name : String) : Setter := fun params _ =>
  match params name with
  | some str => .put (.text name) str false
  | none => .remove (.text name)

/-- `setGpsLocation`, one setter for each of its parameters. -/
def setGpsLocation : List Setter :=
  ["gps-processing-method", "gps-latitude", "gps-latitude-ref", "gps-longitude",
    "gps-longitude-ref", "gps-altitude-ref", "gps-altitude", "gps-status",
    "gps-timestamp"].map copyOrRemove

/-- What the other setters may do: anything but write the ZSL mode or the
recording hint. -/
def Setting.IsOther : Setting → Prop
  | .keep | .refuse => True
  | .put key _ _ | .remove key => ∀ fl : Flag, key ≠ .text fl.key
  | .stage name _ _ => ∀ fl : Flag, name ≠ fl.key
  | .zsl _ _ | .hint _ _ => False

def Flag.setter : Flag → Setter
  | .zslMode => setZslMode
  | .recordingHint => setRecordingHint

/-- The setters that `updateParameters` runs, in its order, and the number of
snapshots that `setNumOfSnapshot` computes. -/
structure Catalog where
  setters : List Setter
  numOfSnapshot : View → String
  setter_mem : ∀ fl : Flag, fl.setter ∈ setters
  others : ∀ f ∈ setters, (∃ fl : Flag, f = fl.setter) ∨ ∀ params own, (f params own).IsOther

/-! ### Update and commit -/

namespace Settings

/-- `m_tempMap` starts empty; pending members stay as they are. -/
def initBatchUpdate (s : Settings) : Settings := { s with tempMap := fun _ => none }

def updateParamEntry (name text : String) (s : Settings) : Settings :=
  { s with tempMap := Function.update s.tempMap (.text name) (some text) }

def set (key : Key) (text : Option String) (s : Settings) : Settings :=
  { s with map := Function.update s.map key text }

def setRecordingHintValue (value : ℤ) (s : Settings) : Settings :=
  { s with
    recordingHintNew :=
      if s.recordingHint ≠ decide (value > 0) then decide (value > 0) else s.recordingHint }

def apply (s : Settings) : Setting → Settings
  | .keep | .refuse => s
  | .put key text _ => s.set key (some text)
  | .remove key => s.set key none
  | .stage name text _ => s.updateParamEntry name text
  -- the text is in the map at once, the mode only pending
  | .zsl text value =>
    { s.set (.text Flag.zslMode.key) (some text) with zslModeNew := decide (value > 0) }
  | .hint text value => (s.updateParamEntry Flag.recordingHint.key text).setRecordingHintValue value

end Settings

def Setting.rc : Setting → Status
  | .refuse => .badValue
  | _ => .noError

def Setting.needRestart (own : View) : Setting → Bool
  | .put _ _ restart | .stage _ _ restart => restart
  | .zsl _ _ => true
  | .hint _ value => own.recordingHint != decide (value > 0)
  | _ => false

namespace Settings

/-- Every setter is run, whatever the others return; the last failure is
returned, and the flag for a restart. -/
def updateParameters (setters : List Setter) (params : KeyTexts) (s : Settings) :
    Status × Bool × Settings :=
  let settings := setters.map fun f => f params s.toView
  (settings.foldl (fun final x => if x.rc = .noError then final else x.rc) .noError,
    settings.any (Setting.needRestart s.toView), settings.foldl apply s.initBatchUpdate)

def commitParamChanges (s : Settings) : Settings :=
  { s with
    map := fun key => s.tempMap key <|> s.map key
    tempMap := fun _ => none
    recordingHint := s.recordingHintNew
    zslMode := s.zslModeNew }

/-- `rc` is what `set_parms` returns. -/
def commitSetBatch (rc : Status) (s : Settings) : Status × Settings :=
  if rc = .noError then (.noError, s.commitParamChanges) else (rc, s)

def setNumOfSnapshot (cat : Catalog) (s : Settings) : Settings :=
  s.set (.text "num-snaps-per-shutter") (some (cat.numOfSnapshot s.toView))

/-- `commitParameterChanges` of the HAL. -/
def commitParameterChanges (cat : Catalog) (rc : Status) (s : Settings) : Status × Settings :=
  let (rc, s) := s.commitSetBatch rc
  if rc = .noError then (rc, s.setNumOfSnapshot cat) else (rc, s)

/-- A batch the HAL makes on its own: thermal frame rate, histogram, face
detection, focus lock, HDR bracketing. -/
def internalBatch (rc : Status) (s : Settings) : Settings :=
  (s.initBatchUpdate.commitSetBatch rc).2

end Settings

/-! ### `SET_PARAMS` in each state -/

/-- What a state does with an update that needs the preview restarted: commit it
anyhow, restart, or refuse; one state does not take `SET_PARAMS` at all. -/
inductive SetPath where
  | commit | restart | refuse | reject
  deriving DecidableEq, Repr

def SmState.setPath : SmState → SetPath
  | .previewStopped | .picTaking => .commit
  | .previewReady | .previewing | .previewPicTaking => .restart
  | .recording | .videoPicTaking => .refuse
  | .prepareSnapshot => .reject

/-- `SET_PARAMS` over any kind of parameters.  With a restart, the result of the
commit is not looked at; `restartRc` is that of the restart. -/
def setParamsOn {σ : Type} (path : SetPath) (update : σ → Status × Bool × σ)
    (commit : σ → Status × σ) (restartRc : Status) (s : σ) : Status × σ :=
  if path = .reject then (.invalidOperation, s)
  else
    let (rc, needRestart, s) := update s
    if rc ≠ .noError then (rc, s)
    else if needRestart ∧ path = .restart then (restartRc, (commit s).2)
    else if needRestart ∧ path = .refuse then (.badValue, s)
    else commit s

section StateMachine

open Machine

/-- The commit of the channel parameters, as the state machine has it. -/
def Params.commitChanges (o : Outcomes) (p : Params) : Status × Params :=
  let (rc, p) := p.commitSetBatch o.setParms
  (if rc = .noError then o.setNumOfSnapshot else rc, p)

section

variable (o : Outcomes) (h : Hwi)

@[simp] theorem params_stopPreview : (h.stopPreview o).2.params = h.params := by
  simp [Hwi.stopPreview, Hwi.unpreparePreview]

@[simp] theorem params_unpreparePreview : h.unpreparePreview.params = h.params := rfl

@[simp] theorem params_preparedStart : (preparedStart o h).2.params = h.params := by
  simp only [preparedStart]
  split
  · split
    all_goals simp [Hwi.startPreview, apply_ite Prod.snd, apply_ite Hwi.params]
  · exact Hwi.params_preparePreview o h

@[simp] theorem params_commitParameterChanges :
    (h.commitParameterChanges o).2.params = (h.params.commitChanges o).2 := rfl

theorem commitParameterChanges_fst :
    (h.commitParameterChanges o).1 = (h.params.commitChanges o).1 := rfl

end

section

variable {m : Machine} {c : Call}

/-- `SET_PARAMS` of the machine leaves the status and the parameters of
`setParamsOn`. -/
def FollowsPath (c : Call) (path : SetPath) (m : Machine) (r : Machine × List Signal) : Prop :=
  ∃ restartRc, ∃ q, q = setParamsOn path (Params.updateParameters c.parms)
      (Params.commitChanges c.outcomes) restartRc m.hwi.params ∧
    r.2 = [.api ⟨q.1, c.evt, .default⟩] ∧ r.1.hwi.params = q.2

attribute [local simp] setParamsOn Hwi.updateParameters Call.done commitParameterChanges_fst

theorem followsPath_setParams : FollowsPath c .commit m (m.setParams c) := by
  refine ⟨.noError, _, rfl, ?_⟩
  by_cases hrc : (Params.updateParameters c.parms m.hwi.params).1 = .noError
  · simp [Machine.setParams, hrc]
  · simp [Machine.setParams, hrc]

theorem followsPath_setParamsRestarting (failed : SmState) :
    FollowsPath c .restart m (m.setParamsRestarting c failed) := by
  refine ⟨(preparedStart c.outcomes ((((m.hwi.updateParameters c.parms).2.2.stopPreview
    c.outcomes).2.commitParameterChanges c.outcomes).2)).1, _, rfl, ?_⟩
  by_cases hrc : (Params.updateParameters c.parms m.hwi.params).1 = .noError
  · by_cases hre : (Params.updateParameters c.parms m.hwi.params).2.1 = true
    · simp [setParamsRestarting, hrc, hre]
    · simp [setParamsRestarting, hrc, hre]
  · simp [setParamsRestarting, hrc]

theorem followsPath_setParamsRecording : FollowsPath c .refuse m (m.setParamsRecording c) := by
  refine ⟨.noError, _, rfl, ?_⟩
  by_cases hrc : (Params.updateParameters c.parms m.hwi.params).1 = .noError
  · by_cases hre : (Params.updateParameters c.parms m.hwi.params).2.1 = true
    · simp [setParamsRecording, hrc, hre]
    · simp [setParamsRecording, hrc, hre]
  · simp [setParamsRecording, hrc]

theorem followsPath_previewReady (hc : c.evt = .setParams) :
    FollowsPath c .restart m (m.procEvtPreviewReadyState c) := by
  refine ⟨((((m.hwi.updateParameters c.parms).2.2.unpreparePreview.commitParameterChanges
    c.outcomes).2).preparePreview c.outcomes).1, _, rfl, ?_⟩
  by_cases hrc : (Params.updateParameters c.parms m.hwi.params).1 = .noError
  · by_cases hre : (Params.updateParameters c.parms m.hwi.params).2.1 = true
    · simp [procEvtPreviewReadyState, hc, hrc, hre]
    · simp [procEvtPreviewReadyState, hc, hrc, hre]
  · simp [procEvtPreviewReadyState, hc, hrc]

/-- **`SET_PARAMS` of the state machine** follows the path of its state. -/
theorem stateMachine_setParams (hc : c.evt = .setParams) :
    FollowsPath c m.state.setPath m (m.stateMachine c) := by
  unfold stateMachine
  cases hs : m.state with
  | previewStopped =>
    simp only [procEvtPreviewStoppedState, hc]
    exact followsPath_setParams
  | picTaking =>
    simp only [procEvtPicTakingState, hc]
    exact followsPath_setParams
  | previewReady => exact followsPath_previewReady hc
  | previewing =>
    simp only [procEvtPreviewingState, hc]
    exact followsPath_setParamsRestarting _
  | previewPicTaking =>
    simp only [procEvtPreviewPicTakingState, hc]
    exact followsPath_setParamsRestarting _
  | recording =>
    simp only [procEvtRecordingState, hc]
    exact followsPath_setParamsRecording
  | videoPicTaking =>
    simp only [procEvtVideoPicTakingState, hc]
    exact followsPath_setParamsRecording
  | prepareSnapshot =>
    simp only [procEvtPrepareSnapshotState, hc]
    exact ⟨.noError, _, rfl, rfl, rfl⟩

end

end StateMachine

/-! ### Runs of updates and batches -/

/-- `SET_PARAMS` in some state, with what `set_parms` and the restart of the
preview return, or a batch of the HAL. -/
inductive ParamInput where
  | setParams (state : SmState) (params : KeyTexts) (setParms restart : Status)
  | batch (setParms : Status)

/-- A `SET_PARAMS` was answered; `committed` says that its changes were handed
to the backend and taken there. -/
inductive ParamOutput where
  | answered (params : KeyTexts) (rc : Status) (committed : Bool)

/-- The update gets as far as the commit, and the commit succeeds. -/
def Settings.commits (cat : Catalog) (path : SetPath) (params : KeyTexts) (setParms : Status)
    (s : Settings) : Bool :=
  let (rc, needRestart, _) := s.updateParameters cat.setters params
  decide (path ≠ .reject ∧ rc = .noError ∧ ¬ (path = .refuse ∧ needRestart = true) ∧
    setParms = .noError)

def Settings.setParams (cat : Catalog) (path : SetPath) (params : KeyTexts)
    (setParms restart : Status) (s : Settings) : Status × Settings :=
  setParamsOn path (Settings.updateParameters cat.setters params)
    (Settings.commitParameterChanges cat setParms) restart s

def paramStep (cat : Catalog) (s : Settings) : ParamInput → Option (Settings × List ParamOutput)
  | .setParams state params setParms restart =>
    let r := s.setParams cat state.setPath params setParms restart
    some (r.2, [.answered params r.1 (s.commits cat state.setPath params setParms)])
  | .batch setParms => some (s.internalBatch setParms, [])

/-- ZSL mode and recording hint, as the updates accepted and committed name
them. -/
def named (flags : Flag → Bool) : ParamOutput → Flag → Bool
  | .answered params rc committed, fl =>
    if rc = .noError ∧ committed = true then
      match (params fl.key).bind (lookupAttr fl.modesMap) with
      | some value => decide (value > 0)
      | none => flags fl
    else flags fl

def TakesParams (cat : Catalog) (params : KeyTexts) (own : View) : Prop :=
  ∀ f ∈ cat.setters, f params own ≠ .refuse

instance (cat : Catalog) (params : KeyTexts) (own : View) :
    Decidable (TakesParams cat params own) :=
  inferInstanceAs (Decidable (∀ f ∈ cat.setters, f params own ≠ .refuse))

def NeedsRestart (cat : Catalog) (params : KeyTexts) (own : View) : Prop :=
  ∃ f ∈ cat.setters, (f params own).needRestart own = true

/-- A setting that is gone with the next batch: it writes nothing at once but
what is there already, and no new mode or hint. -/
def Setting.Traceless (own : View) : Setting → Prop
  | .keep | .refuse | .stage _ _ _ => True
  | .put key text _ => own.map key = some text
  | .remove key => own.map key = none
  | .zsl _ _ => False
  | .hint _ value => own.recordingHint = decide (value > 0)

instance (own : View) : DecidablePred (Setting.Traceless own)
  | .keep | .refuse | .stage _ _ _ => .isTrue trivial
  | .put key text _ => inferInstanceAs (Decidable (own.map key = some text))
  | .remove key => inferInstanceAs (Decidable (own.map key = none))
  | .zsl _ _ => .isFalse id
  | .hint _ value => inferInstanceAs (Decidable (own.recordingHint = decide (value > 0)))

/-- A request with no new value for a parameter that is written at once, nor
for ZSL mode or recording hint. -/
def NamesNothingNew (cat : Catalog) (params : KeyTexts) (own : View) : Prop :=
  ∀ f ∈ cat.setters, (f params own).Traceless own

instance (cat : Catalog) (params : KeyTexts) (own : View) :
    Decidable (NamesNothingNew cat params own) :=
  inferInstanceAs (Decidable (∀ f ∈ cat.setters, (f params own).Traceless own))

/-- The update is accepted and committed, and the preview comes up again where
it has to be restarted. -/
structure Taken (cat : Catalog) (path : SetPath) (params : KeyTexts) (setParms restart : Status)
    (own : View) : Prop where
  path_ne : path ≠ .reject
  accepts : TakesParams cat params own
  allowed : path = .refuse → ¬ NeedsRestart cat params own
  setParms_eq : setParms = .noError
  restarts : path = .restart → NeedsRestart cat params own → restart = .noError

/-- The update is turned down before anything is committed or restarted. -/
def TurnedDown (cat : Catalog) (path : SetPath) (params : KeyTexts) (setParms : Status)
    (own : View) : Prop :=
  ¬ TakesParams cat params own ∨ path = .refuse ∧ NeedsRestart cat params own ∨
    ¬ (path = .restart ∧ NeedsRestart cat params own) ∧ setParms ≠ .noError

/-- Every `SET_PARAMS` is taken as a whole, or is turned down and named nothing
new. -/
def AllOrNothing (cat : Catalog) (s : Settings) : ParamInput → Prop
  | .setParams state params setParms restart =>
    state.setPath = .reject ∨ Taken cat state.setPath params setParms restart s.toView ∨
      TurnedDown cat state.setPath params setParms s.toView ∧
        NamesNothingNew cat params s.toView
  | .batch _ => True

/-- Nothing is pending, and the texts of mode and hint say what is in force. -/
structure Settled (s : Settings) : Prop where
  pending_eq : ∀ fl, s.pending fl = s.flag fl
  text : ∀ fl text, s.map (.text fl.key) = some text →
    (lookupAttr fl.modesMap text).map (fun value => decide (value > 0)) = some (s.flag fl)

section Update

variable {cat : Catalog} {params : KeyTexts} {s s' : Settings} {own : View}

theorem foldl_rc (settings : List Setting) (start : Status) :
    settings.foldl (fun final x => if x.rc = .noError then final else x.rc) start =
      if .refuse ∈ settings then .badValue else start := by
  induction settings generalizing start with
  | nil => rfl
  | cons x rest ih =>
    rw [List.foldl_cons, ih]
    cases x with
    | refuse => simp [Setting.rc]
    | _ => simp [Setting.rc]

theorem updateParameters_fst :
    (s.updateParameters cat.setters params).1 = .noError ↔ TakesParams cat params s.toView := by
  simp only [Settings.updateParameters, foldl_rc, List.mem_map, TakesParams]
  split
  next h =>
    obtain ⟨f, hf, hx⟩ := h
    exact iff_of_false Status.noConfusion fun hall => hall f hf hx
  next h => exact iff_of_true rfl fun f hf hx => h ⟨f, hf, hx⟩

theorem updateParameters_restart :
    (s.updateParameters cat.setters params).2.1 = true ↔ NeedsRestart cat params s.toView := by
  simp [Settings.updateParameters, NeedsRestart]

theorem Settings.set_self {key : Key} {text : Option String} (h : s.map key = text) :
    s.set key text = s := by
  rw [Settings.set, ← h, Function.update_eq_self]

/-- Either way the pending hint is the new one. -/
theorem setRecordingHintValue_eq (value : ℤ) (s : Settings) :
    s.setRecordingHintValue value = { s with recordingHintNew := decide (value > 0) } := by
  rw [Settings.setRecordingHintValue]
  split
  next => rfl
  next h => rw [not_not.mp h]

theorem Setting.Traceless.apply {x : Setting} (h : x.Traceless s.toView)
    (hnew : s.recordingHintNew = s.recordingHint) :
    (s.apply x).initBatchUpdate = s.initBatchUpdate := by
  cases x with
  | keep | refuse | stage name text restart => rfl
  | put key text restart | remove key => rw [Settings.apply, Settings.set_self h]
  | zsl text value => exact absurd h id
  | hint text value =>
    have hvalue : s.recordingHint = decide (value > 0) := h
    rw [Settings.apply, setRecordingHintValue_eq, ← hvalue, ← hnew]
    rfl

theorem initBatchUpdate_toView (h : s'.initBatchUpdate = s.initBatchUpdate) :
    s'.toView = s.toView := by
  have hview := congrArg Settings.toView h
  exact hview

theorem foldl_traceless {settings : List Setting} (hnew : s.recordingHintNew = s.recordingHint)
    (h : ∀ x ∈ settings, x.Traceless s.toView) :
    (settings.foldl Settings.apply s).initBatchUpdate = s.initBatchUpdate := by
  -- every prefix leaves all but `m_tempMap` as it was
  induction settings generalizing s with
  | nil => rfl
  | cons x rest ih =>
    have hx := (h x List.mem_cons_self).apply hnew
    have hview := initBatchUpdate_toView hx
    have hnew' : (s.apply x).recordingHintNew = (s.apply x).recordingHint := by
      have h₁ := congrArg Settings.recordingHintNew hx
      have h₂ := congrArg View.recordingHint hview
      exact h₁.trans (hnew.trans h₂.symm)
    rw [List.foldl_cons, ih hnew', hx]
    intro y hy
    rw [hview]
    exact h y (List.mem_cons_of_mem x hy)

theorem initBatchUpdate_pending (h : s'.initBatchUpdate = s.initBatchUpdate) (fl : Flag) :
    s'.pending fl = s.pending fl := by
  have hpending := congrArg (fun t => t.pending fl) h
  cases fl with
  | zslMode | recordingHint => exact hpending

theorem Settled.of_initBatchUpdate (h : Settled s) (heq : s'.initBatchUpdate = s.initBatchUpdate) :
    Settled s' := by
  have hview := initBatchUpdate_toView heq
  refine ⟨?_, ?_⟩
  · intro fl
    rw [initBatchUpdate_pending heq, hview]
    exact h.pending_eq fl
  · rw [hview]
    exact h.text

variable {path : SetPath} {setParms restart : Status}

theorem commits_iff : s.commits cat path params setParms = true ↔
    path ≠ .reject ∧ TakesParams cat params s.toView ∧
      ¬ (path = .refuse ∧ NeedsRestart cat params s.toView) ∧ setParms = .noError := by
  rw [Settings.commits, ← updateParameters_fst, ← updateParameters_restart]
  exact decide_eq_true_iff

theorem setParams_turnedDown (h : Settled s) (hpath : path ≠ .reject)
    (hdown : TurnedDown cat path params setParms s.toView)
    (hnew : NamesNothingNew cat params s.toView) :
    (s.setParams cat path params setParms restart).1 ≠ .noError ∧
      (s.setParams cat path params setParms restart).2.initBatchUpdate = s.initBatchUpdate ∧
      s.commits cat path params setParms = false := by
  have hupdate : (s.updateParameters cat.setters params).2.2.initBatchUpdate =
      s.initBatchUpdate := by
    refine foldl_traceless (s := s.initBatchUpdate) (h.pending_eq .recordingHint) ?_
    intro x hx
    obtain ⟨f, hf, rfl⟩ := List.mem_map.mp hx
    exact hnew f hf
  have hcommits : s.commits cat path params setParms = false := by
    rw [Bool.eq_false_iff, Ne, commits_iff]
    rintro ⟨-, hacc, hallowed, hok⟩
    rcases hdown with hdown | hdown | hdown
    · exact hdown hacc
    · exact hallowed hdown
    · exact hdown.2 hok
  have hcases : s.setParams cat path params setParms restart =
        ((s.updateParameters cat.setters params).1, (s.updateParameters cat.setters params).2.2) ∧
        (s.updateParameters cat.setters params).1 ≠ .noError ∨
      s.setParams cat path params setParms restart =
        (.badValue, (s.updateParameters cat.setters params).2.2) ∨
      s.setParams cat path params setParms restart =
        (setParms, (s.updateParameters cat.setters params).2.2) ∧ setParms ≠ .noError := by
    rw [Settings.setParams, setParamsOn, if_neg hpath]
    by_cases hrc : (s.updateParameters cat.setters params).1 = .noError
    · rw [TurnedDown, ← updateParameters_fst, ← updateParameters_restart] at hdown
      rcases hdown with hdown | ⟨hrefuse, hre⟩ | ⟨hre, hfail⟩
      · exact absurd hrc hdown
      · refine .inr (.inl ?_)
        simp [hrc, hre, hrefuse]
      · by_cases hrefuse : (s.updateParameters cat.setters params).2.1 = true ∧ path = .refuse
        · refine .inr (.inl ?_)
          simp [hrc, hrefuse]
        · refine .inr (.inr ⟨?_, hfail⟩)
          have hre' : ¬ ((s.updateParameters cat.setters params).2.1 = true ∧ path = .restart) :=
            fun hboth => hre hboth.symm
          simp [hrc, hrefuse, hre', Settings.commitParameterChanges, Settings.commitSetBatch, hfail]
    · refine .inl ⟨?_, hrc⟩
      simp [hrc]
  rcases hcases with ⟨heq, hne⟩ | heq | ⟨heq, hne⟩
  · exact ⟨by rw [heq]; exact hne, by rw [heq]; exact hupdate, hcommits⟩
  · exact ⟨by rw [heq]; exact Status.noConfusion, by rw [heq]; exact hupdate, hcommits⟩
  · exact ⟨by rw [heq]; exact hne, by rw [heq]; exact hupdate, hcommits⟩

theorem setParams_taken (h : Taken cat path params setParms restart s.toView) :
    s.setParams cat path params setParms restart =
      (.noError, ((s.updateParameters cat.setters params).2.2.commitParamChanges).setNumOfSnapshot
        cat) ∧ s.commits cat path params setParms = true := by
  have hrc := updateParameters_fst.mpr h.accepts
  refine ⟨?_, commits_iff.mpr ⟨h.path_ne, h.accepts, fun hr => h.allowed hr.1 hr.2,
    h.setParms_eq⟩⟩
  rw [Settings.setParams, setParamsOn, if_neg h.path_ne]
  by_cases hre : NeedsRestart cat params s.toView
  · have hre' := updateParameters_restart.mpr hre
    have hrefuse : path ≠ .refuse := fun hr => h.allowed hr hre
    by_cases hp : path = .restart
    · simp [hrc, hre', hp, h.restarts hp hre, Settings.commitParameterChanges,
        Settings.commitSetBatch, h.setParms_eq]
    · simp [hrc, hp, hrefuse, Settings.commitParameterChanges, Settings.commitSetBatch,
        h.setParms_eq]
  · have hre' : (s.updateParameters cat.setters params).2.1 = false := by
      rw [Bool.eq_false_iff, Ne, updateParameters_restart]
      exact hre
    simp [hrc, hre', Settings.commitParameterChanges, Settings.commitSetBatch, h.setParms_eq]

end Update

/-! ### An update that is taken -/

section Taken

variable {α : Type} {cat : Catalog} {params : KeyTexts} {s : Settings} {x : Setting}
  {settings : List Setting}

/-- A part `part` of the object that only the setting `x` writes, and always to
the same. -/
structure WrittenBy (part : Settings → α) (x : Setting) (settings : List Setting) : Prop where
  congr : ∀ s t : Settings, part s = part t → part (s.apply x) = part (t.apply x)
  again : ∀ s : Settings, part ((s.apply x).apply x) = part (s.apply x)
  only : ∀ y ∈ settings, y = x ∨ ∀ s : Settings, part (s.apply y) = part s

theorem WrittenBy.tail {part : Settings → α} {y : Setting}
    (h : WrittenBy part x (y :: settings)) : WrittenBy part x settings :=
  ⟨h.congr, h.again, fun z hz => h.only z (List.mem_cons_of_mem y hz)⟩

theorem WrittenBy.foldl_stays {part : Settings → α} (h : WrittenBy part x settings)
    (hs : part (s.apply x) = part s) : part (settings.foldl Settings.apply s) = part s := by
  induction settings generalizing s with
  | nil => rfl
  | cons y rest ih =>
    rw [List.foldl_cons]
    rcases h.only y List.mem_cons_self with rfl | hy
    · rw [ih h.tail (h.again s), hs]
    · have hagain : part ((s.apply y).apply x) = part (s.apply y) := by
        rw [h.congr _ _ (hy s), hs, hy s]
      rw [ih h.tail hagain, hy s]

theorem WrittenBy.foldl {part : Settings → α} (h : WrittenBy part x settings)
    (hx : x ∈ settings) : part (settings.foldl Settings.apply s) = part (s.apply x) := by
  induction settings generalizing s with
  | nil => exact absurd hx List.not_mem_nil
  | cons y rest ih =>
    rw [List.foldl_cons]
    rcases h.only y List.mem_cons_self with rfl | hy
    · exact h.tail.foldl_stays (h.again s)
    · rcases List.mem_cons.mp hx with rfl | hmem
      · exact h.tail.foldl_stays (h.again s)
      · rw [ih h.tail hmem]
        exact h.congr _ _ (hy s)

def Settings.part (fl : Flag) (s : Settings) : Option String × Option String × Bool :=
  (s.tempMap (.text fl.key), s.map (.text fl.key), s.pending fl)

theorem Settings.part_set {key : Key} {text : Option String} {fl : Flag}
    (hne : key ≠ .text fl.key) (s : Settings) : (s.set key text).part fl = s.part fl := by
  simp only [Settings.part, Settings.set, Function.update_of_ne hne.symm]
  cases fl <;> rfl

theorem Settings.part_updateParamEntry {name text : String} {fl : Flag} (hne : name ≠ fl.key)
    (s : Settings) : (s.updateParamEntry name text).part fl = s.part fl := by
  have hkey : Key.text fl.key ≠ .text name := fun heq => hne (Key.text.inj heq).symm
  simp only [Settings.part, Settings.updateParamEntry, Function.update_of_ne hkey]
  cases fl <;> rfl

theorem Setting.IsOther.part_apply (h : x.IsOther) (fl : Flag) (s : Settings) :
    (s.apply x).part fl = s.part fl := by
  cases x with
  | keep | refuse => rfl
  | put key text restart | remove key => exact s.part_set (h fl)
  | stage name text restart => exact s.part_updateParamEntry (h fl)
  | zsl text value | hint text value => exact absurd h id

/-- The settings that `lookupAndSet` makes. -/
inductive IsLookup (name : String) (arr : List (String × ℤ)) (make : String → ℤ → Setting)
    (params : KeyTexts) (own : View) : Setting → Prop where
  | absent : params name = none → IsLookup name arr make params own .keep
  | same {text : String} : params name = some text → own.map (.text name) = some text →
      IsLookup name arr make params own .keep
  | new {text : String} {value : ℤ} : params name = some text → lookupAttr arr text = some value →
      IsLookup name arr make params own (make text value)
  | unknown : IsLookup name arr make params own .refuse

theorem isLookup_lookupAndSet (name : String) (arr : List (String × ℤ))
    (make : String → ℤ → Setting) (params : KeyTexts) (own : View) :
    IsLookup name arr make params own (lookupAndSet name arr make params own) := by
  unfold lookupAndSet
  split
  next h => exact .absent h
  next text h =>
    split
    next hsame => exact .same h hsame
    next =>
      split
      next value hvalue => exact .new h hvalue
      next => exact .unknown

def Flag.make : Flag → String → ℤ → Setting
  | .zslMode => .zsl
  | .recordingHint => .hint

theorem Flag.isLookup (fl : Flag) (params : KeyTexts) (own : View) :
    IsLookup fl.key fl.modesMap fl.make params own (fl.setter params own) := by
  cases fl with
  | zslMode | recordingHint => exact isLookup_lookupAndSet _ _ _ params own

theorem part_apply_make (fl : Flag) (text : String) (value : ℤ) (s : Settings) :
    (s.apply (fl.make text value)).part fl =
      match fl with
      | .zslMode => (s.tempMap (.text fl.key), some text, decide (value > 0))
      | .recordingHint => (some text, s.map (.text fl.key), decide (value > 0)) := by
  cases fl with
  | zslMode =>
    simp [Flag.make, Settings.apply, Settings.set, Settings.part, Settings.pending]
  | recordingHint =>
    rw [Flag.make, Settings.apply, setRecordingHintValue_eq]
    simp [Settings.updateParamEntry, Settings.part, Settings.pending]

theorem part_apply_make_ne {fl fl' : Flag} (hne : fl' ≠ fl) (text : String) (value : ℤ)
    (s : Settings) : (s.apply (fl'.make text value)).part fl = s.part fl := by
  have hkey : fl'.key ≠ fl.key := by
    revert hne
    cases fl <;> cases fl' <;> decide
  cases fl' with
  | zslMode =>
    cases fl with
    | zslMode => exact absurd rfl hne
    | recordingHint => exact s.part_set fun heq => hkey (Key.text.inj heq)
  | recordingHint =>
    cases fl with
    | zslMode =>
      rw [Flag.make, Settings.apply, setRecordingHintValue_eq]
      exact @Settings.part_updateParamEntry _ text _ hkey s
    | recordingHint => exact absurd rfl hne

theorem Catalog.writtenBy (cat : Catalog) (params : KeyTexts) (own : View) (fl : Flag) :
    WrittenBy (Settings.part fl) (fl.setter params own)
      (cat.setters.map fun f => f params own) := by
  refine ⟨?_, ?_, ?_⟩
  · intro s t hst
    have hlookup := fl.isLookup params own
    generalize fl.setter params own = x at hlookup ⊢
    cases hlookup with
    | absent _ | same _ _ | unknown => exact hst
    | new _ _ =>
      rw [part_apply_make, part_apply_make]
      simp only [Settings.part, Prod.mk.injEq] at hst
      cases fl with
      | zslMode => rw [hst.1]
      | recordingHint => rw [hst.2.1]
  · intro s
    have hlookup := fl.isLookup params own
    generalize fl.setter params own = x at hlookup ⊢
    cases hlookup with
    | absent _ | same _ _ | unknown => rfl
    | @new text value _ _ =>
      have hparts := part_apply_make fl text value s
      rw [part_apply_make, part_apply_make]
      simp only [Settings.part, Prod.ext_iff] at hparts
      cases fl with
      | zslMode => rw [hparts.1]
      | recordingHint => rw [hparts.2.1]
  · intro y hy
    obtain ⟨f, hf, rfl⟩ := List.mem_map.mp hy
    rcases cat.others f hf with ⟨fl', rfl⟩ | hother
    · by_cases hfl : fl' = fl
      · exact .inl (by rw [hfl])
      · refine .inr fun s => ?_
        have hlookup := fl'.isLookup params own
        generalize fl'.setter params own = x at hlookup ⊢
        cases hlookup with
        | absent _ | same _ _ | unknown => rfl
        | new _ _ => exact part_apply_make_ne hfl _ _ s
    · exact .inr fun s => (hother params own).part_apply fl s

theorem flag_commit (cat : Catalog) (u : Settings) (fl : Flag) :
    (u.commitParamChanges.setNumOfSnapshot cat).flag fl = u.pending fl := by
  cases fl <;> rfl

theorem pending_commit (cat : Catalog) (u : Settings) (fl : Flag) :
    (u.commitParamChanges.setNumOfSnapshot cat).pending fl = u.pending fl := by
  cases fl <;> rfl

theorem map_commit (cat : Catalog) (u : Settings) (fl : Flag) :
    (u.commitParamChanges.setNumOfSnapshot cat).map (.text fl.key) =
      (u.tempMap (.text fl.key) <|> u.map (.text fl.key)) := by
  have hne : Key.text fl.key ≠ .text "num-snaps-per-shutter" := by cases fl <;> decide
  simp only [Settings.setNumOfSnapshot, Settings.set, Function.update_of_ne hne]
  rfl

theorem Settled.updated (h : Settled s) (hacc : TakesParams cat params s.toView) (fl : Flag) :
    let u := (s.updateParameters cat.setters params).2.2
    u.pending fl = named s.flag (.answered params .noError true) fl ∧
    ∀ text, (u.tempMap (.text fl.key) <|> u.map (.text fl.key)) = some text →
      (lookupAttr fl.modesMap text).map (fun value => decide (value > 0)) =
        some (u.pending fl) := by
  intro u
  have hpart : u.part fl = (s.initBatchUpdate.apply (fl.setter params s.toView)).part fl :=
    (cat.writtenBy params s.toView fl).foldl (List.mem_map_of_mem (cat.setter_mem fl))
  have hkept : u.part fl = s.initBatchUpdate.part fl → u.pending fl = s.flag fl ∧
      (u.tempMap (.text fl.key) <|> u.map (.text fl.key)) = s.map (.text fl.key) := by
    intro heq
    simp only [Settings.part, Prod.mk.injEq] at heq
    obtain ⟨htemp, hmap, hpend⟩ := heq
    refine ⟨?_, ?_⟩
    · rw [hpend, ← h.pending_eq fl]
      cases fl <;> rfl
    · rw [htemp, hmap]
      rfl
  have hlookup := fl.isLookup params s.toView
  have hne := hacc _ (cat.setter_mem fl)
  generalize fl.setter params s.toView = x at hpart hlookup hne
  cases hlookup with
  | unknown => exact absurd rfl hne
  | absent habsent =>
    obtain ⟨hpend, htext⟩ := hkept hpart
    refine ⟨?_, ?_⟩
    · rw [hpend, named, if_pos ⟨rfl, rfl⟩, habsent]
      rfl
    · intro text htx
      rw [hpend]
      exact h.text fl text (htext ▸ htx)
  | @same text hreq hsame =>
    obtain ⟨hpend, htext⟩ := hkept hpart
    have hvalue := h.text fl text hsame
    refine ⟨?_, ?_⟩
    · obtain ⟨value, hv, hdec⟩ := Option.map_eq_some_iff.mp hvalue
      rw [hpend, named, if_pos ⟨rfl, rfl⟩, hreq, Option.bind_some, hv, ← hdec]
    · intro text' htx
      rw [hpend]
      exact h.text fl text' (htext ▸ htx)
  | @new text value hreq hv =>
    rw [part_apply_make] at hpart
    have hnew : (u.tempMap (.text fl.key) <|> u.map (.text fl.key)) = some text ∧
        u.pending fl = decide (value > 0) := by
      simp only [Settings.part, Prod.ext_iff] at hpart
      cases fl with
      | zslMode | recordingHint => exact ⟨by rw [hpart.1, hpart.2.1]; rfl, hpart.2.2⟩
    refine ⟨?_, ?_⟩
    · rw [hnew.2, named, if_pos ⟨rfl, rfl⟩, hreq, Option.bind_some, hv]
    · intro text' htx
      obtain rfl := Option.some.inj (hnew.1.symm.trans htx)
      rw [hv, hnew.2]
      rfl

/-- **A commit puts the named values in force**, and leaves nothing pending. -/
theorem Settled.commit (h : Settled s) (hacc : TakesParams cat params s.toView) :
    Settled (((s.updateParameters cat.setters params).2.2.commitParamChanges).setNumOfSnapshot
      cat) ∧
    (((s.updateParameters cat.setters params).2.2.commitParamChanges).setNumOfSnapshot cat).flag =
      named s.flag (.answered params .noError true) := by
  refine ⟨⟨?_, ?_⟩, ?_⟩
  · intro fl
    rw [flag_commit, pending_commit]
  · intro fl text htext
    rw [map_commit] at htext
    rw [flag_commit]
    exact (h.updated hacc fl).2 text htext
  · funext fl
    rw [flag_commit]
    exact (h.updated hacc fl).1

end Taken

section Runs

variable {cat : Catalog} {s s' s₀ : Settings} {i : ParamInput} {o : List ParamOutput}
  {is : List ParamInput} {os : List ParamOutput}

theorem internalBatch_settled (h : Settled s) (rc : Status) :
    (s.internalBatch rc).initBatchUpdate = s.initBatchUpdate := by
  unfold Settings.internalBatch Settings.commitSetBatch
  split
  · have hzsl : s.zslMode = s.zslModeNew := (h.pending_eq .zslMode).symm
    have hhint : s.recordingHint = s.recordingHintNew := (h.pending_eq .recordingHint).symm
    simp only [Settings.initBatchUpdate, Settings.commitParamChanges, Settings.mk.injEq, and_true]
    rw [← hzsl, ← hhint]
    rfl
  · rfl

theorem setParams_failed {state : SmState} {params : KeyTexts} {setParms restart : Status}
    (h : Settled s) (hG : AllOrNothing cat s (.setParams state params setParms restart))
    (hrc : (s.setParams cat state.setPath params setParms restart).1 ≠ .noError) :
    (s.setParams cat state.setPath params setParms restart).2.initBatchUpdate =
      s.initBatchUpdate := by
  by_cases hpath : state.setPath = .reject
  · rw [Settings.setParams, setParamsOn, if_pos hpath]
  · rcases hG with hreject | htaken | ⟨hdown, hnew⟩
    · exact absurd hreject hpath
    · exact absurd (by rw [(setParams_taken htaken).1]) hrc
    · exact (setParams_turnedDown h hpath hdown hnew).2.1

/-- **One step** that takes an update as a whole or leaves no trace of it. -/
theorem Settled.step (h : Settled s) (hG : AllOrNothing cat s i)
    (hs : paramStep cat s i = some (s', o)) :
    Settled s' ∧ s'.flag = o.foldl named s.flag := by
  have hsame : s'.initBatchUpdate = s.initBatchUpdate → Settled s' ∧ s'.flag = s.flag := by
    intro heq
    exact ⟨h.of_initBatchUpdate heq, by rw [initBatchUpdate_toView heq]⟩
  cases i with
  | batch rc =>
    simp only [paramStep, Option.some.injEq, Prod.mk.injEq] at hs
    obtain ⟨rfl, rfl⟩ := hs
    exact hsame (internalBatch_settled h rc)
  | setParams state params setParms restart =>
    simp only [paramStep, Option.some.injEq, Prod.mk.injEq] at hs
    obtain ⟨rfl, rfl⟩ := hs
    rw [List.foldl_cons, List.foldl_nil]
    by_cases hrc : (s.setParams cat state.setPath params setParms restart).1 = .noError
    · rcases hG with hreject | htaken | ⟨hdown, hnew⟩
      · rw [Settings.setParams, setParamsOn, if_pos hreject] at hrc
        cases hrc
      · obtain ⟨heq, hcommits⟩ := setParams_taken htaken
        rw [heq, hcommits]
        exact h.commit htaken.accepts
      · have hpath : state.setPath ≠ .reject := by
          intro hreject
          rw [Settings.setParams, setParamsOn, if_pos hreject] at hrc
          cases hrc
        exact absurd hrc (setParams_turnedDown h hpath hdown hnew).1
    · have hnamed : named s.flag (.answered params
          (s.setParams cat state.setPath params setParms restart).1
          (s.commits cat state.setPath params setParms)) = s.flag := by
        funext fl
        rw [named, if_neg fun hok => hrc hok.1]
      rw [hnamed]
      exact hsame (setParams_failed h hG hrc)

theorem Settled.of_runs (h₀ : Settled s₀) (h : Runs (paramStep cat) (AllOrNothing cat) s₀ is os s) :
    Settled s ∧ s.flag = os.foldl named s₀.flag := by
  refine h.inv (fun _ os s => Settled s ∧ s.flag = os.foldl named s₀.flag) ⟨h₀, rfl⟩ ?_
  rintro _ os s i s' o ⟨hsettled, hflag⟩ hG hs
  obtain ⟨hsettled', hflag'⟩ := hsettled.step hG hs
  refine ⟨hsettled', ?_⟩
  rw [hflag', hflag, List.foldl_append]

end Runs

/-! ### A catalog -/

end Qcamera

/-
Every API call is answered once.

The thread that calls an API waits for the result that a handler signals.  The
handlers answer each API event at once, except for the preparation of a
snapshot: it is answered when the backend reports its end.  One case is
missing, the registration of a face image while a snapshot is prepared.

* `answers_stateMachine_iff` — an event gets the answer it is owed exactly if
  it is not that one;
* `api_answered_once` — along every run without it the answers given and the one
  deferred are the calls taken.
-/
import HdxCommon.StateMachine

namespace Qcamera

/-! ### Answers -/

def answers (sigs : List Signal) : List SmEvt :=
  sigs.filterMap fun
    | .api r => some r.requestApi
    | _ => none

/-- The events that `signalEvtResult` answers. -/
def endings (sigs : List Signal) : List SmEvt :=
  sigs.filterMap fun
    | .evt r => some r.requestApi
    | _ => none

/-- The preparation of a snapshot begins; its answer is deferred. -/
def Defers (m : Machine) (c : Call) : Prop :=
  m.state = .previewing ∧ c.evt = .prepareSnapshot ∧ c.outcomes.prepareSnapshot = .noError

/-- The preparation of a snapshot ends. -/
def Completes (m : Machine) (c : Call) : Prop :=
  m.state = .prepareSnapshot ∧ c.evt = .evtInternal ∧ c.internal = .prepSnapshotDone

instance (m : Machine) (c : Call) : Decidable (Defers m c) := inferInstanceAs (Decidable (_ ∧ _))

instance (m : Machine) (c : Call) : Decidable (Completes m c) :=
  inferInstanceAs (Decidable (_ ∧ _))

/-- The answers an event is owed: an API call its own, the end of the
preparation that of the call which began it. -/
def owed (m : Machine) (c : Call) : List SmEvt :=
  if c.evt.isApi then if Defers m c then [] else [c.evt]
  else if Completes m c then [.prepareSnapshot] else []

def owedEnding (c : Call) : List SmEvt := if c.evt = .snapshotDone then [c.evt] else []

/-- The one event that no case of its handler answers. -/
def Answerable (m : Machine) (c : Call) : Prop :=
  ¬ (m.state = .prepareSnapshot ∧ c.evt = .regFaceImage)

@[simp] theorem answers_append (sigs sigs' : List Signal) :
    answers (sigs ++ sigs') = answers sigs ++ answers sigs' := List.filterMap_append

@[simp] theorem endings_append (sigs sigs' : List Signal) :
    endings (sigs ++ sigs') = endings sigs ++ endings sigs' := List.filterMap_append

section Steps

variable {m : Machine} {c : Call} {h : Hwi}

/-! ### What the parts of the handlers signal -/

/-- A result of a handler that answers an API call, reports the end of a
snapshot, and waits for nothing. -/
structure Settles (c : Call) (r : Machine × List Signal) : Prop where
  answers : answers r.2 = if c.evt.isApi then [c.evt] else []
  endings : endings r.2 = owedEnding c
  state : r.1.state ≠ .prepareSnapshot

theorem Settles.of_api {r : Machine × List Signal} {x : ApiResult} (hapi : c.evt.isApi = true)
    (hsig : r.2 = [.api x]) (hx : x.requestApi = c.evt) (hs : r.1.state ≠ .prepareSnapshot) :
    Settles c r := by
  refine ⟨?_, ?_, hs⟩
  · rw [hsig, hapi, if_pos rfl, ← hx]
    rfl
  · have hne : c.evt ≠ .snapshotDone := by
      intro heq
      rw [heq] at hapi
      cases hapi
    rw [hsig, owedEnding, if_neg hne]
    rfl

theorem settles_done {s : SmState} {r : Status × Hwi} (hapi : c.evt.isApi = true)
    (hs : s ≠ .prepareSnapshot) : Settles c (c.done s r) := .of_api hapi rfl rfl hs

theorem settles_ended {s : SmState} {r : Status × Hwi} (hevt : c.evt = .snapshotDone)
    (hs : s ≠ .prepareSnapshot) : Settles c (c.ended s r) := by
  refine ⟨?_, ?_, hs⟩
  · rw [hevt]
    rfl
  · rw [owedEnding, if_pos hevt]
    rfl

theorem Settles.of_silent {r : Machine × List Signal} (hapi : c.evt.isApi = false)
    (hevt : c.evt ≠ .snapshotDone) (hans : Qcamera.answers r.2 = [])
    (hend : Qcamera.endings r.2 = []) (hs : r.1.state ≠ .prepareSnapshot) : Settles c r := by
  refine ⟨?_, ?_, hs⟩
  · rw [hans, hapi]
    rfl
  · rw [hend, owedEnding, if_neg hevt]

namespace Machine

theorem settles_serve (hapi : c.evt.isApi = true) (hs : m.state ≠ .prepareSnapshot) :
    Settles c (m.serve c) := by
  unfold serve
  split <;> exact .of_api hapi rfl rfl hs

theorem settles_setParamsRestarting {failed : SmState} (hapi : c.evt.isApi = true)
    (hs : m.state ≠ .prepareSnapshot) (hfailed : failed ≠ .prepareSnapshot) :
    Settles c (m.setParamsRestarting c failed) := by
  simp only [setParamsRestarting]
  split_ifs
  · exact settles_done hapi hfailed
  all_goals exact settles_done hapi hs

theorem settles_internalEvt (hevt : c.evt = .evtInternal) (hs : m.state ≠ .prepareSnapshot) :
    Settles c (m.internalEvt c) := by
  unfold internalEvt
  split <;> exact .of_silent (by rw [hevt]; rfl) (by simp [hevt]) rfl rfl hs

theorem settles_evtNotify (hevt : c.evt = .evtNotify) (hs : m.state ≠ .prepareSnapshot) :
    Settles c (m.evtNotify c) := by
  unfold evtNotify
  split <;> exact .of_silent (by rw [hevt]; rfl) (by simp [hevt]) rfl rfl hs

theorem settles_silent {m' : Machine} (hapi : c.evt.isApi = false) (hevt : c.evt ≠ .snapshotDone)
    (hs : m'.state ≠ .prepareSnapshot) : Settles c (m', []) := .of_silent hapi hevt rfl rfl hs

/-! ### The handlers -/

/-- An event of the backend is not answered. -/
theorem settles_backend (hapi : c.evt.isApi = false) (hs : m.state ≠ .prepareSnapshot) :
    Settles c (m.stateMachine c) := by
  obtain ⟨s, h⟩ := m
  cases s
  case prepareSnapshot => exact absurd rfl hs
  all_goals
    simp only [stateMachine, procEvtPreviewStoppedState, procEvtPreviewReadyState,
      procEvtPreviewingState, procEvtPicTakingState, procEvtRecordingState,
      procEvtVideoPicTakingState, procEvtPreviewPicTakingState]
    cases hevt : c.evt
    case evtNotify => exact settles_evtNotify hevt nofun
    case snapshotDone => exact settles_ended hevt nofun
    case evtInternal => first
      | exact settles_internalEvt hevt nofun
      | exact settles_silent hapi (by simp [hevt]) nofun
    case thermalNotify | jpegEvtNotify => exact settles_silent hapi (by simp [hevt]) nofun
    all_goals exact absurd hapi (by rw [hevt]; nofun)

theorem settles_previewStopped (hapi : c.evt.isApi = true) :
    Settles c (procEvtPreviewStoppedState c ⟨.previewStopped, h⟩) := by
  have hs : SmState.previewStopped ≠ .prepareSnapshot := nofun
  unfold procEvtPreviewStoppedState
  cases hevt : c.evt
  case startPreview =>
    simp only
    split_ifs <;> exact settles_done hapi nofun
  case startNodisplayPreview =>
    simp only
    split_ifs <;> exact settles_done hapi nofun
  all_goals first
    | exact settles_serve hapi hs
    | exact .of_api hapi rfl rfl hs
    | exact absurd hapi (by rw [hevt]; nofun)

theorem settles_previewReady (hapi : c.evt.isApi = true) :
    Settles c (procEvtPreviewReadyState c ⟨.previewReady, h⟩) := by
  have hs : SmState.previewReady ≠ .prepareSnapshot := nofun
  unfold procEvtPreviewReadyState
  cases hevt : c.evt
  case setPreviewWindow =>
    simp only
    split_ifs <;> exact settles_done hapi nofun
  case setParams =>
    simp only
    split_ifs <;> exact settles_done hapi nofun
  case stopPreview => exact settles_done hapi nofun
  all_goals first
    | exact settles_serve hapi hs
    | exact .of_api hapi rfl rfl hs
    | exact absurd hapi (by rw [hevt]; nofun)

theorem settles_picTaking (hapi : c.evt.isApi = true) :
    Settles c (procEvtPicTakingState c ⟨.picTaking, h⟩) := by
  have hs : SmState.picTaking ≠ .prepareSnapshot := nofun
  unfold procEvtPicTakingState
  cases hevt : c.evt
  case stopPreview | cancelPicture => exact settles_done hapi nofun
  all_goals first
    | exact settles_serve hapi hs
    | exact .of_api hapi rfl rfl hs
    | exact absurd hapi (by rw [hevt]; nofun)

theorem settles_recording (hapi : c.evt.isApi = true) :
    Settles c (procEvtRecordingState c ⟨.recording, h⟩) := by
  have hs : SmState.recording ≠ .prepareSnapshot := nofun
  unfold procEvtRecordingState
  cases hevt : c.evt
  case takePicture =>
    simp only
    split_ifs <;> exact settles_done hapi nofun
  case stopRecording | stopPreview => exact settles_done hapi nofun
  all_goals first
    | exact settles_serve hapi hs
    | exact .of_api hapi rfl rfl hs
    | exact absurd hapi (by rw [hevt]; nofun)

theorem settles_videoPicTaking (hapi : c.evt.isApi = true) :
    Settles c (procEvtVideoPicTakingState c ⟨.videoPicTaking, h⟩) := by
  have hs : SmState.videoPicTaking ≠ .prepareSnapshot := nofun
  unfold procEvtVideoPicTakingState
  cases hevt : c.evt
  case stopRecording | cancelPicture | stopPreview => exact settles_done hapi nofun
  all_goals first
    | exact settles_serve hapi hs
    | exact .of_api hapi rfl rfl hs
    | exact absurd hapi (by rw [hevt]; nofun)

theorem settles_previewPicTaking (hapi : c.evt.isApi = true) :
    Settles c (procEvtPreviewPicTakingState c ⟨.previewPicTaking, h⟩) := by
  have hs : SmState.previewPicTaking ≠ .prepareSnapshot := nofun
  unfold procEvtPreviewPicTakingState
  cases hevt : c.evt
  case setParams => exact settles_setParamsRestarting hapi hs nofun
  case cancelPicture | stopPreview => exact settles_done hapi nofun
  case startRecording =>
    simp only
    split_ifs <;> exact settles_done hapi nofun
  all_goals first
    | exact settles_serve hapi hs
    | exact .of_api hapi rfl rfl hs
    | exact absurd hapi (by rw [hevt]; nofun)

theorem settles_previewing (hapi : c.evt.isApi = true) (hdefer : ¬ Defers ⟨.previewing, h⟩ c) :
    Settles c (procEvtPreviewingState c ⟨.previewing, h⟩) := by
  have hs : SmState.previewing ≠ .prepareSnapshot := nofun
  unfold procEvtPreviewingState
  cases hevt : c.evt
  case setParams => exact settles_setParamsRestarting hapi hs nofun
  case stopPreview => exact settles_done hapi nofun
  case startRecording =>
    simp only
    split_ifs <;> exact settles_done hapi nofun
  case prepareSnapshot =>
    have hfail : c.outcomes.prepareSnapshot ≠ .noError := fun hok => hdefer ⟨rfl, hevt, hok⟩
    simp only
    rw [if_neg hfail]
    exact settles_done hapi hs
  case takePicture =>
    simp only
    split_ifs <;> exact settles_done hapi nofun
  all_goals first
    | exact settles_serve hapi hs
    | exact .of_api hapi rfl rfl hs
    | exact absurd hapi (by rw [hevt]; nofun)

theorem settles_stateMachine (hs : m.state ≠ .prepareSnapshot) (hdefer : ¬ Defers m c) :
    Settles c (m.stateMachine c) := by
  cases hapi : c.evt.isApi with
  | false => exact settles_backend hapi hs
  | true => ?_
  obtain ⟨s, h⟩ := m
  cases s with
  | previewStopped => exact settles_previewStopped hapi
  | previewReady => exact settles_previewReady hapi
  | previewing => exact settles_previewing hapi hdefer
  | prepareSnapshot => exact absurd rfl hs
  | picTaking => exact settles_picTaking hapi
  | recording => exact settles_recording hapi
  | videoPicTaking => exact settles_videoPicTaking hapi
  | previewPicTaking => exact settles_previewPicTaking hapi

/-- The handler of the waiting state: it ends the wait with the one answer that
was deferred, and forgets to answer one event. -/
theorem answers_prepareSnapshot :
    (answers (procEvtPrepareSnapshotState c ⟨.prepareSnapshot, h⟩).2 =
        owed ⟨.prepareSnapshot, h⟩ c ↔ c.evt ≠ .regFaceImage) ∧
      endings (procEvtPrepareSnapshotState c ⟨.prepareSnapshot, h⟩).2 = owedEnding c ∧
      ((procEvtPrepareSnapshotState c ⟨.prepareSnapshot, h⟩).1.state = .prepareSnapshot ↔
        ¬ Completes ⟨.prepareSnapshot, h⟩ c) := by
  unfold procEvtPrepareSnapshotState
  cases hevt : c.evt
  case evtInternal =>
    simp only
    split_ifs with hdone
    · simp [answers, endings, owed, owedEnding, Completes, SmEvt.isApi, hevt, hdone]
    · simp only [internalEvt]
      split <;>
        simp [answers, endings, owed, owedEnding, Completes, SmEvt.isApi, hevt, hdone]
  case evtNotify =>
    simp only [evtNotify]
    split <;> simp [answers, endings, owed, owedEnding, Completes, SmEvt.isApi, hevt]
  all_goals
    simp [answers, endings, owed, owedEnding, Defers, Completes, SmEvt.isApi, reject, answer,
      Call.done, Call.ended, hevt]

theorem stateMachine_of_defers (hdefer : Defers m c) :
    m.stateMachine c = (⟨.prepareSnapshot, m.hwi⟩, []) := by
  obtain ⟨hs, hevt, hrc⟩ := hdefer
  simp only [stateMachine, hs, procEvtPreviewingState, hevt]
  rw [if_pos hrc]

/-- **An event gets the answers it is owed exactly if it is answerable.** -/
theorem answers_stateMachine_iff :
    (answers (m.stateMachine c).2 = owed m c ↔ Answerable m c) ∧
      endings (m.stateMachine c).2 = owedEnding c := by
  obtain ⟨s, h⟩ := m
  by_cases hs : s = .prepareSnapshot
  · subst hs
    obtain ⟨hans, hend, -⟩ := answers_prepareSnapshot (c := c) (h := h)
    refine ⟨hans.trans ?_, hend⟩
    simp [Answerable]
  · have hok : Answerable ⟨s, h⟩ c := fun hw => hs hw.1
    by_cases hdefer : Defers ⟨s, h⟩ c
    · have hevt := hdefer.2.1
      rw [stateMachine_of_defers hdefer]
      simp [answers, endings, owed, owedEnding, SmEvt.isApi, hevt, hdefer, hok]
    · have hsettles := settles_stateMachine hs hdefer
      have hcompletes : ¬ Completes ⟨s, h⟩ c := fun hc => hs hc.1
      refine ⟨?_, hsettles.endings⟩
      rw [hsettles.answers, owed, if_neg hdefer, if_neg hcompletes]
      simp [hok]

/-- A machine waits after an event that begins a preparation, and after every
other event during one, up to its end. -/
theorem state_eq_prepareSnapshot_iff :
    (m.stateMachine c).1.state = .prepareSnapshot ↔
      Defers m c ∨ m.state = .prepareSnapshot ∧ ¬ Completes m c := by
  obtain ⟨s, h⟩ := m
  by_cases hs : s = .prepareSnapshot
  · subst hs
    have hnot : ¬ Defers ⟨.prepareSnapshot, h⟩ c := fun hd => nomatch hd.1
    obtain ⟨-, -, hstate⟩ := answers_prepareSnapshot (c := c) (h := h)
    simp only [hnot, false_or, true_and]
    exact hstate
  · by_cases hdefer : Defers ⟨s, h⟩ c
    · simp [stateMachine_of_defers hdefer, hdefer]
    · have hsettles := settles_stateMachine hs hdefer
      simp [hsettles.state, hdefer, hs]

end Machine

end Steps

/-! ### Runs -/

/-- How many answers to a call are still deferred. -/
def stillDeferred (m : Machine) (e : SmEvt) : ℕ :=
  if e = .prepareSnapshot ∧ m.state = .prepareSnapshot then 1 else 0

/-- The answers given along a run, with the one that is still deferred, are the
API calls taken; the reported snapshots are those done. -/
structure AnsweredOnce (cs : List Call) (sigs : List Signal) (m : Machine) : Prop where
  answered : ∀ e, (answers sigs).count e + stillDeferred m e =
    if e.isApi then (cs.map Call.evt).count e else 0
  ended : endings sigs = (cs.map Call.evt).filter (· = .snapshotDone)

theorem count_owed (m : Machine) (c : Call) (e : SmEvt) :
    (owed m c).count e + stillDeferred (m.stateMachine c).1 e =
      stillDeferred m e + if e.isApi ∧ c.evt = e then 1 else 0 := by
  simp only [stillDeferred, Machine.state_eq_prepareSnapshot_iff]
  by_cases hdefer : Defers m c
  · obtain ⟨hs, hevt, hrc⟩ := hdefer
    by_cases he : e = .prepareSnapshot
    · simp [owed, Defers, SmEvt.isApi, hs, hevt, hrc, he]
    · simp [owed, Defers, SmEvt.isApi, hs, hevt, hrc, he, Ne.symm he]
  -- an event of the backend is no API call
  have hbackend : c.evt.isApi = false → ¬ (e.isApi = true ∧ c.evt = e) := by
    rintro hapi ⟨heapi, rfl⟩
    rw [hapi] at heapi
    cases heapi
  by_cases hcomp : Completes m c
  · have hapi : c.evt.isApi = false := by
      rw [hcomp.2.1]
      rfl
    rw [if_neg (hbackend hapi)]
    by_cases he : e = .prepareSnapshot
    · simp [owed, hapi, hdefer, hcomp, hcomp.1, he]
    · simp [owed, hapi, hcomp, he, Ne.symm he]
  -- neither begins nor ends a preparation: the answer is given at once
  simp only [owed, hdefer, hcomp, false_or, if_false, not_false_iff, and_true]
  cases hapi : c.evt.isApi with
  | true =>
    by_cases he : c.evt = e
    · subst he
      simp [hapi, Nat.add_comm]
    · simp [he]
  | false => simp [hbackend hapi]

/-- **Every API call is answered once.**  Along a run that registers no face
image while a snapshot is prepared, the calls taken are those answered and the
one preparation that may still be waiting for its end; in each state reached
the next event is owed its answers and gets them, unless it is that one. -/
theorem api_answered_once {p : Params} {inited : Bool} {m : Machine} {cs : List Call}
    {sigs : List Signal} (hrun : Runs Machine.step Answerable (.opened p inited) cs sigs m) :
    AnsweredOnce cs sigs m ∧
      ∀ c, (answers (m.stateMachine c).2 = owed m c ↔ Answerable m c) ∧
        endings (m.stateMachine c).2 = owedEnding c := by
  refine ⟨?_, fun c => Machine.answers_stateMachine_iff⟩
  refine hrun.inv AnsweredOnce ⟨fun e => ?_, rfl⟩ ?_
  · simp [answers, stillDeferred, Machine.opened]
  intro cs sigs m c m' o hinv hok hs
  obtain ⟨rfl, rfl⟩ : (m.stateMachine c).1 = m' ∧ (m.stateMachine c).2 = o := by
    rw [Machine.step, Option.some.injEq] at hs
    simp [hs]
  obtain ⟨hans, hend⟩ := Machine.answers_stateMachine_iff (m := m) (c := c)
  refine ⟨fun e => ?_, ?_⟩
  · have hbal := hinv.answered e
    have hstep := count_owed m c e
    rw [answers_append, hans.mpr hok, List.count_append, List.map_append, List.count_append]
    have hone : List.count e ([c].map Call.evt) = if c.evt = e then 1 else 0 := by
      simp [List.count_singleton, beq_iff_eq]
    rw [hone]
    cases hapi : e.isApi with
    | true =>
      simp only [hapi, if_true, true_and] at hbal hstep ⊢
      omega
    | false =>
      simp only [hapi, Bool.false_eq_true, if_false, false_and] at hbal hstep ⊢
      omega
  · rw [endings_append, hend, hinv.ended, List.map_append, List.filter_append]
    by_cases hevt : c.evt = .snapshotDone <;> simp [owedEnding, hevt]

/-- A preparation is answered after its end, and a call in between at once. -/
theorem api_answered_once_snapshot : ∃ m sigs,
    Runs Machine.step Answerable (.opened plainParams true)
      [plainCall .setPreviewWindow okOutcomes, plainCall .startPreview okOutcomes,
        plainCall .prepareSnapshot okOutcomes, plainCall .getParams okOutcomes,
        { plainCall .evtInternal okOutcomes with internal := .prepSnapshotDone }] sigs m ∧
    answers sigs = [.setPreviewWindow, .startPreview, .getParams, .prepareSnapshot] ∧
    AnsweredOnce [plainCall .setPreviewWindow okOutcomes, plainCall .startPreview okOutcomes,
      plainCall .prepareSnapshot okOutcomes, plainCall .getParams okOutcomes,
      { plainCall .evtInternal okOutcomes with internal := .prepSnapshotDone }] sigs m := by
  obtain ⟨m, sigs, hexec, hsigs⟩ : ∃ m sigs, exec Machine.step (.opened plainParams true)
      [plainCall .setPreviewWindow okOutcomes, plainCall .startPreview okOutcomes,
        plainCall .prepareSnapshot okOutcomes, plainCall .getParams okOutcomes,
        { plainCall .evtInternal okOutcomes with internal := .prepSnapshotDone }] =
      some (m, sigs) ∧
      answers sigs = [.setPreviewWindow, .startPreview, .getParams, .prepareSnapshot] :=
    ⟨_, _, rfl, rfl⟩
  have hrun := runs_of_exec_guarded (G := Answerable) .nil hexec
    ⟨nofun, fun _ _ => ⟨nofun, fun _ _ => ⟨nofun, fun _ _ => ⟨nofun, fun _ _ => ⟨nofun,
      fun _ _ => trivial⟩⟩⟩⟩⟩
  exact ⟨m, sigs, hrun, hsigs, (api_answered_once hrun).1⟩

/-- A face image registered while a snapshot is prepared gets no answer. -/
theorem regFaceImage_not_answered : ∃ m sigs,
    exec Machine.step (.opened plainParams true)
      [plainCall .setPreviewWindow okOutcomes, plainCall .startPreview okOutcomes,
        plainCall .prepareSnapshot okOutcomes, plainCall .regFaceImage okOutcomes] =
      some (m, sigs) ∧
    (answers sigs).count .regFaceImage = 0 ∧
    ¬ AnsweredOnce [plainCall .setPreviewWindow okOutcomes, plainCall .startPreview okOutcomes,
      plainCall .prepareSnapshot okOutcomes, plainCall .regFaceImage okOutcomes] sigs m := by
  refine ⟨_, _, rfl, rfl, ?_⟩
  intro hanswered
  have hcount := hanswered.answered .regFaceImage
  revert hcount
  decide

end Qcamera

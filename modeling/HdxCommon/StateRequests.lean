/-
The HAL records and takes pictures only when it was asked to.

* `begun_and_ended` — which events begin and end a recording and a picture;
* `activity_requested` — what follows for every run.
-/
import HdxCommon.CaptureTeardown

namespace Qcamera

open Machine

theorem begun_and_ended (m : Machine) (c : Call) :
    ((m.stateMachine c).1.state.isRecording = true →
      (m.state.isRecording = true ∨ c.evt = .startRecording) ∧
        ¬ (c.evt = .stopRecording ∨ c.evt = .stopPreview)) ∧
    ((m.stateMachine c).1.state.isPicTaking = true →
      (m.state.isPicTaking = true ∨ c.evt = .takePicture) ∧ ¬ c.evt.endsPicture = true) := by
  constructor
  · obtain ⟨state, h⟩ := m
    cases state <;> simp only [stateMachine, procEvtPreviewStoppedState, procEvtPreviewReadyState,
      procEvtPreviewingState, procEvtPrepareSnapshotState, procEvtPicTakingState,
      procEvtRecordingState, procEvtVideoPicTakingState, procEvtPreviewPicTakingState,
      setParamsRestarting]
    all_goals cases c.evt <;> simp [SmState.isRecording]
    -- what is left of an event are the outcomes that its handler looks at
    all_goals split_ifs <;> simp
  · intro hpic'
    cases hpic : m.state.isPicTaking with
    | false =>
      have hevt : c.evt = .takePicture := by
        cases begins_stateMachine hpic hpic' <;> assumption
      exact ⟨.inr hevt, by simp [hevt, SmEvt.endsPicture]⟩
    | true =>
      refine ⟨.inl rfl, fun hends => ?_⟩
      have hset : c.evt ≠ .setParams := fun hevt => by simp [hevt, SmEvt.endsPicture] at hends
      cases pictureEvent_stateMachine hpic (absurd · hset) with
      | ends _ hstate' => exact Bool.false_ne_true (hstate'.symm.trans hpic')
      | stopsRecording hevt => simp [hevt, SmEvt.endsPicture] at hends
      | stays hends' | restarts hends' | records hends' =>
        exact Bool.false_ne_true (hends'.symm.trans hends)

/-- **The machine does what it was asked for**: while it records, a `START_RECORDING` has
come and after it no event that ends a recording, and the same for pictures. -/
theorem activity_requested {p : Params} {inited : Bool} {cs : List Call} {sigs : List Signal}
    {m : Machine} (h : Runs step (fun _ _ => True) (opened p inited) cs sigs m) :
    (m.state.isRecording = true → Since (·.evt = .startRecording)
      (fun c => c.evt = .stopRecording ∨ c.evt = .stopPreview) cs) ∧
    (m.state.isPicTaking = true → Since (·.evt = .takePicture) (·.evt.endsPicture = true) cs) := by
  have hnext : ∀ m c m' o, step m c = some (m', o) → (m.stateMachine c).1 = m' :=
    fun _ _ _ _ hs => congrArg Prod.fst (Option.some.inj hs)
  constructor
  · refine h.since (P := (·.state.isRecording = true)) Bool.false_ne_true fun m c m' o hs => ?_
    rw [← hnext m c m' o hs]
    exact (begun_and_ended m c).1
  · refine h.since (P := (·.state.isPicTaking = true)) Bool.false_ne_true fun m c m' o hs => ?_
    rw [← hnext m c m' o hs]
    exact (begun_and_ended m c).2

theorem activity_requested_both : ∃ cs sigs m,
    Runs step (fun _ _ => True) (opened plainParams true) cs sigs m ∧ m.state = .videoPicTaking ∧
    Since (·.evt = .startRecording) (fun c => c.evt = .stopRecording ∨ c.evt = .stopPreview) cs ∧
    Since (·.evt = .takePicture) (·.evt.endsPicture = true) cs := by
  have h := runs_of_exec (show exec step (opened plainParams true) ([.startNodisplayPreview,
    .startRecording, .takePicture].map (plainCall · okOutcomes)) = some _ from rfl)
  exact ⟨_, _, _, h, rfl, (activity_requested h).1 rfl, (activity_requested h).2 rfl⟩

end Qcamera

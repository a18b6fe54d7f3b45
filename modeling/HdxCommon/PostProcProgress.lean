/-
No frame stays behind in the post-processor.

Frames wait in three input queues, and the data thread looks at each of them once
for every `DO_NEXT_JOB`; at the jpeg queue only while no job is with the encoder.

* `Paced` — raw images and frames to reprocess never outnumber the wake-ups;
  jobs for the encoder may, but then a job is ongoing or a wake-up is there;
* `paced_step` — every step keeps that, if wake-ups can be sent and a job that
  cannot be encoded leaves no other behind (`Wakeful`);
* `no_stuck_jobs` — so when the thread has nothing left to do its queues are empty.
-/
import HdxCommon.PostProcOwnership

namespace Qcamera

/-! ### Wake-ups -/

def PostProc.wakeUps (s : PostProc) : ℕ := s.cmds.count .doNextJob

/-- Jobs that wait are waiting for the end of another, or for a wake-up. -/
def PostProc.JobsWoken (s : PostProc) : Prop :=
  s.ongoingJpegQ ≠ [] ∨ s.inputJpegQ = [] ∨ 0 < s.wakeUps

/-- The thread has still to look at the raw queue in this round. -/
def Phase.rawDue : Phase → ℕ
  | .encoding _ _ => 1
  | .raw => 1
  | _ => 0

/-- The thread has still to look at the reprocess queue in this round. -/
def Phase.ppDue : Phase → ℕ
  | .encoding _ _ => 1
  | .raw => 1
  | .pp => 1
  | _ => 0

structure Paced (s : PostProc) : Prop where
  jobs : s.active = true → (∀ job queued, s.phase ≠ .encoding job queued) → s.JobsWoken
  /-- a thread that is not active throws away a job for each wake-up -/
  dropped : s.active = false → s.inputJpegQ.length ≤ s.wakeUps
  raw : s.inputRawQ.length ≤ s.wakeUps + s.phase.rawDue
  pp : s.inputPPQ.length ≤ s.wakeUps + s.phase.ppDue

/-- The steps after which the thread goes on: there is memory for wake-ups, and a
job that is not sent to the encoder, or not kept as ongoing, is the last one or
not the last wake-up. -/
def Wakeful (s : PostProc) : PostInput → Prop
  | .processData _ env => env.cmd.Sends ∧ env.rawCmd.Sends
  | .processRawData _ _ cmd => cmd.Sends
  | .processPPData _ env => env.cmd.Sends
  | .processJpegEvt _ env => env.cmd.Sends
  | .encoded env =>
    env.Starts s.needNewSess ∧ s.ongoingJpegQ ≠ [] ∨ s.inputJpegQ = [] ∨ 0 < s.wakeUps
  | _ => True

section Steps

open PostProc

variable {s s' : PostProc}

theorem Paced.opened (inited : Bool) : Paced (PostProc.opened inited) :=
  ⟨fun h => absurd h Bool.false_ne_true, fun _ => Nat.le_refl 0, Nat.le_refl 0, Nat.le_refl 0⟩

/-- A call that wakes the thread may bring a frame for each queue. -/
theorem Paced.woken (h : Paced s) (ho : Outside s s') (hwake : s.wakeUps < s'.wakeUps)
    (hjpeg : s'.inputJpegQ.length ≤ s.inputJpegQ.length + 1)
    (hraw : s'.inputRawQ.length ≤ s.inputRawQ.length + 1)
    (hpp : s'.inputPPQ.length ≤ s.inputPPQ.length + 1) : Paced s' := by
  refine ⟨fun _ _ => .inr (.inr (by omega)), fun hactive => ?_, ?_, ?_⟩
  · have := h.dropped (ho.active ▸ hactive)
    omega
  · have := h.raw
    rw [ho.phase]
    omega
  · have := h.pp
    rw [ho.phase]
    omega

theorem Paced.same (h : Paced s) (hphase : s'.phase = s.phase) (hactive : s'.active = s.active)
    (hwake : s'.wakeUps = s.wakeUps) (hon : s'.ongoingJpegQ = s.ongoingJpegQ)
    (hjpeg : s'.inputJpegQ = s.inputJpegQ) (hraw : s'.inputRawQ = s.inputRawQ)
    (hpp : s'.inputPPQ = s.inputPPQ) : Paced s' := by
  obtain ⟨hjobs, hdropped, hraws, hpps⟩ := h
  refine ⟨?_, ?_, ?_, ?_⟩
  · rw [hactive, hphase, JobsWoken, hon, hjpeg, hwake]
    exact hjobs
  · rw [hactive, hjpeg, hwake]
    exact hdropped
  · rw [hraw, hwake, hphase]
    exact hraws
  · rw [hpp, hwake, hphase]
    exact hpps

@[simp] theorem wakeUps_doNextJob {mem : CmdMem} (h : mem.Sends) :
    (s.doNextJob mem).wakeUps = s.wakeUps + 1 := by
  rw [wakeUps, doNextJob, sendCmd_eq, if_pos h, if_neg Bool.false_ne_true, List.count_append]
  rfl

theorem length_enqueue_le {α : Type*} (node : Bool) (x : α) (q : List α) :
    (enqueue node x q).length ≤ q.length + 1 := by
  cases node <;> simp

theorem Paced.processRawData (h : Paced s) {f : ℕ} {node : Bool} {cmd : CmdMem}
    (hsend : cmd.Sends) : Paced (s.processRawData f node cmd) := by
  have hout := outside_processRawData (s := s) f node cmd
  unfold PostProc.processRawData at hout ⊢
  split
  · exact h
  · rename_i hinit
    rw [if_neg hinit] at hout
    refine h.woken hout ?_ (Nat.le_succ _) (length_enqueue_le node f _) (Nat.le_succ _)
    rw [wakeUps_doNextJob hsend]
    exact Nat.lt_succ_self s.wakeUps

theorem Paced.enqueueJpeg_doNextJob (h : Paced s) {node : Bool} {job : JpegJob} {cmd : CmdMem}
    (hsend : cmd.Sends) : Paced ((s.enqueueJpeg node job).doNextJob cmd) := by
  refine h.woken ((outside_enqueueJpeg node job).trans (outside_doNextJob cmd)) ?_
    (length_enqueue_le node job _) (Nat.le_succ _) (Nat.le_succ _)
  rw [wakeUps_doNextJob hsend]
  exact Nat.lt_succ_self s.wakeUps

theorem Paced.doNextJob (h : Paced s) {cmd : CmdMem} (hsend : cmd.Sends) :
    Paced (s.doNextJob cmd) := by
  refine h.woken (outside_doNextJob cmd) ?_ (Nat.le_succ _) (Nat.le_succ _) (Nat.le_succ _)
  rw [wakeUps_doNextJob hsend]
  exact Nat.lt_succ_self s.wakeUps

theorem Paced.processData (h : Paced s) {f : ℕ} {env : FrameEnv} (hcmd : env.cmd.Sends)
    (hrawCmd : env.rawCmd.Sends) : Paced (s.processData f env) := by
  unfold PostProc.processData
  split
  · exact h
  split
  · refine h.woken ((outside_enqueuePP env.node).trans (outside_doNextJob env.cmd)) ?_
      (Nat.le_succ _) (Nat.le_succ _) (length_enqueue_le env.node f _)
    rw [wakeUps_doNextJob hcmd]
    exact Nat.lt_succ_self s.wakeUps
  split
  · exact (h.processRawData hrawCmd).doNextJob hcmd
  split
  · exact h
  · exact h.enqueueJpeg_doNextJob hcmd

theorem Paced.processPPData (h : Paced s) {f : ℕ} {env : FrameEnv} (hcmd : env.cmd.Sends) :
    Paced (s.processPPData f env).1 := by
  unfold PostProc.processPPData
  split
  · exact h
  split
  · exact h
  · rename_i src ongoing hq
    have hsrc : Paced (s.withOngoingPPQ ongoing) := h.same rfl rfl rfl rfl rfl rfl rfl
    unfold reprocResult
    split
    · exact hsrc.processRawData hcmd
    split
    · exact hsrc
    · exact hsrc.enqueueJpeg_doNextJob hcmd

theorem Paced.processJpegEvt (h : Paced s) {evt : JpegEvt} {env : JpegEvtEnv}
    (hcmd : env.cmd.Sends) : Paced (s.processJpegEvt evt env).1 := by
  have hout := outside_processJpegEvt (s := s) evt env
  have hle := Nat.le_succ
  by_cases hinit : s.inited = true
  · unfold PostProc.processJpegEvt findJpegJobByJobId at hout ⊢
    rw [if_neg (by simp [hinit])] at hout ⊢
    by_cases hid : evt.jobId = 0
    · rw [if_pos hid]
      exact h.doNextJob hcmd
    rw [if_neg hid] at hout ⊢
    cases hq : s.ongoingJpegQ with
    | nil => exact h.doNextJob hcmd
    | cons job ongoing =>
      rw [hq] at hout
      obtain ⟨m, n, hresult⟩ := exists_jpegResult (s := s.withOngoingJpegQ ongoing) evt env
      dsimp only at hout ⊢
      rw [hresult] at hout ⊢
      refine h.woken hout ?_ (hle _) (hle _) (hle _)
      rw [wakeUps_doNextJob hcmd]
      exact Nat.lt_succ_self s.wakeUps
  · unfold PostProc.processJpegEvt
    rw [if_pos (by simp [hinit])]
    exact h

theorem wakeUps_sendCmd {cmd : CmdType} {priority : Bool} {mem : CmdMem} (hcmd : cmd ≠ .doNextJob)
    (q : List CmdType) : (sendCmd cmd priority mem q).2.count .doNextJob = q.count .doNextJob := by
  have hone : List.count .doNextJob [cmd] = 0 := by
    rw [List.count_eq_zero, List.mem_singleton]
    exact hcmd.symm
  rcases sendCmd_cases cmd priority mem q with heq | heq
  · rw [heq]
  · rw [heq]
    cases priority with
    | true => rw [if_pos rfl, ← List.singleton_append, List.count_append, hone, zero_add]
    | false => rw [if_neg Bool.false_ne_true, List.count_append, hone, add_zero]

theorem Paced.start (h : Paced s) (env : StartEnv) : Paced (s.start env).1 := by
  unfold PostProc.start
  split
  · exact h
  split
  · exact h.same rfl rfl rfl rfl rfl rfl rfl
  · exact h.same rfl rfl (wakeUps_sendCmd (by decide) s.cmds) rfl rfl rfl rfl

theorem Paced.stop (h : Paced s) (dataMem notifyMem : CmdMem) :
    Paced (s.stop dataMem notifyMem).1 := by
  unfold PostProc.stop
  split
  · exact h.same rfl rfl (wakeUps_sendCmd (by decide) s.cmds) rfl rfl rfl rfl
  · exact h

theorem wakeUps_of_cons {cmds : List CmdType} (hcmds : s.cmds = .doNextJob :: cmds) :
    s.wakeUps = cmds.count .doNextJob + 1 := by
  rw [wakeUps, hcmds, List.count_cons_self]

theorem Paced.nextJob (h : Paced s) {node : Bool} {cmds : List CmdType} (hphase : s.phase = .idle)
    (hcmds : s.cmds = .doNextJob :: cmds) (hactive : s.active = true) :
    Paced ((s.withCmds cmds).nextJob node) := by
  have hwake := wakeUps_of_cons hcmds
  have hraw := h.raw
  have hpp := h.pp
  rw [hphase, hwake] at hraw hpp
  have hoff : ∀ {P : Prop}, s.active = false → P := fun hfalse =>
    absurd (hfalse.symm.trans hactive) Bool.false_ne_true
  unfold PostProc.nextJob
  split
  · exact ⟨fun _ hne => absurd rfl (hne _ _), hoff, hraw, hpp⟩
  · rename_i hnot
    refine ⟨fun _ _ => ?_, hoff, hraw, hpp⟩
    -- a job is ongoing, or there is none
    cases hon : s.ongoingJpegQ with
    | cons job ongoing => exact .inl (by simp [withCmds, hon])
    | nil =>
      cases hin : s.inputJpegQ with
      | nil => exact .inr (.inl hin)
      | cons job rest => exact absurd hin (hnot job rest hon)

theorem Paced.dropJobs (h : Paced s) {cmds : List CmdType} (hphase : s.phase = .idle)
    (hcmds : s.cmds = .doNextJob :: cmds) (hactive : s.active = false) :
    Paced (s.withCmds cmds).dropJobs.1 := by
  have hwake := wakeUps_of_cons hcmds
  obtain ⟨-, hdropped, hraw, hpp⟩ := h
  replace hdropped := hdropped hactive
  have hdue : s.phase.rawDue = 0 ∧ s.phase.ppDue = 0 := by rw [hphase]; exact ⟨rfl, rfl⟩
  refine ⟨fun htrue => absurd (hactive.symm.trans htrue) Bool.false_ne_true, fun _ => ?_, ?_, ?_⟩
  · show s.inputJpegQ.tail.length ≤ cmds.count .doNextJob
    rw [List.length_tail]
    omega
  · show s.inputRawQ.tail.length ≤ cmds.count .doNextJob + s.phase.rawDue
    rw [List.length_tail]
    omega
  · show s.inputPPQ.tail.length ≤ cmds.count .doNextJob + s.phase.ppDue
    rw [List.length_tail]
    omega

theorem Paced.startDataProc (h : Paced s) {cmds : List CmdType} (hphase : s.phase = .idle)
    (hcmds : s.cmds = .startDataProc :: cmds) :
    Paced { s.withCmds cmds with active := true, needNewSess := true } := by
  have hwake : cmds.count .doNextJob = s.wakeUps := by
    rw [wakeUps, hcmds, List.count_cons_of_ne (by decide)]
  have hwoken : s.JobsWoken := by
    by_cases hactive : s.active = true
    · exact h.jobs hactive (by simp [hphase])
    · have hdropped := h.dropped (by simpa using hactive)
      rcases Nat.eq_zero_or_pos s.wakeUps with hzero | hpos
      · exact .inr (.inl (List.length_eq_zero_iff.mp (by omega)))
      · exact .inr (.inr hpos)
  refine ⟨fun _ _ => ?_, fun hfalse => absurd hfalse Bool.true_eq_false_eq_False, ?_, ?_⟩
  · show s.ongoingJpegQ ≠ [] ∨ s.inputJpegQ = [] ∨ 0 < cmds.count .doNextJob
    rw [hwake]
    exact hwoken
  · show s.inputRawQ.length ≤ cmds.count .doNextJob + s.phase.rawDue
    rw [hwake]
    exact h.raw
  · show s.inputPPQ.length ≤ cmds.count .doNextJob + s.phase.ppDue
    rw [hwake]
    exact h.pp

theorem Paced.next (h : Paced s) {node : Bool} {cmd : CmdType} {cmds : List CmdType}
    (hphase : s.phase = .idle) (hcmds : s.cmds = cmd :: cmds) :
    Paced ((s.withCmds cmds).dataProcessRoutine node cmd).1 := by
  cases cmd with
  | startDataProc => exact h.startDataProc hphase hcmds
  | stopDataProc =>
    exact ⟨fun hfalse => absurd hfalse Bool.false_ne_true, fun _ => Nat.zero_le _, Nat.zero_le _,
      Nat.zero_le _⟩
  | doNextJob =>
    rw [dataProcessRoutine]
    split
    · exact h.nextJob hphase hcmds ‹_›
    · rename_i hactive
      exact h.dropJobs hphase hcmds (Bool.not_eq_true _ ▸ hactive)
  | exit =>
    have hwake : (s.withCmds cmds).wakeUps = s.wakeUps := by
      rw [wakeUps, wakeUps, hcmds, List.count_cons_of_ne (by decide)]
      rfl
    exact h.same rfl rfl hwake rfl rfl rfl rfl

theorem encoded_queues (env : EncodeEnv) (job : JpegJob) (hwf : s.Wf) :
    (s.encoded env job).1.phase = .raw ∧ (s.encoded env job).1.active = s.active ∧
      (s.encoded env job).1.wakeUps = s.wakeUps ∧
      (s.encoded env job).1.inputJpegQ = s.inputJpegQ ∧
      (s.encoded env job).1.inputRawQ = s.inputRawQ ∧
      (s.encoded env job).1.inputPPQ = s.inputPPQ ∧
      ((s.encoded env job).1.ongoingJpegQ ≠ [] ↔
        env.Starts s.needNewSess ∧ s.ongoingJpegQ ≠ []) := by
  obtain ⟨b, m, k, hstate, -⟩ := encodeData_spec (s := s) env
  have hstarts := encodeData_isSome_iff (s := s) env
  cases hcall : s.encodeData env with
  | mk id p =>
    obtain ⟨s₁, es⟩ := p
    rw [hcall] at hstate hstarts
    simp only at hstate hstarts
    subst hstate
    rw [PostProc.encoded, hcall]
    cases id with
    | some id =>
      refine ⟨rfl, rfl, rfl, rfl, rfl, rfl, ?_⟩
      simp [hstarts.mp rfl]
    | none =>
      have hnot : ¬ env.Starts s.needNewSess := fun hs => absurd (hstarts.mpr hs) Bool.false_ne_true
      refine ⟨rfl, rfl, rfl, rfl, rfl, rfl, ?_⟩
      refine iff_of_false (fun hne => hne ?_) fun hs => hnot hs.1
      -- at most one job was ongoing
      have hlen := hwf.ongoing
      show s.ongoingJpegQ.dropLast = []
      rw [← List.length_eq_zero_iff, List.length_dropLast]
      omega

theorem jobsWoken_encoded_iff {env : EncodeEnv} {job : JpegJob} (hwf : s.Wf) :
    (s.encoded env job).1.JobsWoken ↔ Wakeful s (.encoded env) := by
  obtain ⟨-, -, hwake, hjpeg, -, -, hon⟩ := encoded_queues env job hwf
  rw [JobsWoken, hon, hjpeg, hwake, Wakeful]

theorem Paced.encoded (h : Paced s) (hwf : s.Wf) {env : EncodeEnv} {job : JpegJob} {queued : Bool}
    (hphase : s.phase = .encoding job queued) (hwakeful : Wakeful s (.encoded env)) :
    Paced (s.encoded env job).1 := by
  obtain ⟨hphase', hactive, hwake, hjpeg, hraw, hpp, -⟩ :=
    encoded_queues env job hwf
  obtain ⟨-, hdropped, hraws, hpps⟩ := h
  rw [hphase] at hraws hpps
  refine ⟨fun _ _ => (jobsWoken_encoded_iff hwf).mpr hwakeful, ?_, ?_, ?_⟩
  · rw [hactive, hjpeg, hwake]
    exact hdropped
  · rw [hraw, hwake, hphase']
    exact hraws
  · rw [hpp, hwake, hphase']
    exact hpps

theorem Paced.rawStep (h : Paced s) (env : RawEnv) (hphase : s.phase = .raw) :
    Paced (s.rawStep env).1 := by
  obtain ⟨hjobs, hdropped, hraw, hpp⟩ := h
  replace hjobs := fun ha => hjobs ha (by simp [hphase])
  rw [hphase] at hraw hpp
  unfold PostProc.rawStep
  cases hq : s.inputRawQ with
  | nil => exact ⟨fun ha _ => hjobs ha, hdropped, by simp, hpp⟩
  | cons f rest =>
    obtain ⟨b, n, hraws⟩ := exists_processRawImageImpl (s := s.withInputRawQ rest) f env
    dsimp only
    rw [hraws]
    rw [hq, List.length_cons] at hraw
    exact ⟨fun ha _ => hjobs ha, hdropped, Nat.le_of_succ_le_succ hraw, hpp⟩

theorem Paced.ppStep (h : Paced s) (env : PPEnv) (hphase : s.phase = .pp) :
    Paced (s.ppStep env).1 := by
  obtain ⟨hjobs, hdropped, hraw, hpp⟩ := h
  replace hjobs := fun ha => hjobs ha (by simp [hphase])
  rw [hphase] at hraw hpp
  unfold PostProc.ppStep
  cases hq : s.inputPPQ with
  | nil => exact ⟨fun ha _ => hjobs ha, hdropped, hraw, by simp⟩
  | cons f rest =>
    rw [hq, List.length_cons] at hpp
    dsimp only
    split <;> exact ⟨fun ha _ => hjobs ha, hdropped, hraw, Nat.le_of_succ_le_succ hpp⟩

theorem Paced.reprocessed (h : Paced s) {ok : Bool} {f : ℕ} {queued : Bool}
    (hphase : s.phase = .reprocessing f queued) : Paced (s.reprocessed ok f).1 := by
  obtain ⟨hjobs, hdropped, hraw, hpp⟩ := h
  replace hjobs := fun ha => hjobs ha (by simp [hphase])
  rw [hphase] at hraw hpp
  cases ok <;> exact ⟨fun ha _ => hjobs ha, hdropped, hraw, hpp⟩

/-- **Every wakeful step keeps the thread paced.** -/
theorem paced_step {i : PostInput} {o : List PostEffect} (h : Paced s) (hwf : s.Wf)
    (hwakeful : Wakeful s i) (hs : s.step i = some (s', o)) : Paced s' := by
  cases transition_of_step hs with
  | start env => exact h.start env
  | stop dataMem notifyMem => exact h.stop dataMem notifyMem
  | data f env => exact h.processData hwakeful.1 hwakeful.2
  | rawData f node cmd => exact h.processRawData hwakeful
  | ppData f env => exact h.processPPData hwakeful
  | jpegEvt evt env => exact h.processJpegEvt hwakeful
  | cmd node hphase hcmds => exact h.next hphase hcmds
  | encoded env hphase => exact h.encoded hwf hphase hwakeful
  | raw env hphase => exact h.rawStep env hphase
  | pp env hphase => exact h.ppStep env hphase
  | reprocessed ok hphase => exact h.reprocessed hphase
  | notify env hn | notifyOther cbType msgType mem => exact h.same rfl rfl rfl rfl rfl rfl rfl

/-- **No stuck jobs.** Along runs of wakeful steps at most one job is ongoing, and
when the thread is active, has nothing to do and no job is with the encoder, its
queues are empty; and a return of `encodeData` leaves no job behind exactly if it
is wakeful. -/
theorem no_stuck_jobs {inited : Bool} {is : List PostInput} {os : List PostEffect}
    (hrun : Runs PostProc.step Wakeful (.opened inited) is os s) :
    s.ongoingJpegQ.length ≤ 1 ∧
    (s.active = true → s.phase = .idle → s.cmds = [] → s.ongoingJpegQ = [] →
      s.inputJpegQ = [] ∧ s.inputRawQ = [] ∧ s.inputPPQ = []) ∧
    ∀ env s' o, s.step (.encoded env) = some (s', o) →
      (s'.JobsWoken ↔ Wakeful s (.encoded env)) := by
  have hinv : s.Wf ∧ Paced s := by
    refine hrun.inv (fun _ _ s => s.Wf ∧ Paced s) ⟨.opened inited, .opened inited⟩ ?_
    rintro is os s i s' o ⟨hwf, hpaced⟩ hwakeful hs
    exact ⟨hwf.step hs, paced_step hpaced hwf hwakeful hs⟩
  obtain ⟨hwf, hjobs, -, hraw, hpp⟩ := hinv
  refine ⟨hwf.ongoing, fun hactive hphase hcmds hon => ?_, fun env s' o hs => ?_⟩
  · have hwake : s.wakeUps = 0 := by rw [wakeUps, hcmds, List.count_nil]
    rw [hphase, hwake] at hraw hpp
    refine ⟨?_, List.length_eq_zero_iff.mp (Nat.le_zero.mp hraw),
      List.length_eq_zero_iff.mp (Nat.le_zero.mp hpp)⟩
    rcases hjobs hactive (by simp [hphase]) with hne | hnil | hpos
    · exact absurd hon hne
    · exact hnil
    · omega
  · cases transition_of_step hs with
    | encoded env hphase => exact jobsWoken_encoded_iff hwf

end Steps

/-- A picture, and the round after it in which there is nothing left. -/
theorem no_stuck_jobs_onePicture : ∃ os s,
    Runs PostProc.step Wakeful (.opened true)
      (onePicture true ++ [.next true, .raw plainRaw, .pp ⟨true, true⟩]) os s ∧
    s.active = true ∧ s.phase = .idle ∧ s.cmds = [] ∧ s.ongoingJpegQ = [] ∧
    s.inputJpegQ = [] ∧ s.inputRawQ = [] ∧ s.inputPPQ = [] := by
  obtain ⟨os, s, hexec, hactive, hphase, hcmds, hon⟩ : ∃ os s,
      exec PostProc.step (.opened true)
        (onePicture true ++ [.next true, .raw plainRaw, .pp ⟨true, true⟩]) = some (s, os) ∧
      s.active = true ∧ s.phase = .idle ∧ s.cmds = [] ∧ s.ongoingJpegQ = [] :=
    ⟨_, _, rfl, rfl, rfl, rfl, rfl⟩
  have hrun := runs_of_exec_guarded (G := Wakeful) .nil hexec <| by
    refine ⟨trivial, ?_⟩; rintro _ ⟨⟩
    refine ⟨⟨⟨rfl, rfl⟩, ⟨rfl, rfl⟩⟩, ?_⟩; rintro _ ⟨⟩
    iterate 2 (refine ⟨trivial, ?_⟩; rintro _ ⟨⟩)
    -- no other job waits
    refine ⟨.inr (.inl rfl), ?_⟩; rintro _ ⟨⟩
    iterate 2 (refine ⟨trivial, ?_⟩; rintro _ ⟨⟩)
    refine ⟨⟨rfl, rfl⟩, ?_⟩; rintro _ ⟨⟩
    refine ⟨trivial, ?_⟩; rintro _ ⟨⟩
    exact ⟨trivial, fun _ _ => ⟨trivial, fun _ _ => trivial⟩⟩
  exact ⟨os, s, hrun, hactive, hphase, hcmds, hon,
    (no_stuck_jobs hrun).2.1 hactive hphase hcmds hon⟩

/-- The rest of a round after the jpeg queue. -/
def restOfRound : List PostInput := [.raw plainRaw, .pp ⟨true, true⟩]

/-- Three frames, of which the second cannot be encoded. -/
def failedSecond : List PostInput :=
  [.start plainStart, .next true, .processData 1 plainFrame, .processData 2 plainFrame,
    .processData 3 plainFrame, .next true, .encoded (plainEncode 1)] ++ restOfRound ++
    [.next true] ++ restOfRound ++ [.next true] ++ restOfRound ++
    [.processJpegEvt ⟨1, true⟩ (plainJpegEvt true), .next true,
      .encoded { plainEncode 2 with startJob := none }] ++ restOfRound

/-- Nothing wakes the thread for the third frame. -/
theorem third_job_stuck : ∃ os s,
    Runs PostProc.step (fun _ _ => True) (.opened true) failedSecond os s ∧
    s.active = true ∧ s.phase = .idle ∧ s.cmds = [] ∧ s.ongoingJpegQ = [] ∧
    s.inputJpegQ = [⟨0, 3, none⟩] :=
  ⟨_, _, runs_of_exec rfl, rfl, rfl, rfl, rfl, rfl⟩

end Qcamera

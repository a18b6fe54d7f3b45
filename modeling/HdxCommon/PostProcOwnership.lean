/-
Who owns superbufs and jpeg memory in the post-processor.

Everything handed to the post-processor or allocated by it should be released
once, or still be in one of its queues.  Counted with multiplicity that is one
equation between multisets (`Accounted`).

* `accounted_step_iff` — a step keeps the equation exactly if it is sound: the
  ways to lose or to release twice are those of `Sound`;
* `single_ownership` — so runs of sound steps release everything once.
-/
import Mathlib.Algebra.BigOperators.Group.Multiset.Basic
import HdxCommon.PostProc

namespace Qcamera

/-! ### Resources -/

inductive Resource where
  | frame (f : ℕ)
  | mem (m : ℕ)
  deriving DecidableEq, Repr

def framesOf (fs : List ℕ) : Multiset Resource := (fs.map Resource.frame : List Resource)

def memsOf (ms : List ℕ) : Multiset Resource := (ms.map Resource.mem : List Resource)

def jobsOf (jobs : List JpegJob) : Multiset Resource := framesOf (jobs.flatMap JpegJob.frames)

def ReleaseData.owned (r : ReleaseData) : Multiset Resource :=
  memsOf r.data.toList + framesOf r.frame.toList

def dataOf (rs : List ReleaseData) : Multiset Resource := (rs.map ReleaseData.owned).sum

/-- A job the data thread could not put into its queue is in its hands only. -/
def Phase.owned : Phase → Multiset Resource
  | .encoding job false => jobsOf [job]
  | .reprocessing f false => framesOf [f]
  | _ => 0

def PostProc.held (s : PostProc) : Multiset Resource :=
  framesOf s.inputPPQ + framesOf s.ongoingPPQ + jobsOf s.inputJpegQ + jobsOf s.ongoingJpegQ +
    framesOf s.inputRawQ + s.phase.owned + memsOf s.jpegOutputMem.toList +
    dataOf (pendingData s.notifier)

def PostEffect.freed : PostEffect → Multiset Resource
  | .release f => framesOf [f]
  | .releaseMem m => memsOf [m]
  | _ => 0

def PostEffect.allocated : PostEffect → Multiset Resource
  | .getMemory m => memsOf [m]
  | _ => 0

def freed (os : List PostEffect) : Multiset Resource := (os.map PostEffect.freed).sum

def allocated (os : List PostEffect) : Multiset Resource := (os.map PostEffect.allocated).sum

def PostInput.handed : PostInput → Multiset Resource
  | .processData f _ => framesOf [f]
  | .processRawData f _ _ => framesOf [f]
  | .processPPData f _ => framesOf [f]
  | _ => 0

def handed (is : List PostInput) : Multiset Resource := (is.map PostInput.handed).sum

/-- Nothing is lost and nothing released twice. -/
def Accounted (s : PostProc) (taken : Multiset Resource) (o : List PostEffect) (s' : PostProc) :
    Prop :=
  freed o + s'.held = s.held + taken + allocated o

section Lemmas

variable {fs gs : List ℕ} {f m : ℕ} {js ks : List JpegJob} {j : JpegJob}
  {rs qs : List ReleaseData} {r : ReleaseData} {o os : List PostEffect}

@[simp] theorem framesOf_nil : framesOf [] = 0 := rfl

@[simp] theorem framesOf_append : framesOf (fs ++ gs) = framesOf fs + framesOf gs := by
  simp [framesOf]

theorem framesOf_cons (f : ℕ) (fs : List ℕ) : framesOf (f :: fs) = framesOf [f] + framesOf fs := by
  rw [← framesOf_append, List.singleton_append]

@[simp] theorem card_framesOf : (framesOf fs).card = fs.length := by simp [framesOf]

@[simp] theorem framesOf_eq_zero : framesOf fs = 0 ↔ fs = [] := by simp [framesOf]

@[simp] theorem zero_eq_framesOf : 0 = framesOf fs ↔ fs = [] := by rw [eq_comm, framesOf_eq_zero]

@[simp] theorem memsOf_nil : memsOf [] = 0 := rfl

@[simp] theorem card_memsOf : (memsOf fs).card = fs.length := by simp [memsOf]

@[simp] theorem jobsOf_nil : jobsOf [] = 0 := rfl

@[simp] theorem jobsOf_append : jobsOf (js ++ ks) = jobsOf js + jobsOf ks := by simp [jobsOf]

theorem jobsOf_cons (j : JpegJob) (js : List JpegJob) :
    jobsOf (j :: js) = jobsOf [j] + jobsOf js := by
  rw [← jobsOf_append, List.singleton_append]

theorem jobsOf_singleton : jobsOf [j] = framesOf j.frames := by simp [jobsOf]

theorem card_jobsOf_singleton_pos : 0 < (jobsOf [j]).card := by
  simp [jobsOf_singleton, JpegJob.frames]

@[simp] theorem dataOf_nil : dataOf [] = 0 := rfl

@[simp] theorem dataOf_append : dataOf (rs ++ qs) = dataOf rs + dataOf qs := by simp [dataOf]

@[simp] theorem dataOf_singleton : dataOf [r] = r.owned := by simp [dataOf]

theorem dataOf_perm (h : rs.Perm qs) : dataOf rs = dataOf qs := (h.map _).sum_eq

@[simp] theorem freed_nil : freed [] = 0 := rfl

@[simp] theorem freed_append : freed (os ++ o) = freed os + freed o := by simp [freed]

@[simp] theorem freed_cons (e : PostEffect) : freed (e :: o) = e.freed + freed o := by simp [freed]

@[simp] theorem allocated_nil : allocated [] = 0 := rfl

@[simp] theorem allocated_append : allocated (os ++ o) = allocated os + allocated o := by
  simp [allocated]

@[simp] theorem allocated_cons (e : PostEffect) :
    allocated (e :: o) = e.allocated + allocated o := by simp [allocated]

@[simp] theorem freed_map_release (fs : List ℕ) : freed (fs.map .release) = framesOf fs := by
  induction fs with
  | nil => rfl
  | cons f fs ih => rw [List.map_cons, freed_cons, ih, framesOf_cons]; rfl

@[simp] theorem allocated_map_release (fs : List ℕ) : allocated (fs.map .release) = 0 := by
  induction fs with
  | nil => rfl
  | cons f fs ih => rw [List.map_cons, allocated_cons, ih]; rfl

@[simp] theorem freed_map_releaseMem (ms : List ℕ) : freed (ms.map .releaseMem) = memsOf ms := by
  induction ms with
  | nil => rfl
  | cons m ms ih =>
    rw [List.map_cons, freed_cons, ih]
    rfl

@[simp] theorem allocated_map_releaseMem (ms : List ℕ) : allocated (ms.map .releaseMem) = 0 := by
  induction ms with
  | nil => rfl
  | cons m ms ih => rw [List.map_cons, allocated_cons, ih]; rfl

@[simp] theorem freed_releaseJpegJobData (job : JpegJob) :
    freed (releaseJpegJobData job) = jobsOf [job] := by
  rw [releaseJpegJobData, freed_map_release, jobsOf_singleton]

@[simp] theorem allocated_releaseJpegJobData (job : JpegJob) :
    allocated (releaseJpegJobData job) = 0 := allocated_map_release _

@[simp] theorem freed_releaseNotifyData (r : ReleaseData) :
    freed (releaseNotifyData r) = r.owned := by
  rw [releaseNotifyData, freed_append, freed_map_release, freed_map_releaseMem]
  rfl

@[simp] theorem allocated_releaseNotifyData (r : ReleaseData) :
    allocated (releaseNotifyData r) = 0 := by simp [releaseNotifyData]

end Lemmas

/-! ### When a step is sound -/

/-- The notifier takes a notification and says so. -/
def Accepts (n : CbNotifier ReleaseData) (mem : NotifyMem) : Prop :=
  n.active = true ∧ mem.arg = true ∧ mem.node = true ∧ mem.cmd.cmd = true

instance (n : CbNotifier ReleaseData) (mem : NotifyMem) : Decidable (Accepts n mem) :=
  inferInstanceAs (Decidable (_ ∧ _))

/-- `start_job` is reached and gives a job id. -/
def EncodeEnv.Starts (env : EncodeEnv) (needNewSess : Bool) : Prop :=
  env.ready = true ∧ (needNewSess = true → env.createSession = true) ∧ env.startJob.isSome = true

instance (env : EncodeEnv) (needNewSess : Bool) : Decidable (env.Starts needNewSess) :=
  inferInstanceAs (Decidable (_ ∧ _))

/-- The steps that lose nothing and release nothing twice. -/
def Sound (s : PostProc) : PostInput → Prop
  | .processData _ env =>
    s.inited = true ∧ env.node = true ∧ (env.needReprocess || env.isNV16 || env.job) = true
  | .processRawData _ node _ => s.inited = true ∧ node = true
  | .processPPData _ env =>
    s.inited = true ∧ s.ongoingPPQ ≠ [] ∧ env.node = true ∧ (env.isNV16 || env.job) = true
  | .processJpegEvt evt env =>
    -- an image that is offered to the notifier is taken
    s.inited = true → evt.jobId ≠ 0 → s.ongoingJpegQ ≠ [] →
      (env.dataCb && evt.ok && env.getMemory && env.mem.argm) = true →
      Accepts s.notifier env.mem.notify
  | .encoded env =>
    match s.phase with
    | .encoding _ queued =>
      if env.Starts s.needNewSess then queued = true
      -- no event has taken the job meanwhile
      else queued = true → s.ongoingJpegQ ≠ []
    | _ => True
  | .raw env =>
    s.inputRawQ ≠ [] → env.valid = true → env.rawMem = true → env.dataCb = true ∧
      if s.rawBurstCount = 1 then ¬ (env.mem.argm = true ∧ Accepts s.notifier env.mem.notify)
      else env.mem.argm = true → Accepts s.notifier env.mem.notify
  | .reprocessed ok =>
    match s.phase with
    | .reprocessing _ queued =>
      if ok then queued = true
      -- the last ongoing job is the one that failed
      else if queued then s.ongoingPPQ ≠ []
      else s.ongoingPPQ = []
    | _ => True
  | _ => True

attribute [local simp] PostEffect.freed PostEffect.allocated

section Calls

variable {s : PostProc} {f : ℕ}

@[simp] theorem held_doNextJob (mem : CmdMem) : (s.doNextJob mem).held = s.held := rfl

theorem held_enqueueRaw (node : Bool) :
    (s.enqueueRaw node f).held = s.held + if node = true then framesOf [f] else 0 := by
  cases node with
  | false => simp [PostProc.held, PostProc.enqueueRaw]
  | true =>
    simp only [PostProc.held, PostProc.enqueueRaw, enqueue_true, framesOf_append, if_true]
    abel

theorem held_enqueuePP (node : Bool) :
    (s.enqueuePP node f).held = s.held + if node = true then framesOf [f] else 0 := by
  cases node with
  | false => simp [PostProc.held, PostProc.enqueuePP]
  | true =>
    simp only [PostProc.held, PostProc.enqueuePP, enqueue_true, framesOf_append, if_true]
    abel

theorem held_enqueueJpeg (node : Bool) (job : JpegJob) :
    (s.enqueueJpeg node job).held = s.held + if node = true then jobsOf [job] else 0 := by
  cases node with
  | false => simp [PostProc.held, PostProc.enqueueJpeg]
  | true =>
    simp only [PostProc.held, PostProc.enqueueJpeg, enqueue_true, jobsOf_append, if_true]
    abel

theorem accounted_start (env : StartEnv) : Accounted s 0 (s.start env).2 (s.start env).1 := by
  unfold PostProc.start
  split
  · simp [Accounted]
  split
  · simp [Accounted, PostProc.held]
  · simp [Accounted, PostProc.held, pendingData, CbNotifier.withCmds]

theorem accounted_stop (dataMem notifyMem : CmdMem) :
    Accounted s 0 (s.stop dataMem notifyMem).2 (s.stop dataMem notifyMem).1 := by
  unfold PostProc.stop
  split
  · cases dataMem.cmd <;> simp [Accounted, PostProc.held, pendingData, CbNotifier.withCmds]
  · simp [Accounted]

theorem accounted_of_held {s' : PostProc} {x : Multiset Resource}
    (h : s'.held = s.held + x) : Accounted s (framesOf [f]) [] s' ↔ x = framesOf [f] := by
  rw [Accounted, h, freed_nil, zero_add, allocated_nil, add_zero, add_right_inj]

theorem held_processRawData (node : Bool) (cmd : CmdMem) :
    (s.processRawData f node cmd).held =
      s.held + if s.inited = true ∧ node = true then framesOf [f] else 0 := by
  unfold PostProc.processRawData
  by_cases hinit : s.inited = true
  · simp [hinit, held_enqueueRaw]
  · simp [hinit]

theorem accounted_processRawData_iff (node : Bool) (cmd : CmdMem) :
    Accounted s (framesOf [f]) [] (s.processRawData f node cmd) ↔
      Sound s (.processRawData f node cmd) := by
  rw [accounted_of_held (held_processRawData node cmd), Sound]
  split
  · rename_i h
    exact iff_of_true rfl h
  · rename_i h
    exact iff_of_false (by simp) h

theorem accounted_processData_iff (env : FrameEnv) :
    Accounted s (framesOf [f]) [] (s.processData f env) ↔ Sound s (.processData f env) := by
  have hheld : (s.processData f env).held = s.held +
      if s.inited = true ∧ env.node = true ∧ (env.needReprocess || env.isNV16 || env.job) = true
        then framesOf [f] else 0 := by
    unfold PostProc.processData
    by_cases hinit : s.inited = true
    · cases hpp : env.needReprocess with
      | true => simp [hinit, held_enqueuePP]
      | false =>
        cases hraw : env.isNV16 with
        | true => simp [hinit, held_processRawData]
        | false =>
          cases hjob : env.job with
          | false => simp
          | true => simp [hinit, held_enqueueJpeg, jobsOf_singleton, JpegJob.frames]
    · simp [hinit]
  rw [accounted_of_held hheld, Sound]
  split
  · rename_i h
    exact iff_of_true rfl h
  · rename_i h
    exact iff_of_false (by simp) h

theorem held_of_ongoingPPQ {src : ℕ} {ongoing : List ℕ} (h : s.ongoingPPQ = src :: ongoing) :
    s.held = framesOf [src] + (s.withOngoingPPQ ongoing).held := by
  simp only [PostProc.held, PostProc.withOngoingPPQ, h, framesOf_cons _ ongoing]
  abel

theorem freed_add_held_reprocResult {src : ℕ} {env : FrameEnv} (hinit : s.inited = true) :
    freed (s.reprocResult src f env).2 + (s.reprocResult src f env).1.held = s.held +
      if env.isNV16 = true then framesOf [src] + (if env.node = true then framesOf [f] else 0)
      else if env.job = true ∧ env.node = true then framesOf [src] + framesOf [f] else 0 := by
  unfold PostProc.reprocResult
  cases env.isNV16 with
  | true =>
    simp only [if_true, held_processRawData, hinit, true_and, freed_cons, PostEffect.freed,
      freed_nil, add_zero]
    abel
  | false =>
    cases env.job with
    | false => simp
    | true =>
      simp [held_enqueueJpeg, jobsOf_singleton, JpegJob.frames, framesOf_cons _ [f]]

theorem allocated_reprocResult {src : ℕ} {env : FrameEnv} :
    allocated (s.reprocResult src f env).2 = 0 := by
  unfold PostProc.reprocResult
  cases env.isNV16 with
  | true => simp
  | false => cases env.job <;> simp

theorem accounted_processPPData_iff (env : FrameEnv) :
    Accounted s (framesOf [f]) (s.processPPData f env).2 (s.processPPData f env).1 ↔
      Sound s (.processPPData f env) := by
  unfold PostProc.processPPData
  by_cases hinit : s.inited = true
  · rw [hinit, Bool.not_true, if_neg Bool.false_ne_true]
    cases hpp : s.ongoingPPQ with
    | nil => simp [Accounted, Sound, hpp]
    | cons src ongoing =>
      have hinit' : (s.withOngoingPPQ ongoing).inited = true := hinit
      have hcomm : s.held + framesOf [f] =
          (s.withOngoingPPQ ongoing).held + (framesOf [src] + framesOf [f]) := by
        rw [held_of_ongoingPPQ hpp]
        abel
      simp only [Accounted, Sound, freed_add_held_reprocResult hinit', allocated_reprocResult,
        hcomm, hinit, hpp]
      rw [add_zero, add_right_inj]
      have hboth : ¬ (0 = framesOf [src] + framesOf [f]) := by
        rw [← framesOf_append, zero_eq_framesOf]
        exact List.cons_ne_nil _ _
      cases env.isNV16 <;> cases env.job <;> cases env.node <;> simp [hboth]
  · simp [hinit, Accounted, Sound]

end Calls

section Notify

variable {s : PostProc} {n n' : CbNotifier ReleaseData}

theorem notifyCallback_eq_true_iff (cb : CallbackArgm ReleaseData) (mem : NotifyMem) :
    (n.notifyCallback cb mem).1 = true ↔ Accepts n mem := by
  unfold CbNotifier.notifyCallback Accepts
  by_cases hact : n.active = true
  · cases mem.arg <;> cases mem.node <;> simp [hact]
  · simp [hact]

/-- A notification that is taken but not reported as taken waits all the same. -/
theorem pendingData_notifyCallback (cb : CallbackArgm ReleaseData) (mem : NotifyMem) :
    pendingData (n.notifyCallback cb mem).2.1 =
      pendingData n ++
        if (n.active && mem.arg && mem.node) = true then cb.release.toList else [] := by
  unfold CbNotifier.notifyCallback pendingData
  by_cases hact : n.active = true
  · cases mem.arg with
    | false => simp [hact]
    | true =>
      cases mem.node with
      | false => simp [hact]
      | true => cases hrel : cb.release <;> simp [hact, hrel]
  · simp [hact]

theorem held_withNotifier : (s.withNotifier n).held + dataOf (pendingData s.notifier) =
    s.held + dataOf (pendingData n) := by
  simp only [PostProc.held, PostProc.withNotifier]
  abel

theorem sendDataNotify_eq_true_iff (r : ReleaseData) (mem : DataNotifyMem) :
    (s.sendDataNotify r mem).1 = true ↔ mem.argm = true ∧ Accepts s.notifier mem.notify := by
  unfold PostProc.sendDataNotify
  cases mem.argm with
  | false => simp
  | true => simpa using notifyCallback_eq_true_iff _ _

theorem Accepts.pendingData {mem : NotifyMem} (h : Accepts n mem) (cb : CallbackArgm ReleaseData) :
    pendingData (n.notifyCallback cb mem).2.1 = pendingData n ++ cb.release.toList := by
  obtain ⟨hact, harg, hnode, -⟩ := h
  rw [pendingData_notifyCallback, if_pos (by simp [hact, harg, hnode])]

theorem held_sendDataNotify {r : ReleaseData} {mem : DataNotifyMem} (hargm : mem.argm = true)
    (h : Accepts s.notifier mem.notify) :
    freed (s.sendDataNotify r mem).2.2 + (s.sendDataNotify r mem).2.1.held = s.held + r.owned := by
  have hok := (notifyCallback_eq_true_iff (PostProc.dataArgm r) mem.notify).mpr h
  have hheld := held_withNotifier (s := s)
    (n := (s.notifier.notifyCallback (PostProc.dataArgm r) mem.notify).2.1)
  rw [h.pendingData, dataOf_append, show (PostProc.dataArgm r).release.toList = [r] from rfl,
    dataOf_singleton, ← add_assoc, add_right_comm, add_left_inj] at hheld
  simpa [PostProc.sendDataNotify, hargm, hok] using hheld

theorem held_sendDataNotify_refused {r : ReleaseData} {mem : DataNotifyMem}
    (hargm : mem.argm = true) (h : ¬ Accepts s.notifier mem.notify) :
    ∃ x : Multiset Resource, (x = 0 ∨ x = r.owned) ∧ freed (s.sendDataNotify r mem).2.2 +
      (s.sendDataNotify r mem).2.1.held = s.held + r.owned + x := by
  have hok : (s.notifier.notifyCallback (PostProc.dataArgm r) mem.notify).1 = false := by
    rw [← Bool.not_eq_true, notifyCallback_eq_true_iff]
    exact h
  have hheld := held_withNotifier (s := s)
    (n := (s.notifier.notifyCallback (PostProc.dataArgm r) mem.notify).2.1)
  rw [pendingData_notifyCallback, dataOf_append, ← add_assoc, add_right_comm, add_left_inj]
    at hheld
  have heffects : (s.sendDataNotify r mem).2.2 = releaseNotifyData r := by
    simp [PostProc.sendDataNotify, hargm, hok]
  have hstate : (s.sendDataNotify r mem).2.1 =
      s.withNotifier (s.notifier.notifyCallback (PostProc.dataArgm r) mem.notify).2.1 := by
    simp [PostProc.sendDataNotify, hargm]
  rw [heffects, hstate, hheld, freed_releaseNotifyData, add_left_comm, ← add_assoc]
  refine ⟨_, ?_, rfl⟩
  split
  · exact .inr (dataOf_singleton (r := r))
  · exact .inl rfl

theorem sendDataNotify_no_argm {r : ReleaseData} {mem : DataNotifyMem} (hargm : mem.argm = false) :
    s.sendDataNotify r mem = (false, s, []) := by
  simp [PostProc.sendDataNotify, hargm]

@[simp] theorem allocated_sendDataNotify (r : ReleaseData) (mem : DataNotifyMem) :
    allocated (s.sendDataNotify r mem).2.2 = 0 := by
  unfold PostProc.sendDataNotify
  split
  · rfl
  · dsimp only
    split <;> simp

end Notify

section Jpeg

variable {s : PostProc}

/-- An image that is refused is released by `sendDataNotify` and by its caller. -/
theorem accounted_sendJpeg_iff (mem : DataNotifyMem) :
    Accounted s 0 (s.sendJpeg mem).2 (s.sendJpeg mem).1 ↔
      (mem.argm = true → Accepts s.notifier mem.notify) := by
  have howned : ReleaseData.owned ⟨some s.nextMem, none, false⟩ = memsOf [s.nextMem] := by
    simp [ReleaseData.owned]
  have hheld : (s.withNextMem (s.nextMem + 1)).held = s.held := rfl
  cases hargm : mem.argm with
  | false =>
    refine iff_of_true ?_ (by simp)
    simp [PostProc.sendJpeg, sendDataNotify_no_argm hargm, Accounted, hheld, add_comm]
  | true =>
    by_cases hacc : Accepts s.notifier mem.notify
    · refine iff_of_true ?_ (fun _ => hacc)
      have hok := (sendDataNotify_eq_true_iff (s := s.withNextMem (s.nextMem + 1))
        ⟨some s.nextMem, none, false⟩ mem).mpr ⟨hargm, hacc⟩
      have hsend := held_sendDataNotify (s := s.withNextMem (s.nextMem + 1))
        (r := ⟨some s.nextMem, none, false⟩) hargm hacc
      rw [howned, hheld] at hsend
      simp [PostProc.sendJpeg, Accounted, hok, hsend]
    · refine iff_of_false ?_ (fun h => hacc (h rfl))
      have hok : (PostProc.sendDataNotify ⟨some s.nextMem, none, false⟩ mem
          (s.withNextMem (s.nextMem + 1))).1 = false := by
        rw [← Bool.not_eq_true, sendDataNotify_eq_true_iff]
        exact fun h => hacc h.2
      obtain ⟨x, -, hsend⟩ := held_sendDataNotify_refused (s := s.withNextMem (s.nextMem + 1))
        (r := ⟨some s.nextMem, none, false⟩) hargm hacc
      rw [howned, hheld] at hsend
      cases hcall : PostProc.sendDataNotify ⟨some s.nextMem, none, false⟩ mem
        (s.withNextMem (s.nextMem + 1)) with
      | mk ok p =>
        obtain ⟨s₁, es⟩ := p
        have halloc := allocated_sendDataNotify (s := s.withNextMem (s.nextMem + 1))
          ⟨some s.nextMem, none, false⟩ mem
        rw [hcall] at hok hsend halloc
        simp only at hok halloc
        intro h
        simp only [PostProc.sendJpeg, hcall, hok, Accounted, Bool.false_eq_true, if_false] at h
        have hcard := congrArg Multiset.card h
        have hcard' := congrArg Multiset.card hsend
        simp only [freed_append, freed_cons, freed_nil, PostEffect.freed, allocated_append,
          allocated_cons, allocated_nil, PostEffect.allocated, Multiset.card_add, card_memsOf,
          Multiset.card_zero, List.length_singleton, halloc] at hcard hcard'
        omega

theorem accounted_jpegResult_iff (evt : JpegEvt) (env : JpegEvtEnv) :
    Accounted s 0 (s.jpegResult evt env).2 (s.jpegResult evt env).1 ↔
      ((env.dataCb && evt.ok && env.getMemory && env.mem.argm) = true →
        Accepts s.notifier env.mem.notify) := by
  unfold PostProc.jpegResult
  cases env.dataCb with
  | false => simp [Accounted]
  | true =>
    cases hok : evt.ok && env.getMemory with
    | false =>
      simp only [Bool.not_true, Bool.not_false, Bool.false_eq_true, if_false, if_true,
        Bool.true_and, hok, Bool.false_and]
      exact iff_of_true (by simp [Accounted]) nofun
    | true =>
      simp only [Bool.not_true, Bool.false_eq_true, if_false, Bool.true_and, hok]
      exact accounted_sendJpeg_iff env.mem

theorem held_of_ongoingJpegQ {job : JpegJob} {ongoing : List JpegJob}
    (h : s.ongoingJpegQ = job :: ongoing) :
    s.held = jobsOf [job] + (s.withOngoingJpegQ ongoing).held := by
  simp only [PostProc.held, PostProc.withOngoingJpegQ, h, jobsOf_cons _ ongoing]
  abel

theorem accounted_processJpegEvt_iff (evt : JpegEvt) (env : JpegEvtEnv) :
    Accounted s 0 (s.processJpegEvt evt env).2 (s.processJpegEvt evt env).1 ↔
      Sound s (.processJpegEvt evt env) := by
  unfold PostProc.processJpegEvt PostProc.findJpegJobByJobId Sound
  by_cases hinit : s.inited = true
  · simp only [hinit, Bool.not_true, Bool.false_eq_true, if_false, true_implies]
    by_cases hid : evt.jobId = 0
    · simp [hid, Accounted]
    · cases hon : s.ongoingJpegQ with
      | nil => simp [hid, Accounted]
      | cons job ongoing =>
        have hheld := held_of_ongoingJpegQ hon
        have hres := accounted_jpegResult_iff (s := s.withOngoingJpegQ ongoing) evt env
        simp only [Accounted] at hres
        simp only [hid, if_false, Accounted, freed_append, freed_cons, PostEffect.freed,
          freed_releaseJpegJobData, held_doNextJob, allocated_append, allocated_cons,
          PostEffect.allocated, allocated_releaseJpegJobData, hheld]
        -- the job's frames go back on both sides
        have hcancel : ∀ a b c d : Multiset Resource,
            0 + a + jobsOf [job] + b = jobsOf [job] + c + 0 + (0 + d + 0) ↔
              a + b = c + 0 + d := by
          intro a b c d
          rw [show 0 + a + jobsOf [job] + b = jobsOf [job] + (a + b) by abel,
            show jobsOf [job] + c + 0 + (0 + d + 0) = jobsOf [job] + (c + 0 + d) by abel,
            add_right_inj]
        rw [hcancel, hres]
        simp only [ne_eq, hid, not_false_eq_true, true_implies, reduceCtorEq]
        exact Iff.rfl
  · simp [hinit, Accounted]

end Jpeg

/-! ### The data thread -/

/-- At most one job is with the encoder, and a job the data thread works on is the
last in its queue or has been taken out by somebody else. -/
structure PostProc.Wf (s : PostProc) : Prop where
  ongoing : s.ongoingJpegQ.length ≤ 1
  encoding : ∀ job queued, s.phase = .encoding job queued →
    s.ongoingJpegQ = [] ∨ queued = true ∧ s.ongoingJpegQ = [job]
  reprocessing : ∀ f, s.phase = .reprocessing f true →
    s.ongoingPPQ = [] ∨ ∃ fs, s.ongoingPPQ = fs ++ [f]

section Thread

variable {s : PostProc}

theorem getJpegEncodingConfig_spec (env : EncodeEnv) : ∃ m k,
    (s.getJpegEncodingConfig env).1 = { s with jpegOutputMem := m, nextMem := k } ∧
    freed (s.getJpegEncodingConfig env).2 + memsOf m.toList =
      memsOf s.jpegOutputMem.toList + allocated (s.getJpegEncodingConfig env).2 := by
  unfold PostProc.getJpegEncodingConfig
  dsimp only
  split
  · exact ⟨none, s.nextMem, rfl, by simp⟩
  · split
    · exact ⟨some s.nextMem, s.nextMem + 1, rfl, by simp⟩
    · exact ⟨none, s.nextMem + 1, rfl, by simp⟩

theorem encodeData_spec (env : EncodeEnv) : ∃ b m k,
    (s.encodeData env).2.1 = { s with needNewSess := b, jpegOutputMem := m, nextMem := k } ∧
    freed (s.encodeData env).2.2 + memsOf m.toList =
      memsOf s.jpegOutputMem.toList + allocated (s.encodeData env).2.2 := by
  unfold PostProc.encodeData
  split
  · exact ⟨s.needNewSess, s.jpegOutputMem, s.nextMem, rfl, by simp⟩
  · split
    · obtain ⟨m, k, hs, hmem⟩ := getJpegEncodingConfig_spec (s := s) env
      dsimp only
      split
      · exact ⟨s.needNewSess, m, k, hs, hmem⟩
      · exact ⟨false, m, k, by rw [hs], hmem⟩
    · exact ⟨s.needNewSess, s.jpegOutputMem, s.nextMem, rfl, by simp⟩

theorem encodeData_isSome_iff (env : EncodeEnv) :
    (s.encodeData env).1.isSome = true ↔ env.Starts s.needNewSess := by
  unfold PostProc.encodeData EncodeEnv.Starts
  by_cases hready : env.ready = true
  · by_cases hnew : s.needNewSess = true
    · by_cases hsess : env.createSession = true
      all_goals simp [hready, hnew, hsess]
    · simp [hready, hnew]
  · simp [hready]

@[simp] theorem jobsOf_map_jobId (js : List JpegJob) (id : UInt32) :
    jobsOf (js.map fun j => { j with jobId := id }) = jobsOf js := by
  rw [jobsOf, jobsOf, List.flatMap_map]
  rfl

/-- The encoder has the job: it is accounted for if it is in the queue. -/
theorem accounted_encoded_iff {env : EncodeEnv} {job : JpegJob} {queued : Bool} (h : s.Wf)
    (hphase : s.phase = .encoding job queued) :
    Accounted s 0 (s.encoded env job).2 (s.encoded env job).1 ↔ Sound s (.encoded env) := by
  obtain ⟨b, m, k, hstate, hmem⟩ := encodeData_spec (s := s) env
  have hstarts := encodeData_isSome_iff (s := s) env
  have hpos := card_jobsOf_singleton_pos (j := job)
  cases hcall : s.encodeData env with
  | mk id p =>
    obtain ⟨s₁, es⟩ := p
    rw [hcall] at hstate hmem hstarts
    simp only at hstate hmem hstarts
    subst hstate
    simp only [Sound, hphase]
    cases id with
    | some id =>
      rw [if_pos (hstarts.mp rfl)]
      simp only [PostProc.encoded, hcall, Accounted, PostProc.held, hphase, freed_append,
        freed_cons, freed_nil, PostEffect.freed, allocated_append, allocated_cons, allocated_nil,
        PostEffect.allocated, jobsOf_map_jobId]
      -- only the phase and the output buffer have changed
      cases queued with
      | true =>
        refine iff_of_true (Multiset.ext.mpr fun x => ?_) rfl
        have hx := congrArg (Multiset.count x) hmem
        simp only [Phase.owned, Multiset.count_add, Multiset.count_zero] at hx ⊢
        omega
      | false =>
        refine iff_of_false (fun heq => ?_) Bool.false_ne_true
        have hcard := congrArg Multiset.card heq
        have hcard' := congrArg Multiset.card hmem
        simp only [Phase.owned, Multiset.card_add, Multiset.card_zero] at hcard hcard'
        omega
    | none =>
      have hnot : ¬ env.Starts s.needNewSess := fun hs =>
        Bool.false_ne_true (hstarts.mpr hs)
      rw [if_neg hnot]
      simp only [PostProc.encoded, hcall, Accounted, PostProc.held, hphase, freed_append,
        freed_cons, freed_nil, PostEffect.freed, allocated_append, allocated_cons, allocated_nil,
        PostEffect.allocated, freed_releaseJpegJobData, allocated_releaseJpegJobData]
      rcases h.encoding job queued hphase with hnil | ⟨rfl, hone⟩
      · -- nothing is in the queue: the job was not put there, or an event has released it
        rw [hnil, List.dropLast_nil, jobsOf_nil]
        cases queued with
        | true =>
          refine iff_of_false (fun heq => ?_) (fun hne => hne rfl rfl)
          have hcard := congrArg Multiset.card heq
          have hcard' := congrArg Multiset.card hmem
          simp only [Phase.owned, Multiset.card_add, Multiset.card_zero] at hcard hcard'
          omega
        | false =>
          refine iff_of_true (Multiset.ext.mpr fun x => ?_) fun hq => absurd hq Bool.false_ne_true
          have hx := congrArg (Multiset.count x) hmem
          simp only [Phase.owned, Multiset.count_add, Multiset.count_zero] at hx ⊢
          omega
      · rw [hone, show [job].dropLast = [] from rfl, jobsOf_nil]
        refine iff_of_true (Multiset.ext.mpr fun x => ?_) (fun _ => List.cons_ne_nil _ _)
        have hx := congrArg (Multiset.count x) hmem
        simp only [Phase.owned, Multiset.count_add, Multiset.count_zero] at hx ⊢
        omega

/-- What becomes of a raw image handed to the notifier: `r` is what the notifier
releases after it. -/
theorem freed_add_held_sendRaw (r : ReleaseData) (mem : DataNotifyMem) (f : ℕ)
    (hr : r.owned = 0 ∨ r.owned = framesOf [f]) :
    freed (s.sendDataNotify r mem).2.2 + (s.sendDataNotify r mem).2.1.held +
        (if (s.sendDataNotify r mem).1 = true then 0 else framesOf [f]) = s.held + framesOf [f] ↔
      if r.owned = 0 then ¬ (mem.argm = true ∧ Accepts s.notifier mem.notify)
      else mem.argm = true → Accepts s.notifier mem.notify := by
  have hone : framesOf [f] ≠ 0 := by simp
  by_cases hargm : mem.argm = true
  · by_cases hacc : Accepts s.notifier mem.notify
    · rw [if_pos ((sendDataNotify_eq_true_iff r mem).mpr ⟨hargm, hacc⟩), add_zero,
        held_sendDataNotify hargm hacc, add_right_inj]
      rcases hr with hr | hr <;> simp [hr, hargm, hacc]
    · rw [if_neg fun h => hacc ((sendDataNotify_eq_true_iff r mem).mp h).2]
      obtain ⟨x, hx, hsend⟩ := held_sendDataNotify_refused (r := r) hargm hacc
      rw [hsend]
      rcases hr with hr | hr
      · obtain rfl : x = 0 := by rcases hx with hx | hx <;> simp [hx, hr]
        simp [hr, hacc]
      · rw [if_neg (by rw [hr]; exact hone), hr]
        refine iff_of_false (fun heq => ?_) (fun h => hacc (h hargm))
        have hcard := congrArg Multiset.card heq
        simp only [Multiset.card_add, card_framesOf, List.length_singleton] at hcard
        omega
  · rw [sendDataNotify_no_argm (by simpa using hargm)]
    rcases hr with hr | hr <;> simp [hr, hargm]

theorem burst_sub_one_eq_zero_iff (n : UInt32) : n - 1 = 0 ↔ n = 1 := by
  constructor
  · intro h
    have hn := UInt32.sub_add_cancel n 1
    rw [h] at hn
    exact hn.symm
  · rintro rfl
    rfl

theorem freed_add_held_processRawImageImpl (f : ℕ) (env : RawEnv) :
    freed (s.processRawImageImpl f env).2.2 + (s.processRawImageImpl f env).2.1.held +
        (if (s.processRawImageImpl f env).1 = true then 0 else framesOf [f]) =
        s.held + framesOf [f] + allocated (s.processRawImageImpl f env).2.2 ↔
      (env.valid = true → env.rawMem = true → env.dataCb = true ∧
        if s.rawBurstCount = 1 then ¬ (env.mem.argm = true ∧ Accepts s.notifier env.mem.notify)
        else env.mem.argm = true → Accepts s.notifier env.mem.notify) := by
  unfold PostProc.processRawImageImpl
  cases hv : env.valid with
  | false => simp
  | true =>
    cases hr : env.rawMem with
    | false => simp
    | true =>
      cases hcb : env.dataCb with
      | false => simp
      | true =>
        set r := PostProc.rawReleaseData f s.countRaw.rawBurstCount with hrel
        have hlast : s.countRaw.rawBurstCount = 0 ↔ s.rawBurstCount = 1 :=
          burst_sub_one_eq_zero_iff s.rawBurstCount
        have howned : r.owned = if s.rawBurstCount = 1 then 0 else framesOf [f] := by
          rw [hrel, PostProc.rawReleaseData]
          by_cases hb : s.rawBurstCount = 1
          · rw [if_pos (hlast.mpr hb), if_pos hb]
            rfl
          · rw [if_neg (mt hlast.mp hb), if_neg hb]
            simp [ReleaseData.owned]
        have hsend := freed_add_held_sendRaw (s := s.countRaw) r env.mem f (by
          rw [howned]
          split <;> simp)
        have hzero : r.owned = 0 ↔ s.rawBurstCount = 1 := by
          rw [howned]
          split <;> simp_all
        simp only [hzero] at hsend
        simp only [Bool.and_self, Bool.not_true, Bool.false_eq_true, if_false,
          allocated_sendDataNotify, add_zero, true_implies, true_and]
        exact hsend

theorem accounted_rawStep_iff {env : RawEnv} (hphase : s.phase = .raw) :
    Accounted s 0 (s.rawStep env).2 (s.rawStep env).1 ↔ Sound s (.raw env) := by
  unfold PostProc.rawStep
  cases hq : s.inputRawQ with
  | nil =>
    refine iff_of_true ?_ (fun hne => absurd hq hne)
    simp [Accounted, PostProc.held, hphase, hq, Phase.owned]
  | cons f rest =>
    have hheld : s.held = (s.withInputRawQ rest).held + framesOf [f] := by
      simp only [PostProc.held, PostProc.withInputRawQ, hq, hphase, Phase.owned,
        framesOf_cons _ rest]
      abel
    have hraw := freed_add_held_processRawImageImpl (s := s.withInputRawQ rest) f env
    rw [Sound, hq]
    simp only [ne_eq, reduceCtorEq, not_false_eq_true, true_implies]
    refine Iff.trans ?_ hraw
    rw [Accounted, hheld, add_zero, freed_append, allocated_append]
    split
    · simp
    · simp only [freed_cons, freed_nil, PostEffect.freed, allocated_cons, allocated_nil,
        PostEffect.allocated, add_zero]
      rw [add_right_comm]

theorem accounted_ppStep {env : PPEnv} (hphase : s.phase = .pp) :
    Accounted s 0 (s.ppStep env).2 (s.ppStep env).1 := by
  unfold PostProc.ppStep
  cases hq : s.inputPPQ with
  | nil => simp [Accounted, PostProc.held, hphase, hq, Phase.owned]
  | cons f rest =>
    dsimp only
    split
    · simp only [Accounted, PostProc.held, hphase, hq, Phase.owned, framesOf_cons _ rest,
        freed_nil, allocated_nil]
      cases env.node with
      | true =>
        simp only [enqueue_true, framesOf_append]
        abel
      | false =>
        simp only [enqueue_false]
        abel
    · simp only [Accounted, PostProc.held, hphase, hq, Phase.owned, framesOf_cons _ rest,
        freed_cons, freed_nil, PostEffect.freed, allocated_cons, allocated_nil,
        PostEffect.allocated]
      abel

theorem accounted_reprocessed_iff {ok : Bool} {f : ℕ} {queued : Bool} (h : s.Wf)
    (hphase : s.phase = .reprocessing f queued) :
    Accounted s 0 (s.reprocessed ok f).2 (s.reprocessed ok f).1 ↔ Sound s (.reprocessed ok) := by
  simp only [PostProc.reprocessed, Sound, hphase]
  cases ok with
  | true =>
    simp only [if_true, Accounted, PostProc.held, hphase, freed_nil, allocated_nil]
    cases queued with
    | true =>
      refine iff_of_true ?_ rfl
      simp [Phase.owned]
    | false =>
      refine iff_of_false (fun heq => ?_) Bool.false_ne_true
      have hcard := congrArg Multiset.card heq
      simp only [Phase.owned, Multiset.card_add, Multiset.card_zero, card_framesOf,
        List.length_singleton] at hcard
      omega
  | false =>
    simp only [Bool.false_eq_true, if_false, Accounted, PostProc.held, hphase, freed_cons,
      freed_nil, PostEffect.freed, allocated_cons, allocated_nil, PostEffect.allocated]
    cases queued with
    | true =>
      rcases h.reprocessing f hphase with hnil | ⟨fs, hlast⟩
      · rw [hnil, if_pos rfl]
        refine iff_of_false (fun heq => ?_) (fun hne => hne rfl)
        have hcard := congrArg Multiset.card heq
        simp only [Phase.owned, Multiset.card_add, Multiset.card_zero, card_framesOf,
          List.length_singleton, List.dropLast_nil, List.length_nil] at hcard
        omega
      · rw [hlast, if_pos rfl, List.dropLast_concat, framesOf_append]
        refine iff_of_true ?_ (by simp)
        simp only [Phase.owned]
        abel
    | false =>
      -- the queue loses the last job, which is another one
      rw [if_neg Bool.false_ne_true]
      cases hq : s.ongoingPPQ with
      | nil =>
        refine iff_of_true ?_ rfl
        simp only [Phase.owned, List.dropLast_nil, framesOf_nil]
        abel
      | cons g gs =>
        refine iff_of_false (fun heq => ?_) (List.cons_ne_nil g gs)
        have hcard := congrArg Multiset.card heq
        simp only [Phase.owned, Multiset.card_add, Multiset.card_zero, card_framesOf,
          List.length_dropLast, List.length_cons] at hcard
        omega

theorem freed_flatMap_releaseJpegJobData (js : List JpegJob) :
    freed (js.flatMap releaseJpegJobData) = jobsOf js := by
  induction js with
  | nil => rfl
  | cons j js ih =>
    rw [List.flatMap_cons, freed_append, ih, freed_releaseJpegJobData, jobsOf_cons _ js]

theorem allocated_flatMap_releaseJpegJobData (js : List JpegJob) :
    allocated (js.flatMap releaseJpegJobData) = 0 := by
  induction js with
  | nil => rfl
  | cons j js ih => rw [List.flatMap_cons, allocated_append, ih, allocated_releaseJpegJobData]; rfl

theorem freed_abortJobs (js : List JpegJob) :
    freed (js.flatMap fun j => .abortJob j.jobId :: releaseJpegJobData j) = jobsOf js ∧
      allocated (js.flatMap fun j => .abortJob j.jobId :: releaseJpegJobData j) = 0 := by
  induction js with
  | nil => exact ⟨rfl, rfl⟩
  | cons j js ih =>
    rw [List.flatMap_cons, freed_append, allocated_append, ih.1, ih.2, jobsOf_cons _ js]
    simp

theorem accounted_stopDataProc (hphase : s.phase = .idle) :
    Accounted s 0 s.stopDataProc.2 s.stopDataProc.1 := by
  obtain ⟨hfreed, halloc⟩ := freed_abortJobs s.ongoingJpegQ
  simp only [Accounted, PostProc.stopDataProc, PostProc.held, hphase, Phase.owned, freed_append,
    allocated_append, hfreed, halloc, freed_flatMap_releaseJpegJobData,
    allocated_flatMap_releaseJpegJobData, freed_map_release, allocated_map_release,
    freed_map_releaseMem, allocated_map_releaseMem, freed_cons, freed_nil, allocated_cons,
    allocated_nil, PostEffect.freed, PostEffect.allocated, framesOf_nil, jobsOf_nil,
    Option.toList_none, memsOf_nil]
  abel

theorem framesOf_head_add_tail (fs : List ℕ) :
    framesOf fs.head?.toList + framesOf fs.tail = framesOf fs := by
  cases fs with
  | nil => rfl
  | cons f fs => exact (framesOf_cons f fs).symm

theorem jobsOf_head_add_tail (js : List JpegJob) :
    jobsOf js.head?.toList + jobsOf js.tail = jobsOf js := by
  cases js with
  | nil => rfl
  | cons j js => exact (jobsOf_cons j js).symm

theorem accounted_dropJobs : Accounted s 0 s.dropJobs.2 s.dropJobs.1 := by
  simp only [Accounted, PostProc.dropJobs, PostProc.held, freed_append, allocated_append,
    freed_flatMap_releaseJpegJobData, allocated_flatMap_releaseJpegJobData, freed_map_release,
    allocated_map_release]
  rw [← framesOf_head_add_tail s.inputRawQ, ← framesOf_head_add_tail s.inputPPQ,
    ← jobsOf_head_add_tail s.inputJpegQ]
  abel

theorem accounted_nextJob (node : Bool) (hphase : s.phase = .idle) :
    Accounted s 0 [] (s.nextJob node) := by
  unfold PostProc.nextJob
  split
  · rename_i job rest hon hin
    simp only [Accounted, PostProc.held, hphase, hon, hin, Phase.owned, jobsOf_cons _ rest,
      freed_nil, allocated_nil]
    cases node with
    | true =>
      simp only [enqueue_true, List.nil_append, jobsOf_nil]
      abel
    | false =>
      simp only [enqueue_false, jobsOf_nil]
      abel
  · simp [Accounted, PostProc.held, hphase, Phase.owned]

/-- No command loses anything. -/
theorem accounted_dataProcessRoutine (node : Bool) (cmd : CmdType) (hphase : s.phase = .idle) :
    Accounted s 0 (s.dataProcessRoutine node cmd).2 (s.dataProcessRoutine node cmd).1 := by
  cases cmd with
  | startDataProc => simp [Accounted, PostProc.dataProcessRoutine, PostProc.held]
  | stopDataProc => exact accounted_stopDataProc hphase
  | doNextJob =>
    rw [PostProc.dataProcessRoutine]
    split
    · exact accounted_nextJob node hphase
    · exact accounted_dropJobs
  | exit => simp [Accounted, PostProc.dataProcessRoutine]

theorem freed_ofNotifierEvt (es : List (NotifierEvt ReleaseData)) :
    freed (es.flatMap PostProc.ofNotifierEvt) = dataOf (releasedData es) ∧
      allocated (es.flatMap PostProc.ofNotifierEvt) = 0 := by
  induction es with
  | nil => exact ⟨rfl, rfl⟩
  | cons e es ih =>
    rw [List.flatMap_cons, freed_append, allocated_append, ih.1, ih.2]
    cases e with
    | release r => simp [PostProc.ofNotifierEvt, releasedData, dataOf]
    | queued | start | stop | snapshotDone | snapshot | callback =>
      simp [PostProc.ofNotifierEvt, releasedData]

theorem accounted_notify {env : NotifierEnv} {n : CbNotifier ReleaseData}
    {es : List (NotifierEvt ReleaseData)} (hn : s.notifier.step (.next env) = some (n, es)) :
    Accounted s 0 (es.flatMap PostProc.ofNotifierEvt) (s.withNotifier n) := by
  obtain ⟨hfreed, halloc⟩ := freed_ofNotifierEvt es
  have hdata := dataOf_perm (ReleasesOnce.step hn)
  rw [dataOf_append, dataOf_append, queuedData_next hn, dataOf_nil, add_zero] at hdata
  have hheld := held_withNotifier (s := s) (n := n)
  rw [Accounted, hfreed, halloc, add_zero, add_zero]
  refine add_right_cancel (b := dataOf (pendingData n)) ?_
  rw [← hheld, ← hdata]
  abel

theorem accounted_notifyOther (cbType : CbType) (msgType : ℕ) (mem : NotifyMem) :
    Accounted s 0 []
      (s.withNotifier (s.notifier.notifyCallback ⟨cbType, msgType, none, none⟩ mem).2.1) := by
  have hheld := held_withNotifier (s := s)
    (n := (s.notifier.notifyCallback ⟨cbType, msgType, none, none⟩ mem).2.1)
  rw [pendingData_notifyCallback, Option.toList_none, ite_self, List.append_nil,
    add_left_inj] at hheld
  simpa [Accounted] using hheld

/-- **Ownership, one step.** A step keeps account exactly if it is sound. -/
theorem accounted_step_iff {s' : PostProc} {i : PostInput} {o : List PostEffect} (h : s.Wf)
    (hs : s.step i = some (s', o)) : Accounted s i.handed o s' ↔ Sound s i := by
  cases PostProc.transition_of_step hs with
  | start env => exact iff_of_true (accounted_start env) trivial
  | stop dataMem notifyMem => exact iff_of_true (accounted_stop dataMem notifyMem) trivial
  | data f env => exact accounted_processData_iff env
  | rawData f node cmd => exact accounted_processRawData_iff node cmd
  | ppData f env => exact accounted_processPPData_iff env
  | jpegEvt evt env => exact accounted_processJpegEvt_iff evt env
  | @cmd node cmd cmds hphase hcmds =>
    exact iff_of_true (accounted_dataProcessRoutine (s := s.withCmds cmds) node cmd hphase) trivial
  | encoded env hphase => exact accounted_encoded_iff h hphase
  | raw env hphase => exact accounted_rawStep_iff hphase
  | pp env hphase => exact iff_of_true (accounted_ppStep hphase) trivial
  | reprocessed ok hphase => exact accounted_reprocessed_iff h hphase
  | notify env hn => exact iff_of_true (accounted_notify hn) trivial
  | notifyOther cbType msgType mem =>
    exact iff_of_true (accounted_notifyOther cbType msgType mem) trivial

end Thread

section Runs

variable {s s' : PostProc}

theorem PostProc.Wf.opened (inited : Bool) : (PostProc.opened inited).Wf :=
  ⟨Nat.zero_le 1, fun _ _ _ => .inl rfl, fun _ _ => .inl rfl⟩

theorem PostProc.Wf.outside (h : s.Wf) (ho : Outside s s') : s'.Wf where
  ongoing := ho.ongoingJpegQ.length_le.trans h.ongoing
  encoding job queued hphase := by
    rw [ho.phase] at hphase
    rcases h.encoding job queued hphase with hnil | ⟨hq, hone⟩
    · exact .inl (List.suffix_nil.mp (hnil ▸ ho.ongoingJpegQ))
    · rcases List.suffix_cons_iff.mp (hone ▸ ho.ongoingJpegQ) with heq | hsuf
      · exact .inr ⟨hq, heq⟩
      · exact .inl (List.suffix_nil.mp hsuf)
  reprocessing f hphase := by
    rw [ho.phase] at hphase
    rcases h.reprocessing f hphase with hnil | ⟨fs, hlast⟩
    · exact .inl (List.suffix_nil.mp (hnil ▸ ho.ongoingPPQ))
    · rcases List.suffix_concat_iff.mp (hlast ▸ ho.ongoingPPQ) with heq | ⟨gs, heq, -⟩
      · exact .inl heq
      · exact .inr ⟨gs, heq⟩

theorem PostProc.Wf.of_between (hlen : s.ongoingJpegQ.length ≤ 1)
    (henc : ∀ job queued, s.phase ≠ .encoding job queued)
    (hrep : ∀ f, s.phase ≠ .reprocessing f true) : s.Wf :=
  ⟨hlen, fun job queued h => absurd h (henc job queued), fun f h => absurd h (hrep f)⟩

theorem PostProc.Wf.dataProcessRoutine (h : s.Wf) (node : Bool) (cmd : CmdType) :
    (s.dataProcessRoutine node cmd).1.Wf := by
  cases cmd with
  | startDataProc | exit => exact ⟨h.ongoing, h.encoding, h.reprocessing⟩
  | stopDataProc => exact ⟨Nat.zero_le 1, fun _ _ _ => .inl rfl, fun _ _ => .inl rfl⟩
  | doNextJob =>
    rw [PostProc.dataProcessRoutine]
    split
    · unfold PostProc.nextJob
      split
      · rename_i job rest hon hin
        -- the job is the only one ongoing
        refine ⟨?_, ?_, nofun⟩
        · cases node with
          | true => exact Nat.le_refl 1
          | false => exact Nat.zero_le 1
        · rintro _ _ ⟨rfl, rfl⟩
          cases node with
          | true => exact .inr ⟨rfl, rfl⟩
          | false => exact .inl rfl
      · exact .of_between h.ongoing nofun nofun
    · exact ⟨h.ongoing, h.encoding, h.reprocessing⟩

theorem PostProc.Wf.encoded (h : s.Wf) (env : EncodeEnv) (job : JpegJob) :
    (s.encoded env job).1.Wf := by
  obtain ⟨b, m, k, hstate, -⟩ := encodeData_spec (s := s) env
  cases hcall : s.encodeData env with
  | mk id p =>
    obtain ⟨s₁, es⟩ := p
    rw [hcall] at hstate
    simp only at hstate
    subst hstate
    cases id with
    | some id =>
      rw [PostProc.encoded, hcall]
      exact .of_between ((List.length_map _).trans_le h.ongoing) nofun nofun
    | none =>
      rw [PostProc.encoded, hcall]
      refine .of_between ?_ nofun nofun
      rw [List.length_dropLast]
      exact (Nat.sub_le _ 1).trans h.ongoing

theorem processRawImageImpl_thread (f : ℕ) (env : RawEnv) :
    (s.processRawImageImpl f env).2.1.phase = s.phase ∧
      (s.processRawImageImpl f env).2.1.ongoingJpegQ = s.ongoingJpegQ := by
  unfold PostProc.processRawImageImpl
  split
  · exact ⟨rfl, rfl⟩
  split
  · exact ⟨rfl, rfl⟩
  · unfold PostProc.sendDataNotify
    cases env.mem.argm <;> exact ⟨rfl, rfl⟩

theorem PostProc.Wf.rawStep (h : s.Wf) (env : RawEnv) : (s.rawStep env).1.Wf := by
  unfold PostProc.rawStep
  cases s.inputRawQ with
  | nil => exact .of_between h.ongoing nofun nofun
  | cons f rest =>
    obtain ⟨hphase, hjpeg⟩ := processRawImageImpl_thread (s := s.withInputRawQ rest) f env
    refine .of_between (hjpeg.symm ▸ h.ongoing) ?_ ?_
    · intro job queued hp
      cases hphase.symm.trans hp
    · intro g hp
      cases hphase.symm.trans hp

theorem PostProc.Wf.ppStep (h : s.Wf) (env : PPEnv) : (s.ppStep env).1.Wf := by
  unfold PostProc.ppStep
  split
  · exact .of_between h.ongoing nofun nofun
  split
  · refine ⟨h.ongoing, nofun, ?_⟩
    intro g hp
    obtain ⟨rfl, hnode⟩ := Phase.reprocessing.inj hp
    exact .inr ⟨s.ongoingPPQ, by rw [hnode]; rfl⟩
  · exact .of_between h.ongoing nofun nofun

theorem PostProc.Wf.reprocessed (h : s.Wf) (ok : Bool) (f : ℕ) : (s.reprocessed ok f).1.Wf := by
  cases ok <;> exact .of_between h.ongoing nofun nofun

theorem PostProc.Wf.step {i : PostInput} {o : List PostEffect} (h : s.Wf)
    (hs : s.step i = some (s', o)) : s'.Wf := by
  cases PostProc.transition_of_step hs with
  | start env =>
    unfold PostProc.start
    split
    · exact h
    split <;> exact ⟨h.ongoing, h.encoding, h.reprocessing⟩
  | stop dataMem notifyMem =>
    unfold PostProc.stop
    split <;> exact ⟨h.ongoing, h.encoding, h.reprocessing⟩
  | data f env => exact h.outside (outside_processData f env)
  | rawData f node cmd => exact h.outside (outside_processRawData f node cmd)
  | ppData f env => exact h.outside (outside_processPPData f env)
  | jpegEvt evt env => exact h.outside (outside_processJpegEvt evt env)
  | @cmd node cmd cmds hphase hcmds =>
    exact PostProc.Wf.dataProcessRoutine (s := s.withCmds cmds)
      ⟨h.ongoing, h.encoding, h.reprocessing⟩ node cmd
  | encoded env hphase => exact h.encoded env _
  | raw env hphase => exact h.rawStep env
  | pp env hphase => exact h.ppStep env
  | reprocessed ok hphase => exact h.reprocessed ok _
  | notify env hn | notifyOther cbType msgType mem => exact ⟨h.ongoing, h.encoding, h.reprocessing⟩

@[simp] theorem handed_append (is js : List PostInput) :
    handed (is ++ js) = handed is + handed js := by simp [handed]

theorem Accounted.snoc {is : List PostInput} {os o : List PostEffect} {i : PostInput}
    (h : freed os + s.held = handed is + allocated os) (ha : Accounted s i.handed o s') :
    freed (os ++ o) + s'.held = handed (is ++ [i]) + allocated (os ++ o) := by
  have hi : handed [i] = i.handed := by simp [handed]
  calc freed (os ++ o) + s'.held
      = freed os + (freed o + s'.held) := by rw [freed_append, add_assoc]
    _ = freed os + s.held + (i.handed + allocated o) := by rw [ha, add_assoc s.held, ← add_assoc]
    _ = handed (is ++ [i]) + allocated (os ++ o) := by
        rw [h, handed_append, hi, allocated_append, add_add_add_comm]

/-- **Single ownership.** Along runs of sound steps what was handed over or
allocated has been released once or is still held, counted with multiplicity; and
the next step keeps that up exactly if it is sound too. -/
theorem single_ownership {inited : Bool} {is : List PostInput} {os : List PostEffect}
    (hrun : Runs PostProc.step Sound (.opened inited) is os s) :
    freed os + s.held = handed is + allocated os ∧
      ∀ i s' o, s.step i = some (s', o) → (Accounted s i.handed o s' ↔ Sound s i) := by
  have hinv : s.Wf ∧ freed os + s.held = handed is + allocated os := by
    refine hrun.inv (fun is os s => s.Wf ∧ freed os + s.held = handed is + allocated os)
      ⟨.opened inited, rfl⟩ ?_
    intro is os s i s' o hinv hsound hs
    have hacc := (accounted_step_iff hinv.1 hs).mpr hsound
    exact ⟨hinv.1.step hs, Accounted.snoc hinv.2 hacc⟩
  exact ⟨hinv.2, fun i s' o hs => accounted_step_iff hinv.1 hs⟩

end Runs

/-! ### One picture -/

/-- Superbuf 7 is encoded as job 1 and delivered. -/
def onePicture (node : Bool) : List PostInput :=
  [.start plainStart, .processData 7 plainFrame, .next true, .next true, .encoded (plainEncode 1),
    .raw plainRaw, .pp ⟨true, true⟩, .processJpegEvt ⟨1, true⟩ (plainJpegEvt node)]

/-- With enough memory superbuf 7 has gone back; the output buffer and the copy of
the image are held. -/
theorem single_ownership_onePicture : ∃ os s,
    Runs PostProc.step Sound (.opened true) (onePicture true) os s ∧
    freed os = {.frame 7} ∧ s.held = {.mem 0, .mem 1} ∧
    freed os + s.held = handed (onePicture true) + allocated os := by
  obtain ⟨os, s, hexec, hfreed, hheld⟩ : ∃ os s,
      exec PostProc.step (.opened true) (onePicture true) = some (s, os) ∧
      freed os = {.frame 7} ∧ s.held = {.mem 0, .mem 1} := ⟨_, _, rfl, by decide, by decide⟩
  have hrun := runs_of_exec_guarded (G := Sound) .nil hexec <| by
    refine ⟨trivial, ?_⟩; rintro _ ⟨⟩
    refine ⟨⟨rfl, rfl, rfl⟩, ?_⟩; rintro _ ⟨⟩
    iterate 2 (refine ⟨trivial, ?_⟩; rintro _ ⟨⟩)
    -- the job is in the queue, and `start_job` succeeds
    refine ⟨rfl, ?_⟩; rintro _ ⟨⟩
    refine ⟨fun hne => absurd rfl hne, ?_⟩; rintro _ ⟨⟩
    refine ⟨trivial, ?_⟩; rintro _ ⟨⟩
    exact ⟨fun _ _ _ _ => ⟨rfl, rfl, rfl, rfl⟩, fun _ _ => trivial⟩
  exact ⟨os, s, hrun, hfreed, hheld, (single_ownership hrun).1⟩

/-- The notifier has no memory for the image: its copy is released by
`sendDataNotify` and again by `processJpegEvt`. -/
theorem jpegMem_released_twice : ∃ os s,
    Runs PostProc.step (fun _ _ => True) (.opened true) (onePicture false) os s ∧
    (allocated os).count (.mem 1) = 1 ∧ (freed os).count (.mem 1) = 2 ∧
    freed os + s.held ≠ handed (onePicture false) + allocated os := by
  refine ⟨_, _, runs_of_exec rfl, ?_, ?_, ?_⟩
  all_goals decide

end Qcamera

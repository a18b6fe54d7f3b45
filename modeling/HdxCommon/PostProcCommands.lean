/-
Which of `start` and `stop` wins in the post-processor.

Both calls send a command to the data thread and one to the notifier.  `start`
puts the one for the data thread at the tail of its queue; the other three go to
the head.

* `settle` — what a thread will be once its queue is drained;
* `settles_step_iff` — a step keeps both threads on the way to the state of the
  last call exactly if it is `InOrder`;
* `last_command_wins` — so in runs of such steps the last call decides, and no
  job is sent to the encoder after `stop` has returned.
-/
import HdxCommon.PostProc

namespace Qcamera

/-! ### Draining a queue of commands -/

/-- What a command makes of a thread that is active or not. -/
def CmdType.apply (on : Bool) : CmdType → Bool
  | .startDataProc => true
  | .stopDataProc => false
  | .doNextJob => on
  | .exit => on

/-- What a thread will be when it has taken all commands that wait. -/
def settle (on : Bool) (q : List CmdType) : Bool := q.foldl CmdType.apply on

section Settle

variable {on : Bool} {q : List CmdType}

@[simp] theorem settle_nil : settle on [] = on := rfl

theorem settle_cons (cmd : CmdType) : settle on (cmd :: q) = settle (cmd.apply on) q := rfl

theorem settle_concat (cmd : CmdType) : settle on (q ++ [cmd]) = cmd.apply (settle on q) :=
  List.foldl_concat ..

@[simp] theorem settle_replicate_doNextJob (k : ℕ) :
    settle on (q ++ List.replicate k .doNextJob) = settle on q := by
  induction k with
  | zero => rw [List.replicate_zero, List.append_nil]
  | succ k ih =>
    rw [List.replicate_succ', ← List.append_assoc, settle_concat, ih]
    rfl

theorem settle_eq_false_iff (hstop : .stopDataProc ∉ q) :
    settle on q = false ↔ on = false ∧ .startDataProc ∉ q := by
  induction q generalizing on with
  | nil => simp
  | cons cmd q ih =>
    rw [List.mem_cons, not_or] at hstop
    rw [settle_cons, ih hstop.2, List.mem_cons, not_or]
    cases cmd with
    | startDataProc | doNextJob | exit => simp [CmdType.apply]
    | stopDataProc => exact absurd rfl hstop.1

end Settle

/-! ### The state both threads are heading for -/

/-- Whether an input is a call of `start` or of `stop`. -/
def PostInput.call : PostInput → Option Bool
  | .start _ => some true
  | .stop _ _ => some false
  | _ => none

/-- Whether the last call was `start`. -/
def lastCall (is : List PostInput) : Bool := is.foldl (fun on i => i.call.getD on) false

def PostProc.Settles (s : PostProc) (on : Bool) : Prop :=
  settle s.active s.cmds = on ∧
    settle s.notifier.isSnapshotActive s.notifier.cmds = on

/-- `start` gets as far as its commands. -/
def StartEnv.Begins (env : StartEnv) (s : PostProc) : Prop :=
  s.inited = true ∧ (env.needReprocess = true → env.addChannel = true ∧ env.startChannel = true)

instance (env : StartEnv) (s : PostProc) : Decidable (env.Begins s) :=
  inferInstanceAs (Decidable (_ ∧ _))

/-- The calls that no older command overtakes.  A command that cannot be sent is
none too many. -/
def InOrder (s : PostProc) : PostInput → Prop
  | .start env =>
    if env.Begins s then
      (¬ env.dataMem.Sends → settle s.active s.cmds = true) ∧
        -- the command goes to the head: what waits there is taken after it
        if env.notifyMem.Sends then settle true s.notifier.cmds = true
        else settle s.notifier.isSnapshotActive s.notifier.cmds = true
    else s.Settles true
  | .stop dataMem notifyMem =>
    s.inited = true →
      settle (if dataMem.Sends then false else s.active) s.cmds = false ∧
        settle (if notifyMem.Sends then false else s.notifier.isSnapshotActive)
          s.notifier.cmds = false
  | _ => True

section Steps

open PostProc

variable {s s' : PostProc} {on : Bool}

theorem Wakes.settles_iff (h : Wakes s s') : s'.Settles on ↔ s.Settles on := by
  obtain ⟨k, hcmds⟩ := h.cmds
  obtain ⟨l, hnotifier⟩ := h.notifierCmds
  rw [Settles, Settles, h.active, h.isSnapshotActive, hcmds, hnotifier,
    settle_replicate_doNextJob, settle_replicate_doNextJob]

theorem start_of_begins {env : StartEnv} (h : env.Begins s) : s.start env =
    ({ s with
        reprocChannel := s.reprocChannel || env.needReprocess
        cmds := (sendCmd .startDataProc false env.dataMem s.cmds).2
        notifier := s.notifier.withCmds
          (sendCmd .startDataProc true env.notifyMem s.notifier.cmds).2
        rawBurstCount := env.numOfSnapshots.toUInt32 }, [.started]) := by
  obtain ⟨hinit, hchannel⟩ := h
  rw [PostProc.start, if_neg (by simp [hinit]), if_neg]
  simpa using hchannel

theorem start_of_not_begins {env : StartEnv} (h : ¬ env.Begins s) :
    (s.start env).2 = [] ∧ Outside s (s.start env).1 := by
  unfold PostProc.start
  split
  · exact ⟨rfl, .refl s⟩
  rename_i hinit
  split
  · exact ⟨rfl, .of_eq rfl rfl rfl rfl rfl, rfl, List.suffix_rfl, List.suffix_rfl⟩
  · rename_i hchannel
    refine absurd ⟨by simpa using hinit, fun hneed => ?_⟩ h
    simpa [hneed] using hchannel

theorem settles_start_iff (env : StartEnv) :
    (s.start env).1.Settles true ↔ InOrder s (.start env) := by
  rw [InOrder]
  by_cases hbegins : env.Begins s
  · rw [if_pos hbegins, start_of_begins hbegins]
    simp only [Settles, CbNotifier.withCmds, sendCmd_eq, if_true]
    refine and_congr ?_ ?_
    · by_cases hsend : env.dataMem.Sends
      · simp [hsend, settle_concat, CmdType.apply]
      · simp [hsend]
    · by_cases hsend : env.notifyMem.Sends
      · simp [hsend, settle_cons, CmdType.apply]
      · simp [hsend]
  · rw [if_neg hbegins, (start_of_not_begins hbegins).2.toWakes.settles_iff]

theorem settles_stop_iff (dataMem notifyMem : CmdMem) (hoff : s.inited = false → s.Settles false) :
    (s.stop dataMem notifyMem).1.Settles false ↔ InOrder s (.stop dataMem notifyMem) := by
  rw [InOrder, PostProc.stop]
  by_cases hinit : s.inited = true
  · rw [if_pos hinit]
    simp only [Settles, CbNotifier.withCmds, sendCmd_eq, if_true, hinit, forall_const]
    refine and_congr ?_ ?_
    · by_cases hsend : dataMem.Sends
      · simp [hsend, settle_cons, CmdType.apply]
      · simp [hsend]
    · by_cases hsend : notifyMem.Sends
      · simp [hsend, settle_cons, CmdType.apply]
      · simp [hsend]
  · rw [if_neg hinit]
    exact iff_of_true (hoff (by simpa using hinit)) fun h => absurd h hinit

theorem dataProcessRoutine_threads (node : Bool) (cmd : CmdType) :
    (s.dataProcessRoutine node cmd).1.active = cmd.apply s.active ∧
      (s.dataProcessRoutine node cmd).1.cmds = s.cmds ∧
      (s.dataProcessRoutine node cmd).1.inited = s.inited ∧
      (s.dataProcessRoutine node cmd).1.notifier = s.notifier := by
  cases cmd with
  | startDataProc | stopDataProc | exit => exact ⟨rfl, rfl, rfl, rfl⟩
  | doNextJob =>
    rw [dataProcessRoutine]
    split
    · unfold nextJob
      split <;> exact ⟨rfl, rfl, rfl, rfl⟩
    · exact ⟨rfl, rfl, rfl, rfl⟩

theorem settles_next_iff {node : Bool} {cmd : CmdType} {cmds : List CmdType}
    (hcmds : s.cmds = cmd :: cmds) :
    ((s.withCmds cmds).dataProcessRoutine node cmd).1.Settles on ↔ s.Settles on := by
  obtain ⟨hactive, hrest, -, hnotifier⟩ :=
    dataProcessRoutine_threads (s := s.withCmds cmds) node cmd
  rw [Settles, hactive, hrest, hnotifier, Settles, hcmds, settle_cons]
  rfl

theorem cbNotifyRoutine_thread {α : Type*} {n : CbNotifier α} (env : NotifierEnv) (cmd : CmdType) :
    (n.cbNotifyRoutine env cmd).1.isSnapshotActive = cmd.apply n.isSnapshotActive ∧
      (n.cbNotifyRoutine env cmd).1.cmds = n.cmds := by
  cases cmd with
  | startDataProc | stopDataProc | exit => exact ⟨rfl, rfl⟩
  | doNextJob =>
    simp only [CbNotifier.cbNotifyRoutine]
    split
    · exact ⟨rfl, rfl⟩
    split
    · unfold CbNotifier.deliver
      split
      · exact ⟨rfl, rfl⟩
      · exact ⟨rfl, rfl⟩
      · exact ⟨rfl, rfl⟩
      · split <;> exact ⟨rfl, rfl⟩
    · exact ⟨rfl, rfl⟩

theorem settles_notify_iff {env : NotifierEnv} {n : CbNotifier ReleaseData}
    {es : List (NotifierEvt ReleaseData)} (hn : s.notifier.step (.next env) = some (n, es)) :
    (s.withNotifier n).Settles on ↔ s.Settles on := by
  suffices h : settle n.isSnapshotActive n.cmds =
      settle s.notifier.isSnapshotActive s.notifier.cmds by
    rw [Settles, Settles, ← h]
    rfl
  cases CbNotifier.transition_of_step hn with
  | idle => rfl
  | @cmd env cmd cmds hrun hcmds =>
    obtain ⟨hactive, hrest⟩ := cbNotifyRoutine_thread (n := s.notifier.withCmds cmds) env cmd
    rw [hactive, hrest, hcmds, settle_cons]
    rfl

theorem wakes_getJpegEncodingConfig (env : EncodeEnv) :
    Wakes s (s.getJpegEncodingConfig env).1 := by
  unfold getJpegEncodingConfig
  dsimp only
  split
  · exact .of_eq rfl rfl rfl rfl rfl
  split <;> exact .of_eq rfl rfl rfl rfl rfl

theorem wakes_encodeData (env : EncodeEnv) : Wakes s (s.encodeData env).2.1 := by
  have hconfig := wakes_getJpegEncodingConfig (s := s) env
  unfold encodeData
  split
  · exact .of_eq rfl rfl rfl rfl rfl
  split
  · dsimp only
    split
    · exact hconfig
    · exact hconfig.trans (.of_eq rfl rfl rfl rfl rfl)
  · exact .of_eq rfl rfl rfl rfl rfl

theorem wakes_encoded (env : EncodeEnv) (job : JpegJob) : Wakes s (s.encoded env job).1 := by
  have hcall := wakes_encodeData (s := s) env
  unfold encoded
  split
  all_goals
    rename_i heq
    rw [heq] at hcall
    exact hcall.trans (.of_eq rfl rfl rfl rfl rfl)

theorem outside_processRawImageImpl (f : ℕ) (env : RawEnv) :
    Outside s (s.processRawImageImpl f env).2.1 := by
  unfold processRawImageImpl
  split
  · exact .refl s
  split
  · exact .refl s
  · have hcount : Outside s s.countRaw :=
      ⟨.of_eq rfl rfl rfl rfl rfl, rfl, List.suffix_rfl, List.suffix_rfl⟩
    exact hcount.trans (outside_sendDataNotify _ env.mem)

theorem wakes_rawStep (env : RawEnv) : Wakes s (s.rawStep env).1 := by
  unfold rawStep
  split
  · exact .of_eq rfl rfl rfl rfl rfl
  · rename_i f rest hq
    have hraw : Wakes s (s.withInputRawQ rest) := .of_eq rfl rfl rfl rfl rfl
    exact hraw.trans (outside_processRawImageImpl f env).toWakes

theorem wakes_ppStep (env : PPEnv) : Wakes s (s.ppStep env).1 := by
  unfold ppStep
  split
  · exact .of_eq rfl rfl rfl rfl rfl
  split <;> exact .of_eq rfl rfl rfl rfl rfl

theorem wakes_reprocessed (ok : Bool) (f : ℕ) : Wakes s (s.reprocessed ok f).1 := by
  cases ok <;> exact .of_eq rfl rfl rfl rfl rfl

theorem settles_iff_of_call_eq_none {i : PostInput} {o : List PostEffect}
    (hs : s.step i = some (s', o)) (hcall : i.call = none) :
    s'.inited = s.inited ∧ ∀ on, s'.Settles on ↔ s.Settles on := by
  have hwakes : ∀ {t}, Wakes s t → t.inited = s.inited ∧ ∀ on, t.Settles on ↔ s.Settles on :=
    fun h => ⟨h.inited, fun _ => h.settles_iff⟩
  cases transition_of_step hs with
  | start | stop => cases hcall
  | data f env => exact hwakes (outside_processData f env).toWakes
  | rawData f node cmd => exact hwakes (outside_processRawData f node cmd).toWakes
  | ppData f env => exact hwakes (outside_processPPData f env).toWakes
  | jpegEvt evt env => exact hwakes (outside_processJpegEvt evt env).toWakes
  | @cmd node cmd cmds hphase hcmds =>
    exact ⟨(dataProcessRoutine_threads node cmd).2.2.1, fun _ => settles_next_iff hcmds⟩
  | encoded env hphase => exact hwakes (wakes_encoded env _)
  | raw env hphase => exact hwakes (wakes_rawStep env)
  | pp env hphase => exact hwakes (wakes_ppStep env)
  | reprocessed ok hphase => exact hwakes (wakes_reprocessed ok _)
  | notify env hn => exact ⟨rfl, fun _ => settles_notify_iff hn⟩
  | notifyOther cbType msgType mem => exact hwakes (outside_notifyCallback _ mem).toWakes

/-- Without `init` nothing ever runs. -/
def OffUninited (s : PostProc) : Prop := s.inited = false → s.Settles false

theorem OffUninited.step {i : PostInput} {o : List PostEffect} (h : OffUninited s)
    (hs : s.step i = some (s', o)) : OffUninited s' := by
  intro hinit
  cases hcall : i.call with
  | none =>
    obtain ⟨hinited, hsettles⟩ := settles_iff_of_call_eq_none hs hcall
    exact (hsettles false).mpr (h (hinited ▸ hinit))
  | some call =>
    cases transition_of_step hs with
    | start env =>
      have hnot : ¬ env.Begins s := fun hbegins => by
        rw [start_of_begins hbegins] at hinit
        exact Bool.false_ne_true (hinit.symm.trans hbegins.1)
      have hout := (start_of_not_begins hnot).2
      exact hout.toWakes.settles_iff.mpr (h (hout.inited ▸ hinit))
    | stop dataMem notifyMem =>
      unfold PostProc.stop at hinit ⊢
      by_cases hs : s.inited = true
      · rw [if_pos hs] at hinit
        exact absurd (hinit.symm.trans hs) Bool.false_ne_true
      · rw [if_neg hs] at hinit ⊢
        exact h hinit
    | data | rawData | ppData | jpegEvt | cmd | encoded | raw | pp | reprocessed | notify
    | notifyOther => cases hcall

/-- **The last call decides, one step.** -/
theorem settles_step_iff {is : List PostInput} {i : PostInput} {o : List PostEffect}
    (hoff : OffUninited s) (h : s.Settles (lastCall is)) (hs : s.step i = some (s', o)) :
    s'.Settles (lastCall (is ++ [i])) ↔ InOrder s i := by
  rw [lastCall, List.foldl_concat]
  change s'.Settles (i.call.getD (lastCall is)) ↔ _
  cases hcall : i.call with
  | none =>
    refine iff_of_true (((settles_iff_of_call_eq_none hs hcall).2 _).mpr h) ?_
    cases i with
    | start | stop => cases hcall
    | _ => trivial
  | some call =>
    cases transition_of_step hs with
    | start env =>
      cases hcall
      exact settles_start_iff env
    | stop dataMem notifyMem =>
      cases hcall
      exact settles_stop_iff dataMem notifyMem hoff
    | data | rawData | ppData | jpegEvt | cmd | encoded | raw | pp | reprocessed | notify
    | notifyOther => cases hcall

end Steps

/-! ### Jobs after a stop -/

/-- Whether `stop` has returned and `start` has not been called since. -/
def afterStop (os : List PostEffect) : Bool :=
  os.foldl (fun b e => match e with
    | .stopReturned => true
    | .started => false
    | _ => b) false

/-- Jobs are sent to the encoder only while no stop has the last word. -/
def NoLateJob (os : List PostEffect) : Prop :=
  ∀ pre id post, os = pre ++ .startJob id :: post → afterStop pre = false

def PostEffect.plain : PostEffect → Bool
  | .started => false
  | .stopReturned => false
  | .startJob _ => false
  | _ => true

def Plain (o : List PostEffect) : Prop := ∀ e ∈ o, e.plain = true

section Effects

open PostProc

variable {s : PostProc} {os o o' : List PostEffect}

attribute [local simp] PostEffect.plain

theorem afterStop_append_of_plain (h : Plain o) : afterStop (os ++ o) = afterStop os := by
  induction o using List.reverseRecOn with
  | nil => rw [List.append_nil]
  | append_singleton o e ih =>
    rw [← List.append_assoc, afterStop, List.foldl_concat]
    have he := h e (by simp)
    have ho := ih fun x hx => h x (List.mem_append_left _ hx)
    cases e with
    | started | stopReturned | startJob => cases he
    | _ => exact ho

theorem NoLateJob.append (h : NoLateJob os)
    (ho : ∀ pre id post, o = pre ++ .startJob id :: post → afterStop (os ++ pre) = false) :
    NoLateJob (os ++ o) := by
  intro pre id post heq
  rcases List.append_eq_append_iff.mp heq with ⟨mid, rfl, hmid⟩ | ⟨mid, hos, hmid⟩
  · exact ho mid id post hmid
  · cases mid with
    | nil =>
      rw [List.nil_append] at hmid
      rw [List.append_nil] at hos
      exact hos ▸ (List.append_nil os ▸ ho [] id post hmid.symm)
    | cons e mid =>
      obtain ⟨rfl, rfl⟩ := List.cons.inj hmid
      exact h pre id mid hos

theorem NoLateJob.append_of_not_mem (h : NoLateJob os) (ho : ∀ id, .startJob id ∉ o) :
    NoLateJob (os ++ o) :=
  h.append fun pre id _ heq => absurd (heq ▸ List.mem_append_right pre List.mem_cons_self) (ho id)

theorem Plain.startJob_notMem (h : Plain o) (id : UInt32) : .startJob id ∉ o :=
  fun hmem => Bool.false_ne_true (h _ hmem)

@[simp] theorem plain_nil : Plain [] := fun _ h => absurd h List.not_mem_nil

@[simp] theorem plain_append : Plain (o ++ o') ↔ Plain o ∧ Plain o' := List.forall_mem_append

@[simp] theorem plain_cons (e : PostEffect) : Plain (e :: o) ↔ e.plain = true ∧ Plain o :=
  List.forall_mem_cons

@[simp] theorem plain_map_release (fs : List ℕ) : Plain (fs.map .release) := by
  intro e he
  obtain ⟨f, -, rfl⟩ := List.mem_map.mp he
  rfl

@[simp] theorem plain_map_releaseMem (ms : List ℕ) : Plain (ms.map .releaseMem) := by
  intro e he
  obtain ⟨m, -, rfl⟩ := List.mem_map.mp he
  rfl

theorem plain_flatMap {α : Type*} {g : α → List PostEffect} (hg : ∀ x, Plain (g x)) (xs : List α) :
    Plain (xs.flatMap g) := by
  intro e he
  obtain ⟨x, -, hx⟩ := List.mem_flatMap.mp he
  exact hg x e hx

@[simp] theorem plain_releaseJpegJobData (job : JpegJob) : Plain (releaseJpegJobData job) :=
  plain_map_release _

@[simp] theorem plain_releaseNotifyData (r : ReleaseData) : Plain (releaseNotifyData r) := by
  simp [releaseNotifyData]

theorem plain_sendDataNotify (r : ReleaseData) (mem : DataNotifyMem) :
    Plain (s.sendDataNotify r mem).2.2 := by
  unfold sendDataNotify
  split
  · exact plain_nil
  · dsimp only
    split
    · exact plain_nil
    · exact plain_releaseNotifyData r

theorem plain_processPPData (f : ℕ) (env : FrameEnv) : Plain (s.processPPData f env).2 := by
  unfold processPPData
  split
  · exact plain_nil
  split
  · exact plain_nil
  unfold reprocResult
  split
  · simp
  split <;> exact plain_nil

theorem plain_jpegResult (evt : JpegEvt) (env : JpegEvtEnv) : Plain (s.jpegResult evt env).2 := by
  unfold jpegResult
  split
  · exact plain_nil
  split
  · simp
  · unfold sendJpeg
    dsimp only
    rw [List.cons_append, plain_cons, plain_append]
    refine ⟨rfl, plain_sendDataNotify _ _, ?_⟩
    split <;> simp

theorem plain_processJpegEvt (evt : JpegEvt) (env : JpegEvtEnv) :
    Plain (s.processJpegEvt evt env).2 := by
  unfold processJpegEvt
  split
  · exact plain_nil
  split
  · simp
  · simp [plain_jpegResult]

theorem plain_rawStep (env : RawEnv) : Plain (s.rawStep env).2 := by
  unfold rawStep
  split
  · exact plain_nil
  · rename_i f rest hq
    refine plain_append.mpr ⟨?_, ?_⟩
    · unfold processRawImageImpl
      split
      · exact plain_nil
      split
      · exact plain_nil
      · exact plain_sendDataNotify _ _
    · split <;> simp

theorem plain_ppStep (env : PPEnv) : Plain (s.ppStep env).2 := by
  unfold ppStep
  split
  · exact plain_nil
  split <;> simp

theorem plain_reprocessed (ok : Bool) (f : ℕ) : Plain (s.reprocessed ok f).2 := by
  cases ok <;> simp [reprocessed]

theorem plain_ofNotifierEvt (e : NotifierEvt ReleaseData) : Plain (ofNotifierEvt e) := by
  cases e <;> simp [ofNotifierEvt]

theorem plain_dataProcessRoutine (node : Bool) {cmd : CmdType} (hcmd : cmd ≠ .stopDataProc) :
    Plain (s.dataProcessRoutine node cmd).2 := by
  cases cmd with
  | startDataProc | exit => exact plain_nil
  | stopDataProc => exact absurd rfl hcmd
  | doNextJob =>
    rw [dataProcessRoutine]
    split
    · exact plain_nil
    · simp [dropJobs, plain_flatMap]

/-- The return of `stop` is the last thing that happens in `STOP_DATA_PROC`. -/
theorem exists_stopDataProc : ∃ o, s.stopDataProc.2 = o ++ [.stopReturned] ∧ Plain o := by
  refine ⟨_, rfl, ?_⟩
  have habort : ∀ job : JpegJob, Plain (.abortJob job.jobId :: releaseJpegJobData job) :=
    fun job => (plain_cons _).mpr ⟨rfl, plain_releaseJpegJobData job⟩
  simp [plain_flatMap habort, plain_flatMap plain_releaseJpegJobData]

theorem plain_encodeData (env : EncodeEnv) : Plain (s.encodeData env).2.2 := by
  have hconfig : Plain (s.getJpegEncodingConfig env).2 := by
    unfold getJpegEncodingConfig
    dsimp only
    split
    · exact plain_map_releaseMem _
    split <;> simp
  unfold encodeData
  split
  · exact plain_nil
  split
  · dsimp only
    split <;> exact hconfig
  · exact plain_nil

end Effects

/-- What keeps the data thread quiet after a stop. -/
structure Quiet (os : List PostEffect) (s : PostProc) : Prop where
  /-- while a stop waits nothing starts the thread -/
  waiting : .stopDataProc ∈ s.cmds → s.stopping = true ∧ .startDataProc ∉ s.cmds
  once : s.cmds.count .stopDataProc ≤ 1
  working : s.phase ≠ .idle → s.active = true
  off : afterStop os = true → s.active = false ∧ .startDataProc ∉ s.cmds
  jobs : NoLateJob os

section Quiet

open PostProc

variable {s s' : PostProc} {os o : List PostEffect}

theorem Quiet.opened (inited : Bool) : Quiet [] (PostProc.opened inited) where
  waiting h := absurd h List.not_mem_nil
  once := Nat.zero_le 1
  working h := absurd rfl h
  off h := absurd h Bool.false_ne_true
  jobs pre id post h := absurd (congrArg List.length h) (by simp)

theorem Quiet.wakes (h : Quiet os s) (hw : Wakes s s') (hphase : s.phase = .idle → s'.phase = .idle)
    (hafter : afterStop (os ++ o) = afterStop os) (hjobs : NoLateJob (os ++ o)) :
    Quiet (os ++ o) s' := by
  obtain ⟨k, hcmds⟩ := hw.cmds
  have hmem : ∀ cmd, cmd ≠ .doNextJob → (cmd ∈ s'.cmds ↔ cmd ∈ s.cmds) := by
    intro cmd hcmd
    rw [hcmds, List.mem_append, List.mem_replicate]
    exact or_iff_left fun hrep => hcmd hrep.2
  refine ⟨?_, ?_, ?_, ?_, hjobs⟩
  · rw [hmem _ (by decide), hmem _ (by decide), hw.stopping]
    exact h.waiting
  · rw [hcmds, List.count_append, List.count_replicate]
    exact h.once
  · intro hne
    rw [hw.active]
    exact h.working (mt hphase hne)
  · rw [hafter, hw.active, hmem _ (by decide)]
    exact h.off

theorem Quiet.plain (h : Quiet os s) (hw : Wakes s s') (hphase : s.phase = .idle → s'.phase = .idle)
    (hplain : Plain o) : Quiet (os ++ o) s' :=
  h.wakes hw hphase (afterStop_append_of_plain hplain)
    (h.jobs.append_of_not_mem hplain.startJob_notMem)

theorem Quiet.outside (h : Quiet os s) (ho : Outside s s') (hplain : Plain o) :
    Quiet (os ++ o) s' :=
  h.plain ho.toWakes (fun hp => ho.phase.trans hp) hplain

theorem Quiet.afterStop_eq_false (h : Quiet os s) (hphase : s.phase ≠ .idle) :
    afterStop os = false := by
  by_contra hafter
  rw [Bool.not_eq_false] at hafter
  exact Bool.false_ne_true ((h.off hafter).1.symm.trans (h.working hphase))

theorem Quiet.encoded (h : Quiet os s) {env : EncodeEnv} {job : JpegJob} {queued : Bool}
    (hphase : s.phase = .encoding job queued) :
    Quiet (os ++ (s.encoded env job).2) (s.encoded env job).1 := by
  have hidle : s.phase ≠ .idle := by simp [hphase]
  have hes := plain_encodeData (s := s) env
  have hmark : afterStop (os ++ (s.encoded env job).2) = afterStop os ∧
      NoLateJob (os ++ (s.encoded env job).2) := by
    unfold PostProc.encoded
    split
    · rename_i id t es heq
      rw [heq] at hes
      -- the job is the last effect, and the thread is active
      refine ⟨?_, h.jobs.append fun pre id' post hpre => ?_⟩
      · rw [← List.append_assoc, afterStop, List.foldl_concat]
        exact afterStop_append_of_plain hes
      · have hprefix : Plain pre := by
          rcases List.append_eq_append_iff.mp hpre with ⟨mid, rfl, hmid⟩ | ⟨mid, rfl, -⟩
          · cases mid with
            | nil => simpa using hes
            | cons e mid =>
              have := congrArg List.length hmid
              simp at this
          · exact (plain_append.mp hes).1
        rw [afterStop_append_of_plain hprefix]
        exact h.afterStop_eq_false hidle
    · rename_i t es heq
      rw [heq] at hes
      have hplain : Plain (es ++ releaseJpegJobData job ++ [.error]) := by
        simp only [plain_append, plain_releaseJpegJobData, plain_cons, plain_nil, and_true]
        exact ⟨hes, rfl⟩
      exact ⟨afterStop_append_of_plain hplain, h.jobs.append_of_not_mem hplain.startJob_notMem⟩
  exact h.wakes (wakes_encoded env job) (fun hp => absurd hp hidle) hmark.1 hmark.2

theorem Quiet.start (h : Quiet os s) (env : StartEnv) (hwait : s.stopping = false) :
    Quiet (os ++ (s.start env).2) (s.start env).1 := by
  by_cases hbegins : env.Begins s
  · -- no stop waits
    have hstop : .stopDataProc ∉ s.cmds := fun hmem =>
      Bool.false_ne_true (hwait.symm.trans (h.waiting hmem).1)
    rw [start_of_begins hbegins]
    have hcmds : .stopDataProc ∉ (sendCmd .startDataProc false env.dataMem s.cmds).2 := by
      intro hmem
      rcases mem_sendCmd hmem with heq | hmem
      · cases heq
      · exact hstop hmem
    refine ⟨fun hmem => absurd hmem hcmds, ?_, h.working, ?_, ?_⟩
    · rw [List.count_eq_zero_of_not_mem hcmds]
      exact Nat.zero_le 1
    · rw [afterStop, List.foldl_concat]
      exact fun hfalse => absurd hfalse Bool.false_ne_true
    · exact h.jobs.append_of_not_mem (by simp)
  · obtain ⟨heffects, hout⟩ := start_of_not_begins hbegins
    rw [heffects]
    exact h.outside hout plain_nil

theorem Quiet.stop (h : Quiet os s) (hoff : OffUninited s) {dataMem notifyMem : CmdMem}
    (hwait : s.stopping = false) (hord : InOrder s (.stop dataMem notifyMem)) :
    Quiet (os ++ (s.stop dataMem notifyMem).2) (s.stop dataMem notifyMem).1 := by
  have hstop : .stopDataProc ∉ s.cmds := fun hmem =>
    Bool.false_ne_true (hwait.symm.trans (h.waiting hmem).1)
  have hjobs : ∀ o : List PostEffect, o = [] ∨ o = [.stopReturned] → NoLateJob (os ++ o) := by
    rintro o (rfl | rfl) <;> exact h.jobs.append_of_not_mem (by simp)
  unfold PostProc.stop
  by_cases hinit : s.inited = true
  · rw [if_pos hinit]
    have hdata := (hord hinit).1
    rw [settle_eq_false_iff hstop] at hdata
    dsimp only
    rw [sendCmd_eq, if_pos rfl]
    by_cases hsend : dataMem.Sends
    · -- the stop is the only one, and nothing that waits starts the thread
      rw [if_pos hsend, if_pos hsend.1, List.append_nil]
      refine ⟨fun _ => ⟨hsend.1, ?_⟩, ?_, h.working, fun hafter => ⟨(h.off hafter).1, ?_⟩, h.jobs⟩
      · simpa using hdata.2
      · rw [List.count_cons_self, List.count_eq_zero_of_not_mem hstop]
      · simpa using hdata.2
    · rw [if_neg hsend]
      rw [if_neg hsend] at hdata
      refine ⟨fun hmem => absurd hmem hstop, h.once, h.working, fun _ => hdata, ?_⟩
      apply hjobs
      split
      · exact .inl rfl
      · exact .inr rfl
  · rw [if_neg hinit]
    have hsettled := (hoff (by simpa using hinit)).1
    rw [settle_eq_false_iff hstop] at hsettled
    exact ⟨h.waiting, h.once, h.working, fun _ => hsettled, hjobs _ (.inr rfl)⟩

theorem Quiet.next (h : Quiet os s) {node : Bool} {cmd : CmdType} {cmds : List CmdType}
    (hphase : s.phase = .idle) (hcmds : s.cmds = cmd :: cmds) :
    Quiet (os ++ ((s.withCmds cmds).dataProcessRoutine node cmd).2)
      ((s.withCmds cmds).dataProcessRoutine node cmd).1 := by
  obtain ⟨hactive, hrest, -, -⟩ := dataProcessRoutine_threads (s := s.withCmds cmds) node cmd
  rw [show (s.withCmds cmds).cmds = cmds from rfl] at hrest
  have honce := h.once
  rw [hcmds] at honce
  have hstart : .startDataProc ∉ s.cmds → .startDataProc ∉ cmds := fun hnot hmem =>
    hnot (hcmds ▸ List.mem_cons_of_mem cmd hmem)
  by_cases hstop : cmd = .stopDataProc
  · subst hstop
    obtain ⟨o, ho, hplain⟩ := exists_stopDataProc (s := s.withCmds cmds)
    have hmem := h.waiting (hcmds ▸ List.mem_cons_self)
    -- the only stop has been taken
    rw [List.count_cons_self] at honce
    have hnot : .stopDataProc ∉ cmds := List.count_eq_zero.mp (by omega)
    refine ⟨fun hm => absurd hm (hrest ▸ hnot), ?_, fun hp => absurd hphase hp,
      fun _ => ⟨rfl, hrest ▸ hstart hmem.2⟩, ?_⟩
    · rw [hrest, List.count_eq_zero_of_not_mem hnot]
      exact Nat.zero_le 1
    · refine h.jobs.append_of_not_mem fun id hid => ?_
      rw [show ((s.withCmds cmds).dataProcessRoutine node .stopDataProc).2 = _ from ho] at hid
      rcases List.mem_append.mp hid with hid | hid
      · exact hplain.startJob_notMem id hid
      · simp at hid
  · have hplain := plain_dataProcessRoutine (s := s.withCmds cmds) node hstop
    have hsame : ∀ {c}, c ∈ cmds → c ∈ s.cmds := fun hm => hcmds ▸ List.mem_cons_of_mem cmd hm
    have hstopping : ((s.withCmds cmds).dataProcessRoutine node cmd).1.stopping = s.stopping := by
      cases cmd with
      | stopDataProc => exact absurd rfl hstop
      | startDataProc | exit => rfl
      | doNextJob =>
        rw [dataProcessRoutine]
        split
        · unfold nextJob
          split <;> rfl
        · rfl
    refine ⟨fun hm => ?_, ?_, fun hp => ?_, fun hafter => ?_,
      h.jobs.append_of_not_mem hplain.startJob_notMem⟩
    · rw [hrest] at hm ⊢
      rw [hstopping]
      exact ⟨(h.waiting (hsame hm)).1, hstart (h.waiting (hsame hm)).2⟩
    · rw [hrest]
      exact (List.count_le_count_cons).trans honce
    · -- only an active thread takes up a job
      rw [hactive]
      cases cmd with
      | startDataProc => rfl
      | stopDataProc => exact absurd rfl hstop
      | exit => exact absurd hphase hp
      | doNextJob =>
        rw [dataProcessRoutine] at hp
        split at hp
        · assumption
        · exact absurd hphase hp
    · rw [afterStop_append_of_plain hplain] at hafter
      have hoff := h.off hafter
      rw [hrest, hactive]
      refine ⟨?_, hstart hoff.2⟩
      cases cmd with
      | startDataProc => exact absurd (hcmds ▸ List.mem_cons_self) hoff.2
      | stopDataProc => rfl
      | doNextJob | exit => exact hoff.1

theorem Quiet.step {i : PostInput} (h : Quiet os s) (hoff : OffUninited s) (hord : InOrder s i)
    (hs : s.step i = some (s', o)) : Quiet (os ++ o) s' := by
  cases transition_of_step hs with
  | start env hwait => exact h.start env hwait
  | stop dataMem notifyMem hwait => exact h.stop hoff hwait hord
  | data f env => exact h.outside (outside_processData f env) plain_nil
  | rawData f node cmd => exact h.outside (outside_processRawData f node cmd) plain_nil
  | ppData f env => exact h.outside (outside_processPPData f env) (plain_processPPData f env)
  | jpegEvt evt env =>
    exact h.outside (outside_processJpegEvt evt env) (plain_processJpegEvt evt env)
  | cmd node hphase hcmds => exact h.next hphase hcmds
  | encoded env hphase => exact h.encoded hphase
  | raw env hphase => exact h.plain (wakes_rawStep env) (by simp [hphase]) (plain_rawStep env)
  | pp env hphase => exact h.plain (wakes_ppStep env) (by simp [hphase]) (plain_ppStep env)
  | reprocessed ok hphase =>
    exact h.plain (wakes_reprocessed ok _) (by simp [hphase]) (plain_reprocessed ok _)
  | @notify env n es hn =>
    have hplain := plain_flatMap plain_ofNotifierEvt es
    refine ⟨h.waiting, h.once, h.working, ?_, h.jobs.append_of_not_mem hplain.startJob_notMem⟩
    rw [afterStop_append_of_plain hplain]
    exact h.off
  | notifyOther cbType msgType mem => exact h.outside (outside_notifyCallback _ mem) plain_nil

/-- **The last call decides.** In runs of calls in order both threads do, once they
are drained, what the last call said, and no job is sent to the encoder between
the return of `stop` and the next `start`; and the next step keeps the threads on
the way there exactly if it is in order. -/
theorem last_command_wins {inited : Bool} {is : List PostInput}
    (hrun : Runs PostProc.step InOrder (.opened inited) is os s) :
    (s.cmds = [] → s.notifier.cmds = [] →
      s.active = lastCall is ∧ s.notifier.isSnapshotActive = lastCall is) ∧
    NoLateJob os ∧
    ∀ i s' o, s.step i = some (s', o) → (s'.Settles (lastCall (is ++ [i])) ↔ InOrder s i) := by
  have hinv : OffUninited s ∧ s.Settles (lastCall is) ∧ Quiet os s := by
    refine hrun.inv (fun is os s => OffUninited s ∧ s.Settles (lastCall is) ∧ Quiet os s)
      ⟨fun _ => ⟨rfl, rfl⟩, ⟨rfl, rfl⟩, .opened inited⟩ ?_
    rintro is os s i s' o ⟨hoff, hsettles, hquiet⟩ hord hs
    exact ⟨hoff.step hs, (settles_step_iff hoff hsettles hs).mpr hord, hquiet.step hoff hord hs⟩
  obtain ⟨hoff, hsettles, hquiet⟩ := hinv
  refine ⟨fun hcmds hnotifier => ?_, hquiet.jobs,
    fun i s' o hs => settles_step_iff hoff hsettles hs⟩
  rw [Settles, hcmds, hnotifier] at hsettles
  exact hsettles

end Quiet

/-- A picture that is stopped after its job went to the encoder. -/
def stoppedPicture : List PostInput :=
  [.start plainStart, .next true, .notify oneSnapshot, .processData 7 plainFrame, .next true,
    .encoded (plainEncode 1), .raw plainRaw, .pp ⟨true, true⟩, .stop .ample .ample, .next true,
    .notify oneSnapshot]

theorem last_command_wins_stoppedPicture : ∃ os s,
    Runs PostProc.step InOrder (.opened true) stoppedPicture os s ∧
    s.cmds = [] ∧ s.notifier.cmds = [] ∧ lastCall stoppedPicture = false ∧
    s.active = false ∧ s.notifier.isSnapshotActive = false ∧
    PostEffect.startJob 1 ∈ os ∧ NoLateJob os := by
  obtain ⟨os, s, hexec, hcmds, hnotifier, hjob⟩ : ∃ os s,
      exec PostProc.step (.opened true) stoppedPicture = some (s, os) ∧ s.cmds = [] ∧
      s.notifier.cmds = [] ∧ PostEffect.startJob 1 ∈ os := ⟨_, _, rfl, rfl, rfl, by decide⟩
  have hrun := runs_of_exec_guarded (G := InOrder) .nil hexec <| by
    refine ⟨⟨fun h => absurd ⟨rfl, rfl⟩ h, rfl⟩, ?_⟩; rintro _ ⟨⟩
    iterate 7 (refine ⟨trivial, ?_⟩; rintro _ ⟨⟩)
    refine ⟨fun _ => ⟨rfl, rfl⟩, ?_⟩; rintro _ ⟨⟩
    exact ⟨trivial, fun _ _ => ⟨trivial, fun _ _ => trivial⟩⟩
  obtain ⟨hdrained, hjobs, -⟩ := last_command_wins hrun
  obtain ⟨hactive, hsnapshot⟩ := hdrained hcmds hnotifier
  exact ⟨os, s, hrun, hcmds, hnotifier, rfl, hactive, hsnapshot, hjob, hjobs⟩

/-- `stop` right after `start`: both threads take the stop first and end active,
and the next frame is sent to the encoder. -/
def hastyStop : List PostInput :=
  [.start plainStart, .stop .ample .ample, .next true, .next true, .notify oneSnapshot,
    .notify oneSnapshot]

theorem start_overtaken_by_stop :
    (∃ os s, Runs PostProc.step (fun _ _ => True) (.opened true) hastyStop os s ∧
      s.cmds = [] ∧ s.notifier.cmds = [] ∧ lastCall hastyStop = false ∧
      s.active = true ∧ s.notifier.isSnapshotActive = true) ∧
    ∃ s, Runs PostProc.step (fun _ _ => True) (.opened true)
        (hastyStop ++ [.processData 7 plainFrame, .next true, .encoded (plainEncode 1)])
        [.started, .stopReturned, .notifier .stop, .notifier (.start 1), .getMemory 0, .startJob 1]
        s ∧
      ¬ NoLateJob
        [.started, .stopReturned, .notifier .stop, .notifier (.start 1), .getMemory 0,
          .startJob 1] := by
  refine ⟨⟨_, _, runs_of_exec rfl, rfl, rfl, rfl, rfl, rfl⟩, _, runs_of_exec rfl, ?_⟩
  intro hjobs
  exact Bool.false_ne_true (hjobs
    [.started, .stopReturned, .notifier .stop, .notifier (.start 1), .getMemory 0] 1 [] rfl).symm

end Qcamera

/-
Whose completion is it?  Jpeg events and the end of a snapshot.

The state machine takes API calls before events, so an event can wait while
pictures are cancelled and new ones taken.

* `CaptureSystem` — the state machine with its two queues, the post-processor,
  and the encoder with the jobs it works on; `sessions` counts the pictures begun;
* `Tracked` — the jobs of the encoder and of the events that wait are the ongoing
  job, and the snapshots whose end waits are those of the last picture;
* `completions_stay` — in runs where no completion is overtaken (`Timely`) an
  event completes its own job, and the end of a snapshot its own picture.

Calls of `start` and `stop` come from the handlers of the state machine; here they
may come at any time the machine does not wait for `stop`.
-/
import HdxCommon.PostProcOwnership
import HdxCommon.StateMachine

namespace Qcamera

/-! ### The system -/

/-- What waits in `evt_queue`. -/
inductive SmNode where
  | jpeg (evt : JpegEvt)
  /-- `SNAPSHOT_DONE`, raised when so many pictures had begun -/
  | done (raised : ℕ)
  | other (c : Call)

inductive Completion where
  /-- the event of a job completed the job of an owner -/
  | job (id : UInt32) (owner : Option UInt32)
  /-- `SNAPSHOT_DONE` ended a picture: the pictures begun when it was raised, and
  those begun now -/
  | ended (raised begun : ℕ)
  deriving DecidableEq, Repr

structure CaptureSystem where
  machine : Machine
  post : PostProc
  apiQueue : List Call
  evtQueue : List SmNode
  sessions : ℕ
  /-- the jobs the encoder works on -/
  encoder : List UInt32
  /-- the id that `start_job` has given and not yet returned -/
  handed : Option UInt32
  /-- the ids given so far -/
  given : List UInt32

inductive CaptureInput where
  /-- an API call is queued -/
  | api (c : Call)
  /-- an event that is no completion is queued -/
  | raise (c : Call)
  /-- the state machine takes a call, or else an event -/
  | take (o : Outcomes) (env : JpegEvtEnv)
  | post (i : PostInput)
  /-- the encoder accepts a job -/
  | handOver (id : UInt32)
  /-- the encoder has finished a job -/
  | complete (id : UInt32) (ok : Bool)

def SmState.takesPicture : SmState → Bool
  | .picTaking | .videoPicTaking | .previewPicTaking => true
  | _ => false

def Machine.BeginsPicture (m : Machine) (c : Call) : Prop :=
  c.evt = .takePicture ∧ m.state.takesPicture = false ∧
    (m.stateMachine c).1.state.takesPicture = true

instance (m : Machine) (c : Call) : Decidable (m.BeginsPicture c) :=
  inferInstanceAs (Decidable (_ ∧ _))

/-- The data thread is in `encodeData`. -/
def Phase.isEncoding : Phase → Bool
  | .encoding _ _ => true
  | _ => false

/-- The jobs whose events wait. -/
def waitingJobs (q : List SmNode) : List UInt32 :=
  q.filterMap fun n => match n with
    | .jpeg evt => some evt.jobId
    | _ => none

/-- When the `SNAPSHOT_DONE` that wait were raised. -/
def waitingDone (q : List SmNode) : List ℕ :=
  q.filterMap fun n => match n with
    | .done raised => some raised
    | _ => none

/-- `SNAPSHOT_DONE` raised by the notifier. -/
def raisedDone (sessions : ℕ) (o : List PostEffect) : List SmNode :=
  o.filterMap fun e => match e with
    | .notifier .snapshotDone => some (.done sessions)
    | _ => none

def abortedJobs (o : List PostEffect) : List UInt32 :=
  o.filterMap fun e => match e with
    | .abortJob id => some id
    | _ => none

def completedJobs (owner : Option UInt32) (o : List PostEffect) : List Completion :=
  o.filterMap fun e => match e with
    | .jobDone id _ => some (.job id owner)
    | _ => none

namespace CaptureSystem

/-- The id the encoder gave to the ongoing job; the job knows it only when
`start_job` has returned. -/
def owner (sys : CaptureSystem) : Option UInt32 :=
  match sys.post.ongoingJpegQ with
  | [] => none
  | job :: _ => if sys.post.phase.isEncoding then sys.handed else some job.jobId

def withMachine (sys : CaptureSystem) (m : Machine) : CaptureSystem := { sys with machine := m }

def withEvtQueue (sys : CaptureSystem) (q : List SmNode) : CaptureSystem :=
  { sys with evtQueue := q }

def takeApi (c : Call) (rest : List Call) (sys : CaptureSystem) : CaptureSystem :=
  { sys with
    machine := (sys.machine.stateMachine c).1
    apiQueue := rest
    sessions := if sys.machine.BeginsPicture c then sys.sessions + 1 else sys.sessions }

/-- A jpeg event reaches the post-processor while a picture is taken. -/
def takeJpeg (evt : JpegEvt) (env : JpegEvtEnv) (sys : CaptureSystem) :
    CaptureSystem × List Completion :=
  if sys.machine.state.takesPicture then
    ({ sys with post := (sys.post.processJpegEvt evt env).1 },
      completedJobs sys.owner (sys.post.processJpegEvt evt env).2)
  else (sys, [])

def takeDone (raised : ℕ) (o : Outcomes) (sys : CaptureSystem) :
    CaptureSystem × List Completion :=
  (sys.withMachine (sys.machine.stateMachine (plainCall .snapshotDone o)).1,
    if sys.machine.state.takesPicture then [.ended raised sys.sessions] else [])

def takeNode (node : SmNode) (o : Outcomes) (env : JpegEvtEnv) (sys : CaptureSystem) :
    CaptureSystem × List Completion :=
  match node with
  | .jpeg evt => sys.takeJpeg evt env
  | .done raised => sys.takeDone raised o
  | .other c => (sys.withMachine (sys.machine.stateMachine c).1, [])

/-- A step of the post-processor: what it raises is queued, and what it aborts
leaves the encoder. -/
def stepPost (p : PostProc) (o : List PostEffect) (handed : Option UInt32) (sys : CaptureSystem) :
    CaptureSystem :=
  { sys with
    post := p
    evtQueue := sys.evtQueue ++ raisedDone sys.sessions o
    encoder := sys.encoder.filter fun id => !(abortedJobs o).contains id
    handed := handed }

def step (sys : CaptureSystem) : CaptureInput → Option (CaptureSystem × List Completion)
  | .api c => if c.evt.isApi then some ({ sys with apiQueue := sys.apiQueue ++ [c] }, []) else none
  | .raise c =>
    if c.evt.isApi || c.evt == .jpegEvtNotify || c.evt == .snapshotDone then none
    else some (sys.withEvtQueue (sys.evtQueue ++ [.other c]), [])
  | .take o env =>
    if sys.post.stopping then none
    else
      match sys.apiQueue, sys.evtQueue with
      | c :: rest, _ => some (sys.takeApi c rest, [])
      | [], node :: rest => some ((sys.withEvtQueue rest).takeNode node o env)
      | [], [] => none
  -- jpeg events come through the state machine
  | .post (.processJpegEvt _ _) => none
  | .post (.encoded env) => do
    let (p, o) ← sys.post.step (.encoded env)
    -- `start_job` returns the id it has given
    if (sys.post.encodeData env).1 = sys.handed then return (sys.stepPost p o none, []) else none
  | .post i => do
    let (p, o) ← sys.post.step i
    return (sys.stepPost p o sys.handed, [])
  | .handOver id =>
    -- ids are distinct and not zero
    if sys.post.phase.isEncoding ∧ sys.handed = none ∧ id ≠ 0 ∧ id ∉ sys.given then
      some ({ sys with
        encoder := sys.encoder ++ [id]
        handed := some id
        given := sys.given ++ [id] }, [])
    else none
  | .complete id ok =>
    if id ∈ sys.encoder then
      some ({ sys with
        encoder := sys.encoder.erase id
        evtQueue := sys.evtQueue ++ [.jpeg ⟨id, ok⟩] }, [])
    else none

def opened (p : Params) : CaptureSystem :=
  ⟨Machine.opened p true, .opened true, [], [], 0, [], none, []⟩

end CaptureSystem

/-- No completion is overtaken: a picture begins when no `SNAPSHOT_DONE` waits, a
stop is taken when no jpeg event waits, and a job that goes to the encoder can be
kept as ongoing. -/
def Timely (sys : CaptureSystem) : CaptureInput → Prop
  | .take _ _ =>
    ∀ c ∈ sys.apiQueue.head?, sys.machine.BeginsPicture c → waitingDone sys.evtQueue = []
  | .post (.next node) =>
    node = true ∧
      (sys.post.cmds.head? = some .stopDataProc → waitingJobs sys.evtQueue = [])
  | _ => True

instance (sys : CaptureSystem) : (i : CaptureInput) → Decidable (Timely sys i)
  | .take _ _ => inferInstanceAs (Decidable (∀ _ ∈ _, _))
  | .post (.next _) => inferInstanceAs (Decidable (_ ∧ _))
  | .api _ | .raise _ | .handOver _ | .complete _ _ => .isTrue trivial
  | .post (.start _) | .post (.stop _ _) | .post (.processData _ _) | .post (.processRawData _ _ _)
  | .post (.processPPData _ _) | .post (.processJpegEvt _ _) | .post (.encoded _) | .post (.raw _)
  | .post (.pp _) | .post (.reprocessed _) | .post (.notify _)
  | .post (.notifyOther _ _ _) => .isTrue trivial

/-! ### The steps one by one -/

def PostInput.isPlain : PostInput → Bool
  | .processJpegEvt _ _ => false
  | .encoded _ => false
  | _ => true

/-- A step of the system with what it finds and what it leaves behind. -/
inductive CaptureTransition (sys : CaptureSystem) :
    CaptureInput → List Completion → CaptureSystem → Prop
  | api (c : Call) :
      CaptureTransition sys (.api c) [] { sys with apiQueue := sys.apiQueue ++ [c] }
  | raise (c : Call) :
      CaptureTransition sys (.raise c) [] (sys.withEvtQueue (sys.evtQueue ++ [.other c]))
  | takeApi (o : Outcomes) (env : JpegEvtEnv) {c : Call} {rest : List Call}
      (hq : sys.apiQueue = c :: rest) :
      CaptureTransition sys (.take o env) [] (sys.takeApi c rest)
  | takeNode (o : Outcomes) (env : JpegEvtEnv) {node : SmNode} {rest : List SmNode}
      (hq : sys.evtQueue = node :: rest) :
      CaptureTransition sys (.take o env) ((sys.withEvtQueue rest).takeNode node o env).2
        ((sys.withEvtQueue rest).takeNode node o env).1
  | post {i : PostInput} {p : PostProc} {o : List PostEffect} (hi : i.isPlain = true)
      (hs : sys.post.step i = some (p, o)) :
      CaptureTransition sys (.post i) [] (sys.stepPost p o sys.handed)
  | encoded (env : EncodeEnv) {p : PostProc} {o : List PostEffect}
      (hs : sys.post.step (.encoded env) = some (p, o))
      (hid : (sys.post.encodeData env).1 = sys.handed) :
      CaptureTransition sys (.post (.encoded env)) [] (sys.stepPost p o none)
  | handOver (id : UInt32) (hphase : sys.post.phase.isEncoding = true)
      (hnone : sys.handed = none) (hne : id ≠ 0) :
      CaptureTransition sys (.handOver id) []
        { sys with
          encoder := sys.encoder ++ [id]
          handed := some id
          given := sys.given ++ [id] }
  | complete (id : UInt32) (ok : Bool) (hid : id ∈ sys.encoder) :
      CaptureTransition sys (.complete id ok) []
        { sys with
          encoder := sys.encoder.erase id
          evtQueue := sys.evtQueue ++ [.jpeg ⟨id, ok⟩] }

theorem CaptureSystem.transition_of_step {sys sys' : CaptureSystem} {i : CaptureInput}
    {o : List Completion} (hs : sys.step i = some (sys', o)) : CaptureTransition sys i o sys' := by
  have hpair : ∀ {r : CaptureSystem × List Completion}, some r = some (sys', o) →
      CaptureTransition sys i r.2 r.1 → CaptureTransition sys i o sys' := by
    rintro r hr ht
    cases hr
    exact ht
  cases i with
  | api c =>
    simp only [step] at hs
    split at hs
    · exact hpair hs (.api c)
    · cases hs
  | raise c =>
    simp only [step] at hs
    split at hs
    · cases hs
    · exact hpair hs (.raise c)
  | take out env =>
    simp only [step] at hs
    split at hs
    · cases hs
    split at hs
    · rename_i c rest hq
      exact hpair hs (.takeApi out env hq)
    · rename_i node rest hapi hq
      exact hpair hs (.takeNode out env hq)
    · cases hs
  | handOver id =>
    simp only [step] at hs
    split at hs
    · rename_i h
      exact hpair hs (.handOver id h.1 h.2.1 h.2.2.1)
    · cases hs
  | complete id ok =>
    simp only [step] at hs
    split at hs
    · rename_i h
      exact hpair hs (.complete id ok h)
    · cases hs
  | post i =>
    cases i with
    | processJpegEvt evt env => cases hs
    | encoded env =>
      simp only [step, Option.bind_eq_bind, Option.bind_eq_some_iff, Prod.exists] at hs
      obtain ⟨p, es, hstep, hs⟩ := hs
      split at hs
      · rename_i hid
        exact hpair hs (.encoded env hstep hid)
      · cases hs
    | _ =>
      simp only [step, Option.bind_eq_bind, Option.bind_eq_some_iff, Prod.exists] at hs
      obtain ⟨p, es, hstep, hs⟩ := hs
      exact hpair hs (.post rfl hstep)

/-! ### The ongoing job -/

/-- The ongoing job, and whether it is being handed over, are as before. -/
structure SameJob (s s' : PostProc) : Prop where
  inited : s'.inited = s.inited
  ongoing : s'.ongoingJpegQ = s.ongoingJpegQ
  encoding : s'.phase.isEncoding = s.phase.isEncoding

section SameJob

open PostProc

variable {s s' s'' : PostProc}

theorem SameJob.trans (h : SameJob s s') (h' : SameJob s' s'') : SameJob s s'' :=
  ⟨h'.inited.trans h.inited, h'.ongoing.trans h.ongoing, h'.encoding.trans h.encoding⟩

theorem sameJob_processRawData (f : ℕ) (node : Bool) (cmd : CmdMem) :
    SameJob s (s.processRawData f node cmd) := by
  unfold processRawData
  split <;> exact ⟨rfl, rfl, rfl⟩

theorem sameJob_processData (f : ℕ) (env : FrameEnv) : SameJob s (s.processData f env) := by
  unfold processData
  split
  · exact ⟨rfl, rfl, rfl⟩
  split
  · exact ⟨rfl, rfl, rfl⟩
  split
  · exact (sameJob_processRawData f env.node env.rawCmd).trans ⟨rfl, rfl, rfl⟩
  split <;> exact ⟨rfl, rfl, rfl⟩

theorem sameJob_processPPData (f : ℕ) (env : FrameEnv) : SameJob s (s.processPPData f env).1 := by
  unfold processPPData
  split
  · exact ⟨rfl, rfl, rfl⟩
  split
  · exact ⟨rfl, rfl, rfl⟩
  · rename_i src ongoing hq
    have hsrc : SameJob s (s.withOngoingPPQ ongoing) := ⟨rfl, rfl, rfl⟩
    unfold reprocResult
    split
    · exact hsrc.trans (sameJob_processRawData f env.node env.cmd)
    split <;> exact ⟨rfl, rfl, rfl⟩

theorem sameJob_start (env : StartEnv) : SameJob s (s.start env).1 := by
  unfold start
  split
  · exact ⟨rfl, rfl, rfl⟩
  split <;> exact ⟨rfl, rfl, rfl⟩

theorem sameJob_stop (dataMem notifyMem : CmdMem) : SameJob s (s.stop dataMem notifyMem).1 := by
  unfold stop
  split <;> exact ⟨rfl, rfl, rfl⟩

theorem sameJob_rawStep (env : RawEnv) (hphase : s.phase = .raw) : SameJob s (s.rawStep env).1 := by
  have hraw : s.phase.isEncoding = false := by rw [hphase]; rfl
  unfold rawStep
  cases s.inputRawQ with
  | nil => exact ⟨rfl, rfl, hraw.symm⟩
  | cons f rest =>
    obtain ⟨b, n, heq⟩ := exists_processRawImageImpl (s := s.withInputRawQ rest) f env
    dsimp only
    rw [heq]
    exact ⟨rfl, rfl, hraw.symm⟩

theorem sameJob_ppStep (env : PPEnv) (hphase : s.phase = .pp) : SameJob s (s.ppStep env).1 := by
  have hpp : s.phase.isEncoding = false := by rw [hphase]; rfl
  unfold ppStep
  split
  · exact ⟨rfl, rfl, hpp.symm⟩
  split <;> exact ⟨rfl, rfl, hpp.symm⟩

theorem sameJob_reprocessed (ok : Bool) {f : ℕ} {queued : Bool}
    (hphase : s.phase = .reprocessing f queued) : SameJob s (s.reprocessed ok f).1 := by
  have hrep : s.phase.isEncoding = false := by rw [hphase]; rfl
  cases ok <;> exact ⟨rfl, rfl, hrep.symm⟩

theorem sameJob_of_isPlain {i : PostInput} {o : List PostEffect} (hi : i.isPlain = true)
    (hnext : ∀ node, i ≠ .next node) (hs : s.step i = some (s', o)) : SameJob s s' := by
  cases transition_of_step hs with
  | start env => exact sameJob_start env
  | stop dataMem notifyMem => exact sameJob_stop dataMem notifyMem
  | data f env => exact sameJob_processData f env
  | rawData f node cmd => exact sameJob_processRawData f node cmd
  | ppData f env => exact sameJob_processPPData f env
  | jpegEvt | encoded => cases hi
  | cmd node => exact absurd rfl (hnext node)
  | raw env hphase => exact sameJob_rawStep env hphase
  | pp env hphase => exact sameJob_ppStep env hphase
  | reprocessed ok hphase => exact sameJob_reprocessed ok hphase
  | notify | notifyOther => exact ⟨rfl, rfl, rfl⟩

end SameJob

/-! ### Completions belong to the ongoing job and the last picture -/

def CaptureSystem.openJobs (sys : CaptureSystem) : List UInt32 :=
  sys.encoder ++ waitingJobs sys.evtQueue

structure Tracked (sys : CaptureSystem) : Prop where
  wf : sys.post.Wf
  inited : sys.post.inited = true
  owned : ∀ id ∈ sys.openJobs, sys.owner = some id ∧ id ≠ 0
  once : sys.openJobs.length ≤ 1
  /-- an id that has not been returned belongs to the job being encoded -/
  handed : sys.handed ≠ none → sys.post.phase.isEncoding = true
  kept : sys.post.phase.isEncoding = true → sys.handed = none → sys.post.ongoingJpegQ ≠ []
  raised : ∀ n ∈ waitingDone sys.evtQueue, n = sys.sessions

/-- A completion of the system concerns what it was raised for. -/
def Completion.Own : Completion → Prop
  | .job id owner => owner = some id
  | .ended raised begun => begun ≤ raised

section Tracked

open CaptureSystem

variable {sys sys' : CaptureSystem} {p : PostProc} {o : List PostEffect}

theorem Tracked.opened (params : Params) : Tracked (CaptureSystem.opened params) where
  wf := .opened true
  inited := rfl
  owned _ h := absurd h List.not_mem_nil
  once := Nat.zero_le 1
  handed h := absurd rfl h
  kept h := absurd h Bool.false_ne_true
  raised _ h := absurd h List.not_mem_nil

@[simp] theorem waitingJobs_append (q q' : List SmNode) :
    waitingJobs (q ++ q') = waitingJobs q ++ waitingJobs q' := List.filterMap_append ..

@[simp] theorem waitingJobs_raisedDone (n : ℕ) (o : List PostEffect) :
    waitingJobs (raisedDone n o) = [] := by
  rw [waitingJobs, List.filterMap_eq_nil_iff]
  intro x hx
  obtain ⟨e, -, he⟩ := List.mem_filterMap.mp hx
  split at he
  · cases he
    rfl
  · cases he

@[simp] theorem waitingDone_append (q q' : List SmNode) :
    waitingDone (q ++ q') = waitingDone q ++ waitingDone q' := List.filterMap_append ..

theorem mem_waitingDone_raisedDone {n m : ℕ} (h : m ∈ waitingDone (raisedDone n o)) : m = n := by
  obtain ⟨x, hx, hm⟩ := List.mem_filterMap.mp h
  obtain ⟨e, -, he⟩ := List.mem_filterMap.mp hx
  split at he
  · cases he
    exact (Option.some.inj hm).symm
  · cases he

theorem openJobs_stepPost (h : Option UInt32) :
    (sys.stepPost p o h).openJobs.Sublist sys.openJobs := by
  rw [openJobs, openJobs, stepPost, waitingJobs_append, waitingJobs_raisedDone, List.append_nil]
  exact List.filter_sublist.append (List.Sublist.refl _)

theorem Tracked.raised_stepPost (h : Tracked sys) (handed : Option UInt32) (n : ℕ)
    (hn : n ∈ waitingDone (sys.stepPost p o handed).evtQueue) : n = sys.sessions := by
  rw [stepPost, waitingDone_append, List.mem_append] at hn
  rcases hn with hn | hn
  · exact h.raised n hn
  · exact mem_waitingDone_raisedDone hn

theorem owner_stepPost (hsame : SameJob sys.post p) :
    (sys.stepPost p o sys.handed).owner = sys.owner := by
  simp only [owner, stepPost, hsame.ongoing, hsame.encoding]

theorem Tracked.samePost (h : Tracked sys) (hwf : p.Wf) (hsame : SameJob sys.post p) :
    Tracked (sys.stepPost p o sys.handed) where
  wf := hwf
  inited := hsame.inited.trans h.inited
  owned id hid := by
    rw [owner_stepPost hsame]
    exact h.owned id ((openJobs_stepPost _).mem hid)
  once := (openJobs_stepPost _).length_le.trans h.once
  handed hne := by
    rw [show (sys.stepPost p o sys.handed).post = p from rfl, hsame.encoding]
    exact h.handed hne
  kept := by
    rw [show (sys.stepPost p o sys.handed).post = p from rfl, hsame.encoding, hsame.ongoing]
    exact h.kept
  raised n hn := h.raised_stepPost _ n hn

theorem Tracked.openJobs_eq_nil (h : Tracked sys) (howner : sys.owner = none) :
    sys.openJobs = [] := by
  rw [List.eq_nil_iff_forall_not_mem]
  intro id hid
  cases howner.symm.trans (h.owned id hid).1

theorem owner_of_nil (hon : sys.post.ongoingJpegQ = []) : sys.owner = none := by
  rw [owner, hon]

theorem Tracked.of_openJobs_eq_nil {handed : Option UInt32} (h : Tracked sys)
    (hnil : (sys.stepPost p o handed).openJobs = []) (hwf : p.Wf) (hinited : p.inited = true)
    (hhanded : handed ≠ none → p.phase.isEncoding = true)
    (hkept : p.phase.isEncoding = true → handed = none → p.ongoingJpegQ ≠ []) :
    Tracked (sys.stepPost p o handed) where
  wf := hwf
  inited := hinited
  owned id hid := absurd (hnil ▸ hid) List.not_mem_nil
  once := by
    rw [hnil]
    exact Nat.zero_le 1
  handed := hhanded
  kept := hkept
  raised n hn := h.raised_stepPost _ n hn

theorem Tracked.handed_eq_none (h : Tracked sys) (hphase : sys.post.phase = .idle) :
    sys.handed = none := by
  by_contra hne
  have henc := h.handed hne
  rw [hphase] at henc
  cases henc

theorem mem_abortedJobs_stopDataProc {s : PostProc} {job : JpegJob} (hjob : job ∈ s.ongoingJpegQ) :
    job.jobId ∈ abortedJobs s.stopDataProc.2 := by
  refine List.mem_filterMap.mpr ⟨.abortJob job.jobId, ?_, rfl⟩
  simp only [PostProc.stopDataProc, List.mem_append, List.mem_flatMap]
  exact .inl (.inl (.inl (.inl (.inl (.inl ⟨job, hjob, List.mem_cons_self⟩)))))

theorem Tracked.openJobs_stopDataProc (h : Tracked sys) (hphase : sys.post.phase = .idle)
    (hwait : waitingJobs sys.evtQueue = []) {cmds : List CmdType} :
    (sys.stepPost p (sys.post.withCmds cmds).stopDataProc.2 sys.handed).openJobs = [] := by
  rw [List.eq_nil_iff_forall_not_mem]
  intro id hid
  rw [openJobs, stepPost, waitingJobs_append, hwait, waitingJobs_raisedDone, List.append_nil,
    List.append_nil, List.mem_filter] at hid
  have howner := (h.owned id (List.mem_append_left _ hid.1)).1
  rw [owner, hphase] at howner
  cases hon : sys.post.ongoingJpegQ with
  | nil =>
    rw [hon] at howner
    cases howner
  | cons job rest =>
    rw [hon] at howner
    cases howner
    have hjob : job ∈ (sys.post.withCmds cmds).ongoingJpegQ := hon ▸ List.mem_cons_self
    have hmem := mem_abortedJobs_stopDataProc hjob
    simp [hmem] at hid

theorem Tracked.next (h : Tracked sys) {node : Bool}
    (hs : sys.post.step (.next node) = some (p, o)) (htimely : Timely sys (.post (.next node))) :
    Tracked (sys.stepPost p o sys.handed) := by
  have hwf := h.wf.step hs
  obtain ⟨hnode, hstop⟩ := htimely
  cases PostProc.transition_of_step hs with
  | @cmd node cmd cmds hphase hcmds =>
    have hnone := h.handed_eq_none hphase
    have hidle : sys.post.phase.isEncoding = false := by rw [hphase]; rfl
    cases cmd with
    | startDataProc | exit => exact h.samePost hwf ⟨rfl, rfl, rfl⟩
    | stopDataProc =>
      refine h.of_openJobs_eq_nil ?_ hwf h.inited (absurd hnone) fun henc => ?_
      · exact h.openJobs_stopDataProc hphase (hstop (by rw [hcmds]; rfl))
      · exact absurd (hidle.symm.trans henc) Bool.false_ne_true
    | doNextJob =>
      rw [PostProc.dataProcessRoutine] at hwf ⊢
      by_cases hactive : (sys.post.withCmds cmds).active = true
      · rw [if_pos hactive] at hwf ⊢
        unfold PostProc.nextJob at hwf ⊢
        split at hwf
        · rename_i job rest hon hin
          -- the queue of ongoing jobs was empty
          have hnil := h.openJobs_eq_nil (owner_of_nil hon)
          refine h.of_openJobs_eq_nil ?_ hwf h.inited (absurd hnone) fun _ _ => ?_
          · exact List.sublist_nil.mp (hnil ▸ openJobs_stepPost _)
          · rw [hnode]
            exact List.cons_ne_nil job []
        · exact h.samePost hwf ⟨rfl, rfl, hidle.symm⟩
      · rw [if_neg hactive] at hwf ⊢
        exact h.samePost hwf ⟨rfl, rfl, rfl⟩

theorem Tracked.encoded (h : Tracked sys) {env : EncodeEnv}
    (hs : sys.post.step (.encoded env) = some (p, o))
    (hid : (sys.post.encodeData env).1 = sys.handed) : Tracked (sys.stepPost p o none) := by
  have hwf := h.wf.step hs
  obtain ⟨b, m, k, hstate, -⟩ := encodeData_spec (s := sys.post) env
  cases PostProc.transition_of_step hs with
  | @encoded env job queued hphase =>
    have henc : sys.post.phase.isEncoding = true := by rw [hphase]; rfl
    cases hcall : sys.post.encodeData env with
    | mk id r =>
      obtain ⟨s₁, es⟩ := r
      rw [hcall] at hstate hid
      simp only at hstate hid
      subst hstate
      rw [PostProc.encoded, hcall] at hwf ⊢
      cases id with
      | none =>
        -- the encoder has no job
        have hnone : sys.owner = none := by
          rw [owner]
          cases sys.post.ongoingJpegQ with
          | nil => rfl
          | cons => exact (if_pos henc).trans hid.symm
        refine h.of_openJobs_eq_nil ?_ hwf h.inited (absurd rfl) fun hraw =>
          absurd hraw Bool.false_ne_true
        exact List.sublist_nil.mp (h.openJobs_eq_nil hnone ▸ openJobs_stepPost _)
      | some id =>
        refine ⟨hwf, h.inited, fun id' hid' => ?_, ?_, absurd rfl,
          fun hraw => absurd hraw Bool.false_ne_true, fun n hn => h.raised_stepPost _ n hn⟩
        · obtain ⟨howner, hne⟩ := h.owned id' ((openJobs_stepPost _).mem hid')
          refine ⟨?_, hne⟩
          -- the ongoing job gets the id it was given
          rw [owner] at howner ⊢
          cases hon : sys.post.ongoingJpegQ with
          | nil =>
            rw [hon] at howner
            cases howner
          | cons job' rest =>
            rw [hon] at howner
            have hgiven : some id = some id' := hid.trans ((if_pos henc).symm.trans howner)
            simpa [stepPost, hon, Phase.isEncoding] using hgiven
        · exact (openJobs_stepPost _).length_le.trans h.once

theorem Tracked.handOver (h : Tracked sys) {id : UInt32}
    (hphase : sys.post.phase.isEncoding = true) (hnone : sys.handed = none) (hne : id ≠ 0) :
    Tracked { sys with
      encoder := sys.encoder ++ [id]
      handed := some id
      given := sys.given ++ [id] } := by
  have hon := h.kept hphase hnone
  obtain ⟨job, rest, hcons⟩ := List.exists_cons_of_ne_nil hon
  have howner : sys.owner = none := by
    rw [owner, hcons]
    exact (if_pos hphase).trans hnone
  -- nothing was open, and now the new job is
  obtain ⟨henc, hwait⟩ := List.append_eq_nil_iff.mp (h.openJobs_eq_nil howner)
  refine ⟨h.wf, h.inited, fun id' hid' => ?_, ?_, fun _ => hphase,
    fun _ hfalse => absurd hfalse (Option.some_ne_none id), h.raised⟩
  · rw [openJobs, henc, hwait] at hid'
    obtain rfl := List.mem_singleton.mp hid'
    refine ⟨?_, hne⟩
    rw [owner, hcons]
    exact if_pos hphase
  · rw [openJobs, henc, hwait]
    exact Nat.le_refl 1

theorem Tracked.queues (h : Tracked sys) (hpost : sys'.post = sys.post)
    (hhanded : sys'.handed = sys.handed) (hopen : sys'.openJobs.Subperm sys.openJobs)
    (hraised : ∀ n ∈ waitingDone sys'.evtQueue, n = sys'.sessions) : Tracked sys' := by
  have howner : sys'.owner = sys.owner := by rw [owner, owner, hpost, hhanded]
  refine ⟨?_, ?_, fun id hid => ?_, hopen.length_le.trans h.once, ?_, ?_, hraised⟩
  · rw [hpost]
    exact h.wf
  · rw [hpost]
    exact h.inited
  · rw [howner]
    exact h.owned id (hopen.subset hid)
  · rw [hpost, hhanded]
    exact h.handed
  · rw [hpost, hhanded]
    exact h.kept

theorem Tracked.complete (h : Tracked sys) {id : UInt32} {ok : Bool} (hid : id ∈ sys.encoder) :
    Tracked { sys with
      encoder := sys.encoder.erase id
      evtQueue := sys.evtQueue ++ [.jpeg ⟨id, ok⟩] } := by
  refine h.queues rfl rfl ?_ fun n hn => ?_
  · -- the job goes from the encoder to its event
    have hperm : (sys.encoder.erase id ++ (waitingJobs sys.evtQueue ++ [id])).Perm
        (sys.encoder ++ waitingJobs sys.evtQueue) := by
      rw [← List.append_assoc]
      refine List.perm_append_singleton id _ |>.trans ?_
      rw [← List.cons_append]
      exact (List.perm_cons_erase hid).symm.append_right _
    rw [openJobs, waitingJobs_append]
    exact hperm.subperm
  · rw [waitingDone_append, show waitingDone [.jpeg ⟨id, ok⟩] = [] from rfl, List.append_nil] at hn
    exact h.raised n hn

theorem Tracked.takeApi (h : Tracked sys) {c : Call} {rest : List Call}
    (htimely : sys.machine.BeginsPicture c → waitingDone sys.evtQueue = []) :
    Tracked (sys.takeApi c rest) := by
  refine h.queues rfl rfl (List.Subperm.refl _) fun n hn => ?_
  by_cases hbegins : sys.machine.BeginsPicture c
  · exact absurd (htimely hbegins ▸ hn) List.not_mem_nil
  · rw [CaptureSystem.takeApi, if_neg hbegins]
    exact h.raised n hn

theorem Tracked.jpeg_taken (h : Tracked sys) {evt : JpegEvt} {rest : List SmNode}
    (hq : sys.evtQueue = .jpeg evt :: rest) :
    (sys.withEvtQueue rest).openJobs = [] ∧ sys.owner = some evt.jobId ∧ evt.jobId ≠ 0 := by
  have hwait : waitingJobs sys.evtQueue = evt.jobId :: waitingJobs rest := by rw [hq]; rfl
  have honce := h.once
  rw [openJobs, hwait, List.length_append, List.length_cons] at honce
  refine ⟨List.length_eq_zero_iff.mp ?_, h.owned evt.jobId ?_⟩
  · rw [openJobs, List.length_append]
    change sys.encoder.length + (waitingJobs rest).length = 0
    omega
  · rw [openJobs, hwait]
    exact List.mem_append_right _ List.mem_cons_self

theorem Tracked.takeJpeg (h : Tracked sys) {evt : JpegEvt} {env : JpegEvtEnv} {rest : List SmNode}
    (hq : sys.evtQueue = .jpeg evt :: rest) :
    Tracked ((sys.withEvtQueue rest).takeJpeg evt env).1 := by
  obtain ⟨hnil, howner, -⟩ := h.jpeg_taken hq
  have hraised : ∀ n ∈ waitingDone rest, n = sys.sessions := fun n hn =>
    h.raised n (hq ▸ ((List.sublist_cons_self _ rest).filterMap _).mem hn)
  unfold CaptureSystem.takeJpeg
  split
  · have hout := outside_processJpegEvt (s := sys.post) evt env
    refine ⟨h.wf.outside hout, hout.inited.trans h.inited, fun id hid => ?_, ?_, fun hne => ?_,
      fun henc hnone => ?_, hraised⟩
    · exact absurd (show id ∈ [] from hnil ▸ hid) List.not_mem_nil
    · change (sys.withEvtQueue rest).openJobs.length ≤ 1
      rw [hnil]
      exact Nat.zero_le 1
    · change ((sys.post.processJpegEvt evt env).1).phase.isEncoding = true
      rw [hout.phase]
      exact h.handed hne
    · -- the job being encoded has been given its id
      change ((sys.post.processJpegEvt evt env).1).phase.isEncoding = true at henc
      rw [hout.phase] at henc
      obtain ⟨job, ongoing, hcons⟩ := List.exists_cons_of_ne_nil (h.kept henc hnone)
      rw [owner, hcons] at howner
      cases hnone.symm.trans ((if_pos henc).symm.trans howner)
  · refine h.queues rfl rfl ?_ hraised
    rw [hnil]
    exact List.nil_subperm

theorem Tracked.takeNode (h : Tracked sys) {node : SmNode} {out : Outcomes} {env : JpegEvtEnv}
    {rest : List SmNode} (hq : sys.evtQueue = node :: rest) :
    Tracked ((sys.withEvtQueue rest).takeNode node out env).1 := by
  have hraised : ∀ n ∈ waitingDone rest, n = sys.sessions := fun n hn =>
    h.raised n (hq ▸ ((List.sublist_cons_self _ rest).filterMap _).mem hn)
  have hopen : (sys.withEvtQueue rest).openJobs.Subperm sys.openJobs := by
    have hsub : (waitingJobs rest).Sublist (waitingJobs sys.evtQueue) :=
      hq ▸ (List.sublist_cons_self node rest).filterMap _
    exact ((List.Sublist.refl sys.encoder).append hsub).subperm
  cases node with
  | jpeg evt => exact h.takeJpeg hq
  | done n | other c => exact h.queues rfl rfl hopen hraised

theorem Tracked.step {i : CaptureInput} {os : List Completion} (h : Tracked sys)
    (htimely : Timely sys i) (hs : sys.step i = some (sys', os)) : Tracked sys' := by
  cases transition_of_step hs with
  | api c => exact h.queues rfl rfl (List.Subperm.refl _) h.raised
  | raise c =>
    refine h.queues rfl rfl ?_ fun n hn => ?_
    · rw [openJobs, withEvtQueue, waitingJobs_append, show waitingJobs [.other c] = [] from rfl,
        List.append_nil]
      exact List.Subperm.refl _
    · rw [withEvtQueue, waitingDone_append, show waitingDone [.other c] = [] from rfl,
        List.append_nil] at hn
      exact h.raised n hn
  | takeApi out env hq => exact h.takeApi (htimely _ (by rw [hq]; rfl))
  | takeNode out env hq => exact h.takeNode hq
  | @post i p o hi hstep =>
    by_cases hnext : ∃ node, i = .next node
    · obtain ⟨node, rfl⟩ := hnext
      exact h.next hstep htimely
    · exact h.samePost (h.wf.step hstep)
        (sameJob_of_isPlain hi (fun node heq => hnext ⟨node, heq⟩) hstep)
  | encoded env hstep hid => exact h.encoded hstep hid
  | handOver id hphase hnone hne => exact h.handOver hphase hnone hne
  | complete id ok hid => exact h.complete hid

end Tracked

section Runs

open CaptureSystem

variable {sys sys' : CaptureSystem} {owner : Option UInt32}

@[simp] theorem completedJobs_append (o o' : List PostEffect) :
    completedJobs owner (o ++ o') = completedJobs owner o ++ completedJobs owner o' :=
  List.filterMap_append ..

@[simp] theorem completedJobs_cons_of_ne {e : PostEffect} {o : List PostEffect}
    (he : ∀ id job, e ≠ .jobDone id job) :
    completedJobs owner (e :: o) = completedJobs owner o := by
  cases e with
  | jobDone id job => exact absurd rfl (he id job)
  | _ => rfl

@[simp] theorem completedJobs_map_release (fs : List ℕ) :
    completedJobs owner (fs.map .release) = [] := by
  rw [completedJobs, List.filterMap_map, List.filterMap_eq_nil_iff]
  exact fun _ _ => rfl

@[simp] theorem completedJobs_map_releaseMem (ms : List ℕ) :
    completedJobs owner (ms.map .releaseMem) = [] := by
  rw [completedJobs, List.filterMap_map, List.filterMap_eq_nil_iff]
  exact fun _ _ => rfl

theorem completedJobs_jpegResult (owner : Option UInt32) {s : PostProc} (evt : JpegEvt)
    (env : JpegEvtEnv) :
    completedJobs owner (s.jpegResult evt env).2 = [] := by
  have hnotify : ∀ (s : PostProc) r mem,
      completedJobs owner (s.sendDataNotify r mem).2.2 = [] := by
    intro s r mem
    unfold PostProc.sendDataNotify
    split
    · rfl
    · dsimp only
      split
      · rfl
      · rw [releaseNotifyData, completedJobs_append, completedJobs_map_release,
          completedJobs_map_releaseMem]
        rfl
  unfold PostProc.jpegResult
  split
  · rfl
  split
  · rfl
  · unfold PostProc.sendJpeg
    dsimp only
    rw [List.cons_append, completedJobs_cons_of_ne (by simp), completedJobs_append, hnotify]
    split <;> rfl

theorem completedJobs_processJpegEvt {s : PostProc} {evt : JpegEvt} {env : JpegEvtEnv}
    {job : JpegJob} {rest : List JpegJob} (hinit : s.inited = true) (hid : evt.jobId ≠ 0)
    (hon : s.ongoingJpegQ = job :: rest) :
    completedJobs owner (s.processJpegEvt evt env).2 = [.job evt.jobId owner] := by
  have hresult := completedJobs_jpegResult owner (s := s.withOngoingJpegQ rest) evt env
  unfold PostProc.processJpegEvt PostProc.findJpegJobByJobId
  rw [if_neg (by simp [hinit]), if_neg hid, hon]
  dsimp only
  rw [List.cons_append, completedJobs, List.filterMap_cons]
  change Completion.job evt.jobId owner :: completedJobs owner (_ ++ releaseJpegJobData job) = _
  rw [completedJobs_append, hresult, releaseJpegJobData, completedJobs_map_release]
  rfl

/-- A jpeg event taken during a picture completes its own job. -/
theorem Tracked.takeJpeg_eq (h : Tracked sys) {evt : JpegEvt} (env : JpegEvtEnv)
    {rest : List SmNode} (hq : sys.evtQueue = .jpeg evt :: rest)
    (hstate : sys.machine.state.takesPicture = true) :
    ((sys.withEvtQueue rest).takeJpeg evt env).2 = [.job evt.jobId (some evt.jobId)] := by
  obtain ⟨-, howner, hne⟩ := h.jpeg_taken hq
  have hon : sys.post.ongoingJpegQ ≠ [] := fun hnil => by
    cases (owner_of_nil hnil).symm.trans howner
  obtain ⟨job, ongoing, hcons⟩ := List.exists_cons_of_ne_nil hon
  unfold CaptureSystem.takeJpeg
  rw [if_pos (show (sys.withEvtQueue rest).machine.state.takesPicture = true from hstate),
    show (sys.withEvtQueue rest).owner = some evt.jobId from howner]
  exact completedJobs_processJpegEvt h.inited hne hcons

theorem Tracked.own {i : CaptureInput} {os : List Completion} (h : Tracked sys)
    (hs : sys.step i = some (sys', os)) : ∀ e ∈ os, e.Own := by
  have hnil : ∀ e ∈ ([] : List Completion), e.Own := fun e he => absurd he List.not_mem_nil
  cases transition_of_step hs with
  | api | raise | takeApi | post | encoded | handOver | complete => exact hnil
  | @takeNode out env node rest hq =>
    cases node with
    | other c => exact hnil
    | done n =>
      intro e he
      change e ∈ (if sys.machine.state.takesPicture = true then
        [Completion.ended n sys.sessions] else []) at he
      split at he
      · obtain rfl := List.mem_singleton.mp he
        exact (h.raised n (by rw [hq]; exact List.mem_cons_self)).ge
      · exact hnil e he
    | jpeg evt =>
      by_cases hstate : sys.machine.state.takesPicture = true
      · intro e he
        rw [show ((sys.withEvtQueue rest).takeNode (.jpeg evt) out env).2 = _ from
          h.takeJpeg_eq env hq hstate] at he
        obtain rfl := List.mem_singleton.mp he
        rfl
      · have hstate' : ¬ (sys.withEvtQueue rest).machine.state.takesPicture = true := hstate
        rw [CaptureSystem.takeNode, CaptureSystem.takeJpeg, if_neg hstate']
        exact hnil

end Runs

/-! ### Two pictures -/

end Qcamera

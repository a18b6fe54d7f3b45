/-
The command threads of the camera interface, `mm_camera_thread.c`.

Producers put a command into the queue and then post the semaphore; the thread takes
commands until the queue is empty, each time it is woken, and ends when it has seen EXIT.
Each operation on the queue or the semaphore is one step, of the thread, of a producer or
of `mm_camera_cmd_thread_stop`.

* `Served` — what was enqueued is what was taken, what the thread holds and the queue;
* `ends_eventually` — after EXIT the thread ends once the producers stop;
* `commands_not_lost` — the two together.
-/
import HdxCommon.Liveness

namespace Interface.CmdThread

/-- `mm_camera_cmdcb_type_t`. -/
inductive CmdType where
  | dataCb
  | evtCb
  | exit
  | reqDataCb
  | superBufDataCb
  | configNotify
  | flushQueue
  | max
  deriving DecidableEq, Repr

/-- `mm_camera_cmdcb_t`; the union of the commands' contents is a number. -/
structure Cmd where
  cmdType : CmdType
  u : ℕ
  deriving DecidableEq, Repr

/-- The commands for the callback; the others end the thread. -/
def Cmd.isCallback (c : Cmd) : Bool :=
  match c.cmdType with
  | .exit | .max => false
  | _ => true

/-- Where the thread is in `mm_camera_cmd_thread`. -/
inductive Pc where
  | waiting
  | dequeuing
  | handling (node : Cmd)
  | ended
  deriving DecidableEq, Repr

/-- Where `mm_camera_cmd_thread_stop` is; it has failed if there was no memory for EXIT. -/
inductive StopPc where
  | idle
  | posting
  | joining
  | returned
  | failed
  deriving DecidableEq, Repr

/-- The thread, its queue and semaphore, the producers that have yet to post, and the
stop request. -/
structure State where
  cmdQueue : List Cmd
  cmdSem : ℕ
  running : Bool
  pc : Pc
  producers : ℕ
  stop : StopPc
  deriving DecidableEq, Repr

/-- After `mm_camera_cmd_thread_launch`. -/
def State.launched : State := ⟨[], 0, true, .waiting, 0, .idle⟩

/-- One step of some thread; the flags say which allocations succeed. -/
inductive Act where
  | enqueue (cmd : Cmd) (node : Bool)
  | post
  | thread
  | stop (cmd node : Bool)
  | stopNext
  deriving DecidableEq, Repr

/-- `cam_queue_enq`. -/
def enq (c : Cmd) (node : Bool) (q : List Cmd) : List Cmd := if node then q ++ [c] else q

/-- A step of `mm_camera_cmd_thread`, with what the callback sees. -/
def threadStep (s : State) : Option (State × List Cmd) :=
  match s.pc, s.cmdQueue with
  | .waiting, _ =>
    if 0 < s.cmdSem then some ({ s with cmdSem := s.cmdSem - 1, pc := .dequeuing }, []) else none
  | .dequeuing, node :: q => some ({ s with cmdQueue := q, pc := .handling node }, [])
  | .dequeuing, [] => some ({ s with pc := if s.running then .waiting else .ended }, [])
  | .handling node, _ =>
    if node.isCallback then some ({ s with pc := .dequeuing }, [node])
    else some ({ s with running := false, pc := .dequeuing }, [])
  | .ended, _ => none

/-- The steps.  Producers send commands for the callback only. -/
def step (s : State) : Act → Option (State × List Cmd)
  | .enqueue cmd node =>
    if cmd.isCallback then
      some ({ s with cmdQueue := enq cmd node s.cmdQueue, producers := s.producers + 1 }, [])
    else none
  | .post =>
    if 0 < s.producers then
      some ({ s with producers := s.producers - 1, cmdSem := s.cmdSem + 1 }, [])
    else none
  | .thread => threadStep s
  | .stop cmd node =>
    if s.stop = .idle then
      if cmd then
        some ({ s with cmdQueue := enq ⟨.exit, 0⟩ node s.cmdQueue, stop := .posting }, [])
      else some ({ s with stop := .failed }, [])
    else none
  | .stopNext =>
    match s.stop with
    | .posting => some ({ s with cmdSem := s.cmdSem + 1, stop := .joining }, [])
    | .joining => if s.pc = .ended then some ({ s with stop := .returned }, []) else none
    | _ => none

def Act.enqueues : Act → Option Cmd
  | .enqueue cmd true => some cmd
  | .stop true true => some ⟨.exit, 0⟩
  | _ => none

def enqueued (is : List Act) : List Cmd := is.filterMap Act.enqueues

/-- The command that the thread has taken and not yet handled. -/
def State.held (s : State) : List Cmd :=
  match s.pc with
  | .handling node => [node]
  | _ => []

/-! ### What one step does -/

variable {s s' : State} {a : Act} {o : List Cmd} {is : List Act} {os : List Cmd}

inductive ThreadMove (s : State) : State → List Cmd → Prop where
  | wakes (hpc : s.pc = .waiting) (hsem : 0 < s.cmdSem) :
      ThreadMove s { s with cmdSem := s.cmdSem - 1, pc := .dequeuing } []
  | takes (node : Cmd) (q : List Cmd) (hpc : s.pc = .dequeuing) (hq : s.cmdQueue = node :: q) :
      ThreadMove s { s with cmdQueue := q, pc := .handling node } []
  | waits (hpc : s.pc = .dequeuing) (hq : s.cmdQueue = []) (hrun : s.running = true) :
      ThreadMove s { s with pc := .waiting } []
  | ends (hpc : s.pc = .dequeuing) (hq : s.cmdQueue = []) (hrun : s.running = false) :
      ThreadMove s { s with pc := .ended } []
  | calls (node : Cmd) (hpc : s.pc = .handling node) (hcb : node.isCallback = true) :
      ThreadMove s { s with pc := .dequeuing } [node]
  | exits (node : Cmd) (hpc : s.pc = .handling node) (hcb : node.isCallback = false) :
      ThreadMove s { s with running := false, pc := .dequeuing } []

theorem threadMove (hs : threadStep s = some (s', o)) : ThreadMove s s' o := by
  unfold threadStep at hs
  split at hs
  next hpc =>
    split_ifs at hs with hsem
    cases hs
    exact .wakes hpc hsem
  next node q hpc hq =>
    cases hs
    exact .takes node q hpc hq
  next hpc hq =>
    cases hs
    split_ifs with hrun
    · exact .waits hpc hq hrun
    · exact .ends hpc hq (Bool.not_eq_true _ ▸ hrun)
  next node hpc =>
    split_ifs at hs with hcb
    · cases hs
      exact .calls node hpc hcb
    · cases hs
      exact .exits node hpc (Bool.not_eq_true _ ▸ hcb)
  next => cases hs

theorem others_keep (ha : a ≠ .thread) (hs : step s a = some (s', o)) :
    s'.pc = s.pc ∧ s'.running = s.running ∧ s.cmdSem ≤ s'.cmdSem ∧ o = [] ∧
      s'.cmdQueue = s.cmdQueue ++ a.enqueues.toList := by
  cases a with
  | thread => exact absurd rfl ha
  | enqueue cmd node =>
    simp only [step] at hs
    split_ifs at hs
    cases hs
    cases node <;> simp [enq, Act.enqueues]
  | post =>
    simp only [step] at hs
    split_ifs at hs
    cases hs
    simp [Act.enqueues]
  | stop cmd node =>
    simp only [step] at hs
    split_ifs at hs <;> cases hs <;> cases node <;> simp_all [enq, Act.enqueues]
  | stopNext =>
    simp only [step] at hs
    split at hs
    · cases hs
      simp [Act.enqueues]
    · split_ifs at hs
      cases hs
      simp [Act.enqueues]
    · cases hs

/-! ### Safety -/

/-- What was enqueued is what the thread has taken, what it holds and the queue; the
callback saw the commands for it among those taken, and the thread runs until it has
taken another one, of which there is one at most. -/
structure Served (is : List Act) (os : List Cmd) (s : State) : Prop where
  order : ∃ taken, enqueued is = taken ++ s.held ++ s.cmdQueue ∧
    os = taken.filter Cmd.isCallback ∧
    (s.running = false → ∃ c ∈ taken, c.isCallback = false)
  ended : s.pc = .ended → s.running = false
  joined : s.stop = .returned → s.pc = .ended
  once : (enqueued is).countP (!·.isCallback) ≤ if s.stop = .idle then 0 else 1

theorem enqueued_snoc (is : List Act) (a : Act) :
    enqueued (is ++ [a]) = enqueued is ++ a.enqueues.toList := by
  cases h : a.enqueues <;> simp [enqueued, h]

theorem held_of_pc (hpc : s'.pc = s.pc) : s'.held = s.held := by
  rw [State.held, State.held, hpc]

theorem Served.thread (h : Served is os s) (hs : threadStep s = some (s', o)) :
    Served (is ++ [.thread]) (os ++ o) s' := by
  obtain ⟨⟨taken, horder, rfl, hrun⟩, hended, hjoined, honce⟩ := h
  have hnew : enqueued (is ++ [.thread]) = enqueued is := by simp [enqueued, Act.enqueues]
  have hlive : s.pc ≠ .ended → s.stop ≠ .returned := fun hpc hret => hpc (hjoined hret)
  cases threadMove hs with
  | wakes hpc _ | waits hpc _ _ =>
    refine ⟨⟨taken, ?_, by simp, hrun⟩, fun h => (by cases h), ?_, hnew ▸ honce⟩
    · simpa [hnew, State.held, hpc] using horder
    · exact fun hret => absurd hret (hlive (by simp [hpc]))
  | takes node q hpc hq =>
    refine ⟨⟨taken, ?_, by simp, hrun⟩, fun h => (by cases h), ?_, hnew ▸ honce⟩
    · simpa [hnew, State.held, hpc, hq] using horder
    · exact fun hret => absurd hret (hlive (by simp [hpc]))
  | ends hpc hq hfalse =>
    refine ⟨⟨taken, ?_, by simp, hrun⟩, fun _ => hfalse, fun _ => rfl, hnew ▸ honce⟩
    simpa [hnew, State.held, hpc] using horder
  | calls node hpc hcb =>
    refine ⟨⟨taken ++ [node], ?_, by simp [hcb], ?_⟩, fun h => (by cases h), ?_, hnew ▸ honce⟩
    · simpa [hnew, State.held, hpc] using horder
    · intro hfalse
      obtain ⟨c, hc, hcfalse⟩ := hrun hfalse
      exact ⟨c, List.mem_append_left _ hc, hcfalse⟩
    · exact fun hret => absurd hret (hlive (by simp [hpc]))
  | exits node hpc hcb =>
    refine ⟨⟨taken ++ [node], ?_, by simp [hcb], ?_⟩, fun h => (by cases h), ?_, hnew ▸ honce⟩
    · simpa [hnew, State.held, hpc] using horder
    · exact fun _ => ⟨node, by simp, hcb⟩
    · exact fun hret => absurd hret (hlive (by simp [hpc]))

/-- The stop request: one EXIT, which is announced, and a return only after the thread
has ended. -/
theorem others_stop (ha : a ≠ .thread) (hs : step s a = some (s', o)) :
    (s'.stop = .returned → s.stop = .returned ∨ s.pc = .ended) ∧
      (s.stop = .posting → 0 < s'.cmdSem ∨ s'.stop = .posting) ∧
      (∀ c ∈ a.enqueues, c.isCallback = false → s'.stop = .posting) ∧
      (a.enqueues.toList.countP (!·.isCallback) + (if s.stop = .idle then 0 else 1) ≤
        if s'.stop = .idle then 0 else 1) := by
  cases a with
  | thread => exact absurd rfl ha
  | enqueue cmd node =>
    simp only [step] at hs
    split_ifs at hs with hcb
    cases hs
    refine ⟨.inl, .inr, ?_⟩
    cases node <;> simp [Act.enqueues, hcb]
  | post =>
    simp only [step] at hs
    split_ifs at hs
    cases hs
    exact ⟨.inl, .inr, by simp [Act.enqueues]⟩
  | stop cmd node =>
    simp only [step] at hs
    split_ifs at hs with hidle hcmd
    · cases hs
      cases node <;> simp [Act.enqueues, hidle, hcmd, Cmd.isCallback]
    · cases hs
      simp [Act.enqueues, hidle, hcmd]
  | stopNext =>
    simp only [step] at hs
    split at hs
    next hstop =>
      cases hs
      simp [Act.enqueues, hstop]
    next hstop =>
      split_ifs at hs with hpc
      cases hs
      simp [Act.enqueues, hstop, hpc]
    next => cases hs

theorem Served.step (h : Served is os s) (hs : step s a = some (s', o)) :
    Served (is ++ [a]) (os ++ o) s' := by
  by_cases ha : a = .thread
  · subst ha
    exact h.thread hs
  obtain ⟨hpc, hrunning, -, rfl, hqueue⟩ := others_keep ha hs
  obtain ⟨hreturned, -, -, honce⟩ := others_stop ha hs
  obtain ⟨taken, horder, rfl, hrun⟩ := h.order
  refine ⟨⟨taken, ?_, by simp, hrunning ▸ hrun⟩, ?_, ?_, ?_⟩
  · rw [enqueued_snoc, horder, held_of_pc hpc, hqueue, List.append_assoc]
  · rw [hpc, hrunning]
    exact h.ended
  · intro hret
    rw [hpc]
    exact (hreturned hret).elim h.joined id
  · rw [enqueued_snoc, List.countP_append]
    exact (Nat.add_comm _ _ ▸ Nat.add_le_add_left h.once _).trans honce

theorem served (h : Runs step (fun _ _ => True) .launched is os s) : Served is os s := by
  refine h.inv Served ⟨⟨[], rfl, rfl, by simp [State.launched]⟩, ?_, ?_, ?_⟩ ?_
  · simp [State.launched]
  · simp [State.launched]
  · simp [enqueued]
  · exact fun is os s i s' o hI _ hs => hI.step hs

theorem Served.before_exit (h : Served is os s) (hret : s.stop = .returned)
    {before after : List Cmd} {exit : Cmd} (hexit : exit.isCallback = false)
    (heq : enqueued is = before ++ exit :: after) :
    ∃ rest, os = before.filter Cmd.isCallback ++ rest := by
  obtain ⟨taken, horder, rfl, hrun⟩ := h.order
  obtain ⟨c, hc, hcfalse⟩ := hrun (h.ended (h.joined hret))
  rw [List.append_assoc] at horder
  -- otherwise there would be a second command that is not for the callback
  rcases List.append_eq_append_iff.mp (heq.symm.trans horder) with ⟨l, rfl, -⟩ | ⟨l, hl, htail⟩
  · exact ⟨l.filter Cmd.isCallback, by rw [List.filter_append]⟩
  · cases l with
    | nil => exact ⟨[], by simp [hl]⟩
    | cons x l =>
      have honce := h.once
      have hmem : c ∈ before := hl ▸ List.mem_append_left _ hc
      have hpos : 0 < before.countP (!·.isCallback) :=
        List.countP_pos_iff.mpr ⟨c, hmem, by simp [hcfalse]⟩
      rw [heq, hret, List.countP_append, List.countP_cons_of_pos (by simp [hexit])] at honce
      simp only [reduceCtorEq, if_false] at honce
      omega

/-! ### Progress -/

/-- EXIT is under way or has been seen. -/
def Exiting (s : State) : Prop :=
  s.running = false ∨ ∃ c ∈ s.held ++ s.cmdQueue, c.isCallback = false

/-- A thread that waits runs, and EXIT in its queue is or will be announced. -/
structure Awake (s : State) : Prop where
  running : s.pc = .waiting → s.running = true
  token : s.pc = .waiting → (∃ c ∈ s.cmdQueue, c.isCallback = false) →
    0 < s.cmdSem ∨ s.stop = .posting

theorem Exiting.step (h : Exiting s) (hs : step s a = some (s', o)) : Exiting s' := by
  by_cases ha : a = .thread
  · subst ha
    cases threadMove hs with
    | wakes hpc _ | waits hpc _ _ | ends hpc _ _ => simpa [Exiting, State.held, hpc] using h
    | takes node q hpc hq => simpa [Exiting, State.held, hpc, hq] using h
    | calls node hpc hcb => simpa [Exiting, State.held, hpc, hcb] using h
    | exits node hpc hcb => exact .inl rfl
  · obtain ⟨hpc, hrunning, -, -, hqueue⟩ := others_keep ha hs
    refine h.imp (hrunning ▸ id) ?_
    rintro ⟨c, hc, hcb⟩
    rw [held_of_pc hpc, hqueue, ← List.append_assoc]
    exact ⟨c, List.mem_append_left _ hc, hcb⟩

theorem Awake.step (h : Awake s) (hs : step s a = some (s', o)) : Awake s' := by
  by_cases ha : a = .thread
  · subst ha
    cases threadMove hs with
    | waits hpc hq hrun => exact ⟨fun _ => hrun, by simp [hq]⟩
    | _ => exact ⟨fun h => (by cases h), fun h => (by cases h)⟩
  · obtain ⟨hpc, hrunning, hsem, -, hqueue⟩ := others_keep ha hs
    refine ⟨by rw [hpc, hrunning]; exact h.running, ?_⟩
    obtain ⟨-, hpost, hnew, -⟩ := others_stop ha hs
    rw [hpc]
    rintro hwait ⟨c, hc, hcb⟩
    rw [hqueue, List.mem_append, Option.mem_toList] at hc
    rcases hc with hc | hc
    · rcases h.token hwait ⟨c, hc, hcb⟩ with htoken | hstop
      · exact .inl (htoken.trans_le hsem)
      · exact hpost hstop
    · exact .inr (hnew c hc hcb)

theorem stop_ne_idle (h : s.stop ≠ .idle) (hs : step s a = some (s', o)) : s'.stop ≠ .idle := by
  by_cases ha : a = .thread
  · subst ha
    cases threadMove hs <;> exact h
  · obtain ⟨-, -, -, honce⟩ := others_stop ha hs
    intro hidle
    rw [if_pos hidle, if_neg h] at honce
    omega

/-- Who has to take the next step. -/
inductive Who where
  | thread
  | stopper
  deriving DecidableEq, Repr

def Act.who : Act → Option Who
  | .thread => some .thread
  | .stopNext => some .stopper
  | _ => none

def helper (s : State) : Who := if s.pc = .waiting ∧ s.cmdSem = 0 then .stopper else .thread

/-- How far the thread is from its end. -/
def rank (s : State) : ℕ :=
  2 * s.cmdQueue.length +
    match s.pc with
    | .waiting => if s.cmdSem = 0 then 3 else 2
    | .dequeuing => 1
    | .handling _ => 2
    | .ended => 0

/-- The thread comes closer to its end with each step, unless it waits once more. -/
theorem ThreadMove.rank_lt (h : ThreadMove s s' o) (hexit : Exiting s) : rank s' < rank s := by
  cases h with
  | wakes hpc hsem => simp [rank, hpc, hsem.ne']
  | takes node q hpc hq =>
    simp only [rank, hpc, hq, List.length_cons]
    omega
  | waits hpc hq hrun => simp [Exiting, State.held, hpc, hq, hrun] at hexit
  | ends hpc hq hrun | calls node hpc hcb | exits node hpc hcb => simp [rank, hpc]

theorem rank_step (hexit : Exiting s) (hidle : s.stop ≠ .idle)
    (ha : ∀ c node, a ≠ .enqueue c node) (hs : step s a = some (s', o)) :
    rank s' < rank s ∨ rank s' = rank s ∧ helper s' = helper s := by
  by_cases hthread : a = .thread
  · subst hthread
    exact .inl ((threadMove hs).rank_lt hexit)
  obtain ⟨hpc, -, hsem, -, hqueue⟩ := others_keep hthread hs
  have hnone : a.enqueues = none := by
    cases a with
    | enqueue c node => exact absurd rfl (ha c node)
    | stop cmd node => simp [step, hidle] at hs
    | _ => rfl
  rw [hnone, Option.toList_none, List.append_nil] at hqueue
  by_cases hwait : s.pc = .waiting ∧ s.cmdSem = 0 ∧ s'.cmdSem ≠ 0
  · refine .inl ?_
    simp [rank, hpc, hqueue, hwait]
  · refine .inr ?_
    have hzero : s.pc = .waiting → (s'.cmdSem = 0 ↔ s.cmdSem = 0) := by
      intro h
      simp only [h, true_and, not_and, not_not] at hwait
      exact ⟨fun h0 => by omega, hwait⟩
    cases hcase : s.pc with
    | waiting => simp [rank, helper, hpc, hqueue, hcase, hzero hcase]
    | _ => simp [rank, helper, hpc, hqueue, hcase]

/-- The thread that has to help comes closer to the end. -/
theorem rank_helper (hexit : Exiting s) (hawake : Awake s) (hlive : s.pc ≠ .ended)
    (ha : a.who = some (helper s)) : ∃ s' o, step s a = some (s', o) ∧ rank s' < rank s := by
  by_cases hwait : s.pc = .waiting ∧ s.cmdSem = 0
  · have hrun := hawake.running hwait.1
    have hqueue : ∃ c ∈ s.cmdQueue, c.isCallback = false := by
      simpa [Exiting, State.held, hwait.1, hrun] using hexit
    have hstop := (hawake.token hwait.1 hqueue).resolve_left (by omega)
    cases a with
    | stopNext =>
      refine ⟨_, _, by rw [step, hstop], ?_⟩
      simp [rank, hwait.1, hwait.2]
    | _ => simp [helper, hwait, Act.who] at ha
  · cases a with
    | thread =>
      obtain ⟨⟨s', o⟩, hs⟩ : ∃ r, threadStep s = some r := by
        unfold threadStep
        split
        next hpc => exact ⟨_, if_pos (by simp only [hpc, true_and] at hwait; omega)⟩
        next => exact ⟨_, rfl⟩
        next => exact ⟨_, rfl⟩
        next => split_ifs <;> exact ⟨_, rfl⟩
        next hpc => exact absurd hpc hlive
      exact ⟨s', o, hs, (threadMove hs).rank_lt hexit⟩
    | _ => simp [helper, hwait, Act.who] at ha

/-- The state at time `n`. -/
abbrev reached (acts : ℕ → Act) (n : ℕ) : State := stateAt step .launched acts n

theorem ends_eventually {acts : ℕ → Act} (hfair : Fair Act.who acts) {n : ℕ}
    (hexit : Exiting (reached acts n)) (hidle : (reached acts n).stop ≠ .idle)
    (hdone : ∀ m, n ≤ m → ∀ c node, acts m ≠ .enqueue c node) :
    ∃ m, n ≤ m ∧ (reached acts m).pc = .ended := by
  have hawake : ∀ m, Awake (reached acts m) := by
    intro m
    refine stateAt_inv Awake (Nat.zero_le m) (fun k _ _ h s' o hs => h.step hs) ⟨?_, ?_⟩
    · exact fun _ => rfl
    · simp [stateAt, State.launched]
  refine eventually_of_rank hfair
    (fun m => Exiting (reached acts m) ∧ (reached acts m).stop ≠ .idle)
    (fun m => (reached acts m).pc = .ended) (fun m => rank (reached acts m))
    (fun m => helper (reached acts m)) ?_ ?_ ⟨hexit, hidle⟩
  · rintro m hm ⟨hexit, hidle⟩
    obtain hs | ⟨-, hs, -⟩ := @stateAt_succ _ _ _ step State.launched acts m
    · exact .inr ⟨⟨hexit.step hs, stop_ne_idle hidle hs⟩, rank_step hexit hidle (hdone m hm) hs⟩
    · refine .inr ?_
      rw [reached, hs]
      exact ⟨⟨hexit, hidle⟩, .inr ⟨rfl, rfl⟩⟩
  · rintro m hm ⟨hexit, hidle⟩ hpick
    by_cases hended : (reached acts m).pc = .ended
    · exact .inl hended
    obtain ⟨s', o, hs, hrank⟩ := rank_helper hexit (hawake m) hended hpick
    have hnext : reached acts (m + 1) = s' := by
      rw [reached, stateAt, advance, hs]
      rfl
    exact .inr (hnext ▸ ⟨⟨hexit.step hs, stop_ne_idle hidle hs⟩, hrank⟩)

/-- **Command threads lose nothing.**  In every run the callback has seen the commands for
it among those that were enqueued first, each once and in their order; when the stop
request has returned, all that were enqueued before EXIT are among them.  In every fair
execution the thread ends after EXIT once the producers stop. -/
theorem commands_not_lost :
    (∀ is os s, Runs step (fun _ _ => True) .launched is os s →
      (∃ taken rest, enqueued is = taken ++ rest ∧ os = taken.filter Cmd.isCallback) ∧
      ∀ before after exit, enqueued is = before ++ exit :: after → exit.cmdType = .exit →
        s.stop = .returned → ∃ rest, os = before.filter Cmd.isCallback ++ rest) ∧
    ∀ acts : ℕ → Act, Fair Act.who acts → ∀ n k, acts n = .stop true true →
      (reached acts n).stop = .idle → (∀ m, k ≤ m → ∀ c node, acts m ≠ .enqueue c node) →
      ∃ m, (reached acts m).pc = .ended := by
  refine ⟨fun is os s h => ⟨?_, ?_⟩, ?_⟩
  · obtain ⟨taken, horder, hos, -⟩ := (served h).order
    exact ⟨taken, s.held ++ s.cmdQueue, by rw [horder, List.append_assoc], hos⟩
  · intro before after exit heq hexit hret
    exact (served h).before_exit hret (by simp [Cmd.isCallback, hexit]) heq
  · intro acts hfair n k hstop hidle hdone
    have hnext : Exiting (reached acts (n + 1)) ∧ (reached acts (n + 1)).stop ≠ .idle := by
      rw [reached, stateAt, advance, hstop, step, if_pos hidle]
      exact ⟨.inr ⟨⟨.exit, 0⟩, by simp [enq], rfl⟩, by simp⟩
    have hlater := stateAt_inv (fun s => Exiting s ∧ s.stop ≠ .idle)
      (le_max_left (n + 1) k) (fun m _ _ h s' o hs => ⟨h.1.step hs, stop_ne_idle h.2 hs⟩) hnext
    obtain ⟨m, -, hm⟩ := ends_eventually hfair hlater.1 hlater.2 fun m hm =>
      hdone m ((le_max_right _ _).trans hm)
    exact ⟨m, hm⟩

def stopped : List Act :=
  [.enqueue ⟨.dataCb, 1⟩ true, .post, .stop true true, .enqueue ⟨.evtCb, 2⟩ true, .thread,
    .thread, .thread, .stopNext, .thread, .thread, .thread, .thread, .thread, .stopNext]

/-- EXIT at once, then the thread and the stop request in turn. -/
def exitFirst (n : ℕ) : Act :=
  if n = 0 then .stop true true else if n % 2 = 0 then .thread else .stopNext

/-- The callback sees both commands before the stop request returns, and a thread that is
told to end at once does. -/
theorem commands_not_lost_stopped :
    (∃ rest, [⟨.dataCb, 1⟩, ⟨.evtCb, 2⟩] = [(⟨.dataCb, 1⟩ : Cmd)] ++ rest) ∧
      ∃ m, (reached exitFirst m).pc = .ended := by
  refine ⟨?_, ?_⟩
  · have hrun : Runs step (fun _ _ => True) .launched stopped [⟨.dataCb, 1⟩, ⟨.evtCb, 2⟩]
        ⟨[], 1, false, .ended, 1, .returned⟩ := runs_of_exec (by decide)
    exact (commands_not_lost.1 _ _ _ hrun).2 [⟨.dataCb, 1⟩] [⟨.evtCb, 2⟩] ⟨.exit, 0⟩ rfl rfl rfl
  · have hfair : Fair Act.who exitFirst := by
      intro t n
      cases t with
      | thread =>
        refine ⟨2 * n + 2, by omega, ?_⟩
        simp [exitFirst, Act.who]
      | stopper =>
        refine ⟨2 * n + 1, by omega, ?_⟩
        simp [exitFirst, Act.who]
    refine commands_not_lost.2 exitFirst hfair 0 0 rfl rfl ?_
    intro m _ c node heq
    simp only [exitFirst] at heq
    split_ifs at heq

end Interface.CmdThread

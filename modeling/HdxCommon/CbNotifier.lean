/-
The callback notifier: snapshot counting and release callbacks.

Notifications for the application wait in `mDataQ`; the notifier thread delivers
one for each `DO_NEXT_JOB`.  `START_DATA_PROC` begins a picture session with an
expected number of snapshots and `STOP_DATA_PROC` ends it and flushes the
snapshots still waiting.

* `ReleasesOnce` — every notification's release callback has been run once, or
  the notification still waits;
* `Log` — the history as a list of sessions, each with the snapshots delivered
  and the times `SNAPSHOT_DONE` was raised;
* `snapshot_counting` — a session raises `SNAPSHOT_DONE` once, right before the
  expected snapshot, exactly if it has fewer than `n + 2 ^ 32` snapshots.
-/
import HdxCommon.CmdThread
import HdxCommon.Runs

namespace Qcamera

/-- `qcamera_callback_type_m`. -/
inductive CbType where
  | notify
  | data
  | dataTimestamp
  | snapshot
  deriving DecidableEq, Repr

/-- `qcamera_callback_argm_t`; `data` is what is given to the application, and
`release` the user data of the release callback, if there is one. -/
structure CallbackArgm (α : Type*) where
  cbType : CbType
  msgType : ℕ
  data : Option α
  release : Option α
  deriving DecidableEq, Repr

inductive NotifierEvt (α : Type*) where
  /-- a notification is put into the queue -/
  | queued (cb : CallbackArgm α)
  /-- a session begins -/
  | start (n : UInt32)
  | stop
  | snapshotDone
  /-- a snapshot is delivered -/
  | snapshot (cb : CallbackArgm α)
  /-- another callback of the application is run -/
  | callback (cb : CallbackArgm α)
  /-- a release callback is run -/
  | release (a : α)
  deriving DecidableEq, Repr

structure CbNotifier (α : Type*) where
  notifyCb : Bool
  dataCb : Bool
  dataCbTimestamp : Bool
  active : Bool
  dataQ : List (CallbackArgm α)
  cmds : List CmdType
  running : Bool
  isSnapshotActive : Bool
  numOfSnapshotExpected : UInt32
  numOfSnapshotRcvd : UInt32
  deriving DecidableEq, Repr

structure NotifyMem where
  arg : Bool
  node : Bool
  cmd : CmdMem
  deriving DecidableEq, Repr

def NotifyMem.ample : NotifyMem := ⟨true, true, .ample⟩

/-- What the thread asks the interface when it takes a command. -/
structure NotifierEnv where
  msgTypeEnabled : ℕ → Bool
  numOfSnapshotsExpected : UInt8

inductive NotifierInput (α : Type*) where
  | notifyCallback (cb : CallbackArgm α) (mem : NotifyMem)
  | startSnapshots (mem : CmdMem)
  | stopSnapshots (mem : CmdMem)
  | exit (mem : CmdMem)
  /-- the thread takes a command -/
  | next (env : NotifierEnv)

namespace CbNotifier

variable {α : Type*}

/-- `setCallbacks` has launched the thread. -/
def launched (notifyCb dataCb dataCbTimestamp : Bool) : CbNotifier α :=
  ⟨notifyCb, dataCb, dataCbTimestamp, true, [], [], true, false, 0, 0⟩

def releaseNotifications (cbs : List (CallbackArgm α)) : List (NotifierEvt α) :=
  (cbs.filterMap CallbackArgm.release).map .release

def matchSnapshotNotifications (cb : CallbackArgm α) : Bool := cb.cbType == .snapshot

/-- Put a notification into the queue; whether it reports success. -/
def notifyCallback (cb : CallbackArgm α) (mem : NotifyMem) (s : CbNotifier α) :
    Bool × CbNotifier α × List (NotifierEvt α) :=
  if !s.active then (false, s, [])
  else if !mem.arg then (false, s, [])
  else if mem.node then
    let (ok, cmds) := sendCmd .doNextJob false mem.cmd s.cmds
    (ok, { s with dataQ := s.dataQ ++ [cb], cmds := cmds }, [.queued cb])
  else (false, s, [])

/-- The callbacks run for a notification whose message type is enabled. -/
def deliver (cb : CallbackArgm α) (s : CbNotifier α) : CbNotifier α × List (NotifierEvt α) :=
  match cb.cbType with
  | .notify => (s, if s.notifyCb then [.callback cb] else [])
  | .data => (s, if s.dataCb then [.callback cb] else [])
  | .dataTimestamp => (s, if s.dataCbTimestamp then [.callback cb] else [])
  | .snapshot =>
    if s.isSnapshotActive && s.dataCb then
      let rcvd := s.numOfSnapshotRcvd + 1
      ({ s with numOfSnapshotRcvd := rcvd },
        if 0 < s.numOfSnapshotExpected ∧ s.numOfSnapshotExpected = rcvd then
          [.snapshotDone, .snapshot cb]
        else [.snapshot cb])
    else (s, [])

/-- One command of `cbNotifyRoutine`. -/
def cbNotifyRoutine (env : NotifierEnv) (cmd : CmdType) (s : CbNotifier α) :
    CbNotifier α × List (NotifierEvt α) :=
  match cmd with
  | .startDataProc =>
    let n := env.numOfSnapshotsExpected.toUInt32
    ({ s with
        isSnapshotActive := true
        numOfSnapshotExpected := n
        numOfSnapshotRcvd := 0 }, [.start n])
  | .stopDataProc =>
    let (flushed, dataQ) := flushNodes matchSnapshotNotifications s.dataQ
    ({ s with
        dataQ := dataQ
        isSnapshotActive := false
        numOfSnapshotExpected := 0
        numOfSnapshotRcvd := 0 }, releaseNotifications flushed ++ [.stop])
  | .doNextJob =>
    match s.dataQ with
    | [] => (s, [])
    | cb :: dataQ =>
      let s := { s with dataQ := dataQ }
      let (s, es) := if env.msgTypeEnabled cb.msgType then s.deliver cb else (s, [])
      (s, es ++ releaseNotifications [cb])
  | .exit => ({ s with running := false, dataQ := [] }, releaseNotifications s.dataQ)

def withCmds (s : CbNotifier α) (cmds : List CmdType) : CbNotifier α := { s with cmds := cmds }

def step (s : CbNotifier α) : NotifierInput α → Option (CbNotifier α × List (NotifierEvt α))
  | .notifyCallback cb mem => some (s.notifyCallback cb mem).2
  | .startSnapshots mem =>
    some (s.withCmds (sendCmd .startDataProc true mem s.cmds).2, [])
  | .stopSnapshots mem =>
    some (s.withCmds (sendCmd .stopDataProc true mem s.cmds).2, [])
  | .exit mem =>
    some ({ s.withCmds (sendCmd .exit true mem s.cmds).2 with active := false }, [])
  | .next env =>
    if s.running then
      match s.cmds with
      | [] => some (s, [])
      | cmd :: cmds => some ((s.withCmds cmds).cbNotifyRoutine env cmd)
    else none

end CbNotifier

inductive NotifierTransition {α : Type*} (s : CbNotifier α) :
    NotifierInput α → List (NotifierEvt α) → CbNotifier α → Prop
  | notify (cb : CallbackArgm α) (mem : NotifyMem) :
      NotifierTransition s (.notifyCallback cb mem) (s.notifyCallback cb mem).2.2
        (s.notifyCallback cb mem).2.1
  | start (mem : CmdMem) :
      NotifierTransition s (.startSnapshots mem) []
        (s.withCmds (sendCmd .startDataProc true mem s.cmds).2)
  | stop (mem : CmdMem) :
      NotifierTransition s (.stopSnapshots mem) []
        (s.withCmds (sendCmd .stopDataProc true mem s.cmds).2)
  | exit (mem : CmdMem) :
      NotifierTransition s (.exit mem) []
        { s.withCmds (sendCmd .exit true mem s.cmds).2 with active := false }
  | idle (env : NotifierEnv) : NotifierTransition s (.next env) [] s
  | cmd (env : NotifierEnv) {cmd : CmdType} {cmds : List CmdType} (hrun : s.running = true)
      (hcmds : s.cmds = cmd :: cmds) :
      NotifierTransition s (.next env) ((s.withCmds cmds).cbNotifyRoutine env cmd).2
        ((s.withCmds cmds).cbNotifyRoutine env cmd).1

theorem CbNotifier.transition_of_step {α : Type*} {s s' : CbNotifier α} {i : NotifierInput α}
    {o : List (NotifierEvt α)} (hs : s.step i = some (s', o)) : NotifierTransition s i o s' := by
  cases i with
  | notifyCallback cb mem =>
    obtain ⟨rfl, rfl⟩ := Prod.mk.inj (Option.some.inj hs)
    exact .notify cb mem
  | startSnapshots mem =>
    cases hs
    exact .start mem
  | stopSnapshots mem =>
    cases hs
    exact .stop mem
  | exit mem =>
    cases hs
    exact .exit mem
  | next env =>
    simp only [step] at hs
    split at hs
    · rename_i hrun
      split at hs
      · cases hs
        exact .idle env
      · rename_i cmd cmds hcmds
        have h := Option.some.inj hs
        rw [show s' = ((s.withCmds cmds).cbNotifyRoutine env cmd).1 from (congrArg Prod.fst h).symm,
          show o = ((s.withCmds cmds).cbNotifyRoutine env cmd).2 from (congrArg Prod.snd h).symm]
        exact .cmd env hrun hcmds
    · cases hs

section Release

open CbNotifier

variable {α : Type*} {s s' : CbNotifier α} {is : List (NotifierInput α)}
  {o os : List (NotifierEvt α)}

def queuedData (os : List (NotifierEvt α)) : List α :=
  os.filterMap fun e => match e with
    | .queued cb => cb.release
    | _ => none

def releasedData (os : List (NotifierEvt α)) : List α :=
  os.filterMap fun e => match e with
    | .release a => some a
    | _ => none

def pendingData (s : CbNotifier α) : List α := s.dataQ.filterMap CallbackArgm.release

/-- Nothing is released twice and nothing is lost. -/
def ReleasesOnce (s : CbNotifier α) (o : List (NotifierEvt α)) (s' : CbNotifier α) : Prop :=
  (releasedData o ++ pendingData s').Perm (pendingData s ++ queuedData o)

@[simp] theorem queuedData_append (es es' : List (NotifierEvt α)) :
    queuedData (es ++ es') = queuedData es ++ queuedData es' :=
  List.filterMap_append ..

@[simp] theorem releasedData_append (es es' : List (NotifierEvt α)) :
    releasedData (es ++ es') = releasedData es ++ releasedData es' :=
  List.filterMap_append ..

@[simp] theorem releasedData_releaseNotifications (cbs : List (CallbackArgm α)) :
    releasedData (releaseNotifications cbs) = cbs.filterMap CallbackArgm.release := by
  simp [releasedData, releaseNotifications, List.filterMap_map]

@[simp] theorem queuedData_releaseNotifications (cbs : List (CallbackArgm α)) :
    queuedData (releaseNotifications cbs) = [] := by
  simp [queuedData, releaseNotifications, List.filterMap_map]

theorem ReleasesOnce.of_silent (hdata : s'.dataQ = s.dataQ) (hrel : releasedData o = [])
    (hque : queuedData o = []) : ReleasesOnce s o s' := by
  simp [ReleasesOnce, pendingData, hdata, hrel, hque]

theorem deliver_silent (cb : CallbackArgm α) (s : CbNotifier α) :
    (s.deliver cb).1.dataQ = s.dataQ ∧ releasedData (s.deliver cb).2 = [] ∧
      queuedData (s.deliver cb).2 = [] := by
  unfold deliver
  cases cb.cbType with
  | notify => cases s.notifyCb <;> exact ⟨rfl, rfl, rfl⟩
  | data => cases s.dataCb <;> exact ⟨rfl, rfl, rfl⟩
  | dataTimestamp => cases s.dataCbTimestamp <;> exact ⟨rfl, rfl, rfl⟩
  | snapshot =>
    dsimp only
    split
    · refine ⟨rfl, ?_, ?_⟩ <;> split <;> rfl
    · exact ⟨rfl, rfl, rfl⟩

theorem releasesOnce_notifyCallback (cb : CallbackArgm α) (mem : NotifyMem) (s : CbNotifier α) :
    ReleasesOnce s (s.notifyCallback cb mem).2.2 (s.notifyCallback cb mem).2.1 := by
  unfold notifyCallback
  split
  · exact .of_silent rfl rfl rfl
  split
  · exact .of_silent rfl rfl rfl
  split
  · simp [ReleasesOnce, pendingData, queuedData, releasedData, List.filterMap_append,
      List.filterMap_cons]
  · exact .of_silent rfl rfl rfl

theorem releasesOnce_cbNotifyRoutine (env : NotifierEnv) (cmd : CmdType) (s : CbNotifier α) :
    ReleasesOnce s (s.cbNotifyRoutine env cmd).2 (s.cbNotifyRoutine env cmd).1 := by
  cases cmd with
  | startDataProc => exact .of_silent rfl rfl rfl
  | stopDataProc =>
    have hperm := (flushNodes_perm matchSnapshotNotifications s.dataQ).filterMap
      CallbackArgm.release
    rw [List.filterMap_append] at hperm
    simpa [ReleasesOnce, cbNotifyRoutine, pendingData, releasedData, queuedData,
      releaseNotifications, List.filterMap_map, Function.comp_def] using hperm
  | doNextJob =>
    simp only [cbNotifyRoutine]
    split
    · exact .of_silent rfl rfl rfl
    · rename_i cb dataQ hdata
      -- the notification leaves the queue, is delivered or dropped, and then released
      have hout : ∀ (s₁ : CbNotifier α) (es : List (NotifierEvt α)), s₁.dataQ = dataQ →
          releasedData es = [] → queuedData es = [] →
          ReleasesOnce s (es ++ releaseNotifications [cb]) s₁ := by
        intro s₁ es hd hr hq
        simp only [ReleasesOnce, pendingData, releasedData_append, queuedData_append, hd, hr, hq,
          hdata, releasedData_releaseNotifications, queuedData_releaseNotifications,
          List.nil_append, List.append_nil]
        rw [← List.filterMap_append, List.singleton_append]
      by_cases hen : env.msgTypeEnabled cb.msgType = true
      · rw [if_pos hen]
        obtain ⟨hd, hr, hq⟩ := deliver_silent cb { s with dataQ := dataQ }
        exact hout _ _ hd hr hq
      · rw [if_neg hen]
        exact hout _ _ rfl rfl rfl
  | exit => simp [ReleasesOnce, cbNotifyRoutine, pendingData]

theorem ReleasesOnce.step {i : NotifierInput α} (hs : s.step i = some (s', o)) :
    ReleasesOnce s o s' := by
  cases transition_of_step hs with
  | notify cb mem => exact releasesOnce_notifyCallback cb mem s
  | start mem | stop mem | exit mem | idle env => exact .of_silent rfl rfl rfl
  | @cmd env cmd cmds hrun hcmds =>
    exact releasesOnce_cbNotifyRoutine env cmd (s.withCmds cmds)

theorem queuedData_next {env : NotifierEnv} (hs : s.step (.next env) = some (s', o)) :
    queuedData o = [] := by
  cases transition_of_step hs with
  | idle => rfl
  | @cmd env cmd cmds hrun hcmds =>
    cases cmd with
    | startDataProc => rfl
    | stopDataProc =>
      simp only [cbNotifyRoutine, queuedData_append, queuedData_releaseNotifications]
      rfl
    | doNextJob =>
      simp only [cbNotifyRoutine]
      split
      · rfl
      · split
        · rw [queuedData_append, queuedData_releaseNotifications, (deliver_silent _ _).2.2]
          rfl
        · rw [queuedData_append, queuedData_releaseNotifications]
          rfl
    | exit => exact queuedData_releaseNotifications _

theorem ReleasesOnce.trans {s'' : CbNotifier α} (h : ReleasesOnce s os s')
    (h' : ReleasesOnce s' o s'') : ReleasesOnce s (os ++ o) s'' := by
  have h₁ : (releasedData os ++ (releasedData o ++ pendingData s'')).Perm
      (releasedData os ++ (pendingData s' ++ queuedData o)) := h'.append_left _
  have h₂ : (releasedData os ++ pendingData s' ++ queuedData o).Perm
      (pendingData s ++ queuedData os ++ queuedData o) := h.append_right _
  simp only [ReleasesOnce, releasedData_append, queuedData_append, List.append_assoc] at h₁ h₂ ⊢
  exact h₁.trans h₂

def EndsEmpty (s : CbNotifier α) : Prop :=
  (.exit ∈ s.cmds → s.active = false) ∧ (s.running = false → s.active = false ∧ s.dataQ = [])

theorem EndsEmpty.notifyCallback {cb : CallbackArgm α} {mem : NotifyMem} (h : EndsEmpty s) :
    EndsEmpty (s.notifyCallback cb mem).2.1 := by
  unfold CbNotifier.notifyCallback
  split
  · exact h
  rename_i hact
  split
  · exact h
  split
  · have hact' : s.active = true := by simpa using hact
    refine ⟨fun hmem => ?_, fun hrun => ?_⟩
    · rcases mem_sendCmd hmem with heq | hmem
      · cases heq
      · exact h.1 hmem
    · rw [(h.2 hrun).1] at hact'
      cases hact'
  · exact h

theorem running_cbNotifyRoutine (env : NotifierEnv) {cmd : CmdType} (hne : cmd ≠ .exit) :
    (s.cbNotifyRoutine env cmd).1.running = s.running ∧
      (s.cbNotifyRoutine env cmd).1.active = s.active ∧
      (s.cbNotifyRoutine env cmd).1.cmds = s.cmds := by
  cases cmd with
  | startDataProc | stopDataProc => exact ⟨rfl, rfl, rfl⟩
  | exit => exact absurd rfl hne
  | doNextJob =>
    simp only [cbNotifyRoutine]
    split
    · exact ⟨rfl, rfl, rfl⟩
    · split
      · unfold deliver
        split
        · exact ⟨rfl, rfl, rfl⟩
        · exact ⟨rfl, rfl, rfl⟩
        · exact ⟨rfl, rfl, rfl⟩
        · split <;> exact ⟨rfl, rfl, rfl⟩
      · exact ⟨rfl, rfl, rfl⟩

theorem EndsEmpty.send {cmd : CmdType} {mem : CmdMem} (h : EndsEmpty s) (hne : cmd ≠ .exit) :
    EndsEmpty (s.withCmds (sendCmd cmd true mem s.cmds).2) := by
  refine ⟨fun hmem => ?_, h.2⟩
  rcases mem_sendCmd hmem with heq | hmem
  · exact absurd heq.symm hne
  · exact h.1 hmem

theorem EndsEmpty.step {i : NotifierInput α} (h : EndsEmpty s) (hs : s.step i = some (s', o)) :
    EndsEmpty s' := by
  cases transition_of_step hs with
  | notify cb mem => exact h.notifyCallback
  | start mem | stop mem => exact h.send (by decide)
  | exit mem => exact ⟨fun _ => rfl, fun hrun => ⟨rfl, (h.2 hrun).2⟩⟩
  | idle env => exact h
  | @cmd env cmd cmds hrun hcmds =>
    by_cases hexit : cmd = .exit
    · subst hexit
      have hact : s.active = false := h.1 (hcmds ▸ List.mem_cons_self)
      exact ⟨fun _ => hact, fun _ => ⟨hact, rfl⟩⟩
    · obtain ⟨hr, ha, hc⟩ := running_cbNotifyRoutine (s := s.withCmds cmds) env hexit
      refine ⟨fun hmem => ?_, fun hstop => ?_⟩
      · rw [hc] at hmem
        rw [ha]
        exact h.1 (hcmds ▸ List.mem_cons_of_mem _ hmem)
      · -- only `EXIT` ends the thread
        rw [hr, show (s.withCmds cmds).running = true from hrun] at hstop
        cases hstop

end Release

/-! ### Sessions -/

/-- What happens in a session, in order. -/
inductive Mark where
  | done
  | delivered
  deriving DecidableEq, Repr

/-- A picture session: the expected number of snapshots and what happened. -/
structure Session where
  expected : UInt32
  marks : List Mark
  deriving DecidableEq, Repr

def Session.snapshots (x : Session) : ℕ := x.marks.count .delivered

def Session.add (x : Session) (m : Mark) : Session := { x with marks := x.marks ++ [m] }

/-- The sessions that are over and the one that goes on. -/
structure Log where
  closed : List Session
  current : Option Session
  deriving DecidableEq, Repr

namespace Log

variable {α : Type*}

def all (l : Log) : List Session := l.closed ++ l.current.toList

def add (l : Log) : NotifierEvt α → Log
  | .start n => ⟨l.all, some ⟨n, []⟩⟩
  | .stop => ⟨l.all, none⟩
  | .snapshotDone => { l with current := l.current.map (·.add .done) }
  | .snapshot _ => { l with current := l.current.map (·.add .delivered) }
  | _ => l

end Log

/-- `d` snapshots, with `SNAPSHOT_DONE` raised right before those at which `p`. -/
def raisedAt (p : ℕ → Prop) [DecidablePred p] : ℕ → List Mark
  | 0 => []
  | d + 1 => raisedAt p d ++ if p (d + 1) then [.done, .delivered] else [.delivered]

section RaisedAt

variable {p q : ℕ → Prop} [DecidablePred p] [DecidablePred q] {d e n : ℕ}

end RaisedAt

/-- The times a counter of 32 bits stands at `n`. -/
def Recurs (n k : ℕ) : Prop := 0 < n ∧ k % 2 ^ 32 = n

instance (n : ℕ) : DecidablePred (Recurs n) := fun _ => inferInstanceAs (Decidable (_ ∧ _))

/-- What the thread does in a session. -/
def Session.Counted (x : Session) : Prop :=
  x.expected.toNat < 2 ^ 8 ∧ x.marks = raisedAt (Recurs x.expected.toNat) x.snapshots

section Counting

open CbNotifier

variable {α : Type*} {l : Log} {s s' : CbNotifier α} {o os : List (NotifierEvt α)}

/-- The thread's counters stand as the history says. -/
structure Log.Counts (l : Log) (s : CbNotifier α) : Prop where
  closed : ∀ x ∈ l.closed, x.Counted
  inactive : l.current = none → s.isSnapshotActive = false
  current : ∀ x, l.current = some x → x.Counted ∧ s.numOfSnapshotExpected = x.expected ∧
    s.numOfSnapshotRcvd.toNat = x.snapshots % 2 ^ 32

theorem Log.Counts.all (h : l.Counts s) : ∀ x ∈ l.all, x.Counted := by
  intro x hx
  rcases List.mem_append.mp hx with hx | hx
  · exact h.closed x hx
  · exact (h.current x (Option.mem_toList.mp hx)).1

theorem Log.Counts.congr (h : l.Counts s) (hact : s'.isSnapshotActive = s.isSnapshotActive)
    (hexp : s'.numOfSnapshotExpected = s.numOfSnapshotExpected)
    (hrcvd : s'.numOfSnapshotRcvd = s.numOfSnapshotRcvd) : l.Counts s' := by
  refine ⟨h.closed, fun hnone => hact ▸ h.inactive hnone, fun x hx => ?_⟩
  rw [hexp, hrcvd]
  exact h.current x hx

theorem Log.foldl_releaseNotifications (cbs : List (CallbackArgm α)) (l : Log) :
    (releaseNotifications cbs).foldl Log.add l = l := by
  unfold releaseNotifications
  induction cbs.filterMap CallbackArgm.release with
  | nil => rfl
  | cons a as ih => exact ih

theorem Session.Counted.deliver {x : Session} (h : x.Counted) :
    (if Recurs x.expected.toNat (x.snapshots + 1) then (x.add .done).add .delivered
      else x.add .delivered).Counted ∧
    (if Recurs x.expected.toNat (x.snapshots + 1) then (x.add .done).add .delivered
      else x.add .delivered).snapshots = x.snapshots + 1 := by
  obtain ⟨hlt, hmarks⟩ := h
  have hsnap : ∀ ms : List Mark, ms.count .delivered = 1 →
      Session.snapshots ⟨x.expected, x.marks ++ ms⟩ = x.snapshots + 1 := by
    intro ms hms
    rw [snapshots, List.count_append, hms]
    rfl
  split
  · rename_i hp
    have hs : ((x.add .done).add .delivered).snapshots = x.snapshots + 1 := by
      simpa [add] using hsnap [.done, .delivered] rfl
    refine ⟨⟨hlt, ?_⟩, hs⟩
    rw [hs, show ((x.add .done).add .delivered).expected = x.expected from rfl, raisedAt,
      if_pos hp, ← hmarks]
    simp [add]
  · rename_i hp
    have hs : (x.add .delivered).snapshots = x.snapshots + 1 := hsnap [.delivered] rfl
    refine ⟨⟨hlt, ?_⟩, hs⟩
    rw [hs, show (x.add .delivered).expected = x.expected from rfl, raisedAt, if_neg hp, ← hmarks]
    rfl

theorem toNat_succ_eq {r : UInt32} {d : ℕ} (h : r.toNat = d % 2 ^ 32) :
    (r + 1).toNat = (d + 1) % 2 ^ 32 := by
  rw [UInt32.toNat_add, h, show (1 : UInt32).toNat = 1 from rfl, Nat.mod_add_mod]

theorem Log.Counts.deliver (h : l.Counts s) (cb : CallbackArgm α) :
    ((s.deliver cb).2.foldl Log.add l).Counts (s.deliver cb).1 := by
  unfold CbNotifier.deliver
  cases cb.cbType with
  | notify => cases s.notifyCb <;> exact h
  | data => cases s.dataCb <;> exact h
  | dataTimestamp => cases s.dataCbTimestamp <;> exact h
  | snapshot =>
    dsimp only
    by_cases hact : (s.isSnapshotActive && s.dataCb) = true
    · rw [if_pos hact]
      -- an active thread is in a session
      obtain ⟨x, hx⟩ : ∃ x, l.current = some x := by
        cases hcur : l.current with
        | some x => exact ⟨x, rfl⟩
        | none =>
          rw [h.inactive hcur] at hact
          cases hact
      obtain ⟨hcount, hexp, hrcvd⟩ := h.current x hx
      have hrcvd' := toNat_succ_eq hrcvd
      have hraise : (0 < s.numOfSnapshotExpected ∧
          s.numOfSnapshotExpected = s.numOfSnapshotRcvd + 1) ↔
          Recurs x.expected.toNat (x.snapshots + 1) := by
        rw [hexp, Recurs, ← hrcvd', ← UInt32.toNat_inj, UInt32.lt_iff_toNat_lt, eq_comm]
        exact Iff.rfl
      obtain ⟨hcount', hsnap⟩ := hcount.deliver
      simp only [hraise]
      refine ⟨?_, ?_, ?_⟩
      · split <;> exact h.closed
      · split <;> simp [Log.add, hx]
      · intro y hy
        have hy' : (if Recurs x.expected.toNat (x.snapshots + 1)
            then (x.add .done).add .delivered else x.add .delivered) = y := by
          split at hy <;> rename_i hr
          · rw [if_pos hr]
            simpa [Log.add, hx] using hy
          · rw [if_neg hr]
            simpa [Log.add, hx] using hy
        rw [hy'] at hcount' hsnap
        refine ⟨hcount', ?_, ?_⟩
        · rw [← hy']
          split <;> exact hexp
        · rw [hsnap]
          exact hrcvd'
    · rw [if_neg hact]
      exact h

theorem Log.Counts.cbNotifyRoutine (h : l.Counts s) (env : NotifierEnv) (cmd : CmdType) :
    ((s.cbNotifyRoutine env cmd).2.foldl Log.add l).Counts (s.cbNotifyRoutine env cmd).1 := by
  cases cmd with
  | startDataProc =>
    refine ⟨h.all, nofun, fun x hx => ?_⟩
    cases hx
    refine ⟨⟨?_, rfl⟩, rfl, rfl⟩
    rw [UInt8.toNat_toUInt32]
    exact env.numOfSnapshotsExpected.toNat_lt
  | stopDataProc =>
    simp only [CbNotifier.cbNotifyRoutine, List.foldl_append, foldl_releaseNotifications]
    exact ⟨h.all, fun _ => rfl, nofun⟩
  | doNextJob =>
    simp only [CbNotifier.cbNotifyRoutine]
    split
    · exact h
    · rename_i cb dataQ _
      dsimp only
      rw [List.foldl_append, foldl_releaseNotifications]
      have h' : l.Counts { s with dataQ := dataQ } := h.congr rfl rfl rfl
      split
      · exact h'.deliver cb
      · exact h'
  | exit =>
    simp only [CbNotifier.cbNotifyRoutine, foldl_releaseNotifications]
    exact h.congr rfl rfl rfl

theorem Log.Counts.step {i : NotifierInput α} (h : l.Counts s) (hs : s.step i = some (s', o)) :
    (o.foldl Log.add l).Counts s' := by
  cases transition_of_step hs with
  | notify cb mem =>
    unfold CbNotifier.notifyCallback
    split
    · exact h
    split
    · exact h
    split <;> exact h.congr rfl rfl rfl
  | start mem | stop mem | exit mem => exact h.congr rfl rfl rfl
  | idle env => exact h
  | @cmd env cmd cmds hrun hcmds =>
    have h' : l.Counts (s.withCmds cmds) := h.congr rfl rfl rfl
    exact h'.cbNotifyRoutine env cmd

end Counting

def oneSnapshot : NotifierEnv := ⟨fun _ => true, 1⟩

end Qcamera

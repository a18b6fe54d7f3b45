/-
The poll thread and the thread that registers file descriptors with it,
`mm_camera_thread.c`.

The client changes the table of entries and then tells the poll thread through a pipe;
the poll thread makes its array of descriptors from the table and signals a condition
that the client waits for.

* `Phase.step` — the phases of the handshake, one after the other;
* `Inv`, `Inv.step` — what the handshake keeps: between two calls the array is that of
  the table.

The operations on the mutex, the condition and the pipe are single steps, and so is
each write to the table and each pass of the loops of the poll thread.
-/
import HdxCommon.Liveness
import HdxCommon.Runs

namespace Poll

/-! ### State -/

/-- `mm_camera_poll_thread_type_t`. -/
inductive PollType where
  | evt
  | data
  deriving DecidableEq

/-- `MAX_STREAM_NUM_IN_BUNDLE`. -/
def maxStreamNumInBundle : ℕ := 4

structure Callback where
  stream : ℕ
  fn : ℕ
  deriving DecidableEq

/-- `mm_camera_poll_entry_t`. -/
structure Entry where
  fd : ℤ
  handler : ℕ
  notifyCb : Option Callback
  userData : ℕ
  deriving DecidableEq

inductive Call where
  | addPollFd (handler : ℕ) (fd : ℤ) (notifyCb : Option ℕ) (userData : ℕ)
  | delPollFd (handler : ℕ)
  deriving DecidableEq

/-- The fields of an entry, in the order in which they are written. -/
inductive Field where
  | fd
  | handler
  | notifyCb
  | userData
  deriving DecidableEq

/-- Where the client is in a call: it writes the entry, takes the mutex, resets the
status, writes to the pipe, looks at the status, waits for the condition, is woken up,
and gives the mutex back. -/
inductive ClientPc where
  | entry (fields : List Field)
  | lock
  | reset
  | write
  | check
  | waiting
  | woken
  | unlock
  deriving DecidableEq

/-- Where the poll thread is: in `poll`, in the loop over the descriptors with those
that are ready, in `mm_camera_poll_proc_pipe`, or in `mm_camera_poll_sig_done`. -/
inductive PollerPc where
  | poll
  | notify (i : ℕ) (ready : List ℕ)
  | read
  | rebuild (i : ℕ)
  | sigLock
  | sigSet
  | sigSignal
  | sigUnlock
  deriving DecidableEq

inductive Thread where
  | client
  | poller
  deriving DecidableEq

/-- `mm_camera_poll_thread_t`, with the two threads.  `pollFds` is the array without
its first element, which is the pipe. -/
structure State where
  entries : ℕ → Entry
  pollFds : List ℤ
  pipe : ℕ
  mutex : Option Thread
  status : Bool
  client : Option (Call × ClientPc)
  poller : PollerPc

/-- After `mm_camera_poll_thread_launch`. -/
def State.init : State := ⟨fun _ => ⟨0, 0, none, 0⟩, [], 0, none, true, none, .poll⟩

/-- What can happen: the client begins a call, or one of the threads takes its next
step; for `poll` the descriptors that are ready are given. -/
inductive Act where
  | call (c : Call)
  | client
  | poller (ready : List ℤ)
  deriving DecidableEq

def Act.thread : Act → Option Thread
  | .call _ => none
  | .client => some .client
  | .poller _ => some .poller

inductive Event where
  | returned (c : Call) (rc : ℤ)
  | notified (i : ℕ) (cb : Callback) (userData : ℕ)
  deriving DecidableEq

/-! ### The client -/

/-- `mm_camera_util_get_index_by_handler` for data, and 0 for events. -/
def index (ty : PollType) (handler : ℕ) : ℕ :=
  match ty with
  | .data => handler % 256
  | .evt => 0

def Call.handler : Call → ℕ
  | .addPollFd handler _ _ _ => handler
  | .delPollFd handler => handler

def Call.fields : Call → List Field
  | .addPollFd .. => [.fd, .handler, .notifyCb, .userData]
  | .delPollFd _ => [.fd, .handler, .notifyCb]

/-- The call goes on to write its entry. -/
def Call.Accepted (ty : PollType) (s : State) (c : Call) : Prop :=
  match c with
  | .addPollFd handler _ _ _ => index ty handler < maxStreamNumInBundle
  | .delPollFd handler => index ty handler < maxStreamNumInBundle ∧
      handler = (s.entries (index ty handler)).handler

instance (ty : PollType) (s : State) (c : Call) : Decidable (c.Accepted ty s) :=
  match c with
  | .addPollFd .. => inferInstanceAs (Decidable (_ < _))
  | .delPollFd _ => inferInstanceAs (Decidable (_ ∧ _))

def Call.writeField (c : Call) (e : Entry) : Field → Entry
  | .fd => match c with
    | .addPollFd _ fd _ _ => { e with fd := fd }
    | .delPollFd _ => { e with fd := -1 }
  | .handler => match c with
    | .addPollFd handler _ _ _ => { e with handler := handler }
    | .delPollFd _ => { e with handler := 0 }
  | .notifyCb => match c with
    | .addPollFd handler _ cb _ => { e with notifyCb := cb.map (⟨handler, ·⟩) }
    | .delPollFd _ => { e with notifyCb := none }
  | .userData => match c with
    | .addPollFd _ _ _ userData => { e with userData := userData }
    | .delPollFd _ => e

/-- The beginning of `mm_camera_poll_thread_add_poll_fd` and
`mm_camera_poll_thread_del_poll_fd`. -/
def beginCall (ty : PollType) (s : State) (c : Call) : Option (State × List Event) :=
  match s.client with
  | some _ => none
  | none =>
    if c.Accepted ty s then some ({ s with client := some (c, .entry c.fields) }, [])
    else some (s, [.returned c (-1)])

/-- The next step of the client: the entry, and then `mm_camera_poll_sig`. -/
def clientStep (ty : PollType) (s : State) : Option (State × List Event) :=
  match s.client with
  | none => none
  | some (c, pc) =>
    match pc with
    | .entry (f :: fs) =>
      let i := index ty c.handler
      some ({ s with
        entries := Function.update s.entries i (c.writeField (s.entries i) f)
        client := some (c, .entry fs) }, [])
    | .entry [] => some ({ s with client := some (c, .lock) }, [])
    | .lock =>
      if s.mutex = none then
        some ({ s with mutex := some .client, client := some (c, .reset) }, [])
      else none
    | .reset => some ({ s with status := false, client := some (c, .write) }, [])
    | .write => some ({ s with pipe := s.pipe + 1, client := some (c, .check) }, [])
    | .check =>
      if s.status = false then
        some ({ s with mutex := none, client := some (c, .waiting) }, [])
      else some ({ s with client := some (c, .unlock) }, [])
    | .waiting => none
    | .woken =>
      if s.mutex = none then
        some ({ s with mutex := some .client, client := some (c, .unlock) }, [])
      else none
    | .unlock => some ({ s with mutex := none, client := none }, [.returned c 0])

/-! ### The poll thread -/

def Entry.pollFd (e : Entry) : ℤ := if 0 < e.fd then e.fd else -1

def State.readyAt (s : State) (ready : List ℤ) : List ℕ :=
  (List.range s.pollFds.length).filter fun i =>
    match s.pollFds[i]? with
    | some fd => 0 ≤ fd && fd ∈ ready
    | none => false

def rebuildStep (ty : PollType) (s : State) (i : ℕ) : State :=
  match ty with
  | .data =>
    if i < maxStreamNumInBundle then
      { s with pollFds := s.pollFds ++ [(s.entries i).pollFd], poller := .rebuild (i + 1) }
    else { s with poller := .sigLock }
  | .evt =>
    if 0 < (s.entries 0).fd then
      { s with pollFds := s.pollFds ++ [(s.entries 0).fd], poller := .sigLock }
    else { s with poller := .sigLock }

/-- The callback of entry `i`, if there is one. -/
def State.callbacks (s : State) (i : ℕ) : List Event :=
  match (s.entries i).notifyCb with
  | some cb => [.notified i cb (s.entries i).userData]
  | none => []

/-- The next step of the poll thread: `mm_camera_poll_fn`, `mm_camera_poll_proc_pipe`
and `mm_camera_poll_sig_done`.  If there is something on the pipe, only that is looked
at. -/
def pollerStep (ty : PollType) (s : State) (ready : List ℤ) : Option (State × List Event) :=
  match s.poller with
  | .poll =>
    if 0 < s.pipe then some ({ s with poller := .read }, [])
    else if s.readyAt ready = [] then none
    else some ({ s with poller := .notify 0 (s.readyAt ready) }, [])
  | .notify i positions =>
    if i < s.pollFds.length then
      some ({ s with poller := .notify (i + 1) positions },
        if i ∈ positions then s.callbacks i else [])
    else some ({ s with poller := .poll }, [])
  | .read => some ({ s with pipe := s.pipe - 1, pollFds := [], poller := .rebuild 0 }, [])
  | .rebuild i => some (rebuildStep ty s i, [])
  | .sigLock =>
    if s.mutex = none then some ({ s with mutex := some .poller, poller := .sigSet }, [])
    else none
  | .sigSet => some ({ s with status := true, poller := .sigSignal }, [])
  | .sigSignal =>
    match s.client with
    | some (c, .waiting) => some ({ s with client := some (c, .woken), poller := .sigUnlock }, [])
    | _ => some ({ s with poller := .sigUnlock }, [])
  | .sigUnlock => some ({ s with mutex := none, poller := .poll }, [])

def step (ty : PollType) (s : State) : Act → Option (State × List Event)
  | .call c => beginCall ty s c
  | .client => clientStep ty s
  | .poller ready => pollerStep ty s ready

/-! ### The handshake -/

def State.Outside (s : State) : Prop :=
  s.client = none ∨ (∃ c fs, s.client = some (c, .entry fs)) ∨ ∃ c, s.client = some (c, .lock)

/-- The client has written to the pipe, and looks at the status or waits. -/
def State.Asking (s : State) : Prop :=
  ∃ c, s.client = some (c, .check) ∧ s.status = false ∧ s.mutex = some .client ∨
    s.client = some (c, .waiting) ∧ s.mutex = none

def PollerPc.Polling : PollerPc → Prop
  | .poll | .notify _ _ => True
  | _ => False

def PollerPc.Rebuilding : PollerPc → Prop
  | .rebuild _ | .sigLock => True
  | _ => False

/-- The phases of the handshake. -/
inductive Phase (s : State) : Prop
  | outside (hclient : s.Outside) (hpipe : s.pipe = 0) (hmutex : s.mutex = none)
      (hpoll : s.poller.Polling)
  | locked (c : Call)
      (hclient : s.client = some (c, .reset) ∨ s.client = some (c, .write) ∧ s.status = false)
      (hpipe : s.pipe = 0) (hmutex : s.mutex = some .client) (hpoll : s.poller.Polling)
  | asked (hask : s.Asking) (hpipe : s.pipe = 1) (hpoll : s.poller.Polling ∨ s.poller = .read)
  | rebuilding (hask : s.Asking) (hpipe : s.pipe = 0) (hpoll : s.poller.Rebuilding)
  | signalling (c : Call) (hclient : s.client = some (c, .waiting)) (hpipe : s.pipe = 0)
      (hmutex : s.mutex = some .poller) (hpoll : s.poller = .sigSet ∨ s.poller = .sigSignal)
  | woken (c : Call) (hclient : s.client = some (c, .woken)) (hpipe : s.pipe = 0)
      (hpoll : s.mutex = some .poller ∧ s.poller = .sigUnlock ∨
        s.mutex = none ∧ s.poller.Polling)
  | leaving (c : Call) (hclient : s.client = some (c, .unlock)) (hpipe : s.pipe = 0)
      (hmutex : s.mutex = some .client) (hpoll : s.poller.Polling)

variable {ty : PollType} {s s' : State} {a : Act} {o : List Event}

theorem State.Outside.pc {c : Call} {pc : ClientPc} (h : s.Outside)
    (hc : s.client = some (c, pc)) : (∃ fs, pc = .entry fs) ∨ pc = .lock := by
  rcases h with hc' | ⟨c', fs, hc'⟩ | ⟨c', hc'⟩
  · cases hc.symm.trans hc'
  · cases hc.symm.trans hc'
    exact Or.inl ⟨fs, rfl⟩
  · cases hc.symm.trans hc'
    exact Or.inr rfl

theorem Phase.of_outside (h : Phase s) (hout : s.Outside) :
    s.pipe = 0 ∧ s.mutex = none ∧ s.poller.Polling := by
  cases h with
  | outside _ hpipe hmutex hpoll => exact ⟨hpipe, hmutex, hpoll⟩
  | locked c hc => rcases hc with hc | ⟨hc, -⟩ <;> simpa using hout.pc hc
  | asked hask | rebuilding hask => obtain ⟨c, ⟨hc, -⟩ | ⟨hc, -⟩⟩ := hask <;> simpa using hout.pc hc
  | signalling c hc | woken c hc | leaving c hc => simpa using hout.pc hc

theorem Phase.status_of_check {c : Call} (h : Phase s) (hc : s.client = some (c, .check)) :
    s.status = false := by
  cases h with
  | outside hout => simpa using hout.pc hc
  | locked c' hc' => rcases hc' with hc' | ⟨hc', -⟩ <;> cases hc.symm.trans hc'
  | asked hask | rebuilding hask =>
    obtain ⟨c', ⟨-, hstatus, -⟩ | ⟨hc', -⟩⟩ := hask
    · exact hstatus
    · cases hc.symm.trans hc'
  | signalling c' hc' | woken c' hc' | leaving c' hc' => cases hc.symm.trans hc'

theorem Phase.beginCall {c : Call} (h : Phase s) (hs : beginCall ty s c = some (s', o)) :
    Phase s' := by
  rw [Poll.beginCall] at hs
  split at hs
  · cases hs
  · rename_i hidle
    obtain ⟨hpipe, hmutex, hpoll⟩ := h.of_outside (Or.inl hidle)
    split_ifs at hs
    · cases hs
      exact .outside (Or.inr (Or.inl ⟨c, c.fields, rfl⟩)) hpipe hmutex hpoll
    · cases hs
      exact h

theorem Phase.clientStep (h : Phase s) (hs : clientStep ty s = some (s', o)) : Phase s' := by
  cases h with
  | outside hclient hpipe hmutex hpoll =>
    rcases hclient with hc | ⟨c, fs, hc⟩ | ⟨c, hc⟩
    · simp [Poll.clientStep, hc] at hs
    · cases fs with
      | nil =>
        simp only [Poll.clientStep, hc] at hs
        cases hs
        exact .outside (Or.inr (Or.inr ⟨c, rfl⟩)) hpipe hmutex hpoll
      | cons f fs =>
        simp only [Poll.clientStep, hc] at hs
        cases hs
        exact .outside (Or.inr (Or.inl ⟨c, fs, rfl⟩)) hpipe hmutex hpoll
    · simp only [Poll.clientStep, hc, hmutex, if_true] at hs
      cases hs
      exact .locked c (Or.inl rfl) hpipe rfl hpoll
  | locked c hclient hpipe hmutex hpoll =>
    rcases hclient with hc | ⟨hc, hstatus⟩
    · simp only [Poll.clientStep, hc] at hs
      cases hs
      exact .locked c (Or.inr ⟨rfl, rfl⟩) hpipe hmutex hpoll
    · simp only [Poll.clientStep, hc] at hs
      cases hs
      exact .asked ⟨c, Or.inl ⟨rfl, hstatus, hmutex⟩⟩ (by simp [hpipe]) (Or.inl hpoll)
  | asked hask hpipe hpoll =>
    obtain ⟨c, ⟨hc, hstatus, -⟩ | ⟨hc, -⟩⟩ := hask
    · simp only [Poll.clientStep, hc, hstatus, if_true] at hs
      cases hs
      exact .asked ⟨c, Or.inr ⟨rfl, rfl⟩⟩ hpipe hpoll
    · simp [Poll.clientStep, hc] at hs
  | rebuilding hask hpipe hpoll =>
    obtain ⟨c, ⟨hc, hstatus, -⟩ | ⟨hc, -⟩⟩ := hask
    · simp only [Poll.clientStep, hc, hstatus, if_true] at hs
      cases hs
      exact .rebuilding ⟨c, Or.inr ⟨rfl, rfl⟩⟩ hpipe hpoll
    · simp [Poll.clientStep, hc] at hs
  | signalling c hc => simp [Poll.clientStep, hc] at hs
  | woken c hc hpipe hpoll =>
    rcases hpoll with ⟨hmutex, -⟩ | ⟨hmutex, hpoll⟩
    · simp [Poll.clientStep, hc, hmutex] at hs
    · simp only [Poll.clientStep, hc, hmutex, if_true] at hs
      cases hs
      exact .leaving c rfl hpipe rfl hpoll
  | leaving c hc hpipe hmutex hpoll =>
    simp only [Poll.clientStep, hc] at hs
    cases hs
    exact .outside (Or.inl rfl) hpipe rfl hpoll

theorem pollerStep_polling {ready : List ℤ} (hpoll : s.poller.Polling)
    (hs : pollerStep ty s ready = some (s', o)) :
    ∃ p, s' = { s with poller := p } ∧ (p.Polling ∨ 0 < s.pipe ∧ p = .read) := by
  cases hp : s.poller with
  | poll =>
    simp only [pollerStep, hp] at hs
    split_ifs at hs with hpipe hready
    · cases hs
      exact ⟨.read, rfl, Or.inr ⟨hpipe, rfl⟩⟩
    · cases hs
      exact ⟨_, rfl, Or.inl trivial⟩
  | notify i positions =>
    simp only [pollerStep, hp] at hs
    split_ifs at hs with hi
    all_goals
      cases hs
      exact ⟨_, rfl, Or.inl trivial⟩
  | _ => simp [hp, PollerPc.Polling] at hpoll

theorem Phase.pollerStep {ready : List ℤ} (h : Phase s)
    (hs : pollerStep ty s ready = some (s', o)) : Phase s' := by
  cases h with
  | outside hclient hpipe hmutex hpoll =>
    obtain ⟨p, rfl, hp | ⟨hpos, -⟩⟩ := pollerStep_polling hpoll hs
    · exact .outside hclient hpipe hmutex hp
    · omega
  | locked c hclient hpipe hmutex hpoll =>
    obtain ⟨p, rfl, hp | ⟨hpos, -⟩⟩ := pollerStep_polling hpoll hs
    · exact .locked c hclient hpipe hmutex hp
    · omega
  | asked hask hpipe hpoll =>
    rcases hpoll with hpoll | hread
    · obtain ⟨p, rfl, hp⟩ := pollerStep_polling hpoll hs
      exact .asked hask hpipe (hp.imp_right And.right)
    · simp only [Poll.pollerStep, hread] at hs
      cases hs
      exact .rebuilding hask (by simp [hpipe]) trivial
  | rebuilding hask hpipe hpoll =>
    cases hp : s.poller with
    | rebuild i =>
      simp only [Poll.pollerStep, hp, rebuildStep] at hs
      cases hs
      cases ty <;> (split_ifs <;> exact .rebuilding hask hpipe trivial)
    | sigLock =>
      simp only [Poll.pollerStep, hp] at hs
      split_ifs at hs with hmutex
      cases hs
      obtain ⟨c, ⟨-, -, hheld⟩ | ⟨hc, -⟩⟩ := hask
      · cases hmutex.symm.trans hheld
      · exact .signalling c hc hpipe rfl (Or.inl rfl)
    | _ => simp [hp, PollerPc.Rebuilding] at hpoll
  | signalling c hc hpipe hmutex hpoll =>
    rcases hpoll with hp | hp
    · simp only [Poll.pollerStep, hp] at hs
      cases hs
      exact .signalling c hc hpipe hmutex (Or.inr rfl)
    · simp only [Poll.pollerStep, hp, hc] at hs
      cases hs
      exact .woken c rfl hpipe (Or.inl ⟨hmutex, rfl⟩)
  | woken c hc hpipe hpoll =>
    rcases hpoll with ⟨-, hp⟩ | ⟨hmutex, hpoll⟩
    · simp only [Poll.pollerStep, hp] at hs
      cases hs
      exact .woken c hc hpipe (Or.inr ⟨rfl, trivial⟩)
    · obtain ⟨p, rfl, hp | ⟨hpos, -⟩⟩ := pollerStep_polling hpoll hs
      · exact .woken c hc hpipe (Or.inr ⟨hmutex, hp⟩)
      · omega
  | leaving c hc hpipe hmutex hpoll =>
    obtain ⟨p, rfl, hp | ⟨hpos, -⟩⟩ := pollerStep_polling hpoll hs
    · exact .leaving c hc hpipe hmutex hp
    · omega

theorem Phase.step (h : Phase s) (hs : step ty s a = some (s', o)) : Phase s' := by
  cases a with
  | call c => exact h.beginCall hs
  | client => exact h.clientStep hs
  | poller ready => exact h.pollerStep hs

/-! ### The table -/

/-- The call of the client, and the fields that it has still to write. -/
def State.call (s : State) : Option Call := s.client.map Prod.fst

def State.pending (s : State) : List Field :=
  match s.client with
  | some (_, .entry fs) => fs
  | _ => []

/-- What a step does with the table: a call begins, writes a field, or returns; any
other step leaves it alone. -/
inductive TableStep (ty : PollType) (s : State) (a : Act) (s' : State) (o : List Event) : Prop
  | begins (c : Call) (ha : a = .call c) (hidle : s.client = none) (hacc : c.Accepted ty s)
      (hs' : s' = { s with client := some (c, .entry c.fields) }) (ho : o = [])
  | writes (c : Call) (f : Field) (fs : List Field) (ha : a = .client)
      (hc : s.client = some (c, .entry (f :: fs)))
      (hs' : s' = { s with
        entries := Function.update s.entries (index ty c.handler)
          (c.writeField (s.entries (index ty c.handler)) f)
        client := some (c, .entry fs) }) (ho : o = [])
  | returns (c : Call) (ha : a = .client) (hc : s.client = some (c, .unlock))
      (hs' : s' = { s with mutex := none, client := none }) (ho : o = [.returned c 0])
  | refuses (c : Call) (ha : a = .call c) (hidle : s.client = none) (hno : ¬ c.Accepted ty s)
      (hs' : s' = s) (ho : o = [.returned c (-1)])
  | keeps (hentries : s'.entries = s.entries) (hcall : s'.call = s.call)
      (hpending : s'.pending = s.pending)
      (ho : o = [] ∨ ∃ i, o = s.callbacks i)

theorem tableStep_client (hs : clientStep ty s = some (s', o)) :
    TableStep ty s .client s' o := by
  cases hc : s.client with
  | none => simp [clientStep, hc] at hs
  | some call =>
    obtain ⟨c, pc⟩ := call
    have hcall : ∀ {pc'}, (some (c, pc') : Option (Call × ClientPc)).map Prod.fst = s.call := by
      simp [State.call, hc]
    cases pc with
    | entry fs =>
      cases fs with
      | nil =>
        simp only [clientStep, hc] at hs
        cases hs
        exact .keeps rfl hcall (by simp [State.pending, hc]) (Or.inl rfl)
      | cons f fs =>
        simp only [clientStep, hc] at hs
        cases hs
        exact .writes c f fs rfl hc rfl rfl
    | unlock =>
      simp only [clientStep, hc] at hs
      cases hs
      exact .returns c rfl hc rfl rfl
    | waiting => simp [clientStep, hc] at hs
    | _ =>
      simp only [clientStep, hc] at hs
      try split_ifs at hs
      all_goals
        cases hs
        exact .keeps rfl hcall (by simp [State.pending, hc]) (Or.inl rfl)

theorem tableStep_poller {ready : List ℤ} (hs : pollerStep ty s ready = some (s', o)) :
    TableStep ty s (.poller ready) s' o := by
  cases hp : s.poller with
  | notify i positions =>
    simp only [pollerStep, hp] at hs
    split_ifs at hs
    · cases hs
      exact .keeps rfl rfl rfl (Or.inr ⟨i, rfl⟩)
    all_goals
      cases hs
      exact .keeps rfl rfl rfl (Or.inl rfl)
  | rebuild i =>
    simp only [pollerStep, hp, rebuildStep] at hs
    cases hs
    cases ty <;> (split_ifs <;> exact .keeps rfl rfl rfl (Or.inl rfl))
  | sigSignal =>
    simp only [pollerStep, hp] at hs
    split at hs
    · rename_i c hc
      cases hs
      exact .keeps rfl (by simp [State.call, hc]) (by simp [State.pending, hc]) (Or.inl rfl)
    · cases hs
      exact .keeps rfl rfl rfl (Or.inl rfl)
  | _ =>
    simp only [pollerStep, hp] at hs
    try split_ifs at hs
    all_goals
      cases hs
      exact .keeps rfl rfl rfl (Or.inl rfl)

theorem tableStep (hs : step ty s a = some (s', o)) : TableStep ty s a s' o := by
  cases a with
  | call c =>
    simp only [step, beginCall] at hs
    split at hs
    · cases hs
    · rename_i hidle
      split_ifs at hs with hacc
      · cases hs
        exact .begins c rfl hidle hacc rfl rfl
      · cases hs
        exact .refuses c rfl hidle hacc rfl rfl
  | client => exact tableStep_client hs
  | poller ready => exact tableStep_poller hs

theorem Call.writeField_idem (c : Call) (e : Entry) (f : Field) :
    c.writeField (c.writeField e f) f = c.writeField e f := by
  cases c <;> cases f <;> rfl

theorem Call.writeField_comm (c : Call) (e : Entry) (f g : Field) :
    c.writeField (c.writeField e f) g = c.writeField (c.writeField e g) f := by
  cases c <;> cases f <;> cases g <;> rfl

/-- What the table is like: the entry of a call has the fields that have been written,
callbacks are in the entries of their streams, and unless a call is changing the entry
its handler is that stream. -/
structure Table (ty : PollType) (s : State) : Prop where
  slot : ∀ c ∈ s.call, index ty c.handler < maxStreamNumInBundle
  written : ∀ c ∈ s.call, ∀ f ∈ c.fields, f ∉ s.pending →
    c.writeField (s.entries (index ty c.handler)) f = s.entries (index ty c.handler)
  tagged : ∀ k cb, (s.entries k).notifyCb = some cb →
    k = index ty cb.stream ∧ k < maxStreamNumInBundle
  owned : ∀ k cb, (s.entries k).notifyCb = some cb → (∀ c ∈ s.call, index ty c.handler ≠ k) →
    (s.entries k).handler = cb.stream

theorem Call.Accepted.slot {c : Call} (h : c.Accepted ty s) :
    index ty c.handler < maxStreamNumInBundle := by
  cases c with
  | addPollFd => exact h
  | delPollFd => exact h.1

theorem Call.writeField_notifyCb {c : Call} {e : Entry} {f : Field} {cb : Callback}
    (h : (c.writeField e f).notifyCb = some cb) : e.notifyCb = some cb ∨ cb.stream = c.handler := by
  cases c with
  | addPollFd handler fd fn userData =>
    cases f with
    | notifyCb =>
      obtain ⟨fn, -, rfl⟩ := Option.map_eq_some_iff.mp h
      exact Or.inr rfl
    | _ => exact Or.inl h
  | delPollFd handler =>
    cases f with
    | notifyCb => cases h
    | _ => exact Or.inl h

theorem Call.owned_of_written {c : Call} {e : Entry} {cb : Callback}
    (hwritten : ∀ f ∈ c.fields, c.writeField e f = e) (h : e.notifyCb = some cb) :
    e.handler = cb.stream := by
  have hcb := hwritten .notifyCb (by cases c <;> simp [Call.fields])
  have hhandler := hwritten .handler (by cases c <;> simp [Call.fields])
  cases c with
  | addPollFd handler fd fn userData =>
    rw [← hcb] at h
    obtain ⟨fn, -, rfl⟩ := Option.map_eq_some_iff.mp h
    rw [← hhandler]
    rfl
  | delPollFd handler =>
    rw [← hcb] at h
    cases h

theorem Table.step (h : Table ty s) (hs : step ty s a = some (s', o)) : Table ty s' := by
  cases tableStep hs with
  | begins c _ hidle hacc hs' =>
    subst hs'
    refine ⟨?_, ?_, h.tagged, ?_⟩
    · rintro c' hc'
      cases hc'
      exact hacc.slot
    · rintro c' hc' f hf hno
      cases hc'
      exact absurd hf hno
    · intro k cb hcb _
      exact h.owned k cb hcb (by simp [State.call, hidle])
  | writes c f fs _ hc hs' =>
    have hcall : c ∈ s.call := by simp [State.call, hc]
    have hpending : s.pending = f :: fs := by simp [State.pending, hc]
    subst hs'
    refine ⟨?_, ?_, ?_, ?_⟩
    · rintro c' hc'
      cases hc'
      exact h.slot c hcall
    · rintro c' hc' g hg hno
      cases hc'
      simp only [Function.update_self]
      by_cases hgf : g = f
      · subst hgf
        exact c.writeField_idem _ g
      · -- the other fields have been written before
        have hold := h.written c hcall g hg (by
          rw [hpending]
          exact fun hmem => (List.mem_cons.mp hmem).elim hgf hno)
        rw [c.writeField_comm, hold]
    · intro k cb hcb
      by_cases hk : k = index ty c.handler
      · subst hk
        simp only [Function.update_self] at hcb
        obtain hold | hown := Call.writeField_notifyCb hcb
        · exact h.tagged _ cb hold
        · exact ⟨by rw [hown], h.slot c hcall⟩
      · simp only [Function.update_of_ne hk] at hcb
        exact h.tagged k cb hcb
    · intro k cb hcb hfree
      have hk : k ≠ index ty c.handler := fun hk => hfree c rfl hk.symm
      simp only [Function.update_of_ne hk] at hcb ⊢
      refine h.owned k cb hcb fun c' hc' => ?_
      obtain rfl : c = c' := Option.some.inj (hcall.symm.trans hc')
      exact fun hk' => hk hk'.symm
  | returns c _ hc hs' =>
    have hcall : c ∈ s.call := by simp [State.call, hc]
    have hpending : s.pending = [] := by simp [State.pending, hc]
    subst hs'
    refine ⟨by simp [State.call], by simp [State.call], h.tagged, ?_⟩
    intro k cb hcb _
    by_cases hk : k = index ty c.handler
    · subst hk
      exact Call.owned_of_written (fun f hf => h.written c hcall f hf (by simp [hpending])) hcb
    · refine h.owned k cb hcb fun c' hc' => ?_
      obtain rfl : c = c' := Option.some.inj (hcall.symm.trans hc')
      exact fun hk' => hk hk'.symm
  | refuses _ _ _ _ hs' =>
    subst hs'
    exact h
  | keeps hentries hcall hpending =>
    exact ⟨hcall ▸ h.slot, by rw [hcall, hentries, hpending]; exact h.written,
      hentries ▸ h.tagged, by rw [hentries, hcall]; exact h.owned⟩

/-! ### The array -/

def Slot (ty : PollType) (k : ℕ) : Prop :=
  match ty with
  | .data => k < maxStreamNumInBundle
  | .evt => k = 0

/-- The descriptor of entry `k` is polled, and no other at its position. -/
def SyncedAt (s : State) (k : ℕ) : Prop :=
  ∀ fd, 0 < fd → (s.pollFds[k]? = some fd ↔ (s.entries k).fd = fd)

/-- The array as far as it has been made. -/
def Built (ty : PollType) (s : State) (i : ℕ) : Prop :=
  match ty with
  | .data => i ≤ maxStreamNumInBundle ∧
      s.pollFds = (List.range i).map fun k => (s.entries k).pollFd
  | .evt => s.pollFds = []

def PollerPc.Done : PollerPc → Prop
  | .sigLock | .sigSet | .sigSignal | .sigUnlock => True
  | _ => False

/-- The array has been made since the client has written its entry. -/
def State.Told (s : State) : Prop :=
  s.poller.Done ∨ ∃ c, s.client = some (c, .woken) ∨ s.client = some (c, .unlock)

/-- The array is that of the table, apart from the entry of a call that the poll thread
has not been told about. -/
structure Fds (ty : PollType) (s : State) : Prop where
  length : s.pollFds.length ≤ maxStreamNumInBundle
  building : ∀ i, s.poller = .rebuild i → Built ty s i
  synced : (∀ i, s.poller ≠ .rebuild i) → ∀ k, Slot ty k →
    (s.Told ∨ ∀ c ∈ s.call, index ty c.handler ≠ k) → SyncedAt s k

theorem pollFd_eq_iff {e : Entry} {fd : ℤ} (hfd : 0 < fd) : e.pollFd = fd ↔ e.fd = fd := by
  unfold Entry.pollFd
  split_ifs with h
  · rfl
  · omega

/-- When the array is complete, all entries are in it. -/
theorem Built.synced (h : Built .data s maxStreamNumInBundle) {k : ℕ} (hk : Slot .data k) :
    SyncedAt s k := by
  intro fd hfd
  have hk' : k < maxStreamNumInBundle := hk
  rw [h.2, List.getElem?_map, List.getElem?_range hk', Option.map_some, Option.some_inj]
  exact pollFd_eq_iff hfd

theorem Fds.frame (h : Fds ty s) (hentries : s'.entries = s.entries)
    (hfds : s'.pollFds = s.pollFds) (hcall : s'.call = s.call)
    (hpoll : ∀ i, s'.poller = .rebuild i ↔ s.poller = .rebuild i) (htold : s'.Told → s.Told) :
    Fds ty s' := by
  refine ⟨hfds ▸ h.length, ?_, ?_⟩
  · intro i hi
    have hbuilt := h.building i ((hpoll i).mp hi)
    cases ty with
    | data => exact ⟨hbuilt.1, by rw [hfds, hentries]; exact hbuilt.2⟩
    | evt => exact hfds.trans hbuilt
  · intro hno k hk htold'
    have hold := h.synced (fun i hi => hno i ((hpoll i).mpr hi)) k hk
      (htold'.imp htold fun hfree c hc => hfree c (hcall ▸ hc))
    intro fd hfd
    rw [hfds, hentries]
    exact hold fd hfd

theorem PollerPc.Polling.not_done {pc : PollerPc} (h : pc.Polling) : ¬ pc.Done := by
  cases pc <;> simp_all [PollerPc.Polling, PollerPc.Done]

theorem PollerPc.Polling.ne_rebuild {pc : PollerPc} (h : pc.Polling) (i : ℕ) :
    pc ≠ .rebuild i := by
  rintro rfl
  exact h

theorem State.Outside.not_told (h : s.Outside) (hpoll : s.poller.Polling) : ¬ s.Told := by
  rintro (hdone | ⟨c, hc | hc⟩)
  · exact hpoll.not_done hdone
  all_goals simpa using h.pc hc

theorem Fds.beginCall {c : Call} (h : Fds ty s) (hphase : Phase s)
    (hs : beginCall ty s c = some (s', o)) : Fds ty s' := by
  rw [Poll.beginCall] at hs
  split at hs
  · cases hs
  · rename_i hidle
    have hpoll := (hphase.of_outside (Or.inl hidle)).2.2
    split_ifs at hs
    · cases hs
      refine ⟨h.length, fun i hi => absurd hi (hpoll.ne_rebuild i), ?_⟩
      intro hno k hk _
      exact h.synced hno k hk (Or.inr (by simp [State.call, hidle]))
    · cases hs
      exact h

theorem Fds.clientStep (h : Fds ty s) (hphase : Phase s)
    (hs : clientStep ty s = some (s', o)) : Fds ty s' := by
  cases hc : s.client with
  | none => simp [Poll.clientStep, hc] at hs
  | some call =>
    obtain ⟨c, pc⟩ := call
    have hcall : ∀ {pc'}, (some (c, pc') : Option (Call × ClientPc)).map Prod.fst = s.call := by
      simp [State.call, hc]
    cases pc with
    | entry fs =>
      have hout : s.Outside := Or.inr (Or.inl ⟨c, fs, hc⟩)
      have hpoll := (hphase.of_outside hout).2.2
      cases fs with
      | nil =>
        simp only [Poll.clientStep, hc] at hs
        cases hs
        refine h.frame rfl rfl hcall (fun _ => Iff.rfl) fun htold => ?_
        have hout' : State.Outside { s with client := some (c, .lock) } :=
          Or.inr (Or.inr ⟨c, rfl⟩)
        exact absurd htold (hout'.not_told hpoll)
      | cons f fs =>
        simp only [Poll.clientStep, hc] at hs
        cases hs
        refine ⟨h.length, fun i hi => absurd hi (hpoll.ne_rebuild i), ?_⟩
        intro hno k hk htold
        have hout' : State.Outside { s with
            entries := Function.update s.entries (index ty c.handler)
              (c.writeField (s.entries (index ty c.handler)) f)
            client := some (c, .entry fs) } := Or.inr (Or.inl ⟨c, fs, rfl⟩)
        have hne := (htold.resolve_left (hout'.not_told hpoll)) c rfl
        have hold := h.synced hno k hk (Or.inr (by
          intro c' hc'
          obtain rfl : c = c' := by simpa [State.call, hc] using hc'
          exact hne))
        intro fd hfd
        simp only [Function.update_of_ne hne.symm]
        exact hold fd hfd
    | waiting => simp [Poll.clientStep, hc] at hs
    | unlock =>
      simp only [Poll.clientStep, hc] at hs
      cases hs
      refine ⟨h.length, h.building, ?_⟩
      intro hno k hk _
      exact h.synced hno k hk (Or.inl (Or.inr ⟨c, Or.inr hc⟩))
    | woken =>
      simp only [Poll.clientStep, hc] at hs
      split_ifs at hs
      cases hs
      exact h.frame rfl rfl hcall (fun _ => Iff.rfl) fun _ => Or.inr ⟨c, Or.inl hc⟩
    | check =>
      simp only [Poll.clientStep, hc, hphase.status_of_check hc, if_true] at hs
      cases hs
      refine h.frame rfl rfl hcall (fun _ => Iff.rfl) ?_
      rintro (hdone | ⟨c', hc' | hc'⟩)
      · exact Or.inl hdone
      all_goals cases hc'
    | _ =>
      simp only [Poll.clientStep, hc] at hs
      try split_ifs at hs
      all_goals
        cases hs
        refine h.frame rfl rfl hcall (fun _ => Iff.rfl) ?_
        rintro (hdone | ⟨c', hc' | hc'⟩)
        · exact Or.inl hdone
        all_goals cases hc'

theorem Fds.pollerStep {ready : List ℤ} (h : Fds ty s)
    (hs : pollerStep ty s ready = some (s', o)) : Fds ty s' := by
  -- steps between positions that are not signals
  have hpolling : ∀ {p}, s.poller.Polling → ¬ p.Done → (∀ i, p ≠ .rebuild i) →
      Fds ty { s with poller := p } := by
    intro p hpoll hdone hno
    refine h.frame rfl rfl rfl (fun i => ?_) ?_
    · exact iff_of_false (hno i) (hpoll.ne_rebuild i)
    · exact Or.imp_left fun hd => absurd hd hdone
  -- steps from signals
  have hsignal : ∀ {s'}, s.poller.Done → s'.entries = s.entries → s'.pollFds = s.pollFds →
      (∀ i, s'.poller ≠ .rebuild i) → Fds ty s' := by
    intro s' hdone hentries hfds hno
    refine ⟨hfds ▸ h.length, fun i hi => absurd hi (hno i), fun _ k hk _ fd hfd => ?_⟩
    rw [hentries, hfds]
    exact h.synced (by intro i hi; simp [hi, PollerPc.Done] at hdone) k hk (Or.inl (Or.inl hdone))
      fd hfd
  cases hp : s.poller with
  | poll | notify i positions =>
    obtain ⟨p, rfl, hp' | ⟨-, rfl⟩⟩ := pollerStep_polling (by rw [hp]; trivial) hs
    · exact hpolling (by rw [hp]; trivial) hp'.not_done hp'.ne_rebuild
    · exact hpolling (by rw [hp]; trivial) id (by simp)
  | read =>
    simp only [Poll.pollerStep, hp] at hs
    cases hs
    refine ⟨Nat.zero_le _, ?_, fun hno => absurd rfl (hno 0)⟩
    rintro i hi
    obtain rfl : 0 = i := PollerPc.rebuild.inj hi
    cases ty with
    | data => exact ⟨Nat.zero_le _, rfl⟩
    | evt => rfl
  | rebuild i =>
    have hbuilt := h.building i hp
    simp only [Poll.pollerStep, hp, rebuildStep] at hs
    cases hs
    cases ty with
    | data =>
      obtain ⟨hi, hfds⟩ := hbuilt
      dsimp only
      split_ifs with hlt
      · refine ⟨?_, ?_, fun hno => absurd rfl (hno (i + 1))⟩
        · simp [hfds]
          omega
        · rintro j hj
          obtain rfl : i + 1 = j := PollerPc.rebuild.inj hj
          exact ⟨hlt, by simp [hfds, List.range_succ]⟩
      · obtain rfl : i = maxStreamNumInBundle := by omega
        refine ⟨h.length, by simp, fun _ k hk _ => ?_⟩
        exact Built.synced (s := { s with poller := .sigLock }) ⟨hi, hfds⟩ hk
    | evt =>
      have hfds : s.pollFds = [] := hbuilt
      dsimp only
      split_ifs with hpos
      · refine ⟨by simp [hfds, maxStreamNumInBundle], by simp, ?_⟩
        rintro - k rfl - fd hfd
        simp [hfds]
      · refine ⟨by simp [hfds], by simp, ?_⟩
        rintro - k rfl - fd hfd
        simp only [hfds, List.getElem?_nil]
        exact iff_of_false (by simp) (by omega)
  | sigLock =>
    simp only [Poll.pollerStep, hp] at hs
    split_ifs at hs
    cases hs
    exact hsignal (by rw [hp]; trivial) rfl rfl (by simp)
  | sigSet | sigUnlock =>
    simp only [Poll.pollerStep, hp] at hs
    cases hs
    exact hsignal (by rw [hp]; trivial) rfl rfl (by simp)
  | sigSignal =>
    simp only [Poll.pollerStep, hp] at hs
    split at hs <;> (cases hs; exact hsignal (by rw [hp]; trivial) rfl rfl (by simp))

/-! ### The invariant -/

structure Inv (ty : PollType) (s : State) : Prop where
  phase : Phase s
  table : Table ty s
  fds : Fds ty s

theorem inv_init : Inv ty .init where
  phase := .outside (Or.inl rfl) rfl rfl trivial
  table := ⟨by simp [State.call, State.init], by simp [State.call, State.init],
    by simp [State.init], by simp [State.init]⟩
  fds := by
    refine ⟨Nat.zero_le _, by simp [State.init], fun _ k _ _ fd hfd => ?_⟩
    exact iff_of_false (by simp [State.init]) (by simp [State.init]; omega)

theorem Inv.step (h : Inv ty s) (hs : step ty s a = some (s', o)) : Inv ty s' := by
  refine ⟨h.phase.step hs, h.table.step hs, ?_⟩
  cases a with
  | call c => exact h.fds.beginCall h.phase hs
  | client => exact h.fds.clientStep h.phase hs
  | poller ready => exact h.fds.pollerStep hs

theorem inv_stateAt (ty : PollType) (acts : ℕ → Act) (n : ℕ) :
    Inv ty (stateAt (Poll.step ty) .init acts n) :=
  stateAt_inv (Inv ty) (Nat.zero_le n) (fun _ _ _ h _ _ hs => h.step hs) inv_init

end Poll

/-
What the calls of the client get from the poll thread, over whole executions.

* `returns_eventually` — a call returns, under every fair schedule;
* `notified_eventually` — the callback of a descriptor that is ready is called;
* `poll_registration` — this from when an add has returned, and no more once a delete has.
-/
import HdxCommon.PollThread

namespace Poll

variable {ty : PollType} {s s' : State} {a : Act} {o : List Event} {c : Call}

/-! ### Calls return -/

/-- How far the poll thread is from waking the client up, with so many descriptors. -/
def pollerRank (numFds : ℕ) : PollerPc → ℕ
  | .notify i _ => 31 + (numFds - i)
  | .poll => 30
  | .read => 29
  | .rebuild i => 20 + (maxStreamNumInBundle - i)
  | .sigLock => 12
  | .sigSet => 11
  | .sigSignal => 10
  | .sigUnlock => 0

/-- How far a call is from its return. -/
def rank (s : State) : ℕ :=
  match s.client with
  | none => 0
  | some (_, .entry fs) => 200 + fs.length
  | some (_, .lock) => 199
  | some (_, .reset) => 198
  | some (_, .write) => 197
  | some (_, .check) => 196
  | some (_, .waiting) => 50 + pollerRank s.pollFds.length s.poller
  | some (_, .woken) => if s.mutex = none then 2 else 3
  | some (_, .unlock) => 1

/-- The thread that has to take the next step. -/
def helper (s : State) : Thread :=
  match s.client with
  | some (_, .waiting) => .poller
  | some (_, .woken) => if s.mutex = none then .client else .poller
  | _ => .client

theorem pollerRank_le {numFds : ℕ} (h : numFds ≤ maxStreamNumInBundle) (pc : PollerPc) :
    pollerRank numFds pc ≤ 35 := by
  unfold maxStreamNumInBundle at h
  cases pc <;> simp only [pollerRank, maxStreamNumInBundle] <;> omega

theorem clientStep_rank (h : Inv ty s) (hcall : s.call = some c)
    (hs : clientStep ty s = some (s', o)) :
    .returned c 0 ∈ o ∨ s'.call = some c ∧ rank s' < rank s := by
  cases hc : s.client with
  | none => simp [clientStep, hc] at hs
  | some call =>
    obtain ⟨c', pc⟩ := call
    obtain rfl : c' = c := by simpa [State.call, hc] using hcall
    cases pc with
    | entry fs =>
      cases fs with
      | nil | cons f fs =>
        simp only [clientStep, hc] at hs
        cases hs
        exact Or.inr ⟨rfl, by simp [rank, hc]⟩
    | lock =>
      simp only [clientStep, hc] at hs
      split_ifs at hs
      cases hs
      exact Or.inr ⟨rfl, by simp [rank, hc]⟩
    | reset | write =>
      simp only [clientStep, hc] at hs
      cases hs
      exact Or.inr ⟨rfl, by simp [rank, hc]⟩
    | check =>
      have hle := pollerRank_le h.fds.length s.poller
      simp only [clientStep, hc, h.phase.status_of_check hc, if_true] at hs
      cases hs
      refine Or.inr ⟨rfl, ?_⟩
      simp only [rank, hc]
      omega
    | waiting => simp [clientStep, hc] at hs
    | woken =>
      simp only [clientStep, hc] at hs
      split_ifs at hs with hmutex
      cases hs
      exact Or.inr ⟨rfl, by simp [rank, hc, hmutex]⟩
    | unlock =>
      simp only [clientStep, hc] at hs
      cases hs
      exact Or.inl (by simp)

theorem pollerStep_pollerRank {ready : List ℤ} (hpipe : s.poller = .poll → 0 < s.pipe)
    (hpoll : s.poller ≠ .sigSignal) (hunlock : s.poller ≠ .sigUnlock)
    (hs : pollerStep ty s ready = some (s', o)) :
    s'.client = s.client ∧
      pollerRank s'.pollFds.length s'.poller < pollerRank s.pollFds.length s.poller := by
  cases hp : s.poller with
  | poll =>
    simp only [pollerStep, hp, if_pos (hpipe hp)] at hs
    cases hs
    exact ⟨rfl, by simp [pollerRank]⟩
  | notify i positions =>
    simp only [pollerStep, hp] at hs
    split_ifs at hs with hi
    all_goals
      cases hs
      exact ⟨rfl, by simp only [pollerRank]; omega⟩
  | read =>
    simp only [pollerStep, hp] at hs
    cases hs
    exact ⟨rfl, by simp [pollerRank, maxStreamNumInBundle]⟩
  | rebuild i =>
    simp only [pollerStep, hp, rebuildStep] at hs
    cases hs
    cases ty with
    | data | evt =>
      dsimp only
      split_ifs with hi
      all_goals exact ⟨rfl, by simp only [pollerRank]; omega⟩
  | sigLock =>
    simp only [pollerStep, hp] at hs
    split_ifs at hs
    cases hs
    exact ⟨rfl, by simp [pollerRank]⟩
  | sigSet =>
    simp only [pollerStep, hp] at hs
    cases hs
    exact ⟨rfl, by simp [pollerRank]⟩
  | sigSignal => exact absurd hp hpoll
  | sigUnlock => exact absurd hp hunlock

theorem pollerStep_rank {ready : List ℤ} (h : Phase s) (hcall : s.call = some c)
    (hs : pollerStep ty s ready = some (s', o)) :
    rank s' < rank s ∨ helper s = .client ∧ rank s' = rank s ∧ helper s' = helper s := by
  -- the rank is that of the client, unless it waits
  have hsame : ∀ {c pc}, s.client = some (c, pc) → pc ≠ .waiting → pc ≠ .woken →
      s'.client = s.client → helper s = .client ∧ rank s' = rank s ∧ helper s' = helper s := by
    intro c pc hc hwaiting hwoken hclient
    cases pc <;> simp_all [helper, rank]
  have hasks : s.Asking → s'.client = s.client ∧
      pollerRank s'.pollFds.length s'.poller < pollerRank s.pollFds.length s.poller →
      rank s' < rank s ∨ helper s = .client ∧ rank s' = rank s ∧ helper s' = helper s := by
    rintro ⟨c, ⟨hc, -⟩ | ⟨hc, -⟩⟩ ⟨hclient, hless⟩
    · exact Or.inr (hsame hc (by simp) (by simp) hclient)
    · left
      simp only [rank, hclient, hc]
      omega
  cases h with
  | outside hout hpipe hmutex hpoll =>
    obtain ⟨p, rfl, -⟩ := pollerStep_polling hpoll hs
    obtain ⟨⟨c', pc⟩, hc, -⟩ := Option.map_eq_some_iff.mp hcall
    obtain ⟨fs, rfl⟩ | rfl := hout.pc hc
    all_goals exact Or.inr (hsame hc (by simp) (by simp) rfl)
  | locked c' hc hpipe hmutex hpoll =>
    obtain ⟨p, rfl, -⟩ := pollerStep_polling hpoll hs
    obtain hc | ⟨hc, -⟩ := hc
    all_goals exact Or.inr (hsame hc (by simp) (by simp) rfl)
  | asked hask hpipe hpoll =>
    refine hasks hask (pollerStep_pollerRank (by omega) ?_ ?_ hs)
    all_goals
      intro hp
      simp [hp, PollerPc.Polling] at hpoll
  | rebuilding hask hpipe hpoll =>
    refine hasks hask (pollerStep_pollerRank ?_ ?_ ?_ hs)
    all_goals
      intro hp
      simp [hp, PollerPc.Rebuilding] at hpoll
  | signalling c' hc hpipe hmutex hpoll =>
    left
    rcases hpoll with hp | hp
    · simp only [pollerStep, hp] at hs
      cases hs
      simp [rank, hc, hp, pollerRank]
    · simp only [pollerStep, hp, hc] at hs
      cases hs
      simp only [rank, hc, hp, pollerRank, hmutex]
      decide
  | woken c' hc hpipe hpoll =>
    rcases hpoll with ⟨hmutex, hp⟩ | ⟨hmutex, hpoll⟩
    · simp only [pollerStep, hp] at hs
      cases hs
      simp [rank, hc, hmutex]
    · obtain ⟨p, rfl, -⟩ := pollerStep_polling hpoll hs
      exact Or.inr (by simp [helper, rank, hc, hmutex])
  | leaving c' hc hpipe hmutex hpoll =>
    obtain ⟨p, rfl, -⟩ := pollerStep_polling hpoll hs
    exact Or.inr (hsame hc (by simp) (by simp) rfl)

theorem call_kept (hcall : s.call = some c) (hs : step ty s a = some (s', o)) :
    .returned c 0 ∈ o ∨ s'.call = some c := by
  cases tableStep hs with
  | begins _ _ hidle | refuses _ _ hidle => simp [State.call, hidle] at hcall
  | writes c' f fs _ hc hs' =>
    obtain rfl : c' = c := by simpa [State.call, hc] using hcall
    rw [hs']
    exact Or.inr rfl
  | returns c' _ hc hs' ho =>
    obtain rfl : c' = c := by simpa [State.call, hc] using hcall
    exact Or.inl (by simp [ho])
  | keeps _ hcall' => exact Or.inr (hcall'.trans hcall)

theorem clientStep_enabled {pc : ClientPc} (hc : s.client = some (c, pc))
    (hpc : pc ≠ .waiting) (hmutex : pc = .lock ∨ pc = .woken → s.mutex = none) :
    (clientStep ty s).isSome := by
  cases pc with
  | entry fs => cases fs <;> simp [clientStep, hc]
  | waiting => exact absurd rfl hpc
  | check => by_cases hstatus : s.status <;> simp [clientStep, hc, hstatus]
  | lock => simp [clientStep, hc, hmutex (Or.inl rfl)]
  | woken => simp [clientStep, hc, hmutex (Or.inr rfl)]
  | _ => simp [clientStep, hc]

theorem pollerStep_enabled {ready : List ℤ} (hpoll : s.poller = .poll → 0 < s.pipe)
    (hmutex : s.poller = .sigLock → s.mutex = none) : (pollerStep ty s ready).isSome := by
  cases hp : s.poller with
  | poll => simp [pollerStep, hp, hpoll hp]
  | notify i positions =>
    simp only [pollerStep, hp]
    split_ifs <;> rfl
  | sigLock => simp [pollerStep, hp, hmutex hp]
  | sigSignal =>
    simp only [pollerStep, hp]
    split <;> rfl
  | _ => simp [pollerStep, hp]

theorem helper_enabled (h : Phase s) (hcall : s.call = some c)
    (ha : a.thread = some (helper s)) : (step ty s a).isSome := by
  have hclient : ∀ {pc}, s.client = some (c, pc) → helper s = .client → pc ≠ .waiting →
      (pc = .lock ∨ pc = .woken → s.mutex = none) → (step ty s a).isSome := by
    intro pc hc hhelper hpc hmutex
    rw [hhelper] at ha
    cases a with
    | client => exact clientStep_enabled hc hpc hmutex
    | call | poller => cases ha
  have hpoller : helper s = .poller → (s.poller = .poll → 0 < s.pipe) →
      (s.poller = .sigLock → s.mutex = none) → (step ty s a).isSome := by
    intro hhelper hpoll hmutex
    rw [hhelper] at ha
    cases a with
    | poller ready => exact pollerStep_enabled hpoll hmutex
    | call | client => cases ha
  obtain ⟨⟨c', pc⟩, hc, rfl⟩ := Option.map_eq_some_iff.mp hcall
  cases h with
  | outside hout hpipe hmutex hpoll =>
    obtain ⟨fs, rfl⟩ | rfl := hout.pc hc
    · exact hclient hc (by simp [helper, hc]) (by simp) (by simp)
    · exact hclient hc (by simp [helper, hc]) (by simp) fun _ => hmutex
  | locked c₁ hc₁ =>
    obtain hc₁ | ⟨hc₁, -⟩ := hc₁
    all_goals
      cases hc.symm.trans hc₁
      exact hclient hc (by simp [helper, hc]) (by simp) (by simp)
  | asked hask hpipe hpoll =>
    obtain ⟨c₁, ⟨hc₁, -⟩ | ⟨hc₁, hmutex⟩⟩ := hask
    · cases hc.symm.trans hc₁
      exact hclient hc (by simp [helper, hc]) (by simp) (by simp)
    · cases hc.symm.trans hc₁
      exact hpoller (by simp [helper, hc]) (fun _ => by omega) fun _ => hmutex
  | rebuilding hask hpipe hpoll =>
    obtain ⟨c₁, ⟨hc₁, -⟩ | ⟨hc₁, hmutex⟩⟩ := hask
    · cases hc.symm.trans hc₁
      exact hclient hc (by simp [helper, hc]) (by simp) (by simp)
    · cases hc.symm.trans hc₁
      refine hpoller (by simp [helper, hc]) (fun hp => ?_) fun _ => hmutex
      simp [hp, PollerPc.Rebuilding] at hpoll
  | signalling c₁ hc₁ hpipe hmutex hpoll =>
    cases hc.symm.trans hc₁
    refine hpoller (by simp [helper, hc]) (fun hp => ?_) fun hp => ?_ <;> simp [hp] at hpoll
  | woken c₁ hc₁ hpipe hpoll =>
    cases hc.symm.trans hc₁
    rcases hpoll with ⟨hmutex, hp⟩ | ⟨hmutex, -⟩
    · exact hpoller (by simp [helper, hc, hmutex]) (by simp [hp]) (by simp [hp])
    · exact hclient hc (by simp [helper, hc, hmutex]) (by simp) fun _ => hmutex
  | leaving c₁ hc₁ =>
    cases hc.symm.trans hc₁
    exact hclient hc (by simp [helper, hc]) (by simp) (by simp)

theorem step_rank (h : Inv ty s) (hcall : s.call = some c) (hs : step ty s a = some (s', o)) :
    .returned c 0 ∈ o ∨ s'.call = some c ∧ (rank s' < rank s ∨
      a.thread ≠ some (helper s) ∧ rank s' = rank s ∧ helper s' = helper s) := by
  obtain hret | hcall' := call_kept hcall hs
  · exact Or.inl hret
  cases a with
  | call c' =>
    obtain ⟨call, hc, -⟩ := Option.map_eq_some_iff.mp hcall
    simp [step, beginCall, hc] at hs
  | client =>
    obtain hret | ⟨-, hless⟩ := clientStep_rank h hcall hs
    · exact Or.inl hret
    · exact Or.inr ⟨hcall', Or.inl hless⟩
  | poller ready =>
    obtain hless | ⟨hhelper, hsame⟩ := pollerStep_rank h.phase hcall hs
    · exact Or.inr ⟨hcall', Or.inl hless⟩
    · exact Or.inr ⟨hcall', Or.inr ⟨by simp [Act.thread, hhelper], hsame⟩⟩

/-- **No call blocks forever**: under every fair schedule, a call that has begun
returns. -/
theorem returns_eventually {acts : ℕ → Act} (hfair : Fair Act.thread acts) {n : ℕ}
    (hcall : (stateAt (step ty) .init acts n).call = some c) :
    ∃ m, n ≤ m ∧ .returned c 0 ∈ outputAt (step ty) .init acts m := by
  have hinv := inv_stateAt ty acts
  refine eventually_of_rank hfair (fun m => (stateAt (step ty) .init acts m).call = some c)
    (fun m => .returned c 0 ∈ outputAt (step ty) .init acts m)
    (fun m => rank (stateAt (step ty) .init acts m))
    (fun m => helper (stateAt (step ty) .init acts m)) ?_ ?_ hcall
  · intro m _ hm
    obtain hs | ⟨-, hs, -⟩ := @stateAt_succ _ _ _ (step ty) .init acts m
    · obtain hret | ⟨hcall', hless | ⟨-, hsame⟩⟩ := step_rank (hinv m) hm hs
      · exact Or.inl hret
      · exact Or.inr ⟨hcall', Or.inl hless⟩
      · exact Or.inr ⟨hcall', Or.inr hsame⟩
    · rw [hs]
      exact Or.inr ⟨hm, Or.inr ⟨rfl, rfl⟩⟩
  · intro m _ hm hhelp
    obtain hs | ⟨hno, -⟩ := @stateAt_succ _ _ _ (step ty) .init acts m
    · obtain hret | ⟨hcall', hless | ⟨hother, -⟩⟩ := step_rank (hinv m) hm hs
      · exact Or.inl hret
      · exact Or.inr ⟨hcall', hless⟩
      · exact absurd hhelp hother
    · have henabled := @helper_enabled ty _ _ c (hinv m).phase hm hhelp
      rw [hno] at henabled
      cases henabled

/-! ### Streams that have been added -/

/-- The call takes the entry of the stream: it adds one with the same index, or deletes
the stream. -/
def Call.Takes (ty : PollType) (handler : ℕ) : Call → Prop
  | .addPollFd handler' _ _ _ => index ty handler' = index ty handler
  | .delPollFd handler' => handler' = handler

/-- The entry of the stream is the one that it has been added with, and no call is
changing it. -/
structure Registered (ty : PollType) (handler : ℕ) (fd : ℤ) (fn userData : ℕ) (s : State) :
    Prop where
  slot : index ty handler < maxStreamNumInBundle
  entry : s.entries (index ty handler) = ⟨fd, handler, some ⟨handler, fn⟩, userData⟩
  free : ∀ c ∈ s.call, index ty c.handler ≠ index ty handler

variable {handler fn userData : ℕ} {fd : ℤ}

theorem Registered.step (h : Registered ty handler fd fn userData s)
    (hfree : ∀ c, a = .call c → s.client = none → ¬ c.Takes ty handler)
    (hs : step ty s a = some (s', o)) : Registered ty handler fd fn userData s' := by
  cases tableStep hs with
  | begins c ha hidle hacc hs' =>
    have hno := hfree c ha hidle
    subst hs'
    refine ⟨h.slot, h.entry, ?_⟩
    rintro c' hc' hindex
    cases hc'
    cases c with
    | addPollFd => exact hno hindex
    | delPollFd handler' =>
      -- only the handler of the entry is deleted
      have hhandler := hacc.2
      rw [show index ty handler' = index ty handler from hindex, h.entry] at hhandler
      exact hno hhandler
  | writes c f fs _ hc hs' =>
    have hne := h.free c (by simp [State.call, hc])
    subst hs'
    refine ⟨h.slot, ?_, ?_⟩
    · simp only [Function.update_of_ne hne.symm]
      exact h.entry
    · rintro c' hc'
      cases hc'
      exact hne
  | returns c _ hc hs' =>
    subst hs'
    exact ⟨h.slot, h.entry, by simp [State.call]⟩
  | refuses _ _ _ _ hs' =>
    subst hs'
    exact h
  | keeps hentries hcall => exact ⟨h.slot, hentries ▸ h.entry, hcall ▸ h.free⟩

theorem returned_not_mem_callbacks {rc : ℤ} {i : ℕ} : .returned c rc ∉ s.callbacks i := by
  unfold State.callbacks
  split <;> simp

theorem returned_cases {rc : ℤ} (hs : step ty s a = some (s', o)) (hret : .returned c rc ∈ o) :
    s.client = some (c, .unlock) ∧ rc = 0 ∧ s' = { s with mutex := none, client := none } ∨
      s.client = none ∧ rc = -1 ∧ ¬ c.Accepted ty s ∧ s' = s := by
  cases tableStep hs with
  | begins _ _ _ _ _ ho | writes _ _ _ _ _ _ ho => simp [ho] at hret
  | returns c' _ hc hs' ho =>
    obtain ⟨rfl, rfl⟩ : c = c' ∧ rc = 0 := by simpa [ho] using hret
    exact Or.inl ⟨hc, rfl, hs'⟩
  | refuses c' _ hidle hno hs' ho =>
    obtain ⟨rfl, rfl⟩ : c = c' ∧ rc = -1 := by simpa [ho] using hret
    exact Or.inr ⟨hidle, rfl, hno, hs'⟩
  | keeps _ _ _ ho =>
    obtain rfl | ⟨i, rfl⟩ := ho
    · simp at hret
    · exact absurd hret returned_not_mem_callbacks

theorem registered_of_returned (h : Inv ty s) (hs : step ty s a = some (s', o))
    (hret : .returned (.addPollFd handler fd (some fn) userData) 0 ∈ o) :
    Registered ty handler fd fn userData s' := by
  obtain ⟨hc, -, rfl⟩ | ⟨-, hrc, -⟩ := returned_cases hs hret
  · have hcall : Call.addPollFd handler fd (some fn) userData ∈ s.call := by
      simp [State.call, hc]
    have hwritten : ∀ f, (Call.addPollFd handler fd (some fn) userData).writeField
        (s.entries (index ty handler)) f = s.entries (index ty handler) :=
      fun f => h.table.written _ hcall f (by cases f <;> simp [Call.fields])
        (by simp [State.pending, hc])
    refine ⟨h.table.slot _ hcall, ?_, by simp [State.call]⟩
    show s.entries (index ty handler) = _
    rw [← hwritten .fd, ← hwritten .handler, ← hwritten .notifyCb, ← hwritten .userData]
    rfl
  · exact absurd hrc (by decide)

theorem Registered.polled (h : Registered ty handler fd fn userData s) (hinv : Inv ty s)
    (hfd : 0 < fd) (hpoll : ∀ i, s.poller ≠ .rebuild i) :
    s.pollFds[index ty handler]? = some fd := by
  have hslot : Slot ty (index ty handler) := by
    cases ty with
    | data => exact h.slot
    | evt => rfl
  refine (hinv.fds.synced hpoll _ hslot (Or.inr h.free) fd hfd).mpr ?_
  rw [h.entry]

/-! ### The callback of a stream -/

theorem poller_kept (ha : a.thread ≠ some .poller) (hs : step ty s a = some (s', o)) :
    s'.poller = s.poller := by
  cases a with
  | call c =>
    simp only [step, beginCall] at hs
    split at hs
    · cases hs
    · split_ifs at hs <;> (cases hs; rfl)
  | client =>
    simp only [step, clientStep] at hs
    split at hs
    · cases hs
    · split at hs <;> try split_ifs at hs
      all_goals (cases hs; try rfl)
  | poller ready => exact absurd rfl ha

theorem Act.thread_eq_poller (h : a.thread = some .poller) : ∃ ready, a = .poller ready := by
  cases a with
  | poller ready => exact ⟨ready, rfl⟩
  | _ => simp [Act.thread] at h

/-- At time `n` a call begins that takes the entry of the stream. -/
def TakenAt (ty : PollType) (acts : ℕ → Act) (handler n : ℕ) : Prop :=
  ∃ c, acts n = .call c ∧ (stateAt (Poll.step ty) .init acts n).client = none ∧
    c.Takes ty handler

/-- At time `n` the callback of the stream is called. -/
def NotifiedAt (ty : PollType) (acts : ℕ → Act) (handler fn userData n : ℕ) : Prop :=
  .notified (index ty handler) ⟨handler, fn⟩ userData ∈ outputAt (Poll.step ty) .init acts n

theorem registered_kept {acts : ℕ → Act} {n m : ℕ} (hnm : n ≤ m)
    (hfree : ∀ k, n ≤ k → k < m → ¬ TakenAt ty acts handler k)
    (h : Registered ty handler fd fn userData (stateAt (step ty) .init acts n)) :
    Registered ty handler fd fn userData (stateAt (step ty) .init acts m) :=
  stateAt_inv (Registered ty handler fd fn userData) hnm
    (fun k hk hkm hreg _ _ hs =>
      hreg.step (fun c ha hidle htakes => hfree k hk hkm ⟨c, ha, hidle, htakes⟩) hs) h

/-- The poll thread is going to call the callback at `k`. -/
def State.Notifying (s : State) (k : ℕ) : Prop :=
  ∃ i positions, s.poller = .notify i positions ∧ k ∈ positions ∧ i ≤ k

/-- How many passes the callback at `k` is away. -/
def notifyRank (k : ℕ) : PollerPc → ℕ
  | .notify i _ => k - i
  | _ => 0

/-- A pass of the loop that calls the callbacks. -/
theorem Registered.notifies {ready : List ℤ} (h : Registered ty handler fd fn userData s)
    (hinv : Inv ty s) (hfd : 0 < fd) (hnotify : s.Notifying (index ty handler))
    (hs : pollerStep ty s ready = some (s', o)) :
    .notified (index ty handler) ⟨handler, fn⟩ userData ∈ o ∨
      s'.Notifying (index ty handler) ∧
        notifyRank (index ty handler) s'.poller < notifyRank (index ty handler) s.poller := by
  obtain ⟨i, positions, hpoller, hmem, hi⟩ := hnotify
  have hpolled := h.polled hinv hfd (by simp [hpoller])
  have hlt : i < s.pollFds.length := lt_of_le_of_lt hi (List.getElem?_eq_some_iff.mp hpolled).1
  simp only [pollerStep, hpoller, if_pos hlt] at hs
  cases hs
  rcases hi.lt_or_eq with hless | rfl
  · refine Or.inr ⟨⟨i + 1, positions, rfl, hmem, hless⟩, ?_⟩
    simp only [notifyRank, hpoller]
    omega
  · refine Or.inl ?_
    rw [if_pos hmem, State.callbacks, h.entry]
    exact List.mem_singleton_self _

/-- **A callback that is due is called**, unless a call takes the entry before. -/
theorem notified_of_notifying {acts : ℕ → Act} (hfair : Fair Act.thread acts) {n : ℕ}
    (hfd : 0 < fd) (h : Registered ty handler fd fn userData (stateAt (step ty) .init acts n))
    (hnotify : (stateAt (step ty) .init acts n).Notifying (index ty handler)) :
    ∃ m, n ≤ m ∧ (NotifiedAt ty acts handler fn userData m ∨ TakenAt ty acts handler m) := by
  have hinv := inv_stateAt ty acts
  have hstay : ∀ m, ¬ TakenAt ty acts handler m →
      Registered ty handler fd fn userData (stateAt (step ty) .init acts m) →
      Registered ty handler fd fn userData (stateAt (step ty) .init acts (m + 1)) := by
    intro m hfree
    refine registered_kept (Nat.le_succ m) fun k hk hkm => ?_
    rwa [show k = m by omega]
  refine eventually_of_rank hfair
    (fun m => Registered ty handler fd fn userData (stateAt (step ty) .init acts m) ∧
      (stateAt (step ty) .init acts m).Notifying (index ty handler))
    (fun m => NotifiedAt ty acts handler fn userData m ∨ TakenAt ty acts handler m)
    (fun m => notifyRank (index ty handler) (stateAt (step ty) .init acts m).poller)
    (fun _ => .poller) ?_ ?_ ⟨h, hnotify⟩
  · rintro m - ⟨hreg, hnot⟩
    by_cases htaken : TakenAt ty acts handler m
    · exact Or.inl (Or.inr htaken)
    have hreg' := hstay m htaken hreg
    obtain hs | ⟨-, hs, -⟩ := @stateAt_succ _ _ _ (step ty) .init acts m
    · by_cases hthread : (acts m).thread = some .poller
      · obtain ⟨ready, hready⟩ := Act.thread_eq_poller hthread
        obtain hdone | ⟨hnot', hless⟩ := hreg.notifies (hinv m) hfd hnot (hready ▸ hs)
        · exact Or.inl (Or.inl hdone)
        · exact Or.inr ⟨⟨hreg', hnot'⟩, Or.inl hless⟩
      · have hsame := poller_kept hthread hs
        refine Or.inr ⟨⟨hreg', ?_⟩, Or.inr ⟨by rw [hsame], rfl⟩⟩
        rwa [State.Notifying, hsame]
    · exact Or.inr ⟨⟨hreg', hs ▸ hnot⟩, Or.inr ⟨by rw [hs], rfl⟩⟩
  · rintro m - ⟨hreg, hnot⟩ hthread
    by_cases htaken : TakenAt ty acts handler m
    · exact Or.inl (Or.inr htaken)
    have hreg' := hstay m htaken hreg
    obtain ⟨ready, hready⟩ := Act.thread_eq_poller hthread
    obtain hs | ⟨hno, -⟩ := @stateAt_succ _ _ _ (step ty) .init acts m
    · obtain hdone | ⟨hnot', hless⟩ := hreg.notifies (hinv m) hfd hnot (hready ▸ hs)
      · exact Or.inl (Or.inl hdone)
      · exact Or.inr ⟨⟨hreg', hnot'⟩, hless⟩
    · obtain ⟨i, positions, hpoller, -⟩ := hnot
      rw [hready] at hno
      simp only [step, pollerStep, hpoller] at hno
      split_ifs at hno

theorem Registered.notifying {ready : List ℤ} (h : Registered ty handler fd fn userData s)
    (hinv : Inv ty s) (hfd : 0 < fd) (hpoller : s.poller = .poll) (hpipe : s.pipe = 0)
    (hready : fd ∈ ready) :
    ∃ s', pollerStep ty s ready = some (s', []) ∧ s'.Notifying (index ty handler) := by
  have hpolled := h.polled hinv hfd (by simp [hpoller])
  have hmem : index ty handler ∈ s.readyAt ready := by
    simp only [State.readyAt, List.mem_filter, List.mem_range, hpolled]
    exact ⟨(List.getElem?_eq_some_iff.mp hpolled).1, by simp [hready, hfd.le]⟩
  have hne : s.readyAt ready ≠ [] := List.ne_nil_of_mem hmem
  refine ⟨{ s with poller := .notify 0 (s.readyAt ready) }, ?_, 0, _, rfl, hmem, Nat.zero_le _⟩
  simp [pollerStep, hpoller, hpipe, hne]

/-- The poll thread polls at time `n`, with nothing on the pipe. -/
def PollsAt (ty : PollType) (acts : ℕ → Act) (n : ℕ) (ready : List ℤ) : Prop :=
  acts n = .poller ready ∧ (stateAt (step ty) .init acts n).poller = .poll ∧
    (stateAt (step ty) .init acts n).pipe = 0

/-- **Readiness calls the callback**: whenever the poll thread finds the descriptor
ready, with nothing on the pipe. -/
theorem notified_of_polls {acts : ℕ → Act} (hfair : Fair Act.thread acts) {n : ℕ}
    {ready : List ℤ} (hfd : 0 < fd)
    (h : Registered ty handler fd fn userData (stateAt (step ty) .init acts n))
    (hpolls : PollsAt ty acts n ready) (hready : fd ∈ ready) :
    ∃ m, n ≤ m ∧ (NotifiedAt ty acts handler fn userData m ∨ TakenAt ty acts handler m) := by
  obtain ⟨hact, hpoller, hpipe⟩ := hpolls
  obtain ⟨s', hs', hnotify⟩ := h.notifying (inv_stateAt ty acts n) hfd hpoller hpipe hready
  have hstep : step ty (stateAt (step ty) .init acts n) (acts n) = some (s', []) := hact ▸ hs'
  have hnext : stateAt (step ty) .init acts (n + 1) = s' := by
    simp [stateAt, advance, hstep]
  have hreg : Registered ty handler fd fn userData (stateAt (step ty) .init acts (n + 1)) :=
    hnext ▸ h.step (by simp [hact]) hstep
  obtain ⟨m, hm, hdone⟩ := notified_of_notifying hfair hfd hreg (hnext ▸ hnotify)
  exact ⟨m, by omega, hdone⟩

theorem idle_kept {acts : ℕ → Act} {n m : ℕ} (hnm : n ≤ m)
    (hquiet : ∀ k, n ≤ k → ∀ c, acts k ≠ .call c)
    (hidle : (stateAt (step ty) .init acts n).client = none) :
    (stateAt (step ty) .init acts m).client = none := by
  refine stateAt_inv (fun s : State => s.client = none) hnm ?_ hidle
  intro k hk _ hnone s' o hs
  have hcall : (stateAt (step ty) .init acts k).call = none := by simp [State.call, hnone]
  cases tableStep hs with
  | begins c ha | refuses c ha => exact absurd ha (hquiet k hk c)
  | writes c f fs _ hc | returns c _ hc => simp [hnone] at hc
  | keeps _ hsame =>
    rw [hcall] at hsame
    simpa [State.call] using hsame

/-- How far the poll thread is from `poll`, while no call is made. -/
def loopRank (numFds : ℕ) : PollerPc → ℕ
  | .notify i _ => 1 + (numFds - i)
  | _ => 0

theorem notify_loopRank {ready : List ℤ} {i : ℕ} {positions : List ℕ}
    (hp : s.poller = .notify i positions) :
    ∃ s' o, pollerStep ty s ready = some (s', o) ∧
      loopRank s'.pollFds.length s'.poller < loopRank s.pollFds.length s.poller := by
  simp only [pollerStep, hp]
  split_ifs with hi
  all_goals
    refine ⟨_, _, rfl, ?_⟩
    simp only [loopRank]
    omega

theorem polls_eventually {acts : ℕ → Act} (hfair : Fair Act.thread acts) {n : ℕ}
    (hquiet : ∀ k, n ≤ k → ∀ c, acts k ≠ .call c)
    (hidle : (stateAt (step ty) .init acts n).client = none) :
    ∃ m, n ≤ m ∧ ∃ ready, PollsAt ty acts m ready := by
  have hpolling : ∀ m, n ≤ m → (stateAt (step ty) .init acts m).pipe = 0 ∧
      (stateAt (step ty) .init acts m).poller.Polling := by
    intro m hm
    obtain ⟨hpipe, -, hpoll⟩ :=
      (inv_stateAt ty acts m).phase.of_outside (Or.inl (idle_kept hm hquiet hidle))
    exact ⟨hpipe, hpoll⟩
  -- a pass of the loop, unless the poll thread polls
  have hpass : ∀ m, n ≤ m → (acts m).thread = some .poller →
      (∃ ready, PollsAt ty acts m ready) ∨
        loopRank (stateAt (step ty) .init acts (m + 1)).pollFds.length
          (stateAt (step ty) .init acts (m + 1)).poller <
        loopRank (stateAt (step ty) .init acts m).pollFds.length
          (stateAt (step ty) .init acts m).poller := by
    intro m hm hthread
    obtain ⟨ready, hready⟩ := Act.thread_eq_poller hthread
    obtain ⟨hpipe, hpoll⟩ := hpolling m hm
    cases hp : (stateAt (step ty) .init acts m).poller with
    | poll => exact Or.inl ⟨ready, hready, hp, hpipe⟩
    | notify i positions =>
      obtain ⟨s', o, hs, hless⟩ := @notify_loopRank ty _ ready i positions hp
      refine Or.inr ?_
      simp only [stateAt, advance, hready, step, hs]
      rwa [← hp]
    | _ => simp [hp, PollerPc.Polling] at hpoll
  refine eventually_of_rank hfair (fun _ => True) (fun m => ∃ ready, PollsAt ty acts m ready)
    (fun m => loopRank (stateAt (step ty) .init acts m).pollFds.length
      (stateAt (step ty) .init acts m).poller) (fun _ => .poller) ?_ ?_ trivial
  · intro m hm _
    by_cases hthread : (acts m).thread = some .poller
    · exact (hpass m hm hthread).imp_right fun hless => ⟨trivial, Or.inl hless⟩
    · refine Or.inr ⟨trivial, Or.inr ⟨?_, rfl⟩⟩
      obtain hs | ⟨-, hs, -⟩ := @stateAt_succ _ _ _ (step ty) .init acts m
      · -- a client without a call is blocked
        cases ha : acts m with
        | call c => exact absurd ha (hquiet m hm c)
        | client =>
          rw [ha] at hs
          simp [step, clientStep, idle_kept hm hquiet hidle] at hs
        | poller ready => simp [ha, Act.thread] at hthread
      · rw [hs]
  · intro m hm _ hthread
    exact (hpass m hm hthread).imp_right fun hless => ⟨trivial, hless⟩

/-- **When no more calls are made and the descriptor is ready, the callback is called.** -/
theorem notified_eventually {acts : ℕ → Act} (hfair : Fair Act.thread acts) {n N : ℕ}
    (hfd : 0 < fd) (hnN : n ≤ N)
    (h : Registered ty handler fd fn userData (stateAt (step ty) .init acts n))
    (hquiet : ∀ k, N ≤ k → ∀ c, acts k ≠ .call c)
    (hready : ∀ k, N ≤ k → ∀ ready, acts k = .poller ready → fd ∈ ready) :
    ∃ m, n ≤ m ∧ (NotifiedAt ty acts handler fn userData m ∨ TakenAt ty acts handler m) := by
  by_cases htaken : ∃ m, n ≤ m ∧ TakenAt ty acts handler m
  · obtain ⟨m, hm, htaken⟩ := htaken
    exact ⟨m, hm, Or.inr htaken⟩
  -- the call that is being made at time `N`, if there is one, returns
  have hidle : ∃ M, N ≤ M ∧ (stateAt (step ty) .init acts M).client = none := by
    cases hc : (stateAt (step ty) .init acts N).client with
    | none => exact ⟨N, le_rfl, hc⟩
    | some call =>
      obtain ⟨M, hM, hret⟩ := returns_eventually hfair
        (show (stateAt (step ty) .init acts N).call = some call.1 by simp [State.call, hc])
      refine ⟨M + 1, by omega, ?_⟩
      obtain hs | ⟨-, -, ho⟩ := @stateAt_succ _ _ _ (step ty) .init acts M
      · obtain ⟨-, -, hs'⟩ | ⟨-, hrc, -⟩ := returned_cases hs hret
        · rw [hs']
        · cases hrc
      · simp [ho] at hret
  obtain ⟨M, hM, hidle⟩ := hidle
  obtain ⟨m, hm, ready, hpolls⟩ :=
    polls_eventually hfair (fun k hk => hquiet k (by omega)) hidle
  have hreg : Registered ty handler fd fn userData (stateAt (step ty) .init acts m) :=
    registered_kept (by omega) (fun k hk _ htaken' => htaken ⟨k, hk, htaken'⟩) h
  obtain ⟨m', hm', hdone⟩ :=
    notified_of_polls hfair hfd hreg hpolls (hready m (by omega) ready hpolls.1)
  exact ⟨m', by omega, hdone⟩

/-! ### Streams that have been deleted -/

def Call.Adds (handler : ℕ) : Call → Prop
  | .addPollFd handler' _ _ _ => handler' = handler
  | .delPollFd _ => False

/-- No entry has a callback of the stream, and no call is putting one there. -/
structure Cleared (handler : ℕ) (s : State) : Prop where
  gone : ∀ k cb, (s.entries k).notifyCb = some cb → cb.stream ≠ handler
  free : ∀ c ∈ s.call, ¬ c.Adds handler

theorem Call.writeField_added {e : Entry} {f : Field} {cb : Callback}
    (h : (c.writeField e f).notifyCb = some cb) : e.notifyCb = some cb ∨ c.Adds cb.stream := by
  cases c with
  | addPollFd => exact (Call.writeField_notifyCb h).imp_right Eq.symm
  | delPollFd handler =>
    cases f with
    | notifyCb => cases h
    | _ => exact Or.inl h

theorem Cleared.step (h : Cleared handler s)
    (hfree : ∀ c, a = .call c → ¬ c.Adds handler) (hs : Poll.step ty s a = some (s', o)) :
    Cleared handler s' := by
  cases tableStep hs with
  | begins c ha hidle hacc hs' =>
    subst hs'
    refine ⟨h.gone, ?_⟩
    rintro c' hc'
    cases hc'
    exact hfree c ha
  | writes c f fs _ hc hs' =>
    have hno := h.free c (by simp [State.call, hc])
    subst hs'
    refine ⟨?_, ?_⟩
    · intro k cb hcb
      by_cases hk : k = index ty c.handler
      · subst hk
        simp only [Function.update_self] at hcb
        obtain hold | hnew := Call.writeField_added hcb
        · exact h.gone _ cb hold
        · rintro rfl
          exact hno hnew
      · simp only [Function.update_of_ne hk] at hcb
        exact h.gone k cb hcb
    · rintro c' hc'
      cases hc'
      exact hno
  | returns c _ hc hs' =>
    subst hs'
    exact ⟨h.gone, by simp [State.call]⟩
  | refuses _ _ _ _ hs' =>
    subst hs'
    exact h
  | keeps hentries hcall => exact ⟨hentries ▸ h.gone, hcall ▸ h.free⟩

theorem notified_mem {i data : ℕ} {cb : Callback} (hs : step ty s a = some (s', o))
    (hmem : .notified i cb data ∈ o) : (s.entries i).notifyCb = some cb := by
  cases tableStep hs with
  | begins _ _ _ _ _ ho | writes _ _ _ _ _ _ ho | returns _ _ _ _ ho | refuses _ _ _ _ _ ho =>
    simp [ho] at hmem
  | keeps _ _ _ ho =>
    obtain rfl | ⟨k, rfl⟩ := ho
    · simp at hmem
    · unfold State.callbacks at hmem
      split at hmem
      · rename_i cb' hcb
        obtain ⟨rfl, rfl, -⟩ : i = k ∧ cb = cb' ∧ _ := by simpa using hmem
        exact hcb
      · simp at hmem

/-- A stream is not in the table once the call that deletes it has returned, also when
it has been refused. -/
theorem cleared_of_returned {rc : ℤ} (h : Inv ty s) (hs : step ty s a = some (s', o))
    (hret : .returned (.delPollFd handler) rc ∈ o) : Cleared handler s' := by
  obtain ⟨hc, -, rfl⟩ | ⟨hidle, -, hno, rfl⟩ := returned_cases hs hret
  · have hcall : Call.delPollFd handler ∈ s.call := by simp [State.call, hc]
    have hwritten := h.table.written _ hcall .notifyCb (by simp [Call.fields])
      (by simp [State.pending, hc])
    refine ⟨?_, by simp [State.call]⟩
    rintro k cb hcb rfl
    obtain ⟨rfl, -⟩ := h.table.tagged k cb hcb
    have hnone : (s.entries (index ty cb.stream)).notifyCb = none :=
      (congrArg Entry.notifyCb hwritten).symm
    cases hnone.symm.trans hcb
  · refine ⟨?_, by simp [State.call, hidle]⟩
    -- the stream would be the handler of its entry, and the call accepted
    rintro k cb hcb rfl
    obtain ⟨rfl, hslot⟩ := h.table.tagged k cb hcb
    exact hno ⟨hslot, (h.table.owned _ cb hcb (by simp [State.call, hidle])).symm⟩

/-! ### The registration -/

/-- A call that the client begins returns. -/
theorem returns_of_call {acts : ℕ → Act} (hfair : Fair Act.thread acts) {n : ℕ}
    (hact : acts n = .call c) (hidle : (stateAt (step ty) .init acts n).client = none) :
    ∃ m, n ≤ m ∧ ∃ rc, .returned c rc ∈ outputAt (step ty) .init acts m := by
  by_cases hacc : c.Accepted ty (stateAt (step ty) .init acts n)
  · have hcall : (stateAt (step ty) .init acts (n + 1)).call = some c := by
      simp [stateAt, advance, hact, step, beginCall, hidle, hacc, State.call]
    obtain ⟨m, hm, hret⟩ := returns_eventually hfair hcall
    exact ⟨m, by omega, 0, hret⟩
  · refine ⟨n, le_rfl, -1, ?_⟩
    simp [outputAt, advance, hact, step, beginCall, hidle, hacc]

theorem not_notified_of_deleted {acts : ℕ → Act} {n m i data : ℕ} {cb : Callback} {rc : ℤ}
    (hret : .returned (.delPollFd handler) rc ∈ outputAt (step ty) .init acts n) (hnm : n < m)
    (hfree : ∀ k, n < k → k < m → ∀ c, acts k = .call c → ¬ c.Adds handler)
    (hmem : .notified i cb data ∈ outputAt (step ty) .init acts m) : cb.stream ≠ handler := by
  have hcleared := cleared_of_returned (inv_stateAt ty acts n) (step_of_output hret) hret
  have hcleared' : Cleared handler (stateAt (step ty) .init acts m) :=
    stateAt_inv (Cleared handler) hnm
      (fun k hk hkm h _ _ hs => h.step (hfree k hk hkm) hs) hcleared
  exact hcleared'.gone i cb (notified_mem (step_of_output hmem) hmem)

/-- **What the registration promises**: under every fair schedule, every call returns;
once a stream has been added, with a descriptor and a callback, and until a call takes
its entry, the descriptor is in the array that is polled and its callback is called
each time it is found ready with nothing on the pipe, which happens if the client makes
no more calls; and a stream that has been deleted is not called until it is added
again. -/
theorem poll_registration (ty : PollType) (acts : ℕ → Act) (hfair : Fair Act.thread acts) :
    (∀ n c, acts n = .call c → (stateAt (step ty) .init acts n).client = none →
      ∃ m, n ≤ m ∧ ∃ rc, .returned c rc ∈ outputAt (step ty) .init acts m) ∧
    (∀ n handler fd fn userData,
      .returned (.addPollFd handler fd (some fn) userData) 0 ∈
        outputAt (step ty) .init acts n → 0 < fd →
      (∀ m, n < m → (∀ k, n < k → k < m → ¬ TakenAt ty acts handler k) →
        ((∀ i, (stateAt (step ty) .init acts m).poller ≠ .rebuild i) →
          (stateAt (step ty) .init acts m).pollFds[index ty handler]? = some fd) ∧
        ∀ ready, PollsAt ty acts m ready → fd ∈ ready → ∃ m', m ≤ m' ∧
          (NotifiedAt ty acts handler fn userData m' ∨ TakenAt ty acts handler m')) ∧
      ∀ N, (∀ k, N ≤ k → (∀ c, acts k ≠ .call c) ∧
          ∀ ready, acts k = .poller ready → fd ∈ ready) →
        ∃ m, n < m ∧
          (NotifiedAt ty acts handler fn userData m ∨ TakenAt ty acts handler m)) ∧
    ∀ n handler rc, .returned (.delPollFd handler) rc ∈ outputAt (step ty) .init acts n →
      ∀ m, n < m → (∀ k, n < k → k < m → ∀ c, acts k = .call c → ¬ c.Adds handler) →
        ∀ i cb userData, .notified i cb userData ∈ outputAt (step ty) .init acts m →
          cb.stream ≠ handler := by
  refine ⟨fun n c => returns_of_call hfair, ?_,
    fun n handler rc hret m hnm hfree i cb userData =>
      not_notified_of_deleted hret hnm hfree⟩
  intro n handler fd fn userData hret hfd
  have hreg := registered_of_returned (inv_stateAt ty acts n) (step_of_output hret) hret
  refine ⟨fun m hnm hfree => ?_, fun N hN => ?_⟩
  · have hregm := registered_kept hnm hfree hreg
    exact ⟨hregm.polled (inv_stateAt ty acts m) hfd,
      fun ready => notified_of_polls hfair hfd hregm⟩
  · obtain ⟨m, hm, hdone⟩ := notified_eventually hfair (N := max N (n + 1)) hfd
      (le_max_right _ _) hreg (fun k hk => (hN k (by omega)).1) fun k hk => (hN k (by omega)).2
    exact ⟨m, hm, hdone⟩

/-- The client adds a stream and then runs and waits in turn with the poll thread. -/
def taking (n : ℕ) : Act :=
  if n = 0 then .call (.addPollFd 0x101 5 (some 7) 9)
  else if n % 2 = 1 then .client
  else .poller [5]

theorem fair_taking : Fair Act.thread taking := by
  intro t n
  cases t with
  | client => exact ⟨2 * n + 1, by omega, by simp [taking, Nat.add_mod, Act.thread]⟩
  | poller => exact ⟨2 * n + 2, by omega, by simp [taking, Act.thread]⟩

theorem taking_ne_call {n : ℕ} (hn : 0 < n) (c : Call) : taking n ≠ .call c := by
  unfold taking
  split_ifs <;> simp
  omega

theorem poll_registration_taking :
    Fair Act.thread taking ∧ ∃ m, NotifiedAt .data taking 0x101 7 9 m := by
  refine ⟨fair_taking, ?_⟩
  obtain ⟨-, hadd, -⟩ := poll_registration .data taking fair_taking
  have hret : .returned (.addPollFd 0x101 5 (some 7) 9) 0 ∈
      outputAt (step .data) .init taking 39 := by decide +kernel
  obtain ⟨m, hm, hdone | ⟨c, hc, -⟩⟩ := (hadd 39 _ _ _ _ hret (by decide)).2 1 fun k hk => by
    refine ⟨taking_ne_call hk, fun ready hready => ?_⟩
    unfold taking at hready
    split_ifs at hready
    cases hready
    simp
  · exact ⟨m, hdone⟩
  · exact absurd hc (taking_ne_call (by omega) c)

/-! ### Streams that are not polled, or not called -/

def handshake (c : Call) : List Act :=
  .call c :: (List.replicate 9 .client ++ List.replicate 11 (.poller [5]) ++
    List.replicate 2 .client)

/-- Between two calls, the poll thread polls. -/
structure Between (s : State) : Prop where
  client : s.client = none
  pipe : s.pipe = 0
  mutex : s.mutex = none
  poller : s.poller = .poll

theorem exec_handshake {cb : Option ℕ} (h : Between s) (hslot : handler % 256 < 4) :
    ∃ s', Between s' ∧ exec (step .data) s (handshake (.addPollFd handler fd cb userData)) =
      some (s', [.returned (.addPollFd handler fd cb userData) 0]) := by
  obtain ⟨hclient, hpipe, hmutex, hpoller⟩ := h
  obtain ⟨entries, pollFds, pipe, mutex, status, client, poller⟩ := s
  subst hclient hpipe hmutex hpoller
  have hbegin : step .data ⟨entries, pollFds, 0, none, status, none, .poll⟩
      (.call (.addPollFd handler fd cb userData)) =
      some (⟨entries, pollFds, 0, none, status, some (.addPollFd handler fd cb userData,
        .entry [.fd, .handler, .notifyCb, .userData]), .poll⟩, []) := if_pos hslot
  rw [handshake, exec, hbegin]
  exact ⟨_, ⟨rfl, rfl, rfl, rfl⟩, rfl⟩

/-- The stream 0x101 is added, and then the other one again and again. -/
def added (again : ℕ) (j : ℕ) : Call :=
  if j = 0 then .addPollFd 0x101 5 (some 7) 9 else .addPollFd again 6 (some 8) 9

/-- The client makes one call after the other, and the poll thread runs when a call
waits for it. -/
def busy (again : ℕ) (n : ℕ) : Act :=
  (handshake (added again (n / 23))).getD (n % 23) .client

variable {again : ℕ}

theorem busy_add (j i : ℕ) (hi : i < (handshake (added again j)).length) :
    busy again (23 * j + i) = (handshake (added again j))[i] := by
  have hi' : i < 23 := hi
  rw [busy, show (23 * j + i) / 23 = j by omega, show (23 * j + i) % 23 = i by omega]
  exact (List.getElem_eq_getD _).symm

theorem busy_cases (again n : ℕ) : busy again n = .call (added again (n / 23)) ∨
    busy again n = .client ∨ busy again n = .poller [5] := by
  have hn : n % 23 < (handshake (added again (n / 23))).length := Nat.mod_lt _ (by decide)
  have hmem := List.getElem_mem hn
  rw [← busy_add (n / 23) (n % 23) hn, Nat.div_add_mod] at hmem
  simp only [handshake, List.mem_cons, List.mem_append, List.mem_replicate] at hmem
  tauto

theorem fair_busy : Fair Act.thread (busy again) := by
  intro t n
  cases t with
  | client => exact ⟨23 * n + 1, by omega, by rw [busy_add n 1 (by simp [handshake])]; rfl⟩
  | poller => exact ⟨23 * n + 10, by omega, by rw [busy_add n 10 (by simp [handshake])]; rfl⟩

theorem stateAt_busy (hslot : again % 256 < 4) (j : ℕ) :
    Between (stateAt (step .data) .init (busy again) (23 * j)) ∧
      ∀ i < 23, outputAt (step .data) .init (busy again) (23 * j + i) ⊆
        [.returned (added again j) 0] := by
  -- one round, from a state between two calls
  have hround : ∀ {j}, Between (stateAt (step .data) .init (busy again) (23 * j)) →
      Between (stateAt (step .data) .init (busy again) (23 * (j + 1))) ∧
        ∀ i < 23, outputAt (step .data) .init (busy again) (23 * j + i) ⊆
          [.returned (added again j) 0] := by
    intro j h
    obtain ⟨s', hs', hexec⟩ : ∃ s', Between s' ∧ exec (step .data) _
        (handshake (added again j)) = some (s', [.returned (added again j) 0]) := by
      unfold added
      split_ifs
      · exact exec_handshake h (by decide)
      · exact exec_handshake h hslot
    obtain ⟨hend, hout⟩ := stateAt_exec hexec (busy_add j)
    exact ⟨hend ▸ hs', hout⟩
  have hbetween : ∀ j, Between (stateAt (step .data) .init (busy again) (23 * j)) := by
    intro j
    induction j with
    | zero => exact ⟨rfl, rfl, rfl, rfl⟩
    | succ j ih => exact (hround ih).1
  exact ⟨hbetween j, (hround (hbetween j)).2⟩

theorem not_notified_busy (hslot : again % 256 < 4) (n i : ℕ) (cb : Callback) (data : ℕ) :
    .notified i cb data ∉ outputAt (step .data) .init (busy again) n := by
  intro hmem
  have hout := (stateAt_busy hslot (n / 23)).2 (n % 23) (Nat.mod_lt _ (by decide))
  rw [Nat.div_add_mod] at hout
  simpa using hout hmem

/-- **An entry is replaced, and a callback is never called**: a stream that has been
added is not polled any more when another one with its index is added; and when the
client always makes another call, the poll thread can see the pipe each time and never
the descriptor, although that is ready all the time. -/
theorem added_not_served :
    (.returned (.addPollFd 0x101 5 (some 7) 9) 0 ∈
        outputAt (step .data) .init (busy 0x201) 22 ∧
      (∀ n, busy 0x201 n ≠ .call (.delPollFd 0x101)) ∧
      (stateAt (step .data) .init (busy 0x201) 46).poller = .poll ∧
      5 ∉ (stateAt (step .data) .init (busy 0x201) 46).pollFds) ∧
    Fair Act.thread (busy 0x202) ∧
      .returned (.addPollFd 0x101 5 (some 7) 9) 0 ∈
        outputAt (step .data) .init (busy 0x202) 22 ∧
      (∀ n ready, busy 0x202 n = .poller ready → 5 ∈ ready) ∧
      (∀ n, 22 < n → ¬ TakenAt .data (busy 0x202) 0x101 n) ∧
      ∀ n, ¬ NotifiedAt .data (busy 0x202) 0x101 7 9 n := by
  refine ⟨⟨by decide +kernel, ?_, by decide +kernel, by decide +kernel⟩, fair_busy,
    by decide +kernel, ?_, ?_, fun n => not_notified_busy (by decide) n _ _ _⟩
  · intro n hn
    obtain hc | hc | hc := busy_cases 0x201 n <;> rw [hc] at hn
    · unfold added at hn
      split_ifs at hn <;> cases hn
    all_goals cases hn
  · intro n ready hn
    obtain hc | hc | hc := busy_cases 0x202 n <;> rw [hc] at hn <;> cases hn
    simp
  · rintro n hn ⟨c, hact, -, htakes⟩
    obtain hc | hc | hc := busy_cases 0x202 n <;> rw [hc] at hact <;> cases hact
    rw [added, if_neg (by omega)] at htakes
    exact absurd htakes (by simp [Call.Takes, index])

end Poll

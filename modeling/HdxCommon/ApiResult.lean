/-
Results of API calls between the framework threads and the state machine.

All callers share one result slot, `m_apiResult`, one mutex and one condition
variable.  A caller puts its event on the queue, clears the slot and sleeps
until the slot holds a result for its event; the state machine thread fills the
slot and wakes one sleeper.  A call can make several requests under one lock:
`take_picture` prepares the snapshot and then takes the picture.

* `ApiSystem.step` — one atomic step of a caller or of the state machine;
* `ownResults_step_iff` — a step keeps callers from losing or mixing up results
  exactly if it is tidy;
* `api_results_delivered` — so runs of tidy steps deliver every result.

Each request has a number of its own, and the slot is modelled by the request
its result is for; the callers compare only the event.
-/
import HdxCommon.Monitor
import HdxCommon.StateMachine

namespace Qcamera

/-! ### Callers and the state machine thread -/

/-- An event put on the API queue. -/
structure Request where
  id : ℕ
  evt : SmEvt
  deriving DecidableEq, Repr

/-- Where a framework thread is; `todo` are the requests of the call to come. -/
inductive Caller where
  | idle
  /-- it has the mutex -/
  | locked (todo : List SmEvt)
  /-- it has the mutex and a request on the queue -/
  | queued (r : Request) (todo : List SmEvt)
  /-- it is in `waitAPIResult` -/
  | waiting (r : Request) (todo : List SmEvt)
  deriving DecidableEq, Repr

/-- The state machine thread has at most one result to post and one preparation
of a snapshot that is not done yet.  `posted` is the history of the results. -/
structure ApiSystem where
  caller : ℕ → Caller
  monitor : Monitor ℕ
  apiResult : Option Request
  queue : List Request
  deferred : Option Request
  posting : Option Request
  next : ℕ
  posted : List Request

inductive Action where
  /-- a thread calls the API: `lockAPI` -/
  | lock (t : ℕ) (todo : List SmEvt)
  /-- `processAPI`, which may fail -/
  | enqueue (t : ℕ) (ok : Bool)
  /-- `waitAPIResult` up to the first `pthread_cond_wait` -/
  | wait (t : ℕ)
  /-- a thread wakes up without a signal -/
  | wake (t : ℕ)
  /-- a thread that is awake takes the mutex and looks at the slot -/
  | resume (t : ℕ)
  /-- `unlockAPI` -/
  | unlock (t : ℕ)
  /-- the state machine thread takes a request; it may defer a preparation -/
  | take (defer : Bool)
  /-- the deferred preparation is done -/
  | complete
  /-- `signalAPIResult`, which wakes `w` if anybody sleeps -/
  | post (w : ℕ)
  deriving DecidableEq, Repr

namespace ApiSystem

def setCaller (s : ApiSystem) (t : ℕ) (x : Caller) : ApiSystem :=
  { s with caller := Function.update s.caller t x }

/-- `signalAPIResult` under the mutex: the slot has the result. -/
def signalAPIResult (s : ApiSystem) (r : Request) (m : Monitor ℕ) : ApiSystem :=
  { s with monitor := m, apiResult := some r, posting := none, posted := r :: s.posted }

/-- A step, with the results returned to callers: the request and the one whose
result it was given. -/
def step (s : ApiSystem) : Action → Option (ApiSystem × List (Request × Request))
  | .lock t todo =>
    match s.caller t with
    | .idle => do
      let m ← s.monitor.lock t
      return ({ s.setCaller t (.locked todo) with monitor := m }, [])
    | _ => none
  | .enqueue t ok =>
    match s.caller t with
    | .locked (e :: todo) =>
      if ok then
        some ({ s.setCaller t (.queued ⟨s.next, e⟩ todo) with
          queue := s.queue ++ [⟨s.next, e⟩]
          next := s.next + 1 }, [])
      else some (s.setCaller t (.locked todo), [])
    | _ => none
  | .wait t =>
    match s.caller t with
    | .queued r todo => do
      -- no event has the number 0, so nobody takes a cleared slot for a result
      let m ← s.monitor.wait t
      return ({ s.setCaller t (.waiting r todo) with monitor := m, apiResult := none }, [])
    | _ => none
  | .wake t => do
    let m ← s.monitor.wake t
    return ({ s with monitor := m }, [])
  | .resume t =>
    match s.caller t with
    | .waiting r todo => do
      let m ← s.monitor.lock t
      match s.apiResult.filter fun r' => r'.evt = r.evt with
      | some r' => return ({ s.setCaller t (.locked todo) with monitor := m }, [(r, r')])
      | none =>
        let m ← m.wait t
        return ({ s with monitor := m }, [])
    | _ => none
  | .unlock t =>
    match s.caller t with
    | .locked [] => do
      let m ← s.monitor.unlock t
      return ({ s.setCaller t .idle with monitor := m }, [])
    | _ => none
  | .take defer =>
    match s.posting, s.queue with
    | none, r :: queue =>
      if defer then
        if r.evt = .prepareSnapshot ∧ s.deferred = none then
          some ({ s with queue := queue, deferred := some r }, [])
        else none
      else some ({ s with queue := queue, posting := some r }, [])
    | _, _ => none
  | .complete =>
    match s.posting, s.deferred with
    | none, some r => some ({ s with deferred := none, posting := some r }, [])
    | _, _ => none
  | .post w =>
    match s.posting with
    | some r =>
      if s.monitor.owner = none then do
        let m ← s.monitor.signal w
        return (s.signalAPIResult r m, [])
      else none
    | none => none

def initial : ApiSystem := ⟨fun _ => .idle, .free, none, [], none, none, 0, []⟩

end ApiSystem

/-! ### The steps one by one -/

inductive ApiTransition (s : ApiSystem) :
    Action → List (Request × Request) → ApiSystem → Prop
  | lock {t : ℕ} {todo : List SmEvt} {m : Monitor ℕ} (hc : s.caller t = .idle)
      (hm : s.monitor.lock t = some m) :
      ApiTransition s (.lock t todo) [] { s.setCaller t (.locked todo) with monitor := m }
  | enqueue {t : ℕ} {e : SmEvt} {todo : List SmEvt} (hc : s.caller t = .locked (e :: todo)) :
      ApiTransition s (.enqueue t true) []
        { s.setCaller t (.queued ⟨s.next, e⟩ todo) with
          queue := s.queue ++ [⟨s.next, e⟩]
          next := s.next + 1 }
  | enqueueFails {t : ℕ} {e : SmEvt} {todo : List SmEvt} (hc : s.caller t = .locked (e :: todo)) :
      ApiTransition s (.enqueue t false) [] (s.setCaller t (.locked todo))
  | wait {t : ℕ} {r : Request} {todo : List SmEvt} {m : Monitor ℕ}
      (hc : s.caller t = .queued r todo) (hm : s.monitor.wait t = some m) :
      ApiTransition s (.wait t) []
        { s.setCaller t (.waiting r todo) with monitor := m, apiResult := none }
  | wake {t : ℕ} {m : Monitor ℕ} (hm : s.monitor.wake t = some m) :
      ApiTransition s (.wake t) [] { s with monitor := m }
  | read {t : ℕ} {r r' : Request} {todo : List SmEvt} {m : Monitor ℕ}
      (hc : s.caller t = .waiting r todo) (hm : s.monitor.lock t = some m)
      (hres : s.apiResult = some r') (hevt : r'.evt = r.evt) :
      ApiTransition s (.resume t) [(r, r')]
        { s.setCaller t (.locked todo) with monitor := m }
  | sleep {t : ℕ} {r : Request} {todo : List SmEvt} {m m' : Monitor ℕ}
      (hc : s.caller t = .waiting r todo) (hm : s.monitor.lock t = some m)
      (hm' : m.wait t = some m') (hres : ∀ r', s.apiResult = some r' → r'.evt ≠ r.evt) :
      ApiTransition s (.resume t) [] { s with monitor := m' }
  | unlock {t : ℕ} {m : Monitor ℕ} (hc : s.caller t = .locked [])
      (hm : s.monitor.unlock t = some m) :
      ApiTransition s (.unlock t) [] { s.setCaller t .idle with monitor := m }
  | take {r : Request} {queue : List Request} (hp : s.posting = none)
      (hq : s.queue = r :: queue) :
      ApiTransition s (.take false) [] { s with queue := queue, posting := some r }
  | defer {r : Request} {queue : List Request} (hp : s.posting = none)
      (hq : s.queue = r :: queue) (hd : s.deferred = none) :
      ApiTransition s (.take true) [] { s with queue := queue, deferred := some r }
  | complete {r : Request} (hp : s.posting = none) (hd : s.deferred = some r) :
      ApiTransition s .complete [] { s with deferred := none, posting := some r }
  | post {w : ℕ} {r : Request} {m : Monitor ℕ} (hp : s.posting = some r)
      (ho : s.monitor.owner = none) (hm : s.monitor.signal w = some m) :
      ApiTransition s (.post w) [] (s.signalAPIResult r m)

theorem ApiSystem.transition_of_step {s s' : ApiSystem} {a : Action}
    {os : List (Request × Request)} (hs : s.step a = some (s', os)) :
    ApiTransition s a os s' := by
  cases a with
  | lock t todo =>
    simp only [step] at hs
    split at hs
    · rename_i hc
      simp only [Option.bind_eq_bind, Option.bind_eq_some_iff, Option.pure_def,
        Option.some.injEq, Prod.mk.injEq] at hs
      obtain ⟨m, hm, rfl, rfl⟩ := hs
      exact .lock hc hm
    · cases hs
  | enqueue t ok =>
    simp only [step] at hs
    split at hs
    · rename_i e todo hc
      cases ok with
      | true =>
        cases hs
        exact .enqueue hc
      | false =>
        cases hs
        exact .enqueueFails hc
    · cases hs
  | wait t =>
    simp only [step] at hs
    split at hs
    · rename_i r todo hc
      simp only [Option.bind_eq_bind, Option.bind_eq_some_iff, Option.pure_def,
        Option.some.injEq, Prod.mk.injEq] at hs
      obtain ⟨m, hm, rfl, rfl⟩ := hs
      exact .wait hc hm
    · cases hs
  | wake t =>
    simp only [step, Option.bind_eq_bind, Option.bind_eq_some_iff, Option.pure_def,
      Option.some.injEq, Prod.mk.injEq] at hs
    obtain ⟨m, hm, rfl, rfl⟩ := hs
    exact .wake hm
  | resume t =>
    simp only [step] at hs
    split at hs
    · rename_i r todo hc
      simp only [Option.bind_eq_bind, Option.bind_eq_some_iff] at hs
      obtain ⟨m, hm, hs⟩ := hs
      split at hs
      · rename_i r' hres
        cases hs
        obtain ⟨hres, hevt⟩ := Option.filter_eq_some_iff.mp hres
        exact .read hc hm hres (by simpa using hevt)
      · rename_i hres
        simp only [Option.bind_eq_some_iff, Option.pure_def, Option.some.injEq,
          Prod.mk.injEq] at hs
        obtain ⟨m', hm', rfl, rfl⟩ := hs
        refine .sleep hc hm hm' ?_
        intro r' hr' hevt
        simp [hr', hevt] at hres
    · cases hs
  | unlock t =>
    simp only [step] at hs
    split at hs
    · rename_i hc
      simp only [Option.bind_eq_bind, Option.bind_eq_some_iff, Option.pure_def,
        Option.some.injEq, Prod.mk.injEq] at hs
      obtain ⟨m, hm, rfl, rfl⟩ := hs
      exact .unlock hc hm
    · cases hs
  | take defer =>
    simp only [step] at hs
    split at hs
    · rename_i r queue hp hq
      cases defer with
      | true =>
        simp only [if_true] at hs
        split at hs
        · rename_i hd
          cases hs
          exact .defer hp hq hd.2
        · cases hs
      | false =>
        cases hs
        exact .take hp hq
    · cases hs
  | complete =>
    simp only [step] at hs
    split at hs
    · rename_i r hp hd
      cases hs
      exact .complete hp hd
    · cases hs
  | post w =>
    simp only [step] at hs
    split at hs
    · rename_i r hp
      split at hs
      · rename_i ho
        simp only [Option.bind_eq_bind, Option.bind_eq_some_iff, Option.pure_def,
          Option.some.injEq, Prod.mk.injEq] at hs
        obtain ⟨m, hm, rfl, rfl⟩ := hs
        exact .post hp ho hm
      · cases hs
    · cases hs

/-! ### What callers may expect -/

section Expect

variable (s : ApiSystem)

/-- A result has been posted, and the caller has not come back with it. -/
def Unread (r : Request) : Prop := r ∈ s.posted ∧ ∃ t todo, s.caller t = .waiting r todo

/-- No caller stays blocked once its result has been posted: it is awake, and
the slot has the result. -/
def NoneBlocked : Prop :=
  ∀ t r todo, s.caller t = .waiting r todo → r ∈ s.posted →
    t ∉ s.monitor.sleepers ∧ s.apiResult = some r

/-- The results returned are those of the callers' own requests. -/
def OwnResults (os : List (Request × Request)) : Prop := ∀ o ∈ os, o.2 = o.1

/-- Nobody clears or overwrites the slot before its result is read, a signal
goes to the caller the result is for, and nobody who is awake finds the result
of another request for the same event. -/
def Tidy : Action → Prop
  | .wait _ => ∀ r, ¬ Unread s r
  | .post w =>
    (∀ r, ¬ Unread s r) ∧
      ∀ t r todo, s.posting = some r → s.caller t = .waiting r todo →
        t ∈ s.monitor.sleepers → t = w
  | .resume t =>
    ∀ r todo r', s.caller t = .waiting r todo → s.apiResult = some r' → r'.evt = r.evt → r' = r
  | _ => True

end Expect

/-! ### What every step keeps -/

def Caller.hasLock : Caller → Bool
  | .locked _ | .queued _ _ => true
  | _ => false

namespace ApiSystem

def pending (s : ApiSystem) : List Request :=
  s.queue ++ s.deferred.toList ++ s.posting.toList

/-- The mutex belongs to the caller that works under it; requests are new, and
each has one result, which is not posted before the caller waits for it. -/
structure Wf (s : ApiSystem) : Prop where
  owner : ∀ t, (s.caller t).hasLock → s.monitor.owner = some t
  queued : ∀ t r todo, s.caller t = .queued r todo → r ∈ s.pending
  unposted : ∀ r ∈ s.pending, r ∉ s.posted
  nodup : s.pending.Nodup
  fresh : ∀ r ∈ s.pending ++ s.posted, r.id < s.next

variable {s s' : ApiSystem} {a : Action} {os : List (Request × Request)} {t u : ℕ}

@[simp] theorem caller_setCaller (x : Caller) :
    (s.setCaller t x).caller u = if u = t then x else s.caller u := by
  simp [setCaller, Function.update_apply]

theorem Wf.setCaller {x : Caller} {m : Monitor ℕ} {res : Option Request} (h : s.Wf)
    (howner : ∀ u, (if u = t then x else s.caller u).hasLock → m.owner = some u)
    (hqueued : ∀ r todo, x = .queued r todo → r ∈ s.pending) :
    ({ s.setCaller t x with monitor := m, apiResult := res } : ApiSystem).Wf := by
  refine ⟨?_, ?_, h.unposted, h.nodup, h.fresh⟩
  · intro u hu
    refine howner u ?_
    rw [← caller_setCaller (s := s)]
    exact hu
  · intro u r todo hu
    have hu' : (s.setCaller t x).caller u = .queued r todo := hu
    rw [caller_setCaller] at hu'
    split at hu'
    · exact hqueued r todo hu'
    · exact h.queued u r todo hu'

theorem Wf.pass (h : s.Wf) {queue : List Request} {deferred posting : Option Request}
    (hperm : (queue ++ deferred.toList ++ posting.toList).Perm s.pending) :
    ({ s with queue := queue, deferred := deferred, posting := posting } : ApiSystem).Wf := by
  have hmem : ∀ r, r ∈ ({ s with queue := queue, deferred := deferred, posting := posting } :
      ApiSystem).pending ↔ r ∈ s.pending := fun r => hperm.mem_iff
  refine ⟨h.owner, fun u r todo hu => (hmem r).mpr (h.queued u r todo hu), ?_, ?_, ?_⟩
  · exact fun r hr => h.unposted r ((hmem r).mp hr)
  · exact hperm.nodup_iff.mpr h.nodup
  · intro r hr
    refine h.fresh r ?_
    rw [List.mem_append] at hr ⊢
    exact hr.imp_left (hmem r).mp

theorem Wf.hasLock_eq_false (h : s.Wf) (ho : s.monitor.owner = none) (u : ℕ) :
    (s.caller u).hasLock = false := by
  by_contra hlock
  have howner := h.owner u (by simpa using hlock)
  rw [ho] at howner
  cases howner

theorem Wf.enqueue {e : SmEvt} {todo : List SmEvt} (h : s.Wf)
    (hc : s.caller t = .locked (e :: todo)) :
    ({ s.setCaller t (.queued ⟨s.next, e⟩ todo) with
      queue := s.queue ++ [⟨s.next, e⟩]
      next := s.next + 1 } : ApiSystem).Wf := by
  set r : Request := ⟨s.next, e⟩
  have hnew : r ∉ s.pending ++ s.posted := fun hmem => absurd (h.fresh r hmem) (lt_irrefl _)
  rw [List.mem_append, not_or] at hnew
  have hperm : (s.queue ++ [r] ++ s.deferred.toList ++ s.posting.toList).Perm
      (r :: s.pending) := by
    simp only [pending, List.append_assoc, List.singleton_append]
    exact List.perm_middle
  refine ⟨?_, ?_, ?_, hperm.nodup_iff.mpr (List.nodup_cons.mpr ⟨hnew.1, h.nodup⟩), ?_⟩
  · intro u hu
    by_cases hut : u = t
    · rw [hut]
      exact h.owner t (by rw [hc]; rfl)
    · have hu' : ((s.setCaller t (.queued r todo)).caller u).hasLock := hu
      rw [caller_setCaller, if_neg hut] at hu'
      exact h.owner u hu'
  · intro u r' todo' hu
    refine hperm.mem_iff.mpr ?_
    have hu' : (s.setCaller t (.queued r todo)).caller u = .queued r' todo' := hu
    rw [caller_setCaller] at hu'
    split at hu'
    · cases hu'
      exact List.mem_cons_self
    · exact List.mem_cons_of_mem _ (h.queued u r' todo' hu')
  · intro r' hr'
    rcases List.mem_cons.mp (hperm.mem_iff.mp hr') with rfl | hr'
    · exact hnew.2
    · exact h.unposted r' hr'
  · intro r' hr'
    have hlt : r'.id < s.next ∨ r' = r := by
      rcases List.mem_append.mp hr' with hr' | hr'
      · rcases List.mem_cons.mp (hperm.mem_iff.mp hr') with heq | hr'
        · exact .inr heq
        · exact .inl (h.fresh r' (List.mem_append_left _ hr'))
      · exact .inl (h.fresh r' (List.mem_append_right _ hr'))
    rcases hlt with hlt | rfl
    · exact Nat.lt_succ_of_lt hlt
    · exact Nat.lt_succ_self _

theorem Wf.post {r : Request} {m : Monitor ℕ} (h : s.Wf) (hp : s.posting = some r)
    (ho : s.monitor.owner = none) : (s.signalAPIResult r m).Wf := by
  have hpend : s.pending = s.queue ++ s.deferred.toList ++ [r] := by simp [pending, hp]
  have hrest : (s.signalAPIResult r m).pending = s.queue ++ s.deferred.toList := by
    simp [pending, signalAPIResult]
  have hnodup := h.nodup
  rw [hpend, List.nodup_append] at hnodup
  obtain ⟨hrestnodup, -, hdisj⟩ := hnodup
  refine ⟨?_, ?_, ?_, ?_, ?_⟩
  · intro u hu
    have hlock : (s.caller u).hasLock = true := hu
    rw [h.hasLock_eq_false ho u] at hlock
    cases hlock
  · -- nobody is between the queue and the wait while a result is posted
    intro u r' todo hu
    have hlock := h.hasLock_eq_false ho u
    rw [show s.caller u = .queued r' todo from hu] at hlock
    cases hlock
  · intro r' hr'
    rw [hrest] at hr'
    show r' ∉ r :: s.posted
    rw [List.mem_cons, not_or]
    refine ⟨hdisj r' hr' r (List.mem_singleton_self r), ?_⟩
    exact h.unposted r' (by rw [hpend]; exact List.mem_append_left _ hr')
  · rw [hrest]
    exact hrestnodup
  · intro r' hr'
    refine h.fresh r' ?_
    rw [hrest, show (s.signalAPIResult r m).posted = r :: s.posted from rfl] at hr'
    rw [hpend]
    simp only [List.mem_append, List.mem_cons, List.not_mem_nil, or_false] at hr' ⊢
    tauto

theorem Wf.handOver {x : Caller} {m : Monitor ℕ} {res : Option Request} (h : s.Wf)
    (hfree : s.monitor.owner = none ∨ s.monitor.owner = some t)
    (hx : x.hasLock → m.owner = some t) (hqueued : ∀ r todo, x ≠ .queued r todo) :
    ({ s.setCaller t x with monitor := m, apiResult := res } : ApiSystem).Wf := by
  refine h.setCaller ?_ fun r todo heq => absurd heq (hqueued r todo)
  intro u hu
  split at hu
  · rename_i heq
    rw [heq]
    exact hx hu
  · rename_i hne
    have howner := h.owner u hu
    rcases hfree with hfree | hfree
    · rw [hfree] at howner
      cases howner
    · rw [hfree] at howner
      exact absurd (Option.some.inj howner).symm hne

theorem Wf.step (h : s.Wf) (hs : s.step a = some (s', os)) : s'.Wf := by
  cases transition_of_step hs with
  | lock hc hm | read hc hm hres hevt =>
    obtain ⟨hfree, -, howner, -⟩ := Monitor.lock_inv hm
    exact h.handOver (.inl hfree) (fun _ => howner) nofun
  | enqueue hc => exact h.enqueue hc
  | @enqueueFails t e todo hc =>
    have howner := h.owner t (by rw [hc]; rfl)
    exact h.handOver (m := s.monitor) (.inr howner) (fun _ => howner) nofun
  | wait hc hm =>
    obtain ⟨howner, -, -⟩ := Monitor.wait_inv hm
    exact h.handOver (.inr howner) nofun nofun
  | wake hm =>
    obtain ⟨-, howner, -⟩ := Monitor.wake_inv hm
    exact ⟨fun u hu => howner.trans (h.owner u hu), h.queued, h.unposted, h.nodup, h.fresh⟩
  | sleep hc hm hm' hres =>
    obtain ⟨hfree, -, -, -⟩ := Monitor.lock_inv hm
    refine ⟨fun u hu => ?_, h.queued, h.unposted, h.nodup, h.fresh⟩
    rw [h.hasLock_eq_false hfree u] at hu
    cases hu
  | unlock hc hm =>
    obtain ⟨howner, -, -⟩ := Monitor.unlock_inv hm
    exact h.handOver (.inr howner) nofun nofun
  | @take r queue hp hq =>
    have hpend : s.pending = r :: (queue ++ s.deferred.toList) := by simp [pending, hp, hq]
    refine h.pass ?_
    rw [hpend]
    exact List.perm_append_singleton r (queue ++ s.deferred.toList)
  | defer hp hq hd =>
    refine h.pass ?_
    rw [pending, hp, hq, hd]
    simp
  | complete hp hd =>
    refine h.pass ?_
    simp [pending, hp, hd]
  | post hp ho hm => exact h.post hp ho

end ApiSystem

/-! ### Where results are lost -/

section Delivery

open ApiSystem

variable {s s' : ApiSystem} {a : Action} {os : List (Request × Request)} {t : ℕ}

theorem NoneBlocked.setCaller {x : Caller} {m : Monitor ℕ} (hnone : NoneBlocked s)
    (hx : ∀ r todo, x ≠ .waiting r todo) (hm : ∀ u, u ∈ m.sleepers → u ∈ s.monitor.sleepers) :
    NoneBlocked { s.setCaller t x with monitor := m } := by
  intro u r todo hu hr
  have hu' : (s.setCaller t x).caller u = .waiting r todo := hu
  rw [caller_setCaller] at hu'
  split at hu'
  · exact absurd hu' (hx r todo)
  · obtain ⟨hawake, hres⟩ := hnone u r todo hu' hr
    exact ⟨fun hmem => hawake (hm u hmem), hres⟩

theorem noneBlocked_wait_iff {r : Request} {todo : List SmEvt} {m : Monitor ℕ} (h : s.Wf)
    (hc : s.caller t = .queued r todo) :
    NoneBlocked { s.setCaller t (.waiting r todo) with monitor := m, apiResult := none } ↔
      ∀ r, ¬ Unread s r := by
  constructor
  · rintro hnone r' ⟨hr', u, todo', hu⟩
    have hne : u ≠ t := by
      rintro rfl
      rw [hc] at hu
      cases hu
    have hu' : (s.setCaller t (.waiting r todo)).caller u = .waiting r' todo' := by
      rw [caller_setCaller, if_neg hne, hu]
    cases (hnone u r' todo' hu' hr').2
  · intro hread u r' todo' hu hr'
    have hu' : (s.setCaller t (.waiting r todo)).caller u = .waiting r' todo' := hu
    rw [caller_setCaller] at hu'
    split at hu'
    · -- its own request is still pending
      cases hu'
      exact absurd hr' (h.unposted r (h.queued t r todo hc))
    · exact absurd ⟨hr', u, todo', hu'⟩ (hread r')

/-- The slot is filled: an older result in it is lost, and the caller must be
awake or be the one that is woken. -/
theorem noneBlocked_post_iff {r : Request} {m : Monitor ℕ} {w : ℕ} (h : s.Wf)
    (hp : s.posting = some r) (hm : s.monitor.signal w = some m) :
    NoneBlocked (s.signalAPIResult r m) ↔ Tidy s (.post w) := by
  obtain ⟨-, hsleep⟩ := Monitor.signal_inv hm
  have hfresh : r ∉ s.posted := h.unposted r (by simp [pending, hp])
  constructor
  · intro hnone
    refine ⟨?_, ?_⟩
    · rintro r' ⟨hr', u, todo, hu⟩
      obtain ⟨-, hres⟩ := hnone u r' todo hu (List.mem_cons_of_mem _ hr')
      obtain rfl : r = r' := Option.some.inj hres
      exact hfresh hr'
    · intro u r' todo hr' hu hmem
      obtain rfl : r = r' := by rw [hp] at hr'; exact Option.some.inj hr'
      obtain ⟨hawake, -⟩ := hnone u r todo hu List.mem_cons_self
      by_contra hne
      exact hawake ((hsleep u).mpr ⟨hmem, hne⟩)
  · rintro ⟨hread, hwake⟩ u r' todo hu hr'
    rcases List.mem_cons.mp hr' with rfl | hr'
    · refine ⟨fun hmem => ?_, rfl⟩
      obtain ⟨hmem, hne⟩ := (hsleep u).mp hmem
      exact hne (hwake u r' todo hp hu hmem)
    · exact absurd ⟨hr', u, todo, hu⟩ (hread r')

/-- **A step neither loses nor mixes up a result exactly if it is tidy.** -/
theorem ownResults_step_iff (h : s.Wf) (hnone : NoneBlocked s)
    (hs : s.step a = some (s', os)) : OwnResults os ∧ NoneBlocked s' ↔ Tidy s a := by
  have hnil : OwnResults [] := List.forall_mem_nil _
  cases transition_of_step hs with
  | lock hc hm =>
    obtain ⟨-, -, -, hsleep⟩ := Monitor.lock_inv hm
    exact iff_of_true ⟨hnil, hnone.setCaller nofun fun u hu => hsleep ▸ hu⟩ trivial
  | enqueue hc | enqueueFails hc =>
    exact iff_of_true ⟨hnil, hnone.setCaller (m := s.monitor) nofun fun u hu => hu⟩ trivial
  | wait hc hm =>
    rw [noneBlocked_wait_iff h hc]
    exact and_iff_right hnil
  | wake hm =>
    obtain ⟨-, -, hsleep⟩ := Monitor.wake_inv hm
    refine iff_of_true ⟨hnil, fun u r todo hu hr => ?_⟩ trivial
    obtain ⟨hawake, hres⟩ := hnone u r todo hu hr
    exact ⟨fun hmem => hawake ((hsleep u).mp hmem).1, hres⟩
  | @read t r r' todo m hc hm hres hevt =>
    obtain ⟨-, -, -, hsleep⟩ := Monitor.lock_inv hm
    have hrest : NoneBlocked { s.setCaller t (.locked todo) with monitor := m } :=
      hnone.setCaller nofun fun u hu => hsleep ▸ hu
    constructor
    · rintro ⟨hown, -⟩ r₁ todo₁ r₂ hc₁ hres₂ -
      rw [hc] at hc₁
      cases hc₁
      rw [hres] at hres₂
      cases hres₂
      exact hown _ (List.mem_singleton_self _)
    · intro htidy
      refine ⟨?_, hrest⟩
      intro o ho
      rw [List.mem_singleton.mp ho]
      exact htidy r todo r' hc hres hevt
  | @sleep t r todo m m' hc hm hm' hres =>
    obtain ⟨-, hawake, -, hsleep⟩ := Monitor.lock_inv hm
    obtain ⟨-, -, hsleep'⟩ := Monitor.wait_inv hm'
    refine iff_of_true ⟨hnil, ?_⟩ ?_
    · intro u r' todo' hu hr'
      obtain ⟨huawake, hures⟩ := hnone u r' todo' hu hr'
      refine ⟨?_, hures⟩
      have hne : u ≠ t := by
        rintro rfl
        rw [show s.caller u = .waiting r' todo' from hu] at hc
        cases hc
        exact hres r hures rfl
      show u ∉ m'.sleepers
      rw [hsleep', hsleep, List.mem_cons, not_or]
      exact ⟨hne, huawake⟩
    · intro r₁ todo₁ r₂ hc₁ hres₂ hevt
      rw [hc] at hc₁
      cases hc₁
      exact absurd hevt (hres r₂ hres₂)
  | unlock hc hm =>
    obtain ⟨-, -, hsleep⟩ := Monitor.unlock_inv hm
    exact iff_of_true ⟨hnil, hnone.setCaller nofun fun u hu => hsleep ▸ hu⟩ trivial
  | take hp hq | defer hp hq hd | complete hp hd => exact iff_of_true ⟨hnil, hnone⟩ trivial
  | post hp ho hm =>
    rw [noneBlocked_post_iff h hp hm]
    exact and_iff_right hnil

/-- A caller whose result has been posted can return with it once the mutex is
free. -/
theorem NoneBlocked.resume {r : Request} {todo : List SmEvt} (hnone : NoneBlocked s)
    (hc : s.caller t = .waiting r todo) (hr : r ∈ s.posted) (ho : s.monitor.owner = none) :
    ∃ s', s.step (.resume t) = some (s', [(r, r)]) ∧ s'.caller t = .locked todo := by
  obtain ⟨hawake, hres⟩ := hnone t r todo hc hr
  obtain ⟨m, hm⟩ : ∃ m, s.monitor.lock t = some m := by
    rw [Monitor.lock, dif_pos ⟨ho, hawake⟩]
    exact ⟨_, rfl⟩
  have hread : (s.apiResult.filter fun r' => r'.evt = r.evt) = some r := by
    simp [hres, Option.filter_some]
  refine ⟨{ s.setCaller t (.locked todo) with monitor := m }, ?_, ?_⟩
  · simp only [ApiSystem.step, hc, hm, hread]
    rfl
  · exact (caller_setCaller _).trans (if_pos rfl)

theorem wf_initial : initial.Wf := by
  refine ⟨nofun, nofun, nofun, List.nodup_nil, nofun⟩

theorem noneBlocked_initial : NoneBlocked initial := nofun

theorem OwnResults.append {os' : List (Request × Request)} (h : OwnResults os)
    (h' : OwnResults os') : OwnResults (os ++ os') := by
  intro o ho
  exact (List.mem_append.mp ho).elim (h o) (h' o)

/-- **Runs of tidy steps deliver every result.**  Every caller returns the result
of its own request, and none stays blocked once its result has been posted: it
can return with the result as soon as the mutex is free.  The steps that are not
tidy are those that end this. -/
theorem api_results_delivered {as : List Action} (hrun : Runs ApiSystem.step Tidy initial as os s) :
    OwnResults os ∧ NoneBlocked s ∧
      (∀ t r todo, s.caller t = .waiting r todo → r ∈ s.posted → s.monitor.owner = none →
        ∃ s', s.step (.resume t) = some (s', [(r, r)]) ∧ s'.caller t = .locked todo) ∧
      ∀ a s' o, s.step a = some (s', o) → (OwnResults o ∧ NoneBlocked s' ↔ Tidy s a) := by
  have hinv : s.Wf ∧ NoneBlocked s ∧ OwnResults os := by
    refine hrun.inv (fun _ os s => s.Wf ∧ NoneBlocked s ∧ OwnResults os)
      ⟨wf_initial, noneBlocked_initial, List.forall_mem_nil _⟩ ?_
    rintro as os s a s' o ⟨hwf, hnone, hown⟩ htidy hs
    obtain ⟨hown', hnone'⟩ := (ownResults_step_iff hwf hnone hs).mpr htidy
    exact ⟨hwf.step hs, hnone', hown.append hown'⟩
  obtain ⟨hwf, hnone, hown⟩ := hinv
  exact ⟨hown, hnone, fun t r todo hc hr ho => hnone.resume hc hr ho,
    fun a s' o hs => ownResults_step_iff hwf hnone hs⟩

theorem not_unread_of_posted_eq_nil (h : s.posted = []) (r : Request) : ¬ Unread s r := by
  rintro ⟨hr, -⟩
  rw [h] at hr
  cases hr

/-- Two calls overlap, and each result is read before the next is posted. -/
theorem api_results_delivered_overlap : ∃ s,
    Runs ApiSystem.step Tidy initial
      [.lock 0 [.getParams], .enqueue 0 true, .wait 0, .lock 1 [.previewEnabled],
        .enqueue 1 true, .wait 1, .take false, .post 0, .resume 0, .unlock 0, .take false,
        .post 1, .resume 1, .unlock 1]
      [(⟨0, .getParams⟩, ⟨0, .getParams⟩), (⟨1, .previewEnabled⟩, ⟨1, .previewEnabled⟩)] s ∧
    OwnResults [(⟨0, .getParams⟩, ⟨0, .getParams⟩),
      (⟨1, .previewEnabled⟩, ⟨1, .previewEnabled⟩)] ∧
    NoneBlocked s := by
  obtain ⟨s, hexec⟩ : ∃ s, exec ApiSystem.step initial
      [.lock 0 [.getParams], .enqueue 0 true, .wait 0, .lock 1 [.previewEnabled],
        .enqueue 1 true, .wait 1, .take false, .post 0, .resume 0, .unlock 0, .take false,
        .post 1, .resume 1, .unlock 1] =
      some (s, [(⟨0, .getParams⟩, ⟨0, .getParams⟩),
        (⟨1, .previewEnabled⟩, ⟨1, .previewEnabled⟩)]) := ⟨_, rfl⟩
  have hrun := runs_of_exec_guarded (G := Tidy) .nil hexec <| by
    iterate 2 (refine ⟨trivial, ?_⟩; rintro _ ⟨⟩)
    refine ⟨not_unread_of_posted_eq_nil rfl, ?_⟩; rintro _ ⟨⟩
    iterate 2 (refine ⟨trivial, ?_⟩; rintro _ ⟨⟩)
    refine ⟨not_unread_of_posted_eq_nil rfl, ?_⟩; rintro _ ⟨⟩
    refine ⟨trivial, ?_⟩; rintro _ ⟨⟩
    -- both sleep, and the signal goes to the first
    refine ⟨⟨not_unread_of_posted_eq_nil rfl, ?_⟩, ?_⟩
    · rintro (_ | _ | t) r todo ⟨⟩ hc -
      · rfl
      · exact nomatch (show Caller.waiting ⟨1, .previewEnabled⟩ [] = _ from hc)
      · exact nomatch (show Caller.idle = _ from hc)
    rintro _ ⟨⟩
    refine ⟨?_, ?_⟩
    · rintro r todo r' ⟨⟩ ⟨⟩ -
      rfl
    rintro _ ⟨⟩
    iterate 2 (refine ⟨trivial, ?_⟩; rintro _ ⟨⟩)
    -- the first has returned
    refine ⟨⟨?_, ?_⟩, ?_⟩
    · rintro r ⟨hr, _ | _ | t, todo, hc⟩
      · exact nomatch (show Caller.idle = _ from hc)
      · cases hc
        cases hr with
        | tail _ hr => cases hr
      · exact nomatch (show Caller.idle = _ from hc)
    · rintro (_ | _ | t) r todo ⟨⟩ hc -
      · exact nomatch (show Caller.idle = _ from hc)
      · rfl
      · exact nomatch (show Caller.idle = _ from hc)
    rintro _ ⟨⟩
    refine ⟨?_, ?_⟩
    · rintro r todo r' ⟨⟩ ⟨⟩ -
      rfl
    rintro _ ⟨⟩
    exact ⟨trivial, fun _ _ => trivial⟩
  exact ⟨s, hrun, (api_results_delivered hrun).1, (api_results_delivered hrun).2.1⟩

/-- A second caller clears the slot before the first has read it: the first goes
back to sleep although its result has been posted. -/
theorem getParams_result_lost : ∃ s,
    exec ApiSystem.step initial
      [.lock 0 [.getParams], .enqueue 0 true, .wait 0, .take false, .post 0,
        .lock 1 [.previewEnabled], .enqueue 1 true, .wait 1, .resume 0] = some (s, []) ∧
    s.caller 0 = .waiting ⟨0, .getParams⟩ [] ∧ ⟨0, .getParams⟩ ∈ s.posted ∧
    0 ∈ s.monitor.sleepers ∧ ¬ NoneBlocked s := by
  refine ⟨_, rfl, rfl, List.mem_singleton_self _, List.mem_cons_self, ?_⟩
  intro hnone
  exact (hnone 0 ⟨0, .getParams⟩ [] rfl (List.mem_singleton_self _)).1 List.mem_cons_self

end Delivery

end Qcamera

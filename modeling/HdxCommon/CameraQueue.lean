/-
`QCameraQueue` as a double-ended queue.

The queue is a circular list of nodes, each with a pointer to its data, behind a mutex.
Reading or changing a node that is not live is a fault.

* `CameraQueue.step` — the operations on the list; `absStep` — those on a sequence;
* `Holds` — the list has these nodes with this data, and `m_size` counts them;
* `queue_refines_deque` — along every sequence of operations the list reads as the
  sequence in both directions, and what the caller sees is the same.
-/
import HdxCommon.Ring
import HdxCommon.Runs

namespace Qcamera

open CircularList

/-- What a caller of the queue sees: what the operations return, and the data that is
given to `m_dataFn` and to `free`. -/
inductive QueueEvent where
  | success (b : Bool)
  | data (d : Option ℕ)
  | dataFn (d : ℕ)
  | free (d : ℕ)
  deriving DecidableEq, Repr

/-- A queue in the heap; `m_head` is the address of the node inside it. -/
structure CameraQueue where
  heap : Heap
  mHead : ℕ
  mSize : ℤ
  mDataFn : Bool

/-- The operations; `malloc` is the address of the new node, or `NULL`. -/
inductive QueueOp where
  | enqueue (data malloc : Option ℕ)
  | enqueueWithPriority (data malloc : Option ℕ)
  | dequeue (bFromHead : Bool)
  | flush
  | flushNodes (matchFn : Option (Option ℕ → Bool))

namespace CameraQueue

def init (head : ℕ) (dataFn : Bool) (h : Heap) : Except Fault CameraQueue := do
  let h ← h.initNode head
  return ⟨h, head, 0, dataFn⟩

/-- The heap with a new node at `a`. -/
def newNode (q : CameraQueue) (a : ℕ) (data : Option ℕ) : Heap :=
  { q.heap with node := Function.update q.heap.node a (some ⟨0, 0, data⟩) }

def enqueue (q : CameraQueue) (data : Option ℕ) :
    Option ℕ → Except Fault (CameraQueue × List QueueEvent)
  | none => .ok (q, [.success false])
  | some a => do
    let h ← (q.newNode a data).addTailNode a q.mHead
    return ({ q with heap := h, mSize := q.mSize + 1 }, [.success true])

def enqueueWithPriority (q : CameraQueue) (data : Option ℕ) :
    Option ℕ → Except Fault (CameraQueue × List QueueEvent)
  | none => .ok (q, [.success false])
  | some a => do
    let h := q.newNode a data
    let next := (← h.load q.mHead).next
    let h ← h.setNext q.mHead a
    let h ← h.setPrev next a
    let h ← h.setNext a next
    let h ← h.setPrev a q.mHead
    return ({ q with heap := h, mSize := q.mSize + 1 }, [.success true])

/-- `cam_list_del_node`, `m_size--` and `free(node)`, with the data of the node. -/
def removeNode (q : CameraQueue) (pos : ℕ) : Except Fault (CameraQueue × Option ℕ) := do
  let h ← q.heap.delNode pos
  let data := (← h.load pos).data
  let h ← h.freeNode pos
  return ({ q with heap := h, mSize := q.mSize - 1 }, data)

def dequeue (q : CameraQueue) (bFromHead : Bool) :
    Except Fault (CameraQueue × List QueueEvent) := do
  let head ← q.heap.load q.mHead
  let pos := if bFromHead then head.next else head.prev
  if pos ≠ q.mHead then
    let (q, data) ← q.removeNode pos
    return (q, [.data data])
  else return (q, [.data none])

/-- What happens to data that is not `NULL`. -/
def released (dataFn : Bool) : Option ℕ → List QueueEvent
  | none => []
  | some d => (if dataFn then [.dataFn d] else []) ++ [.free d]

/-- One round of `flush` and `flushNodes`. -/
def flushRound (p : Option ℕ → Bool) (pos : ℕ) (q : CameraQueue) :
    Except Fault (ℕ × CameraQueue × List QueueEvent) := do
  let node ← q.heap.load pos
  if p node.data then
    let (q, data) ← q.removeNode pos
    return (node.next, q, released q.mDataFn data)
  else return (node.next, q, [])

/-- The `while` loop; `none` on a fault, or if it takes more than `n` rounds. -/
def flushLoop (p : Option ℕ → Bool) :
    ℕ → ℕ → CameraQueue → Option (CameraQueue × List QueueEvent)
  | 0, pos, q => if pos = q.mHead then some (q, []) else none
  | n + 1, pos, q =>
    if pos = q.mHead then some (q, [])
    else do
      let (pos, q, o) ← (flushRound p pos q).toOption
      let (q, os) ← flushLoop p n pos q
      return (q, o ++ os)

def flushWith (p : Option ℕ → Bool) (n : ℕ) (q : CameraQueue) :
    Option (CameraQueue × List QueueEvent) := do
  let head ← (q.heap.load q.mHead).toOption
  flushLoop p n head.next q

def flush (n : ℕ) (q : CameraQueue) : Option (CameraQueue × List QueueEvent) := do
  let (q, os) ← flushWith (fun _ => true) n q
  return ({ q with mSize := 0 }, os)

def flushNodes (n : ℕ) (q : CameraQueue) :
    Option (Option ℕ → Bool) → Option (CameraQueue × List QueueEvent)
  | none => some (q, [])
  | some p => flushWith p n q

/-- An operation, its loops with `n` rounds at most. -/
def step (n : ℕ) (q : CameraQueue) : QueueOp → Option (CameraQueue × List QueueEvent)
  | .enqueue data malloc => (q.enqueue data malloc).toOption
  | .enqueueWithPriority data malloc => (q.enqueueWithPriority data malloc).toOption
  | .dequeue bFromHead => (q.dequeue bFromHead).toOption
  | .flush => q.flush n
  | .flushNodes matchFn => q.flushNodes n matchFn

/-- `malloc` returns memory that is not in use. -/
def Fresh (q : CameraQueue) : QueueOp → Prop
  | .enqueue _ (some a) | .enqueueWithPriority _ (some a) => q.heap.node a = none
  | _ => True

def absStep (dataFn : Bool) (xs : List (Option ℕ)) : QueueOp → List (Option ℕ) × List QueueEvent
  | .enqueue _ none | .enqueueWithPriority _ none => (xs, [.success false])
  | .enqueue data (some _) => (xs ++ [data], [.success true])
  | .enqueueWithPriority data (some _) => (data :: xs, [.success true])
  | .dequeue true => (xs.tail, [.data xs.head?.join])
  | .dequeue false => (xs.dropLast, [.data xs.getLast?.join])
  | .flush => ([], xs.flatMap (released dataFn))
  | .flushNodes none => (xs, [])
  | .flushNodes (some p) => (xs.filter (!p ·), (xs.filter p).flatMap (released dataFn))

/-! ### What a queue holds -/

structure Holds (q : CameraQueue) (xs : List (ℕ × Option ℕ)) : Prop where
  ring : q.heap.Ring q.mHead (xs.map Prod.fst)
  data : ∀ x ∈ xs, q.heap.data x.1 = some x.2
  size : q.mSize = xs.length

variable {q : CameraQueue} {x : ℕ × Option ℕ} {xs l₁ l₂ : List (ℕ × Option ℕ)} {a n : ℕ}
  {data : Option ℕ}

theorem Holds.held (hq : q.Holds xs) : q.heap.Holds q.mHead xs := ⟨hq.ring, hq.data⟩

theorem Holds.removeNode (hq : q.Holds (l₁ ++ x :: l₂)) :
    ∃ q', q.removeNode x.1 = .ok (q', x.2) ∧ q'.Holds (l₁ ++ l₂) ∧ q'.mHead = q.mHead ∧
      q'.mDataFn = q.mDataFn := by
  obtain ⟨h₁, node, hdel, -, hnode, hdata, hrest⟩ := hq.held.remove
  have hheld := hrest { h₁ with
    node := Function.update h₁.node x.1 none
    freed := h₁.freed ++ [.node x.1] } rfl
  refine ⟨{ q with heap := _, mSize := q.mSize - 1 }, ?_, ⟨hheld.ring, hheld.data, ?_⟩, rfl, rfl⟩
  · simp [CameraQueue.removeNode, hdel, Heap.load_of_node hnode, Heap.freeNode_of_node hnode, hdata,
      bind, Except.bind, pure, Except.pure]
  · rw [hq.size, List.length_append, List.length_append, List.length_cons]
    push_cast
    ring

theorem Holds.added {h' : Heap} (hq : q.Holds (l₁ ++ l₂))
    (hheld : h'.Holds q.mHead (l₁ ++ x :: l₂)) :
    { q with heap := h', mSize := q.mSize + 1 }.Holds (l₁ ++ x :: l₂) := by
  refine ⟨hheld.ring, hheld.data, ?_⟩
  rw [hq.size, List.length_append, List.length_append, List.length_cons]
  push_cast
  ring

theorem Holds.enqueue (hq : q.Holds xs) (data : Option ℕ) (hfresh : q.heap.node a = none) :
    ∃ q', q.enqueue data (some a) = .ok (q', [.success true]) ∧ q'.mDataFn = q.mDataFn ∧
      q'.Holds (xs ++ [(a, data)]) := by
  obtain ⟨h', hadd, -, hheld⟩ := hq.held.addTail hfresh data
  rw [← xs.append_nil] at hq
  refine ⟨{ q with heap := h', mSize := q.mSize + 1 }, ?_, rfl, hq.added hheld⟩
  have hadd : (q.newNode a data).addTailNode a q.mHead = .ok h' := hadd
  simp only [CameraQueue.enqueue, hadd, bind, Except.bind]
  rfl

theorem Holds.enqueueWithPriority (hq : q.Holds xs) (data : Option ℕ)
    (hfresh : q.heap.node a = none) :
    ∃ q', q.enqueueWithPriority data (some a) = .ok (q', [.success true]) ∧
      q'.mDataFn = q.mDataFn ∧ q'.Holds ((a, data) :: xs) := by
  obtain ⟨hdead, hring⟩ := hq.ring.alloc hfresh (some ⟨0, 0, data⟩)
  generalize hh : ({ q.heap with
    node := Function.update q.heap.node a (some ⟨0, 0, data⟩) } : Heap) = h at hring
  have hlive : (h.node a).isSome := by simp [← hh]
  have hhead : (h.node q.mHead).isSome := hring.isSome List.mem_cons_self
  have hnext : (h.node ((xs.map Prod.fst).headD q.mHead)).isSome := by
    refine hring.isSome ?_
    cases xs <;> simp
  have hne : q.mHead ≠ a := fun heq => hdead (heq ▸ List.mem_cons_self)
  obtain ⟨node, hnode, hfirst⟩ := Option.map_eq_some_iff.mp hring.next_head
  obtain ⟨h₁, hset₁, hnext₁, hprev₁, hsame₁⟩ := Heap.setNext_spec hhead a
  obtain ⟨h₂, hset₂, hprev₂, hnext₂, hsame₂⟩ := Heap.setPrev_spec (h := h₁)
    (by rw [hsame₁.isSome]; exact hnext) a
  obtain ⟨h₃, hset₃, hnext₃, hprev₃, hsame₃⟩ := Heap.setNext_spec (h := h₂) (a := a)
    (by rw [hsame₂.isSome, hsame₁.isSome]; exact hlive) ((xs.map Prod.fst).headD q.mHead)
  obtain ⟨h₄, hset₄, hprev₄, hnext₄, hsame₄⟩ := Heap.setPrev_spec (h := h₃) (a := a)
    (by rw [hsame₃.isSome, hsame₂.isSome, hsame₁.isSome]; exact hlive) q.mHead
  have hsame := hsame₁.trans (hsame₂.trans (hsame₃.trans hsame₄))
  refine ⟨{ q with heap := h₄, mSize := q.mSize + 1 }, ?_, rfl, ?_⟩
  · simp only [CameraQueue.enqueueWithPriority, newNode, hh, Heap.load_of_node hnode, hfirst, bind,
      Except.bind, hset₁, hset₂, hset₃, hset₄]
    rfl
  · have hq' : q.Holds ([] ++ xs) := hq
    have hring' : h.Ring q.mHead ([] ++ xs.map Prod.fst) := hring
    have hb : (xs.map Prod.fst ++ [q.mHead]).head? = some ((xs.map Prod.fst).headD q.mHead) := by
      cases xs <;> rfl
    refine hq'.added (hq'.held.insert hdead (by rw [Heap.alloc, hh]; exact hsame)
      (hring'.insert hdead rfl hb ?_ ?_))
    · rw [hnext₄, hnext₃, hnext₂, hnext₁]
      exact Function.update_comm hne _ _ _
    · rw [hprev₄, hprev₃, hprev₂, hprev₁]
      rfl

/-- The queue has become `q'`, which holds the data `ys`. -/
def Became (q : CameraQueue) (ys : List (Option ℕ)) (q' : CameraQueue) : Prop :=
  q'.mDataFn = q.mDataFn ∧ ∃ xs, q'.Holds xs ∧ xs.map Prod.snd = ys

theorem Holds.dequeue (hq : q.Holds xs) (bFromHead : Bool) :
    ∃ q', q.dequeue bFromHead =
        .ok (q', (absStep q.mDataFn (xs.map Prod.snd) (.dequeue bFromHead)).2) ∧
      q.Became (absStep q.mDataFn (xs.map Prod.snd) (.dequeue bFromHead)).1 q' := by
  obtain ⟨node, hload, hnext, hprev⟩ := hq.held.load_head
  cases bFromHead with
  | true =>
    cases xs with
    | nil =>
      refine ⟨q, ?_, rfl, [], hq, rfl⟩
      simp [CameraQueue.dequeue, hload, hnext, absStep, bind, Except.bind, pure, Except.pure]
    | cons x xs =>
      have hq' : q.Holds ([] ++ x :: xs) := hq
      obtain ⟨q', hremove, hrest, -, hfn⟩ := hq'.removeNode
      refine ⟨q', ?_, hfn, xs, hrest, rfl⟩
      have hne := hq'.held.ne_head
      simp [CameraQueue.dequeue, hload, hnext, hne, hremove, absStep, bind, Except.bind, pure,
        Except.pure]
  | false =>
    rcases List.eq_nil_or_concat' xs with rfl | ⟨l, x, rfl⟩
    · refine ⟨q, ?_, rfl, [], hq, rfl⟩
      simp [CameraQueue.dequeue, hload, hprev, absStep, bind, Except.bind, pure, Except.pure]
    · obtain ⟨q', hremove, hrest, -, hfn⟩ := hq.removeNode
      refine ⟨q', ?_, hfn, l, by simpa using hrest, by simp [absStep]⟩
      have hne := hq.held.ne_head
      simp [CameraQueue.dequeue, hload, hprev, hne, hremove, absStep, bind, Except.bind, pure,
        Except.pure]

/-- The loop of a flush goes through the list once, and the nodes before `pos` stay. -/
theorem Holds.flushLoop (p : Option ℕ → Bool) (hq : q.Holds (l₁ ++ l₂)) (hn : l₂.length ≤ n) :
    ∃ q', flushLoop p n ((l₂.map Prod.fst).headD q.mHead) q =
        some (q', ((l₂.map Prod.snd).filter p).flatMap (released q.mDataFn)) ∧
      q'.Holds (l₁ ++ l₂.filter (!p ·.2)) ∧ q'.mDataFn = q.mDataFn := by
  induction l₂ generalizing l₁ q n with
  | nil =>
    refine ⟨q, ?_, by simpa using hq, rfl⟩
    cases n <;> simp [CameraQueue.flushLoop]
  | cons x l₂ ih =>
    obtain ⟨n, rfl⟩ : ∃ m, n = m + 1 := ⟨n - 1, by rw [List.length_cons] at hn; omega⟩
    have hn' : l₂.length ≤ n := by simpa using hn
    have hne := hq.held.ne_head
    obtain ⟨node, hload, hdata, hnext⟩ := hq.held.load
    by_cases hp : p x.2 = true
    · obtain ⟨q₁, hremove, hq₁, hhead, hfn⟩ := hq.removeNode
      obtain ⟨q', hloop, hq', hfn'⟩ := ih hq₁ hn'
      refine ⟨q', ?_, by simpa [hp] using hq', hfn'.trans hfn⟩
      rw [hhead, hfn] at hloop
      have hround : flushRound p x.1 q =
          .ok ((l₂.map Prod.fst).headD q.mHead, q₁, released q.mDataFn x.2) := by
        simp only [flushRound, hload, hdata, hp, hremove, hnext, hfn, bind, Except.bind, if_true]
        rfl
      simp only [List.map_cons, List.headD_cons, CameraQueue.flushLoop, if_neg hne, hround,
        Except.toOption, Option.bind_eq_bind, Option.bind_some, hloop, List.filter_cons_of_pos hp]
      rfl
    · have hq₁ : q.Holds ((l₁ ++ [x]) ++ l₂) := by simpa using hq
      obtain ⟨q', hloop, hq', hfn'⟩ := ih hq₁ hn'
      refine ⟨q', ?_, by simpa [hp] using hq', hfn'⟩
      have hround : flushRound p x.1 q = .ok ((l₂.map Prod.fst).headD q.mHead, q, []) := by
        simp only [flushRound, hload, hdata, hp, hnext, bind, Except.bind]
        rfl
      simp only [List.map_cons, List.headD_cons, CameraQueue.flushLoop, if_neg hne, hround,
        Except.toOption, Option.bind_eq_bind, Option.bind_some, hloop, List.filter_cons_of_neg hp]
      rfl

theorem Holds.flushWith (p : Option ℕ → Bool) (hq : q.Holds xs) (hn : xs.length ≤ n) :
    ∃ q', flushWith p n q =
        some (q', ((xs.map Prod.snd).filter p).flatMap (released q.mDataFn)) ∧
      q'.Holds (xs.filter (!p ·.2)) ∧ q'.mDataFn = q.mDataFn := by
  obtain ⟨node, hload, hnext, -⟩ := hq.held.load_head
  have hq' : q.Holds ([] ++ xs) := hq
  obtain ⟨q', hloop, hrest⟩ := hq'.flushLoop p hn
  refine ⟨q', ?_, hrest⟩
  simp only [CameraQueue.flushWith, hload, hnext, Except.toOption, Option.bind_eq_bind,
    Option.bind_some, hloop]

/-- **Each operation is that of the double-ended queue.** -/
theorem Holds.step {op : QueueOp} (hq : q.Holds xs) (hfresh : q.Fresh op) (hn : xs.length ≤ n) :
    ∃ q', step n q op = some (q', (absStep q.mDataFn (xs.map Prod.snd) op).2) ∧
      q.Became (absStep q.mDataFn (xs.map Prod.snd) op).1 q' := by
  cases op with
  | enqueue data malloc =>
    cases malloc with
    | none => exact ⟨q, rfl, rfl, xs, hq, rfl⟩
    | some a =>
      obtain ⟨q', henq, hfn, hq'⟩ := hq.enqueue data hfresh
      exact ⟨q', by rw [CameraQueue.step, henq]; rfl, hfn, _, hq', by simp [absStep]⟩
  | enqueueWithPriority data malloc =>
    cases malloc with
    | none => exact ⟨q, rfl, rfl, xs, hq, rfl⟩
    | some a =>
      obtain ⟨q', henq, hfn, hq'⟩ := hq.enqueueWithPriority data hfresh
      exact ⟨q', by rw [CameraQueue.step, henq]; rfl, hfn, _, hq', by simp [absStep]⟩
  | dequeue bFromHead =>
    obtain ⟨q', hdeq, hbecame⟩ := hq.dequeue bFromHead
    exact ⟨q', by rw [CameraQueue.step, hdeq]; rfl, hbecame⟩
  | flush =>
    obtain ⟨q', hflush, hq', hfn⟩ := hq.flushWith (fun _ => true) hn
    rw [List.filter_true] at hflush
    have hempty : { q' with mSize := 0 }.Holds [] := by
      have hring := hq'.ring
      simp only [Bool.not_true, List.filter_false] at hring
      exact ⟨hring, by simp, rfl⟩
    refine ⟨{ q' with mSize := 0 }, ?_, hfn, [], hempty, rfl⟩
    simp only [CameraQueue.step, CameraQueue.flush, hflush, Option.bind_eq_bind, Option.bind_some]
    rfl
  | flushNodes matchFn =>
    cases matchFn with
    | none => exact ⟨q, rfl, rfl, xs, hq, rfl⟩
    | some p =>
      obtain ⟨q', hflush, hq', hfn⟩ := hq.flushWith p hn
      refine ⟨q', hflush, hfn, _, hq', ?_⟩
      simp [absStep, List.filter_map, Function.comp_def]

theorem Holds.init {head : ℕ} {dataFn : Bool} {h : Heap}
    (hinit : CameraQueue.init head dataFn h = .ok q) : q.Holds [] ∧ q.mDataFn = dataFn := by
  have hlive : (h.node head).isSome := by
    by_contra hnone
    rw [Option.not_isSome_iff_eq_none] at hnone
    simp [CameraQueue.init, Heap.initNode, Heap.setNext, Heap.modify, hnone, bind, Except.bind]
      at hinit
  obtain ⟨h', hnode, -, hring⟩ := Heap.Ring.init hlive
  simp only [CameraQueue.init, hnode, bind, Except.bind] at hinit
  cases hinit
  exact ⟨⟨hring, by simp, rfl⟩, rfl⟩

end CameraQueue

end Qcamera

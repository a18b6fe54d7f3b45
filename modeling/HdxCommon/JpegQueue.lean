/-
The job queues of the JPEG interface, `mm_jpeg_queue.c`.

A queue is a circular list of nodes, each with a pointer to its data.

* `Holds` — the queue holds these nodes with this data;
* `queue_fifo` — along every run it is a first-in first-out list;
* `queue_flush_iff` — `mm_jpeg_queue_flush` empties the queue without a fault
  only if it was empty: it follows the link of a node that it has freed;
* `Holds.camQueueFlush` — the flush of `cam_queue.h`, which reads the link first,
  frees every node and its data once.
-/
import HdxCommon.Ring
import HdxCommon.Runs

namespace Jpeg

open CircularList

/-- `mm_jpeg_queue_t`; `head` is the address of the node inside it. -/
structure Queue where
  head : ℕ
  size : UInt32
  deriving DecidableEq, Repr

namespace Queue

/-- `mm_jpeg_queue_init`. -/
def init (head : ℕ) (h : Heap) : Except Fault (Heap × Queue) := do
  let h ← h.initNode head
  return (h, ⟨head, 0⟩)

/-- `mm_jpeg_queue_enq`; `malloc` is the address of the new node, or `NULL`. -/
def enq (q : Queue) (data malloc : Option ℕ) (h : Heap) : Except Fault (ℤ × Heap × Queue) :=
  match malloc with
  | none => .ok (-1, h, q)
  | some a => do
    let h := { h with node := Function.update h.node a (some ⟨0, 0, data⟩) }
    let h ← h.addTailNode a q.head
    return (0, h, { q with size := q.size + 1 })

/-- `mm_jpeg_queue_deq`. -/
def deq (q : Queue) (h : Heap) : Except Fault (Option ℕ × Heap × Queue) := do
  let pos := (← h.load q.head).next
  if pos ≠ q.head then
    let h ← h.delNode pos
    let data := (← h.load pos).data
    let h ← h.freeNode pos
    return (data, h, { q with size := q.size - 1 })
  else return (none, h, q)

/-- `if (NULL != data) free(data)`. -/
def freeData (data : Option ℕ) (h : Heap) : Except Fault Heap :=
  match data with
  | none => .ok h
  | some d => h.freeBlock d

/-- One round of `mm_jpeg_queue_flush`: the link is read last. -/
def flushRound (pos : ℕ) (q : Queue) (h : Heap) : Except Fault (ℕ × Heap × Queue) := do
  let h ← h.delNode pos
  let h ← freeData (← h.load pos).data h
  let h ← h.freeNode pos
  let pos := (← h.load pos).next
  return (pos, h, { q with size := q.size - 1 })

/-- One round of `cam_queue_flush`: the link is read first. -/
def camFlushRound (pos : ℕ) (q : Queue) (h : Heap) : Except Fault (ℕ × Heap × Queue) := do
  let next := (← h.load pos).next
  let h ← h.delNode pos
  let h ← freeData (← h.load pos).data h
  let h ← h.freeNode pos
  return (next, h, { q with size := q.size - 1 })

/-- The `while` loop of a flush; `none` if it takes more than `n` rounds. -/
def flushLoop (round : ℕ → Queue → Heap → Except Fault (ℕ × Heap × Queue)) :
    ℕ → ℕ → Queue → Heap → Option (Except Fault (Heap × Queue))
  | 0, pos, q, h => if pos = q.head then some (.ok (h, { q with size := 0 })) else none
  | n + 1, pos, q, h =>
    if pos = q.head then some (.ok (h, { q with size := 0 }))
    else
      match round pos q h with
      | .error e => some (.error e)
      | .ok (pos, h, q) => flushLoop round n pos q h

def flushWith (round : ℕ → Queue → Heap → Except Fault (ℕ × Heap × Queue)) (n : ℕ) (q : Queue)
    (h : Heap) : Option (Except Fault (Heap × Queue)) :=
  match h.load q.head with
  | .error e => some (.error e)
  | .ok head => flushLoop round n head.next q h

/-- `mm_jpeg_queue_flush`. -/
def flush (n : ℕ) (q : Queue) (h : Heap) : Option (Except Fault (Heap × Queue)) :=
  flushWith flushRound n q h

/-- `cam_queue_flush`. -/
def camQueueFlush (n : ℕ) (q : Queue) (h : Heap) : Option (Except Fault (Heap × Queue)) :=
  flushWith camFlushRound n q h

/-! ### What a queue holds -/

/-- The queue holds the nodes with their data, and the data is live. -/
structure Holds (q : Queue) (h : Heap) (xs : List (ℕ × Option ℕ)) : Prop where
  ring : h.Ring q.head (xs.map Prod.fst)
  data : ∀ x ∈ xs, h.data x.1 = some x.2
  block : ∀ d ∈ xs.filterMap Prod.snd, h.block d = true
  nodup : (xs.filterMap Prod.snd).Nodup
  size : q.size = UInt32.ofNat xs.length

/-- The loop ends without a fault, with every node and its data freed once and
the list empty. -/
def Flushed (q : Queue) (h : Heap) (xs : List (ℕ × Option ℕ))
    (flush : ℕ → Queue → Heap → Option (Except Fault (Heap × Queue))) : Prop :=
  ∃ n h' q' ps, flush n q h = some (.ok (h', q')) ∧ h'.Ring q'.head [] ∧ q'.size = 0 ∧
    h'.freed = h.freed ++ ps ∧
    ps.Perm (xs.map (.node ·.1) ++ (xs.filterMap Prod.snd).map .block)

variable {q : Queue} {h h' : Heap} {x : ℕ × Option ℕ} {xs : List (ℕ × Option ℕ)}

theorem Holds.init {head : ℕ} (hlive : (h.node head).isSome) :
    ∃ h' q, Queue.init head h = .ok (h', q) ∧ q.Holds h' [] := by
  obtain ⟨h', hinit, -, hring⟩ := Heap.Ring.init hlive
  refine ⟨h', ⟨head, 0⟩, ?_, ⟨hring, by simp, by simp, by simp, rfl⟩⟩
  simp only [Queue.init, bind, Except.bind, hinit]
  rfl

theorem Holds.held (hq : q.Holds h xs) : h.Holds q.head ([] ++ xs) := ⟨hq.ring, hq.data⟩

theorem Holds.unlink (hq : q.Holds h (x :: xs)) :
    ∃ h₁ n, h.delNode x.1 = .ok h₁ ∧ h.SameData h₁ ∧ h₁.node x.1 = some n ∧ n.data = x.2 ∧
      ∀ h' : Heap, h'.node = Function.update h₁.node x.1 none →
        (∀ d, x.2 ≠ some d → h'.block d = h₁.block d) →
        { q with size := q.size - 1 : Queue }.Holds h' xs := by
  obtain ⟨h₁, n, hdel, hsame, hn, hnd, hrest⟩ := hq.held.remove
  refine ⟨h₁, n, hdel, hsame, hn, hnd, fun h' hnode hblock => ?_⟩
  refine ⟨(hrest h' hnode).ring, (hrest h' hnode).data, ?_, ?_, ?_⟩
  · intro d hd
    have hfresh : x.2 ≠ some d := by
      intro heq
      have hnodup := hq.nodup
      rw [List.filterMap_cons_some heq] at hnodup
      exact (List.nodup_cons.mp hnodup).1 hd
    rw [hblock d hfresh, hsame.block]
    exact hq.block d (((List.sublist_cons_self x xs).filterMap _).subset hd)
  · exact hq.nodup.sublist ((List.sublist_cons_self x xs).filterMap _)
  · show q.size - 1 = _
    rw [hq.size, List.length_cons, UInt32.ofNat_add]
    exact UInt32.add_sub_cancel _ _

theorem Holds.deq (hq : q.Holds h (x :: xs)) :
    ∃ h' q', q.deq h = .ok (x.2, h', q') ∧ q'.Holds h' xs := by
  obtain ⟨first, hload, hnext, -⟩ := hq.held.load_head
  obtain ⟨h₁, n, hdel, -, hn, hnd, hrest⟩ := hq.unlink
  refine ⟨{ h₁ with node := Function.update h₁.node x.1 none, freed := h₁.freed ++ [.node x.1] },
    { q with size := q.size - 1 }, ?_, hrest _ rfl fun _ _ => rfl⟩
  simp [Queue.deq, hload, hnext, hq.held.ne_head, hdel, Heap.load_of_node hn,
    Heap.freeNode_of_node hn, hnd, bind, Except.bind, pure, Except.pure]

theorem Holds.deq_nil (hq : q.Holds h []) : q.deq h = .ok (none, h, q) := by
  obtain ⟨first, hload, hnext, -⟩ := hq.held.load_head
  simp [Queue.deq, hload, hnext, bind, Except.bind, pure, Except.pure]

theorem Holds.enq {a : ℕ} {data : Option ℕ} (hq : q.Holds h xs) (hfresh : h.node a = none)
    (hblock : ∀ d ∈ data, h.block d = true ∧ d ∉ xs.filterMap Prod.snd) :
    ∃ h' q', q.enq data (some a) h = .ok (0, h', q') ∧ q'.Holds h' (xs ++ [(a, data)]) := by
  obtain ⟨h', hadd, hsame, hheld⟩ := hq.held.addTail hfresh data
  rw [Heap.alloc] at hadd
  refine ⟨h', { q with size := q.size + 1 }, ?_, hheld.ring, hheld.data, ?_, ?_, ?_⟩
  · simp only [Queue.enq, hadd, bind, Except.bind]
    rfl
  · intro d hd
    rw [hsame.block]
    rw [List.filterMap_append, List.mem_append] at hd
    rcases hd with hd | hd
    · exact hq.block d hd
    · exact (hblock d (by simpa using hd)).1
  · rw [List.filterMap_append, List.nodup_append]
    refine ⟨hq.nodup, ?_, ?_⟩
    · cases data <;> simp
    · rintro d hd d' hd' rfl
      exact (hblock d (by simpa using hd')).2 hd
  · show q.size + 1 = _
    rw [hq.size, List.length_append, UInt32.ofNat_add]
    rfl

/-! ### Flushing -/

attribute [local simp] flushLoop

/-- Up to the `free` of the node, a round works on any queue that is not empty;
what it leaves holds the rest. -/
theorem Holds.release (hq : q.Holds h (x :: xs)) :
    ∃ h₁ h₂ h₃ n, h.delNode x.1 = .ok h₁ ∧ h₁.load x.1 = .ok n ∧ freeData n.data h₁ = .ok h₂ ∧
      h₂.freeNode x.1 = .ok h₃ ∧ h₃.node x.1 = none ∧
      h₃.freed = h.freed ++ (x.2.toList.map .block ++ [.node x.1]) ∧
      { q with size := q.size - 1 : Queue }.Holds h₃ xs := by
  obtain ⟨h₁, n, hdel, hsame, hn, hnd, hrest⟩ := hq.unlink
  obtain ⟨h₂, hfree, hnode₂, hblock₂, hfreed₂⟩ : ∃ h₂, freeData n.data h₁ = .ok h₂ ∧
      h₂.node = h₁.node ∧ (∀ d, x.2 ≠ some d → h₂.block d = h₁.block d) ∧
      h₂.freed = h.freed ++ x.2.toList.map .block := by
    rw [hnd, ← hsame.freed]
    cases hx : x.2 with
    | none => exact ⟨h₁, rfl, rfl, fun _ _ => rfl, by simp⟩
    | some d =>
      have hlive : h₁.block d = true := by
        rw [hsame.block]
        refine hq.block d ?_
        rw [List.filterMap_cons_some hx]
        exact List.mem_cons_self
      refine ⟨{ h₁ with
        block := Function.update h₁.block d false
        freed := h₁.freed ++ [.block d] }, ?_, rfl, ?_, rfl⟩
      · simp only [freeData, Heap.freeBlock, hlive, if_true]
      intro d' hd'
      exact Function.update_of_ne (fun heq => hd' (congrArg some heq.symm)) _ _
  have hn₂ : h₂.node x.1 = some n := by rw [hnode₂, hn]
  refine ⟨h₁, h₂, _, n, hdel, Heap.load_of_node hn, hfree, Heap.freeNode_of_node hn₂,
    Function.update_self _ _ _, ?_, hrest _ ?_ hblock₂⟩
  · rw [hfreed₂, List.append_assoc]
  · rw [hnode₂]

theorem Holds.flushWith (hq : q.Holds h xs) (n : ℕ)
    (round : ℕ → Queue → Heap → Except Fault (ℕ × Heap × Queue)) :
    flushWith round n q h = flushLoop round n ((xs.map Prod.fst).headD q.head) q h := by
  obtain ⟨first, hload, hnext, -⟩ := hq.held.load_head
  rw [List.nil_append] at hnext
  rw [Queue.flushWith, hload, ← hnext]

theorem flushLoop_head (n : ℕ) (round : ℕ → Queue → Heap → Except Fault (ℕ × Heap × Queue)) :
    flushLoop round n q.head q h = some (.ok (h, { q with size := 0 })) := by
  cases n <;> simp

/-- The first round of a flush reads the link of the node it has just freed. -/
theorem Holds.flush_cons (hq : q.Holds h (x :: xs)) (n : ℕ) :
    q.flush (n + 1) h = some (.error .useAfterFree) := by
  obtain ⟨h₁, h₂, h₃, node, hdel, hload, hfree, hfreeNode, hdead, -⟩ := hq.release
  have hround : flushRound x.1 q h = .error .useAfterFree := by
    simp only [flushRound, bind, Except.bind, hdel, hload, hfree, hfreeNode,
      Heap.load_of_none hdead]
  rw [Queue.flush, hq.flushWith]
  simp [hq.held.ne_head, hround]

theorem Holds.not_flushed (hq : q.Holds h (x :: xs)) : ¬ Flushed q h (x :: xs) flush := by
  rintro ⟨n, h', q', ps, hflush, -⟩
  cases n with
  | zero =>
    rw [Queue.flush, hq.flushWith] at hflush
    simp [hq.held.ne_head] at hflush
  | succ n =>
    rw [hq.flush_cons n] at hflush
    cases hflush

/-- **A queue can be flushed only if it is empty**: whatever the queue holds,
`mm_jpeg_queue_flush` terminates without a fault, with every node and its data
freed once and an empty list, exactly if it holds nothing. -/
theorem queue_flush_iff (hq : q.Holds h xs) : Flushed q h xs flush ↔ xs = [] := by
  constructor
  · intro hflushed
    cases xs with
    | nil => rfl
    | cons x xs => exact absurd hflushed hq.not_flushed
  · rintro rfl
    refine ⟨0, h, { q with size := 0 }, [], ?_, hq.ring, rfl, by simp, by simp⟩
    rw [Queue.flush, hq.flushWith]
    exact flushLoop_head 0 flushRound

/-- **A queue of the camera interface can always be flushed.** -/
theorem Holds.camQueueFlush (hq : q.Holds h xs) : Flushed q h xs Queue.camQueueFlush := by
  suffices hloop : ∃ h' q' ps,
      flushLoop camFlushRound xs.length ((xs.map Prod.fst).headD q.head) q h =
        some (.ok (h', q')) ∧ h'.Ring q'.head [] ∧ q'.size = 0 ∧ h'.freed = h.freed ++ ps ∧
      ps.Perm (xs.map (.node ·.1) ++ (xs.filterMap Prod.snd).map .block) by
    obtain ⟨h', q', ps, hloop, hrest⟩ := hloop
    refine ⟨xs.length, h', q', ps, ?_, hrest⟩
    rw [Queue.camQueueFlush, hq.flushWith]
    exact hloop
  -- one round for each node, the rest of the queue is what the round leaves
  induction xs generalizing q h with
  | nil => exact ⟨h, { q with size := 0 }, [], flushLoop_head 0 _, hq.ring, rfl, by simp, by simp⟩
  | cons x xs ih =>
    obtain ⟨first, hfirst, -, hnext⟩ := hq.held.load
    obtain ⟨h₁, h₂, h₃, node, hdel, hload, hfree, hfreeNode, -, hfreed, hq₃⟩ := hq.release
    have hround : camFlushRound x.1 q h =
        .ok ((xs.map Prod.fst).headD q.head, h₃, { q with size := q.size - 1 }) := by
      simp only [camFlushRound, bind, Except.bind, hdel, hload, hfree, hfreeNode, hfirst, hnext]
      rfl
    obtain ⟨h', q', ps, hloop, hring, hsize, hps, hperm⟩ := ih hq₃
    refine ⟨h', q', x.2.toList.map .block ++ [.node x.1] ++ ps, ?_, hring, hsize, ?_, ?_⟩
    · simpa [hq.held.ne_head, hround] using hloop
    · rw [hps, hfreed, List.append_assoc]
    · have hdata : ((x :: xs).filterMap Prod.snd).map Ptr.block =
          x.2.toList.map .block ++ (xs.filterMap Prod.snd).map .block := by
        cases hx : x.2 with
        | none => simp [List.filterMap_cons_none hx]
        | some d => simp [List.filterMap_cons_some hx]
      rw [hdata, List.map_cons]
      refine (List.Perm.append_left _ hperm).trans ?_
      generalize x.2.toList.map Ptr.block = own
      generalize (xs.filterMap Prod.snd).map Ptr.block = blocks
      generalize xs.map (fun y => Ptr.node y.1) = nodes
      simp only [List.append_assoc, List.cons_append, List.nil_append]
      refine (List.perm_middle).trans (List.Perm.cons _ ?_)
      rw [← List.append_assoc, ← List.append_assoc]
      exact List.Perm.append_right _ List.perm_append_comm

/-! ### First in, first out -/

/-- A call; `malloc` is the address of the new node, or `NULL`. -/
inductive Op where
  | enq (data malloc : Option ℕ)
  | deq

/-- `enq` returns a number, `deq` the data. -/
def step (s : Heap × Queue) : Op → Option ((Heap × Queue) × List (ℤ ⊕ Option ℕ))
  | .enq data malloc => (s.2.enq data malloc s.1).toOption.map fun r => (r.2, [.inl r.1])
  | .deq => (s.2.deq s.1).toOption.map fun r => (r.2, [.inr r.1])

/-- The same calls on a list. -/
def fifo (ys : List (Option ℕ)) : Op → Option (List (Option ℕ) × List (ℤ ⊕ Option ℕ))
  | .enq _ none => some (ys, [.inl (-1)])
  | .enq data (some _) => some (ys ++ [data], [.inl 0])
  | .deq => some (ys.tail, [.inr ys.head?.join])

/-- The memory of a new node was not in use, and no other node has its data. -/
def Fresh (s : Heap × Queue) : Op → Prop
  | .enq data (some a) => s.1.node a = none ∧
      ∀ d ∈ data, s.1.block d = true ∧ ∀ b, s.1.data b ≠ some (some d)
  | _ => True

theorem Holds.step {op : Op} (hq : q.Holds h xs) (hfresh : Fresh (h, q) op) :
    ∃ s xs' o, Queue.step (h, q) op = some (s, o) ∧ s.2.Holds s.1 xs' ∧
      fifo (xs.map Prod.snd) op = some (xs'.map Prod.snd, o) := by
  cases op with
  | enq data malloc =>
    cases malloc with
    | none => exact ⟨_, xs, _, rfl, hq, rfl⟩
    | some a =>
      have hblock : ∀ d ∈ data, h.block d = true ∧ d ∉ xs.filterMap Prod.snd := by
        refine fun d hd => ⟨(hfresh.2 d hd).1, fun hmem => ?_⟩
        obtain ⟨y, hy, hyd⟩ := List.mem_filterMap.mp hmem
        exact (hfresh.2 d hd).2 y.1 ((hq.data y hy).trans (congrArg some hyd))
      obtain ⟨h', q', henq, hq'⟩ := hq.enq hfresh.1 hblock
      exact ⟨(h', q'), _, _, by rw [Queue.step, henq]; rfl, hq', by simp [fifo]⟩
  | deq =>
    cases xs with
    | nil => exact ⟨_, [], _, by rw [Queue.step, hq.deq_nil]; rfl, hq, rfl⟩
    | cons x xs =>
      obtain ⟨h', q', hdeq, hq'⟩ := hq.deq
      exact ⟨(h', q'), xs, _, by rw [Queue.step, hdeq]; rfl, hq', rfl⟩

/-- **A queue is first in, first out.**  Along every run from a new queue the calls return
what they return on a list, and none of them faults; `size` is the number of elements,
and `cam_queue_flush` would free each of them once. -/
theorem queue_fifo {head : ℕ} (hlive : (h.node head).isSome) :
    ∃ s₀, Queue.init head h = .ok s₀ ∧ ∀ ops os s, Runs Queue.step Fresh s₀ ops os s →
      ∃ xs, Runs fifo (fun _ _ => True) [] ops os (xs.map Prod.snd) ∧
        (∀ op, Fresh s op → (Queue.step s op).isSome) ∧ s.2.size = UInt32.ofNat xs.length ∧
        Flushed s.2 s.1 xs Queue.camQueueFlush := by
  obtain ⟨h₀, q₀, hinit, hq₀⟩ := Holds.init hlive
  refine ⟨(h₀, q₀), hinit, fun ops os s hrun => ?_⟩
  obtain ⟨xs, hq, hfifo⟩ := hrun.inv (fun ops os s => ∃ xs, s.2.Holds s.1 xs ∧
    Runs fifo (fun _ _ => True) [] ops os (xs.map Prod.snd)) ⟨[], hq₀, .nil⟩ (by
      rintro ops os s op s' o ⟨xs, hq, hfifo⟩ hfresh hs
      obtain ⟨s₁, xs', o₁, hstep, hq', habs⟩ := hq.step hfresh
      cases hs.symm.trans hstep
      exact ⟨xs', hq', .snoc hfifo trivial habs⟩)
  refine ⟨xs, hfifo, fun op hfresh => ?_, hq.size, hq.camQueueFlush⟩
  obtain ⟨s', -, o, hstep, -⟩ := hq.step hfresh
  exact Option.isSome_iff_exists.mpr ⟨_, hstep⟩

def emptyHeap : Heap := ⟨fun a => if a = 0 then some ⟨0, 0, none⟩ else none, fun d => d = 7, []⟩

theorem holds_empty : (⟨0, 0⟩ : Queue).Holds emptyHeap [] :=
  ⟨⟨List.isChain_pair.mpr ⟨rfl, rfl⟩, List.nodup_singleton 0⟩, by simp, by simp, by simp, rfl⟩

theorem queue_fifo_one : ∃ s₀ s xs, init 0 emptyHeap = .ok s₀ ∧
    step s₀ (.enq none (some 1)) = some (s, [.inl 0]) ∧
    Runs fifo (fun _ _ => True) [] [.enq none (some 1)] [.inl 0] (xs.map Prod.snd) ∧
    Flushed s.2 s.1 xs camQueueFlush := by
  obtain ⟨s₀, hinit, hrun⟩ := queue_fifo (show (emptyHeap.node 0).isSome from rfl)
  cases hinit
  obtain ⟨xs, hfifo, -, -, hflush⟩ :=
    hrun [.enq none (some 1)] [.inl 0] _ (.single ⟨rfl, by simp⟩ rfl)
  exact ⟨_, _, xs, rfl, rfl, hfifo, hflush⟩

/-- An empty queue can be flushed. -/
theorem queue_flush_iff_empty : Flushed ⟨0, 0⟩ emptyHeap [] flush :=
  (queue_flush_iff holds_empty).mpr rfl

/-- A queue with one job cannot: the flush reads the node after `free`. -/
theorem queue_flush_reads_freed : ∃ h q, (⟨0, 0⟩ : Queue).enq (some 7) (some 1) emptyHeap =
    .ok (0, h, q) ∧ q.Holds h [(1, some 7)] ∧
    (∀ n, q.flush (n + 1) h = some (.error .useAfterFree)) ∧ ¬ Flushed q h [(1, some 7)] flush := by
  have hblock : ∀ d ∈ some 7, emptyHeap.block d = true ∧
      d ∉ ([] : List (ℕ × Option ℕ)).filterMap Prod.snd := by
    intro d hd
    cases hd
    exact ⟨rfl, by simp⟩
  obtain ⟨h, q, henq, hq⟩ := holds_empty.enq (a := 1) rfl hblock
  have hone : q.Holds h [(1, some 7)] := hq
  exact ⟨h, q, henq, hone, hone.flush_cons, hone.not_flushed⟩

end Queue

end Jpeg

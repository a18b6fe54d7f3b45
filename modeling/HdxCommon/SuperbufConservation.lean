/-
Conservation of frame buffers in the superbuf matcher.

Every buffer handed to the matcher should at each moment be in one place: in a
slot of a queued superbuf, with the callback thread, or given back.

* `Move.accounts` — for every move, what is stored afterwards together with
  what was sent, given back and lost is what was stored and taken in;
* `superbuf_conserved_iff` — a run conserves its buffers if and only if no step
  of it drops one, in one of the three ways of `Drops`.
-/
import HdxCommon.SuperbufShape

namespace Superbuf

/-! ### Accounting for moves -/

def returned (es : List Effect) : List BufInfo :=
  es.filterMap fun e => match e with
    | .qbuf b => some b
    | _ => none

def sent (es : List Effect) : List BufInfo :=
  es.flatMap fun e => match e with
    | .superbufCb bufs => bufs.reduceOption
    | _ => []

section Accounts

variable {ctx : Ctx} {q q' : Queue} {M U : List Node} {n : Node}
  {b x : BufInfo} {i is l ls : List BufInfo} {e es : List Effect} {idx : ℕ}

@[simp] theorem returned_append (es es' : List Effect) :
    returned (es ++ es') = returned es ++ returned es' :=
  List.filterMap_append ..

@[simp] theorem sent_append (es es' : List Effect) : sent (es ++ es') = sent es ++ sent es' :=
  List.flatMap_append ..

theorem returned_bufEffects (es : List Effect) : returned (bufEffects es) = returned es := by
  induction es with
  | nil => rfl
  | cons e es ih =>
    rw [← List.singleton_append, bufEffects_append, returned_append, returned_append, ih]
    cases e <;> rfl

theorem sent_bufEffects (es : List Effect) : sent (bufEffects es) = sent es := by
  induction es with
  | nil => rfl
  | cons e es ih =>
    rw [← List.singleton_append, bufEffects_append, sent_append, sent_append, ih]
    cases e <;> rfl

theorem returned_map_qbuf (bs : List BufInfo) : returned (bs.map .qbuf) = bs := by
  induction bs with
  | nil => rfl
  | cons b bs ih => rw [List.map_cons, ← List.singleton_append, returned_append, ih]; rfl

theorem sent_map_qbuf (bs : List BufInfo) : sent (bs.map .qbuf) = [] := by
  induction bs with
  | nil => rfl
  | cons b bs ih => rw [List.map_cons, ← List.singleton_append, sent_append, ih]; rfl

theorem count_nonzero_add_zero (n : Node) (x : BufInfo) :
    (returned (bufdoneNonzero n)).count x + n.zeroBufs.count x = n.bufs.count x := by
  rw [bufdoneNonzero_eq, returned_map_qbuf, Node.zeroBufs, ← List.count_append]
  refine List.Perm.count_eq ?_ x
  have hperm := List.filter_append_perm (fun b : BufInfo => decide (b.frameIdx ≠ 0)) n.bufs
  simpa using hperm

theorem sent_bufdoneNonzero (n : Node) : sent (bufdoneNonzero n) = [] := by
  rw [bufdoneNonzero_eq, sent_map_qbuf]

theorem count_flatMap_nonzero_add_zero (ns : List Node) (x : BufInfo) :
    (returned (ns.flatMap bufdoneNonzero)).count x + (ns.flatMap Node.zeroBufs).count x =
      (ns.flatMap Node.bufs).count x ∧ sent (ns.flatMap bufdoneNonzero) = [] := by
  induction ns with
  | nil => exact ⟨rfl, rfl⟩
  | cons n ns ih =>
    have hn := count_nonzero_add_zero n x
    simp only [List.flatMap_cons, returned_append, sent_append, List.count_append,
      sent_bufdoneNonzero, ih.2, List.nil_append, and_true]
    omega

theorem count_bufs_fill (hidx : idx < n.superBuf.length) (x : BufInfo) :
    (n.fill idx b).bufs.count x + (n.slotBufs idx).count x = n.bufs.count x + [b].count x := by
  have hsplit :
      n.superBuf = n.superBuf.take idx ++ n.superBuf[idx] :: n.superBuf.drop (idx + 1) := by
    rw [← List.drop_eq_getElem_cons hidx, List.take_append_drop]
  have hset : n.superBuf.set idx (some b) =
      n.superBuf.take idx ++ some b :: n.superBuf.drop (idx + 1) := by
    rw [List.set_eq_take_append_cons_drop, if_pos hidx]
  have hbufs : n.bufs = (n.superBuf.take idx).reduceOption ++
      (n.superBuf[idx].toList ++ (n.superBuf.drop (idx + 1)).reduceOption) := by
    rw [Node.bufs]
    conv_lhs => rw [hsplit]
    rw [List.reduceOption_append]
    cases n.superBuf[idx] with
    | none => rw [List.reduceOption_cons_of_none]; rfl
    | some c => rw [List.reduceOption_cons_of_some]; rfl
  have hfill : (n.fill idx b).bufs = (n.superBuf.take idx).reduceOption ++
      (b :: (n.superBuf.drop (idx + 1)).reduceOption) := by
    rw [Node.bufs, Node.fill, hset, List.reduceOption_append, List.reduceOption_cons_of_some]
  have hslot : n.slotBufs idx = n.superBuf[idx].toList := by
    rw [Node.slotBufs, List.getElem?_eq_getElem hidx, Option.getD_some]
  rw [hfill, hbufs, hslot]
  simp only [List.count_append, List.count_cons, List.count_nil]
  omega

theorem bufs_new {k : ℕ} (hidx : idx < k) : (Node.new k idx b).bufs = [b] := by
  have hnone : ∀ m, (List.replicate m (none : Option BufInfo)).reduceOption = [] := by
    intro m
    induction m with
    | zero => rfl
    | succ m ih => rw [List.replicate_succ, List.reduceOption_cons_of_none, ih]
  have hset : (List.replicate k (none : Option BufInfo)).set idx (some b) =
      List.replicate idx none ++ some b :: List.replicate (k - (idx + 1)) none := by
    rw [List.set_eq_take_append_cons_drop, if_pos (by simpa using hidx), List.take_replicate,
      List.drop_replicate, min_eq_left (by omega)]
  rw [Node.bufs, Node.new, hset, List.reduceOption_append, List.reduceOption_cons_of_some, hnone,
    hnone, List.nil_append]

theorem stored_pop_one {rest : List Node} (hque : q.que = n :: rest) (x : BufInfo) :
    q.stored.count x = n.bufs.count x + (q.pop 1).stored.count x := by
  rw [Queue.stored, Queue.stored, Queue.pop, hque, List.flatMap_cons, List.count_append]
  rfl

theorem Shape.idx_lt (h : Shape q M U) (hn : n ∈ q.que)
    (hidx : q.bundledStreams[idx]? = some b.streamId) : idx < n.superBuf.length := by
  rw [(h.wf n hn).length_eq]
  exact (List.getElem?_eq_some_iff.mp hidx).1

/-- The buffers of a move balance: stored, given back, sent and lost afterwards
is stored before and taken in. -/
def Balanced (q q' : Queue) (i : List BufInfo) (e : List Effect) (l : List BufInfo) : Prop :=
  ∀ x, q'.stored.count x + (returned e).count x + (sent e).count x + l.count x =
    q.stored.count x + i.count x

/-- **Every move accounts for its buffers.** -/
theorem Move.accounts (hm : Move ctx q i e l q') (h : Shape q M U) : Balanced q q' i e l := by
  intro x
  cases hm with
  | release hque =>
    have hpop := stored_pop_one hque x
    rw [bufdone_eq, returned_map_qbuf, sent_map_qbuf, List.count_nil]
    omega
  | @send n _ hque _ =>
    have hpop := stored_pop_one hque x
    have hsent : sent [.superbufCb n.superBuf] = n.bufs := List.append_nil _
    rw [hsent, show returned [Effect.superbufCb n.superBuf] = [] from rfl, List.count_nil]
    omega
  | sendLost _ hque =>
    have hpop := stored_pop_one hque x
    rw [show returned [] = [] from rfl, show sent [] = [] from rfl, List.count_nil]
    omega
  | expect _ | mode m => simp [Queue.stored, returned, sent]
  | lose b | discard b => simp [returned, sent]
  | @fill b idx L R n hque hidx hn hf _ =>
    have hlt := h.idx_lt (n := n) (by simp [hque]) hidx
    have hfill := count_bufs_fill (b := b) hlt x
    simp only [Queue.stored, hque, List.flatMap_append, List.flatMap_cons, List.count_append]
    rw [show returned [] = [] from rfl, show sent [] = [] from rfl, List.count_nil]
    omega
  | @complete b idx M' A B n hque hidx _ _ _ _ _ _ =>
    have hlt := h.idx_lt (n := n) (by simp [hque]) hidx
    have hfill := count_bufs_fill (b := b) hlt x
    obtain ⟨hA, hsA⟩ := count_flatMap_nonzero_add_zero A x
    have hret : returned (.matched b.frameIdx :: A.flatMap bufdoneNonzero) =
        returned (A.flatMap bufdoneNonzero) := rfl
    have hsent : sent (.matched b.frameIdx :: A.flatMap bufdoneNonzero) = [] := hsA
    rw [hret, hsent]
    simp only [Queue.stored, Queue.countMatch, hque, List.flatMap_append, List.flatMap_cons,
      List.count_append, List.count_nil]
    omega
  | @evict L R n hque _ =>
    have hzero := count_nonzero_add_zero n x
    rw [sent_bufdoneNonzero]
    simp only [Queue.stored, hque, List.flatMap_append, List.flatMap_cons, List.count_append,
      List.count_nil]
    omega
  | @insert b idx _ _ _ hque hidx _ _ _ _ =>
    have hlt : idx < q.numStreams := (List.getElem?_eq_some_iff.mp hidx).1
    simp only [Queue.stored, hque, List.flatMap_append, List.flatMap_cons, List.count_append,
      bufs_new hlt]
    rw [show returned [] = [] from rfl, show sent [] = [] from rfl, List.count_nil]
    omega
  | @single b idx _ hidx _ _ _ =>
    have hlt : idx < q.numStreams := (List.getElem?_eq_some_iff.mp hidx).1
    simp only [Queue.stored, Queue.countMatch, List.flatMap_append, List.flatMap_cons,
      List.flatMap_nil, List.append_nil, List.count_append, bufs_new hlt]
    simp [returned, sent]

theorem Moves.accounts (hm : Moves ctx q is es ls q') (h : Shape q M U) :
    Balanced q q' is es ls := by
  induction hm generalizing M U with
  | nil => simp [Balanced, returned, sent]
  | cons hmove _ ih =>
    intro x
    obtain ⟨M', U', h', -⟩ := hmove.shape h
    have h₁ := hmove.accounts h x
    have h₂ := ih h' x
    simp only [returned_append, sent_append, List.count_append]
    omega

end Accounts

/-! ### When buffers are dropped -/

/-- The slot of the buffer in the unmatched superbuf of its frame is taken. -/
def SlotTaken (q : Queue) (b : BufInfo) : Prop :=
  ∃ n ∈ q.que, n.matched = false ∧ n.frameIdx = b.frameIdx ∧
    ∃ c, n.superBuf[q.bundledStreams.idxOf b.streamId]? = some (some c)

def FrameZeroQueued (q : Queue) : Prop := ∃ n ∈ q.que, n.matched = false ∧ n.frameIdx = 0

def FrameAbsent (q : Queue) (f : UInt32) : Prop :=
  ∀ n ∈ q.que, n.matched = false → n.frameIdx ≠ f

/-- An unmatched superbuf of frame 0 is released because of the buffer: the
buffer completes its own superbuf, or starts a new one in a crowded queue. -/
def ReleasesFrameZero (q : Queue) (b : BufInfo) : Prop :=
  b.frameIdx ≠ 0 ∧ FrameZeroQueued q ∧
    (Completes q (q.bundledStreams.idxOf b.streamId) b ∨ FrameAbsent q b.frameIdx ∧ q.Crowded)

/-- The three ways the matcher drops a buffer. -/
def Drops (ch : Channel) : Cmd → Prop
  | .dataCb b => metadataAction ch b = .reject ∨
      metadataAction ch b ≠ .futureFrame ∧ expectedFor ch b ≤ b.frameIdx ∧
        (SlotTaken ch.queue b ∨ ReleasesFrameZero ch.queue b)
  | _ => False

section Drops

variable {ch : Channel} {q : Queue} {M U : List Node} {n : Node} {b : BufInfo} {idx : ℕ}

theorem mem_unmatched : n ∈ q.unmatched ↔ n ∈ q.que ∧ n.matched = false := by
  simp [Queue.unmatched]

theorem mem_older {f : UInt32} :
    n ∈ q.older f ↔ n ∈ q.que ∧ n.matched = false ∧ n.frameIdx < f := by
  simp [Queue.older, mem_unmatched, and_assoc]

theorem Shape.ofFrame_eq_some_iff (h : Shape q M U) {f : UInt32} :
    q.ofFrame f = some n ↔ n ∈ q.que ∧ n.matched = false ∧ n.frameIdx = f := by
  constructor
  · intro hn
    have hmem := mem_unmatched.mp (List.mem_of_find?_eq_some hn)
    have hf := List.find?_some (p := fun n : Node => n.frameIdx == f) hn
    exact ⟨hmem.1, hmem.2, beq_iff_eq.mp hf⟩
  · rintro ⟨hmem, hm, hf⟩
    have hU : n ∈ U := by
      rw [← h.unmatched_eq]
      exact mem_unmatched.mpr ⟨hmem, hm⟩
    obtain ⟨A, B, rfl⟩ := List.append_of_mem hU
    refine h.ofFrame_found ?_ hf
    intro a ha
    rw [← hf]
    exact (List.pairwise_append.mp h.sorted).2.2 a ha n List.mem_cons_self

theorem Shape.ofFrame_eq_none_iff (h : Shape q M U) {f : UInt32} :
    q.ofFrame f = none ↔ FrameAbsent q f := by
  constructor
  · intro hnone n hmem hm hf
    rw [h.ofFrame_eq_some_iff.mpr ⟨hmem, hm, hf⟩] at hnone
    cases hnone
  · intro hall
    cases hof : q.ofFrame f with
    | none => rfl
    | some n =>
      obtain ⟨hmem, hm, hf⟩ := h.ofFrame_eq_some_iff.mp hof
      exact absurd hf (hall n hmem hm)

/-- All buffers of a superbuf of frame 0 look like empty slots, none of another
superbuf does. -/
theorem Node.Wf.zeroBufs_eq_nil_iff {ids : List UInt32} (h : n.Wf ids) :
    n.zeroBufs = [] ↔ n.frameIdx ≠ 0 := by
  have hframe : ∀ c ∈ n.bufs, c.frameIdx = n.frameIdx := by
    intro c hc
    obtain ⟨i, hi⟩ := List.getElem?_of_mem (mem_bufs.mp hc)
    exact (h.slot i c hi).1
  rw [Node.zeroBufs, List.filter_eq_nil_iff]
  constructor
  · intro hall hzero
    obtain ⟨c, hc⟩ := List.exists_mem_of_ne_nil _ h.filled
    exact hall c hc (by simp [hframe c hc, hzero])
  · intro hne c hc
    simp [hframe c hc, hne]

theorem Shape.older_zeroBufs_eq_nil_iff (h : Shape q M U) {f : UInt32} {ns : List Node}
    (hns : ∀ n ∈ ns, n ∈ q.older f) :
    ns.flatMap Node.zeroBufs = [] ↔ ∀ n ∈ ns, n.frameIdx ≠ 0 := by
  rw [List.flatMap_eq_nil_iff]
  refine forall₂_congr fun n hn => ?_
  exact (h.wf n (mem_older.mp (hns n hn)).1).zeroBufs_eq_nil_iff

theorem Shape.older_take_one (h : Shape q M U) (f : UInt32) :
    (∀ n ∈ (q.older f).take 1, n.frameIdx ≠ 0) ↔ ∀ n ∈ q.older f, n.frameIdx ≠ 0 := by
  constructor
  · intro hhead n hn hzero
    have hsorted : (q.older f).Pairwise fun m n => m.frameIdx < n.frameIdx := by
      rw [Queue.older, h.unmatched_eq]
      exact h.sorted.filter _
    cases hold : q.older f with
    | nil =>
      rw [hold] at hn
      cases hn
    | cons a rest =>
      rw [hold] at hhead hn hsorted
      rcases List.mem_cons.mp hn with rfl | hn
      · exact hhead n (by simp) hzero
      · have hlt := (List.pairwise_cons.mp hsorted).1 n hn
        rw [hzero] at hlt
        exact absurd hlt UInt32.not_lt_zero
  · intro hall n hn
    exact hall n (List.mem_of_mem_take hn)

theorem slotBufs_ne_nil_iff :
    n.slotBufs idx ≠ [] ↔ ∃ c, n.superBuf[idx]? = some (some c) := by
  rw [Node.slotBufs]
  cases n.superBuf[idx]? with
  | none => simp
  | some s => cases s <;> simp

theorem older_frameIdx_ne_zero_iff {f : UInt32} :
    (∀ n ∈ q.older f, n.frameIdx ≠ 0) ↔ ¬ (f ≠ 0 ∧ FrameZeroQueued q) := by
  constructor
  · rintro hall ⟨hne, n, hn, hm, hf⟩
    exact hall n (mem_older.mpr ⟨hn, hm, by rw [hf]; exact UInt32.pos_iff_ne_zero.mpr hne⟩) hf
  · intro hno n hn hf
    obtain ⟨hmem, hm, hlt⟩ := mem_older.mp hn
    refine hno ⟨?_, n, hmem, hm, hf⟩
    intro heq
    rw [hf, heq] at hlt
    exact UInt32.lt_irrefl 0 hlt

theorem Shape.exists_frame_iff (h : Shape q M U) {f : UInt32} (hof : q.ofFrame f = some n)
    (P : Node → Prop) :
    (∃ m ∈ q.que, m.matched = false ∧ m.frameIdx = f ∧ P m) ↔ P n := by
  obtain ⟨hn, hm, hf⟩ := h.ofFrame_eq_some_iff.mp hof
  constructor
  · rintro ⟨m, hmq, hmm, hmf, hP⟩
    have hsame := h.ofFrame_eq_some_iff.mpr ⟨hmq, hmm, hmf⟩
    rw [hof, Option.some.injEq] at hsame
    rw [hsame]
    exact hP
  · intro hP
    exact ⟨n, hn, hm, hf, hP⟩

theorem FrameAbsent.not_exists {f : UInt32} (h : FrameAbsent q f) (P : Node → Prop) :
    ¬ ∃ m ∈ q.que, m.matched = false ∧ m.frameIdx = f ∧ P m := by
  rintro ⟨m, hmq, hmm, hmf, -⟩
  exact h m hmq hmm hmf

/-- **When matching drops nothing.** -/
theorem Shape.lostAt_eq_nil_iff (h : Shape q M U) :
    lostAt q (q.bundledStreams.idxOf b.streamId) b = [] ↔
      ¬ (SlotTaken q b ∨ ReleasesFrameZero q b) := by
  set idx := q.bundledStreams.idxOf b.streamId with hidx
  have hold := h.older_zeroBufs_eq_nil_iff (f := b.frameIdx) (fun n hn => hn)
  have hold₁ := h.older_zeroBufs_eq_nil_iff (f := b.frameIdx)
    (fun n (hn : n ∈ (q.older b.frameIdx).take 1) => List.mem_of_mem_take hn)
  rw [h.older_take_one] at hold₁
  rw [lostAt]
  cases hof : q.ofFrame b.frameIdx with
  | some n =>
    have hslot : SlotTaken q b ↔ n.slotBufs idx ≠ [] :=
      (h.exists_frame_iff hof _).trans slotBufs_ne_nil_iff.symm
    have hcompl : Completes q idx b ↔ (n.fill idx b).matched = true := h.exists_frame_iff hof _
    have hsome : ¬ FrameAbsent q b.frameIdx := by
      rw [← h.ofFrame_eq_none_iff, hof]
      exact Option.some_ne_none n
    rw [ReleasesFrameZero, hslot, hcompl, List.append_eq_nil_iff]
    -- the older superbufs go only if this one is complete
    by_cases hfill : (n.fill idx b).matched = true
    · rw [if_pos hfill, hold, older_frameIdx_ne_zero_iff]
      simp [hfill]
    · rw [if_neg hfill]
      simp [hfill, hsome]
  | none =>
    have hnone : FrameAbsent q b.frameIdx := h.ofFrame_eq_none_iff.mp hof
    have hslot : ¬ SlotTaken q b := hnone.not_exists _
    have hcompl : ¬ Completes q idx b := hnone.not_exists _
    rw [ReleasesFrameZero, ← hidx]
    -- the oldest superbuf makes room only in a crowded queue
    by_cases hc : q.Crowded
    · rw [if_pos hc, hold₁, older_frameIdx_ne_zero_iff]
      simp [hc, hslot, hnone]
    · rw [if_neg hc]
      simp [hc, hslot, hcompl]

theorem Shape.lostBy_eq_nil_iff (h : Shape ch.queue M U) {cmd : Cmd}
    (hmem : ∀ b ∈ cmd.taken, b.streamId ∈ ch.queue.bundledStreams) :
    lostBy ch cmd = [] ↔ ¬ Drops ch cmd := by
  cases cmd with
  | dataCb b =>
    have hb := hmem b (by simp [Cmd.taken])
    rw [lostBy, Drops]
    by_cases hr : metadataAction ch b = .reject
    · simp [hr]
    rw [if_neg (fun hrej => hrej.elim (fun hno => hno hb) hr)]
    have hlost := h.lostAt_eq_nil_iff (b := b)
    cases hact : metadataAction ch b with
    | reject => exact absurd hact hr
    | futureFrame =>
      -- the queue was emptied, there is nothing to drop
      have hque : (afterMetadata ch b).que = [] := by simp [afterMetadata, hact, Queue.pop]
      have hnil :
          lostAt (afterMetadata ch b) (ch.queue.bundledStreams.idxOf b.streamId) b = [] := by
        simp [lostAt, Queue.ofFrame, Queue.older, Queue.unmatched, hque]
      simp [hnil]
    | goodRange m =>
      have hsame : afterMetadata ch b = { ch.queue with expectedFrameId := m } := by
        simp [afterMetadata, hact]
      -- matching does not look at the expected frame
      have hat : lostAt (afterMetadata ch b) (ch.queue.bundledStreams.idxOf b.streamId) b =
          lostAt ch.queue (ch.queue.bundledStreams.idxOf b.streamId) b := by
        rw [hsame]
        rfl
      rw [hat, afterMetadata_expectedFrameId hb, ← UInt32.not_lt]
      by_cases hold : b.frameIdx < expectedFor ch b
      · simp [hold]
      · simp [hold, hlost]
    | _ =>
      have hsame : afterMetadata ch b = ch.queue := by simp [afterMetadata, hact]
      have hexp := afterMetadata_expectedFrameId hb
      rw [hexp, hsame, ← UInt32.not_lt]
      by_cases hold : b.frameIdx < expectedFor ch b
      · simp [hold]
      · simp [hold, hlost]
  | _ => simp [lostBy, Drops]

end Drops

/-! ### Runs -/

def handed (is : List (Cmd × Mem)) : List BufInfo := is.flatMap fun i => i.1.taken

/-- Every buffer handed over is stored in the queue, was sent to the callback
thread or was given back, and is in one of these places only: as often as it was
handed over, it is found there. -/
def Conserved (is : List (Cmd × Mem)) (os : List Effect) (ch : Channel) : Prop :=
  ∀ x, ch.queue.stored.count x + (sent os).count x + (returned os).count x = (handed is).count x

def Regular (ch : Channel) (inp : Cmd × Mem) : Prop :=
  inp.2.AllOk ∧ ∀ b ∈ inp.1.taken, b.streamId ∈ ch.queue.bundledStreams

section Runs

variable {ch₀ ch : Channel} {is : List (Cmd × Mem)} {os : List Effect}

theorem exists_missing (h₀ : ch₀.queue.Fresh) (h : Runs processStreamBuf Regular ch₀ is os ch) :
    ∃ lost : List BufInfo,
      (∀ x, ch.queue.stored.count x + (sent os).count x + (returned os).count x + lost.count x =
        (handed is).count x) ∧
      (lost = [] ↔
        Runs processStreamBuf (fun ch i => Regular ch i ∧ ¬ Drops ch i.1) ch₀ is os ch) := by
  induction h with
  | nil =>
    refine ⟨[], ?_, by simp [Runs.nil]⟩
    intro x
    simp [Queue.stored, h₀.1, sent, returned, handed]
  | @snoc is os ch ch' inp o hrun hreg hs ih =>
    obtain ⟨lost, hbal, hiff⟩ := ih
    obtain ⟨M, U, hshape, hM⟩ := Channel.Good.of_runs h₀ hrun
    obtain ⟨ch₁, es, l, heq, -, hms, hl, -⟩ := processStreamBuf_moves inp.1 inp.2 hshape hM
    rw [hs, Option.some.injEq, Prod.mk.injEq] at heq
    obtain ⟨rfl, rfl⟩ := heq
    have hacc := hms.accounts hshape
    refine ⟨lost ++ l, ?_, ?_⟩
    · intro x
      have h₁ := hbal x
      have h₂ := hacc x
      rw [returned_bufEffects, sent_bufEffects] at h₂
      simp only [handed, List.flatMap_append, List.flatMap_cons, List.flatMap_nil,
        List.append_nil, sent_append, returned_append, List.count_append] at h₁ ⊢
      omega
    · rw [hl hreg.1, List.append_eq_nil_iff, hiff, hshape.lostBy_eq_nil_iff hreg.2]
      constructor
      · rintro ⟨hrun', hkeep⟩
        exact .snoc hrun' ⟨hreg, hkeep⟩ hs
      · intro hrun'
        obtain ⟨os₁, ch₁, o₁, hrun₁, hg, -, -⟩ := hrun'.snoc_inv
        obtain ⟨rfl, rfl⟩ := hrun.det hrun₁
        exact ⟨hrun₁, hg.2⟩

/-- **Conservation of frame buffers.**  After a run of the command thread every
buffer is in exactly one place if and only if no step of the run dropped one. -/
theorem superbuf_conserved_iff (h₀ : ch₀.queue.Fresh)
    (h : Runs processStreamBuf Regular ch₀ is os ch) :
    Conserved is os ch ↔
      Runs processStreamBuf (fun ch i => Regular ch i ∧ ¬ Drops ch i.1) ch₀ is os ch := by
  obtain ⟨lost, hbal, hiff⟩ := exists_missing h₀ h
  rw [← hiff, Conserved]
  constructor
  · intro hcons
    rw [List.eq_nil_iff_forall_not_mem]
    intro x hx
    have h₁ := hbal x
    have h₂ := hcons x
    have h₃ := List.count_pos_iff.mpr hx
    omega
  · intro hnil x
    have h₁ := hbal x
    rw [hnil, List.count_nil] at h₁
    omega

end Runs

theorem Mem.allOk_ample : Mem.ample.AllOk := ⟨rfl, fun _ => rfl, fun _ => rfl⟩

theorem superbuf_conserved_sample :
    Runs processStreamBuf (fun ch i => Regular ch i ∧ ¬ Drops ch i.1) sampleChannel
      [(.dataCb (sampleBuf 1 7), .ample)] []
      { sampleChannel with
        queue := { sampleChannel.queue with
          que := [⟨[some (sampleBuf 1 7), none], false, 7⟩]
          size := 1 } } := by
  refine (superbuf_conserved_iff ⟨rfl, rfl, rfl⟩ ?_).mp ?_
  · exact .single ⟨Mem.allOk_ample, by decide⟩ (by decide)
  · intro x
    rfl

/-- Metadata that says both that the snapshot is prepared and which frames are
good. -/
def contradictoryBuf : BufInfo := ⟨2, 7, 0, some ⟨true, .doNotNeedFutureFrame, true, 7⟩⟩

/-- The sample channel with a metadata stream as its second stream. -/
def metadataChannel : Channel :=
  { sampleChannel with streams := [⟨1, true, some .preview⟩, ⟨2, true, some .metadata⟩] }

theorem superbuf_not_conserved_metadata : metadataChannel.queue.Fresh ∧
    Runs processStreamBuf Regular metadataChannel [(.dataCb contradictoryBuf, .ample)] []
      metadataChannel ∧
    ¬ Conserved [(.dataCb contradictoryBuf, .ample)] [] metadataChannel := by
  refine ⟨⟨rfl, rfl, rfl⟩, ?_, ?_⟩
  · exact .single ⟨Mem.allOk_ample, by decide⟩ (by decide)
  · intro hcons
    have h := hcons contradictoryBuf
    revert h
    decide

end Superbuf

/-
The superbuf matcher as a system of small moves.

A command of the channel thread changes the queue in a few elementary ways:
the front superbuf is given back or dispatched, an incoming buffer is turned
away, put into a slot, or starts a new superbuf, an old unmatched superbuf is
evicted, and the expected frame or the notify mode changes.  `Move` lists them,
each with the buffers it takes in, its effects, and the buffers it loses;
`Moves` is a sequence of them.

* `Shape` — the queue invariant: matched superbufs first, then unmatched ones
  with increasing frame numbers, with the counters right and every buffer in
  its own stream's slot;
* `drain_eq`, `superbufFlush_eq`, `dispatch_moves` — the loops end, and what they
  do is a sequence of moves;
* `enqueueLocked_moves` — so is the matching of one buffer, and it loses
  exactly `lostAt`.
-/
import Mathlib.Data.List.ReduceOption
import HdxCommon.Superbuf

namespace Superbuf

/-! ### Buffers of superbufs and of effects -/

def Node.bufs (n : Node) : List BufInfo := n.superBuf.reduceOption

/-- The buffers with frame number 0, which look like empty slots to
`bufdoneNonzero`. -/
def Node.zeroBufs (n : Node) : List BufInfo := n.bufs.filter fun b => b.frameIdx = 0

def Node.slotBufs (n : Node) (idx : ℕ) : List BufInfo := (n.superBuf[idx]?.getD none).toList

def Queue.stored (q : Queue) : List BufInfo := q.que.flatMap Node.bufs

theorem bufdone_eq (n : Node) : bufdone n = n.bufs.map .qbuf := by
  rw [bufdone, Node.bufs, List.reduceOption, List.map_filterMap]
  rfl

theorem bufdoneNonzero_eq (n : Node) :
    bufdoneNonzero n = (n.bufs.filter fun b => b.frameIdx ≠ 0).map .qbuf := by
  rw [bufdoneNonzero, Node.bufs]
  induction n.superBuf with
  | nil => rfl
  | cons s rest ih =>
    cases s with
    | none => simpa [slotFrameIdx, List.reduceOption_cons_of_none] using ih
    | some b =>
      by_cases hb : b.frameIdx = 0
      all_goals simpa [slotFrameIdx, List.reduceOption_cons_of_some, hb] using ih

def bufEffects (es : List Effect) : List Effect :=
  es.filter fun e => e ≠ .startZslSnapshot ∧ e ≠ .stopZslSnapshot

@[simp] theorem bufEffects_append (es es' : List Effect) :
    bufEffects (es ++ es') = bufEffects es ++ bufEffects es' :=
  List.filter_append ..

@[simp] theorem bufEffects_nil : bufEffects [] = [] := rfl

theorem bufEffects_bufdone (n : Node) : bufEffects (bufdone n) = bufdone n := by
  rw [bufdone_eq, bufEffects, List.filter_eq_self]
  intro e he
  obtain ⟨b, -, rfl⟩ := List.mem_map.mp he
  simp

theorem bufEffects_bufdoneNonzero (n : Node) :
    bufEffects (bufdoneNonzero n) = bufdoneNonzero n := by
  rw [bufdoneNonzero_eq, bufEffects, List.filter_eq_self]
  intro e he
  obtain ⟨b, -, rfl⟩ := List.mem_map.mp he
  simp

/-! ### Moves -/

/-- Remove `k` superbufs at the front. -/
def Queue.pop (q : Queue) (k : ℕ) : Queue :=
  { q with
    que := q.que.drop k
    size := q.size - UInt32.ofNat k
    matchCnt := q.matchCnt - UInt32.ofNat ((q.que.take k).countP (·.matched)) }

/-- What is known about the command that makes the moves: whether allocations
succeed, which changes of the expected frame it asks for, and which buffers
complete a superbuf. -/
structure Ctx where
  ample : Prop
  asks : UInt32 → UInt32 → Prop
  mayMatch : BufInfo → Prop

/-- An elementary change of the queue: the buffers taken in, the effects, and
the buffers lost. -/
inductive Move (ctx : Ctx) :
    Queue → List BufInfo → List Effect → List BufInfo → Queue → Prop where
  | release {q : Queue} {n : Node} {rest : List Node} :
      q.que = n :: rest → Move ctx q [] (bufdone n) [] (q.pop 1)
  | send {q : Queue} {n : Node} {rest : List Node} :
      q.que = n :: rest → n.matched = true →
      Move ctx q [] [.superbufCb n.superBuf] [] (q.pop 1)
  | sendLost {q : Queue} {n : Node} {rest : List Node} :
      ¬ ctx.ample → q.que = n :: rest → Move ctx q [] [] n.bufs (q.pop 1)
  | expect {q : Queue} {e : UInt32} :
      ctx.asks q.expectedFrameId e → Move ctx q [] [] [] { q with expectedFrameId := e }
  | mode {q : Queue} (m : NotifyMode) :
      Move ctx q [] [] [] { q with attr := { q.attr with notifyMode := m } }
  | lose {q : Queue} (b : BufInfo) : Move ctx q [b] [] [b] q
  | discard {q : Queue} (b : BufInfo) : Move ctx q [b] [.qbuf b] [] q
  | fill {q : Queue} {b : BufInfo} {idx : ℕ} {L R : List Node} {n : Node} :
      q.que = L ++ n :: R → q.bundledStreams[idx]? = some b.streamId → n.matched = false →
      n.frameIdx = b.frameIdx → (n.fill idx b).matched = false →
      Move ctx q [b] [] (n.slotBufs idx) { q with que := L ++ n.fill idx b :: R }
  | complete {q : Queue} {b : BufInfo} {idx : ℕ} {M A B : List Node} {n : Node} :
      q.que = M ++ (A ++ n :: B) → q.bundledStreams[idx]? = some b.streamId →
      (∀ m ∈ M, m.matched = true) → (∀ u ∈ A ++ n :: B, u.matched = false) →
      n.frameIdx = b.frameIdx → q.expectedFrameId ≤ b.frameIdx →
      (n.fill idx b).matched = true → ctx.mayMatch b →
      Move ctx q [b] (.matched b.frameIdx :: A.flatMap bufdoneNonzero)
        (n.slotBufs idx ++ A.flatMap Node.zeroBufs)
        ({ q with
            que := M ++ n.fill idx b :: B
            size := q.size - UInt32.ofNat A.length }.countMatch b.frameIdx)
  | evict {q : Queue} {L R : List Node} {n : Node} :
      q.que = L ++ n :: R → n.matched = false →
      Move ctx q [] (bufdoneNonzero n) n.zeroBufs
        { q with que := L ++ R, size := q.size - 1 }
  | insert {q : Queue} {b : BufInfo} {idx : ℕ} {M A B : List Node} :
      q.que = M ++ (A ++ B) → q.bundledStreams[idx]? = some b.streamId →
      (∀ m ∈ M, m.matched = true) →
      (∀ a ∈ A, a.matched = false ∧ a.frameIdx < b.frameIdx) →
      (∀ c ∈ B, c.matched = false ∧ b.frameIdx < c.frameIdx) → q.numStreams ≠ 1 →
      Move ctx q [b] [] []
        { q with que := M ++ (A ++ Node.new q.numStreams idx b :: B), size := q.size + 1 }
  | single {q : Queue} {b : BufInfo} {idx : ℕ} :
      (∀ m ∈ q.que, m.matched = true) → q.bundledStreams[idx]? = some b.streamId →
      q.numStreams = 1 → q.expectedFrameId ≤ b.frameIdx → ctx.mayMatch b →
      Move ctx q [b] [.matched b.frameIdx] []
        ({ q with
            que := q.que ++ [Node.new q.numStreams idx b]
            size := q.size + 1 }.countMatch b.frameIdx)

inductive Moves (ctx : Ctx) :
    Queue → List BufInfo → List Effect → List BufInfo → Queue → Prop where
  | nil {q : Queue} : Moves ctx q [] [] [] q
  | cons {q q' q'' : Queue} {i is l ls : List BufInfo} {e es : List Effect} :
      Move ctx q i e l q' → Moves ctx q' is es ls q'' →
      Moves ctx q (i ++ is) (e ++ es) (l ++ ls) q''

section Moves

variable {ctx : Ctx} {q q' q'' : Queue}
  {i is l ls : List BufInfo} {e es : List Effect}

theorem Move.moves (h : Move ctx q i e l q') : Moves ctx q i e l q' := by
  have hm := Moves.cons h .nil
  simpa using hm

theorem Moves.trans (h : Moves ctx q i e l q') (h' : Moves ctx q' is es ls q'') :
    Moves ctx q (i ++ is) (e ++ es) (l ++ ls) q'' := by
  induction h with
  | nil => exact h'
  | cons hm _ ih =>
    have hms := Moves.cons hm (ih h')
    simpa only [List.append_assoc] using hms

/-- What every move keeps, a sequence of moves keeps. -/
theorem Moves.inv (I : Queue → Prop)
    (hI : ∀ q i e l q', Move ctx q i e l q' → I q → I q')
    (h : Moves ctx q is es ls q') (hq : I q) : I q' := by
  induction h with
  | nil => exact hq
  | cons hm _ ih => exact ih (hI _ _ _ _ _ hm hq)

theorem Move.bundledStreams_eq (hm : Move ctx q i e l q') :
    q'.bundledStreams = q.bundledStreams := by
  cases hm <;> rfl

theorem Moves.bundledStreams_eq (hm : Moves ctx q i e l q') :
    q'.bundledStreams = q.bundledStreams :=
  hm.inv (fun q' => q'.bundledStreams = q.bundledStreams)
    (fun _ _ _ _ _ hmove hq => hmove.bundledStreams_eq.trans hq) rfl

theorem Move.postFrameSkip_eq (hm : Move ctx q i e l q') :
    q'.attr.postFrameSkip = q.attr.postFrameSkip := by
  cases hm <;> rfl

theorem Move.maxUnmatchedFrames_eq (hm : Move ctx q i e l q') :
    q'.attr.maxUnmatchedFrames = q.attr.maxUnmatchedFrames := by
  cases hm <;> rfl

theorem Moves.maxUnmatchedFrames_eq (hm : Moves ctx q i e l q') :
    q'.attr.maxUnmatchedFrames = q.attr.maxUnmatchedFrames :=
  hm.inv (fun q' => q'.attr.maxUnmatchedFrames = q.attr.maxUnmatchedFrames)
    (fun _ _ _ _ _ hmove hq => hmove.maxUnmatchedFrames_eq.trans hq) rfl

theorem Moves.postFrameSkip_eq (hm : Moves ctx q i e l q') :
    q'.attr.postFrameSkip = q.attr.postFrameSkip :=
  hm.inv (fun q' => q'.attr.postFrameSkip = q.attr.postFrameSkip)
    (fun _ _ _ _ _ hmove hq => hmove.postFrameSkip_eq.trans hq) rfl

end Moves

/-! ### The queue invariant -/

/-- A superbuf of a bundle with the stream handles `ids`: one slot a stream,
each buffer in its own stream's slot and of the superbuf's frame, no empty slot
once it is matched, and at least one buffer. -/
structure Node.Wf (ids : List UInt32) (n : Node) : Prop where
  length_eq : n.superBuf.length = ids.length
  slot : ∀ (i : ℕ) (b : BufInfo), n.superBuf[i]? = some (some b) →
    b.frameIdx = n.frameIdx ∧ ids[i]? = some b.streamId
  full : n.matched = true → ∀ s ∈ n.superBuf, s ≠ none
  filled : n.bufs ≠ []

/-- The queue is the matched superbufs `M` followed by the unmatched ones `U`,
whose frame numbers increase; the counters count, as machine words; with one
stream nothing stays unmatched. -/
structure Shape (q : Queue) (M U : List Node) : Prop where
  que_eq : q.que = M ++ U
  matched : ∀ n ∈ M, n.matched = true
  unmatched : ∀ n ∈ U, n.matched = false
  sorted : U.Pairwise fun m n => m.frameIdx < n.frameIdx
  matchCnt_eq : q.matchCnt = UInt32.ofNat M.length
  size_eq : q.size = UInt32.ofNat q.que.length
  single : q.numStreams = 1 → U = []
  wf : ∀ n ∈ q.que, n.Wf q.bundledStreams

section Shape

variable {q : Queue} {M U : List Node} {n : Node} {k : ℕ}

theorem Shape.of_fresh (h : q.Fresh) : Shape q [] [] := by
  obtain ⟨hque, hsize, hcnt⟩ := h
  exact ⟨hque, by simp, by simp, .nil, by simp [hcnt], by simp [hque, hsize], fun _ => rfl,
    by simp [hque]⟩

theorem countP_take_matched (hM : ∀ n ∈ M, n.matched = true) (hk : k ≤ M.length) :
    ((M ++ U).take k).countP (·.matched) = k := by
  rw [List.take_append_of_le_length hk, List.countP_eq_length.mpr, List.length_take,
    min_eq_left hk]
  intro n hn
  exact hM n (List.mem_of_mem_take hn)

theorem Shape.pop (h : Shape q M U) (hk : k ≤ M.length) : Shape (q.pop k) (M.drop k) U := by
  have hque := h.que_eq
  refine ⟨?_, ?_, h.unmatched, h.sorted, ?_, ?_, h.single, ?_⟩
  · rw [Queue.pop, hque, List.drop_append_of_le_length hk]
  · intro n hn
    exact h.matched n (List.mem_of_mem_drop hn)
  · rw [Queue.pop, hque, h.matchCnt_eq, countP_take_matched h.matched hk, List.length_drop,
      UInt32.ofNat_sub hk]
  · have hlen : k ≤ q.que.length := by
      rw [hque, List.length_append]
      omega
    rw [Queue.pop, h.size_eq, List.length_drop, UInt32.ofNat_sub hlen]
  · intro n hn
    exact h.wf n (List.mem_of_mem_drop hn)

theorem Queue.pop_zero (q : Queue) : q.pop 0 = q := by
  simp [Queue.pop]

theorem Queue.pop_pop (q : Queue) (j k : ℕ) : (q.pop j).pop k = q.pop (j + k) := by
  have hcount : (q.que.take (j + k)).countP (·.matched) =
      (q.que.take j).countP (·.matched) + ((q.que.drop j).take k).countP (·.matched) := by
    rw [List.take_add, List.countP_append]
  simp only [Queue.pop, List.drop_drop, hcount, UInt32.ofNat_add]
  congr 1
  all_goals grind

theorem dequeueInternal_pop {matchedOnly : Bool} (hk : q.que[k]? = some n)
    (hm : matchedOnly = true → n.matched = true) :
    dequeueInternal (q.pop k) matchedOnly = some (n, q.pop (k + 1)) := by
  have hlt : k < q.que.length := (List.getElem?_eq_some_iff.mp hk).1
  have hdrop : q.que.drop k = n :: q.que.drop (k + 1) := by
    rw [List.drop_eq_getElem_cons hlt, (List.getElem?_eq_some_iff.mp hk).2]
  have hcond : ¬ (matchedOnly && !n.matched) = true := by
    cases matchedOnly with
    | false => simp
    | true => simp [hm rfl]
  have hpop : ((q.pop k).pop 1).matchCnt =
      if n.matched then (q.pop k).matchCnt - 1 else (q.pop k).matchCnt := by
    cases hn : n.matched <;> simp [Queue.pop, hdrop, hn]
  rw [← Queue.pop_pop]
  simp only [dequeueInternal, Queue.pop, hdrop]
  rw [if_neg hcond]
  simp only [Queue.pop, hdrop] at hpop
  simp only [hpop, Option.some.injEq, Prod.mk.injEq, true_and]
  rfl

end Shape

section Loops

variable {ctx : Ctx} {q : Queue} {M U : List Node} {n : Node}
  {k : ℕ}

theorem Shape.getElem?_matched (h : Shape q M U) (hk : k < M.length) :
    ∃ n, q.que[k]? = some n ∧ n.matched = true := by
  refine ⟨M[k], ?_, h.matched _ (List.getElem_mem hk)⟩
  rw [h.que_eq, List.getElem?_append_left hk, List.getElem?_eq_getElem hk]

theorem Shape.pop_matchCnt (h : Shape q M U) (hlt : M.length < 2 ^ 32) (hk : k ≤ M.length) :
    (q.pop k).matchCnt.toNat = M.length - k := by
  rw [(h.pop hk).matchCnt_eq, UInt32.toNat_ofNat', List.length_drop, Nat.mod_eq_of_lt (by omega)]

theorem pop_que_cons (hn : q.que[k]? = some n) : (q.pop k).que = n :: q.que.drop (k + 1) := by
  obtain ⟨hlt, rfl⟩ := List.getElem?_eq_some_iff.mp hn
  exact List.drop_eq_getElem_cons hlt

theorem release_moves (ctx : Ctx) : ∀ {k : ℕ}, k ≤ q.que.length →
    Moves ctx q [] ((q.que.take k).flatMap bufdone) [] (q.pop k) := by
  intro k
  induction k with
  | zero =>
    intro _
    rw [Queue.pop_zero]
    exact .nil
  | succ k ih =>
    intro hk
    have hn : q.que[k]? = some (q.que[k]) := List.getElem?_eq_getElem (by omega)
    have hmove : Move ctx (q.pop k) [] (bufdone q.que[k]) [] ((q.pop k).pop 1) :=
      .release (pop_que_cons hn)
    have hmoves := (ih (by omega)).trans hmove.moves
    rw [Queue.pop_pop] at hmoves
    rw [List.take_add_one, List.flatMap_append, hn]
    simpa using hmoves

/-- The overflow and skip loops end; they give back all but the last `bound`
matched superbufs. -/
theorem drain_eq (h : Shape q M U) (hlt : M.length < 2 ^ 32) (bound : UInt8) :
    loop (drainRound bound) (q.que.length + 1) (q, []) =
      some (q.pop (M.length - bound.toNat),
        (q.que.take (M.length - bound.toNat)).flatMap bufdone) := by
  -- invariant: `j` matched superbufs were given back; variant: `match_cnt`
  let I : Queue × List Effect → Prop := fun s =>
    ∃ j ≤ M.length - bound.toNat, s = (q.pop j, (q.que.take j).flatMap bufdone)
  have hround : ∀ s s', I s → drainRound bound s = some s' →
      I s' ∧ s'.1.matchCnt.toNat < s.1.matchCnt.toNat := by
    rintro s s' ⟨j, hj, rfl⟩ hs
    have hcnt := h.pop_matchCnt hlt (k := j) (by omega)
    rw [drainRound] at hs
    split at hs
    next hgt =>
      obtain ⟨n, hn, hm⟩ := h.getElem?_matched (k := j) (by omega)
      rw [dequeueInternal_pop hn (fun _ => hm)] at hs
      simp only [Option.some.injEq] at hs
      subst hs
      refine ⟨⟨j + 1, by omega, ?_⟩, ?_⟩
      · rw [List.take_add_one, List.flatMap_append, hn]
        simp
      · have hcnt' := h.pop_matchCnt hlt (k := j + 1) (by omega)
        simp only [hcnt, hcnt']
        omega
    next => cases hs
  have hlen : q.matchCnt.toNat < q.que.length + 1 := by
    have hcnt := h.pop_matchCnt hlt (Nat.zero_le _)
    rw [Queue.pop_zero] at hcnt
    rw [hcnt, h.que_eq, List.length_append]
    omega
  obtain ⟨t, ht, ⟨k, hk, rfl⟩, hend⟩ := loop_spec I (fun s => s.1.matchCnt.toNat) hround
    (s := (q, [])) ⟨0, by omega, by simp [Queue.pop_zero]⟩ hlen
  have hcnt := h.pop_matchCnt hlt (k := k) (by omega)
  obtain rfl : k = M.length - bound.toNat := by
    rw [drainRound] at hend
    split at hend
    next => split at hend <;> cases hend
    next hle => omega
  exact ht

/-- A flush ends and gives back everything. -/
theorem superbufFlush_eq (q : Queue) :
    superbufFlush q = some (q.pop q.que.length, q.que.flatMap bufdone) := by
  let I : Queue × List Effect → Prop := fun s =>
    ∃ j ≤ q.que.length, s = (q.pop j, (q.que.take j).flatMap bufdone)
  have hstep : ∀ j < q.que.length, flushRound (q.pop j, (q.que.take j).flatMap bufdone) =
      some (q.pop (j + 1), (q.que.take (j + 1)).flatMap bufdone) := by
    intro j hj
    have hn : q.que[j]? = some (q.que[j]) := List.getElem?_eq_getElem hj
    rw [flushRound, dequeueInternal_pop hn (by simp), List.take_add_one, List.flatMap_append, hn]
    simp
  have hend :
      flushRound (q.pop q.que.length, (q.que.take q.que.length).flatMap bufdone) = none := by
    simp [flushRound, dequeueInternal, Queue.pop]
  have hround : ∀ s s', I s → flushRound s = some s' → I s' ∧ s'.1.que.length < s.1.que.length := by
    rintro s s' ⟨j, hj, rfl⟩ hs
    rcases Nat.lt_or_ge j q.que.length with hlt | hge
    · rw [hstep j hlt] at hs
      simp only [Option.some.injEq] at hs
      subst hs
      refine ⟨⟨j + 1, hlt, rfl⟩, ?_⟩
      simp [Queue.pop]
      omega
    · obtain rfl : j = q.que.length := by omega
      rw [hend] at hs
      cases hs
  obtain ⟨t, ht, ⟨k, hk, rfl⟩, hnone⟩ := loop_spec I (fun s => s.1.que.length) hround
    (s := (q, [])) ⟨0, by omega, by simp [Queue.pop_zero]⟩ (Nat.lt_succ_self _)
  rcases Nat.lt_or_ge k q.que.length with hlt | hge
  · rw [hstep k hlt] at hnone
    cases hnone
  · obtain rfl : k = q.que.length := by omega
    rw [superbufFlush, ht, List.take_length]

end Loops

/-! ### Dispatching -/

def Mem.AllOk (mem : Mem) : Prop :=
  mem.newNode = true ∧ (∀ k, mem.cbNode k = true) ∧ ∀ k, mem.cbEnq k = true

section Dispatch

variable {ctx : Ctx} {ch ch' : Channel} {mem : Mem} {M U : List Node} {n : Node}
  {k : ℕ} {es : List Effect}

theorem bufEffects_sendSuperbuf (ch : Channel) (mem : Mem) (k : ℕ) (n : Node) :
    bufEffects (sendSuperbuf ch mem k n) = sendSuperbuf ch mem k n := by
  unfold sendSuperbuf
  split
  · split
    · split
      all_goals rfl
    · exact bufEffects_bufdone n
  · exact bufEffects_bufdone n

/-- Handing out one superbuf is one move; it loses the buffers only if the list
node cannot be allocated. -/
theorem sendSuperbuf_move (hctx : ctx.ample → mem.AllOk) (ch : Channel) (k : ℕ) {q : Queue}
    {rest : List Node} (hq : q.que = n :: rest) (hm : n.matched = true) :
    ∃ l, (ctx.ample → l = []) ∧ Move ctx q [] (sendSuperbuf ch mem k n) l (q.pop 1) := by
  unfold sendSuperbuf
  split
  · split
    · split
      next => exact ⟨[], fun _ => rfl, .send hq hm⟩
      next hEnq =>
        have hno : ¬ ctx.ample := fun hok => hEnq ((hctx hok).2.2 k)
        exact ⟨n.bufs, fun hok => absurd hok hno, .sendLost hno hq⟩
    · exact ⟨[], fun _ => rfl, .release hq⟩
  · exact ⟨[], fun _ => rfl, .release hq⟩

/-- The channel fields the matcher never changes. -/
def Channel.SameSetup (ch ch' : Channel) : Prop :=
  ch'.superBufNotifyCb = ch.superBufNotifyCb ∧ ch'.streams = ch.streams

/-- What the dispatch loop has done after `k` superbufs. -/
def Dispatched (ctx : Ctx) (ch : Channel) (m : ℕ) :
    Channel × ℕ × List Effect → Prop
  | (ch', k, es) => k ≤ m ∧ ch'.queue = ch.queue.pop k ∧ ch.SameSetup ch' ∧
    ∃ l, (ctx.ample → l = []) ∧ Moves ctx ch.queue [] (bufEffects es) l (ch.queue.pop k)

theorem countDispatched_spec (mode : NotifyMode) (ch : Channel) :
    (countDispatched mode ch).1.queue = ch.queue ∧ ch.SameSetup (countDispatched mode ch).1 ∧
      bufEffects (countDispatched mode ch).2 = [] := by
  unfold countDispatched
  by_cases hmode : mode = .burst
  · rw [if_pos hmode]
    by_cases hzsl : ch.pendingCnt - 1 = 0 ∧ ch.startZslSnapshotCalled = true
    · simp [hzsl, Channel.SameSetup, bufEffects]
    · simp [hzsl, Channel.SameSetup]
  · rw [if_neg hmode]
    exact ⟨rfl, ⟨rfl, rfl⟩, rfl⟩

/-- A round of the dispatch loop, read off: it takes the front superbuf, sends
it, and may stop the snapshot. -/
theorem dispatchRound_cases {mode : NotifyMode} {ch'' : Channel} {k' : ℕ} {es' : List Effect}
    (h : dispatchRound mode mem (ch', k, es) = some (ch'', k', es')) :
    ∃ n, dequeue ch'.queue = some (n, ch''.queue) ∧ ch'.SameSetup ch'' ∧ k' = k + 1 ∧
      bufEffects es' = bufEffects es ++ sendSuperbuf ch'' mem k n := by
  rw [dispatchRound] at h
  split at h
  next =>
    split at h
    next => cases h
    next n q hdeq =>
      obtain ⟨hq, hset, hzsl⟩ := countDispatched_spec mode { ch' with queue := q }
      simp only [Option.some.injEq, Prod.mk.injEq] at h
      obtain ⟨rfl, rfl, rfl⟩ := h
      refine ⟨n, by rw [hdeq, hq], hset, rfl, ?_⟩
      rw [bufEffects_append, bufEffects_append, hzsl, List.append_nil, bufEffects_sendSuperbuf]
  next => cases h

theorem dequeue_pop_none (h : Shape ch.queue M U) (hk : k ≤ M.length)
    (hnone : dequeue (ch.queue.pop k) = none) : k = M.length := by
  by_contra hne
  obtain ⟨n, hn, hm⟩ := h.getElem?_matched (k := k) (by omega)
  rw [dequeue, dequeueInternal_pop hn (fun _ => hm)] at hnone
  cases hnone

theorem dequeue_pop_some {q' : Queue} (h : Shape ch.queue M U) (hk : k ≤ M.length)
    (hsome : dequeue (ch.queue.pop k) = some (n, q')) :
    k < M.length ∧ ch.queue.que[k]? = some n ∧ n.matched = true ∧ q' = ch.queue.pop (k + 1) := by
  rcases Nat.lt_or_ge k M.length with hlt | hge
  · obtain ⟨n', hn', hm⟩ := h.getElem?_matched hlt
    rw [dequeue, dequeueInternal_pop hn' (fun _ => hm)] at hsome
    simp only [Option.some.injEq, Prod.mk.injEq] at hsome
    obtain ⟨rfl, rfl⟩ := hsome
    exact ⟨hlt, hn', hm, rfl⟩
  · -- only unmatched superbufs are left, and those are not taken
    obtain rfl : k = M.length := by omega
    exfalso
    have hque : (ch.queue.pop M.length).que = U := by
      rw [Queue.pop, h.que_eq, List.drop_left]
    rw [dequeue, dequeueInternal, hque] at hsome
    cases hU : U with
    | nil =>
      rw [hU] at hsome
      cases hsome
    | cons u rest =>
      rw [hU] at hsome
      have hu : u.matched = false := h.unmatched u (by rw [hU]; exact List.mem_cons_self)
      simp [hu] at hsome

/-- The dispatch loop ends.  It hands out some of the matched superbufs, in
continuous mode all of them. -/
theorem dispatch_moves (hctx : ctx.ample → mem.AllOk) (h : Shape ch.queue M U) :
    ∃ k ≤ M.length, ∃ ch' es l, dispatch ch mem = some (ch', es) ∧
      ch'.queue = ch.queue.pop k ∧ ch.SameSetup ch' ∧
      (ch.queue.attr.notifyMode = .continuous → k = M.length) ∧ (ctx.ample → l = []) ∧
      Moves ctx ch.queue [] (bufEffects es) l ch'.queue := by
  set mode := ch.queue.attr.notifyMode with hmode
  have hround : ∀ s s', Dispatched ctx ch M.length s → dispatchRound mode mem s = some s' →
      Dispatched ctx ch M.length s' ∧ M.length - s'.2.1 < M.length - s.2.1 := by
    rintro ⟨ch', k, es⟩ ⟨ch'', k', es'⟩ ⟨hk, hq, hset, l, hl, hms⟩ hs
    obtain ⟨n, hdeq, hset', rfl, hes⟩ := dispatchRound_cases hs
    rw [hq] at hdeq
    obtain ⟨hlt, hn, hm, hq''⟩ := dequeue_pop_some h hk hdeq
    obtain ⟨l', hl', hmove⟩ := sendSuperbuf_move hctx ch'' k (pop_que_cons hn) hm
    have hms' := hms.trans hmove.moves
    rw [Queue.pop_pop] at hms'
    refine ⟨⟨hlt, hq'', ⟨?_, ?_⟩, l ++ l', ?_, ?_⟩, ?_⟩
    · rw [hset'.1, hset.1]
    · rw [hset'.2, hset.2]
    · intro hok
      rw [hl hok, hl' hok, List.append_nil]
    · rw [hes]
      exact hms'
    · simp only
      omega
  have hinit : Dispatched ctx ch M.length (ch, 0, []) := by
    refine ⟨by omega, (Queue.pop_zero _).symm, ⟨rfl, rfl⟩, [], fun _ => rfl, ?_⟩
    rw [Queue.pop_zero]
    exact .nil
  have hlen : M.length - 0 < ch.queue.que.length + 1 := by
    rw [h.que_eq, List.length_append]
    omega
  obtain ⟨⟨ch', k, es⟩, ht, ⟨hk, hq, hset, l, hl, hms⟩, hend⟩ :=
    loop_spec (Dispatched ctx ch M.length) (fun s => M.length - s.2.1) hround hinit hlen
  refine ⟨k, hk, ch', es, l, ?_, hq, hset, ?_, hl, by rw [hq]; exact hms⟩
  · rw [dispatch, ← hmode, ht]
    rfl
  · intro hcont
    rw [dispatchRound, if_pos (.inr hcont)] at hend
    split at hend
    next hdeq =>
      rw [hq] at hdeq
      exact dequeue_pop_none h hk hdeq
    next => cases hend

theorem drainUnlessContinuous_eq {q : Queue} (h : Shape q M U) (hlt : M.length < 2 ^ 32)
    (bound : UInt8) : ∃ k ≤ M.length,
      (q.attr.notifyMode ≠ .continuous → M.length - k ≤ bound.toNat) ∧
      (if q.attr.notifyMode = .continuous then some (q, [])
        else loop (drainRound bound) (q.que.length + 1) (q, [])) =
          some (q.pop k, (q.que.take k).flatMap bufdone) := by
  by_cases hmode : q.attr.notifyMode = .continuous
  · refine ⟨0, by omega, fun hne => absurd hmode hne, ?_⟩
    rw [if_pos hmode, Queue.pop_zero]
    rfl
  · refine ⟨M.length - bound.toNat, by omega, fun _ => by omega, ?_⟩
    rw [if_neg hmode, drain_eq h hlt]

theorem bufEffects_flatMap_bufdone (ns : List Node) :
    bufEffects (ns.flatMap bufdone) = ns.flatMap bufdone := by
  induction ns with
  | nil => rfl
  | cons n ns ih => rw [List.flatMap_cons, bufEffects_append, bufEffects_bufdone, ih]

theorem superbufSkip_moves (ctx : Ctx) {q : Queue}
    (h : Shape q M U) (hlt : M.length < 2 ^ 32) :
    ∃ k ≤ M.length, ∃ es, superbufSkip q = some (q.pop k, es) ∧
      Moves ctx q [] (bufEffects es) [] (q.pop k) := by
  obtain ⟨k, hk, -, heq⟩ := drainUnlessContinuous_eq h hlt q.attr.lookBack
  have hlen : k ≤ q.que.length := by
    rw [h.que_eq, List.length_append]
    omega
  refine ⟨k, hk, _, heq, ?_⟩
  rw [bufEffects_flatMap_bufdone]
  exact release_moves ctx hlen

theorem overflowAndDispatch_moves (hctx : ctx.ample → mem.AllOk)
    (h : Shape ch.queue M U) (hlt : M.length < 2 ^ 32) :
    ∃ k ≤ M.length, ∃ ch' es l, overflowAndDispatch ch mem = some (ch', es) ∧
      ch'.queue = ch.queue.pop k ∧ ch.SameSetup ch' ∧ M.length - k ≤ 255 ∧
      (ctx.ample → l = []) ∧ Moves ctx ch.queue [] (bufEffects es) l ch'.queue := by
  obtain ⟨d, hd, hover, heq⟩ := drainUnlessContinuous_eq h hlt ch.queue.attr.waterMark
  have hlen : d ≤ ch.queue.que.length := by
    rw [h.que_eq, List.length_append]
    omega
  have hd' : Shape { ch with queue := ch.queue.pop d }.queue (M.drop d) U := h.pop hd
  obtain ⟨k, hk, ch', es, l, hdis, hq, hset, hcont, hl, hms⟩ := dispatch_moves hctx hd'
  rw [List.length_drop] at hk hcont
  rw [Queue.pop_pop] at hq
  refine ⟨d + k, by omega, ch', (ch.queue.que.take d).flatMap bufdone ++ es, l, ?_, hq, hset, ?_,
    hl, ?_⟩
  · rw [overflowAndDispatch, superbufBufdoneOverflow, heq]
    simp only [Option.bind_eq_bind, Option.bind_some, hdis]
    rfl
  · by_cases hmode : ch.queue.attr.notifyMode = .continuous
    · have := hcont hmode
      omega
    · have hwm := ch.queue.attr.waterMark.toNat_lt
      have := hover hmode
      omega
  · have hrel := (release_moves ctx hlen).trans hms
    rw [bufEffects_append, bufEffects_flatMap_bufdone]
    exact hrel

end Dispatch

section Scan

variable {f : UInt32} {pos : ℕ} {s : Scan} {M A B L : List Node} {n : Node}

theorem scanFrom_matched (hM : ∀ m ∈ M, m.matched = true) :
    scanFrom f (M ++ L) pos s = scanFrom f L (pos + M.length) s := by
  induction M generalizing pos with
  | nil => rfl
  | cons m M ih =>
    rw [List.cons_append, scanFrom, if_pos (hM m List.mem_cons_self),
      ih (fun x hx => hM x (List.mem_cons_of_mem m hx)), List.length_cons]
    congr 1
    omega

theorem add_one_add_ofNat (c : UInt8) (n : ℕ) :
    c + 1 + UInt8.ofNat n = c + UInt8.ofNat (n + 1) := by
  rw [UInt8.ofNat_add]
  grind

theorem scanFrom_older (hA : ∀ a ∈ A, a.matched = false ∧ a.frameIdx < f) :
    scanFrom f (A ++ L) pos s = scanFrom f L (pos + A.length)
      { s with
        unmatchedBundles := s.unmatchedBundles + UInt8.ofNat A.length
        lastBuf := s.lastBuf.or (A.head?.map fun a => (pos, a)) } := by
  induction A generalizing pos s with
  | nil => simp
  | cons a A ih =>
    obtain ⟨hm, hlt⟩ := hA a List.mem_cons_self
    have hne : f ≠ a.frameIdx := fun heq => absurd (heq ▸ hlt) (UInt32.lt_irrefl f)
    have hng : ¬ a.frameIdx > f := fun hgt => UInt32.lt_asymm hlt hgt
    rw [List.cons_append, scanFrom, if_neg (by simp [hm]), if_neg hne,
      ih (fun x hx => hA x (List.mem_cons_of_mem a hx))]
    have hpos : pos + 1 + A.length = pos + (A.length + 1) := by omega
    cases s.lastBuf <;> simp [hlt, hng, add_one_add_ofNat, hpos]

theorem scanFrom_newer (hB : ∀ c ∈ B, c.matched = false ∧ f < c.frameIdx) :
    scanFrom f B pos s =
      { s with
        unmatchedBundles := s.unmatchedBundles + UInt8.ofNat B.length
        insertBeforeBuf := s.insertBeforeBuf.or (B.head?.map fun c => (pos, c)) } := by
  induction B generalizing pos s with
  | nil => simp [scanFrom]
  | cons c B ih =>
    obtain ⟨hm, hlt⟩ := hB c List.mem_cons_self
    have hne : f ≠ c.frameIdx := fun heq => absurd (heq ▸ hlt) (UInt32.lt_irrefl f)
    have hng : ¬ c.frameIdx < f := fun hgt => UInt32.lt_asymm hlt hgt
    rw [scanFrom, if_neg (by simp [hm]), if_neg hne,
      ih (fun x hx => hB x (List.mem_cons_of_mem c hx))]
    cases s.insertBeforeBuf <;> simp [hlt, hng, add_one_add_ofNat]

theorem scan_found (hM : ∀ m ∈ M, m.matched = true)
    (hA : ∀ a ∈ A, a.matched = false ∧ a.frameIdx < f) (hn : n.matched = false)
    (hf : f = n.frameIdx) :
    (scan f (M ++ (A ++ n :: B))).found = some (M.length + A.length, n) ∧
      (scan f (M ++ (A ++ n :: B))).lastBuf = A.head?.map fun a => (M.length, a) := by
  rw [scan, scanFrom_matched hM, scanFrom_older hA, scanFrom, if_neg (by simp [hn]), if_pos hf]
  simp

theorem scan_not_found (hM : ∀ m ∈ M, m.matched = true)
    (hA : ∀ a ∈ A, a.matched = false ∧ a.frameIdx < f)
    (hB : ∀ c ∈ B, c.matched = false ∧ f < c.frameIdx) :
    scan f (M ++ (A ++ B)) =
      { found := none
        unmatchedBundles := UInt8.ofNat (A.length + B.length)
        lastBuf := A.head?.map fun a => (M.length, a)
        insertBeforeBuf := B.head?.map fun c => (M.length + A.length, c) } := by
  rw [scan, scanFrom_matched hM, scanFrom_older hA, scanFrom_newer hB]
  simp

theorem exists_split_at_frame {U : List Node} (f : UInt32)
    (hU : U.Pairwise fun m n => m.frameIdx < n.frameIdx) :
    ∃ A B, U = A ++ B ∧ (∀ a ∈ A, a.frameIdx < f) ∧
      ((∀ c ∈ B, f < c.frameIdx) ∨
        ∃ n B', B = n :: B' ∧ n.frameIdx = f ∧ ∀ c ∈ B', f < c.frameIdx) := by
  induction U with
  | nil => exact ⟨[], [], rfl, by simp, .inl (by simp)⟩
  | cons u U ih =>
    obtain ⟨hu, hU'⟩ := List.pairwise_cons.mp hU
    rcases Nat.lt_trichotomy u.frameIdx.toNat f.toNat with hlt | heq | hgt
    · obtain ⟨A, B, rfl, hA, hB⟩ := ih hU'
      refine ⟨u :: A, B, rfl, ?_, hB⟩
      intro a ha
      rcases List.mem_cons.mp ha with rfl | ha
      · exact UInt32.lt_iff_toNat_lt.mpr hlt
      · exact hA a ha
    · have heq := UInt32.toNat_inj.mp heq
      refine ⟨[], u :: U, rfl, by simp, .inr ⟨u, U, rfl, heq, ?_⟩⟩
      intro c hc
      exact heq ▸ hu c hc
    · have hgt := UInt32.lt_iff_toNat_lt.mpr hgt
      refine ⟨[], u :: U, rfl, by simp, .inl ?_⟩
      intro c hc
      rcases List.mem_cons.mp hc with rfl | hc
      · exact hgt
      · exact UInt32.lt_trans hgt (hu c hc)

end Scan

/-! ### Matching one buffer -/

def Queue.unmatched (q : Queue) : List Node := q.que.filter fun n => !n.matched

def Queue.older (q : Queue) (f : UInt32) : List Node :=
  q.unmatched.filter fun n => n.frameIdx < f

def Queue.ofFrame (q : Queue) (f : UInt32) : Option Node :=
  q.unmatched.find? fun n => n.frameIdx == f

/-- There are more unmatched superbufs than allowed, as the `uint8_t` counter
sees it. -/
def Queue.Crowded (q : Queue) : Prop :=
  q.attr.maxUnmatchedFrames < UInt8.ofNat q.unmatched.length

instance (q : Queue) : Decidable q.Crowded := inferInstanceAs (Decidable (_ < _))

/-- The buffer fills the last empty slot of the unmatched superbuf of its
frame. -/
def Completes (q : Queue) (idx : ℕ) (b : BufInfo) : Prop :=
  ∃ n ∈ q.que, n.matched = false ∧ n.frameIdx = b.frameIdx ∧ (n.fill idx b).matched = true

/-- The buffers that matching `b` drops: the one whose slot it takes, and those
of frame 0 in the superbufs it releases. -/
def lostAt (q : Queue) (idx : ℕ) (b : BufInfo) : List BufInfo :=
  match q.ofFrame b.frameIdx with
  | some n =>
    n.slotBufs idx ++
      if (n.fill idx b).matched then (q.older b.frameIdx).flatMap Node.zeroBufs else []
  | none => if q.Crowded then ((q.older b.frameIdx).take 1).flatMap Node.zeroBufs else []

section Enqueue

variable {q : Queue} {M U A B : List Node} {n : Node} {b : BufInfo} {idx : ℕ} {newNode : Bool}

theorem filter_unmatched_eq_nil (hM : ∀ m ∈ M, m.matched = true) :
    M.filter (fun n => !n.matched) = [] := by
  rw [List.filter_eq_nil_iff]
  intro m hm
  simp [hM m hm]

theorem unmatched_of_que_eq (hque : q.que = M ++ U) (hM : ∀ m ∈ M, m.matched = true)
    (hU : ∀ u ∈ U, u.matched = false) : q.unmatched = U := by
  have hfilter : U.filter (fun n => !n.matched) = U := by
    rw [List.filter_eq_self]
    intro u hu
    simp [hU u hu]
  rw [Queue.unmatched, hque, List.filter_append, filter_unmatched_eq_nil hM, hfilter,
    List.nil_append]

theorem Shape.unmatched_eq (h : Shape q M U) : q.unmatched = U :=
  unmatched_of_que_eq h.que_eq h.matched h.unmatched

theorem Shape.older_eq (h : Shape q M (A ++ B)) {f : UInt32} (hA : ∀ a ∈ A, a.frameIdx < f)
    (hB : ∀ c ∈ B, ¬ c.frameIdx < f) : q.older f = A := by
  have hA' : A.filter (fun n => decide (n.frameIdx < f)) = A := by
    rw [List.filter_eq_self]
    intro a ha
    simp [hA a ha]
  have hB' : B.filter (fun n => decide (n.frameIdx < f)) = [] := by
    rw [List.filter_eq_nil_iff]
    intro c hc
    simp [hB c hc]
  rw [Queue.older, h.unmatched_eq, List.filter_append, hA', hB', List.append_nil]

theorem Shape.ofFrame_found (h : Shape q M (A ++ n :: B)) {f : UInt32}
    (hA : ∀ a ∈ A, a.frameIdx < f) (hn : n.frameIdx = f) : q.ofFrame f = some n := by
  have hnone : A.find? (fun m => m.frameIdx == f) = none := by
    rw [List.find?_eq_none]
    intro a ha heq
    have hlt := hA a ha
    rw [beq_iff_eq.mp heq] at hlt
    exact UInt32.lt_irrefl f hlt
  rw [Queue.ofFrame, h.unmatched_eq, List.find?_append, hnone, Option.none_or, List.find?_cons]
  simp [hn]

theorem Shape.ofFrame_none (h : Shape q M (A ++ B)) {f : UInt32} (hA : ∀ a ∈ A, a.frameIdx < f)
    (hB : ∀ c ∈ B, f < c.frameIdx) : q.ofFrame f = none := by
  rw [Queue.ofFrame, h.unmatched_eq, List.find?_eq_none]
  intro a ha heq
  have heq := beq_iff_eq.mp heq
  rcases List.mem_append.mp ha with ha | ha
  · exact UInt32.lt_irrefl f (heq ▸ hA a ha)
  · exact UInt32.lt_irrefl f (heq ▸ hB a ha)

theorem insertIdx_length_append (L R : List Node) (n : Node) :
    (L ++ R).insertIdx L.length n = L ++ n :: R := by
  induction L with
  | nil => rfl
  | cons m L ih => simpa using ih

theorem fillFound_moves (ctx : Ctx)
    (h : Shape q M (A ++ n :: B)) (hidx : q.bundledStreams[idx]? = some b.streamId)
    (hexp : q.expectedFrameId ≤ b.frameIdx) (hA : ∀ a ∈ A, a.frameIdx < b.frameIdx)
    (hn : n.frameIdx = b.frameIdx) (hmay : (n.fill idx b).matched = true → ctx.mayMatch b)
    (s : Scan) (hs : s.lastBuf = A.head?.map fun a => (M.length, a)) :
    Moves ctx q [b] (fillFound q idx b s (M.length + A.length) n).2
      (n.slotBufs idx ++ if (n.fill idx b).matched then A.flatMap Node.zeroBufs else [])
      (fillFound q idx b s (M.length + A.length) n).1 := by
  have hque : q.que = M ++ (A ++ n :: B) := h.que_eq
  have hset : q.que.set (M.length + A.length) (n.fill idx b) = M ++ (A ++ n.fill idx b :: B) := by
    rw [hque, List.set_append_right _ _ (by omega), Nat.add_sub_cancel_left,
      List.set_append_right _ _ le_rfl, Nat.sub_self, List.set_cons_zero]
  have hnU : n.matched = false := h.unmatched n (by simp)
  rw [fillFound]
  cases hm : (n.fill idx b).matched with
  | false =>
    have hmove : Move ctx q [b] [] (n.slotBufs idx)
        { q with que := (M ++ A) ++ n.fill idx b :: B } :=
      .fill (by rw [hque, List.append_assoc]) hidx hnU hn hm
    simpa [hm, hset] using hmove.moves
  | true =>
    have hmove : Move ctx q _ _ _ _ := .complete hque hidx h.matched h.unmatched hn hexp hm
      (hmay hm)
    cases A with
    | nil =>
      simp only [List.head?_nil, Option.map_none] at hs
      simp only [List.length_nil, Nat.add_zero, List.nil_append] at hset
      simpa [hm, hset, hs] using hmove.moves
    | cons a A =>
      simp only [List.head?_cons, Option.map_some] at hs
      have hdrop : (q.que.set (M.length + (a :: A).length) (n.fill idx b)).drop
          (M.length + (a :: A).length) = n.fill idx b :: B := by
        rw [hset, ← List.append_assoc, List.drop_left' (by simp)]
      have htake : (q.que.set (M.length + (a :: A).length) (n.fill idx b)).take M.length = M := by
        rw [hset, List.take_left]
      have holder : ((q.que.set (M.length + (a :: A).length) (n.fill idx b)).take
          (M.length + (a :: A).length)).drop M.length = a :: A := by
        rw [hset, ← List.append_assoc, List.take_left' (by simp), List.drop_left]
      have hgoal := hmove.moves
      simp only [if_true, hs, Queue.countMatch, hdrop, htake, holder] at hgoal ⊢
      exact hgoal

theorem insertNew_moves (ctx : Ctx)
    (hque : q.que = M ++ (A ++ B)) (hM : ∀ m ∈ M, m.matched = true)
    (hA : ∀ a ∈ A, a.matched = false ∧ a.frameIdx < b.frameIdx)
    (hB : ∀ c ∈ B, c.matched = false ∧ b.frameIdx < c.frameIdx)
    (hsingle : q.numStreams = 1 → A ++ B = [])
    (hidx : q.bundledStreams[idx]? = some b.streamId) (hexp : q.expectedFrameId ≤ b.frameIdx)
    (hmay : q.numStreams = 1 → ctx.mayMatch b) {pos : Option ℕ}
    (hpos : pos = B.head?.map fun _ => M.length + A.length) :
    Moves ctx q [b] (insertNew q idx b pos).2 [] (insertNew q idx b pos).1 := by
  have hget : pos.getD q.que.length = (M ++ A).length := by
    subst hpos
    cases B with
    | nil => simp [hque]
    | cons c B => simp
  have hins : q.que.insertIdx (pos.getD q.que.length) (Node.new q.numStreams idx b) =
      M ++ (A ++ Node.new q.numStreams idx b :: B) := by
    rw [hget, hque, ← List.append_assoc, insertIdx_length_append, List.append_assoc]
  rw [insertNew, hins]
  by_cases hone : q.numStreams = 1
  · obtain ⟨rfl, rfl⟩ := List.append_eq_nil_iff.mp (hsingle hone)
    rw [List.append_nil, List.append_nil] at hque
    have hmove : Move ctx q [b] [.matched b.frameIdx] [] _ :=
      .single (by rw [hque]; exact hM) hidx hone hexp (hmay hone)
    rw [hque] at hmove
    have hnum : { q with
        que := M ++ [Node.new q.numStreams idx b], size := q.size + 1 }.numStreams = 1 := hone
    simpa [hnum] using hmove.moves
  · have hmove : Move ctx q _ _ _ _ := .insert hque hidx hM hA hB hone
    have hnum : ¬ { q with
        que := M ++ (A ++ Node.new q.numStreams idx b :: B), size := q.size + 1 }.numStreams = 1 :=
      hone
    simpa [hnum] using hmove.moves

theorem evict_moves (ctx : Ctx) {a : Node}
    (h : Shape q M (a :: A ++ B)) (hA : ∀ x ∈ a :: A, x.frameIdx < b.frameIdx)
    (hB : ∀ c ∈ B, b.frameIdx < c.frameIdx)
    (hidx : q.bundledStreams[idx]? = some b.streamId) (hexp : q.expectedFrameId ≤ b.frameIdx)
    {pos : Option ℕ} (hpos : pos = B.head?.map fun _ => M.length + A.length) :
    let q' : Queue := { q with que := q.que.eraseIdx M.length, size := q.size - 1 }
    Moves ctx q [b] (bufdoneNonzero a ++ (insertNew q' idx b pos).2) a.zeroBufs
        (insertNew q' idx b pos).1 ∧
      Moves ctx q [b] (bufdoneNonzero a ++ [.qbuf b]) a.zeroBufs q' := by
  intro q'
  have hque : q.que = M ++ a :: (A ++ B) := h.que_eq
  have hque' : q'.que = M ++ (A ++ B) := by
    show q.que.eraseIdx M.length = _
    rw [hque, List.eraseIdx_append_of_length_le le_rfl, Nat.sub_self, List.eraseIdx_cons_zero]
  have hevict : Move ctx q [] (bufdoneNonzero a) a.zeroBufs q' := by
    have hmove : Move ctx q [] (bufdoneNonzero a) a.zeroBufs
        { q with que := M ++ (A ++ B), size := q.size - 1 } :=
      .evict hque (h.unmatched a (by simp))
    rwa [← hque'] at hmove
  have hU : ∀ x ∈ A ++ B, x.matched = false := fun x hx => h.unmatched x (by
    rcases List.mem_append.mp hx with hx | hx
    · simp [hx]
    · simp [hx])
  have hins : Moves ctx q' [b] (insertNew q' idx b pos).2 [] (insertNew q' idx b pos).1 := by
    have hmany : q'.numStreams ≠ 1 := by
      intro hone
      have hnil := h.single hone
      simp at hnil
    refine insertNew_moves ctx hque' h.matched ?_ ?_ (fun hone => absurd hone hmany) hidx hexp
      (fun hone => absurd hone hmany) hpos
    · intro x hx
      exact ⟨hU x (List.mem_append_left B hx), hA x (List.mem_cons_of_mem a hx)⟩
    · intro c hc
      exact ⟨hU c (List.mem_append_right A hc), hB c hc⟩
  constructor
  · simpa using hevict.moves.trans hins
  · have hdis : Move ctx q' [b] [.qbuf b] [] q' := .discard b
    simpa using hevict.moves.trans hdis.moves

theorem enqueueNew_moves (ctx : Ctx) (h : Shape q M (A ++ B))
    (hidx : q.bundledStreams[idx]? = some b.streamId) (hexp : q.expectedFrameId ≤ b.frameIdx)
    (hA : ∀ a ∈ A, a.frameIdx < b.frameIdx) (hB : ∀ c ∈ B, b.frameIdx < c.frameIdx)
    (hmay : q.numStreams = 1 → newNode = true → ctx.mayMatch b) (s : Scan)
    (hcount : s.unmatchedBundles = UInt8.ofNat (A.length + B.length))
    (hlast : s.lastBuf = A.head?.map fun a => (M.length, a))
    (hins : s.insertBeforeBuf = B.head?.map fun c => (M.length + A.length, c)) :
    Moves ctx q [b] (enqueueNew q idx b s newNode).2
      (if q.Crowded then (A.take 1).flatMap Node.zeroBufs else [])
      (enqueueNew q idx b s newNode).1 := by
  have hdis : Moves ctx q [b] [.qbuf b] [] q := (Move.discard b).moves
  have hcrowd : q.attr.maxUnmatchedFrames < s.unmatchedBundles ↔ q.Crowded := by
    rw [Queue.Crowded, h.unmatched_eq, hcount, List.length_append]
  rw [enqueueNew]
  by_cases hc : q.Crowded
  · rw [if_pos (hcrowd.mpr hc), if_pos hc, hlast]
    cases A with
    | nil => exact hdis
    | cons a A =>
      have hpos : (s.insertBeforeBuf.map fun p => if M.length < p.1 then p.1 - 1 else p.1) =
          B.head?.map fun _ => M.length + A.length := by
        rw [hins]
        cases B with
        | nil => rfl
        | cons c B =>
          simp only [List.head?_cons, Option.map_some, List.length_cons]
          rw [if_pos (by omega)]
          congr 1
      obtain ⟨hnew, hfail⟩ := evict_moves ctx h hA hB hidx hexp hpos
      simp only [List.head?_cons, Option.map_some, List.take_succ_cons, List.take_zero,
        List.flatMap_cons, List.flatMap_nil, List.append_nil]
      cases newNode with
      | true => exact hnew
      | false => exact hfail
  · rw [if_neg (mt hcrowd.mp hc), if_neg hc]
    cases newNode with
    | false => exact hdis
    | true =>
      rw [if_pos rfl]
      refine insertNew_moves ctx h.que_eq h.matched ?_ ?_ h.single hidx hexp
        (fun hone => hmay hone rfl) ?_
      · intro a ha
        exact ⟨h.unmatched a (List.mem_append_left B ha), hA a ha⟩
      · intro c hc
        exact ⟨h.unmatched c (List.mem_append_right A hc), hB c hc⟩
      · rw [hins, Option.map_map]
        rfl

/-- **Matching one buffer** is a sequence of moves that takes in the buffer and
loses `lostAt`. -/
theorem enqueueLocked_moves (ctx : Ctx) (newNode : Bool)
    (h : Shape q M U) (hidx : q.bundledStreams[idx]? = some b.streamId)
    (hexp : q.expectedFrameId ≤ b.frameIdx)
    (hmay : q.numStreams = 1 ∧ newNode = true ∨ Completes q idx b → ctx.mayMatch b) :
    Moves ctx q [b] (enqueueLocked q idx b newNode).2 (lostAt q idx b)
      (enqueueLocked q idx b newNode).1 := by
  obtain ⟨A, B, rfl, hA, hB⟩ := exists_split_at_frame b.frameIdx h.sorted
  have hAU : ∀ a ∈ A, a.matched = false ∧ a.frameIdx < b.frameIdx := fun a ha =>
    ⟨h.unmatched a (List.mem_append_left B ha), hA a ha⟩
  rcases hB with hB | ⟨n, B, rfl, hn, hB⟩
  · have hBU : ∀ c ∈ B, c.matched = false ∧ b.frameIdx < c.frameIdx := fun c hc =>
      ⟨h.unmatched c (List.mem_append_right A hc), hB c hc⟩
    have hscan := scan_not_found h.matched hAU hBU
    have holder := h.older_eq hA (fun c hc => UInt32.lt_asymm (hB c hc))
    rw [enqueueLocked, lostAt, h.ofFrame_none hA hB, holder, h.que_eq, hscan]
    exact enqueueNew_moves ctx h hidx hexp hA hB (fun hone hnew => hmay (.inl ⟨hone, hnew⟩)) _
      rfl rfl rfl
  · obtain ⟨hfound, hlast⟩ := scan_found (B := B) h.matched hAU
      (h.unmatched n (by simp)) hn.symm
    have holder := h.older_eq hA (by
      intro c hc
      rcases List.mem_cons.mp hc with rfl | hc
      · rw [hn]
        exact UInt32.lt_irrefl _
      · exact UInt32.lt_asymm (hB c hc))
    rw [enqueueLocked, lostAt, h.ofFrame_found hA hn, holder]
    simp only [h.que_eq, hfound]
    refine fillFound_moves ctx h hidx hexp hA hn ?_ _ hlast
    intro hfill
    exact hmay (.inr ⟨n, by simp [h.que_eq], h.unmatched n (by simp), hn, hfill⟩)

end Enqueue

end Superbuf

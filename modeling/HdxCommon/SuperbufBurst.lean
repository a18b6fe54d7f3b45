/-
Requests in burst mode.

A request for `n` superbufs sets `pending_cnt`; then three loops run over the
same list for every command: the skip (look-back), the overflow (water mark)
and the dispatch.

* `Serving.step` — what the commands after a request keep;
* `burst_request` — a request and all that follows it, for every run: superbufs
  that become complete are dispatched unless the water mark is 0.
-/
import HdxCommon.SuperbufOrder
import Mathlib.Data.List.DropRight

namespace Superbuf

/-! ### The loops in burst mode -/

def Mem.CbOk (mem : Mem) : Prop := (∀ k, mem.cbNode k = true) ∧ ∀ k, mem.cbEnq k = true

section Effects

@[simp] theorem returned_flatMap_bufdone (ns : List Node) :
    returned (ns.flatMap bufdone) = ns.flatMap Node.bufs := by
  induction ns with
  | nil => rfl
  | cons n ns ih =>
    rw [List.flatMap_cons, List.flatMap_cons, returned_append, ih, bufdone_eq, returned_map_qbuf]

@[simp] theorem dispatched_flatMap_bufdone (ns : List Node) :
    dispatched (ns.flatMap bufdone) = [] := by
  induction ns with
  | nil => rfl
  | cons n ns ih =>
    rw [List.flatMap_cons, dispatched_append, ih, bufdone_eq, dispatched_map_qbuf]
    rfl

@[simp] theorem matchedFrames_flatMap_bufdone (ns : List Node) :
    matchedFrames (ns.flatMap bufdone) = [] := by
  induction ns with
  | nil => rfl
  | cons n ns ih =>
    rw [List.flatMap_cons, matchedFrames_append, ih, bufdone_eq, matchedFrames_map_qbuf]
    rfl

end Effects

section Loops

variable {ch ch' : Channel} {mem : Mem} {q : Queue} {M U : List Node} {es : List Effect}

theorem Shape.matchedNodes_eq (h : Shape q M U) : q.matchedNodes = M := by
  rw [Queue.matchedNodes, h.que_eq, List.filter_append, List.filter_eq_self.mpr h.matched,
    filter_matched_eq_nil h.unmatched, List.append_nil]

theorem Shape.take_que (h : Shape q M U) {k : ℕ} (hk : k ≤ M.length) : q.que.take k = M.take k := by
  rw [h.que_eq, List.take_append_of_le_length hk]

theorem countDispatched_burst (hpos : 0 < ch.pendingCnt) :
    (countDispatched .burst ch).1.pendingCnt.toNat + 1 = ch.pendingCnt.toNat ∧
      dispatched (countDispatched .burst ch).2 = [] ∧
      returned (countDispatched .burst ch).2 = [] ∧
      matchedFrames (countDispatched .burst ch).2 = [] := by
  have hpos' : 0 < ch.pendingCnt.toNat := by simpa [UInt32.lt_iff_toNat_lt] using hpos
  have hsub : (ch.pendingCnt - 1).toNat = ch.pendingCnt.toNat - 1 := by
    rw [UInt32.toNat_sub_of_le _ _ (by rw [UInt32.le_iff_toNat_le]; exact hpos')]
    rfl
  rw [countDispatched, if_pos rfl]
  by_cases hzsl : ch.pendingCnt - 1 = 0 ∧ ch.startZslSnapshotCalled = true
  · simp only [hzsl, and_self, if_true]
    refine ⟨?_, rfl, rfl, rfl⟩
    rw [← hzsl.1]
    omega
  · simp only [hzsl, if_false]
    exact ⟨by omega, rfl, rfl, rfl⟩

/-- What the dispatch loop has done after `k` rounds in burst mode. -/
def BurstDispatched (ch : Channel) (M : List Node) : Channel × ℕ × List Effect → Prop
  | (ch', k, es) => k ≤ M.length ∧ ch'.queue = ch.queue.pop k ∧ ch.SameSetup ch' ∧
    ch'.pendingCnt.toNat + k = ch.pendingCnt.toNat ∧
    dispatched es = (M.take k).map Node.superBuf ∧ returned es = [] ∧ matchedFrames es = []

theorem BurstDispatched.round {k k' : ℕ} {ch'' : Channel} {es' : List Effect}
    (h : Shape ch.queue M U) (hcb : ch.superBufNotifyCb = true) (hmem : mem.CbOk)
    (hI : BurstDispatched ch M (ch', k, es))
    (hs : dispatchRound .burst mem (ch', k, es) = some (ch'', k', es')) :
    BurstDispatched ch M (ch'', k', es') ∧ M.length - k' < M.length - k := by
  obtain ⟨hk, hq, hset, hcnt, hdis, hret, hmf⟩ := hI
  rw [dispatchRound] at hs
  split at hs
  next hpend =>
    split at hs
    next => cases hs
    next n q hdeq =>
      have hpos : 0 < ch'.pendingCnt := hpend.resolve_right (by decide)
      rw [hq] at hdeq
      obtain ⟨hlt, hn, -, rfl⟩ := dequeue_pop_some h hk hdeq
      obtain ⟨hq', hset', -⟩ :=
        countDispatched_spec .burst { ch' with queue := ch.queue.pop (k + 1) }
      obtain ⟨hcnt', hdis', hret', hmf'⟩ :=
        @countDispatched_burst { ch' with queue := ch.queue.pop (k + 1) } hpos
      simp only [Option.some.injEq, Prod.mk.injEq] at hs
      obtain ⟨rfl, rfl, rfl⟩ := hs
      have hn' : M[k]? = some n := by
        rw [h.que_eq, List.getElem?_append_left hlt] at hn
        exact hn
      have hsend : sendSuperbuf (countDispatched .burst
          { ch' with queue := ch.queue.pop (k + 1) }).1 mem k n = [.superbufCb n.superBuf] := by
        rw [sendSuperbuf, hset'.1, show ({ ch' with
          queue := ch.queue.pop (k + 1) } : Channel).superBufNotifyCb = true from
          hset.1.trans hcb, if_pos rfl, if_pos (hmem.1 k), if_pos (hmem.2 k)]
      simp only at hcnt'
      refine ⟨⟨hlt, hq', ⟨hset'.1.trans hset.1, hset'.2.trans hset.2⟩, by omega, ?_, ?_, ?_⟩,
        by omega⟩
      · rw [hsend, dispatched_append, dispatched_append, hdis, hdis', List.append_nil,
          List.take_add_one, hn', List.map_append]
        rfl
      · rw [hsend, returned_append, returned_append, hret, hret']
        rfl
      · rw [hsend, matchedFrames_append, matchedFrames_append, hmf, hmf']
        rfl
  next => cases hs

/-- **The dispatch loop in burst mode** hands out as many of the matched
superbufs as are asked for, from the front. -/
theorem dispatch_burst (h : Shape ch.queue M U) (hmode : ch.queue.attr.notifyMode = .burst)
    (hcb : ch.superBufNotifyCb = true) (hmem : mem.CbOk) :
    ∃ ch' es, dispatch ch mem = some (ch', es) ∧
      BurstDispatched ch M (ch', min ch.pendingCnt.toNat M.length, es) := by
  have hround : ∀ s s', BurstDispatched ch M s → dispatchRound .burst mem s = some s' →
      BurstDispatched ch M s' ∧ M.length - s'.2.1 < M.length - s.2.1 := by
    rintro ⟨ch', k, es⟩ ⟨ch'', k', es'⟩ hI hs
    exact hI.round h hcb hmem hs
  have hinit : BurstDispatched ch M (ch, 0, []) :=
    ⟨by omega, (Queue.pop_zero _).symm, ⟨rfl, rfl⟩, rfl, rfl, rfl, rfl⟩
  have hlen : M.length - 0 < ch.queue.que.length + 1 := by
    rw [h.que_eq, List.length_append]
    omega
  obtain ⟨⟨ch', k, es⟩, ht, hI, hend⟩ :=
    loop_spec (BurstDispatched ch M) (fun s => M.length - s.2.1) hround hinit hlen
  refine ⟨ch', es, by rw [dispatch, hmode, ht]; rfl, ?_⟩
  obtain ⟨hk, hq, hset, hcnt, hrest⟩ := hI
  -- the loop stopped because the request is met or nothing matched is left
  obtain rfl : k = min ch.pendingCnt.toNat M.length := by
    rw [dispatchRound] at hend
    split at hend
    next =>
      split at hend
      next hdeq =>
        rw [hq] at hdeq
        have := dequeue_pop_none h hk hdeq
        omega
      next => cases hend
    next hzero =>
      have hle : ch'.pendingCnt.toNat ≤ 0 := by
        have := mt Or.inl hzero
        simpa [UInt32.lt_iff_toNat_lt] using this
      omega
  exact ⟨hk, hq, hset, hcnt, hrest⟩

/-- What overflow and dispatch do in burst mode: all but the last `water_mark`
matched superbufs are given back, then the front ones are handed out as far as
the request goes. -/
structure Served (ch : Channel) (M : List Node) (ch' : Channel) (es : List Effect) : Prop where
  setup : ch.SameSetup ch'
  queue : ch'.queue = ch.queue.pop ((M.length - ch.queue.attr.waterMark.toNat) +
    min ch.pendingCnt.toNat (min M.length ch.queue.attr.waterMark.toNat))
  pending : ch'.pendingCnt.toNat + min ch.pendingCnt.toNat
    (min M.length ch.queue.attr.waterMark.toNat) = ch.pendingCnt.toNat
  dispatched_eq : dispatched es = ((M.drop (M.length - ch.queue.attr.waterMark.toNat)).take
    ch.pendingCnt.toNat).map Node.superBuf
  returned_eq : returned es = (M.take (M.length - ch.queue.attr.waterMark.toNat)).flatMap Node.bufs
  matchedFrames_eq : matchedFrames es = []

theorem overflowAndDispatch_burst (h : Shape ch.queue M U) (hlt : M.length < 2 ^ 32)
    (hmode : ch.queue.attr.notifyMode = .burst) (hcb : ch.superBufNotifyCb = true)
    (hmem : mem.CbOk) :
    ∃ ch' es, overflowAndDispatch ch mem = some (ch', es) ∧ Served ch M ch' es := by
  set d := M.length - ch.queue.attr.waterMark.toNat with hd
  have hover : superbufBufdoneOverflow ch.queue =
      some (ch.queue.pop d, (M.take d).flatMap bufdone) := by
    rw [superbufBufdoneOverflow, if_neg (by rw [hmode]; decide), drain_eq h hlt,
      h.take_que (by omega)]
  have hpop : Shape { ch with queue := ch.queue.pop d }.queue (M.drop d) U := h.pop (by omega)
  obtain ⟨ch', es, hdis, -, hq, hset, hcnt, hsent, hret, hmf⟩ :=
    dispatch_burst hpop hmode hcb hmem
  have hleft : (M.drop d).length = min M.length ch.queue.attr.waterMark.toNat := by
    rw [List.length_drop]
    omega
  simp only [hleft] at hq hcnt hsent
  refine ⟨ch', (M.take d).flatMap bufdone ++ es, ?_, hset, ?_, hcnt, ?_, ?_, ?_⟩
  · rw [overflowAndDispatch, hover]
    simp only [Option.bind_eq_bind, Option.bind_some, hdis]
    rfl
  · rw [hq, Queue.pop_pop]
  · rw [dispatched_append, dispatched_flatMap_bufdone, List.nil_append, hsent, ← hleft,
      ← List.take_take, List.take_length]
  · rw [returned_append, returned_flatMap_bufdone, hret, List.append_nil]
  · rw [matchedFrames_append, matchedFrames_flatMap_bufdone, hmf]
    rfl

theorem requestData_burst (num : UInt32) (h : Shape ch.queue M U) (hlt : M.length < 2 ^ 32)
    (hmode : ch.queue.attr.notifyMode = .burst) :
    ∃ ch' es, requestData ch num = some (ch', es) ∧ ch.SameSetup ch' ∧
      ch'.queue = ch.queue.pop (M.length - ch.queue.attr.lookBack.toNat) ∧
      ch'.pendingCnt = num ∧
      bufEffects es = (M.take (M.length - ch.queue.attr.lookBack.toNat)).flatMap bufdone := by
  have hskip : superbufSkip ch.queue =
      some (ch.queue.pop (M.length - ch.queue.attr.lookBack.toNat),
        (M.take (M.length - ch.queue.attr.lookBack.toNat)).flatMap bufdone) := by
    rw [superbufSkip, if_neg (by rw [hmode]; decide), drain_eq h hlt, h.take_que (by omega)]
  rw [requestData, hskip]
  simp only [Option.bind_eq_bind, Option.bind_some]
  split
  · refine ⟨_, _, rfl, ⟨rfl, rfl⟩, rfl, rfl, ?_⟩
    rw [bufEffects_append, bufEffects_flatMap_bufdone]
    exact List.append_nil _
  · split
    · refine ⟨_, _, rfl, ⟨rfl, rfl⟩, rfl, rfl, ?_⟩
      rw [bufEffects_append, bufEffects_flatMap_bufdone]
      exact List.append_nil _
    · exact ⟨_, _, rfl, ⟨rfl, rfl⟩, rfl, rfl, bufEffects_flatMap_bufdone _⟩

/-- **A request in burst mode**: of the matched superbufs the last
`min(match_cnt, look_back, water_mark)` are kept, the others given back, and the
front ones of those kept are handed out. -/
theorem reqDataCb_burst (num : UInt32) (h : Shape ch.queue M U) (hM : M.length ≤ 255)
    (hmode : ch.queue.attr.notifyMode = .burst) (hcb : ch.superBufNotifyCb = true)
    (hmem : mem.CbOk) (hs : processStreamBuf ch (.reqDataCb num, mem) = some (ch', es)) :
    let keep := min M.length (min ch.queue.attr.lookBack.toNat ch.queue.attr.waterMark.toNat)
    ch.SameSetup ch' ∧
      ch'.queue = ch.queue.pop ((M.length - keep) + min num.toNat keep) ∧
      ch'.pendingCnt.toNat + min num.toNat keep = num.toNat ∧
      dispatched es = ((M.rtake keep).take num.toNat).map Node.superBuf ∧
      returned es = (M.rdrop keep).flatMap Node.bufs ∧ matchedFrames es = [] := by
  intro keep
  obtain ⟨ch₁, es₁, heq₁, hset₁, hq₁, hp₁, hes₁⟩ := requestData_burst num h (by omega) hmode
  set s := M.length - ch.queue.attr.lookBack.toNat with hsdef
  have hdis₁ : dispatched es₁ = [] := by
    rw [← dispatched_bufEffects, hes₁, dispatched_flatMap_bufdone]
  have hret₁ : returned es₁ = (M.take s).flatMap Node.bufs := by
    rw [← returned_bufEffects, hes₁, returned_flatMap_bufdone]
  have hmf₁ : matchedFrames es₁ = [] := by
    rw [← matchedFrames_bufEffects, hes₁, matchedFrames_flatMap_bufdone]
  have hpop : Shape ch₁.queue (M.drop s) U := hq₁ ▸ h.pop (by omega)
  have hattr : ch₁.queue.attr = ch.queue.attr := by rw [hq₁]; rfl
  obtain ⟨ch₂, es₂, heq₂, hserved⟩ := overflowAndDispatch_burst hpop
    (by rw [List.length_drop]; omega) (hattr ▸ hmode) (hset₁.1.trans hcb) hmem
  simp only [processStreamBuf, heq₁, heq₂, Option.bind_eq_bind, Option.bind_some,
    Option.pure_def, Option.some.injEq, Prod.mk.injEq] at hs
  obtain ⟨rfl, rfl⟩ := hs
  obtain ⟨hset₂, hq₂, hcnt₂, hdis₂, hret₂, hmf₂⟩ := hserved
  rw [hattr, hp₁, List.length_drop] at *
  set d := M.length - s - ch.queue.attr.waterMark.toNat with hddef
  have hsd : s + d = M.length - keep := by omega
  have hkeep : min (M.length - s) ch.queue.attr.waterMark.toNat = keep := by omega
  rw [hkeep] at hq₂ hcnt₂
  refine ⟨hset₁.trans hset₂, ?_, hcnt₂, ?_, ?_, ?_⟩
  · rw [hq₂, hq₁, Queue.pop_pop, ← hsd, Nat.add_assoc]
  · rw [dispatched_append, hdis₁, List.nil_append, hdis₂, List.drop_drop, hsd]
    rfl
  · rw [returned_append, hret₁, hret₂, ← List.flatMap_append, List.rdrop, ← hsd, List.take_add]
  · rw [matchedFrames_append, hmf₁, hmf₂]
    rfl

end Loops

/-! ### Matched superbufs in the order they became complete -/

section Waiting

variable {ctx : Ctx} {q q' : Queue} {i is l ls : List BufInfo} {e es : List Effect}
  {fs : List UInt32}

theorem Move.waiting (hm : Move ctx q i e l q')
    (h : q.matchedNodes.map Node.frameIdx <:+ fs) :
    q'.matchedNodes.map Node.frameIdx <:+ fs ++ matchedFrames e := by
  -- the queue keeps its order and nothing becomes complete
  have hquiet : q'.matchedNodes.map Node.frameIdx <:+ q.matchedNodes.map Node.frameIdx →
      matchedFrames e = [] → q'.matchedNodes.map Node.frameIdx <:+ fs ++ matchedFrames e := by
    intro hsuf hmf
    rw [hmf, List.append_nil]
    exact hsuf.trans h
  have hpop : (q.pop 1).matchedNodes.map Node.frameIdx <:+ q.matchedNodes.map Node.frameIdx :=
    ((List.drop_suffix 1 q.que).filter _).map _
  -- one superbuf becomes complete and is the last matched one
  have hlast : ∀ n f, q'.matchedNodes = q.matchedNodes ++ [n] → n.frameIdx = f →
      matchedFrames e = [f] → q'.matchedNodes.map Node.frameIdx <:+ fs ++ matchedFrames e := by
    rintro n f hnodes rfl hmf
    rw [hnodes, hmf, List.map_append]
    exact List.suffix_append_self_iff.mpr h
  cases hm with
  | release hque => exact hquiet hpop (by rw [bufdone_eq, matchedFrames_map_qbuf])
  | send hque _ | sendLost _ hque => exact hquiet hpop rfl
  | expect _ | mode m | lose b | discard b => exact hquiet (List.suffix_refl _) rfl
  | fill hque hidx hn hf hfill =>
    refine hquiet ?_ rfl
    simp [Queue.matchedNodes, hque, hn, hfill]
  | @complete b idx M A B n hque hidx hM hU hf _ hfill _ =>
    have hB : B.filter Node.matched = [] :=
      filter_matched_eq_nil fun u hu => hU u (by simp [hu])
    have hAB : (A ++ n :: B).filter Node.matched = [] := filter_matched_eq_nil hU
    refine hlast (n.fill idx b) b.frameIdx ?_ hf ?_
    · rw [Queue.matchedNodes, Queue.matchedNodes, hque, List.filter_append, hAB]
      simp [Queue.countMatch, hfill, hB]
    · rw [← List.singleton_append, matchedFrames_append, matchedFrames_flatMap_bufdoneNonzero]
      rfl
  | evict hque hn =>
    refine hquiet ?_ (by rw [bufdoneNonzero_eq, matchedFrames_map_qbuf])
    simp [Queue.matchedNodes, hque, hn]
  | @insert b idx M A B hque hidx _ _ _ hone =>
    have hnew : (Node.new q.numStreams idx b).matched = false := by simpa [Node.new] using hone
    refine hquiet ?_ rfl
    simp [Queue.matchedNodes, hque, hnew]
  | @single b idx hM hidx hone _ _ =>
    have hnew : (Node.new q.bundledStreams.length idx b).matched = true := by
      simpa [Node.new, Queue.numStreams] using hone
    refine hlast (Node.new q.bundledStreams.length idx b) b.frameIdx ?_ rfl rfl
    simp [Queue.matchedNodes, Queue.countMatch, Queue.numStreams, hnew]

theorem Moves.waiting (hm : Moves ctx q is es ls q')
    (h : q.matchedNodes.map Node.frameIdx <:+ fs) :
    q'.matchedNodes.map Node.frameIdx <:+ fs ++ matchedFrames es := by
  induction hm generalizing fs with
  | nil => simpa [matchedFrames] using h
  | cons hmove _ ih =>
    rw [matchedFrames_append, ← List.append_assoc]
    exact ih (hmove.waiting h)

/-- **The matched superbufs of the queue are the last ones completed**, in every
reachable state. -/
theorem waiting_of_runs {G : Channel → Cmd × Mem → Prop} {ch₀ ch : Channel}
    {inps : List (Cmd × Mem)} {os : List Effect} (h₀ : ch₀.queue.Fresh)
    (h : Runs processStreamBuf G ch₀ inps os ch) :
    ch.queue.matchedNodes.map Node.frameIdx <:+ matchedFrames os := by
  induction h with
  | nil => simp [Queue.matchedNodes, h₀.1]
  | @snoc _ _ ch ch' inp o hrun _ hs ih =>
    obtain ⟨M, U, hshape, hM⟩ := Channel.Good.of_runs h₀ hrun
    obtain ⟨ch₁, es₁, l, heq, -, hms, -⟩ := processStreamBuf_moves inp.1 inp.2 hshape hM
    rw [hs, Option.some.injEq, Prod.mk.injEq] at heq
    obtain ⟨rfl, rfl⟩ := heq
    rw [matchedFrames_append, ← matchedFrames_bufEffects o]
    exact hms.waiting ih

end Waiting

section Complete

variable {ch ch' : Channel} {q : Queue} {b : BufInfo} {M U : List Node} {idx : ℕ}
  {newNode : Bool} {es : List Effect}

/-- Nothing is dispatched, and at most one superbuf becomes complete and is
counted then. -/
structure Counts (q : Queue) (r : Queue × List Effect) : Prop where
  attr_eq : r.1.attr = q.attr
  dispatched_eq : dispatched r.2 = []
  matched : matchedFrames r.2 = [] ∧ r.1.matchCnt = q.matchCnt ∨
    (matchedFrames r.2).length = 1 ∧ r.1.matchCnt = q.matchCnt + 1

theorem fillFound_counts (s : Scan) (pos : ℕ) (n : Node) :
    Counts q (fillFound q idx b s pos n) := by
  simp only [fillFound]
  split
  · split
    · exact ⟨rfl, rfl, .inr ⟨rfl, rfl⟩⟩
    · refine ⟨rfl, ?_, .inr ⟨?_, rfl⟩⟩
      · rw [← List.singleton_append, dispatched_append, dispatched_flatMap_bufdoneNonzero]
        rfl
      · rw [← List.singleton_append, matchedFrames_append, matchedFrames_flatMap_bufdoneNonzero]
        rfl
  · exact ⟨rfl, rfl, .inl ⟨rfl, rfl⟩⟩

theorem insertNew_counts (pos : Option ℕ) : Counts q (insertNew q idx b pos) := by
  simp only [insertNew]
  split
  · exact ⟨rfl, rfl, .inr ⟨rfl, rfl⟩⟩
  · exact ⟨rfl, rfl, .inl ⟨rfl, rfl⟩⟩

theorem counts_returning {q₁ : Queue} {r : Queue × List Effect} (h : Counts q₁ r)
    (hattr : q₁.attr = q.attr) (hcnt : q₁.matchCnt = q.matchCnt) (n : Node) :
    Counts q (r.1, bufdoneNonzero n ++ r.2) := by
  have hdis : dispatched (bufdoneNonzero n ++ r.2) = dispatched r.2 := by
    rw [dispatched_append, bufdoneNonzero_eq, dispatched_map_qbuf, List.nil_append]
  have hmf : matchedFrames (bufdoneNonzero n ++ r.2) = matchedFrames r.2 := by
    rw [matchedFrames_append, bufdoneNonzero_eq, matchedFrames_map_qbuf, List.nil_append]
  refine ⟨h.attr_eq.trans hattr, hdis.trans h.dispatched_eq, ?_⟩
  rw [hmf, ← hcnt]
  exact h.matched

theorem enqueueLocked_counts (q : Queue) (idx : ℕ) (b : BufInfo) (newNode : Bool) :
    Counts q (enqueueLocked q idx b newNode) := by
  have hback : ∀ q' : Queue, Counts q' (q', [.qbuf b]) := fun _ => ⟨rfl, rfl, .inl ⟨rfl, rfl⟩⟩
  simp only [enqueueLocked]
  split
  next => exact fillFound_counts _ _ _
  next =>
    simp only [enqueueNew]
    split
    · split
      next => exact hback q
      next last n hlast =>
        split
        · exact counts_returning (insertNew_counts _) (by rfl) (by rfl) n
        · exact counts_returning (hback _) (by rfl) (by rfl) n
    · split
      · exact insertNew_counts _
      · exact hback q

/-- What handing a buffer to the matcher leaves alone; `es` are the effects. -/
structure Undisturbed (ch ch' : Channel) (es : List Effect) : Prop where
  pendingCnt : ch'.pendingCnt = ch.pendingCnt
  attr_eq : ch'.queue.attr = ch.queue.attr
  dispatched_eq : dispatched es = []

theorem handleMetadata_undisturbed {rc : ℤ} (hs : handleMetadata ch b = some (rc, ch', es)) :
    Undisturbed ch ch' es ∧ matchedFrames es = [] ∧
      (ch.queue.matchedNodes = [] → ch'.queue.matchCnt = ch.queue.matchCnt) := by
  rw [handleMetadata_eq] at hs
  cases hact : metadataAction ch b with
  | futureFrame =>
    simp only [hact, Option.some.injEq, Prod.mk.injEq] at hs
    obtain ⟨-, rfl, rfl⟩ := hs
    refine ⟨⟨rfl, rfl, dispatched_flatMap_bufdone _⟩, matchedFrames_flatMap_bufdone _, ?_⟩
    intro hnone
    have hzero : ch.queue.que.countP (·.matched) = 0 := by
      rw [List.countP_eq_length_filter]
      exact List.length_eq_zero_iff.mpr hnone
    simp [Queue.pop, hzero]
  | _ =>
    simp only [hact, Option.some.injEq, Prod.mk.injEq] at hs
    obtain ⟨-, rfl, rfl⟩ := hs
    exact ⟨⟨rfl, rfl, rfl⟩, rfl, fun _ => rfl⟩

theorem compAndEnqueue_undisturbed {rc : ℤ}
    (hs : compAndEnqueue ch b newNode = some (rc, ch', es)) :
    Undisturbed ch ch' es ∧ (ch.queue.matchedNodes = [] → Counts ch.queue (ch'.queue, es)) := by
  rw [compAndEnqueue] at hs
  split at hs
  next =>
    simp only [Option.pure_def, Option.some.injEq, Prod.mk.injEq] at hs
    obtain ⟨-, rfl, rfl⟩ := hs
    exact ⟨⟨rfl, rfl, rfl⟩, fun _ => ⟨rfl, rfl, .inl ⟨rfl, rfl⟩⟩⟩
  next =>
    simp only [Option.bind_eq_bind, Option.bind_eq_some_iff, Prod.exists] at hs
    obtain ⟨rc₁, ch₁, es₁, hmeta, hs⟩ := hs
    obtain ⟨hsame, hmf, hcnt⟩ := handleMetadata_undisturbed hmeta
    -- whatever comes after the metadata was handled
    have hafter : ∀ q es₂, Counts ch₁.queue (q, es₂) →
        Undisturbed ch { ch₁ with queue := q } (es₁ ++ es₂) ∧
          (ch.queue.matchedNodes = [] → Counts ch.queue (q, es₁ ++ es₂)) := by
      intro q es₂ hq
      have hdis : dispatched (es₁ ++ es₂) = [] := by
        rw [dispatched_append, hsame.dispatched_eq, hq.dispatched_eq]
        rfl
      have hattr : q.attr = ch.queue.attr := hq.attr_eq.trans hsame.attr_eq
      refine ⟨⟨hsame.pendingCnt, hattr, hdis⟩, fun hnone => ⟨hattr, hdis, ?_⟩⟩
      rw [matchedFrames_append, hmf, List.nil_append, ← hcnt hnone]
      exact hq.matched
    split at hs
    next =>
      simp only [Option.pure_def, Option.some.injEq, Prod.mk.injEq] at hs
      obtain ⟨-, rfl, rfl⟩ := hs
      have h := hafter ch₁.queue [] ⟨rfl, rfl, .inl ⟨rfl, rfl⟩⟩
      rwa [List.append_nil] at h
    next =>
      split at hs
      next =>
        simp only [Option.pure_def, Option.some.injEq, Prod.mk.injEq] at hs
        obtain ⟨-, rfl, rfl⟩ := hs
        exact hafter ch₁.queue [.qbuf b] ⟨rfl, rfl, .inl ⟨rfl, rfl⟩⟩
      next =>
        simp only [Option.pure_def, Option.some.injEq, Prod.mk.injEq] at hs
        obtain ⟨-, rfl, rfl⟩ := hs
        exact hafter _ _ (enqueueLocked_counts ch₁.queue _ b newNode)

/-- A buffer handed over while no matched superbuf is queued: the matched
superbufs afterwards are those it completed. -/
theorem compAndEnqueue_completes (mem : Mem) {rc : ℤ} (h : Shape ch.queue [] U)
    (hs : compAndEnqueue ch b mem.newNode = some (rc, ch', es)) :
    ∃ M' U', Shape ch'.queue M' U' ∧ M'.length ≤ 1 ∧
      M'.map Node.frameIdx = matchedFrames es := by
  obtain ⟨rc₁, ch₁, es₁, heq, -, hms⟩ := compAndEnqueue_moves b mem h
  rw [hs, Option.some.injEq, Prod.mk.injEq, Prod.mk.injEq] at heq
  obtain ⟨-, rfl, rfl⟩ := heq
  obtain ⟨M', U', hshape, hle⟩ := hms.shape h
  simp only [List.length_nil, List.length_singleton, Nat.zero_add] at hle
  have hnone : ch.queue.matchedNodes = [] := h.matchedNodes_eq
  have hsuf : M'.map Node.frameIdx <:+ matchedFrames es := by
    have hsuf₀ : ch.queue.matchedNodes.map Node.frameIdx <:+ [] := by
      rw [hnone]
      exact List.suffix_refl _
    have hwait := hms.waiting hsuf₀
    rwa [hshape.matchedNodes_eq, matchedFrames_bufEffects] at hwait
  refine ⟨M', U', hshape, hle, hsuf.eq_of_length ?_⟩
  -- `match_cnt` grew by one for each completed superbuf
  have hM' : ch'.queue.matchCnt.toNat = M'.length := by
    rw [hshape.matchCnt_eq, UInt32.toNat_ofNat', Nat.mod_eq_of_lt (by omega)]
  rw [List.length_map, ← hM']
  rcases ((compAndEnqueue_undisturbed hs).2 hnone).matched with ⟨hmf, hcnt⟩ | ⟨hmf, hcnt⟩
  all_goals
    rw [hmf, hcnt, h.matchCnt_eq]
    rfl

end Complete

/-! ### The commands after a request -/

/-- The commands between two requests, with the queue kept in burst mode and
with memory for the callback thread's commands. -/
def Serves (_ch : Channel) : Cmd × Mem → Prop
  | (.reqDataCb _, _) => False
  | (.configNotify mode, mem) => mode = .burst ∧ mem.CbOk
  | (_, mem) => mem.CbOk

/-- While a request for `n` superbufs is served: `es` are the effects since the
request, and `attr` the attributes of the queue. -/
structure Serving (attr : Attr) (n : UInt32) (es : List Effect) (ch : Channel) : Prop where
  good : ch.Good
  attr_eq : ch.queue.attr = attr
  callback : ch.superBufNotifyCb = true
  /-- a superbuf handed out is one asked for less -/
  count : (dispatched es).length + ch.pendingCnt.toNat = n.toNat
  /-- a matched superbuf does not wait while one is asked for -/
  idle : 0 < ch.pendingCnt → ch.queue.matchedNodes = []
  /-- a water mark of 0 leaves nothing to hand out -/
  starved : attr.waterMark = 0 → dispatched es = []

section Serving

variable {attr : Attr} {n : UInt32} {ch ch₁ ch' : Channel} {M U : List Node} {mem : Mem}
  {os es es₁ es₂ : List Effect}

theorem Served.length_dispatched (h : Served ch M ch' es) :
    (dispatched es).length =
      min ch.pendingCnt.toNat (min M.length ch.queue.attr.waterMark.toNat) := by
  rw [h.dispatched_eq, List.length_map, List.length_take, List.length_drop]
  omega

theorem Served.matchedNodes_eq_nil (h : Served ch M ch' es) (hshape : Shape ch.queue M U)
    (hpos : 0 < ch'.pendingCnt) : ch'.queue.matchedNodes = [] := by
  have hpos' : 0 < ch'.pendingCnt.toNat := by simpa [UInt32.lt_iff_toNat_lt] using hpos
  have hpend := h.pending
  have hall : M.length - ch.queue.attr.waterMark.toNat +
      min ch.pendingCnt.toNat (min M.length ch.queue.attr.waterMark.toNat) = M.length := by
    omega
  have hpop := hshape.pop le_rfl
  rw [List.drop_length] at hpop
  rw [h.queue, hall, hpop.matchedNodes_eq]

theorem Serving.serve (h : Serving attr n os ch) (hsame : Undisturbed ch ch₁ es₁)
    (hset : ch.SameSetup ch₁) (hshape : Shape ch₁.queue M U) (hserved : Served ch₁ M ch' es₂)
    (hgood : ch'.Good) : Serving attr n (os ++ (es₁ ++ es₂)) ch' := by
  have hsent : dispatched (os ++ (es₁ ++ es₂)) = dispatched os ++ dispatched es₂ := by
    rw [dispatched_append, dispatched_append, hsame.dispatched_eq, List.nil_append]
  have hattr : ch₁.queue.attr = attr := hsame.attr_eq.trans h.attr_eq
  refine ⟨hgood, ?_, ?_, ?_, hserved.matchedNodes_eq_nil hshape, ?_⟩
  · rw [hserved.queue]
    exact hattr
  · exact hserved.setup.1.trans (hset.1.trans h.callback)
  · have hpend := hserved.pending
    have hcount := h.count
    rw [hsent, List.length_append, hserved.length_dispatched]
    rw [hsame.pendingCnt] at hpend ⊢
    omega
  · intro hzero
    have hnone : (dispatched es₂).length = 0 := by
      rw [hserved.length_dispatched, hattr, hzero]
      simp
    rw [hsent, h.starved hzero, List.length_eq_zero_iff.mp hnone]
    rfl

/-- The superbufs a buffer completed are handed out if one is asked for and the
water mark leaves room for it. -/
theorem Served.all_dispatched (h : Served ch M ch' es) (hshape : Shape ch.queue M U)
    (hM : M.length ≤ 1) (hpos : 0 < ch.pendingCnt) (hwm : 0 < ch.queue.attr.waterMark) :
    List.Forall₂ (SuperbufOf ch.queue.bundledStreams) (M.map Node.frameIdx) (dispatched es) := by
  have hpos' : 0 < ch.pendingCnt.toNat := by simpa [UInt32.lt_iff_toNat_lt] using hpos
  have hwm' : 0 < ch.queue.attr.waterMark.toNat := by simpa [UInt8.lt_iff_toNat_lt] using hwm
  have hall : dispatched es = M.map Node.superBuf := by
    rw [h.dispatched_eq, show M.length - ch.queue.attr.waterMark.toNat = 0 by omega, List.drop_zero,
      List.take_of_length_le (by omega)]
  rw [hall, List.forall₂_map_left_iff, List.forall₂_map_right_iff, List.forall₂_same]
  intro m hm
  have hmem : m ∈ ch.queue.que := by
    rw [hshape.que_eq]
    exact List.mem_append_left _ hm
  exact (hshape.wf m hmem).superbufOf (hshape.matched m hm)

/-- **One command after a request.**  It keeps `Serving`, and while superbufs
are asked for it hands out those that become complete. -/
theorem Serving.step {inp : Cmd × Mem} (hburst : attr.notifyMode = .burst)
    (h : Serving attr n os ch) (hG : Serves ch inp)
    (hs : processStreamBuf ch inp = some (ch', es)) :
    Serving attr n (os ++ es) ch' ∧ (0 < ch.pendingCnt → 0 < attr.waterMark →
      List.Forall₂ (SuperbufOf ch.queue.bundledStreams) (matchedFrames es) (dispatched es)) := by
  obtain ⟨M, U, hshape, hM⟩ := h.good
  have hgood : ch'.Good := h.good.step hs
  have hmode : ch.queue.attr.notifyMode = .burst := h.attr_eq ▸ hburst
  obtain ⟨cmd, mem⟩ := inp
  cases cmd with
  | dataCb b =>
    simp only [processStreamBuf, Option.bind_eq_bind, Option.bind_eq_some_iff, Prod.exists,
      Option.pure_def, Option.some.injEq, Prod.mk.injEq] at hs
    obtain ⟨rc, ch₁, es₁, heq₁, ch₂, es₂, heq₂, rfl, rfl⟩ := hs
    obtain ⟨hsame, -⟩ := compAndEnqueue_undisturbed heq₁
    obtain ⟨rc', ch₁', es₁', heq₁', hset, hms⟩ := compAndEnqueue_moves b mem hshape
    rw [heq₁, Option.some.injEq, Prod.mk.injEq, Prod.mk.injEq] at heq₁'
    obtain ⟨-, rfl, rfl⟩ := heq₁'
    obtain ⟨M₁, U₁, hshape₁, hle₁⟩ := hms.shape hshape
    rw [List.length_singleton] at hle₁
    obtain ⟨ch₂', es₂', heq₂', hserved⟩ := overflowAndDispatch_burst hshape₁ (by omega)
      (hsame.attr_eq ▸ hmode) (hset.1.trans h.callback) hG
    rw [heq₂, Option.some.injEq, Prod.mk.injEq] at heq₂'
    obtain ⟨rfl, rfl⟩ := heq₂'
    refine ⟨h.serve hsame hset hshape₁ hserved hgood, ?_⟩
    intro hpos hwm
    -- nothing matched waits, so what is matched now is what the buffer completed
    obtain rfl : M = [] := hshape.matchedNodes_eq.symm.trans (h.idle hpos)
    obtain ⟨M₂, U₂, hshape₂, hle₂, hframes⟩ := compAndEnqueue_completes mem hshape heq₁
    obtain rfl : M₁ = M₂ := hshape₁.matchedNodes_eq.symm.trans hshape₂.matchedNodes_eq
    rw [matchedFrames_append, hserved.matchedFrames_eq, List.append_nil, ← hframes,
      dispatched_append, hsame.dispatched_eq, List.nil_append, ← hms.bundledStreams_eq]
    exact hserved.all_dispatched hshape₁ hle₂ (hsame.pendingCnt ▸ hpos)
      (by rwa [hsame.attr_eq, h.attr_eq])
  | reqDataCb num => exact absurd hG id
  | configNotify mode =>
    obtain ⟨rfl, hmem⟩ := hG
    have hsame : { ch with queue := { ch.queue with
        attr := { ch.queue.attr with notifyMode := .burst } } } = ch := by
      rw [← hmode]
    rw [processStreamBuf, hsame] at hs
    obtain ⟨ch₂', es₂', heq₂', hserved⟩ := overflowAndDispatch_burst hshape (by omega) hmode
      h.callback hmem
    rw [hs, Option.some.injEq, Prod.mk.injEq] at heq₂'
    obtain ⟨rfl, rfl⟩ := heq₂'
    have hsame₁ : Undisturbed ch ch [] := ⟨rfl, rfl, rfl⟩
    refine ⟨h.serve hsame₁ ⟨rfl, rfl⟩ hshape hserved hgood, ?_⟩
    intro hpos hwm
    obtain rfl : M = [] := hshape.matchedNodes_eq.symm.trans (h.idle hpos)
    rw [hserved.matchedFrames_eq, hserved.dispatched_eq, List.drop_nil, List.take_nil]
    exact .nil
  | flushQueue f =>
    simp only [processStreamBuf, superbufFlush_eq, Option.bind_eq_bind, Option.bind_some,
      Option.pure_def, Option.some.injEq, Prod.mk.injEq] at hs
    obtain ⟨rfl, rfl⟩ := hs
    have hsent : dispatched (os ++ ch.queue.que.flatMap bufdone) = dispatched os := by
      rw [dispatched_append, dispatched_flatMap_bufdone, List.append_nil]
    refine ⟨⟨hgood, h.attr_eq, h.callback, ?_, ?_, ?_⟩, ?_⟩
    · rw [hsent]
      exact h.count
    · intro _
      simp [Queue.matchedNodes, Queue.pop]
    · rw [hsent]
      exact h.starved
    · intro _ _
      rw [matchedFrames_flatMap_bufdone, dispatched_flatMap_bufdone]
      exact .nil

end Serving

/-! ### A request and what follows it -/

section Request

variable {attr : Attr} {n : UInt32} {ch ch₀ ch₁ ch₂ : Channel} {mem : Mem} {M U : List Node}
  {is is₀ : List (Cmd × Mem)} {os os₀ es : List Effect}

theorem Serving.of_request (h : Shape ch₁.queue M U) (hM : M.length ≤ 255)
    (hburst : ch₁.queue.attr.notifyMode = .burst) (hcb : ch₁.superBufNotifyCb = true)
    (hmem : mem.CbOk) (hs : processStreamBuf ch₁ (.reqDataCb n, mem) = some (ch₂, es)) :
    Serving ch₁.queue.attr n es ch₂ := by
  obtain ⟨hset, hq, hcnt, hdis, -, -⟩ := reqDataCb_burst n h hM hburst hcb hmem hs
  set keep := min M.length (min ch₁.queue.attr.lookBack.toNat ch₁.queue.attr.waterMark.toNat)
    with hkeep
  have hlen : (M.rtake keep).length = keep := by
    rw [List.rtake, List.length_drop]
    omega
  refine ⟨Channel.Good.step ⟨M, U, h, hM⟩ hs, by rw [hq]; rfl, hset.1.trans hcb, ?_, ?_, ?_⟩
  · rw [hdis, List.length_map, List.length_take, hlen]
    omega
  · intro hpos
    have hpos' : 0 < ch₂.pendingCnt.toNat := by simpa [UInt32.lt_iff_toNat_lt] using hpos
    have hall : M.length - keep + min n.toNat keep = M.length := by omega
    have hpop := h.pop le_rfl
    rw [List.drop_length] at hpop
    rw [hq, hall, hpop.matchedNodes_eq]
  · intro hzero
    have hnone : keep = 0 := by
      rw [hkeep, hzero]
      simp
    rw [hdis, hnone, List.rtake_zero, List.take_nil]
    rfl

theorem Serving.of_runs (hburst : attr.notifyMode = .burst) (h : Serving attr n es ch₂)
    (hrun : Runs processStreamBuf Serves ch₂ is os ch) : Serving attr n (es ++ os) ch := by
  refine hrun.inv (fun _ os ch => Serving attr n (es ++ os) ch) (by simpa using h) ?_
  intro _ os ch inp ch' o hserv hG hs
  rw [← List.append_assoc]
  exact (hserv.step hburst hG hs).1

/-- **Requests in burst mode.**  After any run, a request for `n` superbufs
keeps the `min(match_cnt, look_back, water_mark)` matched superbufs completed
last and hands out the oldest of them; from then until the next request the
number handed out is `n - pending_cnt`; and a superbuf that becomes complete
while some are asked for is handed out, if the water mark is not 0.  With a
water mark of 0 nothing is. -/
theorem burst_request (h₀ : ch₀.queue.Fresh)
    (hrun₀ : Runs processStreamBuf (fun _ _ => True) ch₀ is₀ os₀ ch₁)
    (hburst : ch₁.queue.attr.notifyMode = .burst) (hcb : ch₁.superBufNotifyCb = true)
    (hmem : mem.CbOk) (hreq : processStreamBuf ch₁ (.reqDataCb n, mem) = some (ch₂, es))
    (hrun : Runs processStreamBuf Serves ch₂ is os ch) :
    let M := ch₁.queue.matchedNodes
    let keep := min ch₁.queue.matchCnt.toNat
      (min ch₁.queue.attr.lookBack.toNat ch₁.queue.attr.waterMark.toNat)
    M.map Node.frameIdx <:+ matchedFrames os₀ ∧
    (returned es = (M.rdrop keep).flatMap Node.bufs ∧
      dispatched es = ((M.rtake keep).take n.toNat).map Node.superBuf ∧
      ch₂.queue.matchedNodes = (M.rtake keep).drop n.toNat) ∧
    ((dispatched (es ++ os)).length = n.toNat - ch.pendingCnt.toNat ∧ ch.pendingCnt ≤ n) ∧
    (0 < ch₁.queue.attr.waterMark → ∀ inp ch' es', Serves ch inp →
      processStreamBuf ch inp = some (ch', es') → 0 < ch.pendingCnt →
      List.Forall₂ (SuperbufOf ch.queue.bundledStreams) (matchedFrames es') (dispatched es')) ∧
    (ch₁.queue.attr.waterMark = 0 → dispatched (es ++ os) = []) := by
  intro M keep
  obtain ⟨M', U, hshape, hM⟩ := Channel.Good.of_runs h₀ hrun₀
  have hnodes : M = M' := hshape.matchedNodes_eq
  have hcnt : ch₁.queue.matchCnt.toNat = M'.length := by
    rw [hshape.matchCnt_eq, UInt32.toNat_ofNat', Nat.mod_eq_of_lt (by omega)]
  obtain ⟨-, hq, -, hdis, hret, -⟩ := reqDataCb_burst n hshape hM hburst hcb hmem hreq
  rw [← hcnt] at hq hdis hret
  have hserving := (Serving.of_request hshape hM hburst hcb hmem hreq).of_runs hburst hrun
  refine ⟨waiting_of_runs h₀ hrun₀, ⟨?_, ?_, ?_⟩, ⟨?_, ?_⟩, ?_, hserving.starved⟩
  · rw [hnodes]
    exact hret
  · rw [hnodes]
    exact hdis
  · have hle : ch₁.queue.matchCnt.toNat - keep + min n.toNat keep ≤ M'.length := by omega
    rw [hq, (hshape.pop hle).matchedNodes_eq, hnodes, List.rtake, List.drop_drop, ← hcnt]
    rcases Nat.le_total n.toNat keep with hn | hn
    · rw [Nat.min_eq_left hn]
    · rw [Nat.min_eq_right hn, List.drop_of_length_le (by omega), List.drop_of_length_le (by omega)]
  · have hcount := hserving.count
    omega
  · have hcount := hserving.count
    rw [UInt32.le_iff_toNat_le]
    omega
  · intro hwm inp ch' es' hG hs hpos
    exact (hserving.step hburst hG hs).2 hpos hwm

end Request

/-! ### The attributes of the ZSL channel -/

/-- A setting of the application, or a default if it is negative. -/
def orDefault (setting default : ℤ) : ℤ := if setting < 0 then default else setting

def getZSLBurstInterval (setting : ℤ) : ℤ := orDefault setting 1

def getZSLQueueDepth (setting : ℤ) : ℤ := orDefault setting 2

def getZSLBackLookCount (setting : ℤ) : ℤ := orDefault setting 2

/-- What `addZSLChannel` asks for, from the settings of the application; the
attributes are bytes and take what fits of the numbers. -/
def zslAttr (burstInterval queueDepth lookBack maxUnmatched : ℤ) : Attr where
  notifyMode := .burst
  waterMark := UInt8.ofInt (getZSLQueueDepth queueDepth)
  lookBack := UInt8.ofInt (getZSLBackLookCount lookBack)
  postFrameSkip := UInt8.ofInt (getZSLBurstInterval burstInterval)
  maxUnmatchedFrames := UInt8.ofInt maxUnmatched

theorem Mem.cbOk_ample : Mem.ample.CbOk := ⟨fun _ => rfl, fun _ => rfl⟩

/-- `sampleChannel` after it was asked for one superbuf and got the preview
buffer of frame 7. -/
def askedChannel (waterMark : UInt8) : Channel :=
  { sampleChannel with
    queue := { sampleChannel.queue with
      que := [Node.new 2 0 (sampleBuf 1 7)], size := 1, attr := ⟨.burst, waterMark, 2, 1, 3⟩ }
    pendingCnt := 1 }

theorem burst_request_one : ∃ ch' es',
    processStreamBuf (askedChannel 2) (.dataCb (sampleBuf 2 7), .ample) = some (ch', es') ∧
    matchedFrames es' = [7] ∧ dispatched es' = [[some (sampleBuf 1 7), some (sampleBuf 2 7)]] ∧
    List.Forall₂ (SuperbufOf [1, 2]) (matchedFrames es') (dispatched es') := by
  have hreq : processStreamBuf sampleChannel (.reqDataCb 1, .ample) =
      some ({ sampleChannel with pendingCnt := 1 }, []) := rfl
  have hrun : Runs processStreamBuf Serves { sampleChannel with pendingCnt := 1 }
      [(.dataCb (sampleBuf 1 7), .ample)] [] (askedChannel 2) := .single Mem.cbOk_ample rfl
  have hfresh : sampleChannel.queue.Fresh := ⟨rfl, rfl, rfl⟩
  have hall := (burst_request hfresh .nil rfl rfl Mem.cbOk_ample hreq hrun).2.2.2.1 (by decide)
    (.dataCb (sampleBuf 2 7), .ample) _ _ Mem.cbOk_ample rfl (by decide)
  exact ⟨_, _, rfl, rfl, rfl, hall⟩

/-- With a water mark of 0 the superbuf that was asked for is complete, and both
its buffers are given back at once. -/
theorem burst_zero_water_mark : ∃ ch₀ ch₂ ch' : Channel, ∃ es',
    ch₀.queue.Fresh ∧ ch₀.queue.attr = zslAttr 1 0 2 3 ∧ ch₀.superBufNotifyCb = true ∧
    processStreamBuf ch₀ (.reqDataCb 1, .ample) = some (ch₂, []) ∧
    Runs processStreamBuf Serves ch₂ [(.dataCb (sampleBuf 1 7), .ample)] [] (askedChannel 0) ∧
    Serves (askedChannel 0) (.dataCb (sampleBuf 2 7), .ample) ∧
    processStreamBuf (askedChannel 0) (.dataCb (sampleBuf 2 7), .ample) = some (ch', es') ∧
    0 < (askedChannel 0).pendingCnt ∧ matchedFrames es' = [7] ∧ dispatched es' = [] ∧
    returned es' = [sampleBuf 1 7, sampleBuf 2 7] :=
  ⟨{ sampleChannel with queue := { sampleChannel.queue with attr := ⟨.burst, 0, 2, 1, 3⟩ } },
    { sampleChannel with
      queue := { sampleChannel.queue with attr := ⟨.burst, 0, 2, 1, 3⟩ }, pendingCnt := 1 },
    _, _, ⟨rfl, rfl, rfl⟩, rfl, rfl, rfl, .single Mem.cbOk_ample rfl, Mem.cbOk_ample, rfl,
    by decide, rfl, rfl, rfl⟩

end Superbuf

/-
How many unmatched superbufs a channel keeps, `mm_camera_channel.c`.

A buffer of a frame that no unmatched superbuf waits for starts a new one.  If
there are more than `max_unmatched_frames` of them already, the oldest one is
given back first, or the buffer itself if it is older than all of them.

* `enqueueLocked_bounded` — matching one buffer keeps at most
  `max_unmatched_frames + 1` unmatched superbufs;
* `unmatched_bounded` — the bound and what is given back, in every state the
  command thread can reach.

The count is a `uint8_t`, so that it never exceeds a bound of 255; that the bound
holds then as well is due to the number of buffers.
-/
import HdxCommon.SuperbufConservation

namespace Superbuf

/-! ### Counting unmatched superbufs -/

section Count

variable {q : Queue} {M U A B : List Node} {n : Node} {b : BufInfo} {idx : ℕ} {s : Scan}

theorem take_append_drop_sublist (L : List Node) {i j : ℕ} (hij : i ≤ j) :
    (L.take i ++ L.drop j).Sublist L := by
  have hsub := (@List.take_sublist_take_left _ L _ _ hij).append (List.Sublist.refl (L.drop j))
  rwa [List.take_append_drop] at hsub

theorem insertNew_que_perm (q : Queue) (idx : ℕ) (b : BufInfo) {pos : Option ℕ}
    (hpos : ∀ p ∈ pos, p ≤ q.que.length) :
    (insertNew q idx b pos).1.que.Perm (Node.new q.numStreams idx b :: q.que) := by
  have hle : pos.getD q.que.length ≤ q.que.length := by
    cases pos with
    | none => exact le_rfl
    | some p => exact hpos p rfl
  have hperm := List.perm_insertIdx (Node.new q.numStreams idx b) q.que hle
  rw [insertNew]
  split_ifs
  · exact hperm
  · exact hperm

theorem insertNew_unmatched_perm (hmany : q.numStreams ≠ 1) {pos : Option ℕ}
    (hpos : ∀ p ∈ pos, p ≤ q.que.length) :
    (insertNew q idx b pos).1.unmatched.Perm (Node.new q.numStreams idx b :: q.unmatched) := by
  have hperm := (insertNew_que_perm q idx b hpos).filter fun n => !n.matched
  rwa [List.filter_cons_of_pos (by simp [Node.new, hmany])] at hperm

theorem insertNew_unmatched_le {pos : Option ℕ} (hpos : ∀ p ∈ pos, p ≤ q.que.length) :
    (insertNew q idx b pos).1.unmatched.length ≤ q.unmatched.length + 1 := by
  have hperm := (insertNew_que_perm q idx b hpos).filter fun n => !n.matched
  have hlen : (insertNew q idx b pos).1.unmatched.length = _ := hperm.length_eq
  rw [hlen, List.filter_cons]
  split_ifs
  · exact le_rfl
  · exact Nat.le_succ _

theorem fillFound_unmatched_le (h : Shape q M (A ++ n :: B))
    (hs : s.lastBuf = A.head?.map fun a => (M.length, a)) :
    (fillFound q idx b s (M.length + A.length) n).1.unmatched.length ≤ q.unmatched.length := by
  have hset : q.que.set (M.length + A.length) (n.fill idx b) = M ++ (A ++ n.fill idx b :: B) := by
    rw [h.que_eq, List.set_append_right _ _ (by omega), Nat.add_sub_cancel_left,
      List.set_append_right _ _ le_rfl, Nat.sub_self, List.set_cons_zero]
  have hsub : (fillFound q idx b s (M.length + A.length) n).1.que.Sublist
      (M ++ (A ++ n.fill idx b :: B)) := by
    rw [← hset, fillFound]
    cases A with
    | nil =>
      rw [hs]
      split_ifs <;> exact List.Sublist.refl _
    | cons a A =>
      rw [hs]
      split_ifs
      · -- the older ones are gone
        exact take_append_drop_sublist _ (Nat.le_add_right _ _)
      · exact List.Sublist.refl _
  have hle := (hsub.filter fun n => !n.matched).length_le
  rw [List.filter_append, filter_unmatched_eq_nil h.matched, List.nil_append] at hle
  rw [h.unmatched_eq]
  refine le_trans hle (le_trans (List.length_filter_le _ _) ?_)
  rw [List.length_append, List.length_append, List.length_cons, List.length_cons]

/-- A queue that is not crowded has room for one more, unless the bound is the
largest that the counter can hold. -/
theorem lt_of_not_crowded (hmax : q.attr.maxUnmatchedFrames ≠ 255) (hc : ¬ q.Crowded)
    (hbound : q.unmatched.length ≤ q.attr.maxUnmatchedFrames.toNat + 1) :
    q.unmatched.length ≤ q.attr.maxUnmatchedFrames.toNat := by
  have hlt := q.attr.maxUnmatchedFrames.toNat_lt
  have hne : q.attr.maxUnmatchedFrames.toNat ≠ 255 := fun h => hmax (UInt8.toNat_inj.mp h)
  rw [Queue.Crowded, UInt8.lt_iff_toNat_lt, UInt8.toNat_ofNat', Nat.mod_eq_of_lt (by omega)] at hc
  omega

theorem crowded_of_lt (hmax : q.attr.maxUnmatchedFrames ≠ 255)
    (hbound : q.unmatched.length ≤ q.attr.maxUnmatchedFrames.toNat + 1)
    (hfull : q.attr.maxUnmatchedFrames.toNat < q.unmatched.length) : q.Crowded := by
  by_contra hc
  exact absurd (lt_of_not_crowded hmax hc hbound) (by omega)

end Count

section Match

variable {q : Queue} {M U A B : List Node} {n : Node} {b : BufInfo} {idx : ℕ} {newNode : Bool}

/-- What matching does if no unmatched superbuf of the frame is queued: the ones
that are older and the ones that are newer decide. -/
theorem enqueueLocked_new (h : Shape q M (A ++ B)) (hA : ∀ a ∈ A, a.frameIdx < b.frameIdx)
    (hB : ∀ c ∈ B, b.frameIdx < c.frameIdx) :
    enqueueLocked q idx b newNode = enqueueNew q idx b
      ⟨none, UInt8.ofNat (A.length + B.length), A.head?.map fun a => (M.length, a),
        B.head?.map fun c => (M.length + A.length, c)⟩ newNode := by
  have hAU : ∀ a ∈ A, a.matched = false ∧ a.frameIdx < b.frameIdx := fun a ha =>
    ⟨h.unmatched a (List.mem_append_left B ha), hA a ha⟩
  have hBU : ∀ c ∈ B, c.matched = false ∧ b.frameIdx < c.frameIdx := fun c hc =>
    ⟨h.unmatched c (List.mem_append_right A hc), hB c hc⟩
  rw [enqueueLocked, h.que_eq, scan_not_found h.matched hAU hBU]

theorem insert_pos_le (hque : q.que = M ++ (A ++ B)) :
    ∀ p ∈ B.head?.map fun _ => M.length + A.length, p ≤ q.que.length := by
  intro p hp
  obtain ⟨c, -, rfl⟩ := Option.map_eq_some_iff.mp hp
  rw [hque, List.length_append, List.length_append]
  omega

theorem crowded_iff (h : Shape q M (A ++ B)) :
    q.attr.maxUnmatchedFrames < UInt8.ofNat (A.length + B.length) ↔ q.Crowded := by
  rw [Queue.Crowded, h.unmatched_eq, List.length_append]

theorem enqueueLocked_evicts {a : Node} (h : Shape q M (a :: A ++ B))
    (hA : ∀ x ∈ a :: A, x.frameIdx < b.frameIdx) (hB : ∀ c ∈ B, b.frameIdx < c.frameIdx)
    (hc : q.Crowded) :
    ∃ es, (enqueueLocked q idx b newNode).2 = bufdoneNonzero a ++ es ∧
      ((enqueueLocked q idx b newNode).1.unmatched = A ++ B ∨
        (enqueueLocked q idx b newNode).1.unmatched.Perm
          (Node.new q.numStreams idx b :: (A ++ B))) := by
  have hque : q.que.eraseIdx M.length = M ++ (A ++ B) := by
    rw [h.que_eq, List.eraseIdx_append_of_length_le le_rfl, Nat.sub_self]
    rfl
  set q₁ : Queue := { q with que := q.que.eraseIdx M.length, size := q.size - 1 } with hq₁
  have hun : q₁.unmatched = A ++ B :=
    unmatched_of_que_eq hque h.matched fun u hu => h.unmatched u (List.mem_cons_of_mem a hu)
  have hmany : q.numStreams ≠ 1 := fun hone => absurd (h.single hone) (List.cons_ne_nil _ _)
  have hpos : ((B.head?.map fun c => (M.length + (a :: A).length, c)).map
      fun p : ℕ × Node => if M.length < p.1 then p.1 - 1 else p.1) =
        B.head?.map fun _ => M.length + A.length := by
    rw [Option.map_map]
    congr 1
    funext c
    show (if M.length < M.length + (A.length + 1) then M.length + (A.length + 1) - 1 else _) = _
    rw [if_pos (by omega)]
    omega
  rw [enqueueLocked_new h hA hB, enqueueNew, if_pos ((crowded_iff h).mpr hc)]
  simp only [List.head?_cons, Option.map_some, hpos, ← hq₁]
  cases newNode with
  | false => exact ⟨[.qbuf b], rfl, Or.inl hun⟩
  | true =>
    have hperm := @insertNew_unmatched_perm q₁ b idx hmany _ (insert_pos_le hque)
    rw [hun] at hperm
    exact ⟨_, rfl, Or.inr hperm⟩

/-- **The bound of one buffer.**  Matching it keeps at most
`max_unmatched_frames + 1` unmatched superbufs. -/
theorem enqueueLocked_bounded (h : Shape q M U) (hmax : q.attr.maxUnmatchedFrames ≠ 255)
    (hbound : q.unmatched.length ≤ q.attr.maxUnmatchedFrames.toNat + 1) :
    (enqueueLocked q idx b newNode).1.unmatched.length ≤
      q.attr.maxUnmatchedFrames.toNat + 1 := by
  obtain ⟨A, B, rfl, hA, hB⟩ := exists_split_at_frame b.frameIdx h.sorted
  rcases hB with hB | ⟨n, B, rfl, hn, hB⟩
  · by_cases hc : q.Crowded
    · cases A with
      | nil =>
        rw [enqueueLocked_new h hA hB, enqueueNew, if_pos ((crowded_iff h).mpr hc)]
        exact hbound
      | cons a A =>
        obtain ⟨es, -, hun | hun⟩ := @enqueueLocked_evicts q M A B b idx newNode a h hA hB hc
        · rw [h.unmatched_eq] at hbound
          rw [hun]
          exact le_trans (Nat.le_succ _) hbound
        · rw [h.unmatched_eq] at hbound
          rw [hun.length_eq]
          exact hbound
    · -- there is room
      have hroom := lt_of_not_crowded hmax hc hbound
      rw [enqueueLocked_new h hA hB, enqueueNew, if_neg (mt (crowded_iff h).mp hc)]
      split_ifs
      · have hle := @insertNew_unmatched_le q b idx _ (insert_pos_le h.que_eq)
        rw [Option.map_map]
        exact le_trans hle (by omega)
      · exact hbound
  · -- the buffer goes to a superbuf that is queued
    obtain ⟨hfound, hlast⟩ := scan_found (B := B) h.matched
      (fun a ha => ⟨h.unmatched a (List.mem_append_left _ ha), hA a ha⟩)
      (h.unmatched n (by simp)) hn.symm
    rw [enqueueLocked]
    simp only [h.que_eq, hfound]
    exact le_trans (fillFound_unmatched_le h hlast) hbound

/-- What makes room when there are too many unmatched superbufs `U`: the buffer
goes back if it is older than all of them, else all buffers of the oldest do, and
the others stay. -/
inductive Relieved (U : List Node) (b : BufInfo) (es : List Effect) (U' : List Node) : Prop
  | incoming (hold : ∀ n ∈ U, b.frameIdx < n.frameIdx) (hback : [.qbuf b] <:+: es)
      (hkept : U' = U)
  | oldest (n : Node) (hmem : n ∈ U) (hsmallest : ∀ m ∈ U, m ≠ n → n.frameIdx < m.frameIdx)
      (hold : n.frameIdx < b.frameIdx) (hback : n.bufs.map .qbuf <:+: es)
      (hkept : ∀ m ∈ U, m ≠ n → m ∈ U') (hgone : ∀ m ∈ U', n.frameIdx < m.frameIdx)

theorem Node.Wf.bufdoneNonzero_eq {ids : List UInt32} (h : n.Wf ids) (hn : n.frameIdx ≠ 0) :
    bufdoneNonzero n = n.bufs.map .qbuf := by
  have hzero := h.zeroBufs_eq_nil_iff.mpr hn
  rw [Node.zeroBufs, List.filter_eq_nil_iff] at hzero
  rw [Superbuf.bufdoneNonzero_eq, List.filter_eq_self.mpr]
  simpa using hzero

theorem enqueueLocked_relieved (h : Shape q M U) (hc : q.Crowded)
    (hnone : q.ofFrame b.frameIdx = none) (hzero : ¬ FrameZeroQueued q) :
    Relieved U b (enqueueLocked q idx b newNode).2 (enqueueLocked q idx b newNode).1.unmatched := by
  obtain ⟨A, B, rfl, hA, hB⟩ := exists_split_at_frame b.frameIdx h.sorted
  rcases hB with hB | ⟨n, B, rfl, hn, hB⟩
  swap
  · exact absurd (h.ofFrame_found hA hn) (by rw [hnone]; simp)
  cases A with
  | nil =>
    rw [enqueueLocked_new h hA hB, enqueueNew, if_pos ((crowded_iff h).mpr hc)]
    exact .incoming hB (List.infix_refl _) h.unmatched_eq
  | cons a A =>
    obtain ⟨es, heff, hun⟩ := @enqueueLocked_evicts q M A B b idx newNode a h hA hB hc
    have hamem : a ∈ q.que := by simp [h.que_eq]
    have ha : a.frameIdx ≠ 0 := fun hz => hzero ⟨a, hamem, h.unmatched a (by simp), hz⟩
    have hrest : ∀ m ∈ A ++ B, a.frameIdx < m.frameIdx := (List.pairwise_cons.mp h.sorted).1
    have hother : ∀ m ∈ a :: A ++ B, m ≠ a → m ∈ A ++ B := fun m hm hne =>
      (List.mem_cons.mp hm).resolve_left hne
    refine .oldest a (by simp) (fun m hm hne => hrest m (hother m hm hne)) (hA a (by simp)) ?_ ?_ ?_
    · rw [heff, (h.wf a hamem).bufdoneNonzero_eq ha]
      exact (List.prefix_append _ _).isInfix
    · intro m hm hne
      obtain hun | hun := hun
      · rw [hun]
        exact hother m hm hne
      · exact hun.mem_iff.mpr (List.mem_cons_of_mem _ (hother m hm hne))
    · intro m hm
      obtain hun | hun := hun
      · rw [hun] at hm
        exact hrest m hm
      · obtain rfl | hm := List.mem_cons.mp (hun.mem_iff.mp hm)
        · exact hA a (by simp)
        · exact hrest m hm

end Match

section Commands

variable {ch ch' : Channel} {M U : List Node} {b : BufInfo} {mem : Mem} {es : List Effect}

theorem overflowAndDispatch_unmatched (h : Shape ch.queue M U) (hM : M.length < 2 ^ 32)
    (hs : overflowAndDispatch ch mem = some (ch', es)) :
    ch'.queue.unmatched = ch.queue.unmatched := by
  obtain ⟨k, hk, ch₁, es₁, l, heq, hq, -⟩ := overflowAndDispatch_moves
    (id : (cmdCtx ch (.configNotify .burst) mem).ample → mem.AllOk) h hM
  rw [hs, Option.some.injEq, Prod.mk.injEq] at heq
  rw [heq.1, hq, (h.pop hk).unmatched_eq, h.unmatched_eq]

theorem requestData_unmatched {num : UInt32} (h : Shape ch.queue M U) (hM : M.length < 2 ^ 32)
    (hs : requestData ch num = some (ch', es)) :
    ch'.queue.unmatched = ch.queue.unmatched := by
  obtain ⟨k, hk, es₁, heq, -⟩ := superbufSkip_moves (cmdCtx ch (.reqDataCb num) .ample) h hM
  have hun : (ch.queue.pop k).unmatched = ch.queue.unmatched := by
    rw [(h.pop hk).unmatched_eq, h.unmatched_eq]
  rw [requestData, heq] at hs
  simp only [Option.bind_eq_bind, Option.bind_some] at hs
  split_ifs at hs
  all_goals
    cases hs
    exact hun

theorem afterMetadata_que_kept (hkept : metadataAction ch b ≠ .futureFrame) :
    (afterMetadata ch b).que = ch.queue.que := by
  rw [afterMetadata]
  split
  next hact => exact absurd hact hkept
  next => rfl
  next => rfl

theorem afterMetadata_que_emptied (hfuture : metadataAction ch b = .futureFrame) :
    (afterMetadata ch b).que = [] := by
  rw [afterMetadata, hfuture]
  exact List.drop_length

theorem afterMetadata_attr (ch : Channel) (b : BufInfo) :
    (afterMetadata ch b).attr = ch.queue.attr := by
  rw [afterMetadata]
  split <;> rfl

theorem afterMetadata_unmatched_le (ch : Channel) (b : BufInfo) :
    (afterMetadata ch b).unmatched.length ≤ ch.queue.unmatched.length := by
  rw [Queue.unmatched]
  by_cases hact : metadataAction ch b = .futureFrame
  · rw [afterMetadata_que_emptied hact]
    exact Nat.zero_le _
  · rw [afterMetadata_que_kept hact]
    exact le_rfl

/-- **The bound of one command**: it keeps at most `max_unmatched_frames + 1`
unmatched superbufs. -/
theorem compAndEnqueue_bounded {rc : ℤ} {newNode : Bool} (h : Shape ch.queue M U)
    (hmax : ch.queue.attr.maxUnmatchedFrames ≠ 255)
    (hbound : ch.queue.unmatched.length ≤ ch.queue.attr.maxUnmatchedFrames.toNat + 1)
    (hs : compAndEnqueue ch b newNode = some (rc, ch', es)) :
    ch'.queue.unmatched.length ≤ ch.queue.attr.maxUnmatchedFrames.toNat + 1 := by
  by_cases hr : b.streamId ∉ ch.queue.bundledStreams ∨ metadataAction ch b = .reject
  · rw [compAndEnqueue_refused _ hr, Option.some.injEq, Prod.mk.injEq, Prod.mk.injEq] at hs
    rwa [← hs.2.1]
  · rw [not_or, not_not] at hr
    obtain ⟨ch₁, es₁, hq, -, hms, heq⟩ := compAndEnqueue_accepted .ample newNode hr.1 hr.2
    obtain ⟨M', U', hshape, -⟩ := hms.shape h
    have hle := afterMetadata_unmatched_le ch b
    rw [heq] at hs
    split_ifs at hs
    · obtain ⟨-, rfl, -⟩ := Option.some.inj hs
      rw [hq]
      omega
    · obtain ⟨-, rfl, -⟩ := Option.some.inj hs
      rw [← afterMetadata_attr ch b] at hmax hbound ⊢
      exact enqueueLocked_bounded hshape hmax (by omega)

/-- At most `max_unmatched_frames + 1` unmatched superbufs are queued. -/
def Channel.Bounded (ch : Channel) : Prop :=
  ch.queue.unmatched.length ≤ ch.queue.attr.maxUnmatchedFrames.toNat + 1

theorem Channel.Bounded.step {inp : Cmd × Mem} (h : ch.Bounded) (hgood : ch.Good)
    (hmax : ch.queue.attr.maxUnmatchedFrames ≠ 255)
    (hs : processStreamBuf ch inp = some (ch', es)) :
    ch'.queue.attr.maxUnmatchedFrames = ch.queue.attr.maxUnmatchedFrames ∧ ch'.Bounded := by
  obtain ⟨cmd, mem⟩ := inp
  obtain ⟨M, U, hshape, hM⟩ := hgood
  obtain ⟨ch₂, es₂, l, heq, -, hms, -⟩ := processStreamBuf_moves cmd mem hshape hM
  have hattr : ch'.queue.attr.maxUnmatchedFrames = ch.queue.attr.maxUnmatchedFrames := by
    rw [hs, Option.some.injEq, Prod.mk.injEq] at heq
    rw [heq.1]
    exact hms.maxUnmatchedFrames_eq
  refine ⟨hattr, ?_⟩
  rw [Channel.Bounded, hattr]
  cases cmd with
  | dataCb b =>
    simp only [processStreamBuf, Option.bind_eq_bind, Option.bind_eq_some_iff, Prod.exists] at hs
    obtain ⟨rc, ch₁, es₁, hcomp, ch₃, es₃, hover, hs⟩ := hs
    cases hs
    obtain ⟨rc', ch₁', es₁', hcomp', -, hms₁⟩ := compAndEnqueue_moves b mem hshape
    rw [hcomp, Option.some.injEq, Prod.mk.injEq, Prod.mk.injEq] at hcomp'
    obtain ⟨-, rfl, -⟩ := hcomp'
    obtain ⟨M₁, U₁, hshape₁, hle⟩ := hms₁.shape hshape
    rw [overflowAndDispatch_unmatched hshape₁ (by simp at hle; omega) hover]
    exact compAndEnqueue_bounded hshape hmax h hcomp
  | reqDataCb num =>
    simp only [processStreamBuf, Option.bind_eq_bind, Option.bind_eq_some_iff, Prod.exists] at hs
    obtain ⟨ch₁, es₁, hreq, ch₃, es₃, hover, hs⟩ := hs
    cases hs
    obtain ⟨ch₁', es₁', hreq', -, hms₁⟩ :=
      requestData_moves (cmdCtx ch (.reqDataCb num) mem) num hshape hM
    rw [hreq, Option.some.injEq, Prod.mk.injEq] at hreq'
    obtain ⟨rfl, -⟩ := hreq'
    obtain ⟨M₁, U₁, hshape₁, hle⟩ := hms₁.shape hshape
    rw [overflowAndDispatch_unmatched hshape₁ (by simp at hle; omega) hover,
      requestData_unmatched hshape (by omega) hreq]
    exact h
  | configNotify mode =>
    have hmove : Move (cmdCtx ch (.configNotify mode) mem) ch.queue [] [] []
        { ch.queue with attr := { ch.queue.attr with notifyMode := mode } } := .mode mode
    obtain ⟨M₁, U₁, hshape₁, hle⟩ := hmove.shape hshape
    have hshape₁' : Shape { ch with
        queue := { ch.queue with attr := { ch.queue.attr with notifyMode := mode } } }.queue
        M₁ U₁ := hshape₁
    rw [overflowAndDispatch_unmatched hshape₁' (by simp at hle; omega) hs]
    exact h
  | flushQueue f =>
    simp only [processStreamBuf, superbufFlush_eq, Option.bind_eq_bind, Option.bind_some] at hs
    cases hs
    have hnil :
        ({ ch.queue with expectedFrameId := f }.pop ch.queue.que.length).unmatched = [] := by
      rw [Queue.unmatched]
      show (ch.queue.que.drop ch.queue.que.length).filter _ = []
      rw [List.drop_length, List.filter_nil]
    show ({ ch.queue with expectedFrameId := f }.pop ch.queue.que.length).unmatched.length ≤ _
    rw [hnil]
    exact Nat.zero_le _

/-- The next buffer would start a superbuf, and there are more than
`max_unmatched_frames` unmatched ones: it is of a bundled stream, its metadata
are accepted and do not empty the queue, it is not too old, and no unmatched
superbuf waits for its frame. -/
structure HitsBound (ch : Channel) (b : BufInfo) : Prop where
  bundled : b.streamId ∈ ch.queue.bundledStreams
  accepted : metadataAction ch b ≠ .reject
  kept : metadataAction ch b ≠ .futureFrame
  expected : expectedFor ch b ≤ b.frameIdx
  new_frame : ch.queue.ofFrame b.frameIdx = none
  full : ch.queue.attr.maxUnmatchedFrames.toNat < ch.queue.unmatched.length

theorem Relieved.mono {U U' : List Node} {es₁ es₂ : List Effect} (h : Relieved U b es U') :
    Relieved U b (es₁ ++ es ++ es₂) U' := by
  cases h with
  | incoming hold hback hkept => exact .incoming hold (hback.trans (List.infix_append ..)) hkept
  | oldest n hmem hsmallest hold hback hkept hgone =>
    exact .oldest n hmem hsmallest hold (hback.trans (List.infix_append ..)) hkept hgone

theorem HitsBound.relieved (hhit : HitsBound ch b) (hgood : ch.Good) (hbound : ch.Bounded)
    (hmax : ch.queue.attr.maxUnmatchedFrames ≠ 255) (hzero : ¬ FrameZeroQueued ch.queue)
    (mem : Mem) :
    ∃ ch' es, processStreamBuf ch (.dataCb b, mem) = some (ch', es) ∧
      Relieved ch.queue.unmatched b es ch'.queue.unmatched := by
  obtain ⟨M, U, hshape, hM⟩ := hgood
  obtain ⟨ch₁, es₁, hq, -, hms, heq⟩ :=
    compAndEnqueue_accepted mem mem.newNode hhit.bundled hhit.accepted
  have hexp : ¬ b.frameIdx < (afterMetadata ch b).expectedFrameId := by
    rw [afterMetadata_expectedFrameId hhit.bundled]
    exact UInt32.not_lt.mpr hhit.expected
  rw [if_neg hexp] at heq
  -- the queue that the buffer is compared with holds the same superbufs
  set q := afterMetadata ch b with hqdef
  have hque : q.que = ch.queue.que := afterMetadata_que_kept hhit.kept
  have hun : q.unmatched = ch.queue.unmatched := by
    rw [Queue.unmatched, hque]
    rfl
  have hattr : q.attr = ch.queue.attr := afterMetadata_attr ch b
  obtain ⟨M₁, U₁, hshape₁, hle₁⟩ := hms.shape hshape
  have hcrowd : q.Crowded := crowded_of_lt (by rwa [hattr]) (by rwa [hun, hattr])
    (by rw [hun, hattr]; exact hhit.full)
  have hnone : q.ofFrame b.frameIdx = none := by
    rw [Queue.ofFrame, hun]
    exact hhit.new_frame
  have hzero' : ¬ FrameZeroQueued q := by
    rw [FrameZeroQueued, hque]
    exact hzero
  have hrel := @enqueueLocked_relieved q M₁ U₁ b (ch.queue.bundledStreams.idxOf b.streamId)
    mem.newNode hshape₁ hcrowd hnone hzero'
  rw [← hshape₁.unmatched_eq, hun] at hrel
  -- what follows takes matched superbufs only
  obtain ⟨rc, ch₂, es₂, hcomp, -, hms₂⟩ := compAndEnqueue_moves b mem hshape
  rw [heq, Option.some.injEq, Prod.mk.injEq, Prod.mk.injEq] at hcomp
  obtain ⟨-, rfl, rfl⟩ := hcomp
  obtain ⟨M₂, U₂, hshape₂, hle₂⟩ := hms₂.shape hshape
  obtain ⟨ch', es, l, hover, -⟩ := overflowAndDispatch_bounded (cmdCtx ch (.dataCb b) mem) id
    hshape₂ (by simp at hle₂; omega)
  refine ⟨ch', es₁ ++ (enqueueLocked q (ch.queue.bundledStreams.idxOf b.streamId) b
    mem.newNode).2 ++ es, ?_, ?_⟩
  · simp only [processStreamBuf, heq, Option.bind_eq_bind, Option.bind_some, hover]
    rfl
  · rw [overflowAndDispatch_unmatched hshape₂ (by simp at hle₂; omega) hover]
    exact hrel.mono

end Commands

/-! ### Buffers of the kernel -/

section Held

variable {ch ch' : Channel} {es : List Effect}

/-- `CAM_MAX_NUM_BUFS_PER_STREAM` and `MAX_STREAM_NUM_IN_BUNDLE`. -/
def maxNumBufsPerStream : ℕ := 24
def maxStreamNumInBundle : ℕ := 4

/-- Which buffer of which stream. -/
def BufInfo.key (b : BufInfo) : UInt32 × ℕ := (b.streamId, b.bufIdx)

/-- The buffers that a command can hand over: one of the few that a stream has,
and none that the queue holds. -/
def FromKernel (ch : Channel) (inp : Cmd × Mem) : Prop :=
  ch.queue.numStreams ≤ maxStreamNumInBundle ∧ ∀ b ∈ inp.1.taken,
    b.bufIdx < maxNumBufsPerStream ∧ b.key ∉ ch.queue.stored.map BufInfo.key

instance (ch : Channel) (inp : Cmd × Mem) : Decidable (FromKernel ch inp) :=
  inferInstanceAs (Decidable (_ ∧ _))

/-- The queue holds each buffer once. -/
structure HeldOnce (q : Queue) : Prop where
  nodup : (q.stored.map BufInfo.key).Nodup
  bufIdx_lt : ∀ b ∈ q.stored, b.bufIdx < maxNumBufsPerStream

theorem HeldOnce.step {inp : Cmd × Mem} (h : HeldOnce ch.queue) (hgood : ch.Good)
    (hkernel : FromKernel ch inp) (hs : processStreamBuf ch inp = some (ch', es)) :
    HeldOnce ch'.queue := by
  obtain ⟨M, U, hshape, hM⟩ := hgood
  obtain ⟨ch₁, es₁, l, heq, -, hms, -⟩ := processStreamBuf_moves inp.1 inp.2 hshape hM
  rw [hs, Option.some.injEq, Prod.mk.injEq] at heq
  obtain ⟨rfl, rfl⟩ := heq
  -- what is held afterwards was held or handed over
  have hsub : List.Subperm ch'.queue.stored (ch.queue.stored ++ inp.1.taken) := by
    rw [List.subperm_ext_iff]
    intro x _
    have hcount := hms.accounts hshape x
    rw [List.count_append]
    omega
  have hnodup : ((ch.queue.stored ++ inp.1.taken).map BufInfo.key).Nodup := by
    rw [List.map_append, List.nodup_append']
    refine ⟨h.nodup, ?_, ?_⟩
    · cases inp.1 with
      | dataCb b => exact List.nodup_singleton _
      | _ => exact List.nodup_nil
    · intro x hx hx'
      obtain ⟨b, hb, rfl⟩ := List.mem_map.mp hx'
      exact (hkernel.2 b hb).2 hx
  obtain ⟨stored, hperm, hsublist⟩ := hsub
  refine ⟨?_, ?_⟩
  · rw [← (hperm.map BufInfo.key).nodup_iff]
    exact hnodup.sublist (hsublist.map BufInfo.key)
  · intro b hb
    obtain hb | hb := List.mem_append.mp (hsublist.subset (hperm.mem_iff.mpr hb))
    · exact h.bufIdx_lt b hb
    · exact (hkernel.2 b hb).1

/-- Each superbuf holds a buffer, so there are no more than buffers. -/
theorem HeldOnce.length_le (h : HeldOnce ch.queue) (hgood : ch.Good) :
    ch.queue.unmatched.length ≤ ch.queue.numStreams * maxNumBufsPerStream := by
  obtain ⟨M, U, hshape, -⟩ := hgood
  have hstored : ch.queue.que.length ≤ ch.queue.stored.length := by
    rw [Queue.stored, List.length_flatMap]
    have hpos : ∀ k ∈ ch.queue.que.map fun n => n.bufs.length, 1 ≤ k := by
      intro k hk
      obtain ⟨n, hn, rfl⟩ := List.mem_map.mp hk
      exact List.length_pos_iff.mpr (hshape.wf n hn).filled
    simpa using List.length_le_sum_of_one_le _ hpos
  have hkeys : ch.queue.stored.map BufInfo.key ⊆
      ch.queue.bundledStreams ×ˢ List.range maxNumBufsPerStream := by
    intro k hk
    obtain ⟨b, hb, rfl⟩ := List.mem_map.mp hk
    obtain ⟨n, hn, hbn⟩ := List.mem_flatMap.mp hb
    obtain ⟨i, hi⟩ := List.getElem?_of_mem (mem_bufs.mp hbn)
    refine List.pair_mem_product.mpr ⟨?_, List.mem_range.mpr (h.bufIdx_lt b hb)⟩
    exact List.mem_of_getElem? ((hshape.wf n hn).slot i b hi).2
  have hle := h.nodup.length_le_of_subset hkeys
  rw [List.length_map, List.length_product, List.length_range] at hle
  have hun : ch.queue.unmatched.length ≤ ch.queue.que.length := List.length_filter_le _ _
  rw [Queue.numStreams]
  omega

end Held

/-! ### Runs -/

/-- What a bound of 255 needs: the buffers are the kernel's to hand over. -/
def KernelIfLargest (ch : Channel) (inp : Cmd × Mem) : Prop :=
  ch.queue.attr.maxUnmatchedFrames = 255 → FromKernel ch inp

instance (ch : Channel) (inp : Cmd × Mem) : Decidable (KernelIfLargest ch inp) :=
  inferInstanceAs (Decidable (_ → _))

theorem Channel.bounded_of_runs {ch₀ ch : Channel} {G : Channel → Cmd × Mem → Prop}
    {is : List (Cmd × Mem)} {os : List Effect} (h₀ : ch₀.queue.Fresh)
    (hmax : ch₀.queue.attr.maxUnmatchedFrames ≠ 255)
    (h : Runs processStreamBuf G ch₀ is os ch) :
    ch.queue.attr.maxUnmatchedFrames = ch₀.queue.attr.maxUnmatchedFrames ∧ ch.Good ∧
      ch.Bounded := by
  refine h.inv (fun _ _ ch => ch.queue.attr.maxUnmatchedFrames =
    ch₀.queue.attr.maxUnmatchedFrames ∧ ch.Good ∧ ch.Bounded) ⟨rfl, .of_fresh h₀, ?_⟩ ?_
  · rw [Channel.Bounded, (Shape.of_fresh h₀).unmatched_eq]
    exact Nat.zero_le _
  · rintro _ _ ch inp ch' _ ⟨hattr, hgood, hbound⟩ _ hs
    obtain ⟨hattr', hbound'⟩ := hbound.step hgood (by rwa [hattr]) hs
    exact ⟨hattr'.trans hattr, hgood.step hs, hbound'⟩

/-- With a bound of 255, the buffers of the streams are too few to hit it. -/
theorem Channel.held_of_runs {ch₀ ch : Channel} {is : List (Cmd × Mem)} {os : List Effect}
    (h₀ : ch₀.queue.Fresh) (hmax : ch₀.queue.attr.maxUnmatchedFrames = 255)
    (h : Runs processStreamBuf KernelIfLargest ch₀ is os ch) :
    ch.queue.attr.maxUnmatchedFrames = 255 ∧ ch.Good ∧ HeldOnce ch.queue ∧
      ch.queue.unmatched.length ≤ maxStreamNumInBundle * maxNumBufsPerStream := by
  refine h.inv (fun _ _ ch => ch.queue.attr.maxUnmatchedFrames = 255 ∧ ch.Good ∧
    HeldOnce ch.queue ∧ ch.queue.unmatched.length ≤ maxStreamNumInBundle * maxNumBufsPerStream)
    ⟨hmax, .of_fresh h₀, ?_, ?_⟩ ?_
  · have hnil : ch₀.queue.stored = [] := by
      rw [Queue.stored, h₀.1]
      rfl
    refine ⟨?_, ?_⟩
    · rw [hnil]
      exact List.nodup_nil
    · rw [hnil]
      exact fun b hb => absurd hb List.not_mem_nil
  · rw [(Shape.of_fresh h₀).unmatched_eq]
    exact Nat.zero_le _
  · rintro _ _ ch inp ch' _ ⟨hattr, hgood, hheld, -⟩ hG hs
    have hkernel := hG hattr
    have hheld' := hheld.step hgood hkernel hs
    obtain ⟨M, U, hshape, hM⟩ := hgood
    obtain ⟨ch₁, es₁, l, heq, -, hms, -⟩ := processStreamBuf_moves inp.1 inp.2 hshape hM
    rw [hs, Option.some.injEq, Prod.mk.injEq] at heq
    obtain ⟨rfl, rfl⟩ := heq
    have hgood' := Channel.Good.step ⟨M, U, hshape, hM⟩ hs
    refine ⟨hms.maxUnmatchedFrames_eq.trans hattr, hgood', hheld', ?_⟩
    have hnum : ch'.queue.numStreams ≤ maxStreamNumInBundle := by
      rw [Queue.numStreams, hms.bundledStreams_eq]
      exact hkernel.1
    exact le_trans (hheld'.length_le hgood') (Nat.mul_le_mul_right _ hnum)

/-- **Unmatched superbufs are bounded.**  In every state that the command thread
can reach, at most `max_unmatched_frames + 1` unmatched superbufs are queued; and
a buffer that would start one more, while none of frame 0 waits, goes back itself
if it is older than all of them, and else the buffers of the oldest one go back. -/
theorem unmatched_bounded {ch₀ ch : Channel} {is : List (Cmd × Mem)} {os : List Effect}
    (h₀ : ch₀.queue.Fresh) (h : Runs processStreamBuf KernelIfLargest ch₀ is os ch) :
    ch.queue.unmatched.length ≤ ch₀.queue.attr.maxUnmatchedFrames.toNat + 1 ∧
    ∀ b mem, HitsBound ch b → ¬ FrameZeroQueued ch.queue →
      ∃ ch' es, processStreamBuf ch (.dataCb b, mem) = some (ch', es) ∧
        Relieved ch.queue.unmatched b es ch'.queue.unmatched := by
  by_cases hmax : ch₀.queue.attr.maxUnmatchedFrames = 255
  · obtain ⟨hattr, -, -, hle⟩ := Channel.held_of_runs h₀ hmax h
    have hfew : ch.queue.unmatched.length ≤ 96 := hle
    refine ⟨?_, fun b mem hhit _ => ?_⟩
    · rw [hmax]
      show _ ≤ 255 + 1
      omega
    · -- the bound is out of reach
      have hfull := hhit.full
      rw [hattr] at hfull
      have hmany : 255 < ch.queue.unmatched.length := hfull
      omega
  · obtain ⟨hattr, hgood, hbound⟩ := Channel.bounded_of_runs h₀ hmax h
    refine ⟨hattr ▸ hbound, fun b mem hhit hzero => ?_⟩
    exact hhit.relieved hgood hbound (by rwa [hattr]) hzero mem

def previewBuf (bufIdx : ℕ) (frameIdx : UInt32) : BufInfo := ⟨1, frameIdx, bufIdx, none⟩

/-- `sampleChannel` with one unmatched superbuf for each of some preview buffers. -/
def waitingChannel (bs : List BufInfo) : Channel :=
  { sampleChannel with
    queue := { sampleChannel.queue with
      que := bs.map (Node.new 2 0), size := UInt32.ofNat bs.length } }

/-- Four unmatched superbufs are queued, as many as a bound of 3 allows, when the
buffer of a fifth frame comes. -/
theorem unmatched_bounded_sample : ∃ ch os ch' es,
    Runs processStreamBuf KernelIfLargest sampleChannel
      [(.dataCb (previewBuf 0 7), .ample), (.dataCb (previewBuf 1 5), .ample),
        (.dataCb (previewBuf 2 9), .ample), (.dataCb (previewBuf 3 11), .ample)] os ch ∧
    ch.queue.unmatched.length ≤ 4 ∧
    processStreamBuf ch (.dataCb (previewBuf 4 8), .ample) = some (ch', es) ∧
    Relieved ch.queue.unmatched (previewBuf 4 8) es ch'.queue.unmatched := by
  have hexec : exec processStreamBuf sampleChannel
      [(.dataCb (previewBuf 0 7), .ample), (.dataCb (previewBuf 1 5), .ample),
        (.dataCb (previewBuf 2 9), .ample), (.dataCb (previewBuf 3 11), .ample)] =
      some (waitingChannel [previewBuf 1 5, previewBuf 0 7, previewBuf 2 9, previewBuf 3 11],
        []) := by
    decide
  have hrun := runs_of_exec_guarded (G := KernelIfLargest) .nil hexec (by decide)
  obtain ⟨hle, hrel⟩ := unmatched_bounded ⟨rfl, rfl, rfl⟩ hrun
  obtain ⟨ch', es, hs, hrelieved⟩ := hrel (previewBuf 4 8) .ample
    ⟨by decide, by decide, by decide, by decide, by decide, by decide⟩
    (by
      rintro ⟨n, hn, -, hzero⟩
      revert n
      decide)
  exact ⟨_, _, ch', es, hrun, hle, hs, hrelieved⟩

def roomyChannel : Channel :=
  { sampleChannel with
    queue := { sampleChannel.queue with attr := ⟨.burst, 2, 2, 1, 255⟩ } }

/-- `k` unmatched superbufs are queued, for frames up to `k`. -/
structure Piled (k : ℕ) (ch : Channel) : Prop where
  good : ch.Good
  setup : roomyChannel.SameSetup ch
  bundled_eq : ch.queue.bundledStreams = [1, 2]
  max_eq : ch.queue.attr.maxUnmatchedFrames = 255
  expected_eq : ch.queue.expectedFrameId = 0
  frames_le : ∀ n ∈ ch.queue.unmatched, n.frameIdx.toNat ≤ k
  count_eq : ch.queue.unmatched.length = k

/-- The preview buffer of the next frame comes on top: the counter is at most
255, so there is always room. -/
theorem Piled.enqueue {k : ℕ} {ch : Channel} {b : BufInfo} (h : Piled k ch)
    (hb : b.frameIdx.toNat = k + 1) (idx : ℕ) :
    enqueueLocked ch.queue idx b true = insertNew ch.queue idx b none := by
  obtain ⟨M, U, hshape, hM⟩ := h.good
  have hA : ∀ a ∈ U, a.frameIdx < b.frameIdx := by
    intro a ha
    have hle := h.frames_le a (by rwa [hshape.unmatched_eq])
    rw [UInt32.lt_iff_toNat_lt]
    omega
  have hroom : ¬ ch.queue.attr.maxUnmatchedFrames < UInt8.ofNat (U.length + 0) := by
    have hlt := (UInt8.ofNat (U.length + 0)).toNat_lt
    rw [h.max_eq, UInt8.lt_iff_toNat_lt]
    show ¬ 255 < _
    omega
  rw [@enqueueLocked_new ch.queue M U [] b idx true (by rwa [List.append_nil]) hA (by simp)]
  exact if_neg hroom

theorem Piled.many {k : ℕ} {ch : Channel} (h : Piled k ch) : ch.queue.numStreams ≠ 1 := by
  rw [Queue.numStreams, h.bundled_eq]
  decide

theorem Piled.step {k : ℕ} {ch : Channel} (h : Piled k ch) (hk : k + 1 < 2 ^ 32) :
    ∃ ch' es, processStreamBuf ch (.dataCb (sampleBuf 1 (UInt32.ofNat (k + 1))), .ample) =
      some (ch', es) ∧ Piled (k + 1) ch' := by
  set b := sampleBuf 1 (UInt32.ofNat (k + 1)) with hb
  set idx := ch.queue.bundledStreams.idxOf b.streamId
  have hframe : b.frameIdx.toNat = k + 1 := by
    show (UInt32.ofNat (k + 1)).toNat = k + 1
    rw [UInt32.toNat_ofNat', Nat.mod_eq_of_lt hk]
  have hact : metadataAction ch b = .keep := by
    rw [metadataAction, h.setup.2]
    rfl
  have hafter : afterMetadata ch b = ch.queue := by
    rw [afterMetadata, hact]
  -- it is queued as a superbuf of its own
  obtain ⟨ch₁, es₁, hq, hset, -, heq⟩ := @compAndEnqueue_accepted ch b .ample true
    (by rw [h.bundled_eq]; exact List.mem_cons_self)
    (by rw [hact]; exact MetadataAction.noConfusion)
  rw [hafter, h.expected_eq, if_neg UInt32.not_lt_zero] at heq
  simp only [h.enqueue hframe] at heq
  have hperm := @insertNew_unmatched_perm ch.queue b idx h.many none (by simp)
  have hexp : (insertNew ch.queue idx b none).1.expectedFrameId = 0 := by
    rw [insertNew]
    split_ifs with hone
    · exact absurd hone h.many
    · exact h.expected_eq
  -- and what follows leaves it there
  obtain ⟨M, U, hshape, hM⟩ := h.good
  obtain ⟨rc, ch₂, es₂, hcomp, -, hms⟩ := compAndEnqueue_moves b .ample hshape
  rw [show Mem.ample.newNode = true from rfl, heq, Option.some.injEq, Prod.mk.injEq,
    Prod.mk.injEq] at hcomp
  obtain ⟨-, rfl, rfl⟩ := hcomp
  obtain ⟨M₂, U₂, hshape₂, hle⟩ := hms.shape hshape
  obtain ⟨j, hj, ch', es, l, hover, hpop, hset', -⟩ := overflowAndDispatch_moves
    (id : (cmdCtx ch (.dataCb b) .ample).ample → Mem.ample.AllOk) hshape₂ (by simp at hle; omega)
  have hun : ch'.queue.unmatched = (insertNew ch.queue idx b none).1.unmatched :=
    overflowAndDispatch_unmatched hshape₂ (by simp at hle; omega) hover
  have hstep : processStreamBuf ch (.dataCb b, .ample) =
      some (ch', (es₁ ++ (insertNew ch.queue idx b none).2) ++ es) := by
    simp only [processStreamBuf, show Mem.ample.newNode = true from rfl, heq, Option.bind_eq_bind,
      Option.bind_some, hover]
    rfl
  refine ⟨ch', _, hstep, h.good.step hstep, (h.setup.trans hset).trans hset', ?_, ?_, ?_, ?_, ?_⟩
  · rw [hpop]
    exact hms.bundledStreams_eq.trans h.bundled_eq
  · rw [hpop]
    exact hms.maxUnmatchedFrames_eq.trans h.max_eq
  · rw [hpop]
    exact hexp
  · intro n hn
    rw [hun] at hn
    obtain rfl | hn := List.mem_cons.mp (hperm.mem_iff.mp hn)
    · exact hframe.le
    · exact le_trans (h.frames_le n hn) (Nat.le_succ k)
  · rw [hun, hperm.length_eq, List.length_cons, h.count_eq]

theorem exists_piled {k : ℕ} (hk : k < 2 ^ 32) : ∃ is os ch,
    Runs processStreamBuf (fun _ _ => True) roomyChannel is os ch ∧ Piled k ch := by
  induction k with
  | zero =>
    exact ⟨[], [], roomyChannel, .nil, .of_fresh ⟨rfl, rfl, rfl⟩, ⟨rfl, rfl⟩, rfl, rfl, rfl,
      fun n hn => absurd hn List.not_mem_nil, rfl⟩
  | succ k ih =>
    obtain ⟨is, os, ch, hrun, hpiled⟩ := ih (by omega)
    obtain ⟨ch', es, hs, hpiled'⟩ := hpiled.step hk
    exact ⟨_, _, ch', hrun.snoc trivial hs, hpiled'⟩

/-- An evicted superbuf of frame 0 is not given back.  And if the same buffers
could be handed over again and again, a bound of 255 would be none. -/
theorem unmatched_unbounded :
    (sampleChannel.queue.Fresh ∧ ∃ ch os ch' es,
      Runs processStreamBuf FromKernel sampleChannel
        [(.dataCb (previewBuf 0 0), .ample), (.dataCb (previewBuf 1 5), .ample),
          (.dataCb (previewBuf 2 9), .ample), (.dataCb (previewBuf 3 11), .ample)] os ch ∧
      FromKernel ch (.dataCb (previewBuf 4 8), .ample) ∧ HitsBound ch (previewBuf 4 8) ∧
      processStreamBuf ch (.dataCb (previewBuf 4 8), .ample) = some (ch', es) ∧
      ¬ Relieved ch.queue.unmatched (previewBuf 4 8) es ch'.queue.unmatched) ∧
    roomyChannel.queue.Fresh ∧ ∃ is os ch,
      Runs processStreamBuf (fun _ _ => True) roomyChannel is os ch ∧
        ch.queue.unmatched.length = 257 := by
  constructor
  · have hexec : exec processStreamBuf sampleChannel
        [(.dataCb (previewBuf 0 0), .ample), (.dataCb (previewBuf 1 5), .ample),
          (.dataCb (previewBuf 2 9), .ample), (.dataCb (previewBuf 3 11), .ample)] =
        some (waitingChannel [previewBuf 0 0, previewBuf 1 5, previewBuf 2 9, previewBuf 3 11],
          []) := by
      decide
    have hs : processStreamBuf
        (waitingChannel [previewBuf 0 0, previewBuf 1 5, previewBuf 2 9, previewBuf 3 11])
        (.dataCb (previewBuf 4 8), .ample) =
        some (waitingChannel [previewBuf 1 5, previewBuf 4 8, previewBuf 2 9, previewBuf 3 11],
          []) := by
      decide
    refine ⟨⟨rfl, rfl, rfl⟩, _, _, _, _, runs_of_exec_guarded .nil hexec (by decide),
      by decide, ⟨by decide, by decide, by decide, by decide, by decide, by decide⟩, hs, ?_⟩
    intro hrel
    cases hrel with
    | incoming _ hback _ => exact absurd (List.infix_nil.mp hback) (List.cons_ne_nil _ _)
    | oldest n hmem _ _ hback _ _ =>
      have hnil : n.bufs = [] := List.map_eq_nil_iff.mp (List.infix_nil.mp hback)
      revert n
      decide
  · obtain ⟨is, os, ch, hrun, hpiled⟩ := @exists_piled 257 (by decide)
    exact ⟨⟨rfl, rfl, rfl⟩, is, os, ch, hrun, hpiled.count_eq⟩

end Superbuf

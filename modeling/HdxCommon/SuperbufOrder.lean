/-
The order of dispatched superbufs.

When every bundled stream delivers increasing frame numbers, the superbufs that
reach the client are complete and come in the order of their frames.  The
argument is about the history of the run: a superbuf of frame `f` is matched
only after every stream has delivered its buffer of `f`, so whatever arrives
later, of whichever stream, is of a later frame.

* `Move.history`, `Moves.history` — the history invariant;
* `superbuf_dispatch_order` — the order, for every run.
-/
import HdxCommon.SuperbufConservation

namespace Superbuf

/-! ### What a run matched and dispatched -/

/-- The frame numbers of the superbufs that became matched, in order. -/
def matchedFrames (es : List Effect) : List UInt32 :=
  es.filterMap fun e => match e with
    | .matched f => some f
    | _ => none

def dispatched (es : List Effect) : List (List (Option BufInfo)) :=
  es.filterMap fun e => match e with
    | .superbufCb bufs => some bufs
    | _ => none

/-- The slots hold one buffer for each stream of `ids`, in the stream's own
slot, all of frame `f`. -/
def SuperbufOf (ids : List UInt32) (f : UInt32) (bufs : List (Option BufInfo)) : Prop :=
  List.Forall₂ (fun id s => ∃ b, s = some b ∧ b.streamId = id ∧ b.frameIdx = f) ids bufs

/-- Each stream of `ids` delivers increasing frame numbers other than 0. -/
structure Increasing (ids : List UInt32) (bs : List BufInfo) : Prop where
  nonzero : ∀ b ∈ bs, b.streamId ∈ ids → b.frameIdx ≠ 0
  increasing : bs.Pairwise fun b c =>
    b.streamId ∈ ids → c.streamId = b.streamId → b.frameIdx < c.frameIdx

section Effects

@[simp] theorem matchedFrames_append (es es' : List Effect) :
    matchedFrames (es ++ es') = matchedFrames es ++ matchedFrames es' :=
  List.filterMap_append ..

@[simp] theorem dispatched_append (es es' : List Effect) :
    dispatched (es ++ es') = dispatched es ++ dispatched es' :=
  List.filterMap_append ..

theorem matchedFrames_bufEffects (es : List Effect) :
    matchedFrames (bufEffects es) = matchedFrames es := by
  induction es with
  | nil => rfl
  | cons e es ih =>
    rw [← List.singleton_append, bufEffects_append, matchedFrames_append, matchedFrames_append, ih]
    cases e <;> rfl

theorem dispatched_bufEffects (es : List Effect) : dispatched (bufEffects es) = dispatched es := by
  induction es with
  | nil => rfl
  | cons e es ih =>
    rw [← List.singleton_append, bufEffects_append, dispatched_append, dispatched_append, ih]
    cases e <;> rfl

theorem matchedFrames_map_qbuf (bs : List BufInfo) : matchedFrames (bs.map .qbuf) = [] := by
  simp [matchedFrames, List.filterMap_map]

theorem dispatched_map_qbuf (bs : List BufInfo) : dispatched (bs.map .qbuf) = [] := by
  simp [dispatched, List.filterMap_map]

theorem matchedFrames_flatMap_bufdoneNonzero (ns : List Node) :
    matchedFrames (ns.flatMap bufdoneNonzero) = [] := by
  induction ns with
  | nil => rfl
  | cons n ns ih =>
    rw [List.flatMap_cons, matchedFrames_append, ih, bufdoneNonzero_eq, matchedFrames_map_qbuf]
    rfl

theorem dispatched_flatMap_bufdoneNonzero (ns : List Node) :
    dispatched (ns.flatMap bufdoneNonzero) = [] := by
  induction ns with
  | nil => rfl
  | cons n ns ih =>
    rw [List.flatMap_cons, dispatched_append, ih, bufdoneNonzero_eq, dispatched_map_qbuf]
    rfl

end Effects

/-! ### The history invariant -/

def Queue.matchedNodes (q : Queue) : List Node := q.que.filter Node.matched

/-- What the queue and the effects so far owe to the buffers `D` delivered. -/
structure History (D : List BufInfo) (es : List Effect) (q : Queue) : Prop where
  /-- stored buffers were delivered -/
  stored : ∀ n ∈ q.que, ∀ b ∈ n.bufs, b ∈ D
  /-- every stream had delivered the frame of a matched superbuf -/
  seen : ∀ f ∈ matchedFrames es, ∀ id ∈ q.bundledStreams,
    ∃ b ∈ D, b.streamId = id ∧ b.frameIdx = f
  /-- superbufs were matched in the order of their frames -/
  increasing : (matchedFrames es).Pairwise (· < ·)
  /-- superbufs are dispatched complete and in the order they were matched in,
  those still queued last -/
  order : ∃ fs, List.Forall₂ (SuperbufOf q.bundledStreams) fs (dispatched es) ∧
    (fs ++ q.matchedNodes.map Node.frameIdx).Sublist (matchedFrames es)

section History

variable {ctx : Ctx} {q q' : Queue} {M U : List Node} {n : Node} {b : BufInfo}
  {D i is l ls : List BufInfo} {e es es' : List Effect} {ids : List UInt32} {f : UInt32}

theorem Node.Wf.superbufOf (h : n.Wf ids) (hm : n.matched = true) :
    SuperbufOf ids n.frameIdx n.superBuf := by
  refine List.forall₂_iff_get.mpr ⟨h.length_eq.symm, ?_⟩
  intro k hk hk'
  rw [List.get_eq_getElem, List.get_eq_getElem]
  have hslot : n.superBuf[k]? = some n.superBuf[k] := List.getElem?_eq_getElem hk'
  cases hb : n.superBuf[k] with
  | none => exact absurd hb (h.full hm _ (List.getElem_mem hk'))
  | some b =>
    rw [hb] at hslot
    obtain ⟨hf, hid⟩ := h.slot k b hslot
    rw [List.getElem?_eq_getElem hk, Option.some.injEq] at hid
    exact ⟨b, rfl, hid.symm, hf⟩

theorem SuperbufOf.exists_mem {bufs : List (Option BufInfo)} (h : SuperbufOf ids f bufs) :
    ∀ id ∈ ids, ∃ b, some b ∈ bufs ∧ b.streamId = id ∧ b.frameIdx = f := by
  induction h with
  | nil => simp
  | cons hhead _ ih =>
    intro id hid
    rcases List.mem_cons.mp hid with rfl | hid
    · obtain ⟨b, rfl, hb⟩ := hhead
      exact ⟨b, List.mem_cons_self, hb⟩
    · obtain ⟨b, hmem, hb⟩ := ih id hid
      exact ⟨b, List.mem_cons_of_mem _ hmem, hb⟩

theorem History.of_fresh (h : q.Fresh) : History [] [] q := by
  refine ⟨?_, ?_, .nil, [], .nil, ?_⟩
  · simp [h.1]
  · simp [matchedFrames]
  · simp [Queue.matchedNodes, h.1]

theorem History.quiet (hist : History D es q) (hids : q'.bundledStreams = q.bundledStreams)
    (hstored : ∀ n ∈ q'.que, ∀ c ∈ n.bufs, c ∈ D ++ i)
    (hsub : (q'.matchedNodes.map Node.frameIdx).Sublist (q.matchedNodes.map Node.frameIdx))
    (hmf : matchedFrames e = []) (hd : dispatched e = []) : History (D ++ i) (es ++ e) q' := by
  have hmf' : matchedFrames (es ++ e) = matchedFrames es := by
    rw [matchedFrames_append, hmf, List.append_nil]
  have hd' : dispatched (es ++ e) = dispatched es := by
    rw [dispatched_append, hd, List.append_nil]
  refine ⟨hstored, ?_, ?_, ?_⟩
  · intro f hf id hid
    rw [hmf'] at hf
    rw [hids] at hid
    obtain ⟨b, hb, hrest⟩ := hist.seen f hf id hid
    exact ⟨b, List.mem_append_left _ hb, hrest⟩
  · rw [hmf']
    exact hist.increasing
  · obtain ⟨fs, hfs, horder⟩ := hist.order
    refine ⟨fs, ?_, ?_⟩
    · rw [hids, hd']
      exact hfs
    · rw [hmf']
      exact ((List.Sublist.refl fs).append hsub).trans horder

theorem History.remove (hist : History D es q) (hids : q'.bundledStreams = q.bundledStreams)
    (hque : q'.que.Sublist q.que) (hmf : matchedFrames e = []) (hd : dispatched e = []) :
    History (D ++ i) (es ++ e) q' := by
  refine hist.quiet hids ?_ ((hque.filter _).map _) hmf hd
  intro n hn c hc
  exact List.mem_append_left _ (hist.stored n (hque.subset hn) c hc)

theorem History.send {rest : List Node} (hist : History D es q) (h : Shape q M U)
    (hque : q.que = n :: rest) (hm : n.matched = true) :
    History D (es ++ [.superbufCb n.superBuf]) (q.pop 1) := by
  have hrest : (q.pop 1).que = rest := by simp [Queue.pop, hque]
  have hmf : matchedFrames (es ++ [.superbufCb n.superBuf]) = matchedFrames es := by
    rw [matchedFrames_append]
    exact List.append_nil _
  refine ⟨?_, ?_, ?_, ?_⟩
  · intro m hmem c hc
    rw [hrest] at hmem
    refine hist.stored m ?_ c hc
    rw [hque]
    exact List.mem_cons_of_mem _ hmem
  · rw [hmf]
    exact hist.seen
  · rw [hmf]
    exact hist.increasing
  · obtain ⟨fs, hfs, horder⟩ := hist.order
    have hwf : n.Wf q.bundledStreams := h.wf n (by rw [hque]; exact List.mem_cons_self)
    refine ⟨fs ++ [n.frameIdx], ?_, ?_⟩
    · rw [dispatched_append]
      exact List.rel_append hfs (.cons (hwf.superbufOf hm) .nil)
    · rw [hmf]
      have hnodes : q.matchedNodes = n :: (q.pop 1).matchedNodes := by
        rw [Queue.matchedNodes, Queue.matchedNodes, hrest, hque, List.filter_cons_of_pos hm]
      rw [hnodes] at horder
      simpa using horder

/-- A superbuf is matched by its last buffer.  Every frame matched before was
delivered by the stream of that buffer before, so it is smaller. -/
theorem History.matched (hist : History D es q) (hinc : Increasing q.bundledStreams (D ++ [b]))
    (hb : b.streamId ∈ q.bundledStreams) (hids : q'.bundledStreams = q.bundledStreams)
    (hwf : n.Wf q.bundledStreams) (hm : n.matched = true) (hf : n.frameIdx = b.frameIdx)
    (hstored : ∀ m ∈ q'.que, ∀ c ∈ m.bufs, c ∈ D ++ [b]) (hn : n ∈ q'.que)
    (hnodes : q'.matchedNodes = q.matchedNodes ++ [n])
    (hmf : matchedFrames e = [b.frameIdx]) (hd : dispatched e = []) :
    History (D ++ [b]) (es ++ e) q' := by
  refine ⟨hstored, ?_, ?_, ?_⟩
  · intro g hg id hid
    rw [hids] at hid
    rw [matchedFrames_append, hmf, List.mem_append, List.mem_singleton] at hg
    rcases hg with hg | rfl
    · obtain ⟨c, hc, hrest⟩ := hist.seen g hg id hid
      exact ⟨c, List.mem_append_left _ hc, hrest⟩
    · obtain ⟨c, hc, hcid, hcf⟩ := (hwf.superbufOf hm).exists_mem id hid
      exact ⟨c, hstored n hn c (mem_bufs.mpr hc), hcid, hcf.trans hf⟩
  · rw [matchedFrames_append, hmf, List.pairwise_append]
    refine ⟨hist.increasing, List.pairwise_singleton .., ?_⟩
    intro g hg g' hg'
    rw [List.mem_singleton.mp hg']
    obtain ⟨c, hc, hcid, rfl⟩ := hist.seen g hg b.streamId hb
    have hlt := (List.pairwise_append.mp hinc.increasing).2.2 c hc b (List.mem_singleton_self b)
    exact hlt (hcid ▸ hb) hcid.symm
  · obtain ⟨fs, hfs, horder⟩ := hist.order
    refine ⟨fs, ?_, ?_⟩
    · rw [hids, dispatched_append, hd, List.append_nil]
      exact hfs
    · rw [hnodes, matchedFrames_append, hmf, List.map_append, ← List.append_assoc]
      refine horder.append ?_
      simp [hf]

theorem mem_bufs_fill {idx : ℕ} {c : BufInfo} (hc : c ∈ (n.fill idx b).bufs) :
    c ∈ n.bufs ∨ c = b := by
  rw [mem_bufs, Node.fill] at hc
  rcases List.mem_or_eq_of_mem_set hc with hc | hc
  · exact .inl (mem_bufs.mpr hc)
  · exact .inr (Option.some.inj hc)

theorem mem_bufs_new {k idx : ℕ} {c : BufInfo} (hc : c ∈ (Node.new k idx b).bufs) : c = b := by
  rw [mem_bufs, Node.new] at hc
  rcases List.mem_or_eq_of_mem_set hc with hc | hc
  · cases List.eq_of_mem_replicate hc
  · exact Option.some.inj hc

theorem History.stored_insert {L R : List Node} (hist : History D es q)
    (hsub : ∀ m ∈ L ++ R, m ∈ q.que) (hn : ∀ c ∈ n.bufs, c ∈ D ++ i) :
    ∀ m ∈ L ++ n :: R, ∀ c ∈ m.bufs, c ∈ D ++ i := by
  intro m hm c hc
  rcases List.mem_append.mp hm with hm | hm
  · exact List.mem_append_left _ (hist.stored m (hsub m (List.mem_append_left _ hm)) c hc)
  · rcases List.mem_cons.mp hm with rfl | hm
    · exact hn c hc
    · exact List.mem_append_left _ (hist.stored m (hsub m (List.mem_append_right _ hm)) c hc)

theorem History.bufs_fill {idx : ℕ} (hist : History D es q) (hn : n ∈ q.que) :
    ∀ c ∈ (n.fill idx b).bufs, c ∈ D ++ [b] := by
  intro c hc
  rcases mem_bufs_fill hc with hc | rfl
  · exact List.mem_append_left _ (hist.stored n hn c hc)
  · exact List.mem_append_right _ (List.mem_singleton_self c)

theorem delivered_bufs_new {k idx : ℕ} : ∀ c ∈ (Node.new k idx b).bufs, c ∈ D ++ [b] := by
  intro c hc
  rw [mem_bufs_new hc]
  exact List.mem_append_right _ (List.mem_singleton_self b)

theorem filter_matched_eq_nil {ns : List Node} (h : ∀ n ∈ ns, n.matched = false) :
    ns.filter Node.matched = [] := by
  rw [List.filter_eq_nil_iff]
  intro n hn
  simp [h n hn]

/-- **Every move extends the history.** -/
theorem Move.history (hm : Move ctx q i e l q') (h : Shape q M U) (hist : History D es q)
    (hinc : Increasing q.bundledStreams (D ++ i)) : History (D ++ i) (es ++ e) q' := by
  cases hm with
  | release hque =>
    refine hist.remove rfl ?_ ?_ ?_
    · exact List.drop_sublist 1 q.que
    · rw [bufdone_eq, matchedFrames_map_qbuf]
    · rw [bufdone_eq, dispatched_map_qbuf]
  | send hque hn =>
    rw [List.append_nil]
    exact hist.send h hque hn
  | sendLost _ hque => exact hist.remove rfl (List.drop_sublist 1 q.que) rfl rfl
  | expect _ | mode m | lose b | discard b => exact hist.remove rfl (List.Sublist.refl _) rfl rfl
  | @fill b idx L R n hque hidx hn hf hfill =>
    have hmem : n ∈ q.que := by simp [hque]
    refine hist.quiet rfl (hist.stored_insert ?_ (hist.bufs_fill hmem)) ?_ rfl rfl
    · intro m hm
      simp only [hque, List.mem_append, List.mem_cons] at hm ⊢
      exact hm.imp_right .inr
    · simp [Queue.matchedNodes, hque, hn, hfill]
  | @complete b idx M' A B n hque hidx hM hU hf _ hfill _ =>
    have hmem : n ∈ q.que := by simp [hque]
    have hb : b.streamId ∈ q.bundledStreams := List.mem_of_getElem? hidx
    have hB : B.filter Node.matched = [] :=
      filter_matched_eq_nil fun u hu => hU u (by simp [hu])
    have hAB : (A ++ n :: B).filter Node.matched = [] := filter_matched_eq_nil hU
    have hwf : (n.fill idx b).Wf q.bundledStreams := (h.wf n hmem).fill hidx hf
    refine hist.matched hinc hb rfl hwf hfill hf
      (hist.stored_insert ?_ (hist.bufs_fill hmem)) ?_ ?_ ?_ ?_
    · intro m hm
      simp only [hque, List.mem_append, List.mem_cons] at hm ⊢
      exact hm.imp_right fun hm => .inr (.inr hm)
    · simp [Queue.countMatch]
    · rw [Queue.matchedNodes, Queue.matchedNodes, hque, List.filter_append, hAB]
      simp [Queue.countMatch, hfill, hB]
    · rw [← List.singleton_append, matchedFrames_append, matchedFrames_flatMap_bufdoneNonzero]
      rfl
    · rw [← List.singleton_append, dispatched_append, dispatched_flatMap_bufdoneNonzero]
      rfl
  | @evict L R n hque _ =>
    refine hist.remove rfl ?_ ?_ ?_
    · rw [hque]
      exact (List.Sublist.refl L).append (List.sublist_cons_self n R)
    · rw [bufdoneNonzero_eq, matchedFrames_map_qbuf]
    · rw [bufdoneNonzero_eq, dispatched_map_qbuf]
  | @insert b idx M' A B hque hidx _ _ _ hone =>
    refine hist.quiet rfl ?_ ?_ rfl rfl
    · rw [← List.append_assoc]
      refine hist.stored_insert ?_ delivered_bufs_new
      intro m hm
      rw [hque, ← List.append_assoc]
      exact hm
    · have hnew : (Node.new q.numStreams idx b).matched = false := by simpa [Node.new] using hone
      simp [Queue.matchedNodes, hque, hnew]
  | @single b idx hM hidx hone _ _ =>
    have hb : b.streamId ∈ q.bundledStreams := List.mem_of_getElem? hidx
    have hnew : (Node.new q.numStreams idx b).matched = true := by simpa [Node.new] using hone
    refine hist.matched hinc hb rfl (.new hidx) hnew rfl
      (hist.stored_insert ?_ delivered_bufs_new) ?_ ?_ rfl rfl
    · intro m hm
      rwa [List.append_nil] at hm
    · exact List.mem_append_right _ (List.mem_singleton_self _)
    · have hnew' : (Node.new q.bundledStreams.length idx b).matched = true := hnew
      simp [Queue.matchedNodes, Queue.countMatch, Queue.numStreams, hnew']

theorem Increasing.of_append {bs bs' : List BufInfo} (h : Increasing ids (bs ++ bs')) :
    Increasing ids bs :=
  ⟨fun b hb => h.nonzero b (List.mem_append_left _ hb), (List.pairwise_append.mp h.increasing).1⟩

theorem Moves.history (hm : Moves ctx q is es' ls q') (h : Shape q M U) (hist : History D es q)
    (hinc : Increasing q.bundledStreams (D ++ is)) : History (D ++ is) (es ++ es') q' := by
  induction hm generalizing M U D es with
  | nil => simpa using hist
  | cons hmove _ ih =>
    obtain ⟨M₁, U₁, h₁, -⟩ := hmove.shape h
    rw [← List.append_assoc] at hinc
    have hist₁ := hmove.history h hist hinc.of_append
    rw [← hmove.bundledStreams_eq] at hinc
    rw [← List.append_assoc, ← List.append_assoc]
    exact ih h₁ hist₁ hinc

end History

/-! ### The gap between matched frames -/

/-- Matched frames are `post_frame_skip` apart, and the next one expected is
that far from all of them. -/
structure Gap (es : List Effect) (q : Queue) : Prop where
  apart : (matchedFrames es).Pairwise fun f g =>
    f.toNat + q.attr.postFrameSkip.toNat ≤ g.toNat
  expected : ∀ f ∈ matchedFrames es,
    f.toNat + q.attr.postFrameSkip.toNat ≤ q.expectedFrameId.toNat

/-- No move lowers the expected frame, and no superbuf is matched so late that
the expected frame rolls over to 0. -/
structure Ctx.Steady (ctx : Ctx) (skip : UInt8) : Prop where
  raises : ∀ old new, ctx.asks old new → old ≤ new
  room : ∀ b, ctx.mayMatch b → b.frameIdx.toNat + skip.toNat < 2 ^ 32

section Gap

variable {ctx : Ctx} {q q' : Queue} {b : BufInfo} {i is l ls : List BufInfo}
  {e es es' : List Effect}

theorem Gap.quiet (hgap : Gap es q) (hskip : q'.attr.postFrameSkip = q.attr.postFrameSkip)
    (hexp : q.expectedFrameId ≤ q'.expectedFrameId) (hmf : matchedFrames e = []) :
    Gap (es ++ e) q' := by
  refine ⟨?_, ?_⟩
  · rw [matchedFrames_append, hmf, List.append_nil, hskip]
    exact hgap.apart
  · intro f hf
    rw [matchedFrames_append, hmf, List.append_nil] at hf
    rw [hskip]
    exact (hgap.expected f hf).trans (UInt32.le_iff_toNat_le.mp hexp)

theorem Gap.matched (hgap : Gap es q) (hctx : ctx.Steady q.attr.postFrameSkip)
    (hskip : q'.attr.postFrameSkip = q.attr.postFrameSkip)
    (hmay : ctx.mayMatch b) (hold : q.expectedFrameId ≤ b.frameIdx)
    (hexp : q'.expectedFrameId = b.frameIdx + q.attr.postFrameSkip.toUInt32)
    (hmf : matchedFrames e = [b.frameIdx]) : Gap (es ++ e) q' := by
  have hnext : q'.expectedFrameId.toNat = b.frameIdx.toNat + q.attr.postFrameSkip.toNat := by
    rw [hexp, UInt32.toNat_add, UInt8.toNat_toUInt32, Nat.mod_eq_of_lt (hctx.room b hmay)]
  have hle : ∀ f ∈ matchedFrames es,
      f.toNat + q.attr.postFrameSkip.toNat ≤ b.frameIdx.toNat := by
    intro f hf
    exact (hgap.expected f hf).trans (UInt32.le_iff_toNat_le.mp hold)
  refine ⟨?_, ?_⟩
  · rw [matchedFrames_append, hmf, hskip, List.pairwise_append]
    refine ⟨hgap.apart, List.pairwise_singleton .., ?_⟩
    intro f hf g hg
    rw [List.mem_singleton.mp hg]
    exact hle f hf
  · intro f hf
    rw [hskip, hnext]
    rw [matchedFrames_append, hmf, List.mem_append, List.mem_singleton] at hf
    rcases hf with hf | rfl
    · exact (hle f hf).trans (Nat.le_add_right _ _)
    · exact le_rfl

theorem Move.gap (hm : Move ctx q i e l q') (hctx : ctx.Steady q.attr.postFrameSkip)
    (hgap : Gap es q) : Gap (es ++ e) q' := by
  cases hm with
  | release _ =>
    refine hgap.quiet rfl UInt32.le_rfl ?_
    rw [bufdone_eq, matchedFrames_map_qbuf]
  | expect hasks => exact hgap.quiet rfl (hctx.raises _ _ hasks) rfl
  | complete _ _ _ _ _ hold _ hmay =>
    refine hgap.matched hctx rfl hmay hold rfl ?_
    rw [← List.singleton_append, matchedFrames_append, matchedFrames_flatMap_bufdoneNonzero]
    rfl
  | evict _ _ =>
    refine hgap.quiet rfl UInt32.le_rfl ?_
    rw [bufdoneNonzero_eq, matchedFrames_map_qbuf]
  | single _ _ _ hold hmay => exact hgap.matched hctx rfl hmay hold rfl rfl
  | _ => exact hgap.quiet rfl UInt32.le_rfl rfl

theorem Moves.gap (hm : Moves ctx q is es' ls q') (hctx : ctx.Steady q.attr.postFrameSkip)
    (hgap : Gap es q) : Gap (es ++ es') q' := by
  induction hm generalizing es with
  | nil => simpa using hgap
  | cons hmove _ ih =>
    rw [← List.append_assoc]
    refine ih ?_ (hmove.gap hctx hgap)
    rw [hmove.postFrameSkip_eq]
    exact hctx

end Gap

/-! ### Runs -/

def Lowers (ch : Channel) (cmd : Cmd) : Prop :=
  ∃ f, askedFrame ch cmd = some f ∧ f < ch.queue.expectedFrameId

/-- The command completes a superbuf within `post_frame_skip` of the last frame
number. -/
def RollsOver (ch : Channel) (inp : Cmd × Mem) : Prop :=
  ∃ b, inp.1 = .dataCb b ∧ WouldMatch ch b inp.2.newNode ∧
    2 ^ 32 ≤ b.frameIdx.toNat + ch.queue.attr.postFrameSkip.toNat

section Runs

variable {ch₀ ch ch' : Channel} {is : List (Cmd × Mem)} {os es : List Effect} {cmd : Cmd}
  {mem : Mem} {D : List BufInfo}

theorem cmdCtx_steady (hlow : ¬ Lowers ch cmd) (hroll : ¬ RollsOver ch (cmd, mem)) :
    (cmdCtx ch cmd mem).Steady ch.queue.attr.postFrameSkip := by
  constructor
  · rintro old new ⟨rfl, hask⟩
    rw [← UInt32.not_lt]
    intro hlt
    exact hlow ⟨new, hask, hlt⟩
  · rintro b ⟨hcmd, hmatch⟩
    by_contra hlate
    exact hroll ⟨b, hcmd, hmatch, by omega⟩

theorem not_lowers (h : askedFrame ch cmd = none) : ¬ Lowers ch cmd := by
  rintro ⟨f, hask, -⟩
  rw [h] at hask
  cases hask

theorem not_rollsOver {b : BufInfo}
    (h : b.frameIdx.toNat + ch.queue.attr.postFrameSkip.toNat < 2 ^ 32) :
    ¬ RollsOver ch (.dataCb b, mem) := by
  rintro ⟨c, hcmd, -, hlate⟩
  cases hcmd
  omega

theorem handed_append (is is' : List (Cmd × Mem)) :
    handed (is ++ is') = handed is ++ handed is' :=
  List.flatMap_append ..

/-- **The history along a run.** -/
theorem history_of_runs {G : Channel → Cmd × Mem → Prop} (h₀ : ch₀.queue.Fresh)
    (h : Runs processStreamBuf G ch₀ is os ch)
    (hinc : Increasing ch₀.queue.bundledStreams (handed is)) :
    History (handed is) (bufEffects os) ch.queue ∧
      ch.queue.bundledStreams = ch₀.queue.bundledStreams := by
  induction h with
  | nil => exact ⟨.of_fresh h₀, rfl⟩
  | @snoc is os ch ch' inp o hrun _ hs ih =>
    rw [handed_append] at hinc
    obtain ⟨hist, hids⟩ := ih hinc.of_append
    obtain ⟨M, U, hshape, hM⟩ := Channel.Good.of_runs h₀ hrun
    obtain ⟨ch₁, es, l, heq, -, hms, -, -⟩ := processStreamBuf_moves inp.1 inp.2 hshape hM
    rw [hs, Option.some.injEq, Prod.mk.injEq] at heq
    obtain ⟨rfl, rfl⟩ := heq
    have htaken : handed [inp] = inp.1.taken := by simp [handed]
    rw [handed_append, htaken, bufEffects_append]
    rw [htaken, ← hids] at hinc
    exact ⟨hms.history hshape hist hinc, hms.bundledStreams_eq.trans hids⟩

/-- **The gap along a run** that neither lowers the expected frame nor rolls it
over. -/
theorem gap_of_runs (h₀ : ch₀.queue.Fresh)
    (h : Runs processStreamBuf (fun ch i => ¬ Lowers ch i.1 ∧ ¬ RollsOver ch i) ch₀ is os ch) :
    Gap (bufEffects os) ch.queue ∧
      ch.queue.attr.postFrameSkip = ch₀.queue.attr.postFrameSkip := by
  induction h with
  | nil => exact ⟨⟨.nil, by simp [matchedFrames]⟩, rfl⟩
  | @snoc is os ch ch' inp o hrun hsteady hs ih =>
    obtain ⟨hgap, hskip⟩ := ih
    obtain ⟨M, U, hshape, hM⟩ := Channel.Good.of_runs h₀ hrun
    obtain ⟨ch₁, es, l, heq, -, hms, -, -⟩ := processStreamBuf_moves inp.1 inp.2 hshape hM
    rw [hs, Option.some.injEq, Prod.mk.injEq] at heq
    obtain ⟨rfl, rfl⟩ := heq
    rw [bufEffects_append]
    exact ⟨hms.gap (cmdCtx_steady hsteady.1 hsteady.2) hgap, hms.postFrameSkip_eq.trans hskip⟩

/-- **The order of dispatched superbufs.**  If every bundled stream delivers
increasing frame numbers, the superbufs sent to the client are complete and
their frame numbers increase; and if no command lowers the expected frame or
makes it roll over, matched frames are at least `post_frame_skip` apart. -/
theorem superbuf_dispatch_order (h₀ : ch₀.queue.Fresh)
    (h : Runs processStreamBuf (fun _ _ => True) ch₀ is os ch)
    (hinc : Increasing ch₀.queue.bundledStreams (handed is)) :
    (∃ fs, List.Forall₂ (SuperbufOf ch₀.queue.bundledStreams) fs (dispatched os) ∧
      fs.Pairwise (· < ·)) ∧
    (Runs processStreamBuf (fun ch i => ¬ Lowers ch i.1 ∧ ¬ RollsOver ch i) ch₀ is os ch →
      (matchedFrames os).Pairwise fun f g =>
        f.toNat + ch₀.queue.attr.postFrameSkip.toNat ≤ g.toNat) := by
  constructor
  · obtain ⟨hist, hids⟩ := history_of_runs h₀ h hinc
    obtain ⟨fs, hfs, horder⟩ := hist.order
    rw [hids, dispatched_bufEffects] at hfs
    refine ⟨fs, hfs, ?_⟩
    exact (hist.increasing.sublist horder).sublist (List.sublist_append_left fs _)
  · intro hsteady
    obtain ⟨hgap, hskip⟩ := gap_of_runs h₀ hsteady
    have happ := hgap.apart
    rw [matchedFrames_bufEffects, hskip] at happ
    exact happ

end Runs

/-- A channel with one stream, handle 1, that skips five frames after each
match. -/
def skippingChannel : Channel :=
  { sampleChannel with
    queue := { sampleChannel.queue with bundledStreams := [1], attr := ⟨.continuous, 2, 2, 5, 3⟩ }
    streams := [⟨1, true, some .preview⟩] }

theorem superbuf_dispatch_order_skipping : ∃ ch os,
    Runs processStreamBuf (fun ch i => ¬ Lowers ch i.1 ∧ ¬ RollsOver ch i) skippingChannel
      [(.dataCb (sampleBuf 1 7), .ample), (.dataCb (sampleBuf 1 12), .ample)] os ch ∧
    dispatched os = [[some (sampleBuf 1 7)], [some (sampleBuf 1 12)]] ∧
    (∃ fs, List.Forall₂ (SuperbufOf [1]) fs (dispatched os) ∧ fs.Pairwise (· < ·)) ∧
    (matchedFrames os).Pairwise fun f g => f.toNat + 5 ≤ g.toNat := by
  have hfirst : Runs processStreamBuf (fun ch i => ¬ Lowers ch i.1 ∧ ¬ RollsOver ch i)
      skippingChannel [(.dataCb (sampleBuf 1 7), .ample)]
      [.matched 7, .superbufCb [some (sampleBuf 1 7)]]
      { skippingChannel with
        queue := { skippingChannel.queue with expectedFrameId := 12 } } :=
    .single ⟨not_lowers rfl, not_rollsOver (by decide)⟩ rfl
  have hboth := hfirst.snoc (i := (.dataCb (sampleBuf 1 12), .ample))
    ⟨not_lowers rfl, not_rollsOver (by decide)⟩ rfl
  have horder := superbuf_dispatch_order ⟨rfl, rfl, rfl⟩ (hboth.mono fun _ _ _ => trivial)
    ⟨by decide, by decide⟩
  exact ⟨_, _, hboth, rfl, horder.1, horder.2 hboth⟩

/-- The last two frame numbers are matched one after the other: after the first
of them the expected frame has rolled over. -/
theorem superbuf_gap_rollover : ∃ ch os,
    Runs processStreamBuf (fun ch i => ¬ Lowers ch i.1) skippingChannel
      [(.dataCb (sampleBuf 1 0xFFFFFFFE), .ample), (.dataCb (sampleBuf 1 0xFFFFFFFF), .ample)]
      os ch ∧
    Increasing skippingChannel.queue.bundledStreams
      [sampleBuf 1 0xFFFFFFFE, sampleBuf 1 0xFFFFFFFF] ∧
    ¬ (matchedFrames os).Pairwise fun f g =>
      f.toNat + skippingChannel.queue.attr.postFrameSkip.toNat ≤ g.toNat := by
  have hfirst : Runs processStreamBuf (fun ch i => ¬ Lowers ch i.1) skippingChannel
      [(.dataCb (sampleBuf 1 0xFFFFFFFE), .ample)]
      [.matched 0xFFFFFFFE, .superbufCb [some (sampleBuf 1 0xFFFFFFFE)]]
      { skippingChannel with
        queue := { skippingChannel.queue with expectedFrameId := 3 } } :=
    .single (not_lowers rfl) rfl
  exact ⟨_, _, .snoc hfirst (not_lowers rfl) rfl, ⟨by decide, by decide⟩, by decide⟩

end Superbuf

/-
The shape of the superbuf queue, for every run of the command thread.

* `processStreamBuf_moves` — every command ends and is a sequence of moves;
  this is the lemma the other results about the matcher start from;
* `superbuf_queue_shape` — in every reachable state the matched superbufs are
  a front part of the queue counted by `match_cnt`, the unmatched ones behind
  them have increasing frame numbers, `que.size` is the length, and every
  command still ends.
-/
import HdxCommon.SuperbufMoves

namespace Superbuf

/-! ### Moves keep the shape -/

section Wf

variable {ids : List UInt32} {n : Node} {b : BufInfo} {idx : ℕ}

theorem mem_bufs {n : Node} {b : BufInfo} : b ∈ n.bufs ↔ some b ∈ n.superBuf := by
  rw [Node.bufs, List.reduceOption_mem_iff]

theorem Node.Wf.fill (h : n.Wf ids) (hidx : ids[idx]? = some b.streamId)
    (hf : n.frameIdx = b.frameIdx) : (n.fill idx b).Wf ids := by
  have hlt : idx < n.superBuf.length := by
    rw [h.length_eq]
    exact (List.getElem?_eq_some_iff.mp hidx).1
  refine ⟨?_, ?_, ?_, ?_⟩
  · simpa [Node.fill] using h.length_eq
  · intro i c hc
    rw [Node.fill] at hc
    simp only [List.getElem?_set] at hc
    by_cases hi : idx = i
    · subst hi
      simp only [hlt, if_true, Option.some.injEq] at hc
      subst hc
      exact ⟨hf.symm, hidx⟩
    · rw [if_neg hi] at hc
      exact h.slot i c hc
  · intro hm s hs hnone
    rw [Node.fill, List.all_eq_true] at hm
    have := hm s hs
    rw [hnone] at this
    simp [slotFrameIdx] at this
  · have hmem : b ∈ (n.fill idx b).bufs := by
      rw [mem_bufs]
      exact List.mem_set hlt (some b)
    exact List.ne_nil_of_mem hmem

theorem Node.Wf.new (hidx : ids[idx]? = some b.streamId) : (Node.new ids.length idx b).Wf ids := by
  have hlt : idx < ids.length := (List.getElem?_eq_some_iff.mp hidx).1
  refine ⟨by simp [Node.new], ?_, ?_, ?_⟩
  · intro i c hc
    rw [Node.new] at hc
    simp only [List.getElem?_set, List.length_replicate] at hc
    by_cases hi : idx = i
    · subst hi
      simp only [hlt, if_true, Option.some.injEq] at hc
      subst hc
      exact ⟨rfl, hidx⟩
    · rw [if_neg hi, List.getElem?_replicate] at hc
      split at hc <;> simp at hc
  · -- with one stream there is one slot, and it is filled
    intro hm s hs
    have hone : ids.length = 1 := by simpa [Node.new] using hm
    obtain rfl : idx = 0 := by omega
    simp only [Node.new, hone, List.replicate_one, List.set_cons_zero, List.mem_singleton] at hs
    simp [hs]
  · have hmem : b ∈ (Node.new ids.length idx b).bufs := by
      rw [mem_bufs]
      exact List.mem_set (by simpa using hlt) (some b)
    exact List.ne_nil_of_mem hmem

end Wf

section MoveShape

variable {ctx : Ctx} {q q' : Queue} {M U : List Node} {n : Node}
  {i is l ls : List BufInfo} {e es : List Effect}

/-- The matched and the unmatched part are determined by the queue. -/
theorem Shape.unique {M' U' : List Node} (h : Shape q M U) (hque : q.que = M' ++ U')
    (hM : ∀ m ∈ M', m.matched = true) (hU : ∀ u ∈ U', u.matched = false) : M' = M ∧ U' = U := by
  have hfilter : ∀ P V : List Node, (∀ m ∈ P, m.matched = true) → (∀ u ∈ V, u.matched = false) →
      (P ++ V).filter (·.matched) = P := by
    intro P V hP hV
    rw [List.filter_append, List.filter_eq_self.mpr hP, List.filter_eq_nil_iff.mpr, List.append_nil]
    intro u hu
    simp [hV u hu]
  have hMM : M' = M := by
    rw [← hfilter M' U' hM hU, ← hque, h.que_eq, hfilter M U h.matched h.unmatched]
  subst hMM
  refine ⟨rfl, ?_⟩
  have hcancel := hque.symm.trans h.que_eq
  exact List.append_cancel_left hcancel

theorem Shape.split_unmatched {L R : List Node} (h : Shape q M U) (hque : q.que = L ++ n :: R)
    (hn : n.matched = false) : ∃ A, L = M ++ A ∧ U = A ++ n :: R := by
  have heq : M ++ U = L ++ n :: R := h.que_eq.symm.trans hque
  rcases List.append_eq_append_iff.mp heq with ⟨A, hL, hU⟩ | ⟨A, hM, hR⟩
  · exact ⟨A, hL, hU⟩
  · cases A with
    | nil => exact ⟨[], by simpa using hM.symm, by simpa using hR.symm⟩
    | cons a A =>
      obtain ⟨rfl, -⟩ := List.cons.inj hR
      have := h.matched n (by rw [hM]; simp)
      rw [hn] at this
      cases this

theorem Shape.pop_one (h : Shape q M U) {rest : List Node} (hque : q.que = n :: rest) :
    ∃ M' U', Shape (q.pop 1) M' U' ∧ M'.length ≤ M.length := by
  cases M with
  | cons m M => exact ⟨_, _, h.pop (by simp), by simp⟩
  | nil =>
    have hU : U = n :: rest := by rw [← hque, h.que_eq, List.nil_append]
    subst hU
    have hn : n.matched = false := h.unmatched n List.mem_cons_self
    refine ⟨[], rest, ⟨?_, by simp, ?_, ?_, ?_, ?_, ?_, ?_⟩, le_rfl⟩
    · simp [Queue.pop, hque]
    · intro u hu
      exact h.unmatched u (List.mem_cons_of_mem n hu)
    · exact (List.pairwise_cons.mp h.sorted).2
    · simp [Queue.pop, hque, hn, h.matchCnt_eq]
    · simp [Queue.pop, hque, h.size_eq]
    · intro hone
      have := h.single hone
      simp at this
    · intro m hm
      refine h.wf m ?_
      rw [hque]
      exact List.mem_cons_of_mem n (by simpa [Queue.pop, hque] using hm)

theorem Shape.fill {b : BufInfo} {idx : ℕ} {A R : List Node} (h : Shape q M (A ++ n :: R))
    (hidx : q.bundledStreams[idx]? = some b.streamId) (hf : n.frameIdx = b.frameIdx)
    (hm : (n.fill idx b).matched = false) :
    Shape { q with que := M ++ (A ++ n.fill idx b :: R) } M (A ++ n.fill idx b :: R) := by
  have hn : n ∈ q.que := by simp [h.que_eq]
  refine ⟨rfl, h.matched, ?_, ?_, h.matchCnt_eq, ?_, ?_, ?_⟩
  · intro u hu
    rcases List.mem_append.mp hu with hu | hu
    · exact h.unmatched u (by simp [hu])
    · rcases List.mem_cons.mp hu with rfl | hu
      · exact hm
      · exact h.unmatched u (by simp [hu])
  · have hframes :
        (A ++ n.fill idx b :: R).map Node.frameIdx = (A ++ n :: R).map Node.frameIdx := by
      simp [Node.fill]
    have hsorted := h.sorted
    rw [← List.pairwise_map (f := Node.frameIdx) (R := fun x y => x < y)] at hsorted ⊢
    rwa [hframes]
  · rw [h.size_eq, h.que_eq]
    simp
  · intro hone
    have := h.single hone
    simp at this
  · intro m hmem
    have hcases : m = n.fill idx b ∨ m ∈ q.que := by
      rw [h.que_eq]
      simp only [List.mem_append, List.mem_cons] at hmem ⊢
      tauto
    rcases hcases with rfl | hmem
    · exact (h.wf n hn).fill hidx hf
    · exact h.wf m hmem

theorem Shape.complete {b : BufInfo} {idx : ℕ} {A B : List Node} (h : Shape q M (A ++ n :: B))
    (hidx : q.bundledStreams[idx]? = some b.streamId) (hf : n.frameIdx = b.frameIdx)
    (hm : (n.fill idx b).matched = true) :
    Shape ({ q with
        que := M ++ n.fill idx b :: B
        size := q.size - UInt32.ofNat A.length }.countMatch b.frameIdx)
      (M ++ [n.fill idx b]) B := by
  have hn : n ∈ q.que := by simp [h.que_eq]
  have hsorted := List.pairwise_append.mp h.sorted
  refine ⟨by simp [Queue.countMatch], ?_, ?_, ?_, ?_, ?_, ?_, ?_⟩
  · intro m hmem
    rcases List.mem_append.mp hmem with hmem | hmem
    · exact h.matched m hmem
    · rw [List.mem_singleton.mp hmem]
      exact hm
  · intro u hu
    exact h.unmatched u (by simp [hu])
  · exact (List.pairwise_cons.mp hsorted.2.1).2
  · rw [Queue.countMatch, h.matchCnt_eq, List.length_append, List.length_singleton,
      UInt32.ofNat_add]
    rfl
  · have hlen : q.que.length = (M ++ n.fill idx b :: B).length + A.length := by
      simp [h.que_eq]
      omega
    simp only [Queue.countMatch, h.size_eq, hlen, UInt32.ofNat_add, UInt32.add_sub_cancel]
  · intro hone
    have := h.single hone
    simp at this
  · intro m hmem
    have hcases : m = n.fill idx b ∨ m ∈ q.que := by
      rw [h.que_eq]
      simp only [Queue.countMatch, List.mem_append, List.mem_cons] at hmem ⊢
      tauto
    rcases hcases with rfl | hmem
    · exact (h.wf n hn).fill hidx hf
    · exact h.wf m hmem

theorem Shape.evict {A R : List Node} (h : Shape q M (A ++ n :: R)) :
    Shape { q with que := M ++ (A ++ R), size := q.size - 1 } M (A ++ R) := by
  have hsub : (A ++ R).Sublist (A ++ n :: R) :=
    List.Sublist.append_left (List.sublist_cons_self n R) A
  refine ⟨rfl, h.matched, ?_, h.sorted.sublist hsub, h.matchCnt_eq, ?_, ?_, ?_⟩
  · intro u hu
    exact h.unmatched u (hsub.subset hu)
  · have hlen : q.que.length = (M ++ (A ++ R)).length + 1 := by
      simp [h.que_eq]
      omega
    simp only [h.size_eq, hlen, UInt32.ofNat_add]
    exact UInt32.add_sub_cancel _ _
  · intro hone
    have := h.single hone
    simp at this
  · intro m hmem
    refine h.wf m ?_
    rw [h.que_eq]
    rcases List.mem_append.mp hmem with hmem | hmem
    · exact List.mem_append_left _ hmem
    · exact List.mem_append_right _ (hsub.subset hmem)

theorem Shape.insert {b : BufInfo} {idx : ℕ} {A B : List Node} (h : Shape q M (A ++ B))
    (hidx : q.bundledStreams[idx]? = some b.streamId)
    (hA : ∀ a ∈ A, a.frameIdx < b.frameIdx) (hB : ∀ c ∈ B, b.frameIdx < c.frameIdx)
    (hone : q.numStreams ≠ 1) :
    Shape { q with que := M ++ (A ++ Node.new q.numStreams idx b :: B), size := q.size + 1 } M
      (A ++ Node.new q.numStreams idx b :: B) := by
  obtain ⟨hsA, hsB, hsAB⟩ := List.pairwise_append.mp h.sorted
  refine ⟨rfl, h.matched, ?_, ?_, h.matchCnt_eq, ?_, fun h1 => absurd h1 hone, ?_⟩
  · intro u hu
    rcases List.mem_append.mp hu with hu | hu
    · exact h.unmatched u (List.mem_append_left B hu)
    · rcases List.mem_cons.mp hu with rfl | hu
      · simpa [Node.new] using hone
      · exact h.unmatched u (List.mem_append_right A hu)
  · refine List.pairwise_append.mpr ⟨hsA, List.pairwise_cons.mpr ⟨hB, hsB⟩, ?_⟩
    intro a ha c hc
    rcases List.mem_cons.mp hc with rfl | hc
    · exact hA a ha
    · exact hsAB a ha c hc
  · have hlen : (M ++ (A ++ Node.new q.numStreams idx b :: B)).length = q.que.length + 1 := by
      simp [h.que_eq]
      omega
    simp only [h.size_eq, hlen, UInt32.ofNat_add]
    rfl
  · intro m hmem
    have hcases : m = Node.new q.numStreams idx b ∨ m ∈ q.que := by
      rw [h.que_eq]
      simp only [List.mem_append, List.mem_cons] at hmem ⊢
      tauto
    rcases hcases with rfl | hmem
    · exact .new hidx
    · exact h.wf m hmem

theorem Shape.insertSingle {b : BufInfo} {idx : ℕ} (h : Shape q M [])
    (hidx : q.bundledStreams[idx]? = some b.streamId) (hone : q.numStreams = 1) :
    Shape ({ q with
        que := q.que ++ [Node.new q.numStreams idx b]
        size := q.size + 1 }.countMatch b.frameIdx)
      (M ++ [Node.new q.numStreams idx b]) [] := by
  have hque := h.que_eq
  rw [List.append_nil] at hque
  refine ⟨by simp [Queue.countMatch, hque], ?_, by simp, .nil, ?_, ?_, fun _ => rfl, ?_⟩
  · intro m hmem
    rcases List.mem_append.mp hmem with hmem | hmem
    · exact h.matched m hmem
    · rw [List.mem_singleton.mp hmem]
      simp [Node.new, hone]
  · rw [Queue.countMatch, h.matchCnt_eq, List.length_append, List.length_singleton,
      UInt32.ofNat_add]
    rfl
  · simp only [Queue.countMatch, h.size_eq, List.length_append, List.length_singleton,
      UInt32.ofNat_add]
    rfl
  · intro m hmem
    rcases List.mem_append.mp hmem with hmem | hmem
    · exact h.wf m hmem
    · rw [List.mem_singleton.mp hmem]
      exact .new hidx

/-- **Every move keeps the shape**, and adds at most one matched superbuf for
each buffer it takes in. -/
theorem Move.shape (hm : Move ctx q i e l q') (h : Shape q M U) :
    ∃ M' U', Shape q' M' U' ∧ M'.length ≤ M.length + i.length := by
  cases hm with
  | release hque | send hque _ | sendLost _ hque => exact h.pop_one hque
  | expect _ | mode m =>
    exact ⟨M, U, ⟨h.que_eq, h.matched, h.unmatched, h.sorted, h.matchCnt_eq, h.size_eq, h.single,
      h.wf⟩, by simp⟩
  | lose b | discard b => exact ⟨M, U, h, by simp⟩
  | fill hque hidx hn hf hfill =>
    obtain ⟨A, rfl, rfl⟩ := h.split_unmatched hque hn
    rw [List.append_assoc]
    exact ⟨M, _, h.fill hidx hf hfill, by simp⟩
  | complete hque hidx hM hU hf _ hfill _ =>
    obtain ⟨rfl, rfl⟩ := h.unique hque hM hU
    exact ⟨_, _, h.complete hidx hf hfill, by simp⟩
  | evict hque hn =>
    obtain ⟨A, rfl, rfl⟩ := h.split_unmatched hque hn
    rw [List.append_assoc]
    exact ⟨M, _, h.evict, by simp⟩
  | @insert _ _ _ A B hque hidx hM hA hB hone =>
    have hU : ∀ u ∈ A ++ B, u.matched = false := by
      intro u hu
      rcases List.mem_append.mp hu with hu | hu
      · exact (hA u hu).1
      · exact (hB u hu).1
    obtain ⟨rfl, rfl⟩ := h.unique hque hM hU
    exact ⟨_, _, h.insert hidx (fun a ha => (hA a ha).2) (fun c hc => (hB c hc).2) hone, by simp⟩
  | single hM hidx hone _ _ =>
    obtain rfl := h.single hone
    exact ⟨_, _, h.insertSingle hidx hone, by simp⟩

theorem Moves.shape (hm : Moves ctx q is es ls q') (h : Shape q M U) :
    ∃ M' U', Shape q' M' U' ∧ M'.length ≤ M.length + is.length := by
  induction hm generalizing M U with
  | nil => exact ⟨M, U, h, by simp⟩
  | cons hmove _ ih =>
    obtain ⟨M₁, U₁, h₁, hle₁⟩ := hmove.shape h
    obtain ⟨M₂, U₂, h₂, hle₂⟩ := ih h₁
    refine ⟨M₂, U₂, h₂, ?_⟩
    rw [List.length_append]
    omega

theorem bufEffects_flatMap_bufdoneNonzero (ns : List Node) :
    bufEffects (ns.flatMap bufdoneNonzero) = ns.flatMap bufdoneNonzero := by
  induction ns with
  | nil => rfl
  | cons n ns ih => rw [List.flatMap_cons, bufEffects_append, bufEffects_bufdoneNonzero, ih]

theorem Move.bufEffects_eq (hm : Move ctx q i e l q') : bufEffects e = e := by
  cases hm with
  | release _ => exact bufEffects_bufdone _
  | evict _ _ => exact bufEffects_bufdoneNonzero _
  | complete =>
    rw [← List.singleton_append, bufEffects_append, bufEffects_flatMap_bufdoneNonzero]
    rfl
  | _ => rfl

theorem Moves.bufEffects_eq (hm : Moves ctx q is es ls q') : bufEffects es = es := by
  induction hm with
  | nil => rfl
  | cons hmove _ ih => rw [bufEffects_append, hmove.bufEffects_eq, ih]

end MoveShape

/-! ### Commands as moves -/

inductive MetadataAction where
  | reject
  | keep
  | futureFrame
  | noFutureFrame
  | goodRange (minFrameIdx : UInt32)
  deriving DecidableEq, Repr

/-- The action of a buffer, from its stream and its contents: refused are
buffers of unknown streams and of streams without info, empty metadata buffers,
and contradictory metadata. -/
def metadataAction (ch : Channel) (b : BufInfo) : MetadataAction :=
  match utilGetStreamByHandler ch.streams b.streamId with
  | none => .reject
  | some s =>
    match s.streamInfo with
    | none => .reject
    | some .metadata =>
      match b.metadata with
      | none => .reject
      | some md =>
        if md.isPrepSnapshotDoneValid && md.isGoodFrameIdxRangeValid then .reject
        else if md.isPrepSnapshotDoneValid then
          if md.prepSnapshotDoneState = .needFutureFrame then .futureFrame else .noFutureFrame
        else if md.isGoodFrameIdxRangeValid then .goodRange md.minFrameIdx
        else .keep
    | some _ => .keep

/-- The queue after the metadata of a buffer was handled: emptied if a future
frame is needed, and with the expected frame the metadata asks for. -/
def afterMetadata (ch : Channel) (b : BufInfo) : Queue :=
  match metadataAction ch b with
  | .futureFrame =>
    { ch.queue with expectedFrameId := ch.queue.expectedFrameId + 100 }.pop ch.queue.que.length
  | .goodRange m => { ch.queue with expectedFrameId := m }
  | _ => ch.queue

def askedFrame (ch : Channel) : Cmd → Option UInt32
  | .dataCb b =>
    if b.streamId ∈ ch.queue.bundledStreams then
      match metadataAction ch b with
      | .futureFrame => some (ch.queue.expectedFrameId + 100)
      | .goodRange m => some m
      | _ => none
    else none
  | .flushQueue frameIdx => some frameIdx
  | _ => none

/-- The frame number expected when a buffer is compared: the one its metadata
asks for, else the queue's. -/
def expectedFor (ch : Channel) (b : BufInfo) : UInt32 :=
  (askedFrame ch (.dataCb b)).getD ch.queue.expectedFrameId

/-- A buffer of a bundled stream completes a superbuf: it is accepted and not
too old, and either it is alone in its superbuf or it fills the last slot. -/
def WouldMatch (ch : Channel) (b : BufInfo) (newNode : Bool) : Prop :=
  b.streamId ∈ ch.queue.bundledStreams ∧ metadataAction ch b ≠ .reject ∧
    expectedFor ch b ≤ b.frameIdx ∧
    (ch.queue.numStreams = 1 ∧ newNode = true ∨ metadataAction ch b ≠ .futureFrame ∧
      Completes ch.queue (ch.queue.bundledStreams.idxOf b.streamId) b)

def cmdCtx (ch : Channel) (cmd : Cmd) (mem : Mem) : Ctx where
  ample := mem.AllOk
  asks old new := old = ch.queue.expectedFrameId ∧ askedFrame ch cmd = some new
  mayMatch b := cmd = .dataCb b ∧ WouldMatch ch b mem.newNode

def Cmd.taken : Cmd → List BufInfo
  | .dataCb b => [b]
  | _ => []

/-- The buffers a command makes the matcher drop. -/
def lostBy (ch : Channel) : Cmd → List BufInfo
  | .dataCb b =>
    if b.streamId ∉ ch.queue.bundledStreams ∨ metadataAction ch b = .reject then [b]
    else if b.frameIdx < (afterMetadata ch b).expectedFrameId then []
    else lostAt (afterMetadata ch b) (ch.queue.bundledStreams.idxOf b.streamId) b
  | _ => []

section Commands

variable {ch : Channel} {b : BufInfo} {M U : List Node} {newNode : Bool}

theorem handleMetadata_eq (ch : Channel) (b : BufInfo) :
    handleMetadata ch b =
      match metadataAction ch b with
      | .reject => some (-1, ch, [])
      | .keep => some (0, ch, [])
      | .futureFrame => some (0,
          { ch with
            queue := { ch.queue with
              expectedFrameId := ch.queue.expectedFrameId + 100 }.pop ch.queue.que.length
            needLedFlash := true },
          ch.queue.que.flatMap bufdone)
      | .noFutureFrame => some (0, { ch with needLedFlash := false }, [])
      | .goodRange m =>
        some (0, { ch with queue := { ch.queue with expectedFrameId := m } }, []) := by
  unfold handleMetadata metadataAction
  cases utilGetStreamByHandler ch.streams b.streamId with
  | none => rfl
  | some s =>
    obtain ⟨_, _, info⟩ := s
    cases info with
    | none => rfl
    | some ty =>
      cases ty with
      | metadata =>
        cases b.metadata with
        | none => rfl
        | some md =>
          simp only [superbufFlush_eq]
          split
          · rfl
          split
          · split <;> rfl
          split <;> rfl
      | _ => rfl

theorem handleMetadata_accept (mem : Mem) (hmem : b.streamId ∈ ch.queue.bundledStreams)
    (hr : metadataAction ch b ≠ .reject) :
    ∃ ch' es, handleMetadata ch b = some (0, ch', es) ∧ ch'.queue = afterMetadata ch b ∧
      ch.SameSetup ch' ∧
      Moves (cmdCtx ch (.dataCb b) mem) ch.queue [] (bufEffects es) [] (afterMetadata ch b) := by
  rw [handleMetadata_eq, afterMetadata]
  cases hact : metadataAction ch b with
  | reject => exact absurd hact hr
  | keep => exact ⟨ch, [], rfl, rfl, ⟨rfl, rfl⟩, .nil⟩
  | noFutureFrame => exact ⟨_, [], rfl, rfl, ⟨rfl, rfl⟩, .nil⟩
  | goodRange m =>
    have hasks : (cmdCtx ch (.dataCb b) mem).asks ch.queue.expectedFrameId m :=
      ⟨rfl, by simp [askedFrame, hact, hmem]⟩
    exact ⟨_, [], rfl, rfl, ⟨rfl, rfl⟩, (Move.expect hasks).moves⟩
  | futureFrame =>
    have hasks : (cmdCtx ch (.dataCb b) mem).asks ch.queue.expectedFrameId
        (ch.queue.expectedFrameId + 100) := ⟨rfl, by simp [askedFrame, hact, hmem]⟩
    have hexpect : Move (cmdCtx ch (.dataCb b) mem) ch.queue [] [] []
        { ch.queue with expectedFrameId := ch.queue.expectedFrameId + 100 } := .expect hasks
    have hrel := hexpect.moves.trans (release_moves _ le_rfl)
    refine ⟨_, ch.queue.que.flatMap bufdone, rfl, rfl, ⟨rfl, rfl⟩, ?_⟩
    rw [bufEffects_flatMap_bufdone]
    simpa using hrel

theorem utilSeqCompWRollover_neg (v1 v2 : UInt32) :
    utilSeqCompWRollover v1 v2 < 0 ↔ v1 < v2 := by
  unfold utilSeqCompWRollover
  split
  · next hgt => simpa using UInt32.le_of_lt hgt
  · split
    all_goals next hlt => simpa using hlt

theorem afterMetadata_expectedFrameId (hmem : b.streamId ∈ ch.queue.bundledStreams) :
    (afterMetadata ch b).expectedFrameId = expectedFor ch b := by
  rw [afterMetadata, expectedFor, askedFrame, if_pos hmem]
  cases metadataAction ch b <;> rfl

/-- Metadata that empties the queue leaves nothing to complete; other metadata
leaves the superbufs alone. -/
theorem completes_afterMetadata {idx : ℕ} (h : Completes (afterMetadata ch b) idx b) :
    metadataAction ch b ≠ .futureFrame ∧ Completes ch.queue idx b := by
  obtain ⟨n, hn, hrest⟩ := h
  unfold afterMetadata at hn
  cases hact : metadataAction ch b with
  | futureFrame => simp [hact, Queue.pop] at hn
  | _ =>
    simp only [hact] at hn
    exact ⟨by simp, n, hn, hrest⟩

theorem afterMetadata_bundledStreams (ch : Channel) (b : BufInfo) :
    (afterMetadata ch b).bundledStreams = ch.queue.bundledStreams := by
  unfold afterMetadata
  split <;> rfl

theorem idxOf_eq_numStreams_iff (ch : Channel) (b : BufInfo) :
    ch.queue.bundledStreams.idxOf b.streamId = ch.queue.numStreams ↔
      b.streamId ∉ ch.queue.bundledStreams := by
  rw [Queue.numStreams, List.idxOf_eq_length_iff]

theorem compAndEnqueue_refused (newNode : Bool)
    (hr : b.streamId ∉ ch.queue.bundledStreams ∨ metadataAction ch b = .reject) :
    compAndEnqueue ch b newNode = some (-1, ch, []) := by
  rw [compAndEnqueue]
  by_cases hmem : b.streamId ∈ ch.queue.bundledStreams
  · have hrej := hr.resolve_left (not_not.mpr hmem)
    rw [if_neg (by rw [idxOf_eq_numStreams_iff]; exact not_not.mpr hmem), handleMetadata_eq, hrej]
    rfl
  · rw [if_pos ((idxOf_eq_numStreams_iff ch b).mpr hmem)]
    rfl

theorem compAndEnqueue_accepted (mem : Mem) (newNode : Bool)
    (hmem : b.streamId ∈ ch.queue.bundledStreams) (hr : metadataAction ch b ≠ .reject) :
    ∃ ch₁ es₁, ch₁.queue = afterMetadata ch b ∧ ch.SameSetup ch₁ ∧
      Moves (cmdCtx ch (.dataCb b) mem) ch.queue [] (bufEffects es₁) [] (afterMetadata ch b) ∧
      compAndEnqueue ch b newNode =
        if b.frameIdx < (afterMetadata ch b).expectedFrameId then
          some (0, ch₁, es₁ ++ [.qbuf b])
        else
          let r := enqueueLocked (afterMetadata ch b) (ch.queue.bundledStreams.idxOf b.streamId) b
            newNode
          some (0, { ch₁ with queue := r.1 }, es₁ ++ r.2) := by
  obtain ⟨ch₁, es₁, heq, hq, hset, hms⟩ := handleMetadata_accept mem hmem hr
  refine ⟨ch₁, es₁, hq, hset, hms, ?_⟩
  rw [compAndEnqueue, if_neg (by rw [idxOf_eq_numStreams_iff]; exact not_not.mpr hmem), heq]
  simp only [Option.bind_eq_bind, Option.bind_some, hq, utilSeqCompWRollover_neg]
  rfl

/-- **One buffer** handed to `compAndEnqueue`: a sequence of moves that takes it
in and loses `lostBy`. -/
theorem compAndEnqueue_moves (b : BufInfo) (mem : Mem) (h : Shape ch.queue M U) :
    ∃ rc ch' es, compAndEnqueue ch b mem.newNode = some (rc, ch', es) ∧ ch.SameSetup ch' ∧
      Moves (cmdCtx ch (.dataCb b) mem) ch.queue [b] (bufEffects es) (lostBy ch (.dataCb b))
        ch'.queue := by
  by_cases hrefuse : b.streamId ∉ ch.queue.bundledStreams ∨ metadataAction ch b = .reject
  · refine ⟨-1, ch, [], compAndEnqueue_refused _ hrefuse, ⟨rfl, rfl⟩, ?_⟩
    rw [lostBy, if_pos hrefuse]
    exact (Move.lose b).moves
  rw [lostBy, if_neg hrefuse]
  rw [not_or, not_not] at hrefuse
  obtain ⟨hmem, hr⟩ := hrefuse
  obtain ⟨ch₁, es₁, hq, hset, hms, heq⟩ := compAndEnqueue_accepted mem mem.newNode hmem hr
  rw [heq]
  by_cases hold : b.frameIdx < (afterMetadata ch b).expectedFrameId
  · rw [if_pos hold, if_pos hold]
    refine ⟨_, _, _, rfl, hset, ?_⟩
    rw [hq, bufEffects_append, show bufEffects [.qbuf b] = [.qbuf b] from rfl]
    simpa using hms.trans (Move.discard b).moves
  · rw [if_neg hold, if_neg hold]
    obtain ⟨M', U', hshape, -⟩ := hms.shape h
    have hget : (afterMetadata ch b).bundledStreams[ch.queue.bundledStreams.idxOf b.streamId]? =
        some b.streamId := by
      rw [afterMetadata_bundledStreams,
        List.getElem?_eq_getElem (List.idxOf_lt_length_iff.mpr hmem), List.getElem_idxOf]
    have hexp := UInt32.not_lt.mp hold
    have hnum : (afterMetadata ch b).numStreams = ch.queue.numStreams := by
      rw [Queue.numStreams, Queue.numStreams, afterMetadata_bundledStreams]
    have henq := enqueueLocked_moves
      (cmdCtx ch (.dataCb b) mem) mem.newNode hshape hget hexp (by
      rintro (⟨hone, hnew⟩ | hcompl)
      · exact ⟨rfl, hmem, hr, by rwa [← afterMetadata_expectedFrameId hmem],
          .inl ⟨hnum ▸ hone, hnew⟩⟩
      · exact ⟨rfl, hmem, hr, by rwa [← afterMetadata_expectedFrameId hmem],
          .inr (completes_afterMetadata hcompl)⟩)
    refine ⟨_, _, _, rfl, hset, ?_⟩
    rw [bufEffects_append, henq.bufEffects_eq]
    simpa using hms.trans henq

theorem overflowAndDispatch_bounded (ctx : Ctx) {mem : Mem} (hctx : ctx.ample → mem.AllOk)
    (h : Shape ch.queue M U) (hM : M.length ≤ 256) :
    ∃ ch' es l, overflowAndDispatch ch mem = some (ch', es) ∧ ch.SameSetup ch' ∧
      Moves ctx ch.queue [] (bufEffects es) l ch'.queue ∧ (ctx.ample → l = []) ∧
      ∃ M' U', Shape ch'.queue M' U' ∧ M'.length ≤ 255 := by
  obtain ⟨k, hk, ch', es, l, heq, hq, hset, hle, hl, hms⟩ :=
    overflowAndDispatch_moves hctx h (by omega)
  refine ⟨ch', es, l, heq, hset, hms, hl, M.drop k, U, ?_, ?_⟩
  · rw [hq]
    exact h.pop hk
  · rw [List.length_drop]
    exact hle

theorem requestData_moves (ctx : Ctx) (num : UInt32)
    (h : Shape ch.queue M U) (hM : M.length ≤ 255) :
    ∃ ch' es, requestData ch num = some (ch', es) ∧ ch.SameSetup ch' ∧
      Moves ctx ch.queue [] (bufEffects es) [] ch'.queue := by
  obtain ⟨k, -, es, heq, hms⟩ := superbufSkip_moves ctx h (by omega)
  rw [requestData, heq]
  simp only [Option.bind_eq_bind, Option.bind_some]
  split
  · refine ⟨_, _, rfl, ⟨rfl, rfl⟩, ?_⟩
    simpa [bufEffects] using hms
  · split
    · refine ⟨_, _, rfl, ⟨rfl, rfl⟩, ?_⟩
      simpa [bufEffects] using hms
    · exact ⟨_, _, rfl, ⟨rfl, rfl⟩, hms⟩

theorem Channel.SameSetup.trans {ch ch' ch'' : Channel} (h : ch.SameSetup ch')
    (h' : ch'.SameSetup ch'') : ch.SameSetup ch'' :=
  ⟨h'.1.trans h.1, h'.2.trans h.2⟩

/-- **Every command ends and is a sequence of moves.**  It takes in the buffer
it hands over, loses `lostBy` (if allocations succeed), and leaves the queue in
shape with at most 255 matched superbufs. -/
theorem processStreamBuf_moves (cmd : Cmd) (mem : Mem) (h : Shape ch.queue M U)
    (hM : M.length ≤ 255) :
    ∃ ch' es l, processStreamBuf ch (cmd, mem) = some (ch', es) ∧ ch.SameSetup ch' ∧
      Moves (cmdCtx ch cmd mem) ch.queue cmd.taken (bufEffects es) l ch'.queue ∧
      (mem.AllOk → l = lostBy ch cmd) ∧
      ∃ M' U', Shape ch'.queue M' U' ∧ M'.length ≤ 255 := by
  cases cmd with
  | dataCb b =>
    obtain ⟨rc, ch₁, es₁, heq₁, hset₁, hms₁⟩ := compAndEnqueue_moves b mem h
    obtain ⟨M₁, U₁, h₁, hle₁⟩ := hms₁.shape h
    obtain ⟨ch', es, l, heq, hset, hms, hl, hshape⟩ := overflowAndDispatch_bounded
      (cmdCtx ch (.dataCb b) mem) id h₁ (by simp at hle₁; omega)
    refine ⟨ch', es₁ ++ es, lostBy ch (.dataCb b) ++ l, ?_, hset₁.trans hset, ?_, ?_, hshape⟩
    · simp only [processStreamBuf, heq₁, Option.bind_eq_bind, Option.bind_some, heq]
      rfl
    · rw [bufEffects_append]
      exact hms₁.trans hms
    · intro hok
      rw [hl hok, List.append_nil]
  | reqDataCb num =>
    obtain ⟨ch₁, es₁, heq₁, hset₁, hms₁⟩ :=
      requestData_moves (cmdCtx ch (.reqDataCb num) mem) num h hM
    obtain ⟨M₁, U₁, h₁, hle₁⟩ := hms₁.shape h
    obtain ⟨ch', es, l, heq, hset, hms, hl, hshape⟩ := overflowAndDispatch_bounded
      (cmdCtx ch (.reqDataCb num) mem) id h₁ (by simp at hle₁; omega)
    refine ⟨ch', es₁ ++ es, l, ?_, hset₁.trans hset, ?_, ?_, hshape⟩
    · simp only [processStreamBuf, heq₁, Option.bind_eq_bind, Option.bind_some, heq]
      rfl
    · rw [bufEffects_append]
      exact hms₁.trans hms
    · intro hok
      rw [hl hok]
      rfl
  | configNotify m =>
    have hmode : Move (cmdCtx ch (.configNotify m) mem) ch.queue [] [] []
        { ch.queue with attr := { ch.queue.attr with notifyMode := m } } := .mode m
    obtain ⟨M₁, U₁, h₁, hle₁⟩ := hmode.shape h
    have h₁' : Shape { ch with queue :=
        { ch.queue with attr := { ch.queue.attr with notifyMode := m } } }.queue M₁ U₁ := h₁
    obtain ⟨ch', es, l, heq, hset, hms, hl, hshape⟩ := overflowAndDispatch_bounded
      (cmdCtx ch (.configNotify m) mem) id h₁' (by simp at hle₁; omega)
    exact ⟨ch', es, _, heq, hset, hmode.moves.trans hms, hl, hshape⟩
  | flushQueue f =>
    have hasks : (cmdCtx ch (.flushQueue f) mem).asks ch.queue.expectedFrameId f := ⟨rfl, rfl⟩
    have hexpect : Move (cmdCtx ch (.flushQueue f) mem) ch.queue [] [] []
        { ch.queue with expectedFrameId := f } := .expect hasks
    have hms := hexpect.moves.trans (release_moves _ le_rfl)
    obtain ⟨M', U', hshape, hle⟩ := hms.shape h
    refine ⟨{ ch with
        queue := { ch.queue with expectedFrameId := f }.pop ch.queue.que.length },
      ch.queue.que.flatMap bufdone, [], ?_, ⟨rfl, rfl⟩, ?_, fun _ => rfl,
      M', U', hshape, by simp at hle; omega⟩
    · simp only [processStreamBuf, superbufFlush_eq, Option.bind_eq_bind, Option.bind_some]
      rfl
    · rw [bufEffects_flatMap_bufdone]
      simpa [Cmd.taken] using hms

end Commands

/-! ### Runs -/

/-- The queue invariant of reachable states. -/
def Channel.Good (ch : Channel) : Prop := ∃ M U, Shape ch.queue M U ∧ M.length ≤ 255

theorem Channel.Good.of_fresh {ch : Channel} (h : ch.queue.Fresh) : ch.Good :=
  ⟨[], [], .of_fresh h, by simp⟩

theorem Channel.Good.step {ch ch' : Channel} {inp : Cmd × Mem} {es : List Effect} (h : ch.Good)
    (hs : processStreamBuf ch inp = some (ch', es)) : ch'.Good := by
  obtain ⟨M, U, hshape, hM⟩ := h
  obtain ⟨ch₁, es₁, l, heq, -, -, -, hgood⟩ := processStreamBuf_moves inp.1 inp.2 hshape hM
  rw [hs, Option.some.injEq, Prod.mk.injEq] at heq
  rw [heq.1]
  exact hgood

theorem Channel.Good.of_runs {ch₀ ch : Channel} {G : Channel → Cmd × Mem → Prop}
    {is : List (Cmd × Mem)} {os : List Effect} (h₀ : ch₀.queue.Fresh)
    (h : Runs processStreamBuf G ch₀ is os ch) : ch.Good :=
  h.inv (fun _ _ ch => ch.Good) (.of_fresh h₀) (fun _ _ _ _ _ _ hg _ hs => hg.step hs)

/-- **The shape of the queue.**  In every state the command thread can reach the
queue is the matched superbufs followed by the unmatched ones, `match_cnt` is
the number of the former, `que.size` the length of the list, the frame numbers
of the latter increase, and whatever command comes next, its loops end. -/
theorem superbuf_queue_shape {ch₀ ch : Channel} {is : List (Cmd × Mem)} {os : List Effect}
    (h₀ : ch₀.queue.Fresh) (h : Runs processStreamBuf (fun _ _ => True) ch₀ is os ch) :
    (∃ M U, ch.queue.que = M ++ U ∧ (∀ n ∈ M, n.matched = true) ∧
      (∀ n ∈ U, n.matched = false) ∧ ch.queue.matchCnt.toNat = M.length ∧
      ch.queue.size = UInt32.ofNat ch.queue.que.length ∧
      U.Pairwise fun m n => m.frameIdx < n.frameIdx) ∧
    ∀ inp, ∃ r, processStreamBuf ch inp = some r := by
  obtain ⟨M, U, hshape, hM⟩ := Channel.Good.of_runs h₀ h
  refine ⟨⟨M, U, hshape.que_eq, hshape.matched, hshape.unmatched, ?_, hshape.size_eq,
    hshape.sorted⟩, ?_⟩
  · rw [hshape.matchCnt_eq, UInt32.toNat_ofNat', Nat.mod_eq_of_lt (by omega)]
  · intro inp
    obtain ⟨ch', es, l, heq, -⟩ := processStreamBuf_moves inp.1 inp.2 hshape hM
    exact ⟨(ch', es), heq⟩

/-- A channel with a preview and a snapshot stream, handles 1 and 2, in burst
mode. -/
def sampleChannel : Channel where
  queue := { que := [], size := 0, bundledStreams := [1, 2], attr := ⟨.burst, 2, 2, 1, 3⟩,
             expectedFrameId := 0, matchCnt := 0 }
  superBufNotifyCb := true
  pendingCnt := 0
  startZslSnapshotCalled := false
  needLedFlash := false
  streams := [⟨1, true, some .preview⟩, ⟨2, true, some .snapshot⟩]

def sampleBuf (streamId frameIdx : UInt32) : BufInfo := ⟨streamId, frameIdx, 0, none⟩

theorem superbuf_queue_shape_sample : ∃ ch os,
    Runs processStreamBuf (fun _ _ => True) sampleChannel
      [(.dataCb (sampleBuf 1 7), .ample), (.dataCb (sampleBuf 1 5), .ample),
        (.dataCb (sampleBuf 2 7), .ample), (.dataCb (sampleBuf 1 9), .ample)] os ch ∧
    ∀ inp, ∃ r, processStreamBuf ch inp = some r := by
  obtain ⟨ch, os, h⟩ := exists_runs_of_exec processStreamBuf sampleChannel
    [(.dataCb (sampleBuf 1 7), .ample), (.dataCb (sampleBuf 1 5), .ample),
      (.dataCb (sampleBuf 2 7), .ample), (.dataCb (sampleBuf 1 9), .ample)] (by decide)
  exact ⟨ch, os, h, (superbuf_queue_shape ⟨rfl, rfl, rfl⟩ h).2⟩

end Superbuf

/-
The snapshots that a channel starts and stops, `mm_camera_channel.c`.

A request for superbufs starts the snapshot of the sensor if the metadata have
asked for the flash; it is stopped with the last superbuf of the request, or by a
request for none.  Two flags of the channel keep track of it: `need_led_flash` is
set by the metadata, `start_zsl_snapshot_called` by the start.

* `snapshotAfter` — what a sequence of calls leaves, if starts and stops alternate;
* `snapshot_calls_alternate` — starts and stops alternate in every run, and a
  request for no superbufs leaves no snapshot started.
-/
import HdxCommon.SuperbufShape

namespace Superbuf

/-! ### Alternating calls -/

/-- What the calls in a list of effects leave, from a state in which a snapshot is
started or not: `none` if one is started twice, or stopped without a start. -/
def snapshotAfter : Bool → List Effect → Option Bool
  | started, [] => some started
  | started, .startZslSnapshot :: es => if started then none else snapshotAfter true es
  | started, .stopZslSnapshot :: es => if started then snapshotAfter false es else none
  | started, .qbuf _ :: es => snapshotAfter started es
  | started, .superbufCb _ :: es => snapshotAfter started es
  | started, .matched _ :: es => snapshotAfter started es

section Calls

variable {started started' r : Bool} {es es' : List Effect}

theorem snapshotAfter_append (started : Bool) (es es' : List Effect) :
    snapshotAfter started (es ++ es') =
      (snapshotAfter started es).bind fun r => snapshotAfter r es' := by
  induction es generalizing started with
  | nil => rfl
  | cons e es ih =>
    cases e with
    | startZslSnapshot =>
      cases started with
      | true => rfl
      | false => exact ih true
    | stopZslSnapshot =>
      cases started with
      | true => exact ih false
      | false => rfl
    | qbuf b | superbufCb bufs | matched f => exact ih started

theorem snapshotAfter_trans (h : snapshotAfter started es = some r)
    (h' : snapshotAfter r es' = some started') :
    snapshotAfter started (es ++ es') = some started' := by
  rw [snapshotAfter_append, h, Option.bind_some, h']

def Silent (es : List Effect) : Prop := ∀ started, snapshotAfter started es = some started

theorem Silent.append (h : Silent es) (h' : Silent es') : Silent (es ++ es') :=
  fun started => snapshotAfter_trans (h started) (h' started)

theorem silent_nil : Silent [] := fun _ => rfl

theorem silent_map_qbuf (bs : List BufInfo) : Silent (bs.map .qbuf) := by
  intro started
  induction bs with
  | nil => rfl
  | cons b bs ih => exact ih

theorem silent_bufdone (n : Node) : Silent (bufdone n) := by
  rw [bufdone_eq]
  exact silent_map_qbuf _

theorem silent_bufdoneNonzero (n : Node) : Silent (bufdoneNonzero n) := by
  rw [bufdoneNonzero_eq]
  exact silent_map_qbuf _

theorem silent_flatMap {f : Node → List Effect} (hf : ∀ n, Silent (f n)) (ns : List Node) :
    Silent (ns.flatMap f) := by
  induction ns with
  | nil => exact silent_nil
  | cons n ns ih => exact (hf n).append ih

end Calls

/-! ### What makes no call -/

section Quiet

variable {q q' : Queue} {ch ch' : Channel} {b : BufInfo} {idx : ℕ} {es : List Effect}

theorem silent_drain (bound : UInt8) {n : ℕ}
    (h : loop (drainRound bound) n (q, []) = some (q', es)) :
    Silent es := by
  refine loop_inv (fun s => Silent s.2) ?_ h silent_nil
  rintro ⟨q, es⟩ ⟨q', es'⟩ hes hround
  simp only [drainRound] at hround
  split at hround
  · split at hround
    · cases hround
      exact Silent.append hes (silent_bufdone _)
    · cases hround
      exact hes
  · exact absurd hround (by simp)

theorem silent_superbufBufdoneOverflow (h : superbufBufdoneOverflow q = some (q', es)) :
    Silent es := by
  rw [superbufBufdoneOverflow] at h
  split at h
  · cases h
    exact silent_nil
  · exact silent_drain _ h

theorem silent_superbufSkip (h : superbufSkip q = some (q', es)) : Silent es := by
  rw [superbufSkip] at h
  split at h
  · cases h
    exact silent_nil
  · exact silent_drain _ h

theorem silent_superbufFlush (h : superbufFlush q = some (q', es)) : Silent es := by
  rw [superbufFlush_eq] at h
  cases h
  exact silent_flatMap silent_bufdone _

theorem silent_insertNew (q : Queue) (idx : ℕ) (b : BufInfo) (pos : Option ℕ) :
    Silent (insertNew q idx b pos).2 := by
  rw [insertNew]
  split
  · exact fun _ => rfl
  · exact silent_nil

theorem silent_fillFound (q : Queue) (idx : ℕ) (b : BufInfo) (s : Scan) (pos : ℕ) (n : Node) :
    Silent (fillFound q idx b s pos n).2 := by
  simp only [fillFound]
  split
  · split
    · exact fun _ => rfl
    · exact silent_flatMap silent_bufdoneNonzero _
  · exact silent_nil

theorem silent_enqueueNew (q : Queue) (idx : ℕ) (b : BufInfo) (s : Scan) (newNode : Bool) :
    Silent (enqueueNew q idx b s newNode).2 := by
  have hback : Silent [.qbuf b] := fun _ => rfl
  simp only [enqueueNew]
  split
  · split
    · exact hback
    · split
      · exact (silent_bufdoneNonzero _).append (silent_insertNew _ _ _ _)
      · exact (silent_bufdoneNonzero _).append hback
  · split
    · exact silent_insertNew _ _ _ _
    · exact hback

theorem silent_enqueueLocked (q : Queue) (idx : ℕ) (b : BufInfo) (newNode : Bool) :
    Silent (enqueueLocked q idx b newNode).2 := by
  simp only [enqueueLocked]
  split
  · exact silent_fillFound _ _ _ _ _ _
  · exact silent_enqueueNew _ _ _ _ _

theorem handleMetadata_silent {rc : ℤ} (h : handleMetadata ch b = some (rc, ch', es)) :
    ch'.startZslSnapshotCalled = ch.startZslSnapshotCalled ∧ Silent es := by
  rw [handleMetadata_eq] at h
  cases hact : metadataAction ch b with
  | futureFrame =>
    simp only [hact] at h
    obtain ⟨-, rfl, rfl⟩ := Option.some.inj h
    exact ⟨rfl, silent_flatMap silent_bufdone _⟩
  | _ =>
    simp only [hact] at h
    obtain ⟨-, rfl, rfl⟩ := Option.some.inj h
    exact ⟨rfl, silent_nil⟩

theorem compAndEnqueue_silent {rc : ℤ} {newNode : Bool}
    (h : compAndEnqueue ch b newNode = some (rc, ch', es)) :
    ch'.startZslSnapshotCalled = ch.startZslSnapshotCalled ∧ Silent es := by
  rw [compAndEnqueue] at h
  split at h
  · obtain ⟨-, rfl, rfl⟩ := Option.some.inj h
    exact ⟨rfl, silent_nil⟩
  · simp only [Option.bind_eq_bind, Option.bind_eq_some_iff, Prod.exists] at h
    obtain ⟨rc₁, ch₁, es₁, hmeta, h⟩ := h
    obtain ⟨hflag, hes₁⟩ := handleMetadata_silent hmeta
    split at h
    · obtain ⟨-, rfl, rfl⟩ := Option.some.inj h
      exact ⟨hflag, hes₁⟩
    · split at h
      · obtain ⟨-, rfl, rfl⟩ := Option.some.inj h
        exact ⟨hflag, hes₁.append fun _ => rfl⟩
      · obtain ⟨-, rfl, rfl⟩ := Option.some.inj h
        exact ⟨hflag, hes₁.append (silent_enqueueLocked _ _ _ _)⟩

theorem silent_sendSuperbuf (ch : Channel) (mem : Mem) (k : ℕ) (n : Node) :
    Silent (sendSuperbuf ch mem k n) := by
  rw [sendSuperbuf]
  split_ifs
  · exact fun _ => rfl
  · exact silent_nil
  all_goals exact silent_bufdone n

end Quiet

/-! ### The flag says what the calls have left -/

section Commands

variable {ch ch' : Channel} {es : List Effect} {mem : Mem} {started : Bool}

/-- The calls of `es` alternate and lead from the first flag to the second, and
start nothing that is still started in the end. -/
structure Stops (started : Bool) (es : List Effect) (started' : Bool) : Prop where
  after : snapshotAfter started es = some started'
  was_started : started' = true → started = true

theorem Silent.stops (h : Silent es) (started : Bool) : Stops started es started :=
  ⟨h started, id⟩

theorem Stops.trans {started' started'' : Bool} {es' : List Effect} (h : Stops started es started')
    (h' : Stops started' es' started'') : Stops started (es ++ es') started'' :=
  ⟨snapshotAfter_trans h.after h'.after, fun hs => h.was_started (h'.was_started hs)⟩

theorem countDispatched_stops (mode : NotifyMode) (ch : Channel) :
    Stops ch.startZslSnapshotCalled (countDispatched mode ch).2
      (countDispatched mode ch).1.startZslSnapshotCalled := by
  simp only [countDispatched]
  split_ifs with hmode hstop
  · rw [hstop.2]
    exact ⟨rfl, fun _ => rfl⟩
  all_goals exact silent_nil.stops _

theorem dispatch_stops (h : dispatch ch mem = some (ch', es)) :
    Stops ch.startZslSnapshotCalled es ch'.startZslSnapshotCalled := by
  simp only [dispatch, Option.bind_eq_bind, Option.bind_eq_some_iff, Prod.exists] at h
  obtain ⟨ch₁, k, es₁, hloop, h⟩ := h
  cases h
  refine loop_inv (fun s => Stops ch.startZslSnapshotCalled s.2.2 s.1.startZslSnapshotCalled) ?_
    hloop (silent_nil.stops _)
  rintro ⟨ch₁, k, es⟩ ⟨ch₂, k', es'⟩ hes hround
  simp only [dispatchRound] at hround
  split at hround
  swap
  · exact absurd hround (by simp)
  split at hround
  · exact absurd hround (by simp)
  next n q hdeq =>
    obtain ⟨rfl, -, rfl⟩ := Option.some.inj hround
    have hcount := countDispatched_stops ch.queue.attr.notifyMode { ch₁ with queue := q }
    exact (hes.trans hcount).trans ((silent_sendSuperbuf _ _ _ _).stops _)

theorem overflowAndDispatch_stops (h : overflowAndDispatch ch mem = some (ch', es)) :
    Stops ch.startZslSnapshotCalled es ch'.startZslSnapshotCalled := by
  simp only [overflowAndDispatch, Option.bind_eq_bind, Option.bind_eq_some_iff, Prod.exists] at h
  obtain ⟨q, es₁, hover, ch₂, es₂, hdis, h⟩ := h
  cases h
  have hes₂ := dispatch_stops hdis
  exact ((silent_superbufBufdoneOverflow hover).stops _).trans hes₂

/-- A request does not find a snapshot started when it is to start one. -/
def StartsOnce (ch : Channel) : Cmd × Mem → Prop
  | (.reqDataCb num, _) => ¬ (0 < num ∧ ch.needLedFlash ∧ ch.startZslSnapshotCalled)
  | _ => True

instance (ch : Channel) : (inp : Cmd × Mem) → Decidable (StartsOnce ch inp)
  | (.reqDataCb _, _) => inferInstanceAs (Decidable (¬ _))
  | (.dataCb _, _) => .isTrue trivial
  | (.configNotify _, _) => .isTrue trivial
  | (.flushQueue _, _) => .isTrue trivial

theorem requestData_snapshot {num : UInt32} (hG : StartsOnce ch (.reqDataCb num, mem))
    (h : requestData ch num = some (ch', es)) :
    snapshotAfter ch.startZslSnapshotCalled es = some ch'.startZslSnapshotCalled := by
  simp only [requestData, Option.bind_eq_bind, Option.bind_eq_some_iff, Prod.exists] at h
  obtain ⟨q, es₁, hskip, h⟩ := h
  have hes₁ := silent_superbufSkip hskip ch.startZslSnapshotCalled
  split_ifs at h with hstart hstop
  · cases h
    have hnot : ch.startZslSnapshotCalled = false :=
      Bool.eq_false_iff.mpr fun hcalled => hG ⟨hstart.1, hstart.2, hcalled⟩
    refine snapshotAfter_trans hes₁ ?_
    rw [hnot]
    rfl
  · cases h
    refine snapshotAfter_trans hes₁ ?_
    rw [show ch.startZslSnapshotCalled = true from hstop.2]
    rfl
  · cases h
    exact hes₁

/-- **One command.**  The flag says whether a snapshot is started, before and
after it. -/
theorem processStreamBuf_snapshot {inp : Cmd × Mem} (hG : StartsOnce ch inp)
    (h : processStreamBuf ch inp = some (ch', es)) :
    snapshotAfter ch.startZslSnapshotCalled es = some ch'.startZslSnapshotCalled := by
  obtain ⟨cmd, mem⟩ := inp
  cases cmd with
  | dataCb b =>
    simp only [processStreamBuf, Option.bind_eq_bind, Option.bind_eq_some_iff, Prod.exists] at h
    obtain ⟨rc, ch₁, es₁, hcomp, ch₂, es₂, hover, h⟩ := h
    cases h
    obtain ⟨hflag, hes₁⟩ := compAndEnqueue_silent hcomp
    rw [← hflag]
    exact snapshotAfter_trans (hes₁ _) (overflowAndDispatch_stops hover).after
  | reqDataCb num =>
    simp only [processStreamBuf, Option.bind_eq_bind, Option.bind_eq_some_iff, Prod.exists] at h
    obtain ⟨ch₁, es₁, hreq, ch₂, es₂, hover, h⟩ := h
    cases h
    exact snapshotAfter_trans (requestData_snapshot hG hreq) (overflowAndDispatch_stops hover).after
  | configNotify mode =>
    have hes := @overflowAndDispatch_stops { ch with
      queue := { ch.queue with attr := { ch.queue.attr with notifyMode := mode } } } ch' es mem h
    exact hes.after
  | flushQueue f =>
    simp only [processStreamBuf, Option.bind_eq_bind, Option.bind_eq_some_iff, Prod.exists] at h
    obtain ⟨q, es₁, hflush, h⟩ := h
    cases h
    exact silent_superbufFlush hflush _

theorem reqDataCb_zero_snapshot (h : processStreamBuf ch (.reqDataCb 0, mem) = some (ch', es)) :
    ch'.startZslSnapshotCalled = false := by
  simp only [processStreamBuf, Option.bind_eq_bind, Option.bind_eq_some_iff, Prod.exists] at h
  obtain ⟨ch₁, es₁, hreq, ch₂, es₂, hover, h⟩ := h
  cases h
  have hoff : ch₁.startZslSnapshotCalled = false := by
    simp only [requestData, Option.bind_eq_bind, Option.bind_eq_some_iff, Prod.exists] at hreq
    obtain ⟨q, es₁, hskip, h⟩ := hreq
    split_ifs at h with hstart hstop
    · exact absurd hstart.1 (by decide)
    · cases h
      rfl
    · cases h
      exact Bool.eq_false_iff.mpr fun hcalled => hstop ⟨trivial, hcalled⟩
  -- what is dispatched afterwards starts nothing
  have hes₂ := overflowAndDispatch_stops hover
  exact Bool.eq_false_iff.mpr fun hcalled =>
    Bool.false_ne_true (hoff.symm.trans (hes₂.was_started hcalled))

end Commands

/-! ### Runs -/

/-- **Starts and stops alternate.**  In every run in which no request finds both
flags set, the calls are a start, a stop, a start and so on, the flag says whether
a snapshot is started, and after a request for no superbufs none is. -/
theorem snapshot_calls_alternate {ch₀ ch : Channel} {is : List (Cmd × Mem)} {os : List Effect}
    (h₀ : ch₀.startZslSnapshotCalled = false) (h : Runs processStreamBuf StartsOnce ch₀ is os ch) :
    snapshotAfter false os = some ch.startZslSnapshotCalled ∧
    ∀ mem ch' es, processStreamBuf ch (.reqDataCb 0, mem) = some (ch', es) →
      snapshotAfter false (os ++ es) = some false := by
  have hos : snapshotAfter false os = some ch.startZslSnapshotCalled := by
    refine h.inv (fun _ os ch => snapshotAfter false os = some ch.startZslSnapshotCalled) ?_ ?_
    · rw [h₀]
      rfl
    · rintro _ os ch inp ch' es hos hG hs
      exact snapshotAfter_trans hos (processStreamBuf_snapshot hG hs)
  refine ⟨hos, fun mem ch' es hs => ?_⟩
  have hG : StartsOnce ch (.reqDataCb 0, mem) := fun hstart => absurd hstart.1 (by decide)
  have hes := snapshotAfter_trans hos (processStreamBuf_snapshot hG hs)
  rwa [reqDataCb_zero_snapshot hs] at hes

/-- `sampleChannel` with metadata in place of the snapshots. -/
def flashChannel : Channel :=
  { sampleChannel with streams := [⟨1, true, some .preview⟩, ⟨2, true, some .metadata⟩] }

/-- Metadata that ask for a future frame, and so for the flash. -/
def flashBuf (bufIdx : ℕ) (frameIdx : UInt32) : BufInfo :=
  ⟨2, frameIdx, bufIdx, some ⟨true, .needFutureFrame, false, 0⟩⟩

/-- A request with the flash, which a request for no superbufs takes back. -/
theorem snapshot_calls_alternate_cancelled : ∃ ch ch' es,
    Runs processStreamBuf StartsOnce flashChannel
      [(.dataCb (flashBuf 0 7), .ample), (.reqDataCb 1, .ample)]
      [.qbuf (flashBuf 0 7), .startZslSnapshot] ch ∧
    processStreamBuf ch (.reqDataCb 0, .ample) = some (ch', es) ∧
    snapshotAfter false [.qbuf (flashBuf 0 7), .startZslSnapshot] =
      some ch.startZslSnapshotCalled ∧
    snapshotAfter false ([.qbuf (flashBuf 0 7), .startZslSnapshot] ++ es) = some false := by
  have hexec : exec processStreamBuf flashChannel
      [(.dataCb (flashBuf 0 7), .ample), (.reqDataCb 1, .ample)] =
      some ({ flashChannel with
        queue := { flashChannel.queue with expectedFrameId := 100 }
        pendingCnt := 1
        startZslSnapshotCalled := true }, [.qbuf (flashBuf 0 7), .startZslSnapshot]) := by
    decide
  have hrun := runs_of_exec_guarded (G := StartsOnce) .nil hexec (by decide)
  obtain ⟨hos, hzero⟩ := snapshot_calls_alternate rfl hrun
  have hs : processStreamBuf { flashChannel with
        queue := { flashChannel.queue with expectedFrameId := 100 }
        pendingCnt := 1
        startZslSnapshotCalled := true } (.reqDataCb 0, .ample) =
      some ({ flashChannel with queue := { flashChannel.queue with expectedFrameId := 100 } },
        [.stopZslSnapshot]) := by
    decide
  exact ⟨_, _, _, hrun, hs, hos, hzero _ _ _ hs⟩

/-- The flash is asked for again while a snapshot is started: the second request
starts it once more, and a request for no superbufs stops it only once. -/
theorem snapshot_started_twice : flashChannel.startZslSnapshotCalled = false ∧ ∃ ch,
    Runs processStreamBuf (fun _ _ => True) flashChannel
      [(.dataCb (flashBuf 0 7), .ample), (.reqDataCb 1, .ample), (.dataCb (flashBuf 1 8), .ample),
        (.reqDataCb 1, .ample), (.reqDataCb 0, .ample)]
      [.qbuf (flashBuf 0 7), .startZslSnapshot, .qbuf (flashBuf 1 8), .startZslSnapshot,
        .stopZslSnapshot] ch ∧
    snapshotAfter false [.qbuf (flashBuf 0 7), .startZslSnapshot, .qbuf (flashBuf 1 8),
      .startZslSnapshot, .stopZslSnapshot] = none := by
  have hexec : exec processStreamBuf flashChannel
      [(.dataCb (flashBuf 0 7), .ample), (.reqDataCb 1, .ample), (.dataCb (flashBuf 1 8), .ample),
        (.reqDataCb 1, .ample), (.reqDataCb 0, .ample)] =
      some ({ flashChannel with queue := { flashChannel.queue with expectedFrameId := 200 } },
        [.qbuf (flashBuf 0 7), .startZslSnapshot, .qbuf (flashBuf 1 8), .startZslSnapshot,
          .stopZslSnapshot]) := by
    decide
  exact ⟨rfl, _, runs_of_exec hexec, rfl⟩

end Superbuf

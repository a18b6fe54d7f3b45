/-
Stopping a channel and starting it again.

A second start should leave a bundled channel as the first one did.  It does
not: `mm_channel_stop` clears the whole bundle, with the superbuf callback and
the attributes the client gave, so the second start launches no thread, while
the streams stay marked as bundled.

* `restart_not_equiv` — no restart is equivalent to the start.
-/
import HdxCommon.BufRefcount

namespace Interface

open Superbuf (BufInfo Cmd Effect processStreamBuf)

/-! ### What a restart should give -/

/-- In every state the system reaches, every buffer of a streaming stream that
the kernel delivers can be received, and is taken by the bundle or by a data
callback. -/
def Serves (sys : System) : Prop :=
  ∀ evs given t, Runs System.step (fun _ _ => True) sys evs given t →
    ∀ b s, t.channel.getStream b.streamId = some s → s.state = .active →
      b.bufIdx ∈ s.device.queued → (s.isBundled ∨ s.hasCb) ∧ ∃ t', t.frame b = some t'

/-- The channel `c₂` after a restart is as `c₁` was after the start: attributes
and callback are the same, the threads run, queue, request and flash flags are
reset, and buffers are served. -/
def RestartEquiv (c₁ c₂ : ChannelObj) (client : List Handle) : Prop :=
  c₂.queue.attr = c₁.queue.attr ∧ c₂.superBufNotifyCb = c₁.superBufNotifyCb ∧
  c₂.cmdThread.isSome ∧ c₂.cbThread.isSome ∧
  c₂.queue.que = [] ∧ c₂.queue.expectedFrameId = 0 ∧ c₂.pendingCnt = 0 ∧
  c₂.needLedFlash = false ∧ c₂.startZslSnapshotCalled = false ∧
  Serves ⟨c₂, [], client⟩

section Restart

variable {env env' : UInt32 → StreamOps} {c c₁ : ChannelObj} {sys sys' : System}
  {evs : List Event} {given client : List Handle}

/-! ### What runs keep -/

theorem applyEffect_channel (sys : System) (e : Effect) :
    (sys.applyEffect e).channel.isActive = sys.channel.isActive ∧
      (sys.applyEffect e).channel.queue = sys.channel.queue := by
  cases e <;> exact ⟨rfl, rfl⟩

theorem foldl_applyEffect_channel (es : List Effect) (sys : System) :
    (es.foldl System.applyEffect sys).channel.isActive = sys.channel.isActive ∧
      (es.foldl System.applyEffect sys).channel.queue = sys.channel.queue := by
  induction es generalizing sys with
  | nil => exact ⟨rfl, rfl⟩
  | cons e es ih =>
    obtain ⟨hactive, hqueue⟩ := applyEffect_channel sys e
    have hrest := ih (sys.applyEffect e)
    exact ⟨hrest.1.trans hactive, hrest.2.trans hqueue⟩

/-- The matcher's part of the channel is in shape, and the bundle stays
active. -/
def Sane (c : ChannelObj) : Prop := c.matcher.Good ∧ c.isActive = true

theorem Sane.congr {c c' : ChannelObj} (h : Sane c) (hq : c'.queue = c.queue)
    (hactive : c'.isActive = c.isActive) : Sane c' := by
  obtain ⟨⟨M, U, hshape, hM⟩, hact⟩ := h
  refine ⟨⟨M, U, ?_, hM⟩, hactive.trans hact⟩
  show Superbuf.Shape c'.queue M U
  rw [hq]
  exact hshape

theorem Sane.step {ev : Event} (h : Sane sys.channel) (hs : sys.step ev = some (sys', given)) :
    Sane sys'.channel := by
  cases System.transition_of_step hs with
  | command hpend hcmds hproc =>
    obtain ⟨M, U, hshape, hM⟩ := h.1.step hproc
    exact ⟨⟨M, U, hshape, hM⟩, h.2⟩
  | @effect e es hpend =>
    obtain ⟨hactive, hqueue⟩ := applyEffect_channel sys e
    exact h.congr hqueue hactive
  | _ => exact h.congr rfl rfl

theorem Sane.of_start (h : c.Configured) (hcb : c.superBufNotifyCb = true)
    (hstart : c.start env = (0, c₁)) : Sane c₁ := by
  obtain ⟨rc, l, heq⟩ := start_eq env c
  rw [hstart] at heq
  rw [(Prod.mk.inj heq).2]
  obtain ⟨hfresh, -⟩ := prepare_bundle h
  refine ⟨.of_fresh hfresh, ?_⟩
  show c.prepare.isActive = true
  rw [ChannelObj.prepare, if_pos hcb]
  rfl

/-! ### The stop -/

/-- The command thread gets through its queue. -/
theorem exec_processStreamBuf_isSome {ch : Superbuf.Channel} (h : ch.Good)
    (is : List (Cmd × Superbuf.Mem)) : (exec processStreamBuf ch is).isSome := by
  induction is generalizing ch with
  | nil => rfl
  | cons i is ih =>
    obtain ⟨M, U, hshape, hM⟩ := h
    obtain ⟨ch', es, l, heq, -⟩ := Superbuf.processStreamBuf_moves i.1 i.2 hshape hM
    have hgood : ch'.Good := Superbuf.Channel.Good.step ⟨M, U, hshape, hM⟩ heq
    obtain ⟨⟨ch'', es'⟩, heq'⟩ := Option.isSome_iff_exists.mp (ih hgood)
    have hi : processStreamBuf ch i = some (ch', es) := heq
    simp [exec, hi, heq']

theorem foldl_stopStream_channel (env : UInt32 → StreamOps) (hdls : List UInt32) (sys : System) :
    (hdls.foldl (System.stopStream env) sys).channel.queue = sys.channel.queue ∧
      (hdls.foldl (System.stopStream env) sys).channel.isActive = sys.channel.isActive := by
  induction hdls generalizing sys with
  | nil => exact ⟨rfl, rfl⟩
  | cons hdl rest ih =>
    have hrest := ih (sys.stopStream env hdl)
    exact ⟨hrest.1.trans rfl, hrest.2.trans rfl⟩

theorem releaseCmdThread_isSome (h : Sane sys.channel) : ∃ t, sys.releaseCmdThread = some t := by
  obtain ⟨hactive, hqueue⟩ := foldl_applyEffect_channel sys.pending { sys with pending := [] }
  have hsane := h.congr hqueue hactive
  obtain ⟨⟨ch, es⟩, heq⟩ := Option.isSome_iff_exists.mp (exec_processStreamBuf_isSome hsane.1
    (((sys.pending.foldl System.applyEffect { sys with pending := [] }).channel.cmdThread.getD
      []).map fun cmd => (cmd, Superbuf.Mem.ample)))
  simp only [System.releaseCmdThread]
  rw [heq]
  exact ⟨_, rfl⟩

theorem stop_isSome (env : UInt32 → StreamOps) (h : Sane sys.channel) :
    ∃ sys', sys.stop env = some sys' ∧ sys'.channel.superBufNotifyCb = false := by
  obtain ⟨hqueue, hactive⟩ := foldl_stopStream_channel env sys.channel.stopOrder sys
  have hsane := h.congr hqueue hactive
  obtain ⟨t, ht⟩ := releaseCmdThread_isSome hsane
  obtain ⟨l, hl⟩ := modifyStreams_eq (fun hdl s => (s.fsmFn (env hdl) .putBuf).2)
    sys.channel.stopOrder t.releaseCbThread.channel.clearBundle
  simp only [System.stop, System.endBundle, hsane.2, if_true, ht, Option.bind_eq_bind,
    Option.bind_some, Option.pure_def]
  refine ⟨_, rfl, ?_⟩
  rw [hl]
  rfl

theorem start_superBufNotifyCb (env : UInt32 → StreamOps) (c : ChannelObj) :
    (c.start env).2.superBufNotifyCb = c.superBufNotifyCb := by
  obtain ⟨rc, l, heq⟩ := start_eq env c
  rw [heq]
  show c.prepare.superBufNotifyCb = _
  unfold ChannelObj.prepare
  split <;> rfl

/-- **A restart is never equivalent to the start.**  For every bundled channel
with configured streams, every run after its start and every outcome of the
calls: the channel can be stopped and started again, and is then not as it
was. -/
theorem restart_not_equiv (h : c.Configured) (hcb : c.superBufNotifyCb = true)
    (hstart : c.start env = (0, c₁))
    (hrun : Runs System.step (fun _ _ => True) ⟨c₁, [], client⟩ evs given sys)
    (env₁ env₂ : UInt32 → StreamOps) :
    ∃ sys', sys.stop env₁ = some sys' ∧
      ¬ RestartEquiv c₁ (sys'.channel.start env₂).2 sys'.client := by
  have hsane : Sane sys.channel := hrun.inv (fun _ _ sys => Sane sys.channel)
    (.of_start h hcb hstart) (fun _ _ _ _ _ _ hsane _ hs => hsane.step hs)
  obtain ⟨sys', hstop, hgone⟩ := stop_isSome env₁ hsane
  refine ⟨sys', hstop, ?_⟩
  rintro ⟨-, hsame, -⟩
  have hfirst := start_superBufNotifyCb env c
  rw [hstart, hcb] at hfirst
  rw [start_superBufNotifyCb, hgone, hfirst] at hsame
  cases hsame

end Restart

/-- A superbuf is requested between the start and the stop. -/
theorem restart_not_equiv_preview : ∃ sys,
    Runs System.step (fun _ _ => True)
      ⟨((previewChannel true true).start fun _ => ampleOps).2, [], []⟩
      [.request (.reqDataCb 1)] [] sys ∧
    ∃ sys', sys.stop (fun _ => ampleOps) = some sys' ∧
      ¬ RestartEquiv ((previewChannel true true).start fun _ => ampleOps).2
        (sys'.channel.start fun _ => ampleOps).2 sys'.client := by
  obtain ⟨sys, hstep⟩ : ∃ sys, System.step
      ⟨((previewChannel true true).start fun _ => ampleOps).2, [], []⟩
      (.request (.reqDataCb 1)) = some (sys, []) := ⟨_, rfl⟩
  have hrun := Runs.single (G := fun _ _ => True) trivial hstep
  exact ⟨sys, hrun, restart_not_equiv (previewChannel_configured true true) rfl
    (show (previewChannel true true).start (fun _ => ampleOps) = (0, _) from rfl) hrun _ _⟩

/-- Start, stop and start of the preview channel, with nothing in between and
every call successful: no thread runs, while the stream is still bundled. -/
theorem restart_loses_callback : (previewChannel true true).Configured ∧
    ((previewChannel true true).start fun _ => ampleOps).1 = 0 ∧
    ∃ sys', (⟨((previewChannel true true).start fun _ => ampleOps).2, [], []⟩ : System).stop
        (fun _ => ampleOps) = some sys' ∧
      (sys'.channel.start fun _ => ampleOps).1 = 0 ∧
      ((sys'.channel.start fun _ => ampleOps).2.streams.map (·.isBundled)) = [true] ∧
      ¬ RestartEquiv ((previewChannel true true).start fun _ => ampleOps).2
        (sys'.channel.start fun _ => ampleOps).2 sys'.client := by
  refine ⟨previewChannel_configured true true, rfl, _, rfl, rfl, rfl, ?_⟩
  rintro ⟨-, -, hcmd, -⟩
  cases hcmd

end Interface

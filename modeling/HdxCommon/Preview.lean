/-
Preview frames on the display, `preview_stream_cb_routine` and
`QCameraGrallocMemory`.

The buffers of the preview stream belong to the display window.  Some of them
stay with it from the start; the others go to the kernel.  A frame that comes
back from the kernel is given to the window, and a buffer that the window has
done with goes to the kernel in its place.

The HAL is a client of the channel (`System`): the buffers of preview frames
that wait for the callback, and those the window has, are held by the client.

* `Circulation` — each of these buffers is held once, and `mLocalFlag` says
  which of them the window has;
* `preview_buffers_circulate` — in every run in which the window takes the
  buffers it is given, each buffer is with the window, on its way to the
  callback, or back with the stream.
-/
import HdxCommon.BufRefcount
import HdxCommon.ChannelFsm

namespace Interface

open Superbuf (BufInfo Effect)

/-! ### The memory of the preview stream -/

/-- Whether the HAL owns a buffer, `BUFFER_OWNED` and `BUFFER_NOT_OWNED`. -/
inductive LocalFlag where
  | notOwned | owned
  deriving DecidableEq, Repr

/-- `QCameraGrallocMemory`, with the first `mBufferCount` entries of its arrays;
a `buffer_handle_t *` is a `UInt32`. -/
structure GrallocMemory where
  bufferHandle : List UInt32
  localFlag : List LocalFlag
  minUndequeuedBuffers : ℕ
  deriving DecidableEq

/-- The answers of the window and of the ION driver to `allocate`: the number of
buffers the window keeps, whether it accepts the settings, the buffers it gives
one after the other, and whether they can be imported. -/
structure AllocOps where
  minUndequeued : Option ℕ
  settings : Bool
  dequeueBuffer : ℕ → Option UInt32
  ionImport : ℕ → Bool

structure DisplayOps where
  enqueueBuffer : Bool
  dequeueBuffer : Option UInt32
  deriving DecidableEq

namespace GrallocMemory

/-- The loop of `allocate` that takes the buffers from the window, which has the
buffers `window`; `none` if the window gives one it does not have.  When it
fails, the buffers taken are given back, but not the one that cannot be
imported. -/
def allocLoop (ops : AllocOps) : ℕ → ℕ → List UInt32 → List UInt32 →
    Option (Bool × List UInt32 × List UInt32)
  | 0, _, handles, window => some (true, handles, window)
  | n + 1, cnt, handles, window =>
    match ops.dequeueBuffer cnt with
    | none => some (false, [], handles ++ window)
    | some hdl =>
      if hdl ∈ window then
        if ops.ionImport cnt then
          allocLoop ops n (cnt + 1) (handles ++ [hdl]) (window.erase hdl)
        else some (false, [], handles ++ window.erase hdl)
      else none

/-- `allocate`, and the buffers of the window after it.  The first buffers go
back to the window at once. -/
def allocate (ops : AllocOps) (count : ℕ) (window : List UInt32) :
    Option (Bool × GrallocMemory × List UInt32) :=
  match ops.minUndequeued, ops.settings with
  | some minUndequeued, true => do
    let (ok, handles, window) ← allocLoop ops (count + minUndequeued) 0 [] window
    if ok then
      return (true,
        ⟨handles, List.replicate minUndequeued .notOwned ++ List.replicate count .owned,
          minUndequeued⟩,
        handles.take minUndequeued ++ window)
    else return (false, ⟨[], [], minUndequeued⟩, window)
  | some minUndequeued, false => some (false, ⟨[], [], minUndequeued⟩, window)
  | none, _ => some (false, ⟨[], [], 0⟩, window)

/-- `getCnt`. -/
def getCnt (m : GrallocMemory) : ℕ := m.bufferHandle.length

/-- `getRegFlags`. -/
def getRegFlags (m : GrallocMemory) : List Bool :=
  List.replicate m.minUndequeuedBuffers false ++
    List.replicate (m.getCnt - m.minUndequeuedBuffers) true

/-- `displayBuffer`: the index of the buffer taken from the window, or `none`
for one of the error codes.  The result is `none` altogether if the window gives
a buffer it does not have. -/
def displayBuffer (ops : DisplayOps) (index : ℕ) (m : GrallocMemory) (window : List UInt32) :
    Option (Option ℕ × GrallocMemory × List UInt32) :=
  match m.localFlag[index]?, m.bufferHandle[index]? with
  | some .owned, some hdl =>
    let (m, window) :=
      if ops.enqueueBuffer then
        ({ m with localFlag := m.localFlag.set index .notOwned }, hdl :: window)
      else (m, window)
    match ops.dequeueBuffer with
    | none => some (none, m, window)
    | some hdl =>
      if hdl ∈ window then
        match m.bufferHandle.findIdx? fun h => h = hdl with
        | some i =>
          some (some i, { m with localFlag := m.localFlag.set i .owned }, window.erase hdl)
        | none => some (none, m, window.erase hdl)
      else none
  | _, _ => some (none, m, window)

end GrallocMemory

/-! ### The callback -/

/-- The HAL as far as the preview stream `hdl` is concerned: the channel, the
frames in the queue of the stream's thread (`mDataQ`), the preview buffers that
came in superbufs, the memory of the stream, and the buffers of the window. -/
structure Preview where
  sys : System
  hdl : UInt32
  dataQ : List ℕ
  superbufs : List ℕ
  mem : GrallocMemory
  window : List UInt32
  deriving DecidableEq

inductive PreviewEvt where
  /-- a step of the channel; `taken` says whether the thread of the preview
  stream takes a frame (it runs, and there is memory for the frame) -/
  | traffic (ev : Event) (taken : Bool)
  /-- the thread of the preview stream takes the next frame -/
  | callback (previewRunning : Bool) (ops : DisplayOps)

namespace Preview

/-- `QCameraStream::bufDone`. -/
def bufDone (p : Preview) (idx : ℕ) : Preview :=
  { p with
    sys := { p.sys with
      channel := p.sys.channel.qbuf (p.hdl, idx)
      client := p.sys.client.erase (p.hdl, idx) } }

/-- `QCameraStream::dataNotifyCB` and `processDataNotify`. -/
def dataNotifyCB (taken : Bool) (p : Preview) (h : Handle) : Preview :=
  if taken then { p with dataQ := p.dataQ ++ [h.2] } else p.bufDone h.2

/-- `preview_stream_cb_routine`: a frame that is not displayed goes back to the
kernel, else the buffer that comes from the window does. -/
def previewStreamCb (previewRunning : Bool) (ops : DisplayOps) (idx : ℕ) (p : Preview) :
    Option Preview :=
  if previewRunning then do
    let (dequeuedIdx, mem, window) ← p.mem.displayBuffer ops idx p.window
    let p := { p with mem := mem, window := window }
    return dequeuedIdx.elim p p.bufDone
  else some (p.bufDone idx)

/-- A step of the channel: frames of the preview stream are for its thread. -/
def traffic (p : Preview) (ev : Event) (taken : Bool) : Option Preview := do
  let (sys, given) ← p.sys.step ev
  let p := { p with sys := sys }
  match ev with
  | .data hdl => return if hdl = p.hdl then given.foldl (dataNotifyCB taken) p else p
  | .superbuf =>
    let mine := given.filter fun h => h.1 = p.hdl
    return { p with superbufs := p.superbufs ++ mine.map Prod.snd }
  | .qbuf h =>
    -- the client returns here what it does not return elsewhere
    if h.1 = p.hdl then
      if h.2 ∈ p.superbufs then return { p with superbufs := p.superbufs.erase h.2 } else none
    else return p
  | _ => return p

def step (p : Preview) : PreviewEvt → Option (Preview × List ℕ)
  | .traffic ev taken => do
    let p ← p.traffic ev taken
    return (p, [])
  | .callback previewRunning ops =>
    match p.dataQ with
    | [] => none
    | idx :: rest => do
      let p ← { p with dataQ := rest }.previewStreamCb previewRunning ops idx
      return (p, [idx])

end Preview

/-! ### The streams of the HAL -/

/-- The callbacks of a stream of the HAL: `dataNotifyCB`, for all buffers. -/
def halCallbacks : List DataCb := ⟨true, -1⟩ :: List.replicate 3 ⟨false, 0⟩

/-- A stream of the HAL; the buffers the kernel has, and those on the queue of
its thread, are buffers of the stream. -/
structure StreamObj.OfHal (s : StreamObj) : Prop where
  callbacks : s.bufCb = halCallbacks
  queued : ∀ i ∈ s.device.queued, (s.status i).isSome
  thread : ∀ b ∈ s.cmdThread.getD [], (s.status b.bufIdx).isSome

def ChannelObj.OfHal (c : ChannelObj) : Prop := ∀ hdl s, c.getStream hdl = some s → s.OfHal

section OfHal

variable {c : ChannelObj} {sys sys' : System} {s : StreamObj} {hdl : UInt32}
  {f : StreamObj → StreamObj} {given : List Handle}

theorem StreamObj.OfHal.hasCb (h : s.OfHal) : s.hasCb = true := by
  rw [StreamObj.hasCb, h.callbacks]
  rfl

theorem StreamObj.OfHal.calls (h : s.OfHal) : s.calls = 1 := by
  rw [StreamObj.calls, h.callbacks]
  rfl

theorem isSome_status_bufDone (s : StreamObj) (i j : ℕ) :
    ((s.bufDone i true).2.status j).isSome = (s.status j).isSome := by
  rw [status_bufDone, Option.isSome_map]

theorem mem_queued_bufDone {i j : ℕ} (hj : j ∈ (s.bufDone i true).2.device.queued) :
    j ∈ s.device.queued ∨ (s.status j).isSome := by
  unfold StreamObj.bufDone at hj
  cases hs : s.status i with
  | none =>
    rw [hs] at hj
    exact .inl hj
  | some st =>
    rw [hs] at hj
    simp only at hj
    split_ifs at hj
    · exact .inl hj
    · rcases List.mem_append.mp hj with hj | hj
      · exact .inl hj
      · rw [List.mem_singleton.mp hj, hs]
        exact .inr rfl
    · exact .inl hj

theorem StreamObj.OfHal.bufDone (h : s.OfHal) (i : ℕ) : (s.bufDone i true).2.OfHal := by
  obtain ⟨l, d, heq⟩ := bufDone_eq s i true
  refine ⟨?_, ?_, ?_⟩
  · rw [heq]
    exact h.callbacks
  · intro j hj
    rw [isSome_status_bufDone]
    exact (mem_queued_bufDone hj).elim (h.queued j) id
  · intro b hb
    rw [isSome_status_bufDone]
    rw [heq] at hb
    exact h.thread b hb

theorem StreamObj.OfHal.dataNotify {b : BufInfo} (h : s.OfHal) (hb : (s.status b.bufIdx).isSome) :
    (s.dataNotify b).OfHal := by
  refine ⟨h.callbacks, ?_, ?_⟩
  · intro j hj
    rw [status_dataNotify, Option.isSome_map]
    exact h.queued j (List.mem_of_mem_erase hj)
  · intro d hd
    rw [status_dataNotify, Option.isSome_map]
    have hcmd : (s.dataNotify b).cmdThread = s.cmdThread.map fun q => q ++ [b] := by
      simp [StreamObj.dataNotify, h.hasCb]
    rw [hcmd] at hd
    cases hq : s.cmdThread with
    | none => simp [hq] at hd
    | some q =>
      rw [hq, Option.map_some, Option.getD_some, List.mem_append] at hd
      rcases hd with hd | hd
      · exact h.thread d (by rw [hq]; exact hd)
      · rw [List.mem_singleton.mp hd]
        exact hb

theorem StreamObj.OfHal.dispatched {b : BufInfo} {rest : List BufInfo} (h : s.OfHal)
    (hq : s.cmdThread = some (b :: rest)) : (s.dispatched rest b).OfHal := by
  have hstatus : ∀ j, ((s.dispatched rest b).status j).isSome = (s.status j).isSome := by
    intro j
    rw [status_dispatched, Option.isSome_map]
  refine ⟨?_, ?_, ?_⟩
  · obtain ⟨l, d, heq⟩ := dispatched_eq rest b s
    rw [heq, h.callbacks]
    rfl
  · intro j hj
    rw [hstatus]
    rcases mem_queued_bufDone hj with hj | hj
    · exact h.queued j hj
    · rwa [status_runCallbacks, Option.isSome_map] at hj
  · intro d hd
    rw [hstatus]
    refine h.thread d ?_
    rw [hq]
    exact List.mem_cons_of_mem _ hd

theorem ChannelObj.OfHal.modify (h : c.OfHal) (hf : KeepsId f)
    (hone : ∀ s, c.getStream hdl = some s → (f s).OfHal) : (c.modifyStream hdl f).OfHal := by
  intro hdl' s hs
  by_cases heq : hdl' = hdl
  · subst heq
    rw [getStream_modifyStream_self hf, Option.map_eq_some_iff] at hs
    obtain ⟨t, ht, rfl⟩ := hs
    exact hone t ht
  · rw [getStream_modifyStream_of_ne hf heq] at hs
    exact h hdl' s hs

theorem ChannelObj.OfHal.qbuf (h : c.OfHal) (x : Handle) : (c.qbuf x).OfHal := by
  refine h.modify (keepsId_qbuf x.2) ?_
  intro s hs
  split
  · exact (h x.1 s hs).bufDone x.2
  · exact h x.1 s hs

theorem ChannelObj.OfHal.step {ev : Event} (h : sys.channel.OfHal)
    (hs : sys.step ev = some (sys', given)) : sys'.channel.OfHal := by
  cases System.transition_of_step hs with
  | @frame b s hget hq =>
    refine h.modify (keepsId_dataNotify b) ?_
    intro t ht
    obtain rfl := Option.some.inj (hget.symm.trans ht)
    exact (h _ s hget).dataNotify ((h _ s hget).queued _ hq)
  | @effect e =>
    cases e with
    | qbuf b => exact h.qbuf _
    | _ => exact h
  | @data hdl s b rest hget hq =>
    refine h.modify (keepsId_dispatched rest b) ?_
    intro t ht
    obtain rfl := Option.some.inj (hget.symm.trans ht)
    exact (h _ s hget).dispatched hq
  | qbuf => exact h.qbuf _
  | _ => exact h

theorem ChannelObj.OfHal.kept {ev : Event} (h : sys.channel.OfHal)
    (hcmd : ev = .command → Kept sys .command) : Kept sys ev := by
  cases ev with
  | frame hdl idx frameIdx metadata => exact fun s hs => .inr (h hdl s hs).hasCb
  | command => exact hcmd rfl
  | _ => trivial

end OfHal

/-! ### The window -/

namespace GrallocMemory

/-- How often the window has a buffer. -/
def inWindow (m : GrallocMemory) (window : List UInt32) (i : ℕ) : ℕ :=
  m.bufferHandle[i]?.elim 0 fun hdl => window.count hdl

/-- The handles are distinct, and the flags say which buffers the window has. -/
structure Flagged (m : GrallocMemory) (window : List UInt32) : Prop where
  handles : m.bufferHandle.Nodup
  once : ∀ i, m.inWindow window i ≤ 1
  flag : ∀ i < m.getCnt, m.localFlag[i]? =
    some (if m.inWindow window i = 0 then .owned else .notOwned)

variable {m m' : GrallocMemory} {window window' : List UInt32} {i j : ℕ} {hdl : UInt32}

theorem Flagged.handle_eq_iff (h : m.Flagged window) (hi : m.bufferHandle[i]? = some hdl) :
    m.bufferHandle[j]? = some hdl ↔ i = j := by
  obtain ⟨hlt, rfl⟩ := List.getElem?_eq_some_iff.mp hi
  constructor
  · intro hj
    obtain ⟨hlt', heq⟩ := List.getElem?_eq_some_iff.mp hj
    exact (h.handles.getElem_inj_iff.mp heq).symm
  · rintro rfl
    exact hi

theorem Flagged.set (h : m.Flagged window) {flag : LocalFlag}
    (hhandle : m'.bufferHandle = m.bufferHandle) (hflag : m'.localFlag = m.localFlag.set i flag)
    (hsame : ∀ j, j ≠ i → m'.inWindow window' j = m.inWindow window j)
    (hi : m'.inWindow window' i ≤ 1)
    (hset : flag = if m'.inWindow window' i = 0 then .owned else .notOwned) :
    m'.Flagged window' := by
  refine ⟨hhandle ▸ h.handles, ?_, ?_⟩
  · intro j
    by_cases hj : j = i
    · rw [hj]
      exact hi
    · rw [hsame j hj]
      exact h.once j
  · intro j hlt
    have hlt : j < m.getCnt := by
      rw [getCnt, ← hhandle]
      exact hlt
    have hold := h.flag j hlt
    rw [hflag, List.getElem?_set]
    by_cases hj : j = i
    · subst hj
      obtain ⟨hlen, -⟩ := List.getElem?_eq_some_iff.mp hold
      rw [if_pos rfl, if_pos hlen, hset]
    · rw [if_neg (Ne.symm hj), hsame j hj]
      exact hold

/-- The window has one buffer more, or less, and no other. -/
theorem Flagged.inWindow_cons (h : m.Flagged window) (hi : m.bufferHandle[i]? = some hdl)
    (window' : List UInt32) (j : ℕ) :
    m.inWindow (hdl :: window') j = m.inWindow window' j + if i = j then 1 else 0 := by
  have hiff := h.handle_eq_iff (j := j) hi
  unfold inWindow
  cases hj : m.bufferHandle[j]? with
  | none =>
    have hij : i ≠ j := by
      rintro rfl
      rw [hi] at hj
      cases hj
    simp [hij]
  | some hdl' =>
    rw [hj, Option.some.injEq] at hiff
    simp only [Option.elim_some, List.count_cons, beq_iff_eq, eq_comm (a := hdl), hiff]

theorem Flagged.inWindow_erase (h : m.Flagged window) (hi : m.bufferHandle[i]? = some hdl)
    (hmem : hdl ∈ window) (j : ℕ) :
    m.inWindow (window.erase hdl) j + (if i = j then 1 else 0) = m.inWindow window j := by
  rw [← h.inWindow_cons hi]
  unfold inWindow
  simp only [(List.perm_cons_erase hmem).count_eq]

theorem Flagged.enqueue (h : m.Flagged window) (hi : m.bufferHandle[i]? = some hdl)
    (howned : m.inWindow window i = 0) :
    Flagged { m with localFlag := m.localFlag.set i .notOwned } (hdl :: window) ∧
      ∀ j, m.inWindow (hdl :: window) j = m.inWindow window j + if i = j then 1 else 0 := by
  have hcount := h.inWindow_cons hi window
  have hcnt : m.inWindow (hdl :: window) i = 1 := by
    rw [hcount, howned, if_pos rfl]
  refine ⟨h.set rfl rfl ?_ hcnt.le (by rw [if_neg]; exact hcnt ▸ Nat.one_ne_zero), hcount⟩
  intro j hj
  exact (hcount j).trans (by rw [if_neg (Ne.symm hj), Nat.add_zero])

theorem Flagged.dequeue (h : m.Flagged window) (hi : m.bufferHandle[i]? = some hdl)
    (hmem : hdl ∈ window) :
    Flagged { m with localFlag := m.localFlag.set i .owned } (window.erase hdl) ∧
      ∀ j, m.inWindow (window.erase hdl) j + (if i = j then 1 else 0) = m.inWindow window j := by
  have hcount := h.inWindow_erase hi hmem
  have hcnt : m.inWindow (window.erase hdl) i = 0 := by
    have hone := h.once i
    have hrec := hcount i
    rw [if_pos rfl] at hrec
    omega
  refine ⟨h.set rfl rfl ?_ (hcnt.le.trans (Nat.zero_le 1)) (by rw [if_pos]; exact hcnt), hcount⟩
  intro j hj
  have hrec := hcount j
  rw [if_neg (Ne.symm hj)] at hrec
  exact hrec

theorem Flagged.erase_other (h : m.Flagged window) (hno : hdl ∉ m.bufferHandle) :
    m.Flagged (window.erase hdl) ∧
      ∀ j, m.inWindow (window.erase hdl) j = m.inWindow window j := by
  have hcount : ∀ j, m.inWindow (window.erase hdl) j = m.inWindow window j := by
    intro j
    unfold inWindow
    cases hj : m.bufferHandle[j]? with
    | none => rfl
    | some hdl' =>
      refine List.count_erase_of_ne ?_
      rintro rfl
      exact hno (List.mem_of_getElem? hj)
  exact ⟨⟨h.handles, fun j => by rw [hcount]; exact h.once j,
    fun j hj => by rw [hcount]; exact h.flag j hj⟩, hcount⟩

/-- **Displaying a buffer** that the window takes: the window has this buffer
more, and the buffer it gives less. -/
theorem displayBuffer_spec {ops : DisplayOps} {r : Option ℕ} (h : m.Flagged window)
    (hi : i < m.getCnt) (howned : m.inWindow window i = 0) (henq : ops.enqueueBuffer = true)
    (hs : displayBuffer ops i m window = some (r, m', window')) :
    m'.bufferHandle = m.bufferHandle ∧ m'.Flagged window' ∧ (∀ j, r = some j → j < m.getCnt) ∧
      ∀ j, m'.inWindow window' j + (if r = some j then 1 else 0) =
        m.inWindow window j + if i = j then 1 else 0 := by
  obtain ⟨hdl, hhdl⟩ : ∃ hdl, m.bufferHandle[i]? = some hdl := ⟨_, List.getElem?_eq_getElem hi⟩
  have hflag := h.flag i hi
  rw [howned, if_pos rfl] at hflag
  obtain ⟨h₁, hcount₁⟩ := h.enqueue hhdl howned
  simp only [displayBuffer, hflag, hhdl, henq, if_true] at hs
  cases hdeq : ops.dequeueBuffer with
  | none =>
    simp only [hdeq, Option.some.injEq, Prod.mk.injEq] at hs
    obtain ⟨rfl, rfl, rfl⟩ := hs
    refine ⟨rfl, h₁, by simp, ?_⟩
    intro j
    rw [if_neg (by simp)]
    exact hcount₁ j
  | some hdl' =>
    rw [hdeq] at hs
    simp only at hs
    split at hs
    swap
    · cases hs
    rename_i hmem
    split at hs
    · rename_i k hfind
      simp only [Option.some.injEq, Prod.mk.injEq] at hs
      obtain ⟨rfl, rfl, rfl⟩ := hs
      obtain ⟨hk, heq, -⟩ := List.findIdx?_eq_some_iff_getElem.mp hfind
      have hk' : m.bufferHandle[k]? = some hdl' := by
        rw [List.getElem?_eq_getElem hk]
        simpa using heq
      obtain ⟨h₂, hcount₂⟩ := h₁.dequeue hk' hmem
      refine ⟨rfl, h₂, ?_, ?_⟩
      · rintro j ⟨⟩
        exact hk
      · intro j
        simp only [Option.some.injEq]
        exact (hcount₂ j).trans (hcount₁ j)
    · rename_i hfind
      simp only [Option.some.injEq, Prod.mk.injEq] at hs
      obtain ⟨rfl, rfl, rfl⟩ := hs
      have hno : hdl' ∉ m.bufferHandle := by
        intro hin
        have hfalse := List.findIdx?_eq_none_iff.mp hfind hdl' hin
        simp at hfalse
      obtain ⟨h₂, hcount₂⟩ := h₁.erase_other hno
      refine ⟨rfl, h₂, by simp, ?_⟩
      intro j
      rw [if_neg (by simp)]
      exact (hcount₂ j).trans (hcount₁ j)

theorem allocLoop_spec {ops : AllocOps} {n cnt : ℕ} {handles handles' : List UInt32}
    (h : allocLoop ops n cnt handles window = some (true, handles', window')) :
    handles'.length = handles.length + n ∧ (handles' ++ window').Perm (handles ++ window) := by
  induction n generalizing cnt handles window with
  | zero =>
    simp only [allocLoop, Option.some.injEq, Prod.mk.injEq] at h
    obtain ⟨-, rfl, rfl⟩ := h
    exact ⟨rfl, .refl _⟩
  | succ n ih =>
    rw [allocLoop] at h
    split at h
    · cases h
    · rename_i hdl _
      split_ifs at h with hmem hion
      · obtain ⟨hlen, hperm⟩ := ih h
        refine ⟨by rw [hlen, List.length_append, List.length_singleton]; omega, hperm.trans ?_⟩
        rw [List.append_assoc]
        exact (List.perm_cons_erase hmem).symm.append_left handles
      · cases h

/-- **Allocation**: the window keeps the first buffers, and the flags say so. -/
theorem allocate_spec {ops : AllocOps} {count : ℕ} (hnodup : window.Nodup)
    (h : allocate ops count window = some (true, m, window')) :
    m.Flagged window' ∧ m.minUndequeuedBuffers ≤ m.getCnt ∧
      ∀ i, m.inWindow window' i = if i < m.minUndequeuedBuffers then 1 else 0 := by
  unfold allocate at h
  split at h
  · rename_i minUndequeued _ _
    obtain ⟨⟨ok, handles, rest⟩, hloop, h⟩ := Option.bind_eq_some_iff.mp h
    cases ok with
    | false => cases h
    | true =>
      simp only [if_true, Option.pure_def, Option.some.injEq, Prod.mk.injEq, true_and] at h
      obtain ⟨rfl, rfl⟩ := h
      obtain ⟨hlen, hperm⟩ := allocLoop_spec hloop
      have hlen : handles.length = count + minUndequeued := by simpa using hlen
      obtain ⟨hhandles, -, hdisj⟩ := List.nodup_append'.mp (hperm.nodup_iff.mpr hnodup)
      have hcount : ∀ i, GrallocMemory.inWindow ⟨handles, List.replicate minUndequeued .notOwned ++
          List.replicate count .owned, minUndequeued⟩ (handles.take minUndequeued ++ rest) i =
          if i < minUndequeued then 1 else 0 := by
        intro i
        unfold inWindow
        cases hi : handles[i]? with
        | none =>
          have hge := List.getElem?_eq_none_iff.mp hi
          simp [show ¬ i < minUndequeued by omega]
        | some hdl =>
          have hrest : rest.count hdl = 0 :=
            List.count_eq_zero.mpr (hdisj (List.mem_of_getElem? hi))
          rw [Option.elim_some, List.count_append, hrest, Nat.add_zero,
            (hhandles.sublist (List.take_sublist _ _)).count]
          obtain ⟨hlt, rfl⟩ := List.getElem?_eq_some_iff.mp hi
          refine if_congr ?_ rfl rfl
          rw [List.mem_take_iff_getElem]
          constructor
          · rintro ⟨j, hj, heq⟩
            rw [← hhandles.getElem_inj_iff.mp heq]
            omega
          · intro hi
            exact ⟨i, by omega, rfl⟩
      refine ⟨⟨hhandles, ?_, ?_⟩, ?_, hcount⟩
      · intro i
        rw [hcount]
        split <;> omega
      · intro i hi
        rw [hcount]
        have hi : i < handles.length := hi
        by_cases hmin : i < minUndequeued
        · rw [List.getElem?_append_left (by simpa using hmin), if_pos hmin]
          simp [hmin]
        · rw [List.getElem?_append_right (by simpa using hmin), if_neg hmin,
            List.length_replicate, List.getElem?_replicate, if_pos (by omega)]
          rfl
      · show minUndequeued ≤ handles.length
        omega
  all_goals cases h

end GrallocMemory

/-! ### Where the buffers are -/

theorem SameStreams.getStream {c c' : ChannelObj} (h : SameStreams c c') (hdl : UInt32) :
    Option.Rel StreamObj.Same (c.getStream hdl) (c'.getStream hdl) := by
  unfold SameStreams at h
  unfold ChannelObj.getStream
  generalize c.streams = l at h
  generalize c'.streams = l' at h
  induction h with
  | nil => exact .none
  | @cons s t l l' hst _ ih =>
    rw [List.find?_cons, List.find?_cons, hst.state, hst.myHdl]
    split
    · exact .some hst
    · exact ih

theorem SameStreams.isSome_bufStatus {c c' : ChannelObj} (h : SameStreams c c') (x : Handle) :
    (c'.bufStatus x).isSome = (c.bufStatus x).isSome := by
  have hrel := h.getStream x.1
  unfold ChannelObj.bufStatus
  generalize c.getStream x.1 = o at hrel
  generalize c'.getStream x.1 = o' at hrel
  cases hrel with
  | none => rfl
  | @some s t hst =>
    have hlen := hst.bufStatus
    simp only [Option.bind_some, StreamObj.status]
    cases hs : s.bufStatus with
    | none =>
      rw [hs, Option.map_none, Option.map_eq_none_iff] at hlen
      rw [hlen]
    | some l =>
      rw [hs, Option.map_some] at hlen
      obtain ⟨l', hl', heq⟩ := Option.map_eq_some_iff.mp hlen
      rw [hl', Option.getD_some, Option.getD_some, Bool.eq_iff_iff, Option.isSome_iff_ne_none,
        Option.isSome_iff_ne_none, ne_eq, ne_eq, List.getElem?_eq_none_iff,
        List.getElem?_eq_none_iff, heq]

namespace Preview

/-- How often the window has a preview buffer. -/
def inWindow (p : Preview) (i : ℕ) : ℕ := p.mem.inWindow p.window i

def inFlight (p : Preview) (i : ℕ) : ℕ := p.sys.inStream (p.hdl, i) + p.dataQ.count i

end Preview

/-- **The circulation of the preview buffers**, while the callback has the
buffers `loose` in its hands: the client has the buffers in the queue of the
stream's thread, those of the window and those of superbufs; the window, the
stream's thread and the callback have a buffer once altogether. -/
structure Circulation (p : Preview) (loose : List ℕ) : Prop where
  inv : Inv p.sys
  ofHal : p.sys.channel.OfHal
  status : ∀ i, (p.sys.channel.bufStatus (p.hdl, i)).isSome ↔ i < p.mem.getCnt
  flagged : p.mem.Flagged p.window
  frames : ∀ i ∈ p.dataQ ++ loose, i < p.mem.getCnt
  client : ∀ i < p.mem.getCnt, p.sys.client.count (p.hdl, i) =
    p.dataQ.count i + p.inWindow i + p.superbufs.count i + loose.count i
  once : ∀ i < p.mem.getCnt, p.inWindow i + p.inFlight i + loose.count i ≤ 1
  plain : p.sys.channel.cmdThread = none → p.sys.bundleBufs = [] ∧ p.superbufs = []

namespace Circulation

variable {p p' : Preview} {loose : List ℕ} {idx : ℕ}

theorem bufDone (h : Circulation p (idx :: loose)) : Circulation (p.bufDone idx) loose := by
  have hmem : (p.hdl, idx) ∈ p.sys.client := by
    rw [← List.count_pos_iff, h.client idx (h.frames idx (by simp)), List.count_cons_self]
    omega
  have hact := h.inv.running.allActive
  have hsame : SameStreams p.sys.channel (p.bufDone idx).sys.channel :=
    sameStreams_qbuf p.sys.channel (p.hdl, idx)
  refine ⟨h.inv.qbuf hmem, h.ofHal.qbuf _, ?_, h.flagged, ?_, ?_, ?_, h.plain⟩
  · intro i
    exact (Bool.eq_iff_iff.mp (hsame.isSome_bufStatus (p.hdl, i))).trans (h.status i)
  · intro i hi
    refine h.frames i ?_
    rw [List.mem_append] at hi ⊢
    exact hi.imp_right (List.mem_cons_of_mem idx)
  · intro i hlt
    have hcount := h.client i hlt
    show (p.sys.client.erase (p.hdl, idx)).count (p.hdl, i) = _
    by_cases hi : idx = i
    · subst hi
      rw [List.count_cons_self] at hcount
      rw [List.count_erase_self, hcount]
      rfl
    · rw [List.count_cons_of_ne hi] at hcount
      rw [List.count_erase_of_ne (by simpa using Ne.symm hi), hcount]
      rfl
  · intro i hlt
    have hone := h.once i hlt
    have hstream : (p.bufDone idx).sys.inStream (p.hdl, i) = p.sys.inStream (p.hdl, i) :=
      inStream_qbuf hact rfl _
    have hle : loose.count i ≤ (idx :: loose).count i := List.count_le_count_cons
    show p.inWindow i + ((p.bufDone idx).sys.inStream (p.hdl, i) + p.dataQ.count i) +
      loose.count i ≤ 1
    rw [hstream]
    exact (Nat.add_le_add_left hle _).trans hone

theorem move {dataQ loose' : List ℕ} {mem : GrallocMemory} {window : List UInt32}
    (h : Circulation p loose) (hhandle : mem.bufferHandle = p.mem.bufferHandle)
    (hflagged : mem.Flagged window)
    (hframes : ∀ i ∈ dataQ ++ loose', i < p.mem.getCnt)
    (hcount : ∀ i, dataQ.count i + mem.inWindow window i + loose'.count i =
      p.dataQ.count i + p.inWindow i + loose.count i) :
    Circulation { p with dataQ := dataQ, mem := mem, window := window } loose' := by
  have hcnt : mem.getCnt = p.mem.getCnt := congrArg List.length hhandle
  refine ⟨h.inv, h.ofHal, ?_, hflagged, ?_, ?_, ?_, h.plain⟩
  · intro i
    show _ ↔ i < mem.getCnt
    rw [hcnt]
    exact h.status i
  · intro i hi
    show i < mem.getCnt
    rw [hcnt]
    exact hframes i hi
  · intro i hlt
    have hold := h.client i (hcnt ▸ hlt)
    have hnew := hcount i
    show p.sys.client.count (p.hdl, i) =
      dataQ.count i + mem.inWindow window i + p.superbufs.count i + loose'.count i
    omega
  · intro i hlt
    have hold := h.once i (hcnt ▸ hlt)
    have hnew := hcount i
    show mem.inWindow window i + (p.sys.inStream (p.hdl, i) + dataQ.count i) +
      loose'.count i ≤ 1
    unfold Preview.inFlight at hold
    omega

theorem dataNotifyCB (h : Circulation p (idx :: loose)) (taken : Bool) (hdl : UInt32) :
    Circulation (p.dataNotifyCB taken (hdl, idx)) loose := by
  cases taken with
  | false => exact h.bufDone
  | true =>
    refine h.move rfl h.flagged ?_ ?_
    · intro i hi
      refine h.frames i ?_
      simpa using hi
    · intro i
      show (p.dataQ ++ [idx]).count i + p.inWindow i + _ = _
      rw [List.count_append, List.count_singleton, List.count_cons]
      omega

theorem take {rest : List ℕ} (h : Circulation p []) (hq : p.dataQ = idx :: rest) :
    Circulation { p with dataQ := rest } [idx] := by
  refine h.move rfl h.flagged ?_ ?_
  · intro i hi
    refine h.frames i ?_
    rw [hq]
    simp only [List.mem_append, List.mem_singleton] at hi
    simp only [List.append_nil, List.mem_cons]
    exact hi.symm
  · intro i
    show rest.count i + p.inWindow i + _ = _
    rw [hq, List.count_singleton, List.count_cons, List.count_nil]
    omega

/-- **The callback**: if the window takes the buffer, every buffer has its
place. -/
theorem previewStreamCb {previewRunning : Bool} {ops : DisplayOps} (h : Circulation p [idx])
    (henq : previewRunning = true → ops.enqueueBuffer = true)
    (hs : p.previewStreamCb previewRunning ops idx = some p') : Circulation p' [] := by
  cases previewRunning with
  | false =>
    cases hs
    exact h.bufDone
  | true =>
    simp only [Preview.previewStreamCb, if_true, Option.bind_eq_bind, Option.bind_eq_some_iff,
      Option.pure_def, Option.some.injEq] at hs
    obtain ⟨⟨r, mem, window⟩, hdisp, rfl⟩ := hs
    have hidx := h.frames idx (by simp)
    have howned : p.inWindow idx = 0 := by
      have hone := h.once idx hidx
      rw [List.count_singleton_self] at hone
      omega
    obtain ⟨hhandle, hflagged, hr, hcount⟩ :=
      GrallocMemory.displayBuffer_spec h.flagged hidx howned (henq rfl) hdisp
    -- the buffer from the window is in hand now
    have hloose : Circulation { p with mem := mem, window := window } r.toList := by
      refine h.move hhandle hflagged ?_ ?_
      · intro i hi
        rcases List.mem_append.mp hi with hi | hi
        · exact h.frames i (List.mem_append_left _ hi)
        · exact hr i (Option.mem_toList.mp hi)
      · intro i
        have hi : _ = p.inWindow i + _ := hcount i
        rw [Nat.add_assoc, Nat.add_assoc]
        congr 1
        cases r with
        | none | some j => simpa [List.count_singleton] using hi
    cases r with
    | none => exact hloose
    | some j => exact hloose.bufDone

section Traffic

variable {sys' : System} {ev : Event} {given : List Handle}

theorem channel {superbufs : List ℕ} (h : Circulation p [])
    (hcmd : ev = .command → Kept p.sys .command) (hs : p.sys.step ev = some (sys', given))
    (hloose : ∀ i ∈ loose, i < p.mem.getCnt)
    (hclient : ∀ i < p.mem.getCnt, sys'.client.count (p.hdl, i) + p.superbufs.count i =
      p.sys.client.count (p.hdl, i) + superbufs.count i + loose.count i)
    (honce : ∀ i < p.mem.getCnt, p.inWindow i + p.inFlight i ≤ 1 →
      p.inWindow i + (sys'.inStream (p.hdl, i) + p.dataQ.count i) + loose.count i ≤ 1)
    (hplain : sys'.channel.cmdThread = none →
      p.sys.channel.cmdThread = none ∧ sys'.bundleBufs = p.sys.bundleBufs ∧
        superbufs = p.superbufs) :
    Circulation { p with sys := sys', superbufs := superbufs } loose := by
  refine ⟨h.inv.step (h.ofHal.kept hcmd) hs, h.ofHal.step hs, ?_, h.flagged, ?_, ?_, ?_, ?_⟩
  · intro i
    have hsame := (sameStreams_step hs).isSome_bufStatus (p.hdl, i)
    exact (Bool.eq_iff_iff.mp hsame).trans (h.status i)
  · intro i hi
    rcases List.mem_append.mp hi with hi | hi
    · exact h.frames i (List.mem_append_left _ hi)
    · exact hloose i hi
  · intro i hlt
    have hold := h.client i hlt
    have hnew := hclient i hlt
    rw [List.count_nil] at hold
    show sys'.client.count (p.hdl, i) =
      p.dataQ.count i + p.inWindow i + superbufs.count i + loose.count i
    omega
  · intro i hlt
    exact honce i hlt (h.once i hlt)
  · intro hnone
    obtain ⟨hold, hbufs, hsuper⟩ := hplain hnone
    exact ⟨hbufs.trans (h.plain hold).1, hsuper.trans (h.plain hold).2⟩

theorem quiet (h : Circulation p [])
    (hcmd : ev = .command → Kept p.sys .command) (hs : p.sys.step ev = some (sys', given))
    (hclient : ∀ i, sys'.client.count (p.hdl, i) = p.sys.client.count (p.hdl, i))
    (hstream : ∀ i, sys'.inStream (p.hdl, i) = p.sys.inStream (p.hdl, i))
    (hplain : sys'.channel.cmdThread = none →
      p.sys.channel.cmdThread = none ∧ sys'.bundleBufs = p.sys.bundleBufs) :
    Circulation { p with sys := sys' } [] := by
  refine h.channel hcmd hs (by simp) ?_ ?_ ?_
  · intro i _
    rw [hclient]
    simp
  · intro i _ hone
    rw [hstream]
    exact hone
  · intro hnone
    exact ⟨(hplain hnone).1, (hplain hnone).2, rfl⟩

/-- A buffer that the kernel has is nowhere else. -/
theorem kernel_only (h : Circulation p []) {s : StreamObj} (hlt : idx < p.mem.getCnt)
    (hget : p.sys.channel.getStream p.hdl = some s) (hq : idx ∈ s.device.queued) :
    p.inWindow idx + p.inFlight idx = 0 := by
  obtain ⟨st, hst⟩ := Option.isSome_iff_exists.mp ((h.status idx).mpr hlt)
  have hkernel := (h.inv.account _ st hst).settled.kernel
  have hpos : 0 < p.sys.channel.inDevice (p.hdl, idx) := by
    rw [ChannelObj.inDevice, hget]
    exact List.count_pos_iff.mpr hq
  have hzero : p.sys.holders (p.hdl, idx) = 0 := by
    by_contra hne
    rw [if_neg hne] at hkernel
    omega
  have hclient := h.client idx hlt
  rw [holders_eq] at hzero
  unfold Preview.inFlight
  omega

theorem frame {b : BufInfo} {s : StreamObj} (h : Circulation p [])
    (hs : p.sys.step (.frame b.streamId b.bufIdx b.frameIdx b.metadata) =
      some ({ p.sys with channel := p.sys.channel.frame s b }, []))
    (hget : p.sys.channel.getStream b.streamId = some s) (hq : b.bufIdx ∈ s.device.queued)
    (hcb : s.hasCb → s.cmdThread.isSome) :
    Circulation { p with sys := { p.sys with channel := p.sys.channel.frame s b } } [] := by
  refine h.channel (by simp) hs (by simp) ?_ ?_ ?_
  · intro i _
    simp
  · intro i hlt hone
    rw [inStream_frame hget hcb]
    by_cases hb : handle b = (p.hdl, i)
    · obtain ⟨hid, hi⟩ := Prod.mk.inj hb
      rw [hid] at hget
      have hzero := h.kernel_only hlt hget (hi ▸ hq)
      unfold Preview.inFlight at hzero
      rw [List.count_nil]
      split <;> omega
    · rw [if_neg fun hand => hb hand.2]
      exact hone
  · intro hnone
    have hold : p.sys.channel.cmdThread = none := by
      by_cases hbundled : s.isBundled = true
      all_goals simpa [ChannelObj.frame, hbundled] using hnone
    refine ⟨hold, ?_, rfl⟩
    unfold System.bundleBufs ChannelObj.bundleBufs
    rw [hnone, hold]
    rfl

theorem data {hdl : UInt32} {s : StreamObj} {b : BufInfo} {rest : List BufInfo}
    (h : Circulation p []) (hs : p.sys.step (.data hdl) = some (sys', given))
    (hget : p.sys.channel.getStream hdl = some s) (hq : s.cmdThread = some (b :: rest))
    (hsys : sys' = { p.sys with
      channel := p.sys.channel.modifyStream hdl (StreamObj.dispatched rest b)
      client := p.sys.client ++ List.replicate s.calls (handle b) }) :
    Circulation { p with sys := sys' } (if hdl = p.hdl then [b.bufIdx] else []) := by
  have hown := h.inv.running.own_head hget hq
  have hcalls := (h.ofHal hdl s hget).calls
  have hstream : ∀ i, sys'.inStream (p.hdl, i) + (if handle b = (p.hdl, i) then 1 else 0) =
      p.sys.inStream (p.hdl, i) := by
    intro i
    exact inStream_dispatched h.inv.running hget hq (by rw [hsys]) _
  have hloose : ∀ i, (if hdl = p.hdl then [b.bufIdx] else []).count i =
      if handle b = (p.hdl, i) then 1 else 0 := by
    intro i
    by_cases hid : hdl = p.hdl
    · simp [hid, List.count_singleton, handle, hown]
    · simp [hid, handle, hown]
  refine h.channel (by simp) hs ?_ ?_ ?_ ?_
  · intro i hi
    split_ifs at hi with hid
    · obtain rfl := List.mem_singleton.mp hi
      subst hid
      have hthread := (h.ofHal _ s hget).thread b (by simp [hq])
      rw [← h.status, ChannelObj.bufStatus, hget]
      exact hthread
    · cases hi
  · intro i _
    rw [hloose, hsys, hcalls]
    simp only [List.count_append, List.replicate_one, List.count_singleton, beq_iff_eq]
    omega
  · intro i _ hone
    have hnew := hstream i
    rw [hloose]
    unfold Preview.inFlight at hone
    omega
  · intro hnone
    rw [hsys] at hnone ⊢
    exact ⟨hnone, rfl, rfl⟩

theorem effect {e : Effect} {es : List Effect} (h : Circulation p [])
    (hs : p.sys.step .effect = some ({ p.sys.applyEffect e with pending := es }, []))
    (hpend : p.sys.pending = e :: es) :
    Circulation { p with sys := { p.sys.applyEffect e with pending := es } } [] := by
  refine h.quiet (by simp) hs ?_ ?_ ?_
  · intro i
    cases e <;> rfl
  · intro i
    cases e with
    | qbuf b => exact inStream_qbuf h.inv.running.allActive rfl _
    | _ => rfl
  · intro hnone
    have hsome : p.sys.channel.cmdThread.isSome := by
      rcases h.inv.threads with hthr | hthr
      · exact hthr.1
      · rw [hthr.2.2] at hpend
        cases hpend
    have hcmd : (p.sys.applyEffect e).channel.cmdThread = p.sys.channel.cmdThread := by
      cases e <;> rfl
    rw [← hcmd, show (p.sys.applyEffect e).channel.cmdThread = none from hnone] at hsome
    cases hsome

theorem count_map_snd_filter (hdl : UInt32) (l : List Handle) (i : ℕ) :
    ((l.filter fun h => h.1 = hdl).map Prod.snd).count i = l.count (hdl, i) := by
  induction l with
  | nil => rfl
  | cons x l ih =>
    obtain ⟨a, j⟩ := x
    by_cases ha : a = hdl
    · simp [ha, List.count_cons, ih]
    · simp [ha, ih]

theorem superbuf {bufs : List (Option BufInfo)} {rest : List (List (Option BufInfo))}
    (h : Circulation p []) (hs : p.sys.step .superbuf = some (sys', given))
    (hqueue : p.sys.channel.cbThread = some (bufs :: rest))
    (hsys : sys' = { p.sys with
      channel := { p.sys.channel with cbThread := some rest }
      client := p.sys.client ++ given }) :
    Circulation { p with
      sys := sys'
      superbufs := p.superbufs ++ (given.filter fun h => h.1 = p.hdl).map Prod.snd } [] := by
  refine h.channel (by simp) hs (by simp) ?_ ?_ ?_
  · intro i _
    rw [hsys, List.count_append, List.count_append, count_map_snd_filter, List.count_nil]
    omega
  · intro i _ hone
    rw [hsys]
    exact hone
  · intro hnone
    rw [hsys] at hnone
    rcases h.inv.threads with hthr | hthr
    · rw [show p.sys.channel.cmdThread = none from hnone] at hthr
      cases hthr.1
    · rw [hqueue] at hthr
      cases hthr.2.1

theorem qbuf {x : Handle} {superbufs : List ℕ} (h : Circulation p [])
    (hs : p.sys.step (.qbuf x) = some (sys', given)) (hx : x ∈ p.sys.client)
    (hsys : sys' = { p.sys with
      channel := p.sys.channel.qbuf x, client := p.sys.client.erase x })
    (hsuper : ∀ i, superbufs.count i + (if x = (p.hdl, i) then 1 else 0) = p.superbufs.count i) :
    Circulation { p with sys := sys', superbufs := superbufs } [] := by
  refine h.channel (by simp) hs (by simp) ?_ ?_ ?_
  · intro i _
    have hcount := hsuper i
    rw [hsys, List.count_nil]
    show (p.sys.client.erase x).count (p.hdl, i) + _ = _
    by_cases hxi : x = (p.hdl, i)
    · have hpos : 0 < p.sys.client.count x := List.count_pos_iff.mpr hx
      rw [if_pos hxi] at hcount
      rw [← hxi, List.count_erase_self]
      omega
    · rw [if_neg hxi] at hcount
      rw [List.count_erase_of_ne (Ne.symm hxi)]
      omega
  · intro i _ hone
    rw [hsys, inStream_qbuf h.inv.running.allActive rfl]
    exact hone
  · intro hnone
    rw [hsys] at hnone ⊢
    refine ⟨hnone, rfl, ?_⟩
    have hnil := (h.plain hnone).2
    rw [hnil, List.eq_nil_iff_forall_not_mem]
    intro i hi
    have hcount := hsuper i
    have hpos := List.count_pos_iff.mpr hi
    rw [hnil, List.count_nil] at hcount
    omega

/-- **Every step of the channel keeps the buffers in circulation.** -/
theorem traffic {taken : Bool} (h : Circulation p [])
    (hcmd : ev = .command → Kept p.sys .command)
    (hs : p.traffic ev taken = some p') : Circulation p' [] := by
  simp only [Preview.traffic, Option.bind_eq_bind, Option.bind_eq_some_iff, Prod.exists] at hs
  obtain ⟨sys', given, hstep, hs⟩ := hs
  cases System.transition_of_step hstep with
  | frame hget hq _ hcb =>
    cases hs
    exact h.frame hstep hget hq hcb
  | request _ hq =>
    cases hs
    exact h.quiet (by simp) hstep (fun _ => rfl) (fun _ => rfl) (by simp)
  | command hpend hcmds hproc =>
    cases hs
    exact h.quiet hcmd hstep (fun _ => rfl) (fun _ => rfl) (by simp)
  | effect hpend =>
    cases hs
    exact h.effect hstep hpend
  | superbuf hqueue hgiven =>
    cases hs
    exact h.superbuf hstep hqueue rfl
  | @data hdl s b rest hget hq =>
    have hown := h.inv.running.own_head hget hq
    have hcalls := (h.ofHal hdl s hget).calls
    have hdata := h.data hstep hget hq rfl
    cases hs
    by_cases hid : hdl = p.hdl
    · rw [if_pos hid] at hdata
      simp only [hid, if_true, hcalls, List.replicate_one, List.foldl_cons, List.foldl_nil]
      rw [hid, hcalls] at hdata
      exact hdata.dataNotifyCB taken b.streamId
    · rw [if_neg hid] at hdata
      simp only [hid, if_false]
      exact hdata
  | @qbuf x hx =>
    simp only at hs
    split_ifs at hs with hid hmem
    · cases hs
      refine h.qbuf hstep hx rfl ?_
      intro i
      have hxi : x = (p.hdl, i) ↔ x.2 = i := by
        rw [Prod.ext_iff]
        exact and_iff_right hid
      have hpos := List.count_pos_iff.mpr hmem
      by_cases hi : x.2 = i
      · rw [if_pos (hxi.mpr hi), ← hi, List.count_erase_self]
        omega
      · rw [if_neg (mt hxi.mp hi), List.count_erase_of_ne (Ne.symm hi)]
        rfl
    · cases hs
      refine h.qbuf hstep hx rfl ?_
      intro i
      have hxi : x ≠ (p.hdl, i) := by
        rintro rfl
        exact hid rfl
      rw [if_neg hxi]
      rfl

end Traffic

end Circulation

/-! ### Runs -/

/-- What must not happen: the window refuses a frame that is displayed, or the
matcher of the channel drops a buffer. -/
def Displays (p : Preview) : PreviewEvt → Prop
  | .traffic ev _ => ev = .command → Kept p.sys .command
  | .callback previewRunning ops => previewRunning = true → ops.enqueueBuffer = true

theorem Circulation.step {p p' : Preview} {ev : PreviewEvt} {shown : List ℕ}
    (h : Circulation p []) (hdisp : Displays p ev) (hs : p.step ev = some (p', shown)) :
    Circulation p' [] := by
  cases ev with
  | traffic ev taken =>
    simp only [Preview.step, Option.bind_eq_bind, Option.bind_eq_some_iff, Option.pure_def,
      Option.some.injEq, Prod.mk.injEq] at hs
    obtain ⟨q, htraffic, rfl, -⟩ := hs
    exact h.traffic hdisp htraffic
  | callback previewRunning ops =>
    simp only [Preview.step] at hs
    split at hs
    · cases hs
    · rename_i idx rest hq
      simp only [Option.bind_eq_bind, Option.bind_eq_some_iff, Option.pure_def,
        Option.some.injEq, Prod.mk.injEq] at hs
      obtain ⟨q, hcb, rfl, -⟩ := hs
      exact (h.take hq).previewStreamCb hdisp hcb

namespace Preview

/-- How often a preview buffer is on its way through the bundle of the channel,
or in a superbuf that the HAL has. -/
def inBundle (p : Preview) (i : ℕ) : ℕ := p.sys.inBundle (p.hdl, i) + p.superbufs.count i

/-- Every preview buffer is in its place: the window has it, as its flag says,
or it is on its way to the callback; else the kernel has it, unless the bundle
of the channel still uses it.  Without a bundle there are only these places. -/
def InPlace (p : Preview) : Prop :=
  ∀ i < p.mem.getCnt,
    p.mem.localFlag[i]? = some (if p.inWindow i = 0 then .owned else .notOwned) ∧
    p.inWindow i + p.inFlight i ≤ 1 ∧
    p.sys.channel.inDevice (p.hdl, i) =
      (if p.inWindow i + p.inFlight i + p.inBundle i = 0 then 1 else 0) ∧
    (p.sys.channel.cmdThread = none →
      p.inWindow i + p.inFlight i + p.sys.channel.inDevice (p.hdl, i) = 1)

end Preview

theorem Circulation.inPlace {p : Preview} (h : Circulation p []) : p.InPlace := by
  intro i hlt
  have hone : p.inWindow i + p.inFlight i ≤ 1 := h.once i hlt
  have hdevice : p.sys.channel.inDevice (p.hdl, i) =
      if p.inWindow i + p.inFlight i + p.inBundle i = 0 then 1 else 0 := by
    obtain ⟨st, hst⟩ := Option.isSome_iff_exists.mp ((h.status i).mpr hlt)
    have hclient := h.client i hlt
    rw [List.count_nil] at hclient
    rw [(h.inv.account _ st hst).settled.kernel, holders_eq, hclient]
    refine if_congr ?_ rfl rfl
    unfold Preview.inFlight Preview.inBundle
    omega
  refine ⟨h.flagged.flag i hlt, hone, hdevice, ?_⟩
  intro hnone
  obtain ⟨hbufs, hsuper⟩ := h.plain hnone
  have hbundle : p.inBundle i = 0 := by
    rw [Preview.inBundle, System.inBundle, hbufs, hsuper]
    rfl
  rw [hdevice, hbundle]
  split <;> omega

section Runs

variable {env : UInt32 → StreamOps} {c c' : ChannelObj} {client : List Handle} {hdl : UInt32}
  {aops : AllocOps} {count : ℕ} {window window' : List UInt32} {mem : GrallocMemory}
  {p : Preview} {evs : List PreviewEvt} {shown : List ℕ}

theorem getRegFlags_getElem? {m : GrallocMemory} (hmin : m.minUndequeuedBuffers ≤ m.getCnt)
    (i : ℕ) : m.getRegFlags[i]? =
      if i < m.getCnt then some (decide (m.minUndequeuedBuffers ≤ i)) else none := by
  unfold GrallocMemory.getRegFlags
  by_cases hi : i < m.minUndequeuedBuffers
  · rw [List.getElem?_append_left (by simpa using hi), List.getElem?_replicate, if_pos hi,
      if_pos (by omega), decide_eq_false (by omega)]
  · rw [List.getElem?_append_right (by simpa using hi), List.length_replicate,
      List.getElem?_replicate]
    by_cases hlt : i < m.getCnt
    · rw [if_pos (by omega), if_pos hlt, decide_eq_true (by omega)]
    · rw [if_neg (by omega), if_neg hlt]

theorem Circulation.of_start (h : c.Configured)
    (hhal : ∀ hdl s, c.getStream hdl = some s → s.bufCb = halCallbacks)
    (hstart : c.start env = (0, c')) (hclient : HeldByClient c' client)
    (hget : (c'.getStream hdl).isSome) (hnodup : window.Nodup)
    (halloc : GrallocMemory.allocate aops count window = some (true, mem, window'))
    (hbufs : (env hdl).getBufs = some mem.getRegFlags) :
    Circulation ⟨⟨c', [], client⟩, hdl, [], [], mem, window'⟩ [] := by
  obtain ⟨hflagged, hmin, hcount⟩ := GrallocMemory.allocate_spec hnodup halloc
  have hstatus : ∀ i, c'.bufStatus (hdl, i) = mem.getRegFlags[i]?.map .registered := by
    intro i
    obtain ⟨s', hs'⟩ := Option.isSome_iff_exists.mp hget
    obtain ⟨s, flags, -, hflags, rfl⟩ := getStream_of_start h hstart hs'
    obtain rfl := Option.some.inj (hbufs.symm.trans hflags)
    rw [ChannelObj.bufStatus, hs']
    simp [StreamObj.status, StreamObj.started]
  have hthread : ∀ hdl s', c'.getStream hdl = some s' → s'.cmdThread.getD [] = [] := by
    intro hdl s' hs'
    obtain ⟨s, flags, -, -, rfl⟩ := getStream_of_start h hstart hs'
    simp only [StreamObj.started]
    split <;> rfl
  refine ⟨.of_start h hstart hclient, ?_, ?_, hflagged, by simp, ?_, ?_, ?_⟩
  · intro hdl s' hs'
    have hnil := hthread hdl s' hs'
    obtain ⟨s, flags, hs, -, rfl⟩ := getStream_of_start h hstart hs'
    refine ⟨hhal hdl s hs, ?_, ?_⟩
    · intro i hi
      have hpos := List.count_pos_iff.mpr hi
      simp only [StreamObj.started, count_flaggedFrom] at hpos
      split_ifs at hpos with hflag
      · simpa [StreamObj.status, StreamObj.started] using congrArg Option.isSome hflag.2
      · cases hpos
    · intro b hb
      rw [hnil] at hb
      cases hb
  · intro i
    show (c'.bufStatus (hdl, i)).isSome ↔ i < mem.getCnt
    rw [hstatus, Option.isSome_map, getRegFlags_getElem? hmin]
    split <;> simp [*]
  · intro i hlt
    have hlt : i < mem.getCnt := hlt
    have hst := hstatus i
    rw [getRegFlags_getElem? hmin, if_pos hlt, Option.map_some] at hst
    have hc := hclient _ _ hst
    show client.count (hdl, i) = 0 + mem.inWindow window' i + 0 + 0
    rw [hc, hcount]
    by_cases hi : i < mem.minUndequeuedBuffers
    · simp [BufStatus.registered, hi, Nat.not_le.mpr hi]
    · simp [BufStatus.registered, hi, Nat.le_of_not_lt hi]
  · intro i hlt
    have hstream : System.inStream ⟨c', [], client⟩ (hdl, i) = 0 := by
      obtain ⟨s', hs'⟩ := Option.isSome_iff_exists.mp hget
      rw [System.inStream, ChannelObj.streamBufs, hs', Option.bind_some, hthread hdl s' hs']
      rfl
    show mem.inWindow window' i + (System.inStream ⟨c', [], client⟩ (hdl, i) + 0) + 0 ≤ 1
    rw [hstream]
    exact hflagged.once i
  · intro _
    obtain ⟨rc, l, heq⟩ := start_eq env c
    obtain rfl : c' = { c.prepare with streams := l } :=
      (Prod.mk.inj (hstart.symm.trans heq)).2
    exact ⟨bundleBufs_start h, rfl⟩

/-- **Preview buffers circulate.**  In every run of a started channel in which
the window takes each frame that is displayed, and the matcher drops none, every
preview buffer stays in its place: none is left with the HAL. -/
theorem preview_buffers_circulate (h : c.Configured)
    (hhal : ∀ hdl s, c.getStream hdl = some s → s.bufCb = halCallbacks)
    (hstart : c.start env = (0, c')) (hclient : HeldByClient c' client)
    (hget : (c'.getStream hdl).isSome) (hnodup : window.Nodup)
    (halloc : GrallocMemory.allocate aops count window = some (true, mem, window'))
    (hbufs : (env hdl).getBufs = some mem.getRegFlags)
    (hrun : Runs Preview.step Displays ⟨⟨c', [], client⟩, hdl, [], [], mem, window'⟩
      evs shown p) : p.InPlace := by
  have hcirc := hrun.inv (fun _ _ p => Circulation p [])
    (.of_start h hhal hstart hclient hget hnodup halloc hbufs)
    (fun _ _ _ _ _ _ hcirc hdisp hs => hcirc.step hdisp hs)
  exact hcirc.inPlace

end Runs

def threeBuffers : AllocOps := ⟨some 1, true, fun cnt => [10, 11, 12][cnt]?, fun _ => true⟩

def threeMem : GrallocMemory := ⟨[10, 11, 12], [.notOwned, .owned, .owned], 1⟩

theorem allocate_threeBuffers :
    GrallocMemory.allocate threeBuffers 2 [10, 11, 12] = some (true, threeMem, [10]) := by
  decide

def halChannel : ChannelObj :=
  { previewChannel false true with
    streams := [⟨1, .cfg, some .preview, false, halCallbacks, none, none, false,
      ⟨false, [], false⟩⟩] }

def threeOps : StreamOps := { ampleOps with getBufs := some threeMem.getRegFlags }

def threeStarted : Preview :=
  ⟨⟨(halChannel.start fun _ => threeOps).2, [], [(1, 0)]⟩, 1, [], [], threeMem, [10]⟩

theorem halChannel_configured : halChannel.Configured :=
  configured_single false true ⟨rfl, rfl, rfl, rfl, rfl⟩ rfl (by decide)
    (show (1 : UInt32) > 0 by decide)

theorem halChannel_callbacks (hdl : UInt32) (s : StreamObj)
    (hs : halChannel.getStream hdl = some s) : s.bufCb = halCallbacks := by
  obtain rfl := List.mem_singleton.mp (List.mem_of_find?_eq_some hs)
  rfl

theorem threeStarted_heldByClient :
    HeldByClient (halChannel.start fun _ => threeOps).2 [(1, 0)] := by
  rintro ⟨hdl, i⟩ st hst
  obtain ⟨s, hs, hst⟩ := Option.bind_eq_some_iff.mp hst
  have hone : s = (halChannel.start fun _ => threeOps).2.streams.head (by decide) :=
    List.mem_singleton.mp (List.mem_of_find?_eq_some hs)
  have hid : hdl = 1 := (getStream_myHdl hs).symm.trans (by rw [hone]; rfl)
  subst hid hone
  match i, hst with
  | 0, hst | 1, hst | 2, hst => cases hst; rfl
  | i + 3, hst => cases hst

/-- A frame is displayed and the buffer that comes back is queued. -/
theorem preview_buffers_circulate_three : ∃ p,
    Runs Preview.step Displays threeStarted
      [.traffic (.frame 1 1 7 none) true, .traffic (.data 1) true, .callback true ⟨true, some 10⟩]
      [1] p ∧ p.InPlace := by
  obtain ⟨p, hexec⟩ : ∃ p, exec Preview.step threeStarted
      [.traffic (.frame 1 1 7 none) true, .traffic (.data 1) true, .callback true ⟨true, some 10⟩] =
        some (p, [1]) := ⟨_, rfl⟩
  have hrun := runs_of_exec_guarded (G := Displays) .nil hexec
    ⟨by simp [Displays], fun _ _ => ⟨by simp [Displays], fun _ _ => ⟨by simp [Displays],
      fun _ _ => trivial⟩⟩⟩
  exact ⟨p, hrun, preview_buffers_circulate halChannel_configured halChannel_callbacks
    (show halChannel.start (fun _ => threeOps) = (0, _) from rfl) threeStarted_heldByClient rfl
    (by decide) allocate_threeBuffers rfl hrun⟩

/-- The window refuses the frame: its buffer is left with the HAL for good, and
only the buffer taken from the window is queued. -/
theorem preview_buffer_stranded : halChannel.Configured ∧
    HeldByClient threeStarted.sys.channel [(1, 0)] ∧
    GrallocMemory.allocate threeBuffers 2 [10, 11, 12] = some (true, threeMem, [10]) ∧
    ∃ p, Runs Preview.step (fun _ _ => True) threeStarted
      [.traffic (.frame 1 1 7 none) true, .traffic (.data 1) true, .callback true ⟨false, some 10⟩]
      [1] p ∧
    p.sys.channel.cmdThread = none ∧ p.mem.localFlag[1]? = some .owned ∧
    p.inWindow 1 = 0 ∧ p.inFlight 1 = 0 ∧ p.sys.channel.inDevice (1, 1) = 0 ∧ ¬ p.InPlace := by
  obtain ⟨p, hexec, hnone, hflag, hwindow, hflight, hdevice, hhdl, hcnt⟩ : ∃ p,
      exec Preview.step threeStarted
        [.traffic (.frame 1 1 7 none) true, .traffic (.data 1) true,
          .callback true ⟨false, some 10⟩] = some (p, [1]) ∧
      p.sys.channel.cmdThread = none ∧ p.mem.localFlag[1]? = some .owned ∧
      p.inWindow 1 = 0 ∧ p.inFlight 1 = 0 ∧ p.sys.channel.inDevice (1, 1) = 0 ∧ p.hdl = 1 ∧
      1 < p.mem.getCnt :=
    ⟨_, rfl, by decide⟩
  refine ⟨halChannel_configured, threeStarted_heldByClient, allocate_threeBuffers, p,
    runs_of_exec_guarded .nil hexec ⟨trivial, fun _ _ => ⟨trivial, fun _ _ => ⟨trivial,
      fun _ _ => trivial⟩⟩⟩, hnone, hflag, hwindow, hflight, hdevice, ?_⟩
  intro hplace
  have hsum := (hplace 1 hcnt).2.2.2 hnone
  rw [hwindow, hflight, hhdl, hdevice] at hsum
  cases hsum

end Interface

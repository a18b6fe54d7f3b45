/-
The clients of the JPEG interface, `mm_jpeg_interface.c`.

The first `jpeg_open` makes the global object and starts its job manager thread;
the `close` of the last client ends both.  A client is a slot of the object, and
its handle holds the index of the slot.

* `Accounted` — `num_clients` counts the used slots, and the object is there
  with a running thread exactly while a client is open;
* `jpeg_clients_accounted` — this holds along every run in which OMX can be
  loaded and only live handles are closed.
-/
import HdxCommon.Handlers
import HdxCommon.Runs

namespace Jpeg

open Interface (generateHandler getIndexByHandler)

/-- `MAX_JPEG_CLIENT_NUM`. -/
abbrev maxJpegClientNum : ℕ := 8

/-- `mm_jpeg_client_t` without its sessions. -/
structure Client where
  isUsed : Bool
  clientHandle : UInt32
  deriving DecidableEq, Repr

/-- `mm_jpeg_obj` as far as its clients are concerned; `jobMgr` says whether the
job manager thread runs. -/
structure JpegObj where
  numClients : ℤ
  clntMgr : Fin maxJpegClientNum → Client
  jobMgr : Bool
  deriving DecidableEq

structure JpegIntf where
  jpegObj : Option JpegObj
  handlerHistoryCount : UInt16
  deriving DecidableEq

/-- The allocations made to end the thread: the `EXIT` command, and its node in
the queue. -/
structure ExitMem where
  cmd : Bool
  node : Bool

structure OpenOps where
  malloc : Bool
  ionBuffer : Bool
  omxInit : Bool
  exit : ExitMem

/-- What it finds when one is closed; `deallocate` is the answer of
`buffer_deallocate`. -/
structure CloseOps where
  exit : ExitMem
  deallocate : ℤ

namespace JpegObj

/-- The object after `memset`, with the thread just launched. -/
def launched : JpegObj := ⟨0, fun _ => ⟨false, 0⟩, true⟩

/-- `mm_jpeg_jobmgr_thread_release`; `none` if it waits for a thread that never
gets the command. -/
def jobmgrThreadRelease (mem : ExitMem) (obj : JpegObj) : Option (ℤ × JpegObj) :=
  if !mem.cmd then some (-1, obj)
  else if !mem.node then none
  else some (0, { obj with jobMgr := false })

/-- `mm_jpeg_init`: the result is 0 although OMX could not be loaded. -/
def init (ops : OpenOps) : Option (ℤ × JpegObj) :=
  if !ops.ionBuffer then do
    let (_, obj) ← launched.jobmgrThreadRelease ops.exit
    return (-1, obj)
  else if !ops.omxInit then do
    let (_, obj) ← launched.jobmgrThreadRelease ops.exit
    return (0, obj)
  else some (0, launched)

/-- `mm_jpeg_new_client`. -/
def newClient (count : UInt16) (obj : JpegObj) : UInt16 × UInt32 × JpegObj :=
  if obj.numClients ≥ maxJpegClientNum then (count, 0, obj)
  else
    match (List.finRange maxJpegClientNum).find? fun idx => !(obj.clntMgr idx).isUsed with
    | none => (count, 0, obj)
    | some idx =>
      let (count, clientHdl) := generateHandler count idx.val.toUInt8
      (count, clientHdl,
        { obj with
          clntMgr := Function.update obj.clntMgr idx ⟨true, clientHdl⟩
          numClients := obj.numClients + 1 })

/-- `mm_jpeg_close`: the slot is cleared whatever handle it has. -/
def close (clientHdl : UInt32) (obj : JpegObj) : ℤ × JpegObj :=
  if h : (getIndexByHandler clientHdl).toNat < maxJpegClientNum then
    (0, { obj with clntMgr := Function.update obj.clntMgr ⟨_, h⟩ ⟨false, 0⟩ })
  else (-1, obj)

end JpegObj

namespace JpegIntf

def openClient (mem : ExitMem) (obj : JpegObj) (count : UInt16) : Option (UInt32 × JpegIntf) :=
  let (count, clntHdl, obj) := obj.newClient count
  if clntHdl > 0 then some (clntHdl, ⟨some obj, count⟩)
  else if obj.numClients = 0 then do
    let _ ← obj.jobmgrThreadRelease mem
    return (clntHdl, ⟨none, count⟩)
  else some (clntHdl, ⟨some obj, count⟩)

/-- `jpeg_open`; `none` if it does not return. -/
def jpegOpen (ops : OpenOps) (s : JpegIntf) : Option (UInt32 × JpegIntf) :=
  match s.jpegObj with
  | some obj => openClient ops.exit obj s.handlerHistoryCount
  | none =>
    if !ops.malloc then some (0, s)
    else do
      let (rc, obj) ← JpegObj.init ops
      if rc ≠ 0 then some (0, s)
      else openClient ops.exit obj s.handlerHistoryCount

/-- `mm_jpeg_intf_close`: the client is counted whether it was found or not. -/
def close (clientHdl : UInt32) (ops : CloseOps) (s : JpegIntf) : Option (ℤ × JpegIntf) :=
  if clientHdl = 0 then some (-1, s)
  else
    match s.jpegObj with
    | none => some (-1, s)
    | some obj =>
      let (rc, obj) := obj.close clientHdl
      let obj := { obj with numClients := obj.numClients - 1 }
      if rc = 0 ∧ obj.numClients = 0 then do
        let _ ← obj.jobmgrThreadRelease ops.exit
        return (ops.deallocate, { s with jpegObj := none })
      else some (rc, { s with jpegObj := some obj })

end JpegIntf

inductive ClientCall where
  | jpegOpen (ops : OpenOps)
  | close (clientHdl : UInt32) (ops : CloseOps)

inductive ClientAnswer where
  | opened (clientHdl : UInt32)
  | closed (rc : ℤ)
  deriving DecidableEq, Repr

namespace JpegIntf

def step (s : JpegIntf) : ClientCall → Option (JpegIntf × List ClientAnswer)
  | .jpegOpen ops => do
    let (clntHdl, s) ← s.jpegOpen ops
    return (s, [.opened clntHdl])
  | .close clientHdl ops => do
    let (rc, s) ← s.close clientHdl ops
    return (s, [.closed rc])

end JpegIntf

/-! ### Counting clients -/

namespace JpegObj

def used (obj : JpegObj) : Finset (Fin maxJpegClientNum) :=
  Finset.univ.filter fun i => (obj.clntMgr i).isUsed

/-- The object has a client, counts its clients, and runs its thread; the handle
of a client holds the index of its slot. -/
structure Counted (obj : JpegObj) : Prop where
  count : obj.numClients = obj.used.card
  client : 0 < obj.used.card
  thread : obj.jobMgr = true
  handle : ∀ i, (obj.clntMgr i).isUsed → (getIndexByHandler (obj.clntMgr i).clientHandle).toNat = i

theorem mem_used {obj : JpegObj} {i : Fin maxJpegClientNum} :
    i ∈ obj.used ↔ (obj.clntMgr i).isUsed = true := by
  simp [used]

theorem used_update_true {obj : JpegObj} {i : Fin maxJpegClientNum} {hdl : UInt32} {n : ℤ} :
    used { obj with clntMgr := Function.update obj.clntMgr i ⟨true, hdl⟩, numClients := n } =
      insert i obj.used := by
  ext j
  rw [Finset.mem_insert, mem_used, mem_used]
  by_cases hj : j = i
  · subst hj
    simp
  · simp [hj]

theorem used_update_false {obj : JpegObj} {i : Fin maxJpegClientNum} :
    used { obj with clntMgr := Function.update obj.clntMgr i ⟨false, 0⟩ } = obj.used.erase i := by
  ext j
  rw [Finset.mem_erase, mem_used, mem_used]
  by_cases hj : j = i
  · subst hj
    simp
  · simp [hj]

variable {obj obj' : JpegObj} {count count' : UInt16} {hdl : UInt32}

theorem newClient_cases (hcount : obj.numClients = obj.used.card) (hthread : obj.jobMgr = true)
    (hhandle : ∀ i, (obj.clntMgr i).isUsed →
      (getIndexByHandler (obj.clntMgr i).clientHandle).toNat = i)
    (h : obj.newClient count = (count', hdl, obj')) :
    hdl > 0 ∧ obj'.Counted ∨ hdl = 0 ∧ obj' = obj ∧ 0 < obj.used.card := by
  unfold newClient at h
  split at h
  · rename_i hfull
    obtain ⟨-, rfl, rfl⟩ := Prod.mk.inj h |>.imp_right Prod.mk.inj
    refine .inr ⟨rfl, rfl, ?_⟩
    rw [hcount] at hfull
    have hle : maxJpegClientNum ≤ obj.used.card := by exact_mod_cast hfull
    exact lt_of_lt_of_le (by decide) hle
  split at h
  · rename_i hfree
    obtain ⟨-, rfl, rfl⟩ := Prod.mk.inj h |>.imp_right Prod.mk.inj
    refine .inr ⟨rfl, rfl, Finset.card_pos.mpr ⟨0, mem_used.mpr ?_⟩⟩
    simpa using List.find?_eq_none.mp hfree 0 (List.mem_finRange 0)
  · rename_i idx hidx
    obtain ⟨-, rfl, rfl⟩ := Prod.mk.inj h |>.imp_right Prod.mk.inj
    have hfree : idx ∉ obj.used := by
      rw [mem_used]
      simpa using List.find?_some hidx
    have hne := @Interface.generateHandler_ne_zero count idx.val.toUInt8
    refine .inl ⟨UInt32.pos_iff_ne_zero.mpr hne, ?_, ?_, hthread, ?_⟩
    · rw [used_update_true, Finset.card_insert_of_notMem hfree, hcount]
      push_cast
      rfl
    · rw [used_update_true]
      exact Finset.card_pos.mpr ⟨idx, Finset.mem_insert_self _ _⟩
    · intro i hi
      by_cases heq : i = idx
      · subst heq
        have hlt : i.val < 8 := i.isLt
        simp only [Function.update_self]
        show (getIndexByHandler (generateHandler count i.val.toUInt8).2).toNat = i.val
        rw [Interface.getIndexByHandler_generateHandler]
        show i.val % 256 = i.val
        omega
      · simp only [Function.update_of_ne heq] at hi ⊢
        exact hhandle i hi

end JpegObj

/-! ### Runs -/

namespace JpegIntf

/-- The number of clients, and of used slots; there are none without an
object. -/
def numClients (s : JpegIntf) : ℤ := s.jpegObj.elim 0 JpegObj.numClients

def usedSlots (s : JpegIntf) : ℕ := s.jpegObj.elim 0 fun obj => obj.used.card

/-- The handle belongs to an open client. -/
def Live (s : JpegIntf) (hdl : UInt32) : Prop :=
  ∃ obj ∈ s.jpegObj, ∃ i, (obj.clntMgr i).isUsed = true ∧ (obj.clntMgr i).clientHandle = hdl

/-- The clients are counted, and the object is there with a running thread
exactly while there are clients. -/
structure Accounted (s : JpegIntf) : Prop where
  count : s.numClients = s.usedSlots
  object : (∃ obj, s.jpegObj = some obj ∧ obj.jobMgr = true) ↔ 0 < s.usedSlots

/-- What must not happen: OMX cannot be loaded, or a handle is closed that is
not live while the object exists. -/
def Proper (s : JpegIntf) : ClientCall → Prop
  | .jpegOpen ops => s.jpegObj = none → ops.malloc = true → ops.ionBuffer = true →
      ops.omxInit = true
  | .close hdl _ => s.Live hdl ∨ hdl = 0 ∨ s.jpegObj = none

instance (s : JpegIntf) (hdl : UInt32) : Decidable (s.Live hdl) :=
  match hobj : s.jpegObj with
  | none => .isFalse (by simp [Live, hobj])
  | some obj =>
    decidable_of_iff
      (∃ i, (obj.clntMgr i).isUsed = true ∧ (obj.clntMgr i).clientHandle = hdl)
      (by simp [Live, hobj])

instance (s : JpegIntf) : (c : ClientCall) → Decidable (s.Proper c)
  | .jpegOpen _ => inferInstanceAs (Decidable (_ → _))
  | .close _ _ => inferInstanceAs (Decidable (_ ∨ _ ∨ _))

/-- The object, if there is one, is counted. -/
def Inv (s : JpegIntf) : Prop := ∀ obj ∈ s.jpegObj, obj.Counted

variable {s s' : JpegIntf} {c : ClientCall} {o : List ClientAnswer}

theorem Inv.accounted (h : s.Inv) : s.Accounted := by
  cases hobj : s.jpegObj with
  | none =>
    refine ⟨?_, ?_⟩
    · simp [numClients, usedSlots, hobj]
    · simp [usedSlots, hobj]
  | some obj =>
    obtain ⟨hcount, hclient, hthread, -⟩ := h obj hobj
    refine ⟨?_, ?_⟩
    · simpa [numClients, usedSlots, hobj] using hcount
    · simp only [usedSlots, hobj, Option.elim_some, hclient, iff_true]
      exact ⟨obj, rfl, hthread⟩

theorem Inv.openClient {obj : JpegObj} {mem : ExitMem} {count : UInt16} {hdl : UInt32}
    (hcount : obj.numClients = obj.used.card) (hthread : obj.jobMgr = true)
    (hhandle : ∀ i, (obj.clntMgr i).isUsed →
      (getIndexByHandler (obj.clntMgr i).clientHandle).toNat = i)
    (hs : JpegIntf.openClient mem obj count = some (hdl, s')) : s'.Inv := by
  obtain ⟨count', hdl', obj', hnew⟩ : ∃ count' hdl' obj', obj.newClient count =
      (count', hdl', obj') := ⟨_, _, _, rfl⟩
  simp only [JpegIntf.openClient, hnew] at hs
  rcases JpegObj.newClient_cases hcount hthread hhandle hnew with
    ⟨hpos, hcounted⟩ | ⟨rfl, rfl, hused⟩
  · rw [if_pos hpos] at hs
    cases hs
    intro obj hobj
    cases hobj
    exact hcounted
  · have hne : obj'.numClients ≠ 0 := by
      rw [hcount]
      omega
    rw [if_neg (show ¬ (0 : UInt32) > 0 by decide), if_neg hne] at hs
    cases hs
    intro obj hobj
    cases hobj
    exact ⟨hcount, hused, hthread, hhandle⟩

theorem Inv.jpegOpen {ops : OpenOps} {hdl : UInt32} (h : s.Inv)
    (homx : s.jpegObj = none → ops.malloc = true → ops.ionBuffer = true → ops.omxInit = true)
    (hs : s.jpegOpen ops = some (hdl, s')) : s'.Inv := by
  unfold JpegIntf.jpegOpen at hs
  split at hs
  · rename_i obj hobj
    obtain ⟨hcount, -, hthread, hhandle⟩ := h obj hobj
    exact Inv.openClient hcount hthread hhandle hs
  · rename_i hnone
    split_ifs at hs with hmalloc
    · cases hs
      exact h
    · obtain ⟨⟨rc, obj⟩, hinit, hs⟩ := Option.bind_eq_some_iff.mp hs
      unfold JpegObj.init at hinit
      by_cases hion : ops.ionBuffer = true
      · simp only [hion, homx hnone (by simpa using hmalloc) hion] at hinit
        cases hinit
        simp only [ne_eq, not_true_eq_false, if_false] at hs
        exact Inv.openClient (by decide) rfl (by simp [JpegObj.launched]) hs
      · simp only [hion] at hinit
        obtain ⟨⟨rc', obj'⟩, -, hinit⟩ := Option.bind_eq_some_iff.mp hinit
        cases hinit
        cases hs
        exact h

theorem Inv.close {hdl : UInt32} {ops : CloseOps} {rc : ℤ} (h : s.Inv) (hlive : s.Live hdl)
    (hne : hdl ≠ 0) (hs : s.close hdl ops = some (rc, s')) : s'.Inv := by
  obtain ⟨obj, hobj, i, hused, rfl⟩ := hlive
  obtain ⟨hcount, hclient, hthread, hhandle⟩ := h obj hobj
  have hidx := hhandle i hused
  have hclose : obj.close (obj.clntMgr i).clientHandle =
      (0, { obj with clntMgr := Function.update obj.clntMgr i ⟨false, 0⟩ }) := by
    unfold JpegObj.close
    rw [dif_pos (by rw [hidx]; exact i.isLt)]
    simp only [hidx, Fin.eta]
  have hcard : (obj.used.erase i).card + 1 = obj.used.card :=
    Finset.card_erase_add_one (JpegObj.mem_used.mpr hused)
  simp only [JpegIntf.close, if_neg hne, Option.mem_def.mp hobj, hclose, true_and] at hs
  split_ifs at hs with hlast
  · obtain ⟨-, -, hs⟩ := Option.bind_eq_some_iff.mp hs
    cases hs
    intro obj hobj
    cases hobj
  · cases hs
    intro obj' hobj'
    cases hobj'
    have hset : JpegObj.used { obj with
        clntMgr := Function.update obj.clntMgr i ⟨false, 0⟩
        numClients := obj.numClients - 1 } = obj.used.erase i :=
      JpegObj.used_update_false
    refine ⟨?_, ?_, hthread, ?_⟩
    · rw [hset]
      show obj.numClients - 1 = _
      omega
    · rw [hset]
      omega
    · intro j hj
      by_cases heq : j = i
      · subst heq
        simp at hj
      · simp only [Function.update_of_ne heq] at hj ⊢
        exact hhandle j hj

theorem close_of_not_live {hdl : UInt32} (ops : CloseOps) (h : hdl = 0 ∨ s.jpegObj = none) :
    s.close hdl ops = some (-1, s) := by
  unfold JpegIntf.close
  rcases h with rfl | hnone
  · rfl
  · rw [hnone]
    simp

/-- **Every proper call keeps the clients counted.** -/
theorem Inv.step (h : s.Inv) (hproper : s.Proper c) (hs : s.step c = some (s', o)) : s'.Inv := by
  cases c with
  | jpegOpen ops =>
    obtain ⟨⟨hdl, t⟩, hopen, hs⟩ := Option.bind_eq_some_iff.mp hs
    cases hs
    exact h.jpegOpen hproper hopen
  | close hdl ops =>
    obtain ⟨⟨rc, t⟩, hclose, hs⟩ := Option.bind_eq_some_iff.mp hs
    cases hs
    by_cases hnone : hdl = 0 ∨ s.jpegObj = none
    · rw [close_of_not_live ops hnone] at hclose
      cases hclose
      exact h
    · have hlive := hproper.resolve_right hnone
      exact h.close hlive (fun hzero => hnone (.inl hzero)) hclose

/-- **The clients are accounted for.**  In every run in which OMX can be loaded
and only live handles are closed, `num_clients` is the number of used slots, the
object is there with a running thread exactly while a client is open, and a
close of another handle, which then finds no object or is 0, changes nothing. -/
theorem jpeg_clients_accounted {count : UInt16} {cs : List ClientCall} {os : List ClientAnswer}
    (hrun : Runs JpegIntf.step Proper ⟨none, count⟩ cs os s) :
    s.Accounted ∧ ∀ hdl ops, s.Proper (.close hdl ops) → ¬ s.Live hdl →
      s.step (.close hdl ops) = some (s, [.closed (-1)]) := by
  have hinv := hrun.inv (fun _ _ s => s.Inv) (by intro obj hobj; cases hobj)
    (fun _ _ _ _ _ _ hinv hproper hs => hinv.step hproper hs)
  refine ⟨hinv.accounted, ?_⟩
  intro hdl ops hproper hdead
  have hclose := close_of_not_live ops (hproper.resolve_left hdead)
  simp [JpegIntf.step, hclose]

def ampleOpen : OpenOps := ⟨true, true, true, ⟨true, true⟩⟩

def ampleClose : CloseOps := ⟨⟨true, true⟩, 0⟩

/-- Two clients are opened, and the first is closed. -/
theorem jpeg_clients_accounted_two : ∃ s,
    Runs JpegIntf.step Proper ⟨none, 0⟩
      [.jpegOpen ampleOpen, .jpegOpen ampleOpen, .close 0x100 ampleClose]
      [.opened 0x100, .opened 0x201, .closed 0] s ∧ s.Accounted := by
  obtain ⟨s, hrun⟩ : ∃ s, Runs JpegIntf.step Proper ⟨none, 0⟩
      [.jpegOpen ampleOpen, .jpegOpen ampleOpen, .close 0x100 ampleClose]
      [.opened 0x100, .opened 0x201, .closed 0] s :=
    exists_runs_of_outputs (by decide) (by decide)
  exact ⟨s, hrun, (jpeg_clients_accounted hrun).1⟩

/-- Two clients are open, and a handle that was never issued is closed: one
client is left in the count. -/
theorem jpeg_close_miscounts : ∃ s s',
    Runs JpegIntf.step (fun _ _ => True) ⟨none, 0⟩ [.jpegOpen ampleOpen, .jpegOpen ampleOpen]
      [.opened 0x100, .opened 0x201] s ∧
    ¬ s.Live 0x309 ∧ s.step (.close 0x309 ampleClose) = some (s', [.closed (-1)]) ∧
    s'.numClients = 1 ∧ s'.usedSlots = 2 ∧ ¬ s'.Accounted := by
  obtain ⟨s, s', hexec, hdead, hclose, hnum, hused⟩ : ∃ s s',
      exec JpegIntf.step ⟨none, 0⟩ [.jpegOpen ampleOpen, .jpegOpen ampleOpen] =
        some (s, [.opened 0x100, .opened 0x201]) ∧
      ¬ s.Live 0x309 ∧ s.step (.close 0x309 ampleClose) = some (s', [.closed (-1)]) ∧
      s'.numClients = 1 ∧ s'.usedSlots = 2 :=
    ⟨_, _, rfl, by decide, rfl, by decide, by decide⟩
  refine ⟨s, s', runs_of_exec hexec, hdead, hclose, hnum, hused, ?_⟩
  intro hacc
  have hcount := hacc.count
  rw [hnum, hused] at hcount
  exact absurd hcount (by decide)

end JpegIntf

end Jpeg

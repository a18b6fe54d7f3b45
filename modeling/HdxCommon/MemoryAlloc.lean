/-
The buffers of a stream, `QCameraMem.cpp`: how the memory classes allocate them, and
what they give back when something fails.

* `AllOrNothing` — what `allocate` is to do: all buffers are there, or everything has
  been given back;
* `HeapMemory.allocate_iff`, `VideoMemory.allocate_iff` — heap and video memories do so
  exactly if nothing fails that they do not undo.

A resource is named after its kind and the buffer that it is acquired for, and the
ledger of an object says what it has acquired and released.  The model answers
`none` where the code leaves an array or uses a NULL pointer.
-/
import HdxCommon.Buffers
import HdxCommon.Ledger
import HdxCommon.Rounding

namespace Mem

open Rounding

/-! ### Resources -/

/-- `MM_CAMERA_MAX_NUM_FRAMES`. -/
def maxNumFrames : ℕ := 24

/-- What is acquired for a buffer: `/dev/ion`, a handle, a file descriptor for the
memory, a mapping, `camera_memory_t` for the buffer and for its metadata, and a buffer
of the window. -/
inductive Kind where
  | ionFd
  | handle
  | fd
  | mapping
  | memory
  | metadata
  | window
  deriving DecidableEq

/-- A resource, and the index of the buffer that it has been acquired for. -/
abbrev Resource := Kind × ℕ

/-- Which operations fail, by the index of the buffer they are for. -/
structure Faults where
  ionOpen : ℕ → Bool
  ionAlloc : ℕ → Bool
  ionShare : ℕ → Bool
  ionImport : ℕ → Bool
  mmap : ℕ → Bool
  getMemory : ℕ → Bool
  metadata : ℕ → Bool
  dequeueBuffer : ℕ → Bool

def noFaults : Faults where
  ionOpen _ := false
  ionAlloc _ := false
  ionShare _ := false
  ionImport _ := false
  mmap _ := false
  getMemory _ := false
  metadata _ := false
  dequeueBuffer _ := false

def ok : ℤ := 0
def noMemory : ℤ := -12
def invalidOperation : ℤ := -38
def badIndex : ℤ := -75
def unknownError : ℤ := -2 ^ 31

/-! ### Buffers from ION -/

/-- `QCameraMemInfo`. -/
structure MemInfo where
  fd : Option Resource
  mainIonFd : Option Resource
  handle : Option Resource
  size : ℕ

def MemInfo.zero : MemInfo := ⟨none, none, none, 0⟩

/-- `QCameraMemory`, with its ledger. -/
structure CameraMemory where
  mBufferCount : ℕ
  mMemInfo : List MemInfo
  ledger : Ledger Resource

namespace CameraMemory

def new : CameraMemory := ⟨0, .replicate maxNumFrames .zero, .empty⟩

/-- The length of a buffer: that asked for, in whole pages. -/
def allocLen (size : ℕ) : ℕ := maskUp size 4096

/-- `allocOneBuffer`, for `mMemInfo[i]`. -/
def allocOneBuffer (f : Faults) (size i : ℕ) (m : CameraMemory) : Option (ℤ × CameraMemory) :=
  if f.ionOpen i then some (noMemory, m)
  else
    let ledger := m.ledger.acquire (.ionFd, i)
    if f.ionAlloc i then some (noMemory, { m with ledger := ledger.release (.ionFd, i) })
    else
      let ledger := ledger.acquire (.handle, i)
      if f.ionShare i then
        some (noMemory, { m with ledger := (ledger.release (.handle, i)).release (.ionFd, i) })
      else do
        let memInfo ← store m.mMemInfo i
          ⟨some (.fd, i), some (.ionFd, i), some (.handle, i), allocLen size⟩
        return (ok, { m with mMemInfo := memInfo, ledger := ledger.acquire (.fd, i) })

/-- `deallocOneBuffer`, for `mMemInfo[i]`. -/
def deallocOneBuffer (i : ℕ) (m : CameraMemory) : Option CameraMemory := do
  let info ← load m.mMemInfo i
  let ledger := m.ledger.releaseOpt info.fd
  let ledger := match info.mainIonFd with
    | none => ledger
    | some ionFd => (ledger.releaseOpt info.handle).release ionFd
  let memInfo ← store m.mMemInfo i .zero
  return { m with mMemInfo := memInfo, ledger := ledger }

/-- A round of the loop of `alloc`: when a buffer cannot be had, the ones before it
are given back. -/
def allocRound (f : Faults) (size i : ℕ) (m : CameraMemory) :
    Option (Option ℤ × CameraMemory) := do
  let (rc, m) ← m.allocOneBuffer f size i
  if rc < 0 then return (some rc, ← forDown deallocOneBuffer i m)
  else return (none, m)

/-- `alloc`. -/
def alloc (f : Faults) (count size : ℕ) (m : CameraMemory) : Option (ℤ × CameraMemory) :=
  if maxNumFrames < count then some (badIndex, m)
  else if m.mBufferCount ≠ 0 then some (invalidOperation, m)
  else do
    let (returned, m) ← tryEach (allocRound f size) count m
    return (returned.getD ok, m)

/-- `dealloc`. -/
def dealloc (m : CameraMemory) : Option CameraMemory := forEach deallocOneBuffer m.mBufferCount m

end CameraMemory

/-! ### Heap memory -/

/-- `QCameraHeapMemory`. -/
structure HeapMemory extends CameraMemory where
  mPtr : List (Option Resource)

namespace HeapMemory

def new : HeapMemory := ⟨.new, .replicate maxNumFrames none⟩

/-- A round of the loop of `allocate`.  When a buffer cannot be mapped, the pointer
that is unmapped is the one that has not been set, and the loop goes on. -/
def mmapRound (f : Faults) (i : ℕ) : ℤ × HeapMemory → Option (ℤ × HeapMemory)
  | (rc, m) =>
    if f.mmap i then
      if i = 0 then some (rc, m)
      else do
        let ptr ← load m.mPtr i
        return (noMemory, { m with ledger := m.ledger.releaseOpt ptr })
    else do
      let mPtr ← store m.mPtr i (some (.mapping, i))
      return (rc, { m with mPtr := mPtr, ledger := m.ledger.acquire (.mapping, i) })

/-- `allocate`. -/
def allocate (f : Faults) (count size : ℕ) (m : HeapMemory) : Option (ℤ × HeapMemory) := do
  let (rc, base) ← m.toCameraMemory.alloc f count size
  let m := { m with toCameraMemory := base }
  if rc < 0 then return (rc, m)
  else
    let (rc, m) ← forEach (mmapRound f) count (rc, m)
    return (ok, if rc = 0 then { m with mBufferCount := count } else m)

end HeapMemory

/-! ### Video memory -/

/-- `QCameraStreamMemory`. -/
structure StreamMemory extends CameraMemory where
  mCameraMemory : List (Option Resource)

namespace StreamMemory

def new : StreamMemory := ⟨.new, .replicate maxNumFrames none⟩

/-- A round of the loop of `allocate`; whether there is memory is not asked. -/
def memoryRound (f : Faults) (i : ℕ) (m : StreamMemory) : Option StreamMemory :=
  if f.getMemory i then do
    let mCameraMemory ← store m.mCameraMemory i none
    return { m with mCameraMemory := mCameraMemory }
  else do
    let mCameraMemory ← store m.mCameraMemory i (some (.memory, i))
    return { m with mCameraMemory := mCameraMemory, ledger := m.ledger.acquire (.memory, i) }

/-- `allocate`. -/
def allocate (f : Faults) (count size : ℕ) (m : StreamMemory) : Option (ℤ × StreamMemory) := do
  let (rc, base) ← m.toCameraMemory.alloc f count size
  let m := { m with toCameraMemory := base }
  if rc < 0 then return (rc, m)
  else
    let m ← forEach (memoryRound f) count m
    return (ok, { m with mBufferCount := count })

/-- A round of the loop of `deallocate`. -/
def releaseRound (i : ℕ) (m : StreamMemory) : Option StreamMemory := do
  let memory ← (load m.mCameraMemory i).join
  let mCameraMemory ← store m.mCameraMemory i none
  return { m with mCameraMemory := mCameraMemory, ledger := m.ledger.release memory }

/-- `deallocate`. -/
def deallocate (m : StreamMemory) : Option StreamMemory := do
  let m ← forEach releaseRound m.mBufferCount m
  let base ← m.toCameraMemory.dealloc
  return { m with toCameraMemory := { base with mBufferCount := 0 } }

end StreamMemory

/-- `QCameraVideoMemory`. -/
structure VideoMemory extends StreamMemory where
  mMetadata : List (Option Resource)

namespace VideoMemory

def new : VideoMemory := ⟨.new, .replicate maxNumFrames none⟩

/-- `mMetadata[j]->release(mMetadata[j])`. -/
def releaseMetadata (j : ℕ) (m : VideoMemory) : Option VideoMemory := do
  let metadata ← (load m.mMetadata j).join
  return { m with ledger := m.ledger.release metadata }

/-- A round of the loop of `allocate`.  When there is no memory for the metadata,
those before `i - 1` are released, and the buffers. -/
def metadataRound (f : Faults) (i : ℕ) (m : VideoMemory) : Option (Option ℤ × VideoMemory) :=
  if f.metadata i then do
    let mMetadata ← store m.mMetadata i none
    let m ← forEach releaseMetadata (i - 1) { m with mMetadata := mMetadata }
    let base ← m.toStreamMemory.deallocate
    return (some noMemory, { m with toStreamMemory := base })
  else do
    let mMetadata ← store m.mMetadata i (some (.metadata, i))
    return (none, { m with mMetadata := mMetadata, ledger := m.ledger.acquire (.metadata, i) })

/-- `allocate`. -/
def allocate (f : Faults) (count size : ℕ) (m : VideoMemory) : Option (ℤ × VideoMemory) := do
  let (rc, base) ← m.toStreamMemory.allocate f count size
  let m := { m with toStreamMemory := base }
  if rc < 0 then return (rc, m)
  else
    match ← tryEach (metadataRound f) count m with
    | (some rc, m) => return (rc, m)
    | (none, m) => return (ok, { m with mBufferCount := count })

end VideoMemory

/-! ### All or nothing -/

namespace CameraMemory

/-- The field of `mMemInfo[i]` is a resource that is there. -/
def Holds (m : CameraMemory) (field : MemInfo → Option Resource) (i : ℕ) : Prop :=
  ∃ info, load m.mMemInfo i = some info ∧ ∃ r ∈ field info, m.ledger.Live r

/-- The pointer with index `i` is to a resource that is there. -/
def HoldsPtr (m : CameraMemory) (ptrs : List (Option Resource)) (i : ℕ) : Prop :=
  ∃ r, load ptrs i = some (some r) ∧ m.ledger.Live r

/-- Buffer `i` has its memory from ION. -/
def HoldsIon (m : CameraMemory) (i : ℕ) : Prop :=
  m.Holds MemInfo.mainIonFd i ∧ m.Holds MemInfo.handle i ∧ m.Holds MemInfo.fd i

end CameraMemory

/-- Buffer `i` can be used: its memory is there and mapped. -/
def HeapMemory.Usable (m : HeapMemory) (i : ℕ) : Prop := m.HoldsIon i ∧ m.HoldsPtr m.mPtr i

/-- For video memory there is `camera_memory_t` for the buffer and for its
metadata. -/
def VideoMemory.Usable (m : VideoMemory) (i : ℕ) : Prop :=
  m.HoldsIon i ∧ m.HoldsPtr m.mCameraMemory i ∧ m.HoldsPtr m.mMetadata i

/-- What `allocate` is to do: succeed with so many buffers that can be used, or report
an error with everything released. -/
def AllOrNothing {σ : Type*} (base : σ → CameraMemory) (usable : σ → ℕ → Prop) (n : ℕ) :
    Option (ℤ × σ) → Prop
  | none => False
  | some (rc, m) =>
    rc = ok ∧ (base m).mBufferCount = n ∧ (∀ i < n, usable m i) ∨
      rc ≠ ok ∧ (base m).ledger.Settled

/-! ### The loop over the buffers from ION -/

/-- The operations of ION succeed for buffer `i`. -/
def Faults.IonOk (f : Faults) (i : ℕ) : Prop :=
  f.ionOpen i = false ∧ f.ionAlloc i = false ∧ f.ionShare i = false

instance (f : Faults) : DecidablePred f.IonOk :=
  fun _ => inferInstanceAs (Decidable (_ ∧ _ ∧ _))

def Faults.Allocates (f : Faults) (count : ℕ) : Prop :=
  count ≤ maxNumFrames ∧ ∀ i < count, f.IonOk i

/-- What a buffer from ION consists of, in the order in which it is acquired. -/
def ionOf (i : ℕ) : List Resource := [(.ionFd, i), (.handle, i), (.fd, i)]

theorem nodup_flatMap {g : ℕ → List Resource} (hnodup : ∀ i, (g i).Nodup)
    (hindex : ∀ i, ∀ r ∈ g i, r.2 = i) (n : ℕ) : ((List.range n).flatMap g).Nodup := by
  refine List.nodup_flatMap.mpr ⟨fun i _ => hnodup i, ?_⟩
  refine List.Nodup.pairwise_of_forall_ne List.nodup_range fun i _ j _ hij r hi hj => hij ?_
  rw [← hindex i r hi, hindex j r hj]

theorem nodup_ionOf (i : ℕ) : (ionOf i).Nodup := by simp [ionOf]

theorem ionOf_index {i : ℕ} {r : Resource} (h : r ∈ ionOf i) : r.2 = i := by
  simp only [ionOf, List.mem_cons, List.not_mem_nil, or_false] at h
  obtain rfl | rfl | rfl := h <;> rfl

namespace CameraMemory

variable {f : Faults} {size count i n : ℕ} {m : CameraMemory}

def infoOf (size i : ℕ) : MemInfo :=
  ⟨some (.fd, i), some (.ionFd, i), some (.handle, i), allocLen size⟩

/-- The object with the first `i` buffers allocated. -/
def allocated (m : CameraMemory) (size i : ℕ) : CameraMemory :=
  { m with
    mMemInfo := filled (infoOf size) m.mMemInfo i
    ledger := ⟨m.ledger.acquired ++ (List.range i).flatMap ionOf, m.ledger.released⟩ }

theorem allocRound_ok (hok : f.IonOk i) (hi : i < m.mMemInfo.length) :
    allocRound f size i (m.allocated size i) = some (none, m.allocated size (i + 1)) := by
  obtain ⟨hopen, halloc, hshare⟩ := hok
  have hstore := store_filled (infoOf size) hi
  simp only [infoOf] at hstore
  simp [allocRound, allocOneBuffer, allocated, hopen, halloc, hshare, hstore, Ledger.acquire, ok,
    List.range_succ, ionOf]

theorem deallocOneBuffer_eq (h : load m.mMemInfo i = some (infoOf size i)) :
    deallocOneBuffer i m = some { m with
      mMemInfo := m.mMemInfo.set i .zero
      ledger := ⟨m.ledger.acquired, m.ledger.released ++ (ionOf i).reverse⟩ } := by
  have hi : i < m.mMemInfo.length := isSome_load.mp (by rw [h]; rfl)
  simp [deallocOneBuffer, h, infoOf, store_eq_some.mpr ⟨hi, rfl⟩, Ledger.releaseOpt,
    Ledger.release, ionOf]

theorem allocOneBuffer_fails (hno : ¬ f.IonOk i) :
    ∃ part, part <+: ionOf i ∧ allocOneBuffer f size i m = some (noMemory, { m with
      ledger := ⟨m.ledger.acquired ++ part, m.ledger.released ++ part.reverse⟩ }) := by
  rw [allocOneBuffer]
  cases hopen : f.ionOpen i with
  | true => exact ⟨[], List.nil_prefix, by simp⟩
  | false =>
    cases halloc : f.ionAlloc i with
    | true => exact ⟨[(.ionFd, i)], by simp [ionOf], by simp [Ledger.acquire, Ledger.release]⟩
    | false =>
      cases hshare : f.ionShare i with
      | true =>
        exact ⟨[(.ionFd, i), (.handle, i)], by simp [ionOf],
          by simp [Ledger.acquire, Ledger.release]⟩
      | false => exact absurd ⟨hopen, halloc, hshare⟩ hno

theorem forDown_dealloc (h : ∀ j < n, load m.mMemInfo j = some (infoOf size j)) :
    ∃ infos, forDown deallocOneBuffer n m = some { m with
      mMemInfo := infos
      ledger := ⟨m.ledger.acquired,
        m.ledger.released ++ ((List.range n).flatMap ionOf).reverse⟩ } := by
  induction n generalizing m with
  | zero => exact ⟨m.mMemInfo, by simp [forDown]⟩
  | succ n ih =>
    have hone := deallocOneBuffer_eq (h n (Nat.lt_succ_self n))
    obtain ⟨infos, hrest⟩ := @ih { m with
      mMemInfo := m.mMemInfo.set n .zero
      ledger := ⟨m.ledger.acquired, m.ledger.released ++ (ionOf n).reverse⟩ } (by
        intro j hj
        rw [load, List.getElem?_set_ne (by omega)]
        exact h j (by omega))
    refine ⟨infos, ?_⟩
    rw [forDown, hone, Option.bind_some, hrest, List.range_succ, List.flatMap_append]
    simp

theorem forEach_dealloc (h : ∀ j < n, load m.mMemInfo j = some (infoOf size j)) :
    ∃ infos, forEach deallocOneBuffer n m = some { m with
      mMemInfo := infos
      ledger := ⟨m.ledger.acquired,
        m.ledger.released ++ (List.range n).flatMap fun i => (ionOf i).reverse⟩ } := by
  have hrest : ∀ k ≤ n, ∃ infos, forEach deallocOneBuffer k m = some { m with
      mMemInfo := infos
      ledger := ⟨m.ledger.acquired,
        m.ledger.released ++ (List.range k).flatMap fun i => (ionOf i).reverse⟩ } ∧
      ∀ j, k ≤ j → load infos j = load m.mMemInfo j := by
    intro k hk
    induction k with
    | zero => exact ⟨m.mMemInfo, by simp [forEach], fun _ _ => rfl⟩
    | succ k ih =>
      obtain ⟨infos, hloop, hkept⟩ := ih (by omega)
      have hone := @deallocOneBuffer_eq size k { m with
        mMemInfo := infos
        ledger := ⟨m.ledger.acquired,
          m.ledger.released ++ (List.range k).flatMap fun i => (ionOf i).reverse⟩ }
        ((hkept k le_rfl).trans (h k (by omega)))
      refine ⟨infos.set k .zero, ?_, ?_⟩
      · rw [forEach, hloop, Option.bind_some, hone, List.range_succ, List.flatMap_append]
        simp
      · intro j hj
        rw [load, List.getElem?_set_ne (by omega)]
        exact hkept j (by omega)
  obtain ⟨infos, hloop, -⟩ := hrest n le_rfl
  exact ⟨infos, hloop⟩

theorem load_allocated {j : ℕ} (hj : j < i) :
    load (m.allocated size i).mMemInfo j = some (infoOf size j) :=
  load_filled (infoOf size) hj

theorem allocRound_fails (hno : ¬ f.IonOk i) :
    ∃ infos got, got.Nodup ∧ allocRound f size i (m.allocated size i) =
      some (some noMemory, { m with
        mMemInfo := infos
        ledger := ⟨m.ledger.acquired ++ got, m.ledger.released ++ got.reverse⟩ }) := by
  obtain ⟨part, hpart, hone⟩ := @allocOneBuffer_fails f size i (m.allocated size i) hno
  obtain ⟨infos, hundo⟩ := @forDown_dealloc size i { m.allocated size i with
    ledger := ⟨(m.allocated size i).ledger.acquired ++ part,
      (m.allocated size i).ledger.released ++ part.reverse⟩ } fun j hj => load_allocated hj
  refine ⟨infos, (List.range i).flatMap ionOf ++ part, ?_, ?_⟩
  · have hnodup := nodup_flatMap nodup_ionOf (fun _ _ => ionOf_index) (i + 1)
    rw [List.range_succ, List.flatMap_append, List.flatMap_singleton] at hnodup
    exact hnodup.sublist ((List.Sublist.refl _).append hpart.sublist)
  · rw [allocRound, hone]
    simp only [Option.bind_eq_bind, Option.bind_some, hundo]
    simp [noMemory, allocated]

/-- **Buffers from ION**: all of them are there, or … -/
theorem alloc_of_ok (hcount : count ≤ maxNumFrames) (hzero : m.mBufferCount = 0)
    (hlen : m.mMemInfo.length = maxNumFrames) (hok : ∀ i < count, f.IonOk i) :
    m.alloc f count size = some (ok, m.allocated size count) := by
  have hstart : m.allocated size 0 = m := by simp [allocated]
  have hloop : tryEach (allocRound f size) count (m.allocated size 0) = _ :=
    tryEach_eq (S := m.allocated size) fun i hi => allocRound_ok (hok i hi) (by omega)
  rw [hstart] at hloop
  simp [alloc, hcount, hzero, hloop]

/-- … they are all given back. -/
theorem alloc_of_fails (hcount : count ≤ maxNumFrames) (hzero : m.mBufferCount = 0)
    (hlen : m.mMemInfo.length = maxNumFrames) (hno : ¬ ∀ i < count, f.IonOk i) :
    ∃ infos got, got.Nodup ∧ m.alloc f count size = some (noMemory, { m with
      mMemInfo := infos
      ledger := ⟨m.ledger.acquired ++ got, m.ledger.released ++ got.reverse⟩ }) := by
  obtain hall | ⟨k, hk, hbefore, hfails⟩ := first_failure f.IonOk count
  · exact absurd hall hno
  obtain ⟨infos, got, hnodup, hround⟩ := @allocRound_fails f size k m hfails
  refine ⟨infos, got, hnodup, ?_⟩
  have hstart : m.allocated size 0 = m := by simp [allocated]
  have hloop := tryEach_return (S := m.allocated size) hk
    (fun i hi => allocRound_ok (hbefore i hi) (by omega)) hround
  rw [hstart] at hloop
  simp [alloc, hcount, hzero, hloop]

theorem alloc_new (f : Faults) (count size : ℕ) :
    (¬ f.Allocates count ∧ ∃ rc m, new.alloc f count size = some (rc, m) ∧ rc < 0 ∧
      m.ledger.Settled) ∨
    f.Allocates count ∧ new.alloc f count size = some (ok, new.allocated size count) := by
  by_cases hcount : count ≤ maxNumFrames
  · by_cases hok : ∀ i < count, f.IonOk i
    · exact Or.inr ⟨⟨hcount, hok⟩, alloc_of_ok hcount rfl rfl hok⟩
    · obtain ⟨infos, got, hnodup, halloc⟩ := @alloc_of_fails f size count new hcount rfl rfl hok
      exact Or.inl ⟨fun h => hok h.2, _, _, halloc, by decide, Ledger.settled_reverse hnodup⟩
  · refine Or.inl ⟨fun h => hcount h.1, badIndex, new, ?_, by decide, Ledger.settled_empty⟩
    rw [alloc, if_pos (by omega)]

theorem holdsIon {i n : ℕ} (hinfo : load m.mMemInfo i = some (infoOf size i)) (hi : i < n)
    (hacquired : (List.range n).flatMap ionOf ⊆ m.ledger.acquired)
    (hreleased : m.ledger.released = []) : m.HoldsIon i := by
  have hlive : ∀ r ∈ ionOf i, m.ledger.Live r := fun r hr =>
    ⟨hacquired (List.mem_flatMap.mpr ⟨i, List.mem_range.mpr hi, hr⟩), by simp [hreleased]⟩
  exact ⟨⟨_, hinfo, _, rfl, hlive _ (by simp [ionOf])⟩,
    ⟨_, hinfo, _, rfl, hlive _ (by simp [ionOf])⟩,
    ⟨_, hinfo, _, rfl, hlive _ (by simp [ionOf])⟩⟩

end CameraMemory

/-! ### Heap memory -/

namespace HeapMemory

variable {f : Faults} {count size i : ℕ}

/-- The object with all buffers allocated and the first `i` mapped. -/
def mapped (count size i : ℕ) : HeapMemory where
  toCameraMemory := { CameraMemory.new.allocated size count with
    ledger := ⟨(List.range count).flatMap ionOf ++ (List.range i).map (.mapping, ·), []⟩ }
  mPtr := filled (fun j => some (.mapping, j)) HeapMemory.new.mPtr i

theorem mmapRound_ok {rc : ℤ} (hok : f.mmap i = false) (hi : i < maxNumFrames) :
    mmapRound f i (rc, mapped count size i) = some (rc, mapped count size (i + 1)) := by
  have hstore := store_filled (fun j => some ((.mapping, j) : Resource))
    (show i < HeapMemory.new.mPtr.length by simpa [HeapMemory.new] using hi)
  simp [mmapRound, hok, mapped, hstore, Ledger.acquire, List.range_succ]

/-- When a buffer cannot be mapped, no buffers are recorded, or the first one has no
pointer. -/
structure Unmapped (f : Faults) (n : ℕ) (s : ℤ × HeapMemory) : Prop where
  count : s.2.mBufferCount = 0
  rc : ∀ k < n, 0 < k → f.mmap k = true → s.1 = noMemory
  first : f.mmap 0 = true → load s.2.mPtr 0 = some none

theorem unmapped_zero : Unmapped f 0 (ok, mapped count size 0) :=
  ⟨rfl, fun _ hk => absurd hk (Nat.not_lt_zero _), fun _ => rfl⟩

theorem Unmapped.step {s s' : ℤ × HeapMemory} (h : Unmapped f i s)
    (hround : mmapRound f i s = some s') : Unmapped f (i + 1) s' := by
  obtain ⟨rc, m⟩ := s
  obtain ⟨hcount, hrc, hfirst⟩ := h
  simp only [mmapRound] at hround
  split_ifs at hround with hfails hi
  · cases hround
    exact ⟨hcount, fun k hk hpos => by omega, hfirst⟩
  · obtain ⟨ptr, -, hround⟩ := Option.bind_eq_some_iff.mp hround
    cases hround
    exact ⟨hcount, fun _ _ _ _ => rfl, hfirst⟩
  · obtain ⟨mPtr, hstore, hround⟩ := Option.bind_eq_some_iff.mp hround
    cases hround
    refine ⟨hcount, ?_, ?_⟩
    · intro k hk hpos hk'
      obtain hlt | rfl := Nat.lt_succ_iff_lt_or_eq.mp hk
      · exact hrc k hlt hpos hk'
      · exact absurd hk' hfails
    · intro h0
      have hi : i ≠ 0 := by
        rintro rfl
        exact hfails h0
      rw [load_of_store_ne hstore hi]
      exact hfirst h0

theorem allocate_eq (halloc : CameraMemory.new.alloc f count size =
    some (ok, CameraMemory.new.allocated size count)) :
    new.allocate f count size = (forEach (mmapRound f) count (ok, mapped count size 0)).bind
      fun s => some (ok, if s.1 = 0 then { s.2 with mBufferCount := count } else s.2) := by
  have hstart : mapped count size 0 =
      { new with toCameraMemory := CameraMemory.new.allocated size count } := by
    simp [mapped, new, CameraMemory.allocated, CameraMemory.new, Ledger.empty]
  rw [allocate, show new.toCameraMemory = CameraMemory.new from rfl, halloc, hstart]
  rfl

theorem usable_mapped (hi : i < count) :
    ({ mapped count size count with mBufferCount := count } : HeapMemory).Usable i := by
  refine ⟨CameraMemory.holdsIon (CameraMemory.load_allocated hi) hi
    (List.subset_append_left _ _) rfl, (.mapping, i), load_filled _ hi, ?_, by simp [mapped]⟩
  simp [mapped, hi]

theorem allocate_iff (f : Faults) (count size : ℕ) :
    AllOrNothing toCameraMemory Usable count (new.allocate f count size) ↔
      (f.Allocates count → ∀ i < count, f.mmap i = false) := by
  obtain ⟨hno, rc, base, halloc, hrc, hsettled⟩ | ⟨hallocates, halloc⟩ :=
    CameraMemory.alloc_new f count size
  · refine iff_of_true ?_ fun h => absurd h hno
    have hret : new.allocate f count size = some (rc, { new with toCameraMemory := base }) := by
      simp [allocate, show new.toCameraMemory = CameraMemory.new from rfl, halloc, hrc]
    rw [hret]
    exact Or.inr ⟨by unfold ok; omega, hsettled⟩
  rw [allocate_eq halloc]
  by_cases hmmap : ∀ i < count, f.mmap i = false
  · refine iff_of_true ?_ fun _ => hmmap
    have hloop := forEach_eq (S := fun i => (ok, mapped count size i)) (n := count)
      fun i hi => mmapRound_ok (hmmap i hi) (by have := hallocates.1; omega)
    rw [hloop]
    exact Or.inl ⟨rfl, rfl, fun i hi => usable_mapped hi⟩
  · refine iff_of_false ?_ fun h => hmmap (h hallocates)
    obtain ⟨k, hk, hfails⟩ : ∃ k < count, f.mmap k = true := by simpa using hmmap
    cases hloop : forEach (mmapRound f) count (ok, mapped count size 0) with
    | none => exact id
    | some s =>
      obtain ⟨hcount, hrc, hfirst⟩ := forEach_inv (Unmapped f)
        (fun i s s' _ h hround => h.step hround) unmapped_zero hloop
      rintro (⟨-, hrecorded, husable⟩ | ⟨hne, -⟩)
      · cases k with
        | zero =>
          -- the first buffer counts, but is not mapped
          obtain ⟨-, r, hptr, -⟩ := husable 0 hk
          have hsame : load s.2.mPtr 0 = some (some r) := by
            split_ifs at hptr
            all_goals exact hptr
          exact absurd (hfirst hfails ▸ hsame) (by simp)
        | succ k =>
          -- no buffer counts
          have hno := hrc (k + 1) hk (Nat.succ_pos k) hfails
          simp only [hno, noMemory] at hrecorded
          have hzero : s.2.mBufferCount = count := hrecorded
          omega
      · exact hne rfl

end HeapMemory

/-! ### Video memory -/

namespace StreamMemory

variable {f : Faults} {count size i n : ℕ} {m m' : StreamMemory}

/-- What `mGetMemory` gives for buffer `i`. -/
def memoryOf (f : Faults) (i : ℕ) : Option Resource :=
  if f.getMemory i then none else some (.memory, i)

/-- The object with all buffers allocated, and what `mGetMemory` has given for the
first `i`. -/
def requested (f : Faults) (count size i : ℕ) : StreamMemory where
  toCameraMemory := { CameraMemory.new.allocated size count with
    ledger := ⟨(List.range count).flatMap ionOf ++ (List.range i).filterMap (memoryOf f), []⟩ }
  mCameraMemory := filled (memoryOf f) StreamMemory.new.mCameraMemory i

theorem memoryRound_eq (hi : i < maxNumFrames) :
    memoryRound f i (requested f count size i) = some (requested f count size (i + 1)) := by
  have hstore := store_filled (memoryOf f)
    (show i < StreamMemory.new.mCameraMemory.length by simpa [StreamMemory.new] using hi)
  cases hfails : f.getMemory i with
  | true =>
    have hnone : memoryOf f i = none := by simp [memoryOf, hfails]
    rw [hnone] at hstore
    simp [memoryRound, hfails, requested, hstore, List.range_succ, hnone]
  | false =>
    have hsome : memoryOf f i = some (.memory, i) := by simp [memoryOf, hfails]
    rw [hsome] at hstore
    simp [memoryRound, hfails, requested, hstore, List.range_succ, hsome, Ledger.acquire]

/-- The object that `allocate` leaves. -/
def provided (f : Faults) (count size : ℕ) : StreamMemory :=
  { requested f count size count with mBufferCount := count }

theorem allocate_new (f : Faults) (count size : ℕ) :
    (¬ f.Allocates count ∧ ∃ rc m, new.allocate f count size = some (rc, m) ∧ rc < 0 ∧
      m.ledger.Settled) ∨
    f.Allocates count ∧ new.allocate f count size = some (ok, provided f count size) := by
  have hbase : new.toCameraMemory = CameraMemory.new := rfl
  obtain ⟨hno, rc, base, halloc, hrc, hsettled⟩ | ⟨hallocates, halloc⟩ :=
    CameraMemory.alloc_new f count size
  · refine Or.inl ⟨hno, rc, { new with toCameraMemory := base }, ?_, hrc, hsettled⟩
    simp [allocate, hbase, halloc, hrc]
  · refine Or.inr ⟨hallocates, ?_⟩
    have hstart : requested f count size 0 =
        { new with toCameraMemory := CameraMemory.new.allocated size count } := by
      simp [requested, new, CameraMemory.allocated, CameraMemory.new, Ledger.empty]
    have hloop := forEach_eq (S := requested f count size) (n := count)
      fun i hi => memoryRound_eq (by have := hallocates.1; omega)
    rw [hstart] at hloop
    simp [allocate, hbase, halloc, hloop, provided, ok]

theorem memory_of_deallocate (h : m.deallocate = some m') :
    ∀ j < m.mBufferCount, ∃ r, load m.mCameraMemory j = some (some r) := by
  obtain ⟨m₁, hloop, -⟩ := Option.bind_eq_some_iff.mp h
  refine (forEach_inv (fun n s => (∀ j < n, ∃ r, load m.mCameraMemory j = some (some r)) ∧
    ∀ j, n ≤ j → load s.mCameraMemory j = load m.mCameraMemory j) ?_ ?_ hloop).1
  · rintro i s s' - ⟨hbefore, hafter⟩ hround
    simp only [releaseRound, Option.bind_eq_bind, Option.bind_eq_some_iff] at hround
    obtain ⟨r, hr, mCameraMemory, hstore, hround⟩ := hround
    cases hround
    rw [hafter i le_rfl, Option.join_eq_some_iff] at hr
    refine ⟨?_, ?_⟩
    · intro j hj
      obtain hlt | rfl := Nat.lt_succ_iff_lt_or_eq.mp hj
      · exact hbefore j hlt
      · exact ⟨r, hr⟩
    · intro j hj
      rw [load_of_store_ne hstore (by omega)]
      exact hafter j (by omega)
  · exact ⟨fun j hj => absurd hj (Nat.not_lt_zero j), fun _ _ => rfl⟩

theorem forEach_releaseRound (h : ∀ j < n, load m.mCameraMemory j = some (some (.memory, j))) :
    ∃ memories, forEach releaseRound n m = some { m with
      mCameraMemory := memories
      ledger := ⟨m.ledger.acquired, m.ledger.released ++ (List.range n).map (.memory, ·)⟩ } ∧
      ∀ j, n ≤ j → load memories j = load m.mCameraMemory j := by
  induction n with
  | zero => exact ⟨m.mCameraMemory, by simp [forEach], fun _ _ => rfl⟩
  | succ n ih =>
    obtain ⟨memories, hloop, hkept⟩ := ih fun j hj => h j (by omega)
    have hload : load memories n = some (some (.memory, n)) :=
      (hkept n le_rfl).trans (h n (Nat.lt_succ_self n))
    have hn : n < memories.length := isSome_load.mp (by rw [hload]; rfl)
    refine ⟨memories.set n none, ?_, ?_⟩
    · rw [forEach, hloop, Option.bind_some]
      simp [releaseRound, hload, store_eq_some.mpr ⟨hn, rfl⟩, Ledger.release, List.range_succ]
    · intro j hj
      rw [load, List.getElem?_set_ne (by omega)]
      exact hkept j (by omega)

/-- What `deallocate` releases. -/
def deallocated (n : ℕ) : List Resource :=
  (List.range n).map (.memory, ·) ++ (List.range n).flatMap fun i => (ionOf i).reverse

theorem deallocate_eq
    (hmemory : ∀ j < m.mBufferCount, load m.mCameraMemory j = some (some (.memory, j)))
    (hinfo : ∀ j < m.mBufferCount, load m.mMemInfo j = some (CameraMemory.infoOf size j)) :
    ∃ m', m.deallocate = some m' ∧
      m'.ledger = ⟨m.ledger.acquired, m.ledger.released ++ deallocated m.mBufferCount⟩ := by
  obtain ⟨memories, hloop, -⟩ := forEach_releaseRound hmemory
  obtain ⟨infos, hdealloc⟩ := @CameraMemory.forEach_dealloc size m.mBufferCount
    { m.toCameraMemory with ledger :=
        ⟨m.ledger.acquired, m.ledger.released ++ (List.range m.mBufferCount).map (.memory, ·)⟩ }
    hinfo
  rw [deallocate, hloop]
  simp only [Option.bind_eq_bind, Option.bind_some, CameraMemory.dealloc, hdealloc]
  exact ⟨_, rfl, by simp [deallocated]⟩

end StreamMemory

namespace VideoMemory

open StreamMemory (provided deallocated)

variable {f : Faults} {count size i n : ℕ} {m : VideoMemory}

/-- The object with all buffers allocated, and metadata for the first `i`. -/
def described (f : Faults) (count size i : ℕ) : VideoMemory where
  toStreamMemory := { provided f count size with
    ledger := ⟨(provided f count size).ledger.acquired ++ (List.range i).map (.metadata, ·), []⟩ }
  mMetadata := filled (fun j => some (.metadata, j)) VideoMemory.new.mMetadata i

theorem metadataRound_ok (hok : f.metadata i = false) (hi : i < maxNumFrames) :
    metadataRound f i (described f count size i) =
      some (none, described f count size (i + 1)) := by
  have hstore := store_filled (fun j => some ((.metadata, j) : Resource))
    (show i < VideoMemory.new.mMetadata.length by simpa [VideoMemory.new] using hi)
  simp [metadataRound, hok, described, hstore, Ledger.acquire, List.range_succ]

theorem forEach_releaseMetadata (h : ∀ j < n, load m.mMetadata j = some (some (.metadata, j))) :
    forEach releaseMetadata n m = some { m with ledger :=
      ⟨m.ledger.acquired, m.ledger.released ++ (List.range n).map (.metadata, ·)⟩ } := by
  let S : ℕ → VideoMemory := fun i => { m with ledger :=
    ⟨m.ledger.acquired, m.ledger.released ++ (List.range i).map (.metadata, ·)⟩ }
  have hstart : S 0 = m := by simp [S]
  have hloop : forEach releaseMetadata n (S 0) = some (S n) := forEach_eq fun i hi => by
    simp [S, releaseMetadata, h i hi, Ledger.release, List.range_succ]
  rwa [hstart] at hloop

def HasMemory (f : Faults) (count : ℕ) : Prop := ∀ i < count, f.getMemory i = false

theorem load_memory (size : ℕ) (hmemory : HasMemory f count) {j : ℕ} (hj : j < count) :
    load (provided f count size).mCameraMemory j = some (some (.memory, j)) := by
  have hload := load_filled (b := StreamMemory.new.mCameraMemory) (StreamMemory.memoryOf f) hj
  rwa [StreamMemory.memoryOf, hmemory j hj] at hload

theorem load_metadata {j : ℕ} (hj : j < i) :
    load (described f count size i).mMetadata j = some (some (.metadata, j)) :=
  load_filled _ hj

/-- What a round without memory for the metadata gets to: only the metadata before
`i - 1` is released. -/
theorem metadataRound_eq (hno : f.metadata i = true) (hi : i < maxNumFrames) :
    metadataRound f i (described f count size i) =
      (StreamMemory.deallocate { provided f count size with ledger :=
        ⟨(described f count size i).ledger.acquired,
          (List.range (i - 1)).map (.metadata, ·)⟩ }).bind
        fun base => some (some noMemory,
          ⟨base, (described f count size i).mMetadata.set i none⟩) := by
  have hlen : i < (described f count size i).mMetadata.length := by
    have hnew : VideoMemory.new.mMetadata.length = maxNumFrames := rfl
    rw [described, length_filled _ (by omega)]
    omega
  have hloop := @forEach_releaseMetadata (i - 1)
    { described f count size i with mMetadata := (described f count size i).mMetadata.set i none }
    (by
      intro j hj
      rw [load, List.getElem?_set_ne (by omega)]
      exact load_metadata (by omega))
  simp only [metadataRound, hno, if_true, store_eq_some.mpr ⟨hlen, rfl⟩, Option.bind_eq_bind,
    Option.bind_some, hloop]
  rfl

theorem metadataRound_fails (hno : f.metadata i = true) (hi : i < maxNumFrames)
    (hmemory : HasMemory f count) :
    ∃ m', metadataRound f i (described f count size i) = some (some noMemory, m') ∧
      m'.ledger = ⟨(described f count size i).ledger.acquired,
        (List.range (i - 1)).map (.metadata, ·) ++ deallocated count⟩ := by
  obtain ⟨base, hdealloc, hledger⟩ := @StreamMemory.deallocate_eq size
    { provided f count size with ledger :=
      ⟨(described f count size i).ledger.acquired, (List.range (i - 1)).map (.metadata, ·)⟩ }
    (fun j hj => load_memory size hmemory hj) fun j hj => CameraMemory.load_allocated hj
  refine ⟨_, by rw [metadataRound_eq hno hi, hdealloc, Option.bind_some], hledger⟩

/-- If there is not, the NULL pointer is used. -/
theorem metadataRound_fault (hno : f.metadata i = true) (hi : i < maxNumFrames)
    (hmemory : ¬ HasMemory f count) :
    metadataRound f i (described f count size i) = none := by
  obtain ⟨j, hj, hfails⟩ : ∃ j < count, f.getMemory j = true := by simpa [HasMemory] using hmemory
  rw [metadataRound_eq hno hi, Option.bind_eq_none_iff]
  intro base hdealloc
  obtain ⟨r, hr⟩ := StreamMemory.memory_of_deallocate hdealloc j hj
  have hload := load_filled (b := StreamMemory.new.mCameraMemory) (StreamMemory.memoryOf f) hj
  rw [StreamMemory.memoryOf, hfails] at hload
  exact absurd (hload.symm.trans hr) (by simp)

theorem filterMap_memoryOf (hmemory : HasMemory f count) :
    (List.range count).filterMap (StreamMemory.memoryOf f) =
      (List.range count).map (.memory, ·) := by
  rw [← List.filterMap_eq_map]
  refine List.filterMap_congr fun j hj => ?_
  rw [StreamMemory.memoryOf, hmemory j (List.mem_range.mp hj)]
  rfl

/-- Without memory for the first metadata, everything is released. -/
theorem settled_first (hmemory : HasMemory f count) :
    Ledger.Settled ⟨(described f count size 0).ledger.acquired, deallocated count⟩ := by
  have hacquired : (described f count size 0).ledger.acquired =
      (List.range count).flatMap ionOf ++ (List.range count).map (.memory, ·) := by
    rw [← filterMap_memoryOf hmemory]
    simp [described, provided, StreamMemory.requested]
  rw [hacquired]
  constructor
  · refine List.nodup_append.mpr ⟨nodup_flatMap nodup_ionOf (fun _ _ => ionOf_index) count,
      List.nodup_range.map fun i j h => (Prod.mk.inj h).2, ?_⟩
    rintro r hr r' hr' rfl
    obtain ⟨i, -, hi⟩ := List.mem_flatMap.mp hr
    obtain ⟨j, -, rfl⟩ := List.mem_map.mp hr'
    simp [ionOf] at hi
  · refine List.perm_append_comm.trans (List.Perm.append_right _ ?_)
    exact List.Perm.flatMap_left _ fun i _ => (ionOf i).reverse_perm

theorem usable_described_iff :
    (∀ i < count, ({ described f count size count with mBufferCount := count } :
      VideoMemory).Usable i) ↔ HasMemory f count := by
  constructor
  · intro husable j hj
    obtain ⟨-, ⟨r, hr, -⟩, -⟩ := husable j hj
    have hload := load_filled (b := StreamMemory.new.mCameraMemory) (StreamMemory.memoryOf f) hj
    have hsome : StreamMemory.memoryOf f j = some r := Option.some.inj (hload.symm.trans hr)
    rw [StreamMemory.memoryOf] at hsome
    split_ifs at hsome with hfails
    simpa using hfails
  · intro hmemory i hi
    have hacquired : (described f count size count).ledger.acquired =
        (List.range count).flatMap ionOf ++ (List.range count).map (.memory, ·) ++
          (List.range count).map (.metadata, ·) := by
      rw [← filterMap_memoryOf hmemory]
      rfl
    refine ⟨CameraMemory.holdsIon (CameraMemory.load_allocated hi) hi ?_ rfl,
      ⟨_, load_memory size hmemory hi, ?_, List.not_mem_nil⟩,
      ⟨_, load_metadata hi, ?_, List.not_mem_nil⟩⟩
    · show _ ⊆ (described f count size count).ledger.acquired
      rw [hacquired, List.append_assoc]
      exact List.subset_append_left _ _
    all_goals
      show _ ∈ (described f count size count).ledger.acquired
      simp [hacquired, hi]

theorem allocate_iff (f : Faults) (count size : ℕ) :
    AllOrNothing (·.toCameraMemory) Usable count (new.allocate f count size) ↔
      (f.Allocates count → HasMemory f count ∧
        (f.metadata 0 = true ∨ ∀ i < count, f.metadata i = false)) := by
  have hbase : new.toStreamMemory = StreamMemory.new := rfl
  obtain ⟨hno, rc, base, halloc, hrc, hsettled⟩ | ⟨hallocates, halloc⟩ :=
    StreamMemory.allocate_new f count size
  · refine iff_of_true ?_ fun h => absurd h hno
    have hret : new.allocate f count size = some (rc, { new with toStreamMemory := base }) := by
      simp [allocate, hbase, halloc, hrc]
    rw [hret]
    exact Or.inr ⟨by unfold ok; omega, hsettled⟩
  have hstart : described f count size 0 =
      { new with toStreamMemory := provided f count size } := by
    simp [described, provided, StreamMemory.requested, new]
  have hloop : new.allocate f count size =
      (tryEach (metadataRound f) count (described f count size 0)).bind fun
        | (some rc, m) => some (rc, m)
        | (none, m) => some (ok, { m with mBufferCount := count }) := by
    rw [hstart, allocate, hbase, halloc]
    rfl
  rw [hloop]
  have hcount := hallocates.1
  have hrounds : ∀ {k}, k ≤ count → (∀ i < k, f.metadata i = false) → ∀ i < k,
      metadataRound f i (described f count size i) =
        some (none, described f count size (i + 1)) :=
    fun hk hok i hi => metadataRound_ok (hok i hi) (by omega)
  obtain hall | ⟨k, hk, hbefore, hfails⟩ := first_failure (fun i => f.metadata i = false) count
  · rw [tryEach_eq (hrounds le_rfl hall)]
    constructor
    · rintro (⟨-, -, husable⟩ | ⟨hne, -⟩) -
      · exact ⟨usable_described_iff.mp husable, Or.inr hall⟩
      · exact absurd rfl hne
    · intro h
      exact Or.inl ⟨rfl, rfl, usable_described_iff.mpr (h hallocates).1⟩
  rw [Bool.not_eq_false] at hfails
  by_cases hmemory : HasMemory f count
  · obtain ⟨m', hround, hledger⟩ := @metadataRound_fails f count size k hfails (by omega) hmemory
    rw [tryEach_return hk (hrounds hk.le hbefore) hround]
    cases k with
    | zero =>
      refine iff_of_true (Or.inr ⟨by decide, ?_⟩) fun _ => ⟨hmemory, Or.inl hfails⟩
      show m'.ledger.Settled
      rw [hledger]
      exact settled_first hmemory
    | succ k =>
      -- the metadata before the one that fails stays
      refine iff_of_false ?_ fun h => ?_
      · rintro (⟨hrc, -⟩ | ⟨-, hsettled⟩)
        · exact absurd hrc (by decide)
        · refine Ledger.Settled.not_live (r := (.metadata, k)) hsettled ⟨?_, ?_⟩
          · simp [hledger, described]
          · simp [hledger, deallocated, ionOf]
      · obtain hfirst | hall := (h hallocates).2
        · exact absurd (hbefore 0 (Nat.succ_pos k)) (by simp [hfirst])
        · exact absurd (hall (k + 1) hk) (by simp [hfails])
  · rw [tryEach_fault hk (hrounds hk.le hbefore) (metadataRound_fault hfails (by omega) hmemory)]
    exact iff_of_false id fun h => hmemory (h hallocates).1

end VideoMemory

end Mem

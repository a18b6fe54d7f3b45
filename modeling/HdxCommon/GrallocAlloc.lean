/-
The buffers of the preview window, `QCameraGrallocMemory`: how they are taken from the
window and imported, and what is given back when something fails.

* `GrallocMemory.allocate_iff` — all or nothing, exactly if nothing fails once the
  first buffer has been taken, and there are entries for all buffers;
* `allocate_all_or_nothing_iff` — this for heap, video and gralloc memories.
-/
import HdxCommon.MemoryAlloc

namespace Mem

/-! ### Gralloc memory -/

/-- The window: how many buffers it keeps, the set-up calls that fail, and the size
of its buffers. -/
structure Window where
  getMinUndequeuedBufferCount : Option ℕ
  setBufferCount : Bool
  setBuffersGeometry : Bool
  setUsage : Bool
  size : ℕ

def Window.SetUpFails (w : Window) : Prop :=
  w.setBufferCount = true ∨ w.setBuffersGeometry = true ∨ w.setUsage = true

instance (w : Window) : Decidable w.SetUpFails := inferInstanceAs (Decidable (_ ∨ _ ∨ _))

/-- `QCameraGrallocMemory`; a flag says whether a buffer is owned. -/
structure GrallocMemory extends CameraMemory where
  mWindow : Option Window
  mBufferHandle : List (Option Resource)
  mLocalFlag : List Bool
  mCameraMemory : List (Option Resource)
  mMinUndequeuedBuffers : ℕ

namespace GrallocMemory

def new (window : Option Window) : GrallocMemory :=
  ⟨.new, window, .replicate maxNumFrames none, .replicate maxNumFrames false,
    .replicate maxNumFrames none, 0⟩

/-- Buffer `i` goes back to the window. -/
def cancelRound (i : ℕ) (m : GrallocMemory) : Option GrallocMemory := do
  let owned ← load m.mLocalFlag i
  let handle ← load m.mBufferHandle i
  let mLocalFlag ← store m.mLocalFlag i false
  let mBufferHandle ← store m.mBufferHandle i none
  return { m with
    mLocalFlag := mLocalFlag, mBufferHandle := mBufferHandle
    ledger := if owned then m.ledger.releaseOpt handle else m.ledger }

/-- The import of buffer `i` is undone, and it goes back to the window. -/
def undoRound (i : ℕ) (m : GrallocMemory) : Option GrallocMemory := do
  let info ← load m.mMemInfo i
  let ledger := (m.ledger.releaseOpt info.handle).releaseOpt info.mainIonFd
  cancelRound i { m with ledger := ledger }

/-- `memset(&mMemInfo, 0, sizeof(mMemInfo))`. -/
def clearMemInfo (m : GrallocMemory) : GrallocMemory :=
  { m with mMemInfo := .replicate maxNumFrames .zero }

/-- The part of a round that imports the buffer. -/
def importBuffer (f : Faults) (size cnt : ℕ) (m : GrallocMemory) :
    Option (Option ℤ × GrallocMemory) :=
  if f.ionOpen cnt then do
    let m ← forEach undoRound cnt m
    return (some unknownError, m.clearMemInfo)
  else
    let m := { m with ledger := m.ledger.acquire (.ionFd, cnt) }
    if f.ionImport cnt then do
      let m ← forEach undoRound cnt m
      return (some unknownError,
        { m with ledger := m.ledger.release (.ionFd, cnt) }.clearMemInfo)
    else do
      let ledger := m.ledger.acquire (.handle, cnt)
      -- whether there is memory is not asked
      let memory := if f.getMemory cnt then none else some (.memory, cnt)
      let mCameraMemory ← store m.mCameraMemory cnt memory
      let memInfo ← store m.mMemInfo cnt
        ⟨some (.fd, cnt), some (.ionFd, cnt), some (.handle, cnt), size⟩
      return (none, { m with
        mCameraMemory := mCameraMemory, mMemInfo := memInfo
        ledger := if f.getMemory cnt then ledger else ledger.acquire (.memory, cnt) })

/-- A round of the loop of `allocate`. -/
def allocRound (f : Faults) (size cnt : ℕ) (m : GrallocMemory) :
    Option (Option ℤ × GrallocMemory) :=
  if f.dequeueBuffer cnt then do
    let mLocalFlag ← store m.mLocalFlag cnt false
    let m ← forEach cancelRound cnt { m with mLocalFlag := mLocalFlag }
    return (some unknownError, m.clearMemInfo)
  else do
    let mBufferHandle ← store m.mBufferHandle cnt (some (.window, cnt))
    let mLocalFlag ← store m.mLocalFlag cnt true
    importBuffer f size cnt { m with
      mBufferHandle := mBufferHandle, mLocalFlag := mLocalFlag
      ledger := m.ledger.acquire (.window, cnt) }

/-- One of the first buffers goes back to the window at once. -/
def cancelMinRound (i : ℕ) (m : GrallocMemory) : Option GrallocMemory := do
  let handle ← load m.mBufferHandle i
  let mLocalFlag ← store m.mLocalFlag i false
  return { m with mLocalFlag := mLocalFlag, ledger := m.ledger.releaseOpt handle }

/-- `allocate`. -/
def allocate (f : Faults) (count : ℕ) (m : GrallocMemory) : Option (ℤ × GrallocMemory) :=
  match m.mWindow with
  | none => some (invalidOperation, m)
  | some w =>
    match w.getMinUndequeuedBufferCount with
    | none => some (unknownError, m)
    | some minUndequeued =>
      let m := { m with mMinUndequeuedBuffers := minUndequeued }
      if w.SetUpFails then some (unknownError, m)
      else do
        match ← tryEach (allocRound f w.size) (count + minUndequeued) m with
        | (some rc, m) => return (rc, m)
        | (none, m) =>
          let m := { m with mBufferCount := count + minUndequeued }
          return (ok, ← forEach cancelMinRound minUndequeued m)

end GrallocMemory

/-- For gralloc memory the buffer is imported from the window, to which the first ones
have gone back. -/
def GrallocMemory.Usable (m : GrallocMemory) (i : ℕ) : Prop :=
  (m.Holds MemInfo.mainIonFd i ∧ m.Holds MemInfo.handle i) ∧ m.HoldsPtr m.mCameraMemory i ∧
    ∃ r, load m.mBufferHandle i = some (some r) ∧ (m.mMinUndequeuedBuffers ≤ i → m.ledger.Live r)

/-! ### The loop over the buffers of the window -/

def Window.Ready (w : Window) (minUndequeued : ℕ) : Prop :=
  w.getMinUndequeuedBufferCount = some minUndequeued ∧ ¬ w.SetUpFails

/-- Buffer `i` is taken from the window and imported. -/
def Faults.ImportOk (f : Faults) (i : ℕ) : Prop :=
  f.dequeueBuffer i = false ∧ f.ionOpen i = false ∧ f.ionImport i = false

instance (f : Faults) : DecidablePred f.ImportOk :=
  fun _ => inferInstanceAs (Decidable (_ ∧ _ ∧ _))

namespace GrallocMemory

open StreamMemory (memoryOf)

variable {f : Faults} {count minUndequeued i n : ℕ} {w : Window} {m : GrallocMemory}

def importOf (f : Faults) (i : ℕ) : List Resource :=
  [(.window, i), (.ionFd, i), (.handle, i)] ++ (memoryOf f i).toList

def infoOf (w : Window) (i : ℕ) : MemInfo :=
  ⟨some (.fd, i), some (.ionFd, i), some (.handle, i), w.size⟩

/-- The object with the first `i` buffers imported. -/
def imported (f : Faults) (w : Window) (minUndequeued i : ℕ) : GrallocMemory where
  mBufferCount := 0
  mMemInfo := filled (infoOf w) CameraMemory.new.mMemInfo i
  ledger := ⟨(List.range i).flatMap (importOf f), []⟩
  mWindow := some w
  mBufferHandle := filled (fun j => some (.window, j)) (new (some w)).mBufferHandle i
  mLocalFlag := filled (fun _ => true) (new (some w)).mLocalFlag i
  mCameraMemory := filled (memoryOf f) (new (some w)).mCameraMemory i
  mMinUndequeuedBuffers := minUndequeued

theorem allocRound_ok (hok : f.ImportOk i) (hi : i < maxNumFrames) :
    allocRound f w.size i (imported f w minUndequeued i) =
      some (none, imported f w minUndequeued (i + 1)) := by
  obtain ⟨hdequeue, hopen, himport⟩ := hok
  have hinfo := store_filled (infoOf w) (show i < CameraMemory.new.mMemInfo.length from hi)
  have hhandle := store_filled (fun j => some ((.window, j) : Resource))
    (show i < (new (some w)).mBufferHandle.length from hi)
  have hflag := store_filled (fun _ => true) (show i < (new (some w)).mLocalFlag.length from hi)
  have hmemory := store_filled (memoryOf f)
    (show i < (new (some w)).mCameraMemory.length from hi)
  rw [infoOf] at hinfo
  cases hfails : f.getMemory i with
  | true =>
    have hnone : memoryOf f i = none := by simp [memoryOf, hfails]
    rw [hnone] at hmemory
    simp [allocRound, importBuffer, imported, hdequeue, hopen, himport, hinfo, hhandle, hflag,
      hmemory, hfails, Ledger.acquire, List.range_succ, importOf, hnone]
  | false =>
    have hsome : memoryOf f i = some (.memory, i) := by simp [memoryOf, hfails]
    rw [hsome] at hmemory
    simp [allocRound, importBuffer, imported, hdequeue, hopen, himport, hinfo, hhandle, hflag,
      hmemory, hfails, Ledger.acquire, List.range_succ, importOf, hsome]

/-- There are no entries for more buffers than frames. -/
theorem allocRound_fault (hlen : m.mBufferHandle.length ≤ i) (hflag : m.mLocalFlag.length ≤ i)
    (size : ℕ) : allocRound f size i m = none := by
  have hno : store m.mBufferHandle i (some (.window, i)) = none := if_neg (by omega)
  have hno' : store m.mLocalFlag i false = none := if_neg (by omega)
  rw [allocRound]
  split_ifs
  · rw [hno']
    rfl
  · rw [hno]
    rfl

/-- Buffer `i` is owned, with its entries. -/
structure Owned (w : Window) (m : GrallocMemory) (i : ℕ) : Prop where
  flag : load m.mLocalFlag i = some true
  handle : load m.mBufferHandle i = some (some (.window, i))
  info : load m.mMemInfo i = some (infoOf w i)

/-- Buffer `i` has gone back to the window, and `rs` has been released. -/
def givenBack (m : GrallocMemory) (i : ℕ) (rs : List Resource) : GrallocMemory :=
  { m with
    mLocalFlag := m.mLocalFlag.set i false, mBufferHandle := m.mBufferHandle.set i none
    ledger := ⟨m.ledger.acquired, m.ledger.released ++ rs⟩ }

theorem Owned.cancelRound (h : Owned w m i) :
    cancelRound i m = some (m.givenBack i [(.window, i)]) := by
  have hflag : i < m.mLocalFlag.length := isSome_load.mp (by rw [h.flag]; rfl)
  have hhandle : i < m.mBufferHandle.length := isSome_load.mp (by rw [h.handle]; rfl)
  simp [GrallocMemory.cancelRound, h.flag, h.handle, store_eq_some.mpr ⟨hflag, rfl⟩,
    store_eq_some.mpr ⟨hhandle, rfl⟩, givenBack, Ledger.releaseOpt, Ledger.release]

theorem Owned.undoRound (h : Owned w m i) :
    undoRound i m = some (m.givenBack i [(.handle, i), (.ionFd, i), (.window, i)]) := by
  have hcancel := Owned.cancelRound (m := { m with
    ledger := ⟨m.ledger.acquired, m.ledger.released ++ [(.handle, i), (.ionFd, i)]⟩ })
    ⟨h.flag, h.handle, h.info⟩
  simp only [GrallocMemory.undoRound, h.info, infoOf, Ledger.releaseOpt, Ledger.release,
    Option.bind_eq_bind, Option.bind_some, List.append_assoc, List.cons_append, List.nil_append]
  rw [hcancel]
  simp [givenBack]

theorem forEach_givesBack {body : ℕ → GrallocMemory → Option GrallocMemory}
    {rs : ℕ → List Resource}
    (hbody : ∀ i m, Owned w m i → body i m = some (m.givenBack i (rs i)))
    (h : ∀ j < n, Owned w m j) :
    ∃ m', forEach body n m = some m' ∧
      m'.ledger = ⟨m.ledger.acquired, m.ledger.released ++ (List.range n).flatMap rs⟩ := by
  have hrest : ∀ k ≤ n, ∃ m', forEach body k m = some m' ∧
      m'.ledger = ⟨m.ledger.acquired, m.ledger.released ++ (List.range k).flatMap rs⟩ ∧
      ∀ j, k ≤ j → j < n → Owned w m' j := by
    intro k hk
    induction k with
    | zero => exact ⟨m, rfl, by simp, fun j _ hj => h j hj⟩
    | succ k ih =>
      obtain ⟨m', hloop, hledger, howned⟩ := ih (by omega)
      refine ⟨m'.givenBack k (rs k), ?_, ?_, ?_⟩
      · rw [forEach, hloop, Option.bind_some]
        exact hbody k m' (howned k le_rfl hk)
      · simp [givenBack, hledger, List.range_succ]
      · intro j hkj hj
        obtain ⟨hflag, hhandle, hinfo⟩ := howned j (by omega) hj
        refine ⟨?_, ?_, hinfo⟩
        · rw [givenBack, load, List.getElem?_set_ne (by omega)]
          exact hflag
        · rw [givenBack, load, List.getElem?_set_ne (by omega)]
          exact hhandle
  obtain ⟨m', hloop, hledger, -⟩ := hrest n le_rfl
  exact ⟨m', hloop, hledger⟩

theorem owned_imported {j : ℕ} (hj : j < i) : Owned w (imported f w minUndequeued i) j :=
  ⟨load_filled _ hj, load_filled _ hj, load_filled _ hj⟩

/-- When the window has no further buffer, those before it go back, but stay
imported. -/
theorem allocRound_dequeue_fails (hno : f.dequeueBuffer i = true) (hi : i < maxNumFrames) :
    ∃ m', allocRound f w.size i (imported f w minUndequeued i) = some (some unknownError, m') ∧
      m'.ledger = ⟨(List.range i).flatMap (importOf f), (List.range i).flatMap
        fun j => [(.window, j)]⟩ := by
  have hlen : i < (imported f w minUndequeued i).mLocalFlag.length := by
    have hnew : (new (some w)).mLocalFlag.length = maxNumFrames := rfl
    rw [imported, length_filled _ (by omega)]
    omega
  obtain ⟨m', hloop, hledger⟩ := forEach_givesBack (w := w) (n := i)
    (m := { imported f w minUndequeued i with
      mLocalFlag := (imported f w minUndequeued i).mLocalFlag.set i false })
    (fun _ _ => Owned.cancelRound) (by
      intro j hj
      obtain ⟨hflag, hhandle, hinfo⟩ := @owned_imported f minUndequeued i w j hj
      refine ⟨?_, hhandle, hinfo⟩
      rw [load, List.getElem?_set_ne (by omega)]
      exact hflag)
  refine ⟨m'.clearMemInfo, ?_, ?_⟩
  · simp [allocRound, hno, store_eq_some.mpr ⟨hlen, rfl⟩, hloop]
  · rw [clearMemInfo, hledger]
    simp [imported]

/-- When a buffer cannot be imported, those before it go back, but not the buffer
itself. -/
theorem allocRound_import_fails (hdequeue : f.dequeueBuffer i = false) (hno : ¬ f.ImportOk i)
    (hi : i < maxNumFrames) :
    ∃ m', allocRound f w.size i (imported f w minUndequeued i) = some (some unknownError, m') ∧
      m'.ledger.Live (.window, i) := by
  have hhandle := store_filled (fun j => some ((.window, j) : Resource))
    (show i < (new (some w)).mBufferHandle.length from hi)
  have hflag := store_filled (fun _ => true) (show i < (new (some w)).mLocalFlag.length from hi)
  -- the first `i` buffers are undone, whatever the ledger says
  have hundo : ∀ ledger, ∃ m', forEach undoRound i { imported f w minUndequeued i with
      mBufferHandle := filled (fun j => some (.window, j)) (new (some w)).mBufferHandle (i + 1)
      mLocalFlag := filled (fun _ => true) (new (some w)).mLocalFlag (i + 1)
      ledger := ledger } = some m' ∧ m'.ledger = ⟨ledger.acquired, ledger.released ++
        (List.range i).flatMap fun j => [(.handle, j), (.ionFd, j), (.window, j)]⟩ := by
    intro ledger
    refine forEach_givesBack (w := w) (fun _ _ => Owned.undoRound) fun j hj => ?_
    exact ⟨load_filled _ (by omega), load_filled _ (by omega), load_filled _ hj⟩
  cases hopen : f.ionOpen i with
  | true =>
    obtain ⟨m', hloop, hledger⟩ :=
      hundo ((imported f w minUndequeued i).ledger.acquire (.window, i))
    refine ⟨m'.clearMemInfo, ?_, ?_⟩
    · simp only [allocRound, hdequeue, importBuffer, hopen]
      simp only [imported] at hloop ⊢
      simp [hhandle, hflag, hloop]
    · rw [clearMemInfo, hledger]
      simp [Ledger.Live, Ledger.acquire, imported]
  | false =>
    have himport : f.ionImport i = true := by
      by_contra hfalse
      exact hno ⟨hdequeue, hopen, by simpa using hfalse⟩
    obtain ⟨m', hloop, hledger⟩ :=
      hundo (((imported f w minUndequeued i).ledger.acquire (.window, i)).acquire (.ionFd, i))
    refine ⟨{ m' with ledger := m'.ledger.release (.ionFd, i) }.clearMemInfo, ?_, ?_⟩
    · simp only [allocRound, hdequeue, importBuffer, hopen, himport]
      simp only [imported] at hloop ⊢
      simp [hhandle, hflag, hloop]
    · rw [clearMemInfo, hledger]
      simp [Ledger.Live, Ledger.acquire, Ledger.release, imported]

/-- The object with `n` buffers, of which the first `i` have gone back. -/
def cancelled (f : Faults) (w : Window) (minUndequeued n i : ℕ) : GrallocMemory :=
  { imported f w minUndequeued n with
    mBufferCount := n
    mLocalFlag := filled (fun _ => false) (imported f w minUndequeued n).mLocalFlag i
    ledger := ⟨(List.range n).flatMap (importOf f), (List.range i).map (.window, ·)⟩ }

theorem forEach_cancelMinRound {k : ℕ} (hk : k ≤ n) (hn : n ≤ maxNumFrames) :
    forEach cancelMinRound k { imported f w minUndequeued n with mBufferCount := n } =
      some (cancelled f w minUndequeued n k) := by
  have hlen : (imported f w minUndequeued n).mLocalFlag.length = maxNumFrames :=
    length_filled _ hn
  have hloop : forEach cancelMinRound k (cancelled f w minUndequeued n 0) =
      some (cancelled f w minUndequeued n k) := by
    refine forEach_eq fun i hi => ?_
    have hhandle : load (imported f w minUndequeued n).mBufferHandle i =
        some (some (.window, i)) := load_filled _ (by omega)
    have hflag := store_filled (fun _ => false)
      (show i < (imported f w minUndequeued n).mLocalFlag.length by omega)
    simp [cancelMinRound, cancelled, hhandle, hflag, Ledger.releaseOpt, Ledger.release,
      List.range_succ]
  have hstart : cancelled f w minUndequeued n 0 =
      { imported f w minUndequeued n with mBufferCount := n } := by
    simp [cancelled, imported]
  rwa [hstart] at hloop

/-- Buffers that have been imported can be used if there is memory. -/
theorem usable_cancelled_iff :
    (∀ i < n, (cancelled f w minUndequeued n minUndequeued).Usable i) ↔
      ∀ i < n, f.getMemory i = false := by
  constructor
  · intro husable i hi
    obtain ⟨-, ⟨r, hr, -⟩, -⟩ := husable i hi
    have hload := load_filled (b := (new (some w)).mCameraMemory) (memoryOf f) hi
    have hsome : memoryOf f i = some r := Option.some.inj (hload.symm.trans hr)
    rw [memoryOf] at hsome
    split_ifs at hsome with hfails
    simpa using hfails
  · intro hmemory i hi
    have hsome : memoryOf f i = some (.memory, i) := by rw [memoryOf, hmemory i hi]; rfl
    have hacquired : ∀ r ∈ importOf f i,
        r ∈ (cancelled f w minUndequeued n minUndequeued).ledger.acquired :=
      fun r hr => List.mem_flatMap.mpr ⟨i, List.mem_range.mpr hi, hr⟩
    have hinfo : load (cancelled f w minUndequeued n minUndequeued).mMemInfo i =
        some (infoOf w i) := load_filled _ hi
    refine ⟨⟨⟨_, hinfo, _, rfl, hacquired _ ?_, ?_⟩, ⟨_, hinfo, _, rfl, hacquired _ ?_, ?_⟩⟩,
      ⟨_, (load_filled _ hi).trans (congrArg some hsome), hacquired _ ?_, ?_⟩,
      (.window, i), load_filled _ hi, fun hmin => ⟨hacquired _ ?_, ?_⟩⟩
    all_goals simp [importOf, hsome, cancelled]
    exact hmin

theorem allocate_eq (hready : w.Ready minUndequeued) :
    (new (some w)).allocate f count =
      (tryEach (allocRound f w.size) (count + minUndequeued)
        (imported f w minUndequeued 0)).bind fun
        | (some rc, m) => some (rc, m)
        | (none, m) => (forEach cancelMinRound minUndequeued
            { m with mBufferCount := count + minUndequeued }).bind fun m => some (ok, m) := by
  have hstart : imported f w minUndequeued 0 =
      { new (some w) with mMinUndequeuedBuffers := minUndequeued } := by
    simp [imported, new, CameraMemory.new, Ledger.empty]
  rw [hstart, allocate, show (new (some w)).mWindow = some w from rfl]
  simp only [hready.1, if_neg hready.2]
  rfl

theorem allocate_not_ready (h : ∀ minUndequeued, ¬ w.Ready minUndequeued) :
    ∃ m, (new (some w)).allocate f count = some (unknownError, m) ∧ m.ledger = .empty := by
  rw [allocate, show (new (some w)).mWindow = some w from rfl]
  cases hmin : w.getMinUndequeuedBufferCount with
  | none =>
    simp only [hmin]
    exact ⟨_, rfl, rfl⟩
  | some minUndequeued =>
    have hfails : w.SetUpFails := by
      by_contra hno
      exact h minUndequeued ⟨hmin, hno⟩
    simp only [hmin, if_pos hfails]
    exact ⟨_, rfl, rfl⟩

theorem allocate_ready_iff (f : Faults) (count : ℕ) (hready : w.Ready minUndequeued) :
    AllOrNothing toCameraMemory Usable (count + minUndequeued)
        ((new (some w)).allocate f count) ↔
      f.dequeueBuffer 0 = true ∨ count + minUndequeued ≤ maxNumFrames ∧
        ∀ i < count + minUndequeued, f.ImportOk i ∧ f.getMemory i = false := by
  rw [allocate_eq hready]
  generalize hn : count + minUndequeued = n
  have hrounds : ∀ {k}, k ≤ maxNumFrames → (∀ i < k, f.ImportOk i) → ∀ i < k,
      allocRound f w.size i (imported f w minUndequeued i) =
        some (none, imported f w minUndequeued (i + 1)) :=
    fun hk hok i hi => allocRound_ok (hok i hi) (by omega)
  obtain hall | ⟨k, hk, hbefore, hfails⟩ := first_failure f.ImportOk (min n maxNumFrames)
  · by_cases hmax : n ≤ maxNumFrames
    · rw [min_eq_left hmax] at hall
      rw [tryEach_eq (hrounds hmax hall), Option.bind_some]
      simp only [forEach_cancelMinRound (show minUndequeued ≤ n by omega) hmax, Option.bind_some]
      constructor
      · rintro (⟨-, -, husable⟩ | ⟨hne, -⟩)
        · exact Or.inr ⟨hmax, fun i hi => ⟨hall i hi, usable_cancelled_iff.mp husable i hi⟩⟩
        · exact absurd rfl hne
      · intro h
        refine Or.inl ⟨rfl, rfl, usable_cancelled_iff.mpr fun i hi => ?_⟩
        obtain hfirst | ⟨-, hmemory⟩ := h
        · exact absurd (hall 0 (by omega)).1 (by simp [hfirst])
        · exact (hmemory i hi).2
    · -- the arrays have no entry for the next buffer
      rw [min_eq_right (by omega)] at hall
      have hlen : ∀ {α : Type} (g : ℕ → α) (b : List α), b.length = maxNumFrames →
          (filled g b maxNumFrames).length ≤ maxNumFrames :=
        fun g b hb => ((length_filled g hb.ge).trans hb).le
      have hfault := @allocRound_fault f maxNumFrames (imported f w minUndequeued maxNumFrames)
        (hlen _ _ rfl) (hlen _ _ rfl) w.size
      rw [tryEach_fault (by omega) (hrounds le_rfl hall) hfault]
      refine iff_of_false id ?_
      rintro (hfirst | ⟨hle, -⟩)
      · exact absurd (hall 0 (by decide)).1 (by simp [hfirst])
      · exact hmax hle
  · have hkn : k < n := by omega
    have hkmax : k < maxNumFrames := by omega
    have hno : 0 < k → ¬ (f.dequeueBuffer 0 = true ∨ n ≤ maxNumFrames ∧
        ∀ i < n, f.ImportOk i ∧ f.getMemory i = false) := by
      rintro hpos (hfirst | ⟨-, hall⟩)
      · exact absurd (hbefore 0 hpos).1 (by simp [hfirst])
      · exact hfails (hall k hkn).1
    have hlive : ∀ {m : GrallocMemory} {r : Resource}, m.ledger.Live r →
        ¬ AllOrNothing toCameraMemory Usable n (some (unknownError, m)) := by
      rintro m r hlive (⟨hrc, -⟩ | ⟨-, hsettled⟩)
      · exact absurd hrc (by decide)
      · exact hsettled.not_live hlive
    cases hdequeue : f.dequeueBuffer k with
    | true =>
      obtain ⟨m', hround, hledger⟩ :=
        @allocRound_dequeue_fails f minUndequeued k w hdequeue hkmax
      rw [tryEach_return hkn (hrounds hkmax.le hbefore) hround, Option.bind_some]
      obtain rfl | hpos := Nat.eq_zero_or_pos k
      · refine iff_of_true (Or.inr ⟨by decide, ?_⟩) (Or.inl hdequeue)
        rw [hledger]
        exact Ledger.settled_empty
      · refine iff_of_false (hlive (r := (.ionFd, 0)) ?_) (hno hpos)
        rw [hledger]
        exact ⟨List.mem_flatMap.mpr ⟨0, List.mem_range.mpr hpos, by simp [importOf]⟩, by simp⟩
    | false =>
      obtain ⟨m', hround, hlive'⟩ :=
        @allocRound_import_fails f minUndequeued k w hdequeue hfails hkmax
      rw [tryEach_return hkn (hrounds hkmax.le hbefore) hround, Option.bind_some]
      refine iff_of_false (hlive hlive') ?_
      obtain rfl | hpos := Nat.eq_zero_or_pos k
      · rintro (hfirst | ⟨-, hall⟩)
        · exact absurd hdequeue (by simp [hfirst])
        · exact hfails (hall 0 hkn).1
      · exact hno hpos

theorem allocate_iff (f : Faults) (count : ℕ) (window : Option Window) :
    AllOrNothing toCameraMemory Usable
        (count + (window.bind Window.getMinUndequeuedBufferCount).getD 0)
        ((new window).allocate f count) ↔
      ∀ w ∈ window, ∀ minUndequeued, w.Ready minUndequeued →
        f.dequeueBuffer 0 = true ∨ count + minUndequeued ≤ maxNumFrames ∧
          ∀ i < count + minUndequeued, f.ImportOk i ∧ f.getMemory i = false := by
  cases window with
  | none => exact iff_of_true (Or.inr ⟨by decide, Ledger.settled_empty⟩) (by simp)
  | some w =>
    by_cases hready : ∃ minUndequeued, w.Ready minUndequeued
    · obtain ⟨minUndequeued, hready⟩ := hready
      have hmin : (some w).bind Window.getMinUndequeuedBufferCount = some minUndequeued :=
        hready.1
      rw [hmin, Option.getD_some, allocate_ready_iff f count hready]
      constructor
      · rintro h w' hw' minUndequeued' hready'
        cases hw'
        obtain rfl := Option.some.inj (hready.1.symm.trans hready'.1)
        exact h
      · exact fun h => h w rfl minUndequeued hready
    · obtain ⟨m, hret, hledger⟩ := @allocate_not_ready f count w (not_exists.mp hready)
      rw [hret]
      refine iff_of_true (Or.inr ⟨by decide, ?_⟩) ?_
      · rw [hledger]
        exact Ledger.settled_empty
      · rintro w' hw' minUndequeued hready'
        cases hw'
        exact absurd ⟨minUndequeued, hready'⟩ hready

end GrallocMemory

/-! ### The three classes -/

/-- **Allocation is all or nothing** exactly if nothing fails that is not undone: for
heap memory a mapping, for video memory the memory of a buffer or the metadata after
the first, and for gralloc memory everything after the first buffer has been taken,
with more buffers than there are entries among it. -/
theorem allocate_all_or_nothing_iff (f : Faults) (count size : ℕ) (window : Option Window) :
    (AllOrNothing HeapMemory.toCameraMemory HeapMemory.Usable count
        (HeapMemory.new.allocate f count size) ↔
      (f.Allocates count → ∀ i < count, f.mmap i = false)) ∧
    (AllOrNothing (fun m : VideoMemory => m.toCameraMemory) VideoMemory.Usable count
        (VideoMemory.new.allocate f count size) ↔
      (f.Allocates count → (∀ i < count, f.getMemory i = false) ∧
        (f.metadata 0 = true ∨ ∀ i < count, f.metadata i = false))) ∧
    (AllOrNothing GrallocMemory.toCameraMemory GrallocMemory.Usable
        (count + (window.bind Window.getMinUndequeuedBufferCount).getD 0)
        ((GrallocMemory.new window).allocate f count) ↔
      ∀ w ∈ window, ∀ minUndequeued, w.Ready minUndequeued →
        f.dequeueBuffer 0 = true ∨ count + minUndequeued ≤ maxNumFrames ∧
          ∀ i < count + minUndequeued, f.ImportOk i ∧ f.getMemory i = false) :=
  ⟨HeapMemory.allocate_iff f count size, VideoMemory.allocate_iff f count size,
    GrallocMemory.allocate_iff f count window⟩

/-- Only the mapping of the second buffer fails. -/
def secondUnmapped : Faults := { noFaults with mmap := fun i => i = 1 }

/-- When the second of two buffers cannot be mapped, heap memory reports success with
no buffers, and keeps what it has acquired. -/
theorem unmapped_buffer_allocated :
    ¬ AllOrNothing HeapMemory.toCameraMemory HeapMemory.Usable 2
      (HeapMemory.new.allocate secondUnmapped 2 4096) := by
  rw [HeapMemory.allocate_iff]
  intro h
  have hallocates : secondUnmapped.Allocates 2 := ⟨by decide, fun i _ => ⟨rfl, rfl, rfl⟩⟩
  exact absurd (h hallocates 1 (by decide)) (by decide)

end Mem

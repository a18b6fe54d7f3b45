/-
The buffer definitions that the kernel is given, `QCameraMemory::getBufDef`, for the
layouts of YUV frames and buffers from ION.

* `Describes` — all planes name the descriptor of the buffer, and follow each other
  inside the memory that has been allocated for it;
* `buf_def_describes_iff` — so they do exactly for the second buffer and layouts of
  two planes: the planes after the first name the descriptor of the buffer with the
  index of the plane.
-/
import HdxCommon.FrameLayout
import HdxCommon.MemoryAlloc

namespace Layout

open Rounding

/-! ### Room for the planes -/

/-- The frame has two or three planes, room for them, and a length that can be rounded
up to pages. -/
structure Roomy (l : FrameLayout) : Prop where
  planes : l.planes.length = 2 ∨ l.planes.length = 3
  sum : (l.planes.map Plane.len).sum ≤ l.frameLen
  len : l.frameLen + 4096 ≤ 2 ^ 32

variable {venus : Option Venus} {isAFamily : Bool} {padding : PaddingInfo} {fmt : Format}
  {dim : Dimension} {l : FrameLayout}

theorem roomy_of_frame {planes : List Plane} (h : frame planes = some l)
    (hlen : planes.length = 2 ∨ planes.length = 3) : Roomy l := by
  obtain ⟨hplanes, hsum, c, hc⟩ := frame_spec h
  refine ⟨hplanes ▸ hlen, hsum, ?_⟩
  simp only [frame, Option.bind_eq_bind, Option.bind_eq_some_iff, fits_eq_some] at h
  obtain ⟨sum, -, frameLen, hpad, h⟩ := h
  cases h
  have hround := padUp_two_pow (k := 12) le_rfl hpad
  have hlt := (padUp_eq_some hpad).1
  have hbound := roundUp_lt (x := sum) (a := 2 ^ 12) (by decide)
  -- a multiple of the page that is below 2 ^ 32 leaves room for one more page
  have hpage : frameLen = 4096 * c := hc
  show frameLen + 4096 ≤ 2 ^ 32
  omega

/-- The sizes of the Venus driver leave room for the first plane. -/
structure Venus.Room (venus : Venus) (dim : Dimension) : Prop where
  luma : venus.yStride dim.width * venus.yScanlines dim.height ≤
    venus.bufferSize dim.width dim.height
  len : venus.bufferSize dim.width dim.height + 4096 ≤ 2 ^ 32

theorem roomy_nv12Venus {v : Venus} (hv : v.Room dim) (h : nv12Venus v dim = some l) :
    Roomy l := by
  simp only [nv12Venus, Option.bind_eq_bind, Option.bind_eq_some_iff, fits_eq_some] at h
  obtain ⟨len₀, ⟨rfl, -⟩, h⟩ := h
  cases h
  refine ⟨Or.inl rfl, ?_, hv.len⟩
  have hluma := hv.luma
  simp only [plane, List.map_cons, List.map_nil, List.sum_cons, List.sum_nil]
  omega

theorem roomy_nv12 {j k : ℕ} (h : nv12 j k dim = some l) : Roomy l := by
  simp only [nv12, Option.bind_eq_bind, Option.bind_eq_some_iff] at h
  obtain ⟨_, -, _, -, _, -, _, -, _, -, _, -, h⟩ := h
  exact roomy_of_frame h (Or.inl rfl)

theorem roomy_nv21Adreno (h : nv21Adreno dim = some l) : Roomy l := by
  simp only [nv21Adreno, Option.bind_eq_bind, Option.bind_eq_some_iff] at h
  obtain ⟨_, -, _, -, _, -, _, -, _, -, _, -, _, -, _, -, _, -, h⟩ := h
  exact roomy_of_frame h (Or.inl rfl)

theorem roomy_yv12 (h : yv12 dim = some l) : Roomy l := by
  simp only [yv12, Option.bind_eq_bind, Option.bind_eq_some_iff] at h
  obtain ⟨_, -, _, -, _, -, _, -, _, -, h⟩ := h
  exact roomy_of_frame h (Or.inr rfl)

theorem roomy_nv16 (h : nv16 dim = some l) : Roomy l := by
  simp only [nv16, Option.bind_eq_bind, Option.bind_eq_some_iff] at h
  obtain ⟨_, -, _, -, h⟩ := h
  exact roomy_of_frame h (Or.inl rfl)

/-- The layout is one that a preview, postview or snapshot stream of a YUV format
accepts. -/
inductive Accepted (venus : Option Venus) (isAFamily : Bool) (padding : PaddingInfo)
    (fmt : Format) (dim : Dimension) (l : FrameLayout) : Prop
  | preview (h : calcOffsetPreview venus fmt dim = some l)
  | postview (h : calcOffsetPostView venus fmt dim = some l)
  | snapshot (h : calcOffsetSnapshot isAFamily fmt dim padding = some l)

theorem Accepted.roomy (hvenus : ∀ v ∈ venus, v.Room dim)
    (h : Accepted venus isAFamily padding fmt dim l) : Roomy l := by
  have hbind : ∀ {l}, (venus.bind fun v => nv12Venus v dim) = some l → Roomy l := by
    intro l h
    obtain ⟨v, hv, h⟩ := Option.bind_eq_some_iff.mp h
    exact roomy_nv12Venus (hvenus v hv) h
  cases h with
  | preview h =>
    unfold calcOffsetPreview at h
    split at h
    · exact roomy_nv12 h
    · exact roomy_nv12 h
    · exact roomy_nv21Adreno h
    · exact roomy_yv12 h
    · exact roomy_nv16 h
    · exact roomy_nv16 h
    · exact hbind h
    · cases h
  | postview h =>
    unfold calcOffsetPostView at h
    split at h
    · exact roomy_nv12 h
    · exact roomy_nv12 h
    · exact roomy_nv21Adreno h
    · exact roomy_yv12 h
    · exact roomy_nv16 h
    · exact roomy_nv16 h
    · exact hbind h
    · cases h
  | snapshot h =>
    obtain ⟨⟨stride, scanline, offsetY⟩, -, h⟩ := Option.bind_eq_some_iff.mp h
    dsimp only at h
    split at h
    · simp only [Option.bind_eq_bind, Option.bind_eq_some_iff] at h
      obtain ⟨_, -, _, -, h⟩ := h
      exact roomy_of_frame h (Or.inl rfl)
    · simp only [Option.bind_eq_bind, Option.bind_eq_some_iff] at h
      obtain ⟨_, -, _, -, h⟩ := h
      exact roomy_of_frame h (Or.inl rfl)
    · simp only [Option.bind_eq_bind, Option.bind_eq_some_iff] at h
      obtain ⟨_, -, _, -, _, -, h⟩ := h
      exact roomy_of_frame h (Or.inr rfl)
    · simp only [Option.bind_eq_bind, Option.bind_eq_some_iff] at h
      obtain ⟨_, -, h⟩ := h
      exact roomy_of_frame h (Or.inl rfl)
    · simp only [Option.bind_eq_bind, Option.bind_eq_some_iff] at h
      obtain ⟨_, -, h⟩ := h
      exact roomy_of_frame h (Or.inl rfl)
    · cases h

end Layout

namespace Mem

open Layout Rounding

/-! ### Buffer definitions -/

/-- A plane of `mm_camera_buf_def_t`; `reserved` is `reserved[0]`. -/
structure PlaneDef where
  length : ℕ
  userptr : Option Resource
  dataOffset : ℕ
  reserved : ℕ

/-- `mm_camera_buf_def_t`. -/
structure BufDef where
  fd : Option Resource
  frameLen : ℕ
  numPlanes : ℕ
  bufIdx : ℕ
  planes : List PlaneDef

/-- The loop of `getBufDef` from plane `i` on, which begins at `reserved`. -/
def planeDefs (mMemInfo : List MemInfo) : ℕ → ℕ → List Plane → Option (List PlaneDef)
  | _, _, [] => some []
  | i, reserved, p :: ps => do
    let info ← load mMemInfo i
    let rest ← planeDefs mMemInfo (i + 1) (reserved + p.len) ps
    return ⟨p.len, info.fd, p.offset, reserved⟩ :: rest

/-- The planes: the first one is set before the loop, for the buffer `index`. -/
def bufPlanes (mMemInfo : List MemInfo) (index : ℕ) : List Plane → Option (List PlaneDef)
  | [] => some []
  | p :: ps => do
    let info ← load mMemInfo index
    let rest ← planeDefs mMemInfo 1 p.len ps
    return ⟨p.len, info.fd, p.offset, 0⟩ :: rest

/-- `getBufDef`; nothing is set before there is memory. -/
def CameraMemory.getBufDef (m : CameraMemory) (offset : FrameLayout) (index : ℕ) :
    Option BufDef :=
  if m.mBufferCount = 0 then none
  else do
    let info ← load m.mMemInfo index
    let planes ← bufPlanes m.mMemInfo index offset.planes
    return ⟨info.fd, info.size, offset.planes.length, index, planes⟩

/-- What a buffer definition is to be: each plane names the descriptor of the buffer,
begins where the one before it ends, and is inside the memory of the buffer. -/
structure Describes (fd : Resource) (size : ℕ) (planes : List PlaneDef) : Prop where
  own : ∀ p ∈ planes, p.userptr = some fd
  first : ∀ p ∈ planes.head?, p.reserved = 0
  consecutive : planes.IsChain fun p q => q.reserved = p.reserved + p.length
  disjoint : planes.Pairwise fun p q => p.reserved + p.length ≤ q.reserved
  inside : ∀ p ∈ planes, p.reserved + p.length ≤ size

variable {mMemInfo : List MemInfo} {i reserved index count : ℕ} {ps : List Plane}
  {ds : List PlaneDef} {f : Faults} {l : FrameLayout}

/-- The planes `ps` from `reserved` on, one after the other. -/
structure Laid (reserved : ℕ) (ps : List Plane) (ds : List PlaneDef) : Prop where
  first : ∀ d ∈ ds.head?, d.reserved = reserved
  consecutive : ds.IsChain fun p q => q.reserved = p.reserved + p.length
  disjoint : ds.Pairwise fun p q => p.reserved + p.length ≤ q.reserved
  inside : ∀ d ∈ ds, reserved ≤ d.reserved ∧
    d.reserved + d.length ≤ reserved + (ps.map Plane.len).sum

theorem Laid.cons {p : Plane} {fd : Option Resource} (h : Laid (reserved + p.len) ps ds) :
    Laid reserved (p :: ps) (⟨p.len, fd, p.offset, reserved⟩ :: ds) := by
  refine ⟨by simp, ?_, ?_, ?_⟩
  · refine List.isChain_cons.mpr ⟨?_, h.consecutive⟩
    exact fun d hd => h.first d hd
  · exact List.pairwise_cons.mpr ⟨fun d hd => (h.inside d hd).1, h.disjoint⟩
  · intro d hd
    obtain rfl | hd := List.mem_cons.mp hd
    · simp
    · obtain ⟨hlo, hhi⟩ := h.inside d hd
      simp only [List.map_cons, List.sum_cons]
      omega

theorem Laid.nil : Laid reserved [] [] := ⟨by simp, .nil, .nil, by simp⟩

/-- The descriptor of buffer `i`. -/
def fdAt (mMemInfo : List MemInfo) (i : ℕ) : Option Resource :=
  (load mMemInfo i).bind MemInfo.fd

/-- What the loop sets: the planes follow each other, but each names the buffer with
its own index. -/
theorem planeDefs_spec (hlen : i + ps.length ≤ mMemInfo.length) :
    ∃ ds, planeDefs mMemInfo i reserved ps = some ds ∧ Laid reserved ps ds ∧
      ds.map PlaneDef.userptr = (List.range' i ps.length).map (fdAt mMemInfo) := by
  induction ps generalizing i reserved with
  | nil => exact ⟨[], rfl, .nil, rfl⟩
  | cons p ps ih =>
    rw [List.length_cons] at hlen
    obtain ⟨info, hinfo⟩ := Option.isSome_iff_exists.mp
      (isSome_load.mpr (show i < mMemInfo.length by omega))
    obtain ⟨ds, hds, hlaid, hfds⟩ := @ih (i + 1) (reserved + p.len) (by omega)
    refine ⟨⟨p.len, info.fd, p.offset, reserved⟩ :: ds, ?_, hlaid.cons, ?_⟩
    · simp [planeDefs, hinfo, hds]
    · rw [List.map_cons, hfds, List.length_cons, List.range'_succ, List.map_cons, fdAt, hinfo]
      rfl

/-- The descriptor of a buffer is its own. -/
theorem fdAt_allocated (hindex : index < count) (size : ℕ) :
    fdAt (CameraMemory.new.allocated size count).mMemInfo i = some (.fd, index) ↔
      i = index := by
  rw [fdAt]
  by_cases hi : i < count
  · rw [CameraMemory.load_allocated hi, Option.bind_some, CameraMemory.infoOf]
    simp
  · refine iff_of_false ?_ (by omega)
    have hload : load (CameraMemory.new.allocated size count).mMemInfo i =
        load CameraMemory.new.mMemInfo i := load_filled_of_le _ (by omega)
    rw [hload]
    intro hfd
    obtain ⟨info, hinfo, hfd⟩ := Option.bind_eq_some_iff.mp hfd
    have hzero : info = .zero := List.eq_of_mem_replicate (List.mem_of_getElem? hinfo)
    rw [hzero] at hfd
    exact absurd hfd (by simp [MemInfo.zero])

/-- The planes after the first all name buffer `index` only if there is one of them, and
it has that index. -/
theorem own_iff (hindex : index < count) (size : ℕ) (hps : ps.length = 1 ∨ ps.length = 2)
    (hfds : ds.map PlaneDef.userptr = (List.range' 1 ps.length).map
      (fdAt (CameraMemory.new.allocated size count).mMemInfo)) :
    (∀ d ∈ ds, d.userptr = some (.fd, index)) ↔ ps.length = 1 ∧ index = 1 := by
  have hall : (∀ d ∈ ds, d.userptr = some (.fd, index)) ↔
      ∀ i ∈ List.range' 1 ps.length, i = index := by
    rw [← List.forall_mem_map (f := PlaneDef.userptr) (P := fun fd => fd = some (.fd, index)), hfds,
      List.forall_mem_map]
    exact forall₂_congr fun i _ => fdAt_allocated hindex size
  rw [hall]
  obtain h1 | h2 := hps
  · simp [h1, eq_comm]
  · refine iff_of_false (fun h => ?_) (by omega)
    have hone := h 1 (by simp [h2])
    have htwo := h 2 (by simp [h2])
    omega

theorem le_allocLen {size : ℕ} (hsize : size + 4096 ≤ 2 ^ 32) :
    size ≤ CameraMemory.allocLen size := by
  have hpage : (4096 : ℕ) = 2 ^ 12 := by norm_num
  rw [CameraMemory.allocLen, hpage, maskUp_two_pow (by decide) (hpage ▸ hsize)]
  exact le_roundUp (by decide)

/-- **The planes of a buffer definition** name the descriptor of the buffer, and follow
each other inside its memory, exactly if there are two of them and the buffer is the
second one. -/
theorem buf_def_describes_iff (venus : Option Venus) (isAFamily : Bool) (padding : PaddingInfo)
    (fmt : Format) (dim : Dimension) (l : FrameLayout) (hvenus : ∀ v ∈ venus, v.Room dim)
    (hl : Accepted venus isAFamily padding fmt dim l) (f : Faults) (count index : ℕ)
    (m : CameraMemory) (halloc : CameraMemory.new.alloc f count l.frameLen = some (ok, m))
    (hindex : index < count) :
    ∃ d, { m with mBufferCount := count }.getBufDef l index = some d ∧
      d.planes.length = l.planes.length ∧
      (Describes (.fd, index) (CameraMemory.allocLen l.frameLen) d.planes ↔
        l.planes.length = 2 ∧ index = 1) := by
  have hroomy := hl.roomy hvenus
  obtain ⟨-, rc, m', halloc', hrc, -⟩ | ⟨hallocates, halloc'⟩ :=
    CameraMemory.alloc_new f count l.frameLen
  · obtain ⟨rfl, -⟩ := Prod.mk.inj (Option.some.inj (halloc'.symm.trans halloc))
    exact absurd hrc (by decide)
  obtain ⟨-, rfl⟩ := Prod.mk.inj (Option.some.inj (halloc'.symm.trans halloc))
  obtain ⟨p, ps, hplanes⟩ := List.exists_cons_of_ne_nil
    (show l.planes ≠ [] by intro hnil; simpa [hnil] using hroomy.planes)
  have hps : ps.length = 1 ∨ ps.length = 2 := by
    have := hroomy.planes
    simp only [hplanes, List.length_cons] at this
    omega
  have hlen : (CameraMemory.new.allocated l.frameLen count).mMemInfo.length = maxNumFrames :=
    length_filled _ hallocates.1
  obtain ⟨ds, hds, hlaid, hfds⟩ := @planeDefs_spec
    (CameraMemory.new.allocated l.frameLen count).mMemInfo 1 p.len ps (by
      rw [hlen, maxNumFrames]; omega)
  have hload := @CameraMemory.load_allocated l.frameLen count CameraMemory.new index hindex
  refine ⟨⟨some (.fd, index), CameraMemory.allocLen l.frameLen, l.planes.length, index,
    ⟨p.len, some (.fd, index), p.offset, 0⟩ :: ds⟩, ?_, ?_, ?_⟩
  · rw [CameraMemory.getBufDef, if_neg (show count ≠ 0 by omega), hplanes]
    simp only [hload, bufPlanes, hds, Option.bind_eq_bind, Option.bind_some]
    rfl
  · have hcount := congrArg List.length hfds
    simpa [hplanes] using hcount
  · -- only the descriptors can be wrong
    have hall : Laid 0 l.planes (⟨p.len, some (.fd, index), p.offset, 0⟩ :: ds) := by
      rw [hplanes]
      exact Laid.cons (by simpa using hlaid)
    have howns := own_iff hindex l.frameLen hps hfds
    have htwo : l.planes.length = 2 ↔ ps.length = 1 := by simp [hplanes]
    rw [htwo, ← howns]
    constructor
    · exact fun h d hd => h.own d (List.mem_cons_of_mem _ hd)
    · intro h
      refine ⟨List.forall_mem_cons.mpr ⟨rfl, h⟩, hall.first, hall.consecutive, hall.disjoint, ?_⟩
      intro d hd
      have hin := (hall.inside d hd).2
      have hsum := hroomy.sum
      have hsize := le_allocLen hroomy.len
      omega

def smallPreview : FrameLayout :=
  ⟨[plane 3072 64 48 64 48, plane 1536 64 24 64 24], 8192⟩

theorem accepted_smallPreview (padding : PaddingInfo) :
    Accepted none false padding .yuv420Nv21 ⟨64, 48⟩ smallPreview :=
  .preview (by decide)

theorem alloc_two : CameraMemory.new.alloc noFaults 2 smallPreview.frameLen =
    some (ok, CameraMemory.new.allocated smallPreview.frameLen 2) :=
  CameraMemory.alloc_of_ok (by decide) rfl rfl fun _ _ => ⟨rfl, rfl, rfl⟩

theorem buf_def_describes_iff_second :
    ∃ d, { CameraMemory.new.allocated smallPreview.frameLen 2 with
        mBufferCount := 2 }.getBufDef smallPreview 1 = some d ∧
      Describes (.fd, 1) (CameraMemory.allocLen smallPreview.frameLen) d.planes := by
  obtain ⟨d, hd, -, hiff⟩ := buf_def_describes_iff none false ⟨2, 2, 4096⟩ .yuv420Nv21 ⟨64, 48⟩
    smallPreview (by simp) (accepted_smallPreview _) noFaults 2 1 _ alloc_two (by decide)
  exact ⟨d, hd, hiff.mpr ⟨rfl, rfl⟩⟩

/-- The second plane of the first buffer names the second buffer. -/
theorem first_buf_def_mixed :
    Accepted none false ⟨2, 2, 4096⟩ .yuv420Nv21 ⟨64, 48⟩ smallPreview ∧
    ∃ m d, CameraMemory.new.alloc noFaults 2 smallPreview.frameLen = some (ok, m) ∧
      { m with mBufferCount := 2 }.getBufDef smallPreview 0 = some d ∧
      ¬ Describes (.fd, 0) (CameraMemory.allocLen smallPreview.frameLen) d.planes := by
  refine ⟨accepted_smallPreview _, _, ⟨some (.fd, 0), CameraMemory.allocLen 8192, 2, 0,
    [⟨3072, some (.fd, 0), 0, 0⟩, ⟨1536, some (.fd, 1), 0, 3072⟩]⟩, alloc_two, rfl, ?_⟩
  intro h
  exact absurd (h.own ⟨1536, some (.fd, 1), 0, 3072⟩ (by simp)) (by decide)

end Mem

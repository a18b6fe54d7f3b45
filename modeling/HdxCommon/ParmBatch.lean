/-
The batch of parameters in `QCameraParameters`.

A parameter buffer has an entry for each parameter id; the entries that are part of a
batch are linked, from `first_flagged_entry` on, by ids in increasing order.

* `Listed` — the links lead through these ids and then to `CAM_INTF_PARM_MAX`;
* `Listed.link` — linking an id puts it into its place, and changes nothing exactly if
  it is there already;
* `batch_list` — so every batch is a list of the ids added, with the data last written;
  a set addition that is too long is rejected only after its id has been linked.
-/
import HdxCommon.Buffers

namespace Qcamera

/-- `CAM_INTF_PARM_MAX`. -/
def parmMax : ℕ := 105

/-- `parm_entry_type_t`. -/
structure ParmEntry where
  data : List UInt8
  nextFlaggedEntry : UInt8
  deriving DecidableEq, Repr

/-- `parm_buffer_t`. -/
structure ParmBuffer where
  firstFlaggedEntry : UInt8
  entry : List ParmEntry
  deriving DecidableEq, Repr

namespace ParmBuffer

/-- `GET_NEXT_PARAM_ID`. -/
def getNextParamId (t : ParmBuffer) (i : ℕ) : Option ℕ :=
  (load t.entry i).map (·.nextFlaggedEntry.toNat)

/-- `SET_NEXT_PARAM_ID`. -/
def setNextParamId (t : ParmBuffer) (i next : ℕ) : Option ParmBuffer := do
  let e ← load t.entry i
  let entry ← store t.entry i { e with nextFlaggedEntry := UInt8.ofNat next }
  return { t with entry }

/-- The search for the entry before `position`, with less than `n` rounds. -/
def search (t : ParmBuffer) (position : ℕ) : ℕ → ℕ → Option ℕ
  | 0, _ => none
  | n + 1, current => do
    let next ← t.getNextParamId current
    if next < position then t.search position n next else return current

/-- The linking, which is the same for both kinds of additions; a search goes through
each entry once at most. -/
def link (t : ParmBuffer) (position : ℕ) : Option ParmBuffer :=
  let current := t.firstFlaggedEntry.toNat
  if position = current then some t
  else if position < current then do
    let t ← t.setNextParamId position current
    return { t with firstFlaggedEntry := UInt8.ofNat position }
  else do
    let current ← t.search position parmMax current
    let next ← t.getNextParamId current
    if position ≠ next then do
      let t ← t.setNextParamId current position
      t.setNextParamId position next
    else return t

/-- `AddSetParmEntryToBatch`, for entries of `size` bytes, with whether it succeeds. -/
def addSetParmEntryToBatch (size : ℕ) (t : ParmBuffer) (paramType : ℕ) (value : List UInt8) :
    Option (ParmBuffer × Bool) := do
  let t ← t.link paramType
  if size < value.length then return (t, false)
  let e ← load t.entry paramType
  let data ← storeN e.data 0 value
  let entry ← store t.entry paramType { e with data }
  return ({ t with entry }, true)

/-- `AddGetParmEntryToBatch`. -/
def addGetParmEntryToBatch (t : ParmBuffer) (paramType : ℕ) : Option (ParmBuffer × Bool) := do
  return (← t.link paramType, true)

/-- A buffer after `memset` and with an empty list. -/
def cleared (size : ℕ) : ParmBuffer :=
  ⟨UInt8.ofNat parmMax, List.replicate parmMax ⟨List.replicate size 0, 0⟩⟩

end ParmBuffer

inductive Addition where
  | set (paramType : ℕ) (value : List UInt8)
  | get (paramType : ℕ)
  deriving DecidableEq, Repr

namespace Addition

def paramType : Addition → ℕ
  | .set paramType _ => paramType
  | .get paramType => paramType

def accepted (size : ℕ) : Addition → Bool
  | .set _ value => value.length ≤ size
  | .get _ => true

def add (size : ℕ) (t : ParmBuffer) : Addition → Option (ParmBuffer × Bool)
  | .set paramType value => t.addSetParmEntryToBatch size paramType value
  | .get paramType => t.addGetParmEntryToBatch paramType

/-- The addition of `CAM_INTF_PARM_HAL_VERSION`, which is `CAM_HAL_V1`. -/
def halVersion : Addition := .set 0 [1, 0, 0, 0]

def addAll (size : ℕ) (t : ParmBuffer) (as : List Addition) : Option ParmBuffer :=
  as.foldlM (fun t a => (add size t a).map Prod.fst) t

end Addition

namespace ParmBuffer

/-- `initBatchUpdate`. -/
def initBatchUpdate (size : ℕ) : Option ParmBuffer :=
  (Addition.halVersion.add size (cleared size)).map Prod.fst

/-- The ids along the links up to `CAM_INTF_PARM_MAX`; `none` if these are more than `n`. -/
def walk (t : ParmBuffer) : ℕ → ℕ → Option (List ℕ)
  | 0, i => if i = parmMax then some [] else none
  | n + 1, i =>
    if i = parmMax then some []
    else do
      let next ← t.getNextParamId i
      return i :: (← t.walk n next)

/-! ### Links -/

variable {t t' : ParmBuffer} {i j v position : ℕ} {ids l₁ l₂ : List ℕ} {size : ℕ}

def data (t : ParmBuffer) (i : ℕ) : Option (List UInt8) := (load t.entry i).map ParmEntry.data

structure SameData (t t' : ParmBuffer) : Prop where
  length : t'.entry.length = t.entry.length
  data : t'.data = t.data

theorem SameData.trans {t'' : ParmBuffer} (h : t.SameData t') (h' : t'.SameData t'') :
    t.SameData t'' :=
  ⟨h'.length.trans h.length, h'.data.trans h.data⟩

theorem setNextParamId_spec (hi : i < t.entry.length) (hv : v ≤ parmMax) :
    ∃ t', t.setNextParamId i v = some t' ∧ t'.firstFlaggedEntry = t.firstFlaggedEntry ∧
      t'.getNextParamId = Function.update t.getNextParamId i (some v) ∧ t.SameData t' := by
  have hload : load t.entry i = some (t.entry.get ⟨i, hi⟩) := List.getElem?_eq_getElem hi
  obtain ⟨entry, hstore⟩ := Option.isSome_iff_exists.mp (isSome_store.mpr hi : (store t.entry i
    { t.entry.get ⟨i, hi⟩ with nextFlaggedEntry := UInt8.ofNat v }).isSome = true)
  have hv' : (UInt8.ofNat v).toNat = v :=
    UInt8.toNat_ofNat_of_lt (by rw [parmMax] at hv; rw [UInt8.size]; omega)
  refine ⟨{ t with entry }, ?_, rfl, ?_, length_of_store hstore, ?_⟩
  · simp only [setNextParamId, hload, hstore, Option.bind_eq_bind, Option.bind_some]
    rfl
  all_goals
    funext j
    by_cases hj : i = j
    · subst hj
      simp [getNextParamId, data, hload, load_of_store_self hstore, hv']
    · simp [getNextParamId, data, load_of_store_ne hstore hj, Ne.symm hj]

/-- The list of a batch. -/
structure Listed (t : ParmBuffer) (ids : List ℕ) : Prop where
  length : t.entry.length = parmMax
  sorted : (ids ++ [parmMax]).Pairwise (· < ·)
  first : (ids ++ [parmMax]).head? = some t.firstFlaggedEntry.toNat
  chain : (ids ++ [parmMax]).IsChain fun i j => t.getNextParamId i = some j

theorem Listed.lt (h : Listed t ids) (hi : i ∈ ids) : i < parmMax :=
  (List.pairwise_append.mp h.sorted).2.2 i hi parmMax List.mem_cons_self

theorem Listed.length_le (h : Listed t ids) : ids.length ≤ parmMax := by
  have hnodup : ids.Nodup := (List.pairwise_append.mp h.sorted).1.imp fun hij => hij.ne
  have hsub : ids ⊆ List.range parmMax := fun i hi => List.mem_range.mpr (h.lt hi)
  simpa using (List.subperm_of_subset hnodup hsub).length_le

/-- The search stops at the last id before the position. -/
theorem search_spec {c b : ℕ} {rest : List ℕ} {n : ℕ}
    (hchain : (l₁ ++ c :: b :: rest).IsChain fun i j => t.getNextParamId i = some j)
    (hlt : ∀ i ∈ l₁ ++ [c], i < position) (hb : position ≤ b) (hn : l₁.length < n) :
    ∀ a, (l₁ ++ [c]).head? = some a → t.search position n a = some c := by
  induction l₁ generalizing n with
  | nil =>
    rintro a ha
    cases ha
    obtain ⟨n, rfl⟩ : ∃ m, n = m + 1 := ⟨n - 1, by omega⟩
    have hnext : t.getNextParamId c = some b := (List.isChain_cons_cons.mp hchain).1
    simp [search, hnext, hb]
  | cons x l ih =>
    rintro a ha
    cases ha
    obtain ⟨n, rfl⟩ : ∃ m, n = m + 1 := ⟨n - 1, by omega⟩
    obtain ⟨y, hy⟩ : ∃ y, (l ++ [c]).head? = some y := by cases l <;> exact ⟨_, rfl⟩
    have hnext : t.getNextParamId x = some y := by
      cases l with
      | nil | cons z l =>
        cases hy
        exact (List.isChain_cons_cons.mp hchain).1
    have hylt : y < position := hlt y (List.mem_cons_of_mem _ (List.mem_of_mem_head? hy))
    have hrest := ih hchain.of_cons (fun i hi => hlt i (List.mem_cons_of_mem _ hi))
      (by simpa using hn) y hy
    simp [search, hnext, hylt, hrest]

theorem Listed.insert (h : Listed t (l₁ ++ l₂)) (hlt : ∀ i ∈ l₁, i < position)
    (hgt : ∀ i ∈ l₂ ++ [parmMax], position < i) (hlength : t'.entry.length = parmMax)
    (hfirst : (l₁ ++ position :: l₂ ++ [parmMax]).head? = some t'.firstFlaggedEntry.toNat)
    (hnew : t'.getNextParamId position = (l₂ ++ [parmMax]).head?)
    (hlast : ∀ c ∈ l₁.getLast?, t'.getNextParamId c = some position)
    (hkeep : ∀ i, i ≠ position → i ∉ l₁.getLast? → t'.getNextParamId i = t.getNextParamId i) :
    Listed t' (l₁ ++ position :: l₂) := by
  have hsorted := h.sorted
  have hchain := h.chain
  rw [List.append_assoc] at hsorted hchain
  obtain ⟨hs₁, hs₂, hs₁₂⟩ := List.pairwise_append.mp hsorted
  obtain ⟨hc₁, hc₂, -⟩ := List.isChain_append.mp hchain
  refine ⟨hlength, ?_, hfirst, ?_⟩
  · rw [List.append_assoc, List.cons_append]
    refine List.pairwise_append.mpr ⟨hs₁, List.pairwise_cons.mpr ⟨hgt, hs₂⟩, ?_⟩
    intro i hi j hj
    rcases List.mem_cons.mp hj with rfl | hj
    · exact hlt i hi
    · exact hs₁₂ i hi j hj
  · rw [List.append_assoc, List.cons_append]
    refine List.IsChain.append ?_ (List.IsChain.cons ?_ ?_) ?_
    · -- the last of these has no successor among them
      rcases List.eq_nil_or_concat' l₁ with rfl | ⟨l, c, rfl⟩
      · exact .nil
      · obtain ⟨hcl, -, hlc⟩ := List.isChain_append.mp hc₁
        have hl : ∀ i ∈ l, t'.getNextParamId i = t.getNextParamId i := by
          intro i hi
          have hic := (List.pairwise_append.mp hs₁).2.2 i hi c List.mem_cons_self
          exact hkeep i (hlt i (List.mem_append_left _ hi)).ne (by simpa using hic.ne')
        refine List.IsChain.append ?_ (.singleton c) fun i hi j hj => ?_
        · exact hcl.imp_of_mem_imp fun i j hi _ hij => (hl i hi).trans hij
        · exact (hl i (List.mem_of_getLast? hi)).trans (hlc i hi j hj)
    · refine hc₂.imp_of_mem_tail_imp fun i j hi hj hij => ?_
      rw [hkeep i (hgt i hi).ne' fun hmem => ?_, hij]
      exact absurd (hlt i (List.mem_of_getLast? hmem)) (hgt i hi).not_gt
    · intro j hj
      rw [hnew]
      exact hj
    · intro c hc j hj
      cases hj
      exact hlast c hc

theorem exists_split (hsorted : (ids ++ [v]).Pairwise (· < ·)) (hv : position ≤ v) :
    ∃ l₁ l₂, ids = l₁ ++ l₂ ∧ (∀ i ∈ l₁, i < position) ∧ ∀ i ∈ l₂ ++ [v], position ≤ i := by
  induction ids with
  | nil => exact ⟨[], [], rfl, by simp, by simpa using hv⟩
  | cons x ids ih =>
    obtain ⟨hx, hrest⟩ := List.pairwise_cons.mp hsorted
    by_cases hlt : x < position
    · obtain ⟨l₁, l₂, rfl, hl₁, hl₂⟩ := ih hrest
      exact ⟨x :: l₁, l₂, rfl, List.forall_mem_cons.mpr ⟨hlt, hl₁⟩, hl₂⟩
    · refine ⟨[], x :: ids, rfl, by simp, List.forall_mem_cons.mpr ⟨by omega, fun i hi => ?_⟩⟩
      have := hx i hi
      omega

theorem Listed.next_eq {l rest : List ℕ} {c b : ℕ} (h : Listed t (l ++ [c] ++ l₂))
    (hrest : l₂ ++ [parmMax] = b :: rest) :
    (l ++ c :: b :: rest).IsChain (fun i j => t.getNextParamId i = some j) ∧
      t.getNextParamId c = some b := by
  have hchain : (l ++ c :: b :: rest).IsChain fun i j => t.getNextParamId i = some j := by
    simpa [hrest] using h.chain
  exact ⟨hchain, (List.isChain_cons_cons.mp (List.isChain_append.mp hchain).2.1).1⟩

theorem Listed.link_eq {l rest : List ℕ} {c b : ℕ} (h : Listed t (l ++ [c] ++ l₂))
    (hlt : ∀ i ∈ l ++ [c], i < position) (hrest : l₂ ++ [parmMax] = b :: rest)
    (hpb : position ≤ b) :
    t.link position =
      if position ≠ b then
        (t.setNextParamId c position).bind (·.setNextParamId position b)
      else some t := by
  obtain ⟨hchain, hnext⟩ := h.next_eq hrest
  obtain ⟨a, ha⟩ : ∃ a, (l ++ [c]).head? = some a := by cases l <;> exact ⟨_, rfl⟩
  have hfirst : t.firstFlaggedEntry.toNat = a := by
    have hfirst := h.first
    rw [List.append_assoc, List.head?_append, ha] at hfirst
    exact (Option.some.inj hfirst).symm
  have hap := hlt a (List.mem_of_mem_head? ha)
  have hlen : l.length < parmMax := by
    have hle := h.length_le
    simp only [List.length_append, List.length_singleton] at hle
    omega
  have hsearch := search_spec hchain hlt hpb hlen a ha
  simp only [ParmBuffer.link, hfirst, hap.ne', if_false, hap.not_gt, hsearch, hnext,
    Option.bind_eq_bind, Option.bind_some]
  rfl

/-- **An id is linked in its place**, the data stays, and nothing changes exactly if the id
is in the list already. -/
theorem Listed.link (h : Listed t ids) (hp : position < parmMax) :
    ∃ t' ids', t.link position = some t' ∧ Listed t' ids' ∧
      (∀ i, i ∈ ids' ↔ i = position ∨ i ∈ ids) ∧ t.SameData t' ∧ (t' = t ↔ position ∈ ids) := by
  -- the ids before the position, and the others
  obtain ⟨l₁, l₂, rfl, hlt, hge⟩ := exists_split h.sorted hp.le
  have hlen : position < t.entry.length := h.length ▸ hp
  obtain ⟨b, rest, hrest⟩ : ∃ b rest, l₂ ++ [parmMax] = b :: rest := by
    cases l₂ <;> exact ⟨_, _, rfl⟩
  have hb : (l₂ ++ [parmMax]).head? = some b := by rw [hrest]; rfl
  have hbmem : b ∈ l₂ ++ [parmMax] := List.mem_of_mem_head? hb
  have hpb : position ≤ b := hge b hbmem
  have hbmax : b ≤ parmMax := by
    rcases List.mem_append.mp hbmem with hmem | hmem
    · exact (h.lt (List.mem_append_right _ hmem)).le
    · exact (List.mem_singleton.mp hmem).le
  by_cases heq : position = b
  · have hmem : position ∈ l₁ ++ l₂ := by
      rcases List.mem_append.mp hbmem with hmem | hmem
      · exact List.mem_append_right _ (heq ▸ hmem)
      · exact absurd (heq.trans (List.mem_singleton.mp hmem)) hp.ne
    refine ⟨t, l₁ ++ l₂, ?_, h, ?_, ⟨rfl, rfl⟩, by simp [hmem]⟩
    · rcases List.eq_nil_or_concat' l₁ with rfl | ⟨l, c, rfl⟩
      · have hfirst : position = t.firstFlaggedEntry.toNat :=
          heq.trans (Option.some.inj (hb.symm.trans h.first))
        simp [ParmBuffer.link, hfirst]
      · rw [h.link_eq hlt hrest hpb, if_neg (not_not.mpr heq)]
    · rintro i
      exact ⟨.inr, fun hi => hi.elim (fun hi => hi ▸ hmem) id⟩
  · have hgt : ∀ i ∈ l₂ ++ [parmMax], position < i := by
      have hsorted := h.sorted
      rw [List.append_assoc, hrest] at hsorted
      have hbi := (List.pairwise_cons.mp (List.pairwise_append.mp hsorted).2.1).1
      rw [hrest]
      refine List.forall_mem_cons.mpr ⟨lt_of_le_of_ne hpb heq, fun i hi => ?_⟩
      exact hpb.trans_lt (hbi i hi)
    have hmem : position ∉ l₁ ++ l₂ := by
      intro hmem
      rcases List.mem_append.mp hmem with hmem | hmem
      · exact lt_irrefl _ (hlt _ hmem)
      · exact lt_irrefl _ (hgt _ (List.mem_append_left _ hmem))
    rcases List.eq_nil_or_concat' l₁ with rfl | ⟨l, c, rfl⟩
    · -- in front of all others
      have hfirst : t.firstFlaggedEntry.toNat = b := Option.some.inj (h.first.symm.trans hb)
      have hposition : (UInt8.ofNat position).toNat = position :=
        UInt8.toNat_ofNat_of_lt (by rw [parmMax] at hp; rw [UInt8.size]; omega)
      obtain ⟨t', hset, -, hnext, hsame⟩ := setNextParamId_spec hlen hbmax
      refine ⟨{ t' with firstFlaggedEntry := UInt8.ofNat position }, position :: l₂, ?_,
        h.insert hlt hgt (hsame.length.trans h.length) ?_ ?_ (by simp) ?_, by simp,
        ⟨hsame.length, hsame.data⟩, ?_⟩
      · simp only [ParmBuffer.link, hfirst, heq, if_false, lt_of_le_of_ne hpb heq, if_true, hset,
          Option.bind_eq_bind, Option.bind_some]
        rfl
      · simp [hposition]
      · rw [hb]
        exact (congrFun hnext position).trans (Function.update_self ..)
      · exact fun i hi _ => (congrFun hnext i).trans (Function.update_of_ne hi ..)
      · refine ⟨fun hsame' => ?_, fun hmem' => absurd hmem' hmem⟩
        have hpos := congrArg (fun t => t.firstFlaggedEntry.toNat) hsame'
        exact absurd (hposition.symm.trans (hpos.trans hfirst)) heq
    · have hc : c < parmMax := h.lt (by simp)
      have hcp : c < position := hlt c (by simp)
      obtain ⟨t₁, hset₁, hfirst₁, hnext₁, hsame₁⟩ := setNextParamId_spec (h.length ▸ hc) hp.le
      obtain ⟨t₂, hset₂, hfirst₂, hnext₂, hsame₂⟩ :=
        setNextParamId_spec (hsame₁.length ▸ hlen) hbmax
      have hsame := hsame₁.trans hsame₂
      have hnextc : t₂.getNextParamId c = some position := by
        rw [hnext₂, Function.update_of_ne hcp.ne, hnext₁, Function.update_self]
      refine ⟨t₂, l ++ [c] ++ position :: l₂, ?_,
        h.insert hlt hgt (hsame.length.trans h.length) ?_ ?_ ?_ ?_, ?_, hsame, ?_⟩
      · rw [h.link_eq hlt hrest hpb, if_pos heq, hset₁, Option.bind_some, hset₂]
      · rw [hfirst₂, hfirst₁, ← h.first]
        cases l <;> rfl
      · rw [hnext₂, Function.update_self, hb]
      · simpa using hnextc
      · intro i hi hic
        rw [hnext₂, Function.update_of_ne hi, hnext₁, Function.update_of_ne]
        rintro rfl
        simp at hic
      · intro i
        simp only [List.mem_append, List.mem_cons]
        tauto
      · refine ⟨fun hsame' => ?_, fun hmem' => absurd hmem' hmem⟩
        rw [hsame', (h.next_eq hrest).2] at hnextc
        exact absurd (Option.some.inj hnextc).symm heq

theorem Listed.walk (h : Listed t ids) :
    t.walk parmMax t.firstFlaggedEntry.toNat = some ids := by
  have hfrom : ∀ (l : List ℕ) (n a : ℕ), (∀ i ∈ l, i < parmMax) → l.length ≤ n →
      (l ++ [parmMax]).IsChain (fun i j => t.getNextParamId i = some j) →
      (l ++ [parmMax]).head? = some a → t.walk n a = some l := by
    intro l
    induction l with
    | nil =>
      rintro n a - - - ha
      cases ha
      cases n <;> simp [ParmBuffer.walk]
    | cons x l ih =>
      intro n a hlt hn hchain ha
      cases ha
      obtain ⟨n, rfl⟩ : ∃ m, n = m + 1 := ⟨n - 1, by rw [List.length_cons] at hn; omega⟩
      obtain ⟨hx, hl⟩ := List.forall_mem_cons.mp hlt
      obtain ⟨y, hy⟩ : ∃ y, (l ++ [parmMax]).head? = some y := by cases l <;> exact ⟨_, rfl⟩
      obtain ⟨hnext, hrest⟩ := List.isChain_cons.mp hchain
      simp [ParmBuffer.walk, hx.ne, hnext y hy, ih n y hl (by simpa using hn) hrest hy]
  exact hfrom ids parmMax _ (fun i hi => h.lt hi) h.length_le h.chain h.first

theorem listed_cleared (size : ℕ) : Listed (cleared size) [] := by
  refine ⟨by simp [cleared], by simp, rfl, .singleton _⟩

/-! ### Additions -/

/-- Every entry has `size` bytes. -/
def Sized (size : ℕ) (t : ParmBuffer) : Prop := ∀ i d, t.data i = some d → d.length = size

theorem write_spec {value : List UInt8} (hi : i < t.entry.length) (hsize : Sized size t)
    (hvalue : value.length ≤ size) : ∃ e d entry, load t.entry i = some e ∧
      storeN e.data 0 value = some d ∧ store t.entry i { e with data := d } = some entry ∧
      entry.length = t.entry.length ∧ d.length = size ∧ d.take value.length = value ∧
      { t with entry }.getNextParamId = t.getNextParamId ∧
      { t with entry }.data = Function.update t.data i (some d) := by
  obtain ⟨e, he⟩ := Option.isSome_iff_exists.mp (isSome_load.mpr hi)
  have hlen : e.data.length = size := hsize i e.data (by simp [data, he])
  obtain ⟨d, hd⟩ := Option.isSome_iff_exists.mp
    (isSome_storeN.mpr (show 0 + value.length ≤ e.data.length by omega))
  obtain ⟨entry, hentry⟩ := Option.isSome_iff_exists.mp
    (isSome_store.mpr hi : (store t.entry i { e with data := d }).isSome = true)
  refine ⟨e, d, entry, he, hd, hentry, length_of_store hentry, (length_of_storeN hd).trans hlen,
    ?_, ?_, ?_⟩
  · rw [storeN, if_pos (by omega)] at hd
    rw [← Option.some.inj hd]
    simp
  all_goals
    funext j
    by_cases hj : i = j
    · subst hj
      simp [getNextParamId, data, he, load_of_store_self hentry]
    · simp [getNextParamId, data, load_of_store_ne hentry hj, Ne.symm hj]

/-- **One addition**: its id is in the list then; the data changes if it is a set addition
that is accepted, and the buffer stays as it is, if it is rejected, exactly if the id was
in the list. -/
theorem Listed.add (h : Listed t ids) (hsize : Sized size t) {a : Addition}
    (ha : a.paramType < parmMax) :
    ∃ t' ids', a.add size t = some (t', a.accepted size) ∧ Listed t' ids' ∧ Sized size t' ∧
      (∀ i, i ∈ ids' ↔ i = a.paramType ∨ i ∈ ids) ∧
      (a.accepted size = false → (t' = t ↔ a.paramType ∈ ids)) ∧
      (∀ i, (∀ value, a = .set i value → a.accepted size = false) → t'.data i = t.data i) ∧
      ∀ value, a = .set a.paramType value → a.accepted size = true →
        ∃ d, t'.data a.paramType = some d ∧ d.take value.length = value := by
  obtain ⟨t₁, ids', hlink, h₁, hids, hsame, hiff⟩ := h.link ha
  have hsize₁ : Sized size t₁ := fun i d hd => hsize i d (hsame.data ▸ hd)
  cases a with
  | get paramType =>
    refine ⟨t₁, ids', ?_, h₁, hsize₁, hids, fun hacc => (by cases hacc), ?_, ?_⟩
    · simp only [Addition.paramType] at hlink
      simp [Addition.add, addGetParmEntryToBatch, hlink, Addition.accepted]
    · exact fun i _ => congrFun hsame.data i
    · exact fun value hset => (by cases hset)
  | set paramType value =>
    simp only [Addition.paramType] at *
    by_cases hacc : value.length ≤ size
    · obtain ⟨e, d, entry, he, hd, hentry, hlen, hdlen, htake, hnext, hdata⟩ :=
        write_spec (h₁.length ▸ ha) hsize₁ hacc
      refine ⟨{ t₁ with entry }, ids', ?_, ⟨hlen.trans h₁.length, h₁.sorted, h₁.first, ?_⟩, ?_,
        hids, fun hrej => ?_, ?_, ?_⟩
      · simp [Addition.add, addSetParmEntryToBatch, hlink, Addition.accepted, hacc,
          Nat.not_lt.mpr hacc, he, hd, hentry]
      · rw [hnext]
        exact h₁.chain
      · intro i d' hd'
        rw [hdata] at hd'
        by_cases hi : i = paramType
        · rw [hi, Function.update_self] at hd'
          exact Option.some.inj hd' ▸ hdlen
        · rw [Function.update_of_ne hi] at hd'
          exact hsize₁ i d' hd'
      · simp [Addition.accepted, hacc] at hrej
      · intro i hi
        have hne : i ≠ paramType := by
          rintro rfl
          simpa [Addition.accepted, hacc] using hi value rfl
        rw [hdata, Function.update_of_ne hne, hsame.data]
      · rintro value' hset -
        cases hset
        exact ⟨d, by rw [hdata, Function.update_self], htake⟩
    · refine ⟨t₁, ids', ?_, h₁, hsize₁, hids, fun _ => hiff, ?_, ?_⟩
      · simp [Addition.add, addSetParmEntryToBatch, hlink, Addition.accepted, hacc,
          Nat.lt_of_not_le hacc]
      · exact fun i _ => congrFun hsame.data i
      · intro value' hset htrue
        simp [Addition.accepted, hacc] at htrue

open Addition

variable {as : List Addition}

theorem Listed.addAll (h : Listed t ids) (hsize : Sized size t)
    (has : ∀ a ∈ as, a.paramType < parmMax) :
    ∃ t' ids', addAll size t as = some t' ∧ Listed t' ids' ∧ Sized size t' ∧
      (∀ i, i ∈ ids' ↔ (∃ a ∈ as, a.paramType = i) ∨ i ∈ ids) ∧
      ∀ i, (∀ value, .set i value ∈ as → size < value.length) → t'.data i = t.data i := by
  induction as generalizing t ids with
  | nil => exact ⟨t, ids, rfl, h, hsize, by simp, fun _ _ => rfl⟩
  | cons a as ih =>
    obtain ⟨ha, has⟩ := List.forall_mem_cons.mp has
    obtain ⟨t₁, ids₁, hadd, h₁, hsize₁, hids₁, -, hdata₁, -⟩ := h.add hsize ha
    obtain ⟨t', ids', hall, h', hsize', hids, hdata⟩ := ih h₁ hsize₁ has
    refine ⟨t', ids', ?_, h', hsize', fun i => ?_, fun i hi => ?_⟩
    · simpa [Addition.addAll, hadd] using hall
    · rw [hids, hids₁, List.exists_mem_cons_iff, @eq_comm _ i a.paramType]
      exact or_left_comm.trans or_assoc.symm
    · rw [hdata i fun value hv => hi value (List.mem_cons_of_mem _ hv)]
      refine hdata₁ i ?_
      rintro value rfl
      simpa [accepted] using hi value List.mem_cons_self

theorem addAll_append {as' : List Addition} :
    addAll size t (as ++ as') = (addAll size t as).bind fun t => addAll size t as' :=
  List.foldlM_append

theorem Listed.data_of_write (h : Listed t ids) (hsize : Sized size t)
    {before after : List Addition} {value : List UInt8}
    (has : ∀ a ∈ before ++ .set i value :: after, a.paramType < parmMax)
    (hvalue : value.length ≤ size) (hlast : ∀ v', .set i v' ∈ after → size < v'.length)
    (hall : Addition.addAll size t (before ++ .set i value :: after) = some t') :
    ∃ d, t'.data i = some d ∧ d.take value.length = value := by
  obtain ⟨hbefore, has⟩ := List.forall_mem_append.mp has
  obtain ⟨hi, hafter⟩ := List.forall_mem_cons.mp has
  obtain ⟨t₁, ids₁, hall₁, h₁, hsize₁, -, -⟩ := h.addAll hsize hbefore
  obtain ⟨t₂, ids₂, hadd, h₂, hsize₂, -, -, -, hwrite⟩ := h₁.add hsize₁ hi
  obtain ⟨t₃, ids₃, hall₃, -, -, -, hdata⟩ := h₂.addAll hsize₂ hafter
  rw [addAll_append, hall₁, Option.bind_some, Addition.addAll, List.foldlM_cons, hadd] at hall
  cases hall₃.symm.trans hall
  obtain ⟨d, hd, htake⟩ := hwrite value rfl (by simpa [accepted] using hvalue)
  exact ⟨d, by rw [hdata i hlast]; exact hd, htake⟩

/-- If a rejected addition is for an id that was added before, each id was accepted once. -/
theorem exists_accepted (has : ∀ before a after, as = before ++ a :: after →
      a.accepted size = false → ∃ b ∈ halVersion :: before, b.paramType = a.paramType)
    (hhal : halVersion.accepted size = true) {a : Addition} (ha : a ∈ halVersion :: as) :
    ∃ b ∈ halVersion :: as, b.accepted size = true ∧ b.paramType = a.paramType := by
  induction as using List.reverseRecOn generalizing a with
  | nil => exact ⟨a, ha, by simpa [List.mem_singleton.mp ha] using hhal, rfl⟩
  | append_singleton as x ih =>
    have hgrow : ∀ {b}, b ∈ halVersion :: as → b ∈ halVersion :: (as ++ [x]) :=
      fun hb => List.mem_append_left [x] hb
    have hearlier : ∀ {c}, c ∈ halVersion :: as → ∃ b ∈ halVersion :: (as ++ [x]),
        b.accepted size = true ∧ b.paramType = c.paramType := by
      intro c hc
      obtain ⟨b, hb, hrest⟩ :=
        ih (fun before a after heq => has before a (after ++ [x]) (by simp [heq])) hc
      exact ⟨b, hgrow hb, hrest⟩
    rcases List.mem_append.mp (show a ∈ (halVersion :: as) ++ [x] from ha) with ha | ha
    · exact hearlier ha
    · obtain rfl := List.mem_singleton.mp ha
      cases hacc : a.accepted size with
      | true => exact ⟨a, by simp, hacc, rfl⟩
      | false =>
        obtain ⟨c, hc, hca⟩ := has as a [] rfl hacc
        exact hca ▸ hearlier hc

/-- **The list of a batch.**  After `initBatchUpdate` and any additions of valid ids, the
links lead through the ids added, in increasing order and then to `CAM_INTF_PARM_MAX`, each
entry begins with the bytes last accepted for it, and a further addition ends.  One that
is rejected leaves the buffer as it is exactly if its id is in the list already; if that is
so for all that were rejected, the ids in the list are those that were accepted. -/
theorem batch_list (hfits : 4 ≤ size) (has : ∀ a ∈ as, a.paramType < parmMax) :
    ∃ t₀ t ids, initBatchUpdate size = some t₀ ∧ addAll size t₀ as = some t ∧
      t.walk parmMax t.firstFlaggedEntry.toNat = some ids ∧ ids.Pairwise (· < ·) ∧
      (∀ i, i ∈ ids ↔ ∃ a ∈ halVersion :: as, a.paramType = i) ∧
      (∀ before after i value, halVersion :: as = before ++ .set i value :: after →
        value.length ≤ size → (∀ v', .set i v' ∈ after → size < v'.length) →
        ∃ d, t.data i = some d ∧ d.take value.length = value) ∧
      (∀ a : Addition, a.paramType < parmMax → ∃ t', a.add size t = some (t', a.accepted size) ∧
        (a.accepted size = false → (t' = t ↔ a.paramType ∈ ids))) ∧
      ((∀ before a after, as = before ++ a :: after → a.accepted size = false →
          ∃ b ∈ halVersion :: before, b.paramType = a.paramType) →
        ∀ i, i ∈ ids ↔ ∃ a ∈ halVersion :: as, a.accepted size = true ∧ a.paramType = i) := by
  have hsize : Sized size (cleared size) := by
    intro i d hd
    obtain ⟨e, he, rfl⟩ := Option.map_eq_some_iff.mp hd
    rw [load, cleared] at he
    rw [(List.eq_of_mem_replicate (List.mem_of_getElem? he) : e = _)]
    exact List.length_replicate
  have hhal : ∀ a ∈ halVersion :: as, a.paramType < parmMax :=
    List.forall_mem_cons.mpr ⟨by decide, has⟩
  obtain ⟨t, ids, hall, h, hsize', hids, -⟩ := (listed_cleared size).addAll hsize hhal
  obtain ⟨t₀, hinit, hrest⟩ := Option.bind_eq_some_iff.mp
    (show (initBatchUpdate size).bind (addAll size · as) = some t from hall)
  simp only [List.not_mem_nil, or_false] at hids
  refine ⟨t₀, t, ids, hinit, hrest, h.walk, (List.pairwise_append.mp h.sorted).1, hids, ?_, ?_, ?_⟩
  · intro before after i value heq hvalue hlast
    exact (listed_cleared size).data_of_write hsize (heq ▸ hhal) hvalue hlast (heq ▸ hall)
  · intro a ha
    obtain ⟨t', -, hadd, -, -, -, hiff, -⟩ := h.add hsize' ha
    exact ⟨t', hadd, hiff⟩
  · intro hrejected i
    have haccepted : halVersion.accepted size = true := by simpa [halVersion, accepted] using hfits
    rw [hids]
    constructor
    · rintro ⟨a, ha, rfl⟩
      exact exists_accepted hrejected haccepted ha
    · rintro ⟨a, ha, -, rfl⟩
      exact ⟨a, ha, rfl⟩

/-- Two additions, and the list that they make. -/
theorem batch_list_two : ∃ t₀ t ids, initBatchUpdate 4 = some t₀ ∧
    addAll 4 t₀ [.set 3 [9], .get 1] = some t ∧
    t.walk parmMax t.firstFlaggedEntry.toNat = some ids ∧ ids.Pairwise (· < ·) := by
  obtain ⟨t₀, t, ids, hinit, hall, hwalk, hsorted, -⟩ :=
    @batch_list 4 [.set 3 [9], .get 1] (by decide) (by decide)
  exact ⟨t₀, t, ids, hinit, hall, hwalk, hsorted⟩

/-- A value of five bytes for entries of four is rejected, but its id is in the list. -/
theorem rejected_set_links : ∃ t t', initBatchUpdate 4 = some t ∧
    Addition.add 4 t (.set 3 [1, 2, 3, 4, 5]) = some (t', false) ∧
    t.walk parmMax t.firstFlaggedEntry.toNat = some [0] ∧
    t'.walk parmMax t'.firstFlaggedEntry.toNat = some [0, 3] :=
  ⟨_, _, rfl, rfl, by decide, by decide⟩

end ParmBuffer

end Qcamera

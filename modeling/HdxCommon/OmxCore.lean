/-
The OMX core of the image codec, `qomx_core.c`.

`OMX_GetHandle` loads the library of a component for its first instance, and
`OMX_FreeHandle` unloads it with the last one.  How a library is loaded is kept
in a flag, a library handle, two function pointers and the table of instances.

* `Component.Consistent` — the library is loaded if and only if the flag is set,
  and if and only if there is an instance;
* `omx_library_lifetime` — this holds along every run in which no call fails
  after it has loaded a library, and the functions of a library are called only
  while it is loaded.
-/
import HdxCommon.Runs

namespace Omx

/-- `OMX_COMP_MAX_INSTANCES`. -/
abbrev compMaxInstances : ℕ := 3

/-- `g_comp_info`: the names of the components and of their libraries. -/
def compInfo : List (String × String) :=
  [("OMX.qcom.image.jpeg.encoder", "libqomx_jpegenc.so"),
    ("OMX.qcom.image.jpeg.decoder", "libqomx_jpegdec.so")]

/-- `comp_cnt`. -/
abbrev compCnt : ℕ := 2

/-- `omx_core_component_t`.  `loads` and `unloads` count the calls of `dlopen` that
succeeded and of `dlclose`; a function pointer says which load it is from. -/
structure Component where
  handle : Fin compMaxInstances → Option ℕ
  isOpen : Bool
  libHandle : Option ℕ
  getInstance : Option ℕ
  createCompFunc : Option ℕ
  loads : ℕ
  unloads : ℕ
  deriving DecidableEq

/-- The components of `g_omxcore`. -/
abbrev Core := Fin compCnt → Component

inductive ErrorType where
  | none
  | invalidComponent
  | badParameter
  deriving DecidableEq, Repr

/-- What a call of `OMX_GetHandle` meets: a library, the two symbols in it, an
object and a component, or `NULL` in their place. -/
structure LoadOps where
  dlopen : Option ℕ
  createComponentFns : Bool
  getInstanceFn : Bool
  object : Option ℕ
  component : Option ℕ

/-- A call of a function of a library; `loaded` says whether it goes through a
library that is loaded. -/
structure LibCall where
  comp : Fin compCnt
  loaded : Bool
  deriving DecidableEq, Repr

/-- `OMX_GetHandle` with or without a place for the handle, and
`OMX_FreeHandle`, with the answer of `ComponentDeInit`. -/
inductive OmxCall where
  | getHandle (handle : Bool) (componentName : Option String) (ops : LoadOps)
  | freeHandle (hComp : Option ℕ) (componentDeInit : Bool)

namespace Component

/-- The component as `OMX_Init` leaves it. -/
def init : Component := ⟨fun _ => none, false, none, none, none, 0, 0⟩

/-- The library is loaded: it was opened once more than closed. -/
def loaded (c : Component) : Bool := c.loads = c.unloads + 1

def through (c : Component) (f : Option ℕ) : Bool := c.loaded && f = some c.loads

/-- `get_free_inst_idx`. -/
def getFreeInstIdx (c : Component) : Option (Fin compMaxInstances) :=
  (List.finRange compMaxInstances).find? fun i => (c.handle i).isNone

/-- `is_comp_active`. -/
def isCompActive (c : Component) : Bool :=
  (List.finRange compMaxInstances).any fun i => (c.handle i).isSome

/-- The error exit of `OMX_GetHandle`. -/
def exitError (c : Component) (closeHandle : Bool) : Component :=
  if closeHandle then { c with libHandle := none, unloads := c.unloads + 1 } else c

/-- The second part of `OMX_GetHandle`: make an instance.  The calls through the
function pointers come out. -/
def construct (c : Component) (inst : Fin compMaxInstances) (closeHandle : Bool) (ops : LoadOps) :
    Component × List Bool × ErrorType :=
  match ops.object with
  | none => (c.exitError closeHandle, [c.through c.getInstance], .invalidComponent)
  | some _ =>
    match ops.component with
    | none =>
      (c.exitError closeHandle, [c.through c.getInstance, c.through c.createCompFunc],
        .invalidComponent)
    | some p =>
      ({ c with handle := Function.update c.handle inst (some p) },
        [c.through c.getInstance, c.through c.createCompFunc], .none)

/-- The component right after `dlopen` and `dlsym`. -/
def load (c : Component) (lib : ℕ) (ops : LoadOps) : Component :=
  { c with
    libHandle := some lib
    isOpen := true
    loads := c.loads + 1
    createCompFunc := if ops.createComponentFns then some (c.loads + 1) else none
    getInstance := if ops.getInstanceFn then some (c.loads + 1) else none }

/-- `OMX_GetHandle` for a known component. -/
def getHandle (c : Component) (ops : LoadOps) : Component × List Bool × ErrorType :=
  match c.getFreeInstIdx with
  | none => (c, [], .invalidComponent)
  | some inst =>
    if c.isOpen then c.construct inst false ops
    else
      match ops.dlopen with
      | none => ({ c with libHandle := none }, [], .invalidComponent)
      | some lib =>
        let c := c.load lib ops
        if c.createCompFunc.isNone || c.getInstance.isNone then
          (c.exitError true, [], .invalidComponent)
        else c.construct inst true ops

/-- `OMX_FreeHandle` once `ComponentDeInit` has succeeded. -/
def freeHandle (c : Component) (inst : Fin compMaxInstances) : Component :=
  let c := { c with handle := Function.update c.handle inst none }
  if !c.isCompActive then
    { c with
      unloads := c.unloads + 1
      libHandle := none
      getInstance := none
      createCompFunc := none
      isOpen := false }
  else c

end Component

namespace Core

/-- `g_omxcore` after `OMX_Init`. -/
def init : Core := fun _ => .init

/-- `get_comp_from_list`. -/
def getCompFromList (componentName : Option String) : Option (Fin compCnt) :=
  (List.finRange compCnt).find? fun i => (compInfo[i]?).map Prod.fst == componentName

/-- `get_idx_from_handle`. -/
def getIdxFromHandle (s : Core) (hComp : ℕ) : Option (Fin compCnt × Fin compMaxInstances) :=
  ((List.finRange compCnt).product (List.finRange compMaxInstances)).find? fun p =>
    (s p.1).handle p.2 == some hComp

/-- `OMX_GetHandle`; the calls of library functions it makes come out. -/
def getHandle (s : Core) (handle : Bool) (componentName : Option String) (ops : LoadOps) :
    Core × List LibCall × ErrorType :=
  match getCompFromList componentName with
  | none => (s, [], .invalidComponent)
  | some i =>
    if !handle then (s, [], .badParameter)
    else
      let (c, calls, rc) := (s i).getHandle ops
      (Function.update s i c, calls.map (LibCall.mk i), rc)

/-- `OMX_FreeHandle`. -/
def freeHandle (s : Core) (hComp : Option ℕ) (componentDeInit : Bool) : Core × ErrorType :=
  match hComp with
  | none => (s, .badParameter)
  | some h =>
    match s.getIdxFromHandle h with
    | none => (s, .invalidComponent)
    | some (i, inst) =>
      if !componentDeInit then (s, .invalidComponent)
      else (Function.update s i ((s i).freeHandle inst), .none)

def step (s : Core) : OmxCall → Option (Core × List LibCall)
  | .getHandle handle componentName ops =>
    let (s, calls, _) := s.getHandle handle componentName ops
    some (s, calls)
  | .freeHandle hComp componentDeInit => some ((s.freeHandle hComp componentDeInit).1, [])

end Core

/-! ### The state of a library -/

namespace Component

/-- The library is loaded if and only if the flag is set, and if and only if
there is an instance. -/
structure Consistent (c : Component) : Prop where
  loaded_iff : c.loaded = true ↔ c.isOpen = true
  open_iff : c.isOpen = true ↔ ∃ i, (c.handle i).isSome

/-- The library is not loaded and has no instance. -/
structure Closed (c : Component) : Prop where
  flag : c.isOpen = false
  count : c.loads = c.unloads
  handle : ∀ i, c.handle i = none

/-- The library is loaded, and the function pointers are from it. -/
structure Loaded (c : Component) : Prop where
  flag : c.isOpen = true
  count : c.loads = c.unloads + 1
  getInstance : c.getInstance = some c.loads
  createCompFunc : c.createCompFunc = some c.loads

def Inv (c : Component) : Prop := c.Closed ∨ c.Loaded ∧ ∃ i, (c.handle i).isSome

variable {c c' : Component} {ops : LoadOps} {inst : Fin compMaxInstances} {calls : List Bool}
  {rc : ErrorType}

theorem Inv.consistent (h : c.Inv) : c.Consistent := by
  rcases h with h | ⟨h, hlive⟩
  · refine ⟨?_, ?_⟩
    · simp [loaded, h.flag, h.count]
    · simp [h.flag, h.handle]
  · refine ⟨?_, ?_⟩
    · simp [loaded, h.flag, h.count]
    · simp [h.flag, hlive]

theorem Loaded.through (h : c.Loaded) :
    c.through c.getInstance = true ∧ c.through c.createCompFunc = true := by
  simp [Component.through, loaded, h.count, h.getInstance, h.createCompFunc]

theorem Loaded.construct (h : c.Loaded)
    (hs : c.construct inst false ops = (c', calls, rc)) (hlive : ∃ i, (c.handle i).isSome) :
    c'.Inv ∧ ∀ call ∈ calls, call = true := by
  obtain ⟨hget, hcreate⟩ := h.through
  unfold Component.construct at hs
  rw [hget, hcreate] at hs
  split at hs
  · obtain ⟨rfl, rfl, -⟩ := Prod.mk.inj hs |>.imp_right Prod.mk.inj
    exact ⟨.inr ⟨h, hlive⟩, by simp⟩
  split at hs
  · obtain ⟨rfl, rfl, -⟩ := Prod.mk.inj hs |>.imp_right Prod.mk.inj
    exact ⟨.inr ⟨h, hlive⟩, by simp⟩
  · obtain ⟨rfl, rfl, -⟩ := Prod.mk.inj hs |>.imp_right Prod.mk.inj
    refine ⟨.inr ⟨⟨h.flag, h.count, h.getInstance, h.createCompFunc⟩, inst, ?_⟩, by simp⟩
    simp

theorem Loaded.construct_first (h : c.Loaded) (hobject : ops.object.isSome)
    (hcomponent : ops.component.isSome)
    (hs : c.construct inst true ops = (c', calls, rc)) :
    c'.Inv ∧ ∀ call ∈ calls, call = true := by
  obtain ⟨hget, hcreate⟩ := h.through
  obtain ⟨obj, hobj⟩ := Option.isSome_iff_exists.mp hobject
  obtain ⟨p, hp⟩ := Option.isSome_iff_exists.mp hcomponent
  simp only [Component.construct, hobj, hp, hget, hcreate] at hs
  obtain ⟨rfl, rfl, -⟩ := Prod.mk.inj hs |>.imp_right Prod.mk.inj
  refine ⟨.inr ⟨⟨h.flag, h.count, h.getInstance, h.createCompFunc⟩, inst, ?_⟩, by simp⟩
  simp

/-- What must not fail once the library is loaded. -/
def Loads (c : Component) (ops : LoadOps) : Prop :=
  c.isOpen = false → ops.dlopen.isSome → ops.createComponentFns = true ∧
    ops.getInstanceFn = true ∧ ops.object.isSome ∧ ops.component.isSome

theorem Inv.getHandle (h : c.Inv) (hloads : c.Loads ops)
    (hs : c.getHandle ops = (c', calls, rc)) : c'.Inv ∧ ∀ call ∈ calls, call = true := by
  unfold Component.getHandle at hs
  split at hs
  · obtain ⟨rfl, rfl, -⟩ := Prod.mk.inj hs |>.imp_right Prod.mk.inj
    exact ⟨h, by simp⟩
  rcases h with h | ⟨h, hlive⟩
  · rw [if_neg (by simp [h.flag])] at hs
    split at hs
    · obtain ⟨rfl, rfl, -⟩ := Prod.mk.inj hs |>.imp_right Prod.mk.inj
      exact ⟨.inl ⟨h.flag, h.count, h.handle⟩, by simp⟩
    · rename_i lib hlib
      obtain ⟨hcreate, hget, hobject, hcomponent⟩ := hloads h.flag (by simp [hlib])
      have hloaded : (c.load lib ops).Loaded := by
        refine ⟨rfl, ?_, by simp [load, hget], by simp [load, hcreate]⟩
        simp [load, h.count]
      simp only [hloaded.createCompFunc, hloaded.getInstance, Option.isNone_some, Bool.or_self,
        Bool.false_eq_true, if_false] at hs
      exact hloaded.construct_first hobject hcomponent hs
  · rw [if_pos h.flag] at hs
    exact h.construct hs hlive

/-- The library goes with the last instance. -/
theorem Inv.freeHandle (h : c.Inv) (hinst : (c.handle inst).isSome) : (c.freeHandle inst).Inv := by
  rcases h with h | ⟨h, -⟩
  · rw [h.handle] at hinst
    cases hinst
  unfold Component.freeHandle
  dsimp only
  split_ifs with hactive
  · refine .inl ⟨rfl, h.count, ?_⟩
    intro i
    have hnone := hactive
    simp only [isCompActive, Bool.not_eq_true', List.any_eq_false, List.mem_finRange,
      forall_true_left] at hnone
    exact Option.not_isSome_iff_eq_none.mp (hnone i)
  · refine .inr ⟨⟨h.flag, h.count, h.getInstance, h.createCompFunc⟩, ?_⟩
    simp only [isCompActive, Bool.not_eq_true', Bool.not_eq_false, List.any_eq_true,
      List.mem_finRange, true_and] at hactive
    exact hactive

end Component

/-! ### Runs -/

namespace Core

/-- No call fails after it has loaded a library. -/
def Loads (s : Core) : OmxCall → Prop
  | .getHandle _ componentName ops => ∀ i, getCompFromList componentName = some i → (s i).Loads ops
  | .freeHandle _ _ => True

variable {s s' : Core} {call : OmxCall} {o : List LibCall}

theorem update_inv {i : Fin compCnt} {c : Component} (h : ∀ j, (s j).Inv) (hc : c.Inv) (j) :
    (Function.update s i c j).Inv := by
  by_cases hj : j = i
  · subst hj
    simpa using hc
  · simpa [hj] using h j

theorem getHandle_inv {handle : Bool} {name : Option String} {ops : LoadOps} (h : ∀ i, (s i).Inv)
    (hloads : ∀ i, getCompFromList name = some i → (s i).Loads ops) :
    (∀ i, ((s.getHandle handle name ops).1 i).Inv) ∧
      ∀ call ∈ (s.getHandle handle name ops).2.1, call.loaded = true := by
  unfold Core.getHandle
  split
  · exact ⟨h, by simp⟩
  split
  · exact ⟨h, by simp⟩
  rename_i i hi _
  obtain ⟨hinv, hcalls⟩ := (h i).getHandle (hloads i hi) rfl
  refine ⟨update_inv h hinv, ?_⟩
  intro call hcall
  obtain ⟨through, hmem, rfl⟩ := List.mem_map.mp hcall
  exact hcalls through hmem

theorem freeHandle_inv (h : ∀ i, (s i).Inv) (hComp : Option ℕ) (deInit : Bool) (i : Fin compCnt) :
    ((s.freeHandle hComp deInit).1 i).Inv := by
  unfold Core.freeHandle
  split
  · exact h i
  split
  · exact h i
  rename_i i inst hidx
  split
  · exact h _
  · refine update_inv h ((h i).freeHandle ?_) _
    have hfound := List.find?_some hidx
    rw [beq_iff_eq] at hfound
    rw [hfound]
    rfl

/-- **Every call that loads a library or does not fail keeps the state of the
libraries.** -/
theorem step_inv (h : ∀ i, (s i).Inv) (hloads : s.Loads call) (hs : s.step call = some (s', o)) :
    (∀ i, (s' i).Inv) ∧ ∀ call ∈ o, call.loaded = true := by
  cases call with
  | getHandle handle name ops =>
    cases hs
    exact getHandle_inv h hloads
  | freeHandle hComp deInit =>
    cases hs
    exact ⟨freeHandle_inv h hComp deInit, by simp⟩

/-- **The lifetime of the libraries.**  In every run in which no call fails after
it has loaded a library, after each call a library is loaded if and only if its
flag is set, and if and only if it has an instance; and the functions of a
library are called only while it is loaded. -/
theorem omx_library_lifetime {cs : List OmxCall} {os : List LibCall}
    (hrun : Runs Core.step Core.Loads .init cs os s) :
    (∀ i, (s i).Consistent) ∧ ∀ call ∈ os, call.loaded = true := by
  have hinv := hrun.inv (fun _ os s => (∀ i, (s i).Inv) ∧ ∀ call ∈ os, call.loaded = true)
    ⟨fun _ => .inl ⟨rfl, rfl, fun _ => rfl⟩, by simp⟩ (by
      rintro _ os s call s' o ⟨hinv, hcalls⟩ hloads hs
      obtain ⟨hinv', hnew⟩ := step_inv hinv hloads hs
      refine ⟨hinv', ?_⟩
      intro call hcall
      rcases List.mem_append.mp hcall with hcall | hcall
      · exact hcalls call hcall
      · exact hnew call hcall)
  exact ⟨fun i => (hinv.1 i).consistent, hinv.2⟩

def encoder : String := "OMX.qcom.image.jpeg.encoder"

/-- Everything is there; the component is at address 9. -/
def loadsAll : LoadOps := ⟨some 1, true, true, some 5, some 9⟩

/-- An instance is made and freed again. -/
theorem omx_library_lifetime_once : ∃ s, Runs Core.step Core.Loads .init
    [.getHandle true (some encoder) loadsAll, .freeHandle (some 9) true]
    [⟨0, true⟩, ⟨0, true⟩] s ∧ ∀ i, (s i).Consistent := by
  obtain ⟨s, hrun⟩ : ∃ s, Runs Core.step Core.Loads .init
      [.getHandle true (some encoder) loadsAll, .freeHandle (some 9) true]
      [⟨0, true⟩, ⟨0, true⟩] s :=
    exists_runs_of_outputs (by decide)
      ⟨fun _ _ _ _ => by decide, fun _ _ => ⟨trivial, fun _ _ => trivial⟩⟩
  exact ⟨s, hrun, (omx_library_lifetime hrun).1⟩

/-- The object cannot be made: the library is unloaded but its flag stays set,
and the next call goes through the library that is not loaded. -/
theorem omx_library_lost : ∃ s s',
    Runs Core.step (fun _ _ => True) .init
      [.getHandle true (some encoder) ⟨some 1, true, true, none, none⟩] [⟨0, true⟩] s ∧
    ¬ (s 0).Consistent ∧
    s.step (.getHandle true (some encoder) loadsAll) = some (s', [⟨0, false⟩, ⟨0, false⟩]) := by
  obtain ⟨s, s', hexec, hloaded, hopen, hcall⟩ : ∃ s s', exec Core.step .init
      [.getHandle true (some encoder) ⟨some 1, true, true, none, none⟩] =
        some (s, [⟨0, true⟩]) ∧
      (s 0).loaded = false ∧ (s 0).isOpen = true ∧
      s.step (.getHandle true (some encoder) loadsAll) = some (s', [⟨0, false⟩, ⟨0, false⟩]) :=
    ⟨_, _, rfl, rfl, rfl, rfl⟩
  refine ⟨s, s', runs_of_exec hexec, ?_, hcall⟩
  intro hcons
  rw [hcons.loaded_iff.mpr hopen] at hloaded
  cases hloaded

end Core

end Omx

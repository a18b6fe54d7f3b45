/-
The cameras, channels and streams of a process, and the handles they are found
by: `camera_open`, `mm_camera_intf_close`, `mm_camera_add_channel`,
`mm_camera_del_channel`, and streams by way of the channel's state machine.

Every handle is made from one counter of 16 bits.  As long as the counter has
not wrapped, a handle is never made twice: the live handles are distinct, and a
handle whose object was released is never found again (`stale_handle_refused`).
After 65535 handles the counter is back where it was (`stale_handle_honoured`).
-/
import HdxCommon.ChannelFsm

namespace Interface

open Superbuf (Attr)

/-! ### The objects of a process -/

structure ChannelSlot where
  myHdl : UInt32
  obj : ChannelObj
  deriving DecidableEq

/-- `mm_camera_obj_t`. -/
structure CameraObj where
  myHdl : UInt32
  refCount : ℤ
  ch : List ChannelSlot
  deriving DecidableEq

/-- The globals of `mm_camera_interface.c`: the counter for handles, and
`g_cam_ctrl`. -/
structure Process where
  historyCount : UInt16
  numCam : ℕ
  camObj : List (Option CameraObj)
  deriving DecidableEq

/-- `MM_CAMERA_CHANNEL_MAX`. -/
def cameraChannelMax : ℕ := 16

def ChannelSlot.memset : ChannelSlot :=
  ⟨0, { ChannelObj.init ⟨.burst, 0, 0, 0, 0⟩ false with state := .notUsed }⟩

namespace ChannelObj

/-- The ADD_STREAM event: only a stopped channel takes a stream. -/
def addStreamEvt (count : UInt16) (opened extMode : Bool) (c : ChannelObj) :
    UInt32 × UInt16 × ChannelObj :=
  match c.state with
  | .stopped => c.addStream count opened extMode
  | _ => (0, count, c)

def delStreamEvt (streamId : UInt32) (c : ChannelObj) : ℤ × ChannelObj :=
  match c.state with
  | .notUsed => (-1, c)
  | .stopped => c.delStream streamId
  | _ => (0, c)

end ChannelObj

namespace CameraObj

/-- `mm_camera_util_get_channel_by_handler`, with the index of the channel. -/
def getChannelByHandler (cam : CameraObj) (handler : UInt32) : Option (ℕ × ChannelSlot) := do
  let idx ← cam.ch.findIdx? fun ch => handler = ch.myHdl
  let ch ← cam.ch[idx]?
  return (idx, ch)

/-- `mm_camera_add_channel`: the first free channel is taken. -/
def addChannel (count : UInt16) (attr : Attr) (channelCb : Bool) (cam : CameraObj) :
    UInt32 × UInt16 × CameraObj :=
  match cam.ch.findIdx? fun ch => ch.obj.state = .notUsed with
  | none => (0, count, cam)
  | some idx =>
    let (count, hdl) := generateHandler count (UInt8.ofNat idx)
    (hdl, count, { cam with ch := cam.ch.set idx ⟨hdl, .init attr channelCb⟩ })

/-- `mm_camera_del_channel`: the channel object is cleared whatever its state
machine makes of the DELETE event. -/
def delChannel (chId : UInt32) (cam : CameraObj) : ℤ × CameraObj :=
  match cam.getChannelByHandler chId with
  | none => (-1, cam)
  | some (idx, ch) =>
    (if ch.obj.state = .notUsed then -1 else 0, { cam with ch := cam.ch.set idx .memset })

/-- `mm_camera_add_stream`. -/
def addStream (count : UInt16) (chId : UInt32) (opened extMode : Bool) (cam : CameraObj) :
    UInt32 × UInt16 × CameraObj :=
  match cam.getChannelByHandler chId with
  | none => (0, count, cam)
  | some (idx, ch) =>
    let (hdl, count, c) := ch.obj.addStreamEvt count opened extMode
    (hdl, count, { cam with ch := cam.ch.set idx { ch with obj := c } })

/-- `mm_camera_del_stream`. -/
def delStream (chId streamId : UInt32) (cam : CameraObj) : ℤ × CameraObj :=
  match cam.getChannelByHandler chId with
  | none => (-1, cam)
  | some (idx, ch) =>
    let (rc, c) := ch.obj.delStreamEvt streamId
    (rc, { cam with ch := cam.ch.set idx { ch with obj := c } })

end CameraObj

namespace Process

def init (numCam maxNumSensors : ℕ) : Process := ⟨0, numCam, List.replicate maxNumSensors none⟩

/-- `mm_camera_util_get_camera_by_handler`, with the index of the camera. -/
def getCameraByHandler (p : Process) (camHandle : UInt32) : Option (ℕ × CameraObj) :=
  match p.camObj[(getIndexByHandler camHandle).toNat]? with
  | some (some cam) =>
    if camHandle = cam.myHdl then some ((getIndexByHandler camHandle).toNat, cam) else none
  | _ => none

/-- `camera_open`, with the outcomes of the allocation and of
`mm_camera_open`; returns the handle of the camera, 0 if there is none. -/
def cameraOpen (cameraIdx : UInt8) (mem opened : Bool) (p : Process) : UInt32 × Process :=
  if cameraIdx.toNat ≥ p.numCam then (0, p)
  else
    match p.camObj[cameraIdx.toNat]? with
    | some (some cam) =>
      (cam.myHdl, { p with
        camObj := p.camObj.set cameraIdx.toNat (some { cam with refCount := cam.refCount + 1 }) })
    | _ =>
      if mem then
        let (count, hdl) := generateHandler p.historyCount cameraIdx
        if opened then
          (hdl, { p with
            historyCount := count
            camObj := p.camObj.set cameraIdx.toNat
              (some ⟨hdl, 1, List.replicate cameraChannelMax .memset⟩) })
        else
          (0, { p with
            historyCount := count
            camObj := p.camObj.set cameraIdx.toNat none })
      else (0, p)

/-- `mm_camera_intf_close`, with the return code of `mm_camera_close`. -/
def close (camHandle : UInt32) (closeRc : ℤ) (p : Process) : ℤ × Process :=
  match p.getCameraByHandler camHandle with
  | none => (-1, p)
  | some (idx, cam) =>
    if cam.refCount - 1 > 0 then
      (0, { p with camObj := p.camObj.set idx (some { cam with refCount := cam.refCount - 1 }) })
    else (closeRc, { p with camObj := p.camObj.set idx none })

/-- A call on a camera: it is looked up by its handle, and may take handles. -/
def onCamera (camHandle : UInt32) (f : UInt16 → CameraObj → UInt32 × UInt16 × CameraObj)
    (p : Process) : UInt32 × Process :=
  match p.getCameraByHandler camHandle with
  | none => (0, p)
  | some (idx, cam) =>
    let (hdl, count, cam) := f p.historyCount cam
    (hdl, { p with historyCount := count, camObj := p.camObj.set idx (some cam) })

end Process

inductive Call where
  | cameraOpen (cameraIdx : UInt8) (mem opened : Bool)
  | close (camHandle : UInt32) (closeRc : ℤ)
  | addChannel (camHandle : UInt32) (attr : Attr) (channelCb : Bool)
  | delChannel (camHandle chId : UInt32)
  | addStream (camHandle chId : UInt32) (opened extMode : Bool)
  | delStream (camHandle chId streamId : UInt32)
  /-- any other call or thread changes a channel, but none of its handles -/
  | other (camHandle chId : UInt32) (c : ChannelObj)
  deriving DecidableEq

/-- A channel object after a call that makes and releases nothing. -/
def KeepsHandles (c c' : ChannelObj) : Prop :=
  c'.streams.map StreamObj.ident = c.streams.map StreamObj.ident ∧
    (c'.state = .notUsed ↔ c.state = .notUsed)

instance (c c' : ChannelObj) : Decidable (KeepsHandles c c') := inferInstanceAs (Decidable (_ ∧ _))

namespace CameraObj

def replaceChannel (chId : UInt32) (c : ChannelObj) (cam : CameraObj) : CameraObj :=
  match cam.getChannelByHandler chId with
  | none => cam
  | some (idx, ch) =>
    if KeepsHandles ch.obj c then { cam with ch := cam.ch.set idx { ch with obj := c } } else cam

end CameraObj

namespace Process

def call (p : Process) : Call → UInt32 × Process
  | .cameraOpen cameraIdx mem opened => p.cameraOpen cameraIdx mem opened
  | .close camHandle closeRc => (0, (p.close camHandle closeRc).2)
  | .addChannel camHandle attr channelCb =>
    p.onCamera camHandle fun count cam => cam.addChannel count attr channelCb
  | .delChannel camHandle chId =>
    p.onCamera camHandle fun count cam => (0, count, (cam.delChannel chId).2)
  | .addStream camHandle chId opened extMode =>
    p.onCamera camHandle fun count cam => cam.addStream count chId opened extMode
  | .delStream camHandle chId streamId =>
    p.onCamera camHandle fun count cam => (0, count, (cam.delStream chId streamId).2)
  | .other camHandle chId c =>
    p.onCamera camHandle fun count cam => (0, count, cam.replaceChannel chId c)

/-- A call, with the handle it returned. -/
def step (p : Process) (c : Call) : Option (Process × List UInt32) :=
  some ((p.call c).2, if (p.call c).1 = 0 then [] else [(p.call c).1])

end Process

/-! ### Live handles -/

def ChannelObj.live (c : ChannelObj) : List UInt32 :=
  c.streams.flatMap fun s => if s.state = .notUsed then [] else [s.myHdl]

def ChannelSlot.live (ch : ChannelSlot) : List UInt32 :=
  if ch.obj.state = .notUsed then [] else ch.myHdl :: ch.obj.live

def CameraObj.live (cam : CameraObj) : List UInt32 := cam.myHdl :: cam.ch.flatMap ChannelSlot.live

/-- The handles of all cameras, channels and streams of the process. -/
def Process.live (p : Process) : List UInt32 :=
  p.camObj.flatMap fun cam => cam.elim [] CameraObj.live

/-- One of the lookups finds an object by the handle. -/
def Process.Resolves (p : Process) (handler : UInt32) : Prop :=
  (p.getCameraByHandler handler).isSome ∨ ∃ cam, some cam ∈ p.camObj ∧
    ((cam.getChannelByHandler handler).isSome ∨ ∃ ch ∈ cam.ch, (ch.obj.getStream handler).isSome)

/-- What a call does to the counter and the live handles: it makes no handle and
may release some, its handle is wasted, or its handle is live from now on. -/
inductive LiveStep (makes : Prop) (count : UInt16) (live : List UInt32) :
    UInt32 → UInt16 → List UInt32 → Prop
  | keeps {hdl : UInt32} {live' : List UInt32} (hhdl : hdl = 0 ∨ hdl ∈ live)
      (hsub : live'.Sublist live) : LiveStep makes count live hdl count live'
  | wastes {index : UInt8} {live' : List UInt32} (hmakes : makes) (hsub : live'.Sublist live) :
      LiveStep makes count live 0 (generateHandler count index).1 live'
  | adds {index : UInt8} {live' : List UInt32} (hmakes : makes)
      (hperm : live'.Perm ((generateHandler count index).2 :: live)) :
      LiveStep makes count live (generateHandler count index).2 (generateHandler count index).1
        live'

section LiveStep

variable {makes : Prop} {count count' : UInt16} {hdl x : UInt32} {live live' : List UInt32}

theorem LiveStep.refl (makes : Prop) (count : UInt16) (live : List UInt32) :
    LiveStep makes count live 0 count live :=
  .keeps (.inl rfl) (.refl live)

theorem LiveStep.cons (h : LiveStep makes count live hdl count' live') :
    LiveStep makes count (x :: live) hdl count' (x :: live') := by
  cases h with
  | keeps hhdl hsub => exact .keeps (hhdl.imp_right (List.mem_cons_of_mem x)) (hsub.cons_cons x)
  | wastes hmakes hsub => exact .wastes hmakes (hsub.cons_cons x)
  | adds hmakes hperm => exact .adds hmakes ((hperm.cons x).trans (.swap _ _ _))

theorem LiveStep.flatMap_set {α : Type*} {f : α → List UInt32} {l : List α} {i : ℕ} {a b : α}
    (ha : l[i]? = some a) (h : LiveStep makes count (f a) hdl count' (f b)) :
    LiveStep makes count (l.flatMap f) hdl count' ((l.set i b).flatMap f) := by
  obtain ⟨hi, rfl⟩ := List.getElem?_eq_some_iff.mp ha
  have hl : l.flatMap f = (l.take i).flatMap f ++ (f l[i] ++ (l.drop (i + 1)).flatMap f) := by
    nth_rewrite 1 [← List.take_append_drop i l]
    rw [List.flatMap_append, List.drop_eq_getElem_cons hi, List.flatMap_cons]
  have hset : (l.set i b).flatMap f =
      (l.take i).flatMap f ++ (f b ++ (l.drop (i + 1)).flatMap f) := by
    rw [List.set_eq_take_cons_drop b hi, List.flatMap_append, List.flatMap_cons]
  rw [hl, hset]
  generalize f l[i] = fa at h
  generalize f b = fb at h
  cases h with
  | keeps hhdl hsub =>
    refine .keeps ?_ ((List.Sublist.refl _).append (hsub.append (.refl _)))
    exact hhdl.imp_right fun hmem => by simp [hmem]
  | wastes hmakes hsub =>
    exact .wastes hmakes ((List.Sublist.refl _).append (hsub.append (.refl _)))
  | adds hmakes hperm =>
    exact .adds hmakes (((hperm.append_right _).append_left _).trans List.perm_middle)

theorem LiveStep.of_nil {α : Type*} {f : α → List UInt32} {l : List α} {i : ℕ} {a b : α}
    {index : UInt8} (ha : l[i]? = some a) (hmakes : makes) (hfree : f a = [])
    (hb : f b = [(generateHandler count index).2]) :
    LiveStep makes count (l.flatMap f) (generateHandler count index).2
      (generateHandler count index).1 ((l.set i b).flatMap f) := by
  refine LiveStep.flatMap_set ha ?_
  rw [hfree, hb]
  exact .adds hmakes (.refl _)

end LiveStep

section Calls

variable {makes : Prop} {count : UInt16} {c c' : ChannelObj} {cam : CameraObj} {p : Process}

theorem add_eq (hdl : UInt32) (opened extMode : Bool) (s : StreamObj) :
    s.add hdl opened extMode =
      if opened && extMode then (hdl, { s.memset with myHdl := hdl, state := .acquired })
      else (0, s.memset) := by
  cases hok : opened && extMode with
  | true => simp [StreamObj.add, StreamObj.acquire, hok]
  | false => simp [StreamObj.add, StreamObj.acquire, StreamObj.memset, hok]

theorem addStream_liveStep (hmakes : makes) (count : UInt16) (opened extMode : Bool)
    (c : ChannelObj) :
    LiveStep makes count c.live (c.addStream count opened extMode).1
      (c.addStream count opened extMode).2.1 (c.addStream count opened extMode).2.2.live := by
  unfold ChannelObj.addStream
  cases hfind : c.streams.findIdx? fun s => s.state = .notUsed with
  | none => exact .refl makes count c.live
  | some idx =>
    obtain ⟨hlt, hfree, -⟩ := List.findIdx?_eq_some_iff_getElem.mp hfind
    have hfree : c.streams[idx].state = .notUsed := by simpa using hfree
    have hget : c.streams[idx]? = some c.streams[idx] := List.getElem?_eq_getElem hlt
    simp only [hget, Option.elim_some, ChannelObj.live, add_eq, List.modify_eq_set_getElem?]
    cases opened && extMode with
    | true => exact .of_nil hget hmakes (if_pos hfree) (by simp)
    | false =>
      refine LiveStep.flatMap_set hget ?_
      rw [if_pos hfree]
      exact .wastes hmakes (.refl [])

theorem addStream_state (count : UInt16) (opened extMode : Bool) (c : ChannelObj) :
    (c.addStream count opened extMode).2.2.state = c.state := by
  unfold ChannelObj.addStream
  split <;> rfl

theorem delStream_state (streamId : UInt32) (c : ChannelObj) :
    (c.delStream streamId).2.state = c.state := by
  unfold ChannelObj.delStream
  split <;> rfl

theorem delStream_live (streamId : UInt32) (c : ChannelObj) :
    ((c.delStream streamId).2.live).Sublist c.live := by
  unfold ChannelObj.delStream
  cases c.getStream streamId with
  | none => exact .refl c.live
  | some s =>
    simp only [ChannelObj.live, ChannelObj.modifyStream, List.flatMap_map]
    generalize c.streams = l
    induction l with
    | nil => exact .slnil
    | cons t l ih =>
      simp only [List.flatMap_cons]
      refine List.Sublist.append ?_ ih
      by_cases ht : t.myHdl = streamId
      · rw [if_pos ht]
        unfold StreamObj.release
        cases hst : t.state <;> simp [hst, StreamObj.memset]
      · rw [if_neg ht]

theorem ChannelSlot.live_liveStep {ch : ChannelSlot} {hdl : UInt32} {count' : UInt16}
    (hst : c'.state = ch.obj.state)
    (h : LiveStep makes count ch.obj.live hdl count' c'.live)
    (hfree : ch.obj.state = .notUsed → hdl = 0 ∧ count' = count) :
    LiveStep makes count ch.live hdl count' (ChannelSlot.live { ch with obj := c' }) := by
  unfold ChannelSlot.live
  simp only [hst]
  by_cases hused : ch.obj.state = .notUsed
  · obtain ⟨rfl, rfl⟩ := hfree hused
    rw [if_pos hused, if_pos hused]
    exact .refl makes count' []
  · rw [if_neg hused, if_neg hused]
    exact h.cons

theorem addStreamEvt_liveStep (hmakes : makes) (count : UInt16) (opened extMode : Bool)
    (ch : ChannelSlot) :
    LiveStep makes count ch.live (ch.obj.addStreamEvt count opened extMode).1
      (ch.obj.addStreamEvt count opened extMode).2.1
      (ChannelSlot.live { ch with obj := (ch.obj.addStreamEvt count opened extMode).2.2 }) := by
  unfold ChannelObj.addStreamEvt
  cases hst : ch.obj.state with
  | stopped =>
    refine ChannelSlot.live_liveStep (addStream_state _ _ _ _)
      (addStream_liveStep hmakes count opened extMode ch.obj) ?_
    intro hfree
    rw [hst] at hfree
    cases hfree
  | _ => exact .refl makes count ch.live

theorem delStreamEvt_liveStep (makes : Prop) (count : UInt16) (streamId : UInt32)
    (ch : ChannelSlot) :
    LiveStep makes count ch.live 0 count
      (ChannelSlot.live { ch with obj := (ch.obj.delStreamEvt streamId).2 }) := by
  unfold ChannelObj.delStreamEvt
  cases hst : ch.obj.state with
  | stopped =>
    exact ChannelSlot.live_liveStep (delStream_state _ _)
      (.keeps (.inl rfl) (delStream_live streamId ch.obj)) fun _ => ⟨rfl, rfl⟩
  | _ => exact .refl makes count ch.live

theorem KeepsHandles.live {ch : ChannelSlot} (h : KeepsHandles ch.obj c) :
    ChannelSlot.live { ch with obj := c } = ch.live := by
  obtain ⟨hids, hst⟩ := h
  have hlive : ∀ l : List StreamObj, (l.flatMap fun s => if s.state = .notUsed then [] else
      [s.myHdl]) = (l.map StreamObj.ident).flatMap fun id => if id.2 then [id.1] else [] := by
    intro l
    rw [List.flatMap_map]
    refine List.flatMap_congr ?_
    intro s _
    by_cases hs : s.state = .notUsed <;> simp [StreamObj.ident, hs]
  simp only [ChannelSlot.live, ChannelObj.live, hst, hlive, hids]

theorem getChannelByHandler_spec {handler : UInt32} {idx : ℕ} {ch : ChannelSlot}
    (h : cam.getChannelByHandler handler = some (idx, ch)) :
    cam.ch[idx]? = some ch ∧ ch.myHdl = handler := by
  simp only [CameraObj.getChannelByHandler, Option.bind_eq_bind, Option.bind_eq_some_iff,
    Option.pure_def, Option.some.injEq, Prod.mk.injEq] at h
  obtain ⟨i, hfind, ch', hget, rfl, rfl⟩ := h
  obtain ⟨hlt, heq, -⟩ := List.findIdx?_eq_some_iff_getElem.mp hfind
  rw [List.getElem?_eq_getElem hlt, Option.some.injEq] at hget
  have heq : handler = ch'.myHdl := by simpa [hget] using heq
  exact ⟨by rw [List.getElem?_eq_getElem hlt, hget], heq.symm⟩

theorem getCameraByHandler_spec {handler : UInt32} {idx : ℕ}
    (h : p.getCameraByHandler handler = some (idx, cam)) :
    p.camObj[idx]? = some (some cam) ∧ cam.myHdl = handler := by
  unfold Process.getCameraByHandler at h
  split at h
  · rename_i cam' hget
    split at h
    · rename_i heq
      cases h
      exact ⟨hget, heq.symm⟩
    · cases h
  · cases h

theorem addChannel_liveStep (hmakes : makes) (attr : Attr) (channelCb : Bool) (count : UInt16)
    (cam : CameraObj) :
    LiveStep makes count cam.live (cam.addChannel count attr channelCb).1
      (cam.addChannel count attr channelCb).2.1 (cam.addChannel count attr channelCb).2.2.live := by
  unfold CameraObj.addChannel
  cases hfind : cam.ch.findIdx? fun ch => ch.obj.state = .notUsed with
  | none => exact .refl makes count cam.live
  | some idx =>
    obtain ⟨hlt, hfree, -⟩ := List.findIdx?_eq_some_iff_getElem.mp hfind
    have hfree : cam.ch[idx].obj.state = .notUsed := by simpa using hfree
    have hinit : (ChannelObj.init attr channelCb).live = [] := rfl
    refine LiveStep.cons (.of_nil (List.getElem?_eq_getElem hlt) hmakes (if_pos hfree) ?_)
    rw [ChannelSlot.live, if_neg (by simp [ChannelObj.init]), hinit]

theorem delChannel_liveStep (makes : Prop) (chId : UInt32) (count : UInt16) (cam : CameraObj) :
    LiveStep makes count cam.live 0 count (cam.delChannel chId).2.live := by
  unfold CameraObj.delChannel
  cases hget : cam.getChannelByHandler chId with
  | none => exact .refl makes count cam.live
  | some found =>
    have hfree : ChannelSlot.live .memset = [] := rfl
    refine LiveStep.cons (LiveStep.flatMap_set (getChannelByHandler_spec hget).1 ?_)
    rw [hfree]
    exact .keeps (.inl rfl) (List.nil_sublist _)

theorem cameraAddStream_liveStep (hmakes : makes) (chId : UInt32) (opened extMode : Bool)
    (count : UInt16) (cam : CameraObj) :
    LiveStep makes count cam.live (cam.addStream count chId opened extMode).1
      (cam.addStream count chId opened extMode).2.1
      (cam.addStream count chId opened extMode).2.2.live := by
  unfold CameraObj.addStream
  cases hget : cam.getChannelByHandler chId with
  | none => exact .refl makes count cam.live
  | some found =>
    exact LiveStep.cons (LiveStep.flatMap_set (getChannelByHandler_spec hget).1
      (addStreamEvt_liveStep hmakes count opened extMode found.2))

theorem cameraDelStream_liveStep (makes : Prop) (chId streamId : UInt32) (count : UInt16)
    (cam : CameraObj) :
    LiveStep makes count cam.live 0 count (cam.delStream chId streamId).2.live := by
  unfold CameraObj.delStream
  cases hget : cam.getChannelByHandler chId with
  | none => exact .refl makes count cam.live
  | some found =>
    exact LiveStep.cons (LiveStep.flatMap_set (getChannelByHandler_spec hget).1
      (delStreamEvt_liveStep makes count streamId found.2))

theorem replaceChannel_liveStep (makes : Prop) (chId : UInt32) (c : ChannelObj) (count : UInt16)
    (cam : CameraObj) :
    LiveStep makes count cam.live 0 count (cam.replaceChannel chId c).live := by
  unfold CameraObj.replaceChannel
  cases hget : cam.getChannelByHandler chId with
  | none => exact .refl makes count cam.live
  | some found =>
    simp only
    split
    · rename_i hkeeps
      refine LiveStep.cons (LiveStep.flatMap_set (getChannelByHandler_spec hget).1 ?_)
      rw [hkeeps.live]
      exact .refl makes count _
    · exact .refl makes count cam.live

theorem onCamera_liveStep {f : UInt16 → CameraObj → UInt32 × UInt16 × CameraObj}
    (hf : ∀ count cam, LiveStep makes count cam.live (f count cam).1 (f count cam).2.1
      (f count cam).2.2.live) (camHandle : UInt32) (p : Process) :
    LiveStep makes p.historyCount p.live (p.onCamera camHandle f).1
      (p.onCamera camHandle f).2.historyCount (p.onCamera camHandle f).2.live := by
  unfold Process.onCamera
  cases hget : p.getCameraByHandler camHandle with
  | none => exact .refl makes p.historyCount p.live
  | some found =>
    exact LiveStep.flatMap_set (getCameraByHandler_spec hget).1 (hf p.historyCount found.2)

theorem close_liveStep (makes : Prop) (camHandle : UInt32) (closeRc : ℤ) (p : Process) :
    LiveStep makes p.historyCount p.live 0 (p.close camHandle closeRc).2.historyCount
      (p.close camHandle closeRc).2.live := by
  unfold Process.close
  cases hget : p.getCameraByHandler camHandle with
  | none => exact .refl makes p.historyCount p.live
  | some found =>
    have hcam := (getCameraByHandler_spec hget).1
    simp only
    split
    · exact LiveStep.flatMap_set hcam (.refl makes p.historyCount _)
    · exact LiveStep.flatMap_set hcam (.keeps (.inl rfl) (List.nil_sublist _))

theorem cameraOpen_liveStep (hmakes : makes) (cameraIdx : UInt8) (mem opened : Bool)
    (hnum : p.numCam ≤ p.camObj.length) :
    LiveStep makes p.historyCount p.live (p.cameraOpen cameraIdx mem opened).1
      (p.cameraOpen cameraIdx mem opened).2.historyCount
      (p.cameraOpen cameraIdx mem opened).2.live := by
  unfold Process.cameraOpen
  split
  · exact .refl makes p.historyCount p.live
  rename_i hidx
  have hlt : cameraIdx.toNat < p.camObj.length := by omega
  have hget := List.getElem?_eq_getElem hlt
  rw [hget]
  cases hcam : p.camObj[cameraIdx.toNat] with
  | some cam =>
    rw [hcam] at hget
    exact LiveStep.flatMap_set hget (.keeps (.inr List.mem_cons_self) (.refl _))
  | none =>
    rw [hcam] at hget
    cases mem with
    | false => exact .refl makes p.historyCount p.live
    | true =>
      cases opened with
      | true =>
        have hfree : (List.replicate cameraChannelMax ChannelSlot.memset).flatMap
            ChannelSlot.live = [] := rfl
        exact .of_nil hget hmakes rfl (congrArg (_ :: ·) hfree)
      | false =>
        exact LiveStep.flatMap_set hget
          (@LiveStep.wastes makes p.historyCount _ cameraIdx _ hmakes (.refl _))

/-- A call takes a handle from the counter. -/
def Call.Makes : Call → Prop
  | .cameraOpen .. | .addChannel .. | .addStream .. => True
  | _ => False

instance : DecidablePred Call.Makes := by
  intro c
  unfold Call.Makes
  split <;> infer_instance

/-- **What a call does to the live handles.** -/
theorem call_liveStep (hnum : p.numCam ≤ p.camObj.length) (c : Call) :
    LiveStep c.Makes p.historyCount p.live (p.call c).1 (p.call c).2.historyCount
      (p.call c).2.live := by
  cases c with
  | cameraOpen cameraIdx mem opened => exact cameraOpen_liveStep trivial cameraIdx mem opened hnum
  | close camHandle closeRc => exact close_liveStep _ camHandle closeRc p
  | addChannel camHandle attr channelCb =>
    exact onCamera_liveStep (addChannel_liveStep trivial attr channelCb) camHandle p
  | delChannel camHandle chId => exact onCamera_liveStep (delChannel_liveStep _ chId) camHandle p
  | addStream camHandle chId opened extMode =>
    exact onCamera_liveStep (cameraAddStream_liveStep trivial chId opened extMode) camHandle p
  | delStream camHandle chId streamId =>
    exact onCamera_liveStep (cameraDelStream_liveStep _ chId streamId) camHandle p
  | other camHandle chId c => exact onCamera_liveStep (replaceChannel_liveStep _ chId c) camHandle p

end Calls

/-! ### What the lookups find -/

/-- A free channel has no handle and no streams. -/
def ChannelSlot.Wf (ch : ChannelSlot) : Prop :=
  ch.obj.state = .notUsed → ch.myHdl = 0 ∧ ∀ s ∈ ch.obj.streams, s.state = .notUsed

def CameraObj.Wf (cam : CameraObj) : Prop := ∀ ch ∈ cam.ch, ch.Wf

structure Process.Wf (p : Process) : Prop where
  numCam : p.numCam ≤ p.camObj.length
  cameras : ∀ cam, some cam ∈ p.camObj → cam.Wf

section Wf

variable {cam : CameraObj} {p : Process} {ch : ChannelSlot}

theorem CameraObj.Wf.set (h : cam.Wf) (hch : ch.Wf) (idx : ℕ) :
    CameraObj.Wf { cam with ch := cam.ch.set idx ch } := by
  intro ch' hmem
  rcases List.mem_or_eq_of_mem_set hmem with hmem | rfl
  · exact h ch' hmem
  · exact hch

theorem Process.Wf.set (h : p.Wf) {o : Option CameraObj} (ho : ∀ cam, o = some cam → cam.Wf)
    (idx : ℕ) (count : UInt16) :
    Process.Wf { p with historyCount := count, camObj := p.camObj.set idx o } := by
  refine ⟨h.numCam.trans_eq (List.length_set).symm, ?_⟩
  intro cam hmem
  rcases List.mem_or_eq_of_mem_set hmem with hmem | heq
  · exact h.cameras cam hmem
  · exact ho cam heq.symm

theorem ChannelSlot.wf_memset : ChannelSlot.memset.Wf := by
  intro _
  refine ⟨rfl, ?_⟩
  intro s hs
  rw [List.eq_of_mem_replicate hs]
  rfl

theorem ChannelSlot.Wf.congr {c : ChannelObj} (h : ch.Wf) (hst : c.state = ch.obj.state)
    (hfree : ch.obj.state = .notUsed → c = ch.obj) : ChannelSlot.Wf { ch with obj := c } := by
  intro hused
  have hch : ch.obj.state = .notUsed := hst.symm.trans hused
  obtain rfl := hfree hch
  exact h hch

theorem wf_addStreamEvt (h : ch.Wf) (count : UInt16) (opened extMode : Bool) :
    ChannelSlot.Wf { ch with obj := (ch.obj.addStreamEvt count opened extMode).2.2 } := by
  refine h.congr ?_ ?_
  · unfold ChannelObj.addStreamEvt
    split
    · exact addStream_state _ _ _ _
    · rfl
  · intro hfree
    simp [ChannelObj.addStreamEvt, hfree]

theorem wf_delStreamEvt (h : ch.Wf) (streamId : UInt32) :
    ChannelSlot.Wf { ch with obj := (ch.obj.delStreamEvt streamId).2 } := by
  refine h.congr ?_ ?_
  · unfold ChannelObj.delStreamEvt
    split
    · rfl
    · exact delStream_state _ _
    · rfl
  · intro hfree
    simp [ChannelObj.delStreamEvt, hfree]

theorem KeepsHandles.wf {c : ChannelObj} (h : ch.Wf) (hkeeps : KeepsHandles ch.obj c) :
    ChannelSlot.Wf { ch with obj := c } := by
  obtain ⟨hids, hst⟩ := hkeeps
  intro hfree
  obtain ⟨hhdl, hstreams⟩ := h (hst.mp hfree)
  refine ⟨hhdl, ?_⟩
  intro s hs
  have hmem : s.ident ∈ c.streams.map StreamObj.ident := List.mem_map_of_mem hs
  rw [hids] at hmem
  obtain ⟨t, ht, heq⟩ := List.mem_map.mp hmem
  exact (StreamObj.ident_eq_iff.mp heq).2.mp (hstreams t ht)

theorem onCamera_wf {f : UInt16 → CameraObj → UInt32 × UInt16 × CameraObj}
    (hf : ∀ count cam, CameraObj.Wf cam → (f count cam).2.2.Wf) (camHandle : UInt32)
    (h : p.Wf) : (p.onCamera camHandle f).2.Wf := by
  unfold Process.onCamera
  cases hget : p.getCameraByHandler camHandle with
  | none => exact h
  | some found =>
    have hcam := h.cameras found.2 (List.mem_of_getElem? (getCameraByHandler_spec hget).1)
    refine h.set ?_ _ _
    rintro cam ⟨⟩
    exact hf p.historyCount found.2 hcam

theorem CameraObj.Wf.of_get (h : cam.Wf) {chId : UInt32} {found : ℕ × ChannelSlot}
    (hget : cam.getChannelByHandler chId = some found) : found.2.Wf :=
  h found.2 (List.mem_of_getElem? (getChannelByHandler_spec hget).1)

theorem wf_addChannel (h : cam.Wf) (count : UInt16) (attr : Attr) (channelCb : Bool) :
    (cam.addChannel count attr channelCb).2.2.Wf := by
  unfold CameraObj.addChannel
  split
  · exact h
  · refine h.set ?_ _
    intro hfree
    cases hfree

theorem wf_delChannel (h : cam.Wf) (chId : UInt32) : (cam.delChannel chId).2.Wf := by
  unfold CameraObj.delChannel
  split
  · exact h
  · exact h.set ChannelSlot.wf_memset _

theorem wf_addStream (h : cam.Wf) (count : UInt16) (chId : UInt32) (opened extMode : Bool) :
    (cam.addStream count chId opened extMode).2.2.Wf := by
  unfold CameraObj.addStream
  cases hget : cam.getChannelByHandler chId with
  | none => exact h
  | some found => exact h.set (wf_addStreamEvt (h.of_get hget) count opened extMode) _

theorem wf_delStream (h : cam.Wf) (chId streamId : UInt32) :
    (cam.delStream chId streamId).2.Wf := by
  unfold CameraObj.delStream
  cases hget : cam.getChannelByHandler chId with
  | none => exact h
  | some found => exact h.set (wf_delStreamEvt (h.of_get hget) streamId) _

theorem wf_replaceChannel (h : cam.Wf) (chId : UInt32) (c : ChannelObj) :
    (cam.replaceChannel chId c).Wf := by
  unfold CameraObj.replaceChannel
  cases hget : cam.getChannelByHandler chId with
  | none => exact h
  | some found =>
    simp only
    split
    · rename_i hkeeps
      exact h.set (hkeeps.wf (h.of_get hget)) _
    · exact h

theorem wf_close (h : p.Wf) (camHandle : UInt32) (closeRc : ℤ) :
    (p.close camHandle closeRc).2.Wf := by
  unfold Process.close
  cases hget : p.getCameraByHandler camHandle with
  | none => exact h
  | some found =>
    simp only
    split
    · refine h.set ?_ _ _
      rintro cam ⟨⟩
      exact h.cameras found.2 (List.mem_of_getElem? (getCameraByHandler_spec hget).1)
    · refine h.set ?_ _ _
      rintro cam ⟨⟩

theorem wf_cameraOpen (h : p.Wf) (cameraIdx : UInt8) (mem opened : Bool) :
    (p.cameraOpen cameraIdx mem opened).2.Wf := by
  unfold Process.cameraOpen
  split
  · exact h
  split
  · rename_i cam hget
    refine h.set ?_ _ _
    rintro cam' ⟨⟩
    exact h.cameras cam (List.mem_of_getElem? hget)
  · split
    · simp only
      split
      · refine h.set ?_ _ _
        rintro cam ⟨⟩ ch hch
        rw [List.eq_of_mem_replicate hch]
        exact ChannelSlot.wf_memset
      · refine h.set ?_ _ _
        rintro cam ⟨⟩
    · exact h

theorem Process.Wf.call (h : p.Wf) (c : Call) : (p.call c).2.Wf := by
  cases c with
  | cameraOpen cameraIdx mem opened => exact wf_cameraOpen h cameraIdx mem opened
  | close camHandle closeRc => exact wf_close h camHandle closeRc
  | addChannel camHandle attr channelCb =>
    exact onCamera_wf (fun count _ hcam => wf_addChannel hcam count attr channelCb) camHandle h
  | delChannel camHandle chId =>
    exact onCamera_wf (fun _ _ hcam => wf_delChannel hcam chId) camHandle h
  | addStream camHandle chId opened extMode =>
    exact onCamera_wf (fun count _ hcam => wf_addStream hcam count chId opened extMode) camHandle h
  | delStream camHandle chId streamId =>
    exact onCamera_wf (fun _ _ hcam => wf_delStream hcam chId streamId) camHandle h
  | other camHandle chId c =>
    exact onCamera_wf (fun _ _ hcam => wf_replaceChannel hcam chId c) camHandle h

theorem Process.Wf.mem_live_of_resolves (h : p.Wf) {hdl : UInt32} (hne : hdl ≠ 0)
    (hres : p.Resolves hdl) : hdl ∈ p.live := by
  have hcamera : ∀ cam, some cam ∈ p.camObj → hdl ∈ cam.live → hdl ∈ p.live :=
    fun cam hcam hmem => List.mem_flatMap.mpr ⟨some cam, hcam, hmem⟩
  have hchannel : ∀ cam, some cam ∈ p.camObj → ∀ ch ∈ cam.ch, hdl ∈ ch.live → hdl ∈ p.live :=
    fun cam hcam ch hch hmem =>
      hcamera cam hcam (List.mem_cons_of_mem _ (List.mem_flatMap.mpr ⟨ch, hch, hmem⟩))
  rcases hres with hcam | ⟨cam, hcam, hch | ⟨ch, hch, hs⟩⟩
  · obtain ⟨⟨idx, cam⟩, hget⟩ := Option.isSome_iff_exists.mp hcam
    obtain ⟨hmem, rfl⟩ := getCameraByHandler_spec hget
    exact hcamera cam (List.mem_of_getElem? hmem) List.mem_cons_self
  · obtain ⟨⟨idx, ch⟩, hget⟩ := Option.isSome_iff_exists.mp hch
    obtain ⟨hmem, rfl⟩ := getChannelByHandler_spec hget
    have hch := List.mem_of_getElem? hmem
    refine hchannel cam hcam ch hch ?_
    rw [ChannelSlot.live, if_neg fun hfree => hne (h.cameras cam hcam ch hch hfree).1]
    exact List.mem_cons_self
  · obtain ⟨s, hget⟩ := Option.isSome_iff_exists.mp hs
    have hused := List.find?_some hget
    simp only [Bool.and_eq_true, decide_eq_true_eq, beq_iff_eq] at hused
    have hmem := List.mem_of_find?_eq_some hget
    refine hchannel cam hcam ch hch ?_
    rw [ChannelSlot.live, if_neg fun hfree =>
      hused.1 ((h.cameras cam hcam ch hch hfree).2 s hmem)]
    refine List.mem_cons_of_mem _ (List.mem_flatMap.mpr ⟨s, hmem, ?_⟩)
    rw [if_neg hused.1, hused.2]
    exact List.mem_singleton_self _

end Wf

/-! ### Runs -/

/-- A handle is made only while the counter has not reached its last value. -/
def CounterLeft (p : Process) (c : Call) : Prop := c.Makes → p.historyCount ≠ 0xffff

instance (p : Process) (c : Call) : Decidable (CounterLeft p c) :=
  inferInstanceAs (Decidable (_ → _))

/-- The handle was made by the time the counter is at `count`. -/
def MadeBy (count : UInt16) (hdl : UInt32) : Prop :=
  256 ≤ hdl.toNat ∧ hdl.toNat / 256 ≤ count.toNat

section Runs

variable {p₀ p p' : Process} {c : Call} {calls : List Call} {out : List UInt32} {count : UInt16}
  {index : UInt8} {hdl : UInt32}

theorem toNat_generateHandler_count (h : count ≠ 0xffff) :
    (generateHandler count index).1.toNat = count.toNat + 1 := by
  have hlt : count.toNat + 1 < 2 ^ 16 := by
    have hne : count.toNat ≠ 65535 := fun heq => h (UInt16.toNat_inj.mp heq)
    have := count.toNat_lt
    omega
  have hadd : (count + 1).toNat = count.toNat + 1 := by
    rw [UInt16.toNat_add, UInt16.toNat_one, Nat.mod_eq_of_lt hlt]
  have hne : count + 1 ≠ 0 := by
    intro heq
    rw [heq] at hadd
    exact absurd hadd (by simp)
  simp only [generateHandler, if_neg hne]
  exact hadd

theorem madeBy_generateHandler :
    MadeBy (generateHandler count index).1 (generateHandler count index).2 := by
  have hpos : 0 < (generateHandler count index).1.toNat := by
    refine Nat.pos_of_ne_zero ?_
    intro h
    exact @generateHandler_count_ne_zero count index (UInt16.toNat_inj.mp h)
  have hi := index.toNat_lt
  rw [MadeBy, toNat_generateHandler]
  omega

theorem MadeBy.ne_generateHandler (h : MadeBy count hdl) (hne : count ≠ 0xffff) :
    hdl ≠ (generateHandler count index).2 := by
  rintro rfl
  have hle := h.2
  have hi := index.toNat_lt
  rw [toNat_generateHandler, toNat_generateHandler_count hne] at hle
  omega

theorem MadeBy.succ (h : MadeBy count hdl) (hne : count ≠ 0xffff) :
    MadeBy (generateHandler count index).1 hdl := by
  refine ⟨h.1, h.2.trans ?_⟩
  rw [toNat_generateHandler_count hne]
  exact Nat.le_succ _

/-- The live handles are distinct, and all handles are made by the counter. -/
structure Fresh (out : List UInt32) (p : Process) : Prop where
  wf : p.Wf
  nodup : p.live.Nodup
  live : ∀ hdl ∈ p.live, MadeBy p.historyCount hdl
  returned : ∀ hdl ∈ out, MadeBy p.historyCount hdl

theorem fresh_init {numCam maxNumSensors : ℕ} (h : numCam ≤ maxNumSensors) :
    Fresh [] (.init numCam maxNumSensors) := by
  have hlive : (Process.init numCam maxNumSensors).live = [] := by
    simp [Process.live, Process.init]
  refine ⟨⟨by simpa [Process.init] using h, ?_⟩, by simp [hlive], by simp [hlive], by simp⟩
  intro cam hcam
  cases List.eq_of_mem_replicate hcam

namespace LiveStep

variable {makes : Prop} {count' : UInt16} {live live' : List UInt32} {h : UInt32}

theorem madeBy (hstep : LiveStep makes count live hdl count' live')
    (hleft : makes → count ≠ 0xffff) (hmade : MadeBy count h) : MadeBy count' h := by
  cases hstep with
  | keeps => exact hmade
  | wastes hmakes | adds hmakes => exact hmade.succ (hleft hmakes)

theorem mem_of_madeBy (hstep : LiveStep makes count live hdl count' live')
    (hleft : makes → count ≠ 0xffff) (hmade : MadeBy count h) (hmem : h ∈ live') : h ∈ live := by
  cases hstep with
  | keeps _ hsub | wastes _ hsub => exact hsub.subset hmem
  | adds hmakes hperm =>
    refine (List.mem_cons.mp (hperm.mem_iff.mp hmem)).resolve_left ?_
    exact hmade.ne_generateHandler (hleft hmakes)

theorem nodup (hstep : LiveStep makes count live hdl count' live')
    (hleft : makes → count ≠ 0xffff) (hmade : ∀ h ∈ live, MadeBy count h) (hnd : live.Nodup) :
    live'.Nodup := by
  cases hstep with
  | keeps _ hsub | wastes _ hsub => exact hnd.sublist hsub
  | adds hmakes hperm =>
    refine hperm.nodup_iff.mpr (List.nodup_cons.mpr ⟨?_, hnd⟩)
    intro hmem
    exact (hmade _ hmem).ne_generateHandler (hleft hmakes) rfl

theorem live_madeBy (hstep : LiveStep makes count live hdl count' live')
    (hleft : makes → count ≠ 0xffff) (hmade : ∀ h ∈ live, MadeBy count h) :
    ∀ h ∈ live', MadeBy count' h := by
  intro h hmem
  cases hstep with
  | keeps _ hsub => exact hmade h (hsub.subset hmem)
  | wastes hmakes hsub => exact (hmade h (hsub.subset hmem)).succ (hleft hmakes)
  | adds hmakes hperm =>
    rcases List.mem_cons.mp (hperm.mem_iff.mp hmem) with rfl | hmem
    · exact madeBy_generateHandler
    · exact (hmade h hmem).succ (hleft hmakes)

theorem returned_madeBy (hstep : LiveStep makes count live hdl count' live')
    (hmade : ∀ h ∈ live, MadeBy count h) (hne : hdl ≠ 0) : MadeBy count' hdl := by
  cases hstep with
  | keeps hhdl => exact hmade hdl (hhdl.resolve_left hne)
  | wastes => exact absurd rfl hne
  | adds => exact madeBy_generateHandler

end LiveStep

theorem mem_step_out {o : List UInt32} (hs : p.step c = some (p', o)) :
    p' = (p.call c).2 ∧ ∀ hdl ∈ o, hdl = (p.call c).1 ∧ hdl ≠ 0 := by
  cases hs
  refine ⟨rfl, ?_⟩
  intro hdl hmem
  split at hmem
  · cases hmem
  · rename_i hne
    obtain rfl := List.mem_singleton.mp hmem
    exact ⟨rfl, hne⟩

theorem Fresh.step {o : List UInt32} (h : Fresh out p) (hleft : CounterLeft p c)
    (hs : p.step c = some (p', o)) : Fresh (out ++ o) p' := by
  obtain ⟨rfl, ho⟩ := mem_step_out hs
  have hstep := call_liveStep h.wf.numCam c
  refine ⟨h.wf.call c, hstep.nodup hleft h.live h.nodup, hstep.live_madeBy hleft h.live, ?_⟩
  intro hdl hmem
  rcases List.mem_append.mp hmem with hmem | hmem
  · exact hstep.madeBy hleft (h.returned hdl hmem)
  · obtain ⟨rfl, hne⟩ := ho hdl hmem
    exact hstep.returned_madeBy h.live hne

theorem Fresh.of_runs {numCam maxNumSensors : ℕ} {calls : List Call}
    (hnum : numCam ≤ maxNumSensors)
    (h : Runs Process.step CounterLeft (.init numCam maxNumSensors) calls out p) : Fresh out p :=
  h.inv (fun _ out p => Fresh out p) (fresh_init hnum)
    fun _ _ _ _ _ _ hfresh hleft hs => hfresh.step hleft hs

/-- **A stale handle is refused** as long as the counter for handles has not
wrapped: the live handles are distinct and not 0, and once the object a handle
was returned for is released, no lookup finds an object by it, however the
process goes on. -/
theorem stale_handle_refused {numCam maxNumSensors : ℕ} {calls calls' : List Call}
    {out' : List UInt32} (hnum : numCam ≤ maxNumSensors)
    (h : Runs Process.step CounterLeft (.init numCam maxNumSensors) calls out p)
    (h' : Runs Process.step CounterLeft p calls' out' p') :
    (p'.live.Nodup ∧ ∀ hdl ∈ p'.live, hdl ≠ 0) ∧
      ∀ hdl ∈ out, hdl ∉ p.live → ¬ p'.Resolves hdl := by
  have hfresh := Fresh.of_runs hnum h
  have hne : ∀ {count hdl}, MadeBy count hdl → hdl ≠ 0 := by
    rintro count hdl ⟨hle, -⟩ rfl
    exact absurd hle (by decide)
  have hfresh' : Fresh (out ++ out') p' := h'.inv (fun _ out' p' => Fresh (out ++ out') p')
    (by simpa using hfresh) (fun _ _ _ _ _ _ hf hleft hs => by
      rw [← List.append_assoc]
      exact hf.step hleft hs)
  refine ⟨⟨hfresh'.nodup, fun hdl hmem => hne (hfresh'.live hdl hmem)⟩, ?_⟩
  intro hdl hout hnot hres
  have hgone : Fresh out p' ∧ hdl ∉ p'.live := h'.inv (fun _ _ p' => Fresh out p' ∧ hdl ∉ p'.live)
    ⟨hfresh, hnot⟩ (by
      rintro _ _ q c q' o ⟨hq, hnot⟩ hleft hs
      have hq' := hq.step hleft hs
      obtain ⟨rfl, -⟩ := mem_step_out hs
      exact ⟨⟨hq'.wf, hq'.nodup, hq'.live, fun h hh => hq'.returned h (List.mem_append_left _ hh)⟩,
        fun hmem => hnot ((call_liveStep hq.wf.numCam c).mem_of_madeBy hleft
          (hq.returned hdl hout) hmem)⟩)
  exact hgone.2 (hfresh'.wf.mem_live_of_resolves (hne (hfresh.returned hdl hout)) hres)

/-- A stream is deleted and another one added in its place. -/
theorem stale_handle_refused_stream : ∃ p p',
    Runs Process.step CounterLeft (.init 1 2)
      [.cameraOpen 0 true true, .addChannel 0x100 ⟨.burst, 0, 0, 0, 0⟩ false,
        .addStream 0x100 0x200 true true, .delStream 0x100 0x200 0x300]
      [0x100, 0x200, 0x300] p ∧
    Runs Process.step CounterLeft p [.addStream 0x100 0x200 true true] [0x400] p' ∧
    0x300 ∉ p.live ∧ p'.live.Nodup ∧ ¬ p'.Resolves 0x300 := by
  obtain ⟨p, p', hexec, hnot, hexec', hleft⟩ : ∃ p p', exec Process.step (.init 1 2)
      [.cameraOpen 0 true true, .addChannel 0x100 ⟨.burst, 0, 0, 0, 0⟩ false,
        .addStream 0x100 0x200 true true, .delStream 0x100 0x200 0x300] =
      some (p, [0x100, 0x200, 0x300]) ∧ 0x300 ∉ p.live ∧
      exec Process.step p [.addStream 0x100 0x200 true true] = some (p', [0x400]) ∧
      Guarded Process.step CounterLeft p [.addStream 0x100 0x200 true true] :=
    ⟨_, _, rfl, by decide, rfl, by decide⟩
  have hrun := runs_of_exec_guarded (G := CounterLeft) .nil hexec (by decide)
  have hrun' := runs_of_exec_guarded (G := CounterLeft) .nil hexec' hleft
  obtain ⟨⟨hnodup, -⟩, hstale⟩ := stale_handle_refused (by decide) hrun hrun'
  exact ⟨p, p', hrun, hrun', hnot, hnodup, hstale 0x300 (by decide) hnot⟩

/-! ### The counter wraps -/

/-- Camera 0 is opened and closed `n` times. -/
def reopen : ℕ → UInt16 → List Call
  | 0, _ => []
  | n + 1, count =>
    .cameraOpen 0 true true :: .close (generateHandler count 0).2 0 ::
      reopen n (generateHandler count 0).1

/-- The counter after `n` handles. -/
def countAfter : ℕ → UInt16 → UInt16
  | 0, count => count
  | n + 1, count => countAfter n (generateHandler count 0).1

theorem toNat_countAfter {n : ℕ} (h : count.toNat + n < 2 ^ 16) :
    (countAfter n count).toNat = count.toNat + n := by
  induction n generalizing count with
  | zero => rfl
  | succ n ih =>
    have hne : count ≠ 0xffff := by
      rintro rfl
      rw [show (0xffff : UInt16).toNat = 65535 from rfl] at h
      omega
    have hnext := @toNat_generateHandler_count count 0 hne
    rw [countAfter, ih (by omega)]
    omega

def closedCamera (count : UInt16) : Process := ⟨count, 1, [none]⟩

def openCamera (count : UInt16) (hdl : UInt32) : Process :=
  ⟨count, 1, [some ⟨hdl, 1, List.replicate cameraChannelMax .memset⟩]⟩

theorem step_open (count : UInt16) :
    (closedCamera count).step (.cameraOpen 0 true true) =
      some (openCamera (generateHandler count 0).1 (generateHandler count 0).2,
        [(generateHandler count 0).2]) := by
  have hcall : (closedCamera count).call (.cameraOpen 0 true true) =
      ((generateHandler count 0).2,
        openCamera (generateHandler count 0).1 (generateHandler count 0).2) := rfl
  rw [Process.step, hcall]
  simp only [if_neg (@generateHandler_ne_zero count 0)]

theorem getCameraByHandler_openCamera (hidx : getIndexByHandler hdl = 0) :
    (openCamera count hdl).getCameraByHandler hdl =
      some (0, ⟨hdl, 1, List.replicate cameraChannelMax .memset⟩) := by
  simp [Process.getCameraByHandler, openCamera, hidx]

theorem step_close (hidx : getIndexByHandler hdl = 0) :
    (openCamera count hdl).step (.close hdl 0) = some (closedCamera count, []) := by
  have hcall : (openCamera count hdl).call (.close hdl 0) = (0, closedCamera count) := by
    simp only [Process.call, Process.close, getCameraByHandler_openCamera hidx]
    rfl
  rw [Process.step, hcall]
  rfl

theorem exists_runs_reopen (n : ℕ) (h : Runs Process.step (fun _ _ => True) p₀ calls out
      (closedCamera count)) :
    ∃ out', Runs Process.step (fun _ _ => True) p₀ (calls ++ reopen n count) out'
      (closedCamera (countAfter n count)) := by
  induction n generalizing calls out count with
  | zero => exact ⟨out, by simpa [reopen, countAfter] using h⟩
  | succ n ih =>
    have hopen := h.snoc trivial (step_open count)
    have hclose := hopen.snoc trivial (step_close getIndexByHandler_generateHandler)
    obtain ⟨out', hrest⟩ := ih hclose
    exact ⟨out', by simpa [reopen, countAfter] using hrest⟩

/-- **The counter wraps.**  Camera 0 is opened, closed, reopened and closed
65534 times, and opened again: the handle of the first camera is found again. -/
theorem stale_handle_honoured : ∃ out p out' p',
    Runs Process.step (fun _ _ => True) (.init 1 1)
      [.cameraOpen 0 true true, .close 0x100 0] out p ∧
    Runs Process.step (fun _ _ => True) p (reopen 65534 1 ++ [.cameraOpen 0 true true]) out' p' ∧
    0x100 ∈ out ∧ 0x100 ∉ p.live ∧ p'.Resolves 0x100 := by
  have hopen : Runs Process.step (fun _ _ => True) (.init 1 1) [.cameraOpen 0 true true] [0x100]
      (openCamera 1 0x100) := .single trivial (step_open 0)
  have hclose := hopen.snoc trivial (step_close (by decide))
  have hstart : Runs Process.step (fun _ _ => True) (closedCamera 1) [] [] (closedCamera 1) := .nil
  obtain ⟨out', hrun⟩ := exists_runs_reopen 65534 hstart
  have hcount : countAfter 65534 1 = 0xffff :=
    UInt16.toNat_inj.mp (toNat_countAfter (by decide))
  rw [hcount] at hrun
  have hreopen := hrun.snoc trivial (step_open 0xffff)
  refine ⟨_, _, _, _, hclose, hreopen, by decide, by decide, .inl ?_⟩
  have hfound := @getCameraByHandler_openCamera 1 0x100 (by decide)
  exact Option.isSome_iff_exists.mpr ⟨_, hfound⟩

end Runs

end Interface

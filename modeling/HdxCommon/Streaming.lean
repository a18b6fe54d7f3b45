/-
A channel at work: its streams, its threads and the client.

The kernel delivers buffers to the streams, the poll thread counts them and
passes them on to the command threads of the channel and of the stream, the
callback thread hands superbufs to the client, and whoever is done with a buffer
gives it back with `mm_channel_qbuf`.  A step of the system is one such action;
the command thread of the channel takes a command in one step and carries out
its effects in further ones, so other threads may act in between.
-/
import HdxCommon.Stream
import HdxCommon.SuperbufConservation

namespace Interface

open Superbuf (Queue Channel BufInfo Metadata Cmd Mem Effect processStreamBuf)

abbrev Handle := UInt32 × ℕ

/-- The buffer a record is about. -/
def handle (b : BufInfo) : Handle := (b.streamId, b.bufIdx)

/-- `mm_channel_state_type_t`. -/
inductive ChannelState where
  | notUsed | stopped | active | paused
  deriving DecidableEq, Repr

/-- `mm_channel_t`.  `isActive`, `queue` and `superBufNotifyCb` are its bundle;
`cmdThread` and `cbThread` are the queues of the running threads. -/
structure ChannelObj where
  state : ChannelState
  isActive : Bool
  queue : Queue
  superBufNotifyCb : Bool
  pendingCnt : UInt32
  startZslSnapshotCalled : Bool
  needLedFlash : Bool
  cmdThread : Option (List Cmd)
  cbThread : Option (List (List (Option BufInfo)))
  streams : List StreamObj
  deriving DecidableEq

namespace ChannelObj

def matcher (c : ChannelObj) : Channel :=
  ⟨c.queue, c.superBufNotifyCb, c.pendingCnt, c.startZslSnapshotCalled, c.needLedFlash,
    c.streams.map StreamObj.ref⟩

def withMatcher (c : ChannelObj) (ch : Channel) : ChannelObj :=
  { c with
    queue := ch.queue
    pendingCnt := ch.pendingCnt
    startZslSnapshotCalled := ch.startZslSnapshotCalled
    needLedFlash := ch.needLedFlash }

/-- `mm_channel_util_get_stream_by_handler`. -/
def getStream (c : ChannelObj) (hdl : UInt32) : Option StreamObj :=
  c.streams.find? fun s => s.state ≠ .notUsed && hdl == s.myHdl

def modifyStream (c : ChannelObj) (hdl : UInt32) (f : StreamObj → StreamObj) : ChannelObj :=
  { c with streams := c.streams.map fun s => if s.myHdl = hdl then f s else s }

/-- `mm_channel_qbuf`: only an active stream takes its buffer back. -/
def qbuf (c : ChannelObj) (h : Handle) : ChannelObj :=
  c.modifyStream h.1 fun s => if s.state = .active then (s.bufDone h.2 true).2 else s

end ChannelObj

/-- A channel, what its command thread has still to do for the command it took,
and the buffers the client has. -/
structure System where
  channel : ChannelObj
  pending : List Effect
  client : List Handle
  deriving DecidableEq

inductive Event where
  /-- the kernel delivers a buffer of a stream -/
  | frame (hdl : UInt32) (idx : ℕ) (frameIdx : UInt32) (metadata : Option Metadata)
  /-- the client asks for superbufs, a notify mode or a flush -/
  | request (cmd : Cmd)
  /-- the command thread takes a command -/
  | command
  /-- the command thread carries out an effect of its command -/
  | effect
  /-- the callback thread hands a superbuf to the client -/
  | superbuf
  /-- the command thread of a stream dispatches a buffer -/
  | data (hdl : UInt32)
  /-- the client gives a buffer back -/
  | qbuf (h : Handle)

namespace System

/-- `mm_stream_data_notify`: the count, then the queues of the two threads.
There is no step when a queue it needs is that of a thread never launched. -/
def frame (sys : System) (b : BufInfo) : Option System := do
  let c := sys.channel
  let s ← c.getStream b.streamId
  if s.state = .active ∧ b.bufIdx ∈ s.device.queued ∧
      (s.isBundled → c.cmdThread.isSome) ∧ (s.hasCb → s.cmdThread.isSome) then
    let c := c.modifyStream b.streamId fun s => s.dataNotify b
    let cmds := if s.isBundled then c.cmdThread.map fun q => q ++ [.dataCb b] else c.cmdThread
    return { sys with channel := { c with cmdThread := cmds } }
  else none

/-- The command thread takes its next command, `mm_channel_process_stream_buf`. -/
def command (sys : System) : Option System :=
  match sys.pending, sys.channel.cmdThread with
  | [], some (cmd :: cmds) => do
    let (ch, es) ← processStreamBuf sys.channel.matcher (cmd, .ample)
    return { sys with
      channel := { sys.channel.withMatcher ch with cmdThread := some cmds }
      pending := es }
  | _, _ => none

/-- What an effect of the matcher does: a buffer goes back to its stream, a
superbuf onto the queue of the callback thread. -/
def applyEffect (sys : System) : Effect → System
  | .qbuf b => { sys with channel := sys.channel.qbuf (handle b) }
  | .superbufCb bufs =>
    { sys with
      channel := { sys.channel with cbThread := sys.channel.cbThread.map fun q => q ++ [bufs] } }
  | _ => sys

def effect (sys : System) : Option System :=
  match sys.pending with
  | [] => none
  | e :: es => some { sys.applyEffect e with pending := es }

/-- `mm_channel_dispatch_super_buf`. -/
def superbuf (sys : System) : Option (System × List Handle) :=
  match sys.channel.cbThread with
  | some (bufs :: rest) =>
    let given := if sys.channel.superBufNotifyCb then bufs.reduceOption.map handle else []
    some ({ sys with
      channel := { sys.channel with cbThread := some rest }
      client := sys.client ++ given }, given)
  | _ => none

/-- The command thread of a stream, `mm_stream_dispatch_app_data`. -/
def data (sys : System) (hdl : UInt32) : Option (System × List Handle) := do
  let s ← sys.channel.getStream hdl
  match s.cmdThread with
  | some (b :: rest) =>
    let given := List.replicate s.calls (handle b)
    some ({ sys with
      channel := sys.channel.modifyStream hdl fun s =>
        { s.dispatchAppData b true with cmdThread := some rest }
      client := sys.client ++ given }, given)
  | _ => none

/-- A step of the system, with the buffers given to the client. -/
def step (sys : System) : Event → Option (System × List Handle)
  | .frame hdl idx frameIdx metadata => do
    let sys ← sys.frame ⟨hdl, frameIdx, idx, metadata⟩
    return (sys, [])
  | .request cmd =>
    -- the calls of the client carry no buffer
    if cmd.taken = [] then do
      let queue ← sys.channel.cmdThread
      return ({ sys with channel := { sys.channel with cmdThread := some (queue ++ [cmd]) } }, [])
    else none
  | .command => do
    let sys ← sys.command
    return (sys, [])
  | .effect => do
    let sys ← sys.effect
    return (sys, [])
  | .superbuf => sys.superbuf
  | .data hdl => sys.data hdl
  | .qbuf h =>
    if h ∈ sys.client then
      some ({ sys with channel := sys.channel.qbuf h, client := sys.client.erase h }, [])
    else none

end System

/-! ### The steps one by one -/

/-- The channel after `mm_stream_data_notify`. -/
def ChannelObj.frame (c : ChannelObj) (s : StreamObj) (b : BufInfo) : ChannelObj :=
  { c.modifyStream b.streamId fun s => s.dataNotify b with
    cmdThread := if s.isBundled then c.cmdThread.map fun q => q ++ [.dataCb b] else c.cmdThread }

/-- A step of the system with what it finds and what it leaves behind. -/
inductive Transition (sys : System) : Event → List Handle → System → Prop
  | frame {b : BufInfo} {s : StreamObj} (hget : sys.channel.getStream b.streamId = some s)
      (hq : b.bufIdx ∈ s.device.queued) (hcmd : s.isBundled → sys.channel.cmdThread.isSome)
      (hcb : s.hasCb → s.cmdThread.isSome) :
      Transition sys (.frame b.streamId b.bufIdx b.frameIdx b.metadata) []
        { sys with channel := sys.channel.frame s b }
  | request {cmd : Cmd} {queue : List Cmd} (htaken : cmd.taken = [])
      (hq : sys.channel.cmdThread = some queue) :
      Transition sys (.request cmd) []
        { sys with channel := { sys.channel with cmdThread := some (queue ++ [cmd]) } }
  | command {cmd : Cmd} {cmds : List Cmd} {ch : Superbuf.Channel} {es : List Effect}
      (hpend : sys.pending = []) (hcmds : sys.channel.cmdThread = some (cmd :: cmds))
      (hproc : processStreamBuf sys.channel.matcher (cmd, .ample) = some (ch, es)) :
      Transition sys .command []
        { sys with
          channel := { sys.channel.withMatcher ch with cmdThread := some cmds }
          pending := es }
  | effect {e : Effect} {es : List Effect} (hpend : sys.pending = e :: es) :
      Transition sys .effect [] { sys.applyEffect e with pending := es }
  | superbuf {bufs : List (Option BufInfo)} {rest : List (List (Option BufInfo))}
      (hqueue : sys.channel.cbThread = some (bufs :: rest)) {given : List Handle}
      (hgiven : given =
        if sys.channel.superBufNotifyCb then bufs.reduceOption.map handle else []) :
      Transition sys .superbuf given
        { sys with
          channel := { sys.channel with cbThread := some rest }
          client := sys.client ++ given }
  | data {hdl : UInt32} {s : StreamObj} {b : BufInfo} {rest : List BufInfo}
      (hget : sys.channel.getStream hdl = some s) (hq : s.cmdThread = some (b :: rest)) :
      Transition sys (.data hdl) (List.replicate s.calls (handle b))
        { sys with
          channel := sys.channel.modifyStream hdl fun s =>
            { s.dispatchAppData b true with cmdThread := some rest }
          client := sys.client ++ List.replicate s.calls (handle b) }
  | qbuf {h : Handle} (hh : h ∈ sys.client) :
      Transition sys (.qbuf h) []
        { sys with channel := sys.channel.qbuf h, client := sys.client.erase h }

theorem System.transition_of_step {sys sys' : System} {ev : Event} {given : List Handle}
    (hs : sys.step ev = some (sys', given)) : Transition sys ev given sys' := by
  cases ev with
  | frame hdl idx frameIdx metadata =>
    simp only [System.step, System.frame, Option.bind_eq_bind, Option.bind_eq_some_iff,
      Option.pure_def, Option.some.injEq, Prod.mk.injEq] at hs
    obtain ⟨t, ⟨s, hget, ht⟩, rfl, rfl⟩ := hs
    split at ht
    · rename_i hok
      obtain ⟨-, hq, hcmd, hcb⟩ := hok
      cases ht
      exact .frame (b := ⟨hdl, frameIdx, idx, metadata⟩) hget hq hcmd hcb
    · cases ht
  | request cmd =>
    simp only [System.step] at hs
    split at hs
    · rename_i htaken
      simp only [Option.bind_eq_bind, Option.bind_eq_some_iff, Option.pure_def,
        Option.some.injEq, Prod.mk.injEq] at hs
      obtain ⟨queue, hq, rfl, rfl⟩ := hs
      exact .request htaken hq
    · cases hs
  | command =>
    simp only [System.step, System.command, Option.bind_eq_bind, Option.bind_eq_some_iff,
      Option.pure_def, Option.some.injEq, Prod.mk.injEq] at hs
    obtain ⟨t, ht, rfl, rfl⟩ := hs
    split at ht
    · rename_i cmd cmds hpend hcmds
      simp only [Option.bind_eq_some_iff, Option.some.injEq, Prod.exists] at ht
      obtain ⟨ch, es, hproc, rfl⟩ := ht
      exact .command hpend hcmds hproc
    · cases ht
  | effect =>
    simp only [System.step, System.effect, Option.bind_eq_bind, Option.bind_eq_some_iff,
      Option.pure_def, Option.some.injEq, Prod.mk.injEq] at hs
    obtain ⟨t, ht, rfl, rfl⟩ := hs
    split at ht
    · cases ht
    · rename_i e es hpend
      cases ht
      exact .effect hpend
  | superbuf =>
    simp only [System.step, System.superbuf] at hs
    split at hs
    · rename_i bufs rest hqueue
      cases hs
      exact .superbuf hqueue rfl
    · cases hs
  | data hdl =>
    simp only [System.step, System.data, Option.bind_eq_bind, Option.bind_eq_some_iff] at hs
    obtain ⟨s, hget, hs⟩ := hs
    split at hs
    · rename_i b rest hq
      cases hs
      exact .data hget hq
    · cases hs
  | qbuf x =>
    simp only [System.step] at hs
    split at hs
    · rename_i hx
      cases hs
      exact .qbuf hx
    · cases hs

/-! ### Who holds a buffer -/

namespace ChannelObj

def bufStatus (c : ChannelObj) (h : Handle) : Option BufStatus :=
  (c.getStream h.1).bind fun s => s.status h.2

def inDevice (c : ChannelObj) (h : Handle) : ℕ :=
  (c.getStream h.1).elim 0 fun s => s.device.queued.count h.2

def streamBufs (c : ChannelObj) (hdl : UInt32) : List BufInfo :=
  ((c.getStream hdl).bind StreamObj.cmdThread).getD []

/-- The buffers in queued commands, in superbufs of the queue, and in superbufs
for the callback thread. -/
def bundleBufs (c : ChannelObj) : List BufInfo :=
  (c.cmdThread.getD []).flatMap Cmd.taken ++ c.queue.stored ++
    (c.cbThread.getD []).flatMap List.reduceOption

end ChannelObj

namespace System

/-- The buffers on their way through the bundle; the command in progress holds
those it has not given back or passed on yet. -/
def bundleBufs (sys : System) : List BufInfo :=
  sys.channel.bundleBufs ++ (Superbuf.returned sys.pending ++ Superbuf.sent sys.pending)

/-- How often a buffer is held by the bundle. -/
def inBundle (sys : System) (h : Handle) : ℕ := (sys.bundleBufs.map handle).count h

/-- How often a buffer is held by the command queue of its stream. -/
def inStream (sys : System) (h : Handle) : ℕ :=
  ((sys.channel.streamBufs h.1).map handle).count h

/-- How many hold a buffer. -/
def holders (sys : System) (h : Handle) : ℕ :=
  sys.inBundle h + sys.inStream h + sys.client.count h

end System

/-! ### Looking up streams -/

section GetStream

variable {c : ChannelObj} {hdl hdl' : UInt32} {f : StreamObj → StreamObj} {s : StreamObj}

def KeepsId (f : StreamObj → StreamObj) : Prop :=
  ∀ s, (f s).myHdl = s.myHdl ∧ ((f s).state = .notUsed ↔ s.state = .notUsed)

theorem getStream_myHdl (h : c.getStream hdl = some s) : s.myHdl = hdl := by
  have hp := List.find?_some h
  simp only [Bool.and_eq_true, beq_iff_eq] at hp
  exact hp.2.symm

theorem getStream_modifyStream (hf : KeepsId f) :
    (c.modifyStream hdl f).getStream hdl' =
      (c.getStream hdl').map fun s => if s.myHdl = hdl then f s else s := by
  unfold ChannelObj.getStream ChannelObj.modifyStream
  rw [List.find?_map]
  congr 2
  funext s
  by_cases hs : s.myHdl = hdl
  · simp [hs, (hf s).1, (hf s).2]
  · simp [hs]

theorem getStream_modifyStream_self (hf : KeepsId f) :
    (c.modifyStream hdl f).getStream hdl = (c.getStream hdl).map f := by
  rw [getStream_modifyStream hf]
  cases hs : c.getStream hdl with
  | none => rfl
  | some s => simp [getStream_myHdl hs]

theorem getStream_modifyStream_of_ne (hf : KeepsId f) (hne : hdl' ≠ hdl) :
    (c.modifyStream hdl f).getStream hdl' = c.getStream hdl' := by
  rw [getStream_modifyStream hf]
  cases hs : c.getStream hdl' with
  | none => rfl
  | some s => simp [getStream_myHdl hs, hne]

theorem status_updateStatus (s : StreamObj) (i j : ℕ) (f : BufStatus → BufStatus) :
    (s.updateStatus i f).status j = (s.status j).map fun st => if i = j then f st else st := by
  unfold StreamObj.status StreamObj.updateStatus
  cases s.bufStatus with
  | none => simp
  | some l => simp [List.getElem?_modify]

theorem status_withDevice (s : StreamObj) (d : Device) (j : ℕ) :
    { s with device := d }.status j = s.status j := rfl

end GetStream

end Interface

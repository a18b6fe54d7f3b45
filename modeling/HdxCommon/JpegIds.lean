/-
The ids of JPEG jobs, `mm_jpeg_create_session` and `mm_jpeg_start_job`.

A session id holds a magic bit, the index of the session and the index of its
client.  The id of a job is the session id with the job counter of the session's
slot, modulo `JOB_HIST_MAX`, put over it from bit 16 on.

* `jobId_eq_iff` — two ids are equal if the slots are and the counters agree
  outside bit 8, which the magic bit covers;
* `job_ids_distinct_iff` — so the ids of two jobs of a run are different exactly
  if that is not the case, and each decodes to its client and session.
-/
import HdxCommon.JpegClients

namespace Jpeg

/-- `MM_JPEG_MAX_SESSION`. -/
abbrev mmJpegMaxSession : ℕ := 10

/-- `JOB_ID_MAGICVAL`. -/
def jobIdMagicval : UInt32 := 0x1

/-- `JOB_HIST_MAX`. -/
def jobHistMax : Int32 := 10000

/-- `GET_CLIENT_IDX`. -/
def getClientIdx (x : UInt32) : UInt32 := x &&& 0xff

/-- `GET_SESSION_IDX`. -/
def getSessionIdx (x : UInt32) : UInt32 := (x >>> 8) &&& 0xff

/-- The place of a session in the object: its client, and its index there. -/
abbrev Slot := Fin maxJpegClientNum × Fin mmJpegMaxSession

/-- The id that `mm_jpeg_create_session` gives to the session in a slot. -/
def sessionId (slot : Slot) : UInt32 :=
  jobIdMagicval <<< 24 ||| slot.2.val.toUInt32 <<< 8 ||| slot.1.val.toUInt32

/-- The id that `mm_jpeg_start_job` gives to a job of the session. -/
def jobId (sessionId : UInt32) (jobHist : Int32) : UInt32 :=
  sessionId ||| ((jobHist % jobHistMax) <<< 16).toUInt32

/-! ### Ids and their fields -/

/-- The counters agree outside bit 8. -/
def Overlap (h h' : Int32) : Prop := h % jobHistMax ||| 256 = h' % jobHistMax ||| 256

instance (h h' : Int32) : Decidable (Overlap h h') := inferInstanceAs (Decidable (_ = _))

/-- The lower half of an id. -/
def slotBits (slot : Slot) : ℕ := slot.2.val * 256 + slot.1.val

theorem slotBits_lt (slot : Slot) : slotBits slot < 2 ^ 16 := by
  have hc : slot.1.val < 8 := slot.1.isLt
  have hs : slot.2.val < 10 := slot.2.isLt
  unfold slotBits
  omega

theorem slotBits_inj {slot slot' : Slot} (h : slotBits slot = slotBits slot') : slot = slot' := by
  have hc : slot.1.val < 8 := slot.1.isLt
  have hc' : slot'.1.val < 8 := slot'.1.isLt
  unfold slotBits at h
  refine Prod.ext (Fin.ext ?_) (Fin.ext ?_)
  · omega
  · omega

theorem or_256 (a : ℕ) : a ||| 256 = a ∨ a ||| 256 = a + 256 := by
  have hdiv : (a ||| 256) / 2 ^ 9 = a / 2 ^ 9 := by
    rw [Nat.or_div_two_pow]
    simp
  have hmod : (a ||| 256) % 2 ^ 9 = a % 2 ^ 9 ||| 256 := by
    rw [Nat.or_mod_two_pow]
  have hlow : ∀ r < 512, r ||| 256 = r ∨ r ||| 256 = r + 256 := by decide +kernel
  have hr := hlow (a % 2 ^ 9) (Nat.mod_lt _ (by decide))
  have hsplit := Nat.div_add_mod (a ||| 256) (2 ^ 9)
  have hsplit' := Nat.div_add_mod a (2 ^ 9)
  omega

theorem toNat_mod_jobHistMax (h : Int32) :
    (h % jobHistMax).toUInt32.toNat < 10000 ∨ 2 ^ 32 - 10000 < (h % jobHistMax).toUInt32.toNat := by
  have hint : (h % jobHistMax).toInt = h.toInt.tmod 10000 := Int32.toInt_mod h jobHistMax
  have hcond : (h % jobHistMax).toInt =
      if 2 * (h % jobHistMax).toUInt32.toNat < 2 ^ 32 then ((h % jobHistMax).toUInt32.toNat : ℤ)
      else ((h % jobHistMax).toUInt32.toNat : ℤ) - (2 ^ 32 : ℕ) :=
    BitVec.toInt_eq_toNat_cond _
  have hlt := Int.tmod_lt_of_pos h.toInt (show (0 : ℤ) < 10000 by decide)
  have hgt := Int.lt_tmod_of_pos h.toInt (show (0 : ℤ) < 10000 by decide)
  split at hcond
  · left
    omega
  · right
    push_cast at hcond
    omega

/-- The upper half of an id. -/
def histBits (h : Int32) : ℕ := ((h % jobHistMax).toUInt32.toNat ||| 256) % 2 ^ 16

theorem toNat_slotBits (slot : Slot) :
    (slot.2.val.toUInt32 <<< 8 ||| slot.1.val.toUInt32).toNat = slotBits slot := by
  have hc : slot.1.val < 8 := slot.1.isLt
  have hs : slot.2.val < 10 := slot.2.isLt
  have hclient : slot.1.val.toUInt32.toNat = slot.1.val := Nat.mod_eq_of_lt (by omega)
  have hsession : (slot.2.val.toUInt32 <<< 8).toNat = slot.2.val <<< 8 := by
    have hval : slot.2.val.toUInt32.toNat = slot.2.val := Nat.mod_eq_of_lt (by omega)
    rw [UInt32.toNat_shiftLeft, hval, show (8 : UInt32).toNat % 32 = 8 from rfl,
      Nat.shiftLeft_eq]
    omega
  rw [UInt32.toNat_or, hclient, hsession, ← Nat.shiftLeft_add_eq_or_of_lt (by omega),
    Nat.shiftLeft_eq]
  rfl

/-- The magic bit of the session id meets bit 8 of the counter. -/
theorem jobId_eq_or (slot : Slot) (h : Int32) :
    jobId (sessionId slot) h = ((h % jobHistMax).toUInt32 ||| 256) <<< 16 |||
      (slot.2.val.toUInt32 <<< 8 ||| slot.1.val.toUInt32) := by
  have hmagic : jobIdMagicval <<< 24 = (256 : UInt32) <<< 16 := by decide
  have hshift : ((h % jobHistMax) <<< 16).toUInt32 = (h % jobHistMax).toUInt32 <<< 16 := rfl
  unfold jobId sessionId
  rw [hshift, hmagic, UInt32.shiftLeft_or]
  generalize (h % jobHistMax).toUInt32 <<< 16 = counter
  generalize (256 : UInt32) <<< 16 = magic
  rw [UInt32.or_assoc magic, UInt32.or_comm _ counter, UInt32.or_assoc counter]

/-- The halves of an id do not touch each other. -/
theorem toNat_jobId (slot : Slot) (h : Int32) :
    (jobId (sessionId slot) h).toNat = histBits h * 2 ^ 16 + slotBits slot := by
  have hor := jobId_eq_or slot h
  have hupper : (((h % jobHistMax).toUInt32 ||| 256) <<< 16).toNat = histBits h <<< 16 := by
    unfold histBits
    generalize (h % jobHistMax).toUInt32 = counter
    rw [UInt32.toNat_shiftLeft, UInt32.toNat_or, show (16 : UInt32).toNat % 32 = 16 from rfl,
      show (256 : UInt32).toNat = 256 from rfl, Nat.shiftLeft_eq, Nat.shiftLeft_eq,
      show 2 ^ 32 = 2 ^ 16 * 2 ^ 16 from rfl, Nat.mul_mod_mul_right]
  rw [hor, UInt32.toNat_or, hupper, toNat_slotBits,
    ← Nat.shiftLeft_add_eq_or_of_lt (slotBits_lt slot), Nat.shiftLeft_eq]

/-- The upper half determines the counter up to bit 8. -/
theorem histBits_eq_iff (h h' : Int32) : histBits h = histBits h' ↔ Overlap h h' := by
  have hnat : Overlap h h' ↔ (h % jobHistMax).toUInt32.toNat ||| 256 =
      (h' % jobHistMax).toUInt32.toNat ||| 256 := by
    unfold Overlap
    generalize h % jobHistMax = a
    generalize h' % jobHistMax = b
    constructor
    · intro heq
      exact congrArg (fun x : Int32 => x.toUInt32.toNat) heq
    · intro heq
      exact Int32.toBitVec_inj.1 (BitVec.eq_of_toNat_eq heq)
  rw [hnat]
  unfold histBits
  have hlt := toNat_mod_jobHistMax h
  have hlt' := toNat_mod_jobHistMax h'
  have hbound := (h % jobHistMax).toUInt32.toNat_lt
  have hbound' := (h' % jobHistMax).toUInt32.toNat_lt
  generalize (h % jobHistMax).toUInt32.toNat = a at *
  generalize (h' % jobHistMax).toUInt32.toNat = b at *
  have hor : a ||| 256 < 2 ^ 32 := Nat.or_lt_two_pow hbound (by decide)
  have hor' : b ||| 256 < 2 ^ 32 := Nat.or_lt_two_pow hbound' (by decide)
  constructor
  · intro heq
    rcases or_256 a with ha | ha <;> rcases or_256 b with hb | hb <;> omega
  · intro heq
    rw [heq]

/-- **Ids and their fields**: two ids are equal if the slots are and the counters
agree outside bit 8. -/
theorem jobId_eq_iff (slot slot' : Slot) (h h' : Int32) :
    jobId (sessionId slot) h = jobId (sessionId slot') h' ↔ slot = slot' ∧ Overlap h h' := by
  have hlt := slotBits_lt slot
  have hlt' := slotBits_lt slot'
  rw [← UInt32.toNat_inj, toNat_jobId, toNat_jobId, ← histBits_eq_iff]
  constructor
  · intro heq
    exact ⟨slotBits_inj (by omega), by omega⟩
  · rintro ⟨rfl, heq⟩
    rw [heq]

theorem jobId_decodes (slot : Slot) (h : Int32) :
    (getClientIdx (jobId (sessionId slot) h)).toNat = slot.1 ∧
      (getSessionIdx (jobId (sessionId slot) h)).toNat = slot.2 := by
  have hc : slot.1.val < 8 := slot.1.isLt
  have hs : slot.2.val < 10 := slot.2.isLt
  have hid := toNat_jobId slot h
  unfold slotBits at hid
  refine ⟨?_, ?_⟩
  · rw [getClientIdx, UInt32.toNat_and, show (0xff : UInt32).toNat = 2 ^ 8 - 1 from rfl,
      Nat.and_two_pow_sub_one_eq_mod]
    omega
  · rw [getSessionIdx, UInt32.toNat_and, UInt32.toNat_shiftRight,
      show (8 : UInt32).toNat % 32 = 8 from rfl, show (0xff : UInt32).toNat = 2 ^ 8 - 1 from rfl,
      Nat.and_two_pow_sub_one_eq_mod, Nat.shiftRight_eq_div_pow]
    omega

theorem sessionId_decodes (slot : Slot) :
    (getClientIdx (sessionId slot)).toNat = slot.1 ∧
      (getSessionIdx (sessionId slot)).toNat = slot.2 := by
  have hzero : jobId (sessionId slot) 0 = sessionId slot := by
    have hnone : (((0 : Int32) % jobHistMax) <<< 16).toUInt32 = 0 := by decide
    rw [jobId, hnone, UInt32.or_zero]
  have h := jobId_decodes slot 0
  rwa [hzero] at h

/-! ### Sessions and their jobs -/

/-- `MM_JPEG_MAX_BUF`. -/
def mmJpegMaxBuf : UInt32 := 24

/-- `mm_jpeg_job_session_t` as far as ids are concerned.  `serial` says which
session the slot was made for last, 0 for none, and `started` how many jobs that
session had. -/
structure Session where
  active : Bool
  sessionId : UInt32
  jobHist : Int32
  numSrcBufs : UInt32
  numDstBufs : UInt32
  serial : ℕ
  started : ℕ

/-- The session after `memset`. -/
def Session.zero : Session := ⟨false, 0, 0, 0, 0, 0, 0⟩

structure Sessions where
  session : Slot → Session
  created : ℕ

/-- A job that was started: its session, its number there, the counter it found
and the id it got. -/
structure Started where
  slot : Slot
  serial : ℕ
  number : ℕ
  hist : Int32
  id : UInt32

/-- A call of a client.  `idx` is the slot that `mm_jpeg_new_client` found;
`omx`, `malloc` and `enq` say whether the component was set up, and the job was
allocated and queued. -/
inductive SessionCall where
  | newClient (idx : Fin maxJpegClientNum)
  | close (clientHdl : UInt32)
  | createSession (clientHdl numSrcBufs numDstBufs : UInt32) (omx : Bool)
  | destroySession (sessionId : UInt32)
  | startJob (sessionId srcIndex dstIndex : UInt32) (malloc enq : Bool)

/-- `mm_jpeg_get_session`. -/
def getSession (id : UInt32) : Option Slot :=
  if h : (getClientIdx id).toNat < maxJpegClientNum ∧ (getSessionIdx id).toNat < mmJpegMaxSession
  then some (⟨_, h.1⟩, ⟨_, h.2⟩)
  else none

theorem getSession_sessionId (slot : Slot) : getSession (sessionId slot) = some slot := by
  obtain ⟨hclient, hsession⟩ := sessionId_decodes slot
  unfold getSession
  rw [dif_pos ⟨by rw [hclient]; exact slot.1.isLt, by rw [hsession]; exact slot.2.isLt⟩]
  simp only [hclient, hsession, Fin.eta]

namespace Sessions

/-- The object after `memset`. -/
def init : Sessions := ⟨fun _ => .zero, 0⟩

def update (s : Sessions) (slot : Slot) (f : Session → Session) : Sessions :=
  { s with session := Function.update s.session slot (f (s.session slot)) }

/-- The `memset` of a client's sessions. -/
def clear (s : Sessions) (idx : Fin maxJpegClientNum) : Sessions :=
  { s with session := fun slot => if slot.1 = idx then .zero else s.session slot }

/-- `mm_jpeg_get_new_session_idx`: the first session that is not active. -/
def getNewSessionIdx (s : Sessions) (idx : Fin maxJpegClientNum) : Option (Fin mmJpegMaxSession) :=
  (List.finRange mmJpegMaxSession).find? fun i => !(s.session (idx, i)).active

/-- A slot gets a session; the counter stays where the slot had it. -/
def newSession (s : Sessions) (slot : Slot) (numSrcBufs numDstBufs : UInt32) : Sessions :=
  { s.update slot fun p => ⟨true, Jpeg.sessionId slot, p.jobHist, numSrcBufs, numDstBufs,
      s.created + 1, 0⟩ with created := s.created + 1 }

/-- `mm_jpeg_create_session`. -/
def createSession (s : Sessions) (clientHdl numSrcBufs numDstBufs : UInt32) (omx : Bool) :
    Sessions :=
  if numSrcBufs > mmJpegMaxBuf ∨ numDstBufs > mmJpegMaxBuf then s
  else if h : (Interface.getIndexByHandler clientHdl).toNat < maxJpegClientNum then
    match s.getNewSessionIdx ⟨_, h⟩ with
    | none => s
    | some i =>
      if !omx then s
      else s.newSession (⟨_, h⟩, i) numSrcBufs numDstBufs
  else s

/-- `mm_jpeg_destroy_session_by_id`: the id in the session, not the one it was
called with, says which session is removed. -/
def destroySession (s : Sessions) (sessionId : UInt32) : Sessions :=
  match getSession sessionId with
  | none => s
  | some slot =>
    match getSession (s.session slot).sessionId with
    | none => s
    | some slot => s.update slot fun p => { p with active := false }

/-- `mm_jpeg_start_job`. -/
def startJob (s : Sessions) (sessionId srcIndex dstIndex : UInt32) (malloc enq : Bool) :
    Sessions × List Started :=
  match getSession sessionId with
  | none => (s, [])
  | some slot =>
    let p := s.session slot
    if !p.active then (s, [])
    else if srcIndex ≥ p.numSrcBufs ∨ dstIndex ≥ p.numDstBufs then (s, [])
    else if !malloc then (s, [])
    else if !enq then (s.update slot fun p => { p with jobHist := p.jobHist + 1 }, [])
    else
      (s.update slot fun p => { p with jobHist := p.jobHist + 1, started := p.started + 1 },
        [⟨slot, p.serial, p.started, p.jobHist, jobId sessionId p.jobHist⟩])

def step (s : Sessions) : SessionCall → Option (Sessions × List Started)
  | .newClient idx => some (s.clear idx, [])
  | .close clientHdl =>
    if h : (Interface.getIndexByHandler clientHdl).toNat < maxJpegClientNum then
      some (s.clear ⟨_, h⟩, [])
    else some (s, [])
  | .createSession clientHdl numSrcBufs numDstBufs omx =>
    some (s.createSession clientHdl numSrcBufs numDstBufs omx, [])
  | .destroySession sessionId => some (s.destroySession sessionId, [])
  | .startJob sessionId srcIndex dstIndex malloc enq =>
    some (s.startJob sessionId srcIndex dstIndex malloc enq)

/-- Jobs are started with an id that `mm_jpeg_create_session` gives. -/
def Genuine (_ : Sessions) : SessionCall → Prop
  | .startJob id _ _ _ _ => ∃ slot, id = Jpeg.sessionId slot
  | _ => True

/-- The sessions are told apart by their serial numbers, and so are the jobs of
each by theirs. -/
structure Numbered (s : Sessions) (os : List Started) : Prop where
  active : ∀ slot, (s.session slot).active = true → 0 < (s.session slot).serial
  serial_le : ∀ slot, (s.session slot).serial ≤ s.created
  serial_inj : ∀ slot slot', 0 < (s.session slot).serial →
    (s.session slot).serial = (s.session slot').serial → slot = slot'
  job_le : ∀ a ∈ os, 0 < a.serial ∧ a.serial ≤ s.created
  job_slot : ∀ a ∈ os, ∀ slot, a.serial = (s.session slot).serial →
    a.slot = slot ∧ a.number < (s.session slot).started
  job_id : ∀ a ∈ os, a.id = jobId (Jpeg.sessionId a.slot) a.hist
  ordered : os.Pairwise fun a b => a.serial = b.serial → a.slot = b.slot ∧ a.number < b.number

variable {s s' : Sessions} {os : List Started}

theorem numbered_init : Numbered init [] := by
  refine ⟨?_, ?_, ?_, ?_, ?_, ?_, .nil⟩
  · intro slot h
    cases h
  · intro slot
    exact le_rfl
  · intro slot slot' h
    exact absurd h (lt_irrefl 0)
  · simp
  · simp
  · simp

theorem Numbered.weaken (h : s.Numbered os) (hcreated : s'.created = s.created)
    (hsession : ∀ slot, (s'.session slot).serial = 0 ∧ (s'.session slot).active = false ∨
      (s'.session slot).serial = (s.session slot).serial ∧
      (s'.session slot).started = (s.session slot).started ∧
      ((s'.session slot).active = true → (s.session slot).active = true)) :
    s'.Numbered os := by
  have hserial : ∀ slot, 0 < (s'.session slot).serial →
      (s'.session slot).serial = (s.session slot).serial ∧
      (s'.session slot).started = (s.session slot).started := by
    intro slot hpos
    rcases hsession slot with ⟨hzero, -⟩ | ⟨heq, hstarted, -⟩
    · omega
    · exact ⟨heq, hstarted⟩
  refine ⟨?_, ?_, ?_, ?_, ?_, h.job_id, h.ordered⟩
  · intro slot hactive
    rcases hsession slot with ⟨-, hoff⟩ | ⟨heq, -, hkept⟩
    · rw [hoff] at hactive
      cases hactive
    · rw [heq]
      exact h.active slot (hkept hactive)
  · intro slot
    rw [hcreated]
    rcases hsession slot with ⟨hzero, -⟩ | ⟨heq, -⟩
    · omega
    · rw [heq]
      exact h.serial_le slot
  · intro slot slot' hpos heq
    have hs := (hserial slot hpos).1
    have hs' := (hserial slot' (heq ▸ hpos)).1
    exact h.serial_inj slot slot' (hs ▸ hpos) (by rw [← hs, ← hs', heq])
  · rw [hcreated]
    exact h.job_le
  · intro a ha slot heq
    obtain ⟨hs, hstarted⟩ := hserial slot (heq ▸ (h.job_le a ha).1)
    rw [hstarted]
    exact h.job_slot a ha slot (heq.trans hs)

theorem Numbered.clear (h : s.Numbered os) (idx : Fin maxJpegClientNum) :
    (s.clear idx).Numbered os := by
  refine h.weaken rfl ?_
  intro slot
  by_cases hidx : slot.1 = idx
  · left
    simp [Sessions.clear, hidx, Session.zero]
  · right
    simp [Sessions.clear, hidx]

theorem Numbered.update (h : s.Numbered os) (slot : Slot) (f : Session → Session)
    (hserial : ∀ p, (f p).serial = p.serial) (hstarted : ∀ p, (f p).started = p.started)
    (hactive : ∀ p, (f p).active = true → p.active = true) : (s.update slot f).Numbered os := by
  refine h.weaken rfl ?_
  intro slot'
  right
  by_cases hslot : slot' = slot
  · subst hslot
    simp only [Sessions.update, Function.update_self]
    exact ⟨hserial _, hstarted _, hactive _⟩
  · simp [Sessions.update, hslot]

theorem Numbered.destroySession (h : s.Numbered os) (id : UInt32) :
    (s.destroySession id).Numbered os := by
  unfold Sessions.destroySession
  split
  · exact h
  split
  · exact h
  · exact h.update _ _ (fun _ => rfl) (fun _ => rfl) (by simp)

theorem Numbered.newSession (h : s.Numbered os) (slot : Slot) (src dst : UInt32) :
    (s.newSession slot src dst).Numbered os := by
  have hother : ∀ slot', slot' ≠ slot →
      (s.newSession slot src dst).session slot' = s.session slot' := by
    intro slot' hne
    simp [Sessions.newSession, Sessions.update, hne]
  have hself : ((s.newSession slot src dst).session slot).serial = s.created + 1 := by
    simp [Sessions.newSession, Sessions.update]
  refine ⟨?_, ?_, ?_, ?_, ?_, h.job_id, h.ordered⟩
  · intro slot' hactive
    by_cases heq : slot' = slot
    · subst heq
      omega
    · rw [hother slot' heq] at hactive ⊢
      exact h.active slot' hactive
  · intro slot'
    show _ ≤ s.created + 1
    by_cases heq : slot' = slot
    · subst heq
      omega
    · rw [hother slot' heq]
      exact (h.serial_le slot').trans (Nat.le_succ _)
  · intro a b hpos heq
    have hle := h.serial_le a
    have hle' := h.serial_le b
    by_cases ha : a = slot <;> by_cases hb : b = slot
    · exact ha.trans hb.symm
    · subst ha
      rw [hother b hb] at heq
      omega
    · subst hb
      rw [hother a ha] at heq
      omega
    · rw [hother a ha] at hpos heq
      rw [hother b hb] at heq
      exact h.serial_inj a b hpos heq
  · intro a ha
    exact ⟨(h.job_le a ha).1, (h.job_le a ha).2.trans (Nat.le_succ _)⟩
  · intro a ha slot' heq
    have hle := (h.job_le a ha).2
    by_cases hne : slot' = slot
    · subst hne
      omega
    · rw [hother slot' hne] at heq ⊢
      exact h.job_slot a ha slot' heq

theorem Numbered.createSession (h : s.Numbered os) (hdl src dst : UInt32) (omx : Bool) :
    (s.createSession hdl src dst omx).Numbered os := by
  unfold Sessions.createSession
  split
  · exact h
  split
  · split
    · exact h
    split
    · exact h
    · exact h.newSession _ _ _
  · exact h

theorem Numbered.started (h : s.Numbered os) {slot : Slot}
    (hactive : (s.session slot).active = true) :
    (s.update slot fun p => { p with jobHist := p.jobHist + 1, started := p.started + 1 }).Numbered
      (os ++ [⟨slot, (s.session slot).serial, (s.session slot).started, (s.session slot).jobHist,
        jobId (Jpeg.sessionId slot) (s.session slot).jobHist⟩]) := by
  generalize hs' : s.update slot (fun p =>
    { p with jobHist := p.jobHist + 1, started := p.started + 1 }) = s'
  have hsession : ∀ slot', (s'.session slot').active = (s.session slot').active ∧
      (s'.session slot').serial = (s.session slot').serial ∧
      (s.session slot').started ≤ (s'.session slot').started := by
    intro slot'
    subst hs'
    by_cases hne : slot' = slot
    · subst hne
      simp [Sessions.update]
    · simp [Sessions.update, hne]
  have hstarted : (s'.session slot).started = (s.session slot).started + 1 := by
    subst hs'
    simp [Sessions.update]
  have hcreated : s'.created = s.created := by rw [← hs']; rfl
  have hpos := h.active slot hactive
  refine ⟨?_, ?_, ?_, ?_, ?_, ?_, ?_⟩
  · intro slot' hon
    rw [(hsession slot').2.1]
    exact h.active slot' ((hsession slot').1 ▸ hon)
  · intro slot'
    rw [(hsession slot').2.1, hcreated]
    exact h.serial_le slot'
  · intro a b ha hab
    rw [(hsession a).2.1] at ha hab
    rw [(hsession b).2.1] at hab
    exact h.serial_inj a b ha hab
  · intro a ha
    rw [hcreated]
    rcases List.mem_append.mp ha with ha | ha
    · exact h.job_le a ha
    · obtain rfl := List.mem_singleton.mp ha
      exact ⟨hpos, h.serial_le slot⟩
  · intro a ha slot' heq
    rw [(hsession slot').2.1] at heq
    rcases List.mem_append.mp ha with ha | ha
    · obtain ⟨hslot, hlt⟩ := h.job_slot a ha slot' heq
      exact ⟨hslot, hlt.trans_le (hsession slot').2.2⟩
    · obtain rfl := List.mem_singleton.mp ha
      obtain rfl := h.serial_inj slot slot' hpos heq
      refine ⟨rfl, ?_⟩
      show (s.session slot).started < _
      omega
  · intro a ha
    rcases List.mem_append.mp ha with ha | ha
    · exact h.job_id a ha
    · obtain rfl := List.mem_singleton.mp ha
      rfl
  · refine List.pairwise_append.mpr ⟨h.ordered, List.pairwise_singleton _ _, ?_⟩
    intro a ha b hb heq
    obtain rfl := List.mem_singleton.mp hb
    exact h.job_slot a ha slot heq

/-- **Every call keeps the jobs numbered.** -/
theorem Numbered.step (h : s.Numbered os) {c : SessionCall} {o : List Started}
    (hgenuine : s.Genuine c) (hs : s.step c = some (s', o)) : s'.Numbered (os ++ o) := by
  have hquiet : ∀ {t : Sessions}, t.Numbered os → some (t, []) = some (s', o) →
      s'.Numbered (os ++ o) := by
    intro t ht heq
    cases heq
    simpa using ht
  cases c with
  | newClient idx => exact hquiet (h.clear idx) hs
  | close hdl =>
    simp only [Sessions.step] at hs
    split at hs
    · exact hquiet (h.clear _) hs
    · exact hquiet h hs
  | createSession hdl src dst omx => exact hquiet (h.createSession hdl src dst omx) hs
  | destroySession id => exact hquiet (h.destroySession id) hs
  | startJob id src dst malloc enq =>
    obtain ⟨slot, rfl⟩ := hgenuine
    simp only [Sessions.step, Sessions.startJob, getSession_sessionId] at hs
    split at hs
    · exact hquiet h hs
    rename_i hactive
    split at hs
    · exact hquiet h hs
    split at hs
    · exact hquiet h hs
    split at hs
    · refine hquiet ?_ hs
      exact h.update slot _ (fun _ => rfl) (fun _ => rfl) (by simp)
    · cases hs
      exact h.started (by simpa using hactive)

end Sessions

/-- Jobs of different sessions, or fewer than `JOB_HIST_MAX` apart. -/
def Near (a b : Started) : Prop := a.serial = b.serial → b.number < a.number + 10000

/-- **Which ids are distinct.**  In every run the id of a job decodes to the
client and the session it was issued for, and the jobs of a session have one
slot and are counted up.  Two jobs of different sessions, or fewer than
`JOB_HIST_MAX` apart, have different ids exactly if their slots are different or
the counters they found differ outside bit 8. -/
theorem job_ids_distinct_iff {s : Sessions} {cs : List SessionCall} {os : List Started}
    (hrun : Runs Sessions.step Sessions.Genuine .init cs os s) :
    (∀ a ∈ os, (getClientIdx a.id).toNat = a.slot.1 ∧ (getSessionIdx a.id).toNat = a.slot.2) ∧
    ∀ (i j : ℕ) (a b : Started), i < j → os[i]? = some a → os[j]? = some b →
      (a.serial = b.serial → a.slot = b.slot ∧ a.number < b.number) ∧
      ((Near a b → a.id ≠ b.id) ↔ (Near a b → ¬ (a.slot = b.slot ∧ Overlap a.hist b.hist))) := by
  have hinv : s.Numbered os := hrun.inv (fun _ os s => s.Numbered os) Sessions.numbered_init
    (fun _ _ _ _ _ _ h hgenuine hs => h.step hgenuine hs)
  refine ⟨?_, ?_⟩
  · intro a ha
    rw [hinv.job_id a ha]
    exact jobId_decodes a.slot a.hist
  · intro i j a b hij ha hb
    refine ⟨?_, ?_⟩
    · obtain ⟨hi, rfl⟩ := List.getElem?_eq_some_iff.mp ha
      obtain ⟨hj, rfl⟩ := List.getElem?_eq_some_iff.mp hb
      exact List.pairwise_iff_getElem.mp hinv.ordered i j hi hj hij
    · rw [ne_eq, hinv.job_id a (List.mem_of_getElem? ha), hinv.job_id b (List.mem_of_getElem? hb),
        jobId_eq_iff]

def oneSession : List SessionCall := [.newClient 0, .createSession 0x100 1 1 true]

def jobOf (n : ℕ) : Started := ⟨(0, 0), 1, n, Int32.ofNat n, jobId 0x1000000 (Int32.ofNat n)⟩

theorem runs_jobs (n : ℕ) : ∃ s, Runs Sessions.step Sessions.Genuine .init
    (oneSession ++ List.replicate n (.startJob 0x1000000 0 0 true true))
    ((List.range n).map jobOf) s ∧
    s.session (0, 0) = ⟨true, 0x1000000, Int32.ofNat n, 1, 1, 1, n⟩ := by
  induction n with
  | zero =>
    obtain ⟨s, hexec, hsession⟩ : ∃ s, exec Sessions.step .init oneSession = some (s, []) ∧
        s.session (0, 0) = ⟨true, 0x1000000, 0, 1, 1, 1, 0⟩ := ⟨_, rfl, rfl⟩
    exact ⟨s, runs_of_exec_guarded .nil hexec ⟨trivial, fun _ _ => ⟨trivial, fun _ _ => trivial⟩⟩,
      hsession⟩
  | succ n ih =>
    obtain ⟨s, hrun, hsession⟩ := ih
    have hstep : s.step (.startJob 0x1000000 0 0 true true) =
        some (s.update (0, 0) fun p =>
          { p with jobHist := p.jobHist + 1, started := p.started + 1 }, [jobOf n]) := by
      have hslot : getSession 0x1000000 = some (0, 0) := rfl
      simp [Sessions.step, Sessions.startJob, hslot, hsession, jobOf]
    have hgenuine : s.Genuine (.startJob 0x1000000 0 0 true true) := ⟨(0, 0), rfl⟩
    have hnext := hrun.snoc hgenuine hstep
    rw [List.append_assoc, ← List.replicate_succ'] at hnext
    have hos : (List.range (n + 1)).map jobOf = (List.range n).map jobOf ++ [jobOf n] := by
      rw [List.range_succ, List.map_append, List.map_singleton]
    exact ⟨_, hos ▸ hnext, by simp [Sessions.update, hsession]⟩

/-- The ids of the first two jobs of a session are different. -/
theorem job_ids_distinct_iff_two : ∃ s, Runs Sessions.step Sessions.Genuine .init
    (oneSession ++ List.replicate 2 (.startJob 0x1000000 0 0 true true)) [jobOf 0, jobOf 1] s ∧
    (jobOf 0).id ≠ (jobOf 1).id := by
  obtain ⟨s, hrun, -⟩ := runs_jobs 2
  refine ⟨s, hrun, ?_⟩
  exact (((job_ids_distinct_iff hrun).2 0 1 _ _ (by decide) rfl rfl).2.mpr
    (fun _ => by decide)) (fun _ => by decide)

/-- Job 256 of a session has the id of its job 0. -/
theorem job_ids_collide : ∃ os s, Runs Sessions.step Sessions.Genuine .init
    (oneSession ++ List.replicate 257 (.startJob 0x1000000 0 0 true true)) os s ∧
    os[0]? = some (jobOf 0) ∧ os[256]? = some (jobOf 256) ∧
    Near (jobOf 0) (jobOf 256) ∧ (jobOf 0).id = (jobOf 256).id := by
  obtain ⟨s, hrun, -⟩ := runs_jobs 257
  exact ⟨_, s, hrun, rfl, rfl, fun _ => by decide, by decide⟩

end Jpeg

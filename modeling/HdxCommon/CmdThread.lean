/-
Queues and command threads.

`QCameraQueue` is a list of pointers behind a mutex, so each of its operations is
one atomic step on a list.  A `QCameraCmdThread` is a queue of commands and a
thread that takes them from the head; a command with priority is put in front of
all others.

A wake-up without a command has no effect, so the semaphore is left out: the
thread may take a command whenever there is one.
-/
import Mathlib.Tactic

namespace Qcamera

/-- `camera_cmd_type_t`. -/
inductive CmdType where
  | startDataProc
  | stopDataProc
  | doNextJob
  | exit
  deriving DecidableEq, Repr

structure CmdMem where
  cmd : Bool
  node : Bool
  deriving DecidableEq, Repr

def CmdMem.ample : CmdMem := ⟨true, true⟩

section Queue

variable {α : Type*}

def enqueue (node : Bool) (x : α) (q : List α) : List α :=
  if node then q ++ [x] else q

def enqueueWithPriority (node : Bool) (x : α) (q : List α) : List α :=
  if node then x :: q else q

/-- The nodes taken out and those that stay. -/
def flushNodes (p : α → Bool) (q : List α) : List α × List α :=
  (q.filter p, q.filter fun x => !p x)

@[simp] theorem enqueue_true (x : α) (q : List α) : enqueue true x q = q ++ [x] := rfl

@[simp] theorem enqueue_false (x : α) (q : List α) : enqueue false x q = q := rfl

theorem flushNodes_perm (p : α → Bool) (q : List α) :
    ((flushNodes p q).1 ++ (flushNodes p q).2).Perm q :=
  List.filter_append_perm p q

end Queue

/-- Send a command: whether it reports success, and the queue.  A command whose
node cannot be allocated is lost without an error. -/
def sendCmd (cmd : CmdType) (priority : Bool) (mem : CmdMem) (q : List CmdType) :
    Bool × List CmdType :=
  if mem.cmd then
    (true, if priority then enqueueWithPriority mem.node cmd q else enqueue mem.node cmd q)
  else (false, q)

@[simp] theorem sendCmd_fst (cmd : CmdType) (priority : Bool) (mem : CmdMem) (q : List CmdType) :
    (sendCmd cmd priority mem q).1 = mem.cmd := by
  cases h : mem.cmd <;> simp [sendCmd, h]

def CmdMem.Sends (mem : CmdMem) : Prop := mem.cmd = true ∧ mem.node = true

instance (mem : CmdMem) : Decidable mem.Sends := inferInstanceAs (Decidable (_ ∧ _))

theorem sendCmd_eq (cmd : CmdType) (priority : Bool) (mem : CmdMem) (q : List CmdType) :
    (sendCmd cmd priority mem q).2 =
      if mem.Sends then (if priority then cmd :: q else q ++ [cmd]) else q := by
  obtain ⟨c, n⟩ := mem
  cases c <;> cases n <;> cases priority <;> rfl

theorem sendCmd_cases (cmd : CmdType) (priority : Bool) (mem : CmdMem) (q : List CmdType) :
    (sendCmd cmd priority mem q).2 = q ∨
      (sendCmd cmd priority mem q).2 = if priority then cmd :: q else q ++ [cmd] := by
  obtain ⟨c, n⟩ := mem
  cases c with
  | false => exact .inl rfl
  | true =>
    cases n with
    | false => exact .inl (by cases priority <;> rfl)
    | true => exact .inr (by cases priority <;> rfl)

theorem mem_sendCmd {cmd c : CmdType} {priority : Bool} {mem : CmdMem} {q : List CmdType}
    (h : c ∈ (sendCmd cmd priority mem q).2) : c = cmd ∨ c ∈ q := by
  rcases sendCmd_cases cmd priority mem q with heq | heq
  · exact .inr (heq ▸ h)
  · rw [heq] at h
    cases priority with
    | false =>
      rw [if_neg Bool.false_ne_true, List.mem_append, List.mem_singleton] at h
      exact h.symm
    | true => exact List.mem_cons.mp h

theorem exists_sendCmd_doNextJob (mem : CmdMem) (q : List CmdType) :
    ∃ k, (sendCmd .doNextJob false mem q).2 = q ++ List.replicate k .doNextJob := by
  rcases sendCmd_cases .doNextJob false mem q with heq | heq
  · exact ⟨0, by rw [heq, List.replicate_zero, List.append_nil]⟩
  · exact ⟨1, heq⟩

end Qcamera

import Mathlib.Tactic.Common

/-!
# Work items

A work item is queued at most once, and at most one instance of it runs at a time; a
request that arrives while an instance runs queues the next one.  Instances are
numbered in the order in which they are queued, so that waiting for an item
(`flushed`) is waiting for every instance up to the last one queued when the wait
began: an instance queued later is not waited for.

`DelayedWork` is the timer-driven form: `pending` covers the timer that runs and the
expired instance no worker has picked up, which cancelling treats alike.
-/

namespace Work

/-- A work item whose running instance is at the program point `σ`. -/
structure WorkItem (σ : Type*) where
  /-- Instances queued so far. -/
  seq : Nat
  /-- Instance `seq` waits for a worker. -/
  queued : Bool
  running : Option σ
  /-- The number of the running (or last run) instance. -/
  runSeq : Nat
  order : running.isSome → if queued then runSeq < seq else runSeq ≤ seq

variable {σ : Type*}

namespace WorkItem

def idle : WorkItem σ := ⟨0, false, none, 0, by simp⟩

/-- Queue one instance, unless one already waits. -/
def schedule (w : WorkItem σ) : WorkItem σ :=
  if h : w.queued then w
  else ⟨w.seq + 1, true, w.running, w.runSeq, fun hr => by
    have := w.order hr
    simp only [h, Bool.false_eq_true, if_false] at this
    simp only [if_true]
    omega⟩

/-- A worker picks the waiting instance up. -/
def start (w : WorkItem σ) (pc : σ) : WorkItem σ :=
  ⟨w.seq, false, some pc, w.seq, by simp⟩

/-- The running instance moves on. -/
def goto (w : WorkItem σ) (pc : σ) : WorkItem σ :=
  if h : w.running.isSome then ⟨w.seq, w.queued, some pc, w.runSeq, fun _ => w.order h⟩ else w

/-- The running instance returns. -/
def finish (w : WorkItem σ) : WorkItem σ :=
  ⟨w.seq, w.queued, none, w.runSeq, by simp⟩

/-- The waiting instance is taken off the queue. -/
def cancel (w : WorkItem σ) : WorkItem σ :=
  ⟨w.seq, false, w.running, w.runSeq, fun hr => by
    have := w.order hr
    simp only [Bool.false_eq_true, if_false]
    split at this <;> omega⟩

/-- Instance `t` and all before it have returned or were cancelled. -/
def flushed (w : WorkItem σ) (t : Nat) : Bool :=
  (!w.queued || decide (t < w.seq)) && (w.running.isNone || decide (t < w.runSeq))

@[simp] theorem idle_queued : (idle : WorkItem σ).queued = false := rfl
@[simp] theorem idle_running : (idle : WorkItem σ).running = none := rfl

@[simp] theorem schedule_queued (w : WorkItem σ) : w.schedule.queued = true := by
  unfold schedule; split <;> simp_all

@[simp] theorem schedule_running (w : WorkItem σ) : w.schedule.running = w.running := by
  unfold schedule; split <;> rfl

@[simp] theorem schedule_runSeq (w : WorkItem σ) : w.schedule.runSeq = w.runSeq := by
  unfold schedule; split <;> rfl

@[simp] theorem start_queued (w : WorkItem σ) (pc : σ) : (w.start pc).queued = false := rfl
@[simp] theorem start_running (w : WorkItem σ) (pc : σ) : (w.start pc).running = some pc := rfl
@[simp] theorem start_seq (w : WorkItem σ) (pc : σ) : (w.start pc).seq = w.seq := rfl
@[simp] theorem start_runSeq (w : WorkItem σ) (pc : σ) : (w.start pc).runSeq = w.seq := rfl

@[simp] theorem goto_queued (w : WorkItem σ) (pc : σ) : (w.goto pc).queued = w.queued := by
  unfold goto; split <;> rfl

theorem goto_running (w : WorkItem σ) (pc : σ) :
    (w.goto pc).running = if w.running.isSome then some pc else none := by
  unfold goto
  split
  · simp
  · next h => simp_all

@[simp] theorem goto_running_of_some {w : WorkItem σ} {pc pc' : σ} (h : w.running = some pc') :
    (w.goto pc).running = some pc := by
  simp [goto_running, h]

@[simp] theorem goto_seq (w : WorkItem σ) (pc : σ) : (w.goto pc).seq = w.seq := by
  unfold goto; split <;> rfl

@[simp] theorem goto_runSeq (w : WorkItem σ) (pc : σ) : (w.goto pc).runSeq = w.runSeq := by
  unfold goto; split <;> rfl

@[simp] theorem finish_queued (w : WorkItem σ) : w.finish.queued = w.queued := rfl
@[simp] theorem finish_running (w : WorkItem σ) : w.finish.running = none := rfl
@[simp] theorem finish_seq (w : WorkItem σ) : w.finish.seq = w.seq := rfl
@[simp] theorem cancel_queued (w : WorkItem σ) : w.cancel.queued = false := rfl
@[simp] theorem cancel_running (w : WorkItem σ) : w.cancel.running = w.running := rfl

/-- What waits when a flush begins is not flushed before it has run. -/
theorem not_flushed_of_queued {w : WorkItem σ} {t : Nat} (hq : w.queued = true) (ht : w.seq ≤ t) :
    w.flushed t = false := by
  simp [flushed, hq, Nat.not_lt.2 ht]

/-- What runs when a flush begins is not flushed before it has returned. -/
theorem not_flushed_of_running {w : WorkItem σ} {t : Nat} (hr : w.running.isSome)
    (ht : w.runSeq ≤ t) : w.flushed t = false := by
  cases h : w.running with
  | none => simp [h] at hr
  | some pc => simp [flushed, h, Nat.not_lt.2 ht]

theorem runSeq_le (w : WorkItem σ) (hr : w.running.isSome) : w.runSeq ≤ w.seq := by
  have := w.order hr
  split at this <;> omega

end WorkItem

/-- A delayed work item: `pending` carries what the armed instance was armed for. -/
structure DelayedWork (α σ : Type*) where
  pending : Option α
  running : Option σ

namespace DelayedWork

variable {α : Type*}

def idle : DelayedWork α σ := ⟨none, none⟩

/-- Arm the timer, unless an instance is already pending. -/
def schedule (w : DelayedWork α σ) (a : α) : DelayedWork α σ :=
  { w with pending := some (w.pending.getD a) }

/-- Disarm: a handler that has begun goes on. -/
def cancel (w : DelayedWork α σ) : DelayedWork α σ := { w with pending := none }

@[simp] theorem schedule_running (w : DelayedWork α σ) (a : α) :
    (w.schedule a).running = w.running := rfl
@[simp] theorem cancel_pending (w : DelayedWork α σ) : w.cancel.pending = none := rfl
@[simp] theorem cancel_running (w : DelayedWork α σ) : w.cancel.running = w.running := rfl

end DelayedWork

end Work

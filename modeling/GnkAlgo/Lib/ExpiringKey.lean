import Mathlib

/-!
# Values that expire

A key of a store that can be given an expiry, under writes each of which reads what is
there and arms the expiry again for one and the same span.  A key that has expired reads
as one that never was.

A log of writes has the latest first.  `unbroken span now log` is the part of it since
the last silence longer than the span, as seen at the moment `now`.

* `get_written` — what is read is what the unbroken part of the log leaves;
* `unbroken_eq_self_iff` — when that is the whole log;
* `get_set` — a key that is only ever set anew has the value that was set last, while
  that lives;
* `Cells.foldl_writeCell` — of many cells, each is what its own entries make of it.
-/

namespace Cells

variable {α κ β σ : Type*} [DecidableEq κ]

/-- An entry, where an element has one, writes the cell of its key. -/
def writeCell (entry : α → Option (κ × β)) (act : β → σ → σ) (cells : κ → σ) (x : α) : κ → σ :=
  match entry x with
  | some e => Function.update cells e.1 (act e.2 (cells e.1))
  | none => cells

/-- What is for a cell, in order. -/
def entriesOf (entry : α → Option (κ × β)) (k : κ) (l : List α) : List β :=
  l.filterMap fun x => (entry x).bind fun e => if e.1 = k then some e.2 else none

/-- **A cell** is what its entries make of it. -/
theorem foldl_writeCell {entry : α → Option (κ × β)} {act : β → σ → σ} (l : List α)
    (cells : κ → σ) (k : κ) :
    l.foldl (writeCell entry act) cells k =
      (entriesOf entry k l).foldl (fun c e => act e c) (cells k) := by
  induction l generalizing cells with
  | nil => rfl
  | cons x l ih =>
    rw [List.foldl_cons, ih]
    cases hx : entry x with
    | none => simp [writeCell, entriesOf, hx]
    | some e =>
      by_cases hk : e.1 = k
      · simp [writeCell, entriesOf, hx, ← hk]
      · simp [writeCell, entriesOf, hx, hk, Function.update_of_ne (Ne.symm hk)]

end Cells

/-- The value of a key and, where there is one, the last moment it lives. -/
structure ExpiringKey (α : Type*) where
  value : Option α := none
  expireAt : Option ℤ := none

namespace ExpiringKey

variable {α β : Type*}

/-- What is read at a moment. -/
def get (k : ExpiringKey α) (now : ℤ) : Option α :=
  if k.expireAt.any (· < now) then none else k.value

/-- A write that reads what is there, and lives for the span. -/
def write (k : ExpiringKey α) (f : Option α → α) (now span : ℤ) : ExpiringKey α where
  value := some (f (k.get now))
  expireAt := some (now + span)

@[simp] theorem get_empty (now : ℤ) : ({} : ExpiringKey α).get now = none := rfl

theorem get_write (k : ExpiringKey α) (f : Option α → α) (now span t : ℤ) :
    (k.write f now span).get t = if t ≤ now + span then some (f (k.get now)) else none := by
  change (if (some (now + span)).any (· < t) then none else some (f (k.get now))) = _
  by_cases ht : t ≤ now + span
  · simp [ht, not_lt.2 ht]
  · simp [ht, not_le.1 ht]

section Logs

variable (time : β → ℤ) (act : β → Option α → α) (span : ℤ)

/-- The key after the writes of a log. -/
def written : List β → ExpiringKey α
  | [] => {}
  | w :: older => (written older).write (act w) (time w) span

/-- The writes since the last silence. -/
def unbroken : ℤ → List β → List β
  | _, [] => []
  | now, w :: older => if now ≤ time w + span then w :: unbroken (time w) older else []

/-- What the writes leave where nothing expires. -/
def replay : List β → Option α
  | [] => none
  | w :: older => some (act w (replay older))

variable {time act span} {log : List β} {now : ℤ}

theorem foldl_write (l : List β) :
    l.foldl (fun k w => k.write (act w) (time w) span) {} = written time act span l.reverse := by
  induction l using List.reverseRecOn with
  | nil => rfl
  | append_singleton l w ih =>
    rw [List.foldl_concat, ih, List.reverse_concat]
    rfl

theorem foldl_replay (act : β → Option α → α) (l : List β) :
    l.foldl (fun v w => some (act w v)) none = replay act l.reverse := by
  induction l using List.reverseRecOn with
  | nil => rfl
  | append_singleton l w ih =>
    rw [List.foldl_concat, ih, List.reverse_concat]
    rfl

/-- **What is read** is what the writes since the last silence leave. -/
theorem get_written (log : List β) (now : ℤ) :
    (written time act span log).get now = replay act (unbroken time span now log) := by
  induction log generalizing now with
  | nil => rfl
  | cons w older ih =>
    rw [written, get_write, unbroken, ih]
    split
    · rfl
    · rfl

/-- There was no silence longer than the span. -/
def Unbroken (time : β → ℤ) (span : ℤ) : ℤ → List β → Prop
  | _, [] => True
  | now, w :: older => now ≤ time w + span ∧ Unbroken time span (time w) older

theorem unbroken_eq_self_iff : unbroken time span now log = log ↔ Unbroken time span now log := by
  induction log generalizing now with
  | nil => simp [unbroken, Unbroken]
  | cons w older ih =>
    rw [unbroken, Unbroken, ← ih]
    by_cases hlive : now ≤ time w + span
    · simp [hlive]
    · simp [hlive]

/-- A key that is only set anew has the last value, while that lives. -/
theorem get_set {value : β → α} (log : List β) (now : ℤ) :
    (written time (fun w _ => value w) span log).get now =
      (log.head?.filter fun w => now ≤ time w + span).map value := by
  cases log with
  | nil => rfl
  | cons w older =>
    rw [written, get_write]
    by_cases hlive : now ≤ time w + span
    · simp [hlive]
    · simp [hlive, not_le.1 hlive]

end Logs

end ExpiringKey

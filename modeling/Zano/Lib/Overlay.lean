import Mathlib.Data.List.Basic
import Mathlib.Tactic.Common

/-! # A committed value under a stack of nested write overlays

`Overlay σ` is what a transactional store of values `σ` means: the committed value, and one private
copy for each transaction that its single writer has open, innermost first. Opening a transaction
copies the value in view, committing moves a copy one level out, aborting throws a copy away.

Nothing is assumed about `σ`. The library's one law beyond the equations of the operations is
`abort_undoes`: whatever happens inside a transaction, provided the transactions opened inside it
are closed there, aborting it gives back the overlay from before it was opened.
-/

structure Overlay (σ : Type*) where
  committed : σ
  stack : List σ

namespace Overlay

variable {σ : Type*}

/-- What the writer sees: its innermost copy, or the committed value when no transaction is open. -/
def view (o : Overlay σ) : σ := o.stack.headD o.committed

/-- What the writer will see after its innermost transaction is gone. -/
def below (o : Overlay σ) : σ := o.stack.tail.headD o.committed

def begin (o : Overlay σ) : Overlay σ := ⟨o.committed, o.view :: o.stack⟩

/-- A write goes to the innermost copy, and nowhere when no transaction is open. -/
def write (f : σ → σ) : Overlay σ → Overlay σ
  | ⟨committed, []⟩ => ⟨committed, []⟩
  | ⟨committed, top :: rest⟩ => ⟨committed, f top :: rest⟩

def commit : Overlay σ → Overlay σ
  | ⟨committed, []⟩ => ⟨committed, []⟩
  | ⟨_, [top]⟩ => ⟨top, []⟩
  | ⟨committed, top :: _ :: rest⟩ => ⟨committed, top :: rest⟩

def abort (o : Overlay σ) : Overlay σ := ⟨o.committed, o.stack.tail⟩

@[simp]
theorem view_begin (o : Overlay σ) : o.begin.view = o.view := rfl

@[simp]
theorem abort_begin (o : Overlay σ) : o.begin.abort = o := rfl

@[simp]
theorem committed_begin (o : Overlay σ) : o.begin.committed = o.committed := rfl

@[simp]
theorem stack_begin (o : Overlay σ) : o.begin.stack = o.view :: o.stack := rfl

@[simp]
theorem view_abort (o : Overlay σ) : o.abort.view = o.below := rfl

@[simp]
theorem committed_abort (o : Overlay σ) : o.abort.committed = o.committed := rfl

@[simp]
theorem stack_abort (o : Overlay σ) : o.abort.stack = o.stack.tail := rfl

@[simp]
theorem committed_write (f : σ → σ) (o : Overlay σ) : (o.write f).committed = o.committed := by
  rcases o with ⟨committed, _ | ⟨top, rest⟩⟩ <;> rfl

@[simp]
theorem length_write (f : σ → σ) (o : Overlay σ) : (o.write f).stack.length = o.stack.length := by
  rcases o with ⟨committed, _ | ⟨top, rest⟩⟩ <;> rfl

@[simp]
theorem tail_write (f : σ → σ) (o : Overlay σ) : (o.write f).stack.tail = o.stack.tail := by
  rcases o with ⟨committed, _ | ⟨top, rest⟩⟩ <;> rfl

theorem view_write {o : Overlay σ} (opened : o.stack ≠ []) (f : σ → σ) :
    (o.write f).view = f o.view := by
  rcases o with ⟨committed, _ | ⟨top, rest⟩⟩
  · exact absurd rfl opened
  · rfl

@[simp]
theorem view_commit (o : Overlay σ) : o.commit.view = o.view := by
  rcases o with ⟨committed, _ | ⟨top, _ | ⟨second, rest⟩⟩⟩ <;> rfl

@[simp]
theorem length_commit (o : Overlay σ) : o.commit.stack.length = o.stack.length - 1 := by
  rcases o with ⟨committed, _ | ⟨top, _ | ⟨second, rest⟩⟩⟩ <;> rfl

/-- Outside every transaction the writer sees the committed value. -/
theorem view_of_closed {o : Overlay σ} (closed : o.stack = []) : o.view = o.committed := by
  simp [view, closed]

/-- A commit of an inner transaction changes only the copy next to the innermost one. -/
theorem tail_commit_of_nested {o : Overlay σ} (nested : o.stack.tail ≠ []) :
    o.commit.committed = o.committed ∧ o.commit.stack.tail = o.stack.tail.tail := by
  rcases o with ⟨committed, _ | ⟨top, _ | ⟨second, rest⟩⟩⟩
  · exact absurd rfl nested
  · exact absurd rfl nested
  · exact ⟨rfl, rfl⟩

/-! ## Requests and balanced sequences of them -/

inductive Request (σ : Type*) where
  | begin
  | write (f : σ → σ)
  | commit
  | abort

def apply (o : Overlay σ) : Request σ → Overlay σ
  | .begin => o.begin
  | .write f => o.write f
  | .commit => o.commit
  | .abort => o.abort

/-- The requests `rs` close every transaction that they open, and no other. -/
inductive Balanced : List (Request σ) → Prop
  | nil : Balanced []
  | write (f : σ → σ) {rs : List (Request σ)} : Balanced rs → Balanced (.write f :: rs)
  | committed {rs rs' : List (Request σ)} : Balanced rs → Balanced rs' →
      Balanced (.begin :: rs ++ .commit :: rs')
  | aborted {rs rs' : List (Request σ)} : Balanced rs → Balanced rs' →
      Balanced (.begin :: rs ++ .abort :: rs')

theorem Balanced.append {rs rs' : List (Request σ)} (first : Balanced rs) (second : Balanced rs') :
    Balanced (rs ++ rs') := by
  induction first with
  | nil => exact second
  | write f _ inductionHypothesis => exact .write f inductionHypothesis
  | committed inner _ _ rest =>
      simpa only [List.append_assoc, List.cons_append] using Balanced.committed inner rest
  | aborted inner _ _ rest =>
      simpa only [List.append_assoc, List.cons_append] using Balanced.aborted inner rest

/-- Inside an open transaction a balanced sequence touches nothing but the innermost copy. -/
theorem balanced_frame {rs : List (Request σ)} (balanced : Balanced rs) (o : Overlay σ)
    (opened : o.stack ≠ []) :
    (rs.foldl apply o).committed = o.committed ∧
      (rs.foldl apply o).stack.tail = o.stack.tail ∧ (rs.foldl apply o).stack ≠ [] := by
  induction balanced generalizing o with
  | nil => exact ⟨rfl, rfl, opened⟩
  | write f _ inductionHypothesis =>
      have stillOpened : (o.write f).stack ≠ [] := by
        rw [← List.length_pos_iff, length_write]
        exact List.length_pos_iff.mpr opened
      obtain ⟨committed, tail, nonempty⟩ := inductionHypothesis (o.write f) stillOpened
      exact ⟨committed.trans (committed_write f o), tail.trans (tail_write f o), nonempty⟩
  | @committed rs rs' _ _ inner rest =>
      obtain ⟨innerCommitted, innerTail, innerOpened⟩ := inner o.begin (by simp)
      let middle := rs.foldl apply o.begin
      have nested : middle.stack.tail ≠ [] := by
        rw [show middle.stack.tail = o.stack from innerTail]
        exact opened
      have closing := tail_commit_of_nested nested
      have closedOpened : middle.commit.stack ≠ [] := by
        rw [← List.length_pos_iff, length_commit]
        have := List.length_pos_iff.mpr nested
        simp only [List.length_tail] at this
        exact this
      obtain ⟨restCommitted, restTail, restOpened⟩ := rest middle.commit closedOpened
      simp only [List.cons_append, List.foldl_cons, List.foldl_append]
      refine ⟨restCommitted.trans (closing.1.trans innerCommitted), restTail.trans ?_, restOpened⟩
      rw [closing.2, show middle.stack.tail = o.stack from innerTail]
  | @aborted rs rs' _ _ inner rest =>
      obtain ⟨innerCommitted, innerTail, innerOpened⟩ := inner o.begin (by simp)
      have closed : (rs.foldl apply o.begin).abort = o := by
        cases o
        simp only [abort, mk.injEq]
        exact ⟨innerCommitted, innerTail⟩
      have folded : (.begin :: rs ++ .abort :: rs').foldl apply o = rs'.foldl apply o := by
        simp only [List.cons_append, List.foldl_cons, List.foldl_append, apply, closed]
      rw [folded]
      exact rest o opened

/-- Aborting a transaction undoes it: the overlay is the one from before the transaction was opened,
whatever balanced requests were served inside it. -/
theorem abort_undoes {rs : List (Request σ)} (balanced : Balanced rs) (o : Overlay σ) :
    (rs.foldl apply o.begin).abort = o := by
  obtain ⟨committed, tail, -⟩ := balanced_frame balanced o.begin (by simp)
  cases o
  simp only [abort, mk.injEq]
  exact ⟨committed, tail⟩

end Overlay

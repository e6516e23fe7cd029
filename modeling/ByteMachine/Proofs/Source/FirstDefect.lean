import ByteMachine.Source.Error

/-!
# The first defect

A pass over the parts of a program stops at the first part that is wrong, and what is wrong
with a part may depend on the parts before it. `FirstAt` names that part by its place in the
list, and `FreeOf` says that there is none.

Both are said by indices, so that they can be read without knowing in which order a pass goes
about its work; the lemmas about `[]` and `::` turn them into what an induction over the list
needs. The parts in front then move into the defect itself.
-/

namespace ByteMachine

variable {α : Type}

/-- No part has a **defect**. What is a defect of a part may depend on the parts in front of it, as
it does for a label that is declared twice. -/
def FreeOf (defect : List α → α → SourceError.Cause → Prop) (parts : List α) : Prop :=
  ∀ i part, parts[i]? = some part → ∀ cause, ¬ defect (parts.take i) part cause

/-- The part at `i` is the **first** with a defect, for the given cause: it has one, and no part in
front of it has any. -/
def FirstAt (defect : List α → α → SourceError.Cause → Prop) (parts : List α) (i : Nat)
    (cause : SourceError.Cause) : Prop :=
  (∃ part, parts[i]? = some part ∧ defect (parts.take i) part cause) ∧
    ∀ j < i, ∀ part, parts[j]? = some part → ∀ cause, ¬ defect (parts.take j) part cause

variable {defect : List α → α → SourceError.Cause → Prop} {part : α} {parts : List α}
  {cause : SourceError.Cause} {i : Nat}

theorem freeOf_nil : FreeOf defect [] :=
  fun _ _ found => by simp at found

theorem not_firstAt_nil : ¬ FirstAt defect [] i cause :=
  fun ⟨⟨_, found, _⟩, _⟩ => by simp at found

/-- A list is free of defects if its head is, and its tail behind that head. The defects of the tail
are those of parts with the head in front of them. -/
theorem freeOf_cons_iff :
    FreeOf defect (part :: parts) ↔
      (∀ cause, ¬ defect [] part cause) ∧ FreeOf (fun before => defect (part :: before)) parts := by
  constructor
  · intro free
    exact ⟨fun cause => free 0 part rfl cause, fun i next found => free (i + 1) next found⟩
  · rintro ⟨head, tail⟩ i next found
    cases i with
    | zero =>
        cases found
        exact head
    | succ i => exact tail i next found

/-- A list is free of defects if everything in front of its last part is, and then that
part. -/
theorem freeOf_concat_iff :
    FreeOf defect (parts ++ [part]) ↔ FreeOf defect parts ∧ ∀ cause, ¬ defect parts part cause := by
  induction parts generalizing defect with
  | nil =>
      rw [List.nil_append, freeOf_cons_iff]
      exact ⟨fun free => ⟨freeOf_nil, free.1⟩, fun free => ⟨free.2, freeOf_nil⟩⟩
  | cons head parts ih => rw [List.cons_append, freeOf_cons_iff, ih, freeOf_cons_iff, and_assoc]

/-- The head is the first part with a defect exactly if it has one: there is no part in front of
it. -/
theorem firstAt_zero_iff : FirstAt defect (part :: parts) 0 cause ↔ defect [] part cause := by
  constructor
  · rintro ⟨⟨next, found, bad⟩, -⟩
    cases found
    exact bad
  · exact fun bad => ⟨⟨part, rfl, bad⟩, fun j before => absurd before (Nat.not_lt_zero j)⟩

/-- A part of the tail is the first with a defect exactly if the head has none and the part is the
first behind that head. -/
theorem firstAt_succ_iff :
    FirstAt defect (part :: parts) (i + 1) cause ↔
      (∀ cause, ¬ defect [] part cause) ∧
        FirstAt (fun before => defect (part :: before)) parts i cause := by
  constructor
  · rintro ⟨found, earlier⟩
    exact ⟨fun cause => earlier 0 (Nat.succ_pos i) part rfl cause, found,
      fun j before => earlier (j + 1) (Nat.succ_lt_succ before)⟩
  · rintro ⟨head, found, earlier⟩
    refine ⟨found, fun j before => ?_⟩
    cases j with
    | zero =>
        intro next same
        cases same
        exact head
    | succ j => exact earlier j (Nat.lt_of_succ_lt_succ before)

/-- A list is free of defects, or there is a first one. So a pass that stops at the first defect
it meets either goes through or stops at a place that the list alone determines. -/
theorem freeOf_or_firstAt (defect : List α → α → SourceError.Cause → Prop) (parts : List α) :
    FreeOf defect parts ∨ ∃ i cause, FirstAt defect parts i cause := by
  induction parts generalizing defect with
  | nil => exact .inl freeOf_nil
  | cons part parts ih =>
      by_cases head : ∃ cause, defect [] part cause
      · obtain ⟨cause, bad⟩ := head
        exact .inr ⟨0, cause, firstAt_zero_iff.mpr bad⟩
      · have clean := not_exists.mp head
        rcases ih (fun before => defect (part :: before)) with tail | ⟨i, cause, tail⟩
        · exact .inl (freeOf_cons_iff.mpr ⟨clean, tail⟩)
        · exact .inr ⟨i + 1, cause, firstAt_succ_iff.mpr ⟨clean, tail⟩⟩

end ByteMachine

import Mathlib.Data.List.Induction
import Mathlib.Data.List.Nodup
import ByteMachine.Assembly.Pass
import ByteMachine.Proofs.Assembly.Layout
import ByteMachine.Proofs.Source.FirstDefect

/-!
# Placing the labels

The first pass against the layout. A declaration goes wrong in two ways: its name is declared
before, or the table is full, and the first of the two wins. A pass over lines none of which
goes wrong leaves exactly the table of the layout, and its result is the extent of the lines.

Both laws are about the lines that are left at some point of a pass: the invariant is that the
labels of the context are those of the lines `passed` so far, and that the address is their
extent.

## Main results

* `placeLabels_of_freeOf`: a pass without placing defects, with the table that it leaves.
* `placeLabels_of_firstAt`: a pass that meets a placing defect fails for the first one.
* `freeOf_placingDefect_iff`: there is no defect exactly if the names are distinct and fit.
-/

namespace ByteMachine

/-- What is wrong with a **declaration** behind other statements: the name is taken, or there
are as many labels as there may be. -/
inductive PlacingDefect (maxLabels : Int) (before : List Statement) :
    Statement → SourceError.Cause → Prop
  | duplicate {name : Text} : .label name ∈ before →
      PlacingDefect maxLabels before (.label name)
        (.duplicateLabel name ((beforeLabel before name).length + 1))
  | tooMany {name : Text} : .label name ∉ before → maxLabels ≤ (declaredNames before).length →
      PlacingDefect maxLabels before (.label name) (.tooManyLabels maxLabels)

/-- Lines are **numbered** when each has its place in the list, counted from one, as its
number. -/
def Numbered (lines : List Line) : Prop :=
  ∀ (i : Nat) (line : Line), lines[i]? = some line → line.place.lineNum = i + 1

variable {context : Context} {passed lines : List Line}

/-- The table has as many labels as there are declared names, so the limit can be compared with
either. -/
theorem length_labels_of_placements
    (labels : context.labels = placements context.profile 0 passed) :
    context.labels.length = (declaredNames (passed.map Line.statement)).length := by
  rw [labels, ← List.length_map (f := Label.name), map_name_placements]

/-- A declaration without a placing defect is added to the table, at the end. -/
theorem addLabel_of_not_placingDefect {name : Text} {address : Int} {place : Place}
    (labels : context.labels = placements context.profile 0 passed)
    (clean : ∀ cause, ¬ PlacingDefect context.maxLabels (passed.map Line.statement)
      (.label name) cause) :
    context.addLabel name address place =
      .ok { context with labels := context.labels ++ [⟨name, address, place.lineNum⟩] } := by
  have undeclared : Statement.label name ∉ passed.map Line.statement :=
    fun declared => clean _ (.duplicate declared)
  have room : ¬ context.maxLabels ≤ context.labels.length := fun full =>
    clean _ (.tooMany undeclared (length_labels_of_placements labels ▸ full))
  rw [Context.addLabel, Context.label?_of_placements_eq_none labels undeclared]
  exact if_neg room

/-- A declaration with a placing defect is refused for it. A name that is taken counts before a
table that is full. -/
theorem addLabel_of_placingDefect {name : Text} {address : Int} {place : Place}
    {cause : SourceError.Cause} (labels : context.labels = placements context.profile 0 passed)
    (numbered : Numbered passed)
    (defect : PlacingDefect context.maxLabels (passed.map Line.statement) (.label name) cause) :
    context.addLabel name address place = .error (place.reject cause) := by
  cases defect with
  | duplicate declared =>
      obtain ⟨first, found, looked⟩ := Context.label?_of_placements labels declared
      rw [Context.addLabel, looked, ← numbered _ _ found]
  | tooMany undeclared full =>
      rw [Context.addLabel, Context.label?_of_placements_eq_none labels undeclared]
      exact if_pos (length_labels_of_placements labels ▸ full)

/-- One line without a placing defect takes a pass from the table of the lines passed to
that of one line more. -/
theorem placeLabels_cons_of_not_placingDefect {line : Line}
    (labels : context.labels = placements context.profile 0 passed)
    (clean : ∀ cause, ¬ PlacingDefect context.maxLabels (passed.map Line.statement)
      line.statement cause) :
    context.placeLabels (extent context.profile (passed.map Line.statement)) (line :: lines) =
      Context.placeLabels
        { context with labels := placements context.profile 0 (passed ++ [line]) }
        (extent context.profile ((passed ++ [line]).map Line.statement)) lines := by
  have table : placements context.profile 0 (passed ++ [line]) =
      context.labels ++ (line.statement.label?.map fun name => ⟨name,
        extent context.profile (passed.map Line.statement), line.place.lineNum⟩).toList := by
    rw [placements_append, labels, placements, placements, List.append_nil, Nat.zero_add]
  have behind : extent context.profile ((passed ++ [line]).map Line.statement) =
      extent context.profile (passed.map Line.statement) + line.statement.size context.profile := by
    rw [List.map_append, extent_append]
    rfl
  rw [table, behind, Context.placeLabels]
  cases said : line.statement with
  | blank => simp [Statement.label?, Statement.size]
  | instruction word tokens =>
      simp only [Statement.label?, Context.sizeOf_instruction, Option.map_none, Option.toList_none,
        List.append_nil]
  | label name =>
      rw [said] at clean
      simp only [addLabel_of_not_placingDefect labels clean]
      rfl

/-- A pass without placing defects leaves the **table** of the layout. Its result is the extent
of the lines. -/
theorem placeLabels_of_freeOf
    (labels : context.labels = placements context.profile 0 passed)
    (free : FreeOf (fun before => PlacingDefect context.maxLabels
      (passed.map Line.statement ++ before)) (lines.map Line.statement)) :
    context.placeLabels (extent context.profile (passed.map Line.statement)) lines =
      ({ context with labels := placements context.profile 0 (passed ++ lines) },
        .ok (extent context.profile ((passed ++ lines).map Line.statement))) := by
  -- Each step moves one line from `lines` to the end of `passed`.
  induction lines generalizing context passed with
  | nil =>
      rw [List.append_nil, ← labels]
      rfl
  | cons line lines ih =>
      rw [List.map_cons, freeOf_cons_iff, List.append_nil] at free
      obtain ⟨head, tail⟩ := free
      rw [placeLabels_cons_of_not_placingDefect labels head]
      have rest := @ih { context with labels := placements context.profile 0 (passed ++ [line]) }
        (passed ++ [line]) rfl (by simpa using tail)
      rw [List.append_assoc, List.singleton_append] at rest
      exact rest

/-- A pass that meets a placing defect **fails** for the first one, and keeps the labels in front of
it. -/
theorem placeLabels_of_firstAt {i : Nat} {cause : SourceError.Cause}
    (labels : context.labels = placements context.profile 0 passed)
    (numbered : Numbered (passed ++ lines))
    (bad : FirstAt (fun before => PlacingDefect context.maxLabels
      (passed.map Line.statement ++ before)) (lines.map Line.statement) i cause) :
    ∃ line, lines[i]? = some line ∧
      (context.placeLabels (extent context.profile (passed.map Line.statement)) lines).2 =
        .error (line.place.reject cause) := by
  induction lines generalizing context passed i with
  | nil => exact absurd bad not_firstAt_nil
  | cons line lines ih =>
      rw [List.map_cons] at bad
      cases i with
      | zero =>
          rw [firstAt_zero_iff, List.append_nil] at bad
          refine ⟨line, rfl, ?_⟩
          cases said : line.statement with
          | label name =>
              rw [said] at bad
              have front : Numbered passed := fun j line found =>
                numbered j line (by
                  rw [List.getElem?_append_left (List.getElem?_eq_some_iff.mp found).1, found])
              simp only [Context.placeLabels, said, addLabel_of_placingDefect labels front bad]
          | blank => rw [said] at bad; cases bad
          | instruction _ _ => rw [said] at bad; cases bad
      | succ i =>
          obtain ⟨head, tail⟩ := firstAt_succ_iff.mp bad
          rw [List.append_nil] at head
          rw [placeLabels_cons_of_not_placingDefect labels head]
          exact @ih { context with labels := placements context.profile 0 (passed ++ [line]) }
            (passed ++ [line]) i rfl (by simpa using numbered) (by simpa using tail)

/-! ### Lines without placing defects -/

/-- A declaration behind others has no placing defect exactly if its name is new and there
is room for one more label. -/
theorem not_placingDefect_label_iff {maxLabels : Int} {before : List Statement} {name : Text} :
    (∀ cause, ¬ PlacingDefect maxLabels before (.label name) cause) ↔
      name ∉ declaredNames before ∧ (declaredNames before).length < maxLabels := by
  rw [mem_declaredNames_iff]
  constructor
  · intro clean
    have undeclared : .label name ∉ before := fun declared => clean _ (.duplicate declared)
    exact ⟨undeclared, Int.not_le.mp fun full => clean _ (.tooMany undeclared full)⟩
  · rintro ⟨undeclared, room⟩ cause defect
    cases defect with
    | duplicate declared => exact undeclared declared
    | tooMany _ full => exact absurd room (Int.not_lt.mpr full)

/-- No declaration has a placing defect exactly if the declared names are **distinct** and not
more than there may be. -/
theorem freeOf_placingDefect_iff {maxLabels : Int} {source : List Statement} :
    FreeOf (PlacingDefect maxLabels) source ↔
      (declaredNames source).Nodup ∧ (declaredNames source).length ≤ max maxLabels 0 := by
  induction source using List.reverseRecOn with
  | nil => exact ⟨fun _ => ⟨List.nodup_nil, Int.le_max_right _ _⟩, fun _ => freeOf_nil⟩
  | append_singleton source statement ih =>
      rw [freeOf_concat_iff, ih, declaredNames_append]
      cases statement with
      | blank =>
          have same : declaredNames [.blank] = [] := rfl
          rw [same, List.append_nil]
          exact ⟨And.left, fun free => ⟨free, fun _ => nofun⟩⟩
      | instruction word tokens =>
          have same : declaredNames [.instruction word tokens] = [] := rfl
          rw [same, List.append_nil]
          exact ⟨And.left, fun free => ⟨free, fun _ => nofun⟩⟩
      | label name =>
          have same : declaredNames [.label name] = [name] := rfl
          rw [not_placingDefect_label_iff, same, List.nodup_append_comm, List.singleton_append,
            List.nodup_cons, List.length_append, List.length_singleton]
          constructor
          · rintro ⟨⟨distinct, -⟩, new, room⟩
            exact ⟨⟨new, distinct⟩, by omega⟩
          · rintro ⟨⟨new, distinct⟩, room⟩
            exact ⟨⟨distinct, by omega⟩, new, by omega⟩

end ByteMachine

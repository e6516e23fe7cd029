import ByteMachine.Proofs.Source.Statement
import Mathlib.Data.List.InsertIdx
import Mathlib.Data.List.TakeWhile

/-!
# Spacing and comments

What may be changed in a program text that no reader of it should notice: the blanks around a
line, the comment behind it, and lines that hold neither an instruction nor a label. A
`LineEdit` changes one line, an `Edit` changes one of the lines or inserts one, and no edit
brings in a line feed.

Such an edit leaves the code of every line alone. What it does change is where the lines stand:
`Edit.renumber` is the new number of a line, and `Respaced` relates two texts that have the same
code on corresponding lines and none on the lines in between. Texts that are related in this
way can be compared line by line, without a word about how one came from the other.

## Main results

* `LineEdit.codeOf_apply`: the code of a line survives every harmless edit of it.
* `respaced_edits`: a text and what harmless edits make of it are respaced, and the numbers of
  its lines move with them.
* `Text.lines_applyToText`: the lines of an edited text are the edited lines.
-/

namespace ByteMachine

/-! ### The code of a line -/

/-- The text is **spacing**: it holds blanks only. Blanks are all characters that are trimmed, and
so a line feed is one of them. -/
def IsSpacing (text : Text) : Prop :=
  ∀ c ∈ text, isBlank c = true

/-- The line is **idle**: it is blank, or a comment that has at most blanks in front. Such a line is
read as no statement at all. -/
inductive IsIdle : Text → Prop
  | spacing {blanks : Text} : IsSpacing blanks → IsIdle blanks
  | comment {blanks text : Text} : IsSpacing blanks → IsIdle (blanks ++ ';' :: text)

variable {blanks text : Text}

theorem IsSpacing.ne_semicolon (spacing : IsSpacing blanks) {c : Char} (inside : c ∈ blanks) :
    c ≠ ';' := by
  rintro rfl
  have blank := spacing ';' inside
  exact absurd blank (by decide)

/-- Trimming takes away spacing in front of a text, whatever the text begins with. -/
theorem IsSpacing.trim_append (spacing : IsSpacing blanks) (text : Text) :
    Text.trim (blanks ++ text) = Text.trim text := by
  have front : Text.trimStart (blanks ++ text) = Text.trimStart text :=
    List.dropWhile_append_of_pos spacing
  rw [Text.trim, front, Text.trim]

/-- Trimming the end takes away spacing there, whatever the text in front ends with. -/
theorem IsSpacing.trimEnd_append (spacing : IsSpacing blanks) (text : Text) :
    Text.trimEnd (text ++ blanks) = Text.trimEnd text := by
  have front : ∀ c ∈ blanks.reverse, isBlank c = true := fun c inside =>
    spacing c (List.mem_reverse.mp inside)
  rw [Text.trimEnd, List.reverse_append, List.dropWhile_append_of_pos front, Text.trimEnd]

/-- Trimming takes away spacing at the end. If the text in front is blank itself, nothing is left of
both. -/
theorem IsSpacing.trim_append_left (spacing : IsSpacing blanks) (text : Text) :
    Text.trim (text ++ blanks) = Text.trim text := by
  rw [Text.trim, Text.trimStart, List.dropWhile_append]
  -- If nothing but blanks stands in front, they are all trimmed from the start.
  split
  next empty =>
    have front : Text.trimStart text = [] := List.isEmpty_iff.mp empty
    have back : blanks.dropWhile isBlank = [] := List.dropWhile_eq_nil_iff.mpr spacing
    rw [back, Text.trim, front]
  next => exact spacing.trimEnd_append _

/-- What stands in front of the first semicolon does not depend on anything behind a semicolon. -/
theorem takeWhile_append_comment (text comment : Text) :
    (text ++ ';' :: comment).takeWhile (· ≠ ';') = text.takeWhile (· ≠ ';') := by
  rw [List.takeWhile_append]
  split
  next whole =>
    have same : text.takeWhile (· ≠ ';') = text :=
      (List.takeWhile_prefix _).eq_of_length whole
    rw [List.takeWhile_cons_of_neg (by decide), List.append_nil, same]
  next => rfl

/-- The code of a line with a comment behind it is the code of the line, also where the line has a
comment already. -/
theorem codeOf_append_comment (text comment : Text) :
    codeOf (text ++ ';' :: comment) = codeOf text := by
  rw [codeOf, takeWhile_append_comment, codeOf]

/-- The code of a line with spacing in front is the code of the line: spacing holds no semicolon,
and it is trimmed. -/
theorem IsSpacing.codeOf_append (spacing : IsSpacing blanks) (text : Text) :
    codeOf (blanks ++ text) = codeOf text := by
  have free : ∀ c ∈ blanks, decide (c ≠ ';') = true := fun c inside =>
    decide_eq_true (spacing.ne_semicolon inside)
  rw [codeOf, List.takeWhile_append_of_pos free, spacing.trim_append, codeOf]

/-- The code of a line with spacing behind it is the code of the line. The spacing is part of a
comment, or it is trimmed. -/
theorem IsSpacing.codeOf_append_left (spacing : IsSpacing blanks) (text : Text) :
    codeOf (text ++ blanks) = codeOf text := by
  have free : blanks.takeWhile (· ≠ ';') = blanks :=
    List.takeWhile_eq_self_iff.mpr fun c inside => decide_eq_true (spacing.ne_semicolon inside)
  rw [codeOf, List.takeWhile_append]
  split
  next whole =>
    have same : text.takeWhile (· ≠ ';') = text :=
      (List.takeWhile_prefix _).eq_of_length whole
    rw [free, spacing.trim_append_left, codeOf, same]
  next => rw [codeOf]

/-- An idle line has no code: nothing is left of it when its comment is cut off and the blanks are
trimmed. -/
theorem IsIdle.codeOf_eq_nil {line : Text} (idle : IsIdle line) : codeOf line = [] := by
  have bare {blanks : Text} (spacing : IsSpacing blanks) : codeOf blanks = [] := by
    have same := spacing.codeOf_append []
    rw [List.append_nil] at same
    rw [same]
    rfl
  cases idle with
  | spacing spacing => exact bare spacing
  | comment spacing => rw [codeOf_append_comment, bare spacing]

/-! ### Edits -/

/-- An **edit of a line**, as a harmless change of its spacing or of its comment would make it. -/
inductive LineEdit
  /-- Puts blanks in front. -/
  | indent (blanks : Text)
  /-- Puts blanks behind. -/
  | trail (blanks : Text)
  /-- Appends a semicolon and a text. -/
  | annotate (comment : Text)
  /-- Replaces what stands behind the first semicolon, if there is one. -/
  | recomment (comment : Text)
  deriving DecidableEq, Repr

namespace LineEdit

/-- The lines that an edit makes of lines. The other lines stay as they are, and move by one at
most. -/
def apply : LineEdit → Text → Text
  | indent blanks, text => blanks ++ text
  | trail blanks, text => text ++ blanks
  | annotate comment, text => text ++ ';' :: comment
  | recomment comment, text =>
    if ';' ∈ text then text.takeWhile (· ≠ ';') ++ ';' :: comment else text

/-- The edit is **harmless**: it brings in no line feed, and blanks where it says so. -/
inductive Harmless : LineEdit → Prop
  | indent {blanks : Text} : IsSpacing blanks → '\n' ∉ blanks → Harmless (.indent blanks)
  | trail {blanks : Text} : IsSpacing blanks → '\n' ∉ blanks → Harmless (.trail blanks)
  | annotate {comment : Text} : '\n' ∉ comment → Harmless (.annotate comment)
  | recomment {comment : Text} : '\n' ∉ comment → Harmless (.recomment comment)

/-- A harmless edit of a line does not change its **code**. This is all that the assembler reads of
a line. -/
theorem codeOf_apply {edit : LineEdit} (harmless : edit.Harmless) (text : Text) :
    codeOf (edit.apply text) = codeOf text := by
  cases harmless with
  | indent spacing _ => exact spacing.codeOf_append text
  | trail spacing _ => exact spacing.codeOf_append_left text
  | annotate _ => exact codeOf_append_comment text _
  | recomment _ =>
      rw [apply]
      split
      · rw [codeOf_append_comment, codeOf, List.takeWhile_idem, codeOf]
      · rfl

/-- A harmless edit of a line keeps it one line: it brings in no line feed. -/
theorem newline_notMem_apply {edit : LineEdit} (harmless : edit.Harmless)
    (whole : '\n' ∉ text) : '\n' ∉ edit.apply text := by
  have behind {comment : Text} (free : '\n' ∉ comment) : '\n' ∉ ';' :: comment :=
    List.not_mem_cons_of_ne_of_not_mem (by decide) free
  cases harmless with
  | indent _ free => exact List.not_mem_append free whole
  | trail _ free => exact List.not_mem_append whole free
  | annotate free => exact List.not_mem_append whole (behind free)
  | recomment free =>
      rw [apply]
      split
      · have front : '\n' ∉ text.takeWhile (· ≠ ';') := fun inside =>
          whole ((List.takeWhile_sublist _).subset inside)
        exact List.not_mem_append front (behind free)
      · exact whole

end LineEdit

/-- An **edit** of a program text, by the index of a line. An index behind the last line changes
nothing. -/
inductive Edit
  /-- Changes the line. -/
  | change (i : Nat) (edit : LineEdit)
  /-- Inserts a line in front of the line, or behind the last one. -/
  | insert (i : Nat) (line : Text)
  deriving DecidableEq, Repr

namespace Edit

/-- The lines that an edit makes of lines. The other lines stay, and move at most. -/
def apply : Edit → List Text → List Text
  | change i edit, texts => texts.modify i edit.apply
  | insert i line, texts => texts.insertIdx i line

/-- The edit is **harmless**: what it does to a line is, and a line that it inserts is idle. -/
inductive Harmless : Edit → Prop
  | change {i : Nat} {edit : LineEdit} : edit.Harmless → Harmless (.change i edit)
  | insert {i : Nat} {line : Text} : IsIdle line → '\n' ∉ line → Harmless (.insert i line)

/-- The number behind an edit of the line that had the number `n` in front of it. Lines behind an
inserted line move by one. -/
def renumber : Edit → Int → Int
  | change _ _, n => n
  | insert i _, n => if i < n then n + 1 else n

/-- The lines that edits make of lines, one edit after the other: each of them finds the lines that
those before it have left. -/
def applyAll (edits : List Edit) (texts : List Text) : List Text :=
  edits.foldl (fun texts edit => edit.apply texts) texts

/-- The number behind all edits of the line that had the number `n` in front of them. -/
def renumberAll (edits : List Edit) (n : Int) : Int :=
  edits.foldl (fun n edit => edit.renumber n) n

theorem renumber_bounds (edit : Edit) (n : Int) :
    n ≤ edit.renumber n ∧ edit.renumber n ≤ n + 1 := by
  cases edit with
  | change i edit => exact ⟨Int.le_refl n, Int.le_add_one (Int.le_refl n)⟩
  | insert i line =>
      rw [renumber]
      split <;> omega

/-- A line moves by no more lines than there are edits, and never towards the beginning of the
text. -/
theorem renumberAll_bounds (edits : List Edit) (n : Int) :
    n ≤ renumberAll edits n ∧ renumberAll edits n ≤ n + edits.length := by
  induction edits generalizing n with
  | nil => exact ⟨Int.le_refl n, Int.le_add_of_nonneg_right (Int.natCast_nonneg _)⟩
  | cons edit edits ih =>
      have step := edit.renumber_bounds n
      have rest := ih (edit.renumber n)
      have all : renumberAll (edit :: edits) n = renumberAll edits (edit.renumber n) := rfl
      rw [all, List.length_cons]
      omega

/-- A program text with edits made to its lines. The edited lines are put together with line feeds
again. -/
def applyToText (edits : List Edit) (source : Text) : Text :=
  Text.unlines (applyAll edits (Text.lines source))

end Edit

/-! ### Texts with the same code -/

/-- The lines `second`, numbered from `m` on, are the lines `first`, numbered from `n` on, with
**other spacing**: corresponding lines have the same code and numbers that correspond, and the
lines in between have no code. -/
inductive Respaced (shift : Int → Int) : Int → List Text → Int → List Text → Prop
  | nil {n m : Int} : Respaced shift n [] m []
  | same {n m : Int} {text other : Text} {first second : List Text} : m = shift n →
      codeOf other = codeOf text → Respaced shift (n + 1) first (m + 1) second →
      Respaced shift n (text :: first) m (other :: second)
  | inserted {n m : Int} {line : Text} {first second : List Text} : codeOf line = [] →
      Respaced shift n first (m + 1) second → Respaced shift n first m (line :: second)

variable {n m : Int} {first second texts : List Text}

/-- Texts that are respaced twice are respaced. The numbers of the lines move by the one shift and
then by the other. -/
theorem Respaced.trans {shift again : Int → Int} {k : Int} {third : List Text}
    (respaced : Respaced shift n first m second) (further : Respaced again m second k third) :
    Respaced (fun n => again (shift n)) n first k third := by
  induction further generalizing n first with
  | nil =>
      cases respaced
      exact .nil
  | same number code _ ih =>
      cases respaced with
      | same before same rest =>
          subst before
          exact .same number (code.trans same) (ih rest)
      | inserted idle rest => exact .inserted (code.trans idle) (ih rest)
  | inserted idle _ ih => exact .inserted idle (ih respaced)

/-- Lines that all move by the same number of lines are respaced, if the shift does so from their
first number on. -/
theorem respaced_of_shift {shift : Int → Int} {d : Int} (moves : ∀ k, n ≤ k → shift k = k + d) :
    Respaced shift n texts (n + d) texts := by
  induction texts generalizing n with
  | nil => exact .nil
  | cons text texts ih =>
      have rest := @ih (n + 1) fun k behind => moves k (by omega)
      rw [Int.add_right_comm] at rest
      exact .same (moves n (Int.le_refl n)).symm rfl rest

/-- Lines are respaced when nothing is done to them, and no number moves. -/
theorem respaced_self (n : Int) (texts : List Text) : Respaced (fun k => k) n texts n texts := by
  have still : Respaced (fun k => k) n texts (n + 0) texts :=
    respaced_of_shift fun k _ => (Int.add_zero k).symm
  rwa [Int.add_zero] at still

/-- Lines one of which is changed are respaced: the changed line has the same code, and no number
moves. -/
theorem respaced_modify {edit : LineEdit} (harmless : edit.Harmless) (i : Nat) :
    Respaced (fun k => k) n texts n (texts.modify i edit.apply) := by
  induction texts generalizing n i with
  | nil =>
      rw [List.modify_nil]
      exact .nil
  | cons text texts ih =>
      cases i with
      | zero =>
          rw [List.modify_zero_cons]
          exact .same rfl (LineEdit.codeOf_apply harmless text) (respaced_self (n + 1) texts)
      | succ i =>
          rw [List.modify_succ_cons]
          exact .same rfl rfl (ih i)

/-- Lines with an idle line inserted are respaced. The lines behind it move by one, and those in
front of it stay. -/
theorem respaced_insertIdx {line : Text} (idle : IsIdle line) (i : Nat) :
    Respaced (fun k => if n + i ≤ k then k + 1 else k) n texts n (texts.insertIdx i line) := by
  induction texts generalizing n i with
  | nil =>
      cases i with
      | zero => exact .inserted idle.codeOf_eq_nil .nil
      | succ i => exact .nil
  | cons text texts ih =>
      cases i with
      | zero =>
          rw [List.insertIdx_zero]
          refine .inserted idle.codeOf_eq_nil (respaced_of_shift fun k behind => ?_)
          exact if_pos (by omega)
      | succ i =>
          have next : n + ((i + 1 : Nat) : Int) = n + 1 + i := by omega
          have stays : ¬ n + 1 + (i : Int) ≤ n := by omega
          rw [List.insertIdx_succ_cons, next]
          exact .same (if_neg stays).symm rfl (ih i)

/-- A text and what one harmless edit makes of it are respaced, under the shift of that edit. -/
theorem respaced_edit {edit : Edit} (harmless : edit.Harmless) (texts : List Text) :
    Respaced edit.renumber 1 texts 1 (edit.apply texts) := by
  cases harmless with
  | change harmless => exact respaced_modify harmless _
  | @insert i line idle _ =>
      have same : (Edit.insert i line).renumber =
          fun k => if 1 + (i : Int) ≤ k then k + 1 else k := by
        funext k
        rw [Edit.renumber]
        exact if_congr (by omega) rfl rfl
      rw [same]
      exact respaced_insertIdx idle i

/-- A text and what harmless **edits** make of it are respaced. The shift is that of the edits, one
after the other. -/
theorem respaced_edits {edits : List Edit} (harmless : ∀ edit ∈ edits, edit.Harmless)
    (texts : List Text) :
    Respaced (Edit.renumberAll edits) 1 texts 1 (Edit.applyAll edits texts) := by
  induction edits generalizing texts with
  | nil => exact respaced_self 1 texts
  | cons edit edits ih =>
      obtain ⟨head, tail⟩ := List.forall_mem_cons.mp harmless
      exact (respaced_edit head texts).trans (ih tail _)

/-! ### Lines of edited texts -/

/-- A line of a text holds no line feed: line feeds are where the text is cut. -/
theorem Text.newline_notMem_of_mem_lines {line : Text} (inside : line ∈ lines text) :
    '\n' ∉ line := by
  induction text generalizing line with
  | nil =>
      rw [lines, List.splitOn_nil, List.mem_singleton] at inside
      rw [inside]
      exact List.not_mem_nil
  | cons c text ih =>
      have step : lines (c :: text) =
          if (c == '\n') = true then [] :: lines text else (lines text).modifyHead (c :: ·) :=
        List.splitOn_cons_eq_if_modifyHead c text
      rw [step] at inside
      split at inside
      · rcases List.mem_cons.mp inside with rfl | inside
        · exact List.not_mem_nil
        · exact ih inside
      · rename_i other
        -- The character goes in front of the first line of the rest.
        obtain ⟨head, tail, cut⟩ : ∃ head tail, lines text = head :: tail :=
          List.exists_cons_of_ne_nil (List.splitOn_ne_nil _ _)
        rw [cut, List.modifyHead_cons] at inside
        rcases List.mem_cons.mp inside with rfl | inside
        · have free : '\n' ∉ head := ih (cut ▸ List.mem_cons_self)
          have differs : '\n' ≠ c := fun same => other (beq_iff_eq.mpr same.symm)
          exact List.not_mem_cons_of_ne_of_not_mem differs free
        · exact ih (cut ▸ List.mem_cons_of_mem head inside)

/-- Lines stay lines when a harmless edit is made to them, so that putting them together and cutting
them again gives them back. -/
theorem Edit.lines_apply {edit : Edit} (harmless : edit.Harmless)
    (whole : ∀ line ∈ texts, '\n' ∉ line) : ∀ line ∈ edit.apply texts, '\n' ∉ line := by
  cases harmless with
  | change harmless =>
      intro line inside
      obtain ⟨j, found⟩ := List.mem_iff_getElem?.mp inside
      rw [apply, List.getElem?_modify, Option.map_eq_map, Option.map_eq_some_iff] at found
      obtain ⟨text, stands, rfl⟩ := found
      have before := whole text (List.mem_of_getElem? stands)
      split
      · exact LineEdit.newline_notMem_apply harmless before
      · exact before
  | insert _ free =>
      intro line inside
      rcases List.eq_or_mem_of_mem_insertIdx inside with rfl | inside
      · exact free
      · exact whole line inside

theorem Edit.apply_ne_nil (edit : Edit) (some : texts ≠ []) : edit.apply texts ≠ [] := by
  have long := List.length_pos_iff.mpr some
  apply List.length_pos_iff.mp
  cases edit with
  | change i edit =>
      rw [apply, List.length_modify]
      exact long
  | insert i line =>
      rw [apply, List.length_insertIdx]
      split <;> omega

/-- The **lines of an edited text** are its lines with the edits made to them. So the lines of the
texts can be compared in place of the texts. -/
theorem Text.lines_applyToText {edits : List Edit} (harmless : ∀ edit ∈ edits, edit.Harmless)
    (source : Text) :
    lines (Edit.applyToText edits source) = Edit.applyAll edits (lines source) := by
  have kept : ∀ texts : List Text, (∀ line ∈ texts, '\n' ∉ line) → texts ≠ [] →
      (∀ line ∈ Edit.applyAll edits texts, '\n' ∉ line) ∧ Edit.applyAll edits texts ≠ [] := by
    induction edits with
    | nil => exact fun texts whole some => ⟨whole, some⟩
    | cons edit edits ih =>
        intro texts whole some
        obtain ⟨head, tail⟩ := List.forall_mem_cons.mp harmless
        exact ih tail _ (Edit.lines_apply head whole) (edit.apply_ne_nil some)
  obtain ⟨whole, some⟩ := kept (lines source)
    (fun line inside => newline_notMem_of_mem_lines inside) (List.splitOn_ne_nil _ _)
  exact List.splitOn_intercalate _ whole some

end ByteMachine

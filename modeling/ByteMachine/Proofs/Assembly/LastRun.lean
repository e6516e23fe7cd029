import ByteMachine.Assembly.Session
import ByteMachine.Proofs.Assembly.InPlace

/-!
# An assembler remembers its last assembly

An assembler is made once and asked for many assemblies. Three of its fields are its settings, which
nothing that is asked of it changes; the fourth is the context of the last assembly. The context is
given up before a program text is even read, and a new one is kept when both passes are through. So
what an assembler was asked before has no say in how the next assembly ends, and what it shows
afterwards is what that assembly has left: all of it, or nothing at all.

## Main results

* `SameSettings.behind`: the settings are the same behind any history.
* `SameSettings.perform_assemble`: assemblers with the same settings assemble alike.
* `behind_eq`: an assembler with a history is one that has done its last assembly only.
* `remembers_last_run`: both of these, and what is shown.
-/

namespace ByteMachine.Assembler

/-- Two assemblers have the **same settings**, whatever they assembled last: the profile and the two
limits. -/
structure SameSettings (first second : Assembler) : Prop where
  profile_eq : second.profile = first.profile
  maxLabels_eq : second.maxLabels = first.maxLabels
  maxProgramSize_eq : second.maxProgramSize = first.maxProgramSize

/-- The assembler **behind** a history of actions, whether they have failed or not. -/
def behind (assembler : Assembler) : List Action → Assembler
  | [] => assembler
  | action :: history => (assembler.perform action).assembler.behind history

/-- The program text that an action assembles. Looking at the assembler assembles none. -/
def Action.source? : Action → Option Text
  | assemble source => some source
  | _ => none

/-- The **last** program text that a history assembles, with or without success, if it assembles
any. -/
def lastSource? : List Action → Option Text
  | [] => none
  | action :: history => (lastSource? history).or action.source?

/-- The answer for a result: the image, or the failure. -/
def Answer.ofResult : Except Failure (List UInt8) → Answer
  | .ok bytes => .image bytes
  | .error failure => .failed failure

/-- An assembler **shows nothing**: it has no context, no image, no labels and no listing. -/
structure ShowsNothing (assembler : Assembler) : Prop where
  context : assembler.context = none
  image : assembler.image = []
  labels : assembler.labels = []
  listing : assembler.listingText = []

variable {first second assembler : Assembler}

/-! ### One assembly -/

theorem SameSettings.refl (assembler : Assembler) : assembler.SameSettings assembler :=
  ⟨rfl, rfl, rfl⟩

/-- An assembly, however it ends, leaves the assembler of its run behind. -/
theorem assembler_perform_assemble (assembler : Assembler) (source : Text) :
    (assembler.perform (.assemble source)).assembler = (assembler.run source).1 := by
  simp only [perform]
  split <;> rfl

theorem SameSettings.perform (same : first.SameSettings second) (action : Action) :
    first.SameSettings (second.perform action).assembler := by
  obtain ⟨profile, maxLabels, maxProgramSize⟩ := same
  cases action with
  | assemble source =>
      rw [assembler_perform_assemble]
      exact ⟨profile, maxLabels, maxProgramSize⟩
  | _ => exact ⟨profile, maxLabels, maxProgramSize⟩

/-- Assemblers with the same settings run alike, and both end up as the same assembler. So nothing
of earlier runs is left. -/
theorem SameSettings.run_eq (same : first.SameSettings second) (source : Text) :
    second.run source = first.run source := by
  obtain ⟨profile, maxLabels, maxProgramSize⟩ := same
  simp only [run, profile, maxLabels, maxProgramSize]

/-- Assemblers with the same settings **assemble** alike: the answer, the log and the assembler
behind it are the same. -/
theorem SameSettings.perform_assemble (same : first.SameSettings second) (source : Text) :
    second.perform (.assemble source) = first.perform (.assemble source) := by
  simp only [Assembler.perform, same.run_eq]

theorem assembleInPlace_perform (assembler : Assembler) (source : Text) :
    (assembler.perform (.assemble source)).answer =
        .ofResult ((assembleInPlace source).on assembler).1 ∧
      (assembler.perform (.assemble source)).assembler =
        ((assembleInPlace source).on assembler).2 := by
  rw [assembleInPlace_on, assembler_perform_assemble, perform]
  cases result : (assembler.run source).2.result with
  | ok context => simp [result, Except.map, Answer.ofResult]
  | error failure => simp [result, Except.map, Answer.ofResult]

/-- An assembler without a context shows nothing, since all that it shows is read from there. -/
theorem showsNothing_of_context (gone : assembler.context = none) : assembler.ShowsNothing := by
  refine ⟨gone, ?_, ?_, ?_⟩
  · rw [image, gone]
  · rw [labels, gone]
  · rw [listingText, gone]

/-- Behind an assembly that is answered by an image, there is a context with that image. -/
theorem exists_context_of_image {source : Text} {bytes : List UInt8}
    (answered : (assembler.perform (.assemble source)).answer = .image bytes) :
    ∃ context, (assembler.perform (.assemble source)).assembler.context = some context ∧
      context.program = bytes ∧
      (assemble assembler.profile source assembler.maxLabels assembler.maxProgramSize).result =
        .ok context := by
  rw [Assembler.perform, run] at answered ⊢
  cases result : (assemble assembler.profile source assembler.maxLabels
      assembler.maxProgramSize).result with
  | ok context =>
      simp only [result] at answered ⊢
      cases answered
      exact ⟨context, rfl, rfl, rfl⟩
  | error failure =>
      simp only [result] at answered
      cases answered

/-- Behind an assembly that fails, nothing is shown, not even of an earlier success. -/
theorem showsNothing_of_failed {source : Text} {failure : Failure}
    (failed : (assembler.perform (.assemble source)).answer = .failed failure) :
    (assembler.perform (.assemble source)).assembler.ShowsNothing := by
  refine showsNothing_of_context ?_
  rw [Assembler.perform, run] at failed ⊢
  cases result : (assemble assembler.profile source assembler.maxLabels
      assembler.maxProgramSize).result with
  | ok context =>
      simp only [result] at failed
      cases failed
  | error other =>
      simp only [result]
      rfl

/-! ### Histories -/

/-- No history changes the settings of an assembler, by induction on its actions: none of them can
set a profile or a limit. -/
theorem SameSettings.behind (same : first.SameSettings second) (history : List Action) :
    first.SameSettings (second.behind history) := by
  induction history generalizing second with
  | nil => exact same
  | cons action history ih => exact ih (same.perform action)

/-- An assembler with a history is one that has done the **last** assembly of it and nothing else.
All earlier ones are given up when the last begins. -/
theorem behind_eq (assembler : Assembler) (history : List Action) :
    assembler.behind history =
      match lastSource? history with
      | some source => (assembler.perform (.assemble source)).assembler
      | none => assembler := by
  induction history generalizing assembler with
  | nil => rfl
  | cons action history ih =>
      rw [behind, ih, lastSource?]
      cases lastSource? history with
      | some source =>
          -- What the first action does is undone by the assembly that comes later.
          have same := (SameSettings.refl assembler).perform action
          exact congrArg Reply.assembler (same.perform_assemble source)
      | none => cases action <;> rfl

/-- An assembler **remembers its last assembly** and nothing else. Whatever it was asked before,
an assembly comes to what it comes to with an assembler that was made for the purpose: the same
answer, the same log, the same assembler behind it, also where one context is changed line by
line. The answer is an image or a failure. Behind an image, there is a context and the image is
that of the context; behind a failure, nothing is shown. And whatever is asked later, the
assembler is as it was behind the last assembly. -/
theorem remembers_last_run (profile : Profile) (maxLabels maxProgramSize : Int)
    (history : List Action) (source : Text) :
    let fresh : Assembler := { profile, maxLabels, maxProgramSize }
    let used := fresh.behind history
    let reply := used.perform (.assemble source)
    reply = fresh.perform (.assemble source) ∧
      reply.answer = .ofResult ((assembleInPlace source).on used).1 ∧
      reply.assembler = ((assembleInPlace source).on used).2 ∧
      ((∃ bytes, reply.answer = .image bytes) ∨ ∃ failure, reply.answer = .failed failure) ∧
      (∀ bytes, reply.answer = .image bytes →
        reply.assembler.image = bytes ∧ ∃ context, reply.assembler.context = some context ∧
          (assemble profile source maxLabels maxProgramSize).result = .ok context ∧
          reply.assembler.labels = context.labels.map (fun label => (label.name, label.address)) ∧
          reply.assembler.listingText = context.listingText) ∧
      (∀ failure, reply.answer = .failed failure → reply.assembler.ShowsNothing) ∧
      used = match lastSource? history with
        | some last => (fresh.perform (.assemble last)).assembler
        | none => fresh := by
  intro fresh used reply
  have same : fresh.SameSettings used := (SameSettings.refl fresh).behind history
  have alike : reply = fresh.perform (.assemble source) := same.perform_assemble source
  obtain ⟨answered, left⟩ := assembleInPlace_perform used source
  refine ⟨alike, answered, left, ?_, ?_, fun _ => showsNothing_of_failed, behind_eq fresh history⟩
  · rw [answered]
    cases ((assembleInPlace source).on used).1 with
    | ok bytes => exact .inl ⟨bytes, rfl⟩
    | error failure => exact .inr ⟨failure, rfl⟩
  · intro bytes shown
    rw [alike] at shown ⊢
    obtain ⟨context, kept, program, result⟩ := exists_context_of_image shown
    refine ⟨?_, context, kept, result, ?_, ?_⟩
    · rw [image, kept]
      exact program
    · rw [labels, kept]
    · rw [listingText, kept]

/-- An assembler that has assembled a program with a label shows nothing of it behind a program
that fails. -/
theorem remembers_last_run_of_failure :
    let used := Assembler.behind { profile := .resolved } [.assemble "UP: \nJMP UP".toList, .labels]
    let reply := used.perform (.assemble "JMP UP".toList)
    used.image = [0x06, 0x00] ∧ used.labels = [("UP".toList, 0)] ∧
      reply.answer = .failed (Place.reject ⟨1, "JMP UP".toList⟩ (.labelNotFound "UP".toList)) ∧
      reply.assembler.ShowsNothing := by
  intro used reply
  have shown : used.image = [0x06, 0x00] ∧ used.labels = [("UP".toList, 0)] := by decide +kernel
  have failed : reply.answer =
      .failed (Place.reject ⟨1, "JMP UP".toList⟩ (.labelNotFound "UP".toList)) := by
    decide +kernel
  obtain ⟨-, -, -, -, -, nothing, -⟩ := remembers_last_run .resolved defaultMaxLabels
    defaultMaxProgramSize [.assemble "UP: \nJMP UP".toList, .labels] "JMP UP".toList
  exact ⟨shown.1, shown.2, failed, nothing _ failed⟩

end ByteMachine.Assembler

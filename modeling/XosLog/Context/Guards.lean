import Mathlib.Data.List.InsertIdx
import Mathlib.Data.List.Nodup
import Mathlib.Logic.Function.Basic
import XosLog.Context
import XosLog.Transition.Run

/-!
# Context guards

Pushing a frame returns a guard that holds the frame's identifier; dropping the
guard searches the stack of its thread for that identifier.  Identifiers come
from one counter that all threads share and that wraps.  The guards a thread
still holds are kept in push order beside the fields they were created with.
-/

namespace XosLog.Context

/-- The guard of one context scope. -/
structure ContextGuard where
  id : Nat
  deriving DecidableEq, Repr

/-- Remove the frame with the guard's identifier, if there is one. -/
def ContextGuard.drop (guard : ContextGuard) (stack : List Frame) : List Frame :=
  match stack.findIdx? fun frame => frame.id = guard.id with
  | some pos => stack.eraseIdx pos
  | none => stack

/-- A snapshot of a merged context. -/
structure ContextSnapshot where
  fields : List Field

def captureContext (stack : List Frame) : ContextSnapshot :=
  ⟨currentContext stack⟩

/-- A guard that was not dropped yet, with the fields of its scope. -/
structure LiveGuard where
  guard : ContextGuard
  fields : List Field

/-- The frame that belongs to a live guard. -/
def LiveGuard.frame (live : LiveGuard) : Frame :=
  ⟨live.guard.id, live.fields⟩

variable {τ : Type}

/-- The context state of a process with threads in `τ`. -/
structure Process (τ : Type) where
  /-- `NEXT_FRAME_ID` -/
  nextFrameId : Nat
  /-- `CONTEXT_STACK` of each thread, outermost frame first. -/
  stack : τ → List Frame
  /-- The guards each thread holds, in push order. -/
  live : τ → List LiveGuard
  /-- How many frames were pushed. -/
  pushes : Nat

namespace Process

def initial : Process τ where
  nextFrameId := 1
  stack _ := []
  live _ := []
  pushes := 0

variable [DecidableEq τ]

/-- The counter is a 64-bit word that wraps. -/
def pushContext (process : Process τ) (thread : τ) (fields : List Field) : Process τ :=
  let id := process.nextFrameId
  { nextFrameId := (id + 1) % 2 ^ 64
    stack := Function.update process.stack thread (process.stack thread ++ [⟨id, fields⟩])
    live := Function.update process.live thread (process.live thread ++ [⟨⟨id⟩, fields⟩])
    pushes := process.pushes + 1 }

def enter (process : Process τ) (thread : τ) (snapshot : ContextSnapshot) : Process τ :=
  process.pushContext thread snapshot.fields

/-- Drop the live guard at a position of the thread's guards. -/
def dropGuard (process : Process τ) (thread : τ) (position : Nat) : Option (Process τ) :=
  (process.live thread)[position]?.map fun live =>
    { process with
      stack := Function.update process.stack thread (live.guard.drop (process.stack thread))
      live := Function.update process.live thread ((process.live thread).eraseIdx position) }

end Process

/-- What a thread does with its context. -/
inductive Action (τ : Type)
  | push (thread : τ) (fields : List Field)
  | enter (thread : τ) (snapshot : ContextSnapshot)
  | drop (thread : τ) (position : Nat)

def step [DecidableEq τ] : Transition.Step (Process τ) (Action τ)
  | process, .push thread fields => some (process.pushContext thread fields)
  | process, .enter thread snapshot => some (process.enter thread snapshot)
  | process, .drop thread position => process.dropGuard thread position

/-- Whether an action pushes a frame. -/
def Action.pushes : Action τ → Bool
  | .push _ _ => true
  | .enter _ _ => true
  | .drop _ _ => false

/-! ## Every drop finds its own frame -/

theorem findIdx?_of_nodup {α : Type} {key : α → Nat} {items : List α} (position : Nat)
    (distinct : (items.map key).Nodup) (inside : position < items.length) :
    (items.findIdx? fun item => key item = key (items[position])) = some position := by
  rw [List.findIdx?_eq_some_iff_getElem]
  refine ⟨inside, decide_eq_true rfl, ?_⟩
  intro earlier before
  have same : key items[earlier] = key items[position] → earlier = position := by
    intro equal
    have first : earlier < (items.map key).length := by
      rw [List.length_map]
      omega
    have second : position < (items.map key).length := by
      rw [List.length_map]
      omega
    rw [← List.getElem_map key (h := first), ← List.getElem_map key (h := second)] at equal
    exact distinct.getElem_inj_iff.mp equal
  rw [Bool.not_eq_true, decide_eq_false_iff_not]
  exact fun equal => absurd (same equal) (Nat.ne_of_lt before)

/-- Dropping a live guard removes the frame at its own position. -/
theorem drop_frames {live : List LiveGuard} {position : Nat}
    (distinct : ((live.map LiveGuard.frame).map Frame.id).Nodup) (inside : position < live.length) :
    live[position].guard.drop (live.map LiveGuard.frame) =
      (live.eraseIdx position).map LiveGuard.frame := by
  have found := findIdx?_of_nodup position distinct
    (by rw [List.length_map]; exact inside)
  rw [List.getElem_map] at found
  change (live.map LiveGuard.frame).findIdx?
    (fun frame => decide (frame.id = live[position].guard.id)) = some position at found
  rw [ContextGuard.drop, found]
  exact List.eraseIdx_map _ _ _

/-! ## The stack of a thread -/

/-- Each stack is the frames of the thread's live guards, and their identifiers
are distinct, being issued from the counter. -/
structure Disciplined (process : Process τ) : Prop where
  frames : ∀ thread, process.stack thread = (process.live thread).map LiveGuard.frame
  distinct : ∀ thread, ((process.stack thread).map Frame.id).Nodup
  issued : ∀ thread, ∀ frame ∈ process.stack thread,
    ∃ earlier < process.pushes, frame.id = (1 + earlier) % 2 ^ 64
  counter : process.nextFrameId = (1 + process.pushes) % 2 ^ 64

theorem disciplined_initial : Disciplined (Process.initial : Process τ) where
  frames _ := rfl
  distinct _ := List.nodup_nil
  issued _ _ member := absurd member List.not_mem_nil
  counter := rfl

/-- The merged fields of the scopes that are live, innermost last. -/
def liveContext (live : List LiveGuard) : List Field :=
  (live.flatMap LiveGuard.fields).foldl setField []

theorem Disciplined.currentContext_eq {process : Process τ} (disciplined : Disciplined process)
    (thread : τ) : currentContext (process.stack thread) = liveContext (process.live thread) := by
  rw [disciplined.frames, currentContext, liveContext, List.foldl_map, List.foldl_flatMap]
  rfl

variable [DecidableEq τ]

theorem Disciplined.pushContext {process : Process τ} (disciplined : Disciplined process)
    (few : process.pushes < 2 ^ 64) (thread : τ) (fields : List Field) :
    Disciplined (process.pushContext thread fields) := by
  have fresh : ∀ frame ∈ process.stack thread, frame.id ≠ process.nextFrameId := by
    intro frame member same
    obtain ⟨earlier, before, idEq⟩ := disciplined.issued thread frame member
    rw [idEq, disciplined.counter] at same
    omega
  constructor
  · intro other
    by_cases same : other = thread
    · subst other
      simp [Process.pushContext, disciplined.frames, LiveGuard.frame]
    · simp [Process.pushContext, same, disciplined.frames other]
  · intro other
    by_cases same : other = thread
    · rw [same]
      simp only [Process.pushContext, Function.update_self, List.map_append, List.map_cons,
        List.map_nil]
      rw [← List.concat_eq_append]
      apply List.Nodup.concat
      · intro member
        obtain ⟨frame, inStack, idEq⟩ := List.mem_map.mp member
        exact fresh frame inStack idEq
      · exact disciplined.distinct thread
    · simp only [Process.pushContext, Function.update_of_ne same]
      exact disciplined.distinct other
  · intro other frame member
    have before : frame ∈ process.stack other ∨ frame = ⟨process.nextFrameId, fields⟩ := by
      by_cases same : other = thread
      · subst other
        simpa [Process.pushContext] using member
      · left
        simpa [Process.pushContext, same] using member
    rcases before with old | rfl
    · obtain ⟨earlier, before, idEq⟩ := disciplined.issued other frame old
      exact ⟨earlier, Nat.lt_succ_of_lt before, idEq⟩
    · exact ⟨process.pushes, Nat.lt_succ_self process.pushes, disciplined.counter⟩
  · change (process.nextFrameId + 1) % 2 ^ 64 = (1 + (process.pushes + 1)) % 2 ^ 64
    rw [disciplined.counter]
    omega

/-- The drop of a live guard removes its own frame and nothing else. -/
theorem Disciplined.dropGuard_eq {process : Process τ} {thread : τ} {position : Nat}
    (disciplined : Disciplined process) (held : position < (process.live thread).length) :
    process.dropGuard thread position = some
      { process with
        stack := Function.update process.stack thread ((process.stack thread).eraseIdx position)
        live := Function.update process.live thread ((process.live thread).eraseIdx position) } := by
  have distinct := disciplined.distinct thread
  rw [disciplined.frames] at distinct
  have erased : (process.stack thread).eraseIdx position =
      ((process.live thread).eraseIdx position).map LiveGuard.frame := by
    rw [disciplined.frames, List.eraseIdx_map]
  rw [Process.dropGuard, List.getElem?_eq_getElem held, Option.map_some, erased,
    ← drop_frames distinct held, ← disciplined.frames]

theorem Disciplined.dropGuard {process next : Process τ} {thread : τ} {position : Nat}
    (disciplined : Disciplined process) (dropped : process.dropGuard thread position = some next) :
    Disciplined next := by
  have held : position < (process.live thread).length := by
    by_contra! outside
    rw [Process.dropGuard, List.getElem?_eq_none outside] at dropped
    cases dropped
  rw [disciplined.dropGuard_eq held] at dropped
  obtain rfl := Option.some.inj dropped
  constructor
  · intro other
    by_cases same : other = thread
    · subst other
      simp [disciplined.frames, List.eraseIdx_map]
    · simp [same, disciplined.frames other]
  · intro other
    by_cases same : other = thread
    · rw [same]
      simp only [Function.update_self, ← List.eraseIdx_map]
      exact (disciplined.distinct thread).eraseIdx position
    · simp only [Function.update_of_ne same]
      exact disciplined.distinct other
  · intro other frame member
    apply disciplined.issued other
    by_cases same : other = thread
    · subst other
      simp at member
      exact List.mem_of_mem_eraseIdx member
    · simpa [same] using member
  · exact disciplined.counter

/-! ## Whole runs -/

theorem disciplined_step {process next : Process τ} {action : Action τ}
    (disciplined : process.pushes ≤ 2 ^ 64 → Disciplined process)
    (stepped : step process action = some next) : next.pushes ≤ 2 ^ 64 → Disciplined next := by
  cases action with
  | push thread fields =>
      obtain rfl := Option.some.inj stepped
      intro few
      exact (disciplined (Nat.le_of_succ_le few)).pushContext few thread fields
  | enter thread snapshot =>
      obtain rfl := Option.some.inj stepped
      intro few
      exact (disciplined (Nat.le_of_succ_le few)).pushContext few thread snapshot.fields
  | drop thread position =>
      have same : next.pushes = process.pushes := by
        obtain ⟨live, -, rfl⟩ := Option.map_eq_some_iff.mp stepped
        rfl
      intro few
      exact (disciplined (same ▸ few)).dropGuard stepped

theorem pushes_step {process next : Process τ} {action : Action τ}
    (stepped : step process action = some next) :
    next.pushes = process.pushes + if action.pushes then 1 else 0 := by
  cases action with
  | push thread fields =>
      obtain rfl := Option.some.inj stepped
      rfl
  | enter thread snapshot =>
      obtain rfl := Option.some.inj stepped
      rfl
  | drop thread position =>
      obtain ⟨live, -, rfl⟩ := Option.map_eq_some_iff.mp stepped
      rfl

theorem pushes_run {process target : Process τ} {actions : List (Action τ)}
    (ran : Transition.run step process actions = some target) :
    target.pushes = process.pushes + actions.countP Action.pushes := by
  induction actions generalizing process with
  | nil =>
      cases ran
      rfl
  | cons action actions inductionHypothesis =>
      obtain ⟨next, stepped, ran⟩ := (Transition.run_cons_eq_some step).mp ran
      rw [inductionHypothesis ran, pushes_step stepped, List.countP_cons]
      omega

theorem disciplined_of_run {process : Process τ} {actions : List (Action τ)}
    (ran : Transition.run step Process.initial actions = some process)
    (few : actions.countP Action.pushes < 2 ^ 64) : Disciplined process := by
  have pushes := pushes_run ran
  change process.pushes = 0 + actions.countP Action.pushes at pushes
  have preserved : ∀ {process next : Process τ} {action : Action τ},
      (process.pushes ≤ 2 ^ 64 → Disciplined process) → step process action = some next →
        next.pushes ≤ 2 ^ 64 → Disciplined next := disciplined_step
  have held := Transition.run_invariant preserved (fun _ => disciplined_initial) ran
  apply held
  omega

/-- What a thread can rely on, whatever it and the other threads did. -/
structure StackDiscipline (process : Process τ) (thread : τ) : Prop where
  frames : process.stack thread = (process.live thread).map LiveGuard.frame
  distinct : ((process.stack thread).map Frame.id).Nodup
  /-- A drop removes the guard's own frame and no other. -/
  drops : ∀ position < (process.live thread).length,
    ∃ next, step process (.drop thread position) = some next ∧
      next.stack thread = (process.stack thread).eraseIdx position ∧
      next.live thread = (process.live thread).eraseIdx position ∧
      ∀ other ≠ thread, next.stack other = process.stack other
  context : currentContext (process.stack thread) = liveContext (process.live thread)
  dropped : process.live thread = [] → currentContext (process.stack thread) =
    currentContext ((Process.initial : Process τ).stack thread)

/-- In every run the stack of a thread is the frames of its live guards in push
order. -/
theorem stack_discipline {process : Process τ} {actions : List (Action τ)}
    (ran : Transition.run step Process.initial actions = some process)
    (few : actions.countP Action.pushes < 2 ^ 64) (thread : τ) :
    StackDiscipline process thread := by
  have disciplined := disciplined_of_run ran few
  constructor
  · exact disciplined.frames thread
  · exact disciplined.distinct thread
  · intro position held
    refine ⟨_, disciplined.dropGuard_eq held, ?_, ?_, ?_⟩
    · exact Function.update_self ..
    · exact Function.update_self ..
    · exact fun other different => Function.update_of_ne different ..
  · exact disciplined.currentContext_eq thread
  · intro none
    rw [disciplined.currentContext_eq, none]
    rfl

/-- Two threads; the first drops its outer guard before the inner one. -/
def outOfOrder : List (Action Bool) :=
  let request : Field := ⟨"request".toList, .int 7⟩
  [.push true [request], .push false [⟨"user".toList, .null⟩],
    .enter true (captureContext [⟨2, [⟨"user".toList, .null⟩]⟩]), .drop true 0]

theorem stack_discipline_outOfOrder :
    ∃ process, Transition.run step Process.initial outOfOrder = some process ∧
      StackDiscipline process true :=
  ⟨_, rfl, @stack_discipline Bool _ _ outOfOrder rfl (by decide) true⟩

end XosLog.Context

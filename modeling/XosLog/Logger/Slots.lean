import XosLog.Logger.Barrier
import XosLog.Logger.Linearization
import XosLog.Writer.Feeding

/-!
# One slot along a run

What every turn of the writer's loop, and its last flush, preserve of a slot and of
the messages handled so far holds of that slot in every reachable state of the
logger.
-/

namespace XosLog.Logger

open Transition Writer

variable {n : Nat} {setup : Setup} {owner : Fin n} {actions : List (Action n)} {s : State n}

theorem sameSinks_of_run (ran : run (step setup) (State.init setup owner) actions = some s) :
    SameSinks s.slots setup.slots := by
  have initial : SameSinks (State.init setup owner).slots setup.slots := rfl
  refine @run_invariant _ _ _ (fun t : State n => SameSinks t.slots setup.slots) ?_ _ _ _
    initial ran
  intro middle action next same stepped
  have shown := shows_of_fires (fires_of_step stepped)
  generalize served middle action = messages, spilled setup middle action = written at shown
  cases shown with
  | handles here after =>
      subst after
      exact (sameSinks_turn setup.format _ middle.slots).trans same
  | emergency here after =>
      subst after
      exact same
  | exits here after =>
      subst after
      exact (sameSinks_flushSlots middle.slots).trans same
  | silent slots =>
      rw [slots]
      exact same

/-- The rule for one slot, with what has been written to standard error for it. -/
theorem slot_of_run {Inv : List (Message (CallId n)) → SinkSlot → List Bytes → Prop} {i : Nat}
    {slot : SinkSlot} (found : setup.slots[i]? = some slot) (initial : Inv [] slot [])
    (turned : ∀ {msgs msg slot next written more}, Inv msgs slot written →
      SlotTurn setup.format (FlushCanPanic setup.slots) slot msg next more →
      Inv (msgs ++ [msg]) next (written ++ more))
    (flushed : ∀ {msgs slot written}, Inv msgs slot written → Inv msgs (flushSlot slot) written)
    (ran : run (step setup) (State.init setup owner) actions = some s) :
    ∃ last written, s.slots[i]? = some last ∧ written.Sublist s.stderr ∧
      Inv (observed (step setup) served (State.init setup owner) actions) last written := by
  refine @run_history _ _ _ _ _ (fun before t => ∃ last written, t.slots[i]? = some last ∧
    written.Sublist t.stderr ∧
    Inv (observed (step setup) served (State.init setup owner) before) last written)
    ⟨slot, [], found, List.Sublist.refl _, initial⟩ ?_ _ ran
  rintro before middle action next ranBefore ⟨current, written, here, within, holds⟩ stepped
  have shown := shows_of_fires (fires_of_step stepped)
  rw [observed_concat ranBefore stepped]
  generalize served middle action = messages, spilled setup middle action = spilt at shown ⊢
  cases shown with
  | @handles msg handling after =>
      subst after
      obtain ⟨last, reached, turns⟩ := slotTurn setup.format msg here
      have panics : (flushSlots middle.slots).2 = true → FlushCanPanic setup.slots :=
        fun panicked => (flushCanPanic_of_panicked panicked).congr (sameSinks_of_run ranBefore)
      refine ⟨last, _, reached, ?_, turned holds (turns.imp panics)⟩
      exact within.append (stderrFor_sublist i _)
  | emergency _ after =>
      subst after
      rw [List.append_nil]
      exact ⟨current, written, here, within.trans (List.sublist_append_left _ _), holds⟩
  | exits _ after =>
      subst after
      rw [List.append_nil]
      obtain ⟨last, reached, rfl | rfl⟩ := flushSlots_slot here
      · exact ⟨_, written, reached, within, flushed holds⟩
      · exact ⟨_, written, reached, within, holds⟩
  | silent slots stderr =>
      rw [List.append_nil, slots, stderr]
      exact ⟨current, written, here, within, holds⟩

/-- In every reachable state a slot has been fed what has been handled. -/
theorem fed_of_run {i : Nat} {sink : Sink} {minLevel : Level} (unused : sink.calls = [])
    (found : setup.slots[i]? = some (.new sink minLevel))
    (ran : run (step setup) (State.init setup owner) actions = some s) :
    ∃ slot written served diverted, s.slots[i]? = some slot ∧ written.Sublist s.stderr ∧
      Fed setup.format sink.behave minLevel (FlushCanPanic setup.slots)
        ((recordsOf (observed (step setup) Logger.served (State.init setup owner) actions)).map
          Prod.snd) served diverted slot written := by
  have along := @slot_of_run n setup owner actions s (fun msgs slot written =>
    ∃ served diverted, Fed setup.format sink.behave minLevel (FlushCanPanic setup.slots)
      ((recordsOf msgs).map Prod.snd) served diverted slot written) i _ found
    ⟨[], [], .fresh setup.format sink unused minLevel _⟩ ?_ ?_ ran
  · obtain ⟨slot, written, reached, within, served, diverted, fed⟩ := along
    exact ⟨slot, written, served, diverted, reached, within, fed⟩
  · rintro msgs msg slot next written more ⟨served, diverted, fed⟩ turned
    rw [recordsOf_append, List.map_append]
    exact fed.turn turned
  · rintro msgs slot written ⟨served, diverted, fed⟩
    exact ⟨served, diverted, fed.flush⟩

/-- No record is passed over.  In every reachable state the sink of a slot, whatever it
does, has been called with the handled records at or above its floor, each once, in
order and as it was formatted, and all the later ones are on standard error: none, unless
the last eight calls have failed or a flush can panic. -/
theorem records_divided {i : Nat} {sink : Sink} {minLevel : Level} (unused : sink.calls = [])
    (found : setup.slots[i]? = some (.new sink minLevel))
    (ran : run (step setup) (State.init setup owner) actions = some s) :
    ∃ slot diverted, s.slots[i]? = some slot ∧ slot.sink.behave = sink.behave ∧
      Divided setup.format minLevel (FlushCanPanic setup.slots)
        ((recordsOf (observed (step setup) served (State.init setup owner) actions)).map
          Prod.snd) s.stderr slot.sink.answers diverted := by
  obtain ⟨slot, written, _, diverted, reached, within, fed⟩ := fed_of_run unused found ran
  exact ⟨slot, diverted, reached, fed.behave_eq, fed.divided within⟩

/-! ## A run with a floor, failures and a panic -/

/-- A record at the level of the floor. -/
def warnEntry : LogEntry :=
  { infoEntry with level := .warn }

/-- A caller logs a record, and the writer handles it. -/
def handledLog (c : Fin n) (entry : LogEntry) : List (Action n) :=
  .call c (.log entry 0 []) :: (List.replicate 3 (.caller c) ++ [.writer, .writer])

/-- Two warnings are logged, with a record below them in between, and flushed; then one
more warning is logged. -/
def mixedRun (c : Fin n) (first : LogEntry) : List (Action n) :=
  handledLog c first ++ handledLog c infoEntry ++ handledLog c warnEntry ++
    .call c (.control .flush) :: [.caller c, .caller c, .writer, .writer, .caller c] ++
      handledLog c warnEntry

/-- A logger with a slot, and behind it a sink that panics when it is flushed. -/
def mixedSetup (slot : SinkSlot) : Setup :=
  { blockingSetup with slots := [slot, .new ⟨flushPanics, []⟩ .trace] }

/-- The slot's sink fails whatever it is called with. -/
def failingSetup : Setup :=
  mixedSetup (.new ⟨failing, []⟩ .warn)

/-- Two calls fail, one record is below the floor, and the last one is diverted after the
panic. -/
theorem records_divided_failing :
    ∃ (s : State 1) (slot : SinkSlot) (diverted : List LogEntry), s.slots[0]? = some slot ∧
      slot.sink.answers.map Prod.snd = [.panic, .err] ∧ diverted.length = 1 ∧
      Divided plainFormat .warn (FlushCanPanic failingSetup.slots)
        ((recordsOf (observed (step failingSetup) served (State.init failingSetup 0)
          (mixedRun (0 : Fin 1) warnEntry))).map Prod.snd) s.stderr slot.sink.answers diverted := by
  obtain ⟨s, ran, seen⟩ := Option.map_eq_some_iff.mp (by decide +kernel :
    (run (step failingSetup) (State.init failingSetup 0) (mixedRun (0 : Fin 1) warnEntry)).map
      (fun s => s.slots[0]?.map fun slot => slot.sink.answers.map Prod.snd) =
    some (some [.panic, .err]))
  have eligible : (((recordsOf (observed (step failingSetup) served
      (State.init failingSetup 0) (mixedRun (0 : Fin 1) warnEntry))).map Prod.snd).filter
        fun entry => Level.warn ≤ entry.level).length = 3 := by
    decide +kernel
  have found : failingSetup.slots[0]? = some (.new ⟨failing, []⟩ .warn) := rfl
  obtain ⟨slot, diverted, reached, _, divided⟩ := records_divided rfl found ran
  rw [reached] at seen
  have answers := Option.some.inj seen
  have count := congrArg List.length answers
  rw [List.length_map] at count
  rw [divided.eligible, List.length_append, List.length_map, count] at eligible
  exact ⟨s, slot, diverted, reached, answers, Nat.add_left_cancel eligible, divided⟩

end XosLog.Logger

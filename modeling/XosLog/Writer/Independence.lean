import XosLog.Writer.Loop

/-!
# Independence of the sinks

Two runs of the writer that differ only in the behaviour of one sink treat the
other sinks alike as long as no flush of that sink panics.  Write errors, write
panics and flush errors stay inside the slot; a panicking flush leaves the loop
over the slots and degrades all of them.
-/

namespace XosLog.Writer

variable {K : Type}

/-- The position of the sink whose flush panics and ends the flush loop. -/
def panicking (slots : List SinkSlot) : Option Nat :=
  slots.findIdx? fun slot => slot.sink.outcome .flush = .panic

/-- A slot whose sink received a flush. -/
def flushSlot (slot : SinkSlot) : SinkSlot :=
  { slot with sink := slot.sink.after .flush }

theorem flushSlots_panicked (slots : List SinkSlot) :
    (flushSlots slots).2 = (panicking slots).isSome := by
  induction slots with
  | nil => rfl
  | cons slot rest ih =>
      rw [flushSlots, panicking, List.findIdx?_cons]
      cases outcome : slot.sink.outcome .flush <;> simp [ih, panicking]

/-- The flush loop reaches the slots up to the first panic, that one included. -/
theorem flushSlots_getElem? (slots : List SinkSlot) (k : Nat) :
    (flushSlots slots).1[k]? =
      slots[k]?.map fun slot => if ∀ p ∈ panicking slots, k ≤ p then flushSlot slot else slot := by
  induction slots generalizing k with
  | nil => rfl
  | cons slot rest ih =>
      rw [flushSlots, panicking, List.findIdx?_cons]
      cases outcome : slot.sink.outcome .flush <;> cases k <;>
        simp [ih, panicking, flushSlot]

/-- Two lists of slots that differ at position `i` only. -/
def AgreeOff (i : Nat) (first second : List SinkSlot) : Prop :=
  ∀ j, j ≠ i → first[j]? = second[j]?

namespace AgreeOff

variable {i : Nat} {first second : List SinkSlot}

theorem symm (agree : AgreeOff i first second) : AgreeOff i second first :=
  fun j other => (agree j other).symm

/-- A slotwise operation keeps the agreement. -/
theorem map (agree : AgreeOff i first second) (f : SinkSlot → SinkSlot) :
    AgreeOff i (first.map f) (second.map f) := by
  intro j other
  rw [List.getElem?_map, List.getElem?_map, agree j other]

theorem panicking_le (agree : AgreeOff i first second) {p : Nat}
    (panics : panicking first = some p) (spared : p ≠ i) :
    ∃ q ≤ p, panicking second = some q := by
  obtain ⟨bound, panicked, _⟩ := List.findIdx?_eq_some_iff_getElem.mp panics
  have same := agree p spared
  rw [List.getElem?_eq_getElem bound] at same
  obtain ⟨boundSecond, slot_eq⟩ := List.getElem?_eq_some_iff.mp same.symm
  cases found : panicking second with
  | none =>
      have none := List.findIdx?_eq_none_iff.mp found _ (List.getElem_mem boundSecond)
      rw [slot_eq, panicked] at none
      contradiction
  | some q =>
      refine ⟨q, ?_, rfl⟩
      by_contra later
      have notPanicked :=
        (List.findIdx?_eq_some_iff_getElem.mp found).2.2 p (Nat.lt_of_not_le later)
      rw [slot_eq, panicked] at notPanicked
      exact notPanicked rfl

/-- Where the differing sink is not the one that panics, both flush loops end at
the same place. -/
theorem panicking_eq (agree : AgreeOff i first second) (spared : panicking first ≠ some i)
    (sparedSecond : panicking second ≠ some i) : panicking first = panicking second := by
  have half : ∀ {one other : List SinkSlot}, AgreeOff i one other → panicking one ≠ some i →
      panicking other ≠ some i → ∀ p, panicking one = some p → panicking other = some p := by
    intro one other agree spared sparedOther p panics
    obtain ⟨q, q_le, found⟩ := agree.panicking_le panics fun equal => spared (equal ▸ panics)
    obtain ⟨r, r_le, again⟩ :=
      agree.symm.panicking_le found fun equal => sparedOther (equal ▸ found)
    rw [panics] at again
    cases again
    rw [found, Nat.le_antisymm q_le r_le]
  cases panics : panicking first with
  | some p => exact (half agree spared sparedSecond p panics).symm
  | none =>
      cases found : panicking second with
      | none => rfl
      | some q =>
          rw [half agree.symm sparedSecond spared q found] at panics
          contradiction

/-- A flush loop that the differing sink does not end keeps the agreement. -/
theorem flushSlots (agree : AgreeOff i first second) (spared : panicking first ≠ some i)
    (sparedSecond : panicking second ≠ some i) :
    AgreeOff i (flushSlots first).1 (flushSlots second).1 ∧
      (Writer.flushSlots first).2 = (Writer.flushSlots second).2 := by
  have same := agree.panicking_eq spared sparedSecond
  constructor
  · intro j other
    rw [flushSlots_getElem?, flushSlots_getElem?, agree j other, same]
  · rw [flushSlots_panicked, flushSlots_panicked, same]

end AgreeOff

/-! ## One turn of the loop -/

theorem serveSlots_fst (entry : LogEntry) (buf : Bytes) (position : Nat) (slots : List SinkSlot) :
    (serveSlots entry buf position slots).1 =
      slots.map fun slot => (serveSlot entry buf slot).1 := by
  induction slots generalizing position with
  | nil => rfl
  | cons slot rest ih => simp [serveSlots, ih]

/-- The flush that handling `msg` makes does not panic in the sink at `i`. -/
def Spares (i : Nat) (slots : List SinkSlot) : Message K → Prop
  | .log _ _ => True
  | .flush _ | .shutdown _ => panicking slots ≠ some i

/-- One turn that the differing sink does not end by a panic keeps the agreement
and comes to the same decision. -/
theorem AgreeOff.turn {i : Nat} {first second : List SinkSlot} (agree : AgreeOff i first second)
    (format : Format) (msg : Message K) (spared : Spares i first msg)
    (sparedSecond : Spares i second msg) :
    AgreeOff i (turn format msg first).1.slots (turn format msg second).1.slots ∧
      (turn format msg first).2 = (turn format msg second).2 := by
  cases msg with
  | log key entry =>
      constructor
      · simp only [Writer.turn, handleMessage, serveSlots_fst]
        exact agree.map _
      · rfl
  | flush ack =>
      obtain ⟨flushed, panicked⟩ := agree.flushSlots spared sparedSecond
      cases escaped : (Writer.flushSlots first).2 with
      | false =>
          rw [turn_flush_calm format ack escaped,
            turn_flush_calm format ack (panicked.symm.trans escaped)]
          exact ⟨flushed, rfl⟩
      | true =>
          rw [turn_control_panic format ack escaped (.inl rfl),
            turn_control_panic format ack (panicked.symm.trans escaped) (.inl rfl)]
          exact ⟨flushed.map degrade, rfl⟩
  | shutdown ack =>
      obtain ⟨flushed, panicked⟩ := agree.flushSlots spared sparedSecond
      cases escaped : (Writer.flushSlots first).2 with
      | false =>
          rw [turn_shutdown_calm format ack escaped,
            turn_shutdown_calm format ack (panicked.symm.trans escaped)]
          exact ⟨flushed, rfl⟩
      | true =>
          rw [turn_control_panic format ack escaped (.inr rfl),
            turn_control_panic format ack (panicked.symm.trans escaped) (.inr rfl)]
          exact ⟨flushed.map degrade, rfl⟩

/-! ## The whole loop -/

/-- Along the run of the writer's loop, the last flush included, no flush of the
sink at `i` panics. -/
def SparesRun (format : Format) (i : Nat) : List (Message K) → List SinkSlot → Prop
  | [], slots => panicking slots ≠ some i
  | msg :: rest, slots =>
      Spares i slots msg ∧
        match turn format msg slots with
        | (handled, true) => panicking handled.slots ≠ some i
        | (handled, false) => SparesRun format i rest handled.slots

instance (i : Nat) (slots : List SinkSlot) (msg : Message K) : Decidable (Spares i slots msg) :=
  match msg with
  | .log _ _ => isTrue trivial
  | .flush _ | .shutdown _ => inferInstanceAs (Decidable (panicking slots ≠ some i))

instance (format : Format) (i : Nat) : (msgs : List (Message K)) → (slots : List SinkSlot) →
    Decidable (SparesRun format i msgs slots)
  | [], slots => inferInstanceAs (Decidable (panicking slots ≠ some i))
  | msg :: rest, slots =>
      match turned : turn format msg slots with
      | (handled, true) =>
          decidable_of_iff (Spares i slots msg ∧ panicking handled.slots ≠ some i)
            (by rw [SparesRun, turned])
      | (handled, false) =>
          have := instDecidableSparesRun format i rest handled.slots
          decidable_of_iff (Spares i slots msg ∧ SparesRun format i rest handled.slots)
            (by rw [SparesRun, turned])

theorem AgreeOff.writerLoop {i : Nat} {first second : List SinkSlot}
    (agree : AgreeOff i first second) (format : Format) (msgs : List (Message K))
    (spared : SparesRun format i msgs first) (sparedSecond : SparesRun format i msgs second) :
    AgreeOff i (writerLoop format msgs first).1 (writerLoop format msgs second).1 := by
  induction msgs generalizing first second with
  | nil => exact (agree.flushSlots spared sparedSecond).1
  | cons msg rest ih =>
      obtain ⟨sparedTurn, sparedRest⟩ := spared
      obtain ⟨sparedTurnSecond, sparedRestSecond⟩ := sparedSecond
      obtain ⟨turned, decision⟩ := agree.turn format msg sparedTurn sparedTurnSecond
      revert sparedRest sparedRestSecond turned decision
      simp only [Writer.writerLoop, receive]
      rcases Writer.turn format msg first with ⟨firstHandled, _ | _⟩ <;>
        rcases Writer.turn format msg second with ⟨secondHandled, _ | _⟩ <;>
        intro sparedRest sparedRestSecond turned decision
      · exact ih turned sparedRest sparedRestSecond
      · exact Bool.noConfusion decision
      · exact Bool.noConfusion decision
      · exact (turned.flushSlots sparedRest sparedRestSecond).1

/-- The slots with another behaviour for the sink at `i`. -/
def withBehaviour (slots : List SinkSlot) (i : Nat) (behave : List SinkCall → Outcome) :
    List SinkSlot :=
  slots.modify i fun slot => { slot with sink := { slot.sink with behave } }

theorem agreeOff_withBehaviour (slots : List SinkSlot) (i : Nat)
    (behave other : List SinkCall → Outcome) :
    AgreeOff i (withBehaviour slots i behave) (withBehaviour slots i other) := by
  intro j different
  simp [withBehaviour, Ne.symm different]

/-- The calls the sink at `j` received. -/
def callsOf (slots : List SinkSlot) (j : Nat) : Option (List SinkCall) :=
  slots[j]?.map fun slot => slot.sink.calls

/-- Two runs that differ in the behaviour of one sink make the same calls on
every other sink, provided no flush of that sink panics in either run. -/
theorem calls_independent (format : Format) (slots : List SinkSlot) (i : Nat)
    (msgs : List (Message K)) (behave other : List SinkCall → Outcome)
    (spared : SparesRun format i msgs (withBehaviour slots i behave))
    (sparedOther : SparesRun format i msgs (withBehaviour slots i other))
    (j : Nat) (different : j ≠ i) :
    callsOf (writerLoop format msgs (withBehaviour slots i behave)).1 j =
      callsOf (writerLoop format msgs (withBehaviour slots i other)).1 j := by
  have agree := (agreeOff_withBehaviour slots i behave other).writerLoop format msgs
    spared sparedOther
  rw [callsOf, callsOf, agree j different]

/-- A logger that writes plain text without source locations. -/
def plainFormat : Format where
  json := false
  includeLocation := false
  displayF64 _ := []

def infoEntry : LogEntry where
  timestamp := Timestamp.now 0 0
  level := .info
  message := "m".toList
  target := []
  file := []
  line := 0
  fields := []

/-- A sink whose writes fail by turns with an error and with a panic, and whose
flushes return an error. -/
def failing (history : List SinkCall) : Outcome :=
  if history.getLast? = some .flush then .err
  else if history.length % 2 = 0 then .err else .panic

/-- A sink whose flushes panic. -/
def flushPanics (history : List SinkCall) : Outcome :=
  if history.getLast? = some .flush then .panic else .ok

/-- Two healthy sinks without a level floor. -/
def twoSlots : List SinkSlot :=
  [.new ⟨fun _ => .ok, []⟩ .trace, .new ⟨fun _ => .ok, []⟩ .trace]

theorem calls_independent_failing :
    callsOf (writerLoop plainFormat [.log () infoEntry, .flush (), .log () infoEntry]
        (withBehaviour twoSlots 0 failing)).1 1 =
      callsOf (writerLoop plainFormat [.log () infoEntry, .flush (), .log () infoEntry]
        (withBehaviour twoSlots 0 fun _ => .ok)).1 1 :=
  calls_independent plainFormat twoSlots 0 [.log () infoEntry, .flush (), .log () infoEntry]
    failing (fun _ => .ok) (by decide) (by decide) 1 (by decide)

/-- A panicking flush is felt by the other sinks: it skips the flush of the
later ones and keeps every following record from all of them. -/
theorem not_calls_independent :
    ¬ ∀ (format : Format) (slots : List SinkSlot) (i : Nat) (msgs : List (Message Unit))
      (behave other : List SinkCall → Outcome), .shutdown () ∉ msgs → ∀ j, j ≠ i →
      callsOf (writerLoop format msgs (withBehaviour slots i behave)).1 j =
        callsOf (writerLoop format msgs (withBehaviour slots i other)).1 j := by
  intro independent
  have same := independent plainFormat twoSlots 0 [.flush (), .log () infoEntry]
    flushPanics (fun _ => .ok) (by decide) 1 (by decide)
  exact absurd (congrArg (Option.map List.length) same) (by decide)

end XosLog.Writer

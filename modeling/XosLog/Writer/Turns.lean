import XosLog.Writer.Degradation

/-!
# The loop, one message at a time

The writer's loop over a sequence of messages is extended at the end by one more
turn, as long as no earlier message has stopped it.  A turn serves every slot with
a record, or flushes it; a panic in a flush skips the slots after it and degrades
all of them.
-/

namespace XosLog.Writer

variable {K : Type} (format : Format)

/-- No message of the sequence stops the loop. -/
def KeepsRunning : List (Message K) → List SinkSlot → Prop
  | [], _ => True
  | msg :: rest, slots =>
      (turn format msg slots).2 = false ∧ KeepsRunning rest (turn format msg slots).1.slots

theorem receive_cons_running {msg : Message K} {slots : List SinkSlot}
    (continues : (turn format msg slots).2 = false) (rest : List (Message K)) :
    receive format (msg :: rest) slots =
      ((receive format rest (turn format msg slots).1.slots).1,
        (turn format msg slots).1.stderr ++
          (receive format rest (turn format msg slots).1.slots).2) := by
  rw [receive]
  generalize turn format msg slots = result at continues
  obtain ⟨handled, stop⟩ := result
  obtain rfl : stop = false := continues
  rfl

theorem receive_singleton (msg : Message K) (slots : List SinkSlot) :
    receive format [msg] slots =
      ((turn format msg slots).1.slots, (turn format msg slots).1.stderr) := by
  cases stops : (turn format msg slots).2 with
  | false => rw [receive_cons_running format stops, receive, List.append_nil]
  | true =>
      rw [receive]
      generalize turn format msg slots = result at stops
      obtain ⟨handled, stop⟩ := result
      obtain rfl : stop = true := stops
      rfl

theorem receive_append {msgs : List (Message K)} {slots : List SinkSlot}
    (running : KeepsRunning format msgs slots) (later : List (Message K)) :
    receive format (msgs ++ later) slots =
      ((receive format later (receive format msgs slots).1).1,
        (receive format msgs slots).2 ++
          (receive format later (receive format msgs slots).1).2) := by
  induction msgs generalizing slots with
  | nil => rfl
  | cons msg msgs inductionHypothesis =>
      obtain ⟨continues, running⟩ := running
      rw [List.cons_append, receive_cons_running format continues,
        receive_cons_running format continues, inductionHypothesis running, List.append_assoc]

theorem receive_concat {msgs : List (Message K)} {slots : List SinkSlot}
    (running : KeepsRunning format msgs slots) (msg : Message K) :
    receive format (msgs ++ [msg]) slots =
      ((turn format msg (receive format msgs slots).1).1.slots,
        (receive format msgs slots).2 ++
          (turn format msg (receive format msgs slots).1).1.stderr) := by
  rw [receive_append format running, receive_singleton]

theorem keepsRunning_concat {msgs : List (Message K)} {slots : List SinkSlot}
    (running : KeepsRunning format msgs slots) {msg : Message K}
    (continues : (turn format msg (receive format msgs slots).1).2 = false) :
    KeepsRunning format (msgs ++ [msg]) slots := by
  induction msgs generalizing slots with
  | nil => exact ⟨continues, trivial⟩
  | cons first msgs inductionHypothesis =>
      obtain ⟨firstContinues, running⟩ := running
      rw [receive_cons_running format firstContinues] at continues
      exact ⟨firstContinues, inductionHypothesis running continues⟩

/-! ## One slot -/

/-- What a turn of the loop does to one slot, where some flush can panic, and what it
writes to standard error for the slot. -/
inductive SlotTurn (panics : Prop) (slot : SinkSlot) : Message K → SinkSlot → List Bytes → Prop
  | served {key : K} {entry : LogEntry} :
      SlotTurn panics slot (.log key entry) (serveSlot entry (format.record entry) slot).1
        (serveSlot entry (format.record entry) slot).2
  | flushed {msg : Message K} {ack : K} (control : msg = .flush ack ∨ msg = .shutdown ack) :
      SlotTurn panics slot msg (flushSlot slot) []
  | unwound {msg : Message K} {ack : K} {next : SinkSlot} (panicked : panics)
      (control : msg = .flush ack ∨ msg = .shutdown ack)
      (reached : next = flushSlot slot ∨ next = slot) :
      SlotTurn panics slot msg (degrade next) []

variable {format} in
theorem SlotTurn.imp {first second : Prop} {slot next : SinkSlot} {msg : Message K}
    {written : List Bytes} (implies : first → second)
    (turned : SlotTurn format first slot msg next written) :
    SlotTurn format second slot msg next written := by
  cases turned with
  | served => exact .served
  | flushed control => exact .flushed control
  | unwound panicked control reached => exact .unwound (implies panicked) control reached

theorem flushSlots_slot {slots : List SinkSlot} {i : Nat} {slot : SinkSlot}
    (found : slots[i]? = some slot) :
    ∃ next, (flushSlots slots).1[i]? = some next ∧ (next = flushSlot slot ∨ next = slot) := by
  rw [flushSlots_getElem?, found]
  refine ⟨_, rfl, ?_⟩
  dsimp only
  split
  · exact .inl rfl
  · exact .inr rfl

theorem flushSlots_slot_calm {slots : List SinkSlot} (calm : (flushSlots slots).2 = false)
    {i : Nat} {slot : SinkSlot} (found : slots[i]? = some slot) :
    (flushSlots slots).1[i]? = some (flushSlot slot) := by
  rw [flushSlots_panicked, Option.isSome_eq_false_iff, Option.isNone_iff_eq_none] at calm
  rw [flushSlots_getElem?, found, calm]
  rfl

/-- What is written for one slot is part of what is written. -/
theorem stderrFor_sublist (position : Nat) (stderr : List (Nat × Bytes)) :
    (stderrFor position stderr).Sublist (stderr.map Prod.snd) := by
  induction stderr with
  | nil => exact List.Sublist.refl _
  | cons write stderr inductionHypothesis =>
      rw [stderrFor, List.filterMap_cons]
      by_cases own : write.1 = position
      · rw [if_pos own]
        exact inductionHypothesis.cons_cons _
      · rw [if_neg own]
        exact inductionHypothesis.cons _

theorem slotTurn (msg : Message K) {slots : List SinkSlot} {i : Nat} {slot : SinkSlot}
    (found : slots[i]? = some slot) :
    ∃ next, (turn format msg slots).1.slots[i]? = some next ∧
      SlotTurn format ((flushSlots slots).2 = true) slot msg next
        (stderrFor i (turn format msg slots).1.stderr) := by
  have controlled : ∀ ack, msg = .flush ack ∨ msg = .shutdown ack →
      ∃ next, (turn format msg slots).1.slots[i]? = some next ∧
        SlotTurn format ((flushSlots slots).2 = true) slot msg next
          (stderrFor i (turn format msg slots).1.stderr) := by
    intro ack control
    cases panicked : (flushSlots slots).2 with
    | false =>
        have calm := flushSlots_slot_calm panicked found
        rcases control with rfl | rfl
        · rw [turn_flush_calm format ack panicked, calm]
          exact ⟨_, rfl, .flushed (.inl rfl)⟩
        · rw [turn_shutdown_calm format ack panicked, calm]
          exact ⟨_, rfl, .flushed (.inr rfl)⟩
    | true =>
        obtain ⟨next, reached, cases⟩ := flushSlots_slot found
        rw [turn_control_panic format ack panicked control, List.getElem?_map, reached]
        exact ⟨degrade next, rfl, .unwound rfl control cases⟩
  cases msg with
  | log key entry =>
      have written := stderrFor_serveSlots entry (format.record entry) 0 found
      rw [Nat.zero_add] at written
      rw [turn_log, serveSlots_fst, List.getElem?_map, found, written]
      exact ⟨_, rfl, .served⟩
  | flush ack => exact controlled ack (.inl rfl)
  | shutdown ack => exact controlled ack (.inr rfl)

theorem serveSlot_behave (entry : LogEntry) (buf : Bytes) (slot : SinkSlot) :
    (serveSlot entry buf slot).1.sink.behave = slot.sink.behave := by
  unfold serveSlot
  split_ifs
  · rfl
  · rfl
  · dsimp only
    split
    · rfl
    · split_ifs <;> rfl

variable {format} in
/-- A turn calls sinks and does not replace them. -/
theorem SlotTurn.behave_eq {panics : Prop} {slot next : SinkSlot} {msg : Message K}
    {written : List Bytes} (turned : SlotTurn format panics slot msg next written) :
    next.sink.behave = slot.sink.behave := by
  cases turned with
  | served => exact serveSlot_behave _ _ _
  | flushed => rfl
  | unwound _ _ reached => rcases reached with rfl | rfl <;> rfl

theorem length_flushSlots (slots : List SinkSlot) :
    (flushSlots slots).1.length = slots.length := by
  induction slots with
  | nil => rfl
  | cons slot rest inductionHypothesis =>
      rw [flushSlots]
      cases slot.sink.outcome .flush <;> simp [inductionHypothesis]

theorem length_turn (msg : Message K) (slots : List SinkSlot) :
    (turn format msg slots).1.slots.length = slots.length := by
  have controlled : ∀ ack, msg = .flush ack ∨ msg = .shutdown ack →
      (turn format msg slots).1.slots.length = slots.length := by
    intro ack control
    cases panicked : (flushSlots slots).2 with
    | false =>
        rcases control with rfl | rfl
        · rw [turn_flush_calm format ack panicked, length_flushSlots]
        · rw [turn_shutdown_calm format ack panicked, length_flushSlots]
    | true =>
        rw [turn_control_panic format ack panicked control, List.length_map, length_flushSlots]
  cases msg with
  | log key entry => rw [turn_log, serveSlots_fst, List.length_map]
  | flush ack => exact controlled ack (.inl rfl)
  | shutdown ack => exact controlled ack (.inr rfl)

/-! ## What a turn feeds to a slot -/

/-- The records among the messages, with the calls that they come from. -/
def recordsOf {K : Type} (msgs : List (Message K)) : List (K × LogEntry) :=
  msgs.filterMap fun msg =>
    match msg with
    | .log key entry => some (key, entry)
    | _ => none

theorem recordsOf_append (first second : List (Message K)) :
    recordsOf (first ++ second) = recordsOf first ++ recordsOf second :=
  List.filterMap_append

theorem recordsOf_control {msg : Message K} {ack : K}
    (control : msg = .flush ack ∨ msg = .shutdown ack) : recordsOf [msg] = [] := by
  rcases control with rfl | rfl <;> rfl

variable {format} in
/-- A turn of the writer's loop feeds a slot at most the record of its message. -/
theorem Fed.turn {behave : List SinkCall → Outcome} {minLevel : Level} {panics : Prop}
    {entries : List LogEntry} {served : List (LogEntry × Outcome)} {diverted : List LogEntry}
    {slot next : SinkSlot} {msg : Message K} {written more : List Bytes}
    (fed : Fed format behave minLevel panics entries served diverted slot written)
    (turned : SlotTurn format panics slot msg next more) :
    ∃ served diverted, Fed format behave minLevel panics
      (entries ++ (recordsOf [msg]).map Prod.snd) served diverted next (written ++ more) := by
  cases turned with
  | served => exact fed.record _
  | flushed control =>
      rw [recordsOf_control control, List.map_nil, List.append_nil, List.append_nil]
      exact ⟨served, diverted, fed.flush⟩
  | unwound panicked control reached =>
      rw [recordsOf_control control, List.map_nil, List.append_nil, List.append_nil]
      rcases reached with rfl | rfl
      · exact ⟨served, diverted, fed.flush.degrade panicked⟩
      · exact ⟨served, diverted, fed.degrade panicked⟩

/-! ## Panics -/

/-- Some sink can panic when it is flushed. -/
def FlushCanPanic (slots : List SinkSlot) : Prop :=
  ∃ slot ∈ slots, ∃ calls, slot.sink.behave (calls ++ [.flush]) = .panic

theorem flushCanPanic_of_panicked {slots : List SinkSlot}
    (panicked : (flushSlots slots).2 = true) : FlushCanPanic slots := by
  rw [flushSlots_panicked] at panicked
  obtain ⟨p, found⟩ := Option.isSome_iff_exists.mp panicked
  obtain ⟨bound, panics, _⟩ := List.findIdx?_eq_some_iff_getElem.mp found
  exact ⟨slots[p], List.getElem_mem bound, slots[p].sink.calls, of_decide_eq_true panics⟩

/-- Slots with the same sinks, whatever has happened to them. -/
def SameSinks (first second : List SinkSlot) : Prop :=
  first.map (fun slot => slot.sink.behave) = second.map fun slot => slot.sink.behave

theorem FlushCanPanic.congr {first second : List SinkSlot} (same : SameSinks first second)
    (panics : FlushCanPanic first) : FlushCanPanic second := by
  obtain ⟨slot, member, calls, panics⟩ := panics
  have behaves : slot.sink.behave ∈ second.map fun slot => slot.sink.behave :=
    same ▸ List.mem_map_of_mem member
  obtain ⟨other, present, equal⟩ := List.mem_map.mp behaves
  exact ⟨other, present, calls, equal ▸ panics⟩

/-- Lists of slots that have the same sinks place by place. -/
theorem sameSinks_of_slots {first second : List SinkSlot} (length : first.length = second.length)
    (slots : ∀ (i : Nat) (slot : SinkSlot), second[i]? = some slot →
      ∃ next : SinkSlot, first[i]? = some next ∧ next.sink.behave = slot.sink.behave) :
    SameSinks first second := by
  apply List.ext_getElem?
  intro i
  rw [List.getElem?_map, List.getElem?_map]
  cases found : second[i]? with
  | none =>
      have beyond := List.getElem?_eq_none_iff.mp found
      rw [List.getElem?_eq_none_iff.mpr (length ▸ beyond)]
  | some slot =>
      obtain ⟨next, reached, same⟩ := slots i slot found
      rw [reached, Option.map_some, Option.map_some, same]

theorem sameSinks_turn (msg : Message K) (slots : List SinkSlot) :
    SameSinks (turn format msg slots).1.slots slots := by
  apply sameSinks_of_slots (length_turn format msg slots)
  intro i slot found
  obtain ⟨next, reached, turned⟩ := slotTurn format msg found
  exact ⟨next, reached, turned.behave_eq⟩

theorem sameSinks_flushSlots (slots : List SinkSlot) : SameSinks (flushSlots slots).1 slots := by
  apply sameSinks_of_slots (length_flushSlots slots)
  intro i slot found
  obtain ⟨next, reached, rfl | rfl⟩ := flushSlots_slot found
  · exact ⟨_, reached, rfl⟩
  · exact ⟨_, reached, rfl⟩

end XosLog.Writer

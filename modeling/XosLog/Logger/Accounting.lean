import XosLog.Logger.Invariants

/-!
# Accounting of the records

Where every admitted record is: on its way to the writer, in its hands, handled,
counted, written to standard error, or dropped with the receiver.
-/

namespace XosLog.Logger

open Transition Writer

variable {n : Nat}

/-! ## The log calls of a sequence of messages -/

@[simp, grind =]
theorem logKeys_nil {K : Type} : logKeys ([] : List (Message K)) = [] :=
  rfl

@[grind =]
theorem logKeys_cons {K : Type} (msg : Message K) (rest : List (Message K)) :
    logKeys (msg :: rest) = (logKey msg).toList ++ logKeys rest := by
  cases msg <;> rfl

@[simp, grind =]
theorem logKeys_append {K : Type} (first second : List (Message K)) :
    logKeys (first ++ second) = logKeys first ++ logKeys second :=
  List.filterMap_append

/-- A log call of a sequence comes from a message of it. -/
theorem exists_log_of_mem_logKeys {K : Type} {msgs : List (Message K)} {key : K}
    (member : key ∈ logKeys msgs) : ∃ record, Message.log key record ∈ msgs := by
  obtain ⟨msg, present, named⟩ := List.mem_filterMap.mp member
  cases msg with
  | log found record =>
      cases named
      exact ⟨record, present⟩
  | flush => contradiction
  | shutdown => contradiction

/-- The points of a `log` call after its record has been admitted. -/
def CallerPc.sending : CallerPc → Bool
  | .logLock _ | .logSend _ | .logFull _ | .logOrphan _ => true
  | _ => false

attribute [local grind =] Function.update_apply CallerPc.sending WriterPc.inHand

/-! ## The invariant -/

/-- How the lists of the history are related to each other and to the state. -/
structure Accounted (setup : Setup) (s : State n) : Prop where
  /-- The channel is first in, first out. -/
  fifo : s.history.enqueued = s.history.taken ++ logKeys s.queue ++ s.history.discarded
  undiscarded : s.writer ≠ .exited → s.history.discarded = []
  in_hand : s.history.taken = s.history.handled ++ logKeys s.writer.inHand
  /-- A call that has returned enqueued its record, counted it or wrote it. -/
  completed_perm : s.history.completed.Perm
    (s.history.enqueued ++ s.history.refused ++ s.history.emergency)
  enqueued_sublist : s.history.enqueued.Sublist s.history.completed
  completed_past : ∀ key ∈ s.history.completed, key.seq < (s.callers key.caller).calls
  program_order : s.history.completed.Pairwise
    fun earlier later => earlier.caller = later.caller → earlier.seq < later.seq
  counted : s.dropped = s.history.refused.length
  admitted_split : ∀ key, key ∈ s.history.admitted ↔ key ∈ s.history.completed ∨
    (key.seq = (s.callers key.caller).calls ∧ (s.callers key.caller).pc.sending = true)
  none_refused : setup.backpressure = .block →
    s.history.refused = [] ∧ ∀ c record, (s.callers c).pc ≠ .logFull record

theorem accounted_init (setup : Setup) (owner : Fin n) :
    Accounted setup (State.init setup owner) where
  fifo := rfl
  undiscarded _ := rfl
  in_hand := rfl
  completed_perm := .refl []
  enqueued_sublist := .refl []
  completed_past _ member := absurd member List.not_mem_nil
  program_order := .nil
  counted := rfl
  admitted_split key := by simp [State.init, CallerPc.sending]
  none_refused _ := ⟨rfl, fun _ _ => CallerPc.noConfusion⟩

/-! ## Preservation -/

/-- After a message has been handled, nothing is in the writer's hands. -/
theorem inHand_handle (setup : Setup) (s : State n) (msg : Message (CallId n)) :
    (s.handle setup msg).writer.inHand = [] := by
  simp only
  split <;> rfl

section

variable {setup : Setup} {s next : State n} {action : Action n}
  (inv : Accounted setup s) (fired : Fires setup s action next)

include inv fired

theorem Accounted.fifo_step :
    next.history.enqueued = next.history.taken ++ logKeys next.queue ++ next.history.discarded := by
  have order := inv.fifo
  have kept := inv.undiscarded
  cases fired with
  | logSent here alive => simp [order, kept alive, logKeys_cons, logKey]
  | ctrlSent => simpa [logKeys_cons] using order
  | take here queued =>
      rw [queued, logKeys_cons] at order
      simpa using order
  | exit here =>
      have none := kept (by simp [here])
      simpa [none] using order
  | _ => exact order

theorem Accounted.undiscarded_step (alive : next.writer ≠ .exited) :
    next.history.discarded = [] := by
  have kept := inv.undiscarded
  cases fired <;> grind

theorem Accounted.in_hand_step :
    next.history.taken = next.history.handled ++ logKeys next.writer.inHand := by
  have hand := inv.in_hand
  cases fired with
  | take here => simp [hand, here, WriterPc.inHand, logKeys_cons]
  | handle here =>
      rw [inHand_handle]
      simpa [here, WriterPc.inHand, logKeys_cons] using hand
  | hangUp here | park here | exit here =>
      rw [here] at hand
      exact hand
  | _ => exact hand

theorem Accounted.completed_perm_step : next.history.completed.Perm
    (next.history.enqueued ++ next.history.refused ++ next.history.emergency) := by
  have same := inv.completed_perm
  cases fired with
  | logSent | logRefuse | logEmergency =>
      simp only [List.perm_iff_count, List.count_append] at same ⊢
      intro key
      have := same key
      omega
  | _ => exact same

theorem Accounted.enqueued_sublist_step : next.history.enqueued.Sublist next.history.completed := by
  have sub := inv.enqueued_sublist
  cases fired with
  | logSent => exact sub.append (.refl _)
  | logRefuse | logEmergency => exact sub.trans (List.sublist_append_left _ _)
  | _ => exact sub

theorem Accounted.completed_past_step {key : CallId n} (member : key ∈ next.history.completed) :
    key.seq < (next.callers key.caller).calls := by
  have past := inv.completed_past
  cases fired <;> grind

theorem Accounted.program_order_step : next.history.completed.Pairwise
    fun earlier later => earlier.caller = later.caller → earlier.seq < later.seq := by
  have order := inv.program_order
  have past := inv.completed_past
  cases fired with
  | logSent | logRefuse | logEmergency =>
      refine List.pairwise_append.mpr ⟨order, List.pairwise_singleton _ _, ?_⟩
      grind
  | _ => exact order

theorem Accounted.counted_step : next.dropped = next.history.refused.length := by
  have count := inv.counted
  cases fired <;> grind

theorem Accounted.admitted_split_step (key : CallId n) : key ∈ next.history.admitted ↔
    key ∈ next.history.completed ∨ (key.seq = (next.callers key.caller).calls ∧
      (next.callers key.caller).pc.sending = true) := by
  have split := inv.admitted_split
  obtain ⟨caller, seq⟩ := key
  cases fired <;> grind

theorem Accounted.none_refused_step (block : setup.backpressure = .block) :
    next.history.refused = [] ∧ ∀ c record, (next.callers c).pc ≠ .logFull record := by
  have none := inv.none_refused block
  cases fired <;> grind

/-- Every step keeps the records accounted for. -/
theorem Accounted.step : Accounted setup next where
  fifo := inv.fifo_step fired
  undiscarded := inv.undiscarded_step fired
  in_hand := inv.in_hand_step fired
  completed_perm := inv.completed_perm_step fired
  enqueued_sublist := inv.enqueued_sublist_step fired
  completed_past _ := inv.completed_past_step fired
  program_order := inv.program_order_step fired
  counted := inv.counted_step fired
  admitted_split := inv.admitted_split_step fired
  none_refused := inv.none_refused_step fired

end

/-- In every reachable state the records are accounted for. -/
theorem accounted_of_run {setup : Setup} {owner : Fin n} {actions : List (Action n)}
    {s : State n} (ran : run (step setup) (State.init setup owner) actions = some s) :
    Accounted setup s :=
  run_invariant (fun inv stepped => inv.step (fires_of_step stepped)) (accounted_init setup owner)
    ran

/-! ## Consequences -/

/-- The calls of one caller, among some. -/
def ofCaller (c : Fin n) (keys : List (CallId n)) : List (CallId n) :=
  keys.filter fun key => key.caller = c

namespace Accounted

variable {setup : Setup} {s : State n} (inv : Accounted setup s)

include inv

/-- No call is completed twice. -/
theorem completed_nodup : s.history.completed.Nodup := by
  apply inv.program_order.imp
  rintro earlier later ordered rfl
  exact lt_irrefl _ (ordered rfl)

theorem outcomes_nodup :
    (s.history.enqueued ++ s.history.refused ++ s.history.emergency).Nodup :=
  inv.completed_perm.nodup_iff.mp inv.completed_nodup

theorem handled_subset_enqueued : s.history.handled ⊆ s.history.enqueued := by
  rw [inv.fifo, inv.in_hand, List.append_assoc, List.append_assoc]
  exact List.subset_append_left _ _

theorem completed_subset_admitted : s.history.completed ⊆ s.history.admitted :=
  fun key member => (inv.admitted_split key).mpr (.inl member)

theorem handled_subset_admitted : s.history.handled ⊆ s.history.admitted :=
  fun _ member =>
    inv.completed_subset_admitted (inv.enqueued_sublist.subset (inv.handled_subset_enqueued member))

/-- The calls of a caller are completed in program order. -/
theorem ofCaller_completed_ordered (c : Fin n) :
    ((ofCaller c s.history.completed).map CallId.seq).Pairwise (· < ·) := by
  rw [List.pairwise_map]
  apply (inv.program_order.filter _).imp_of_mem
  intro earlier later early late ordered
  simp only [List.mem_filter, decide_eq_true_eq] at early late
  exact ordered (early.2.trans late.2.symm)

/-- The completed calls are the admitted ones that have returned. -/
theorem mem_completed_iff (key : CallId n) : key ∈ s.history.completed ↔
    key ∈ s.history.admitted ∧ key.seq < (s.callers key.caller).calls := by
  constructor
  · exact fun member => ⟨inv.completed_subset_admitted member, inv.completed_past key member⟩
  · rintro ⟨member, past⟩
    rcases (inv.admitted_split key).mp member with completed | ⟨current, _⟩
    · exact completed
    · exact absurd current past.ne

/-- An enqueued record has been handled, is on its way or was discarded. -/
theorem enqueued_cases {key : CallId n} (member : key ∈ s.history.enqueued) :
    key ∈ s.history.handled ∨ key ∈ logKeys s.pipeline ∨ key ∈ s.history.discarded := by
  rw [inv.fifo, inv.in_hand] at member
  simp only [List.mem_append, State.pipeline, logKeys_append] at member ⊢
  tauto

end Accounted

end XosLog.Logger

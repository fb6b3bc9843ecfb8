import XosLog.Logger.Step

/-!
# Coordination of the callers and the writer

The invariants of every reachable state: who holds the locks, which calls the
messages between a sender and the writer's hands come from, and which
acknowledgement channels are still open.
-/

namespace XosLog.Logger

open Transition Writer

variable {n : Nat}

/-! ## Messages and program points -/

@[simp, grind =]
theorem ctrlKey_message {K : Type} (control : Control) (ack : K) :
    ctrlKey (control.message ack) = some ack := by
  cases control <;> rfl

@[simp, grind =]
theorem logKey_message {K : Type} (control : Control) (ack : K) :
    logKey (control.message ack) = none := by
  cases control <;> rfl

theorem exists_control_of_ctrlKey {K : Type} {msg : Message K} {ack : K}
    (named : ctrlKey msg = some ack) : ∃ control : Control, msg = control.message ack := by
  cases msg with
  | log => contradiction
  | flush found => exact ⟨.flush, by cases named; rfl⟩
  | shutdown found => exact ⟨.shutdown, by cases named; rfl⟩

@[grind =]
theorem message_inj {K : Type} {first second : Control} {ack other : K} :
    first.message ack = second.message other ↔ first = second ∧ ack = other := by
  cases first <;> cases second <;> simp [Control.message]

@[grind .]
theorem message_ne_log {K : Type} {control : Control} {ack key : K} {record : LogEntry} :
    control.message ack ≠ .log key record := by
  cases control <;> exact nofun

/-- The points of a call at which the caller holds the sender. -/
def CallerPc.locksSender : CallerPc → Bool
  | .logSend _ | .logFull _ | .logOrphan _ | .ctrlSend _ => true
  | _ => false

/-- The points of a control call after its message has been sent. -/
def CallerPc.afterSend : CallerPc → Bool
  | .ctrlWait _ | .shutHandle | .shutJoin => true
  | _ => false

/-- The points at which a call begins. -/
@[grind .]
theorem start_cases (op : Op) :
    (∃ entry clock stack, op.start = .logLoad entry clock stack) ∨
      op.start = .ctrlLock .flush ∨ op.start = .shutStore := by
  rcases op with ⟨entry, clock, stack⟩ | (_ | _)
  · exact .inl ⟨entry, clock, stack, rfl⟩
  · exact .inr (.inl rfl)
  · exact .inr (.inr rfl)

/-- The message in the writer's hands. -/
def WriterPc.inHand : WriterPc n → List (Message (CallId n))
  | .handling msg => [msg]
  | _ => []

/-- The messages that have been sent and not yet handled, oldest first. -/
def State.pipeline (s : State n) : List (Message (CallId n)) :=
  s.writer.inHand ++ s.queue

attribute [local grind =] Function.update_apply CallerPc.locksSender CallerPc.afterSend
  WriterPc.inHand State.pipeline

/-! ## The invariant -/

/-- How callers and writer are coordinated. -/
structure Coordinated (s : State n) : Prop where
  sender : ∀ c, s.txLock = some c ↔ (s.callers c).pc.locksSender = true
  joiner : ∀ c, s.handleLock = some c ↔ (s.callers c).pc = .shutJoin
  owns : ∀ c, (s.callers c).pc ≠ .idle → 0 < (s.callers c).handles
  drained : s.writer = .exited → s.queue = []
  /-- A record on its way comes from a call that has returned. -/
  logs_past : ∀ key record, Message.log key record ∈ s.pipeline →
    key.seq < (s.callers key.caller).calls
  /-- A control message on its way comes from a call that waits for it. -/
  controls_wait : ∀ control key, control.message key ∈ s.pipeline →
    (s.callers key.caller).pc = .ctrlWait control ∧
      key.seq = (s.callers key.caller).calls ∧ s.acks key = .live
  controls_nodup : (s.pipeline.filterMap ctrlKey).Nodup
  /-- A call that is not yet acknowledged has its message on the way. -/
  live_sent : ∀ c control, (s.callers c).pc = .ctrlWait control → s.acks (s.id c) = .live →
    control.message (s.id c) ∈ s.pipeline
  /-- Only calls that have sent their message have a resolved acknowledgement. -/
  resolved_past : ∀ key, s.acks key ≠ .live → key.seq < (s.callers key.caller).calls ∨
    (key.seq = (s.callers key.caller).calls ∧ (s.callers key.caller).pc.afterSend = true)

theorem coordinated_init (setup : Setup) (owner : Fin n) :
    Coordinated (State.init setup owner) where
  sender c := by simp [State.init, CallerPc.locksSender]
  joiner c := by simp [State.init]
  owns c := by simp [State.init]
  drained := by simp [State.init]
  logs_past := by simp [State.init, State.pipeline, WriterPc.inHand]
  controls_wait := by simp [State.init, State.pipeline, WriterPc.inHand]
  controls_nodup := by simp [State.init, State.pipeline, WriterPc.inHand]
  live_sent c control := by simp [State.init]
  resolved_past key := by simp [State.init]

/-! ## The pipeline -/

theorem pipeline_handling {s : State n} {msg : Message (CallId n)}
    (here : s.writer = .handling msg) : s.pipeline = msg :: s.queue := by
  rw [State.pipeline, here]
  rfl

@[simp]
theorem pipeline_handle (setup : Setup) (s : State n) (msg : Message (CallId n)) :
    (s.handle setup msg).pipeline = s.queue := by
  unfold State.pipeline
  simp only
  split <;> rfl

theorem pipeline_final {s : State n} (here : s.writer = .final) : s.pipeline = s.queue := by
  rw [State.pipeline, here]
  rfl

@[simp]
theorem pipeline_exit (s : State n) : s.exit.pipeline = [] :=
  rfl

theorem pipeline_take {s : State n} {msg : Message (CallId n)} {rest : List (Message (CallId n))}
    {waiting : Bool} (here : s.writer = .recv waiting) (queued : s.queue = msg :: rest) :
    (s.take msg rest).pipeline = s.pipeline := by
  simp [State.pipeline, here, queued, WriterPc.inHand]

/-- Handling a message resolves its acknowledgement and no other one. -/
theorem resolve_eq_live {acks : CallId n → Ack} {msg : Message (CallId n)}
    {acked : Option (CallId n)} {key : CallId n} :
    resolve acks msg acked key = .live ↔ acks key = .live ∧ ctrlKey msg ≠ some key := by
  unfold resolve
  cases named : ctrlKey msg with
  | none => simp
  | some ack =>
      simp only
      by_cases same : key = ack
      · subst same
        simp only [Function.update_self, ne_eq, not_true, and_false, iff_false]
        split <;> exact Ack.noConfusion
      · have other : ¬ some ack = some key := fun equal => same (Option.some.inj equal).symm
        simp [Function.update_of_ne same, other]

/-- Dropping the queued messages resolves their acknowledgements and no other
one. -/
theorem abandon_eq_live {acks : CallId n → Ack} {msgs : List (Message (CallId n))}
    {key : CallId n} :
    abandon acks msgs key = .live ↔ acks key = .live ∧ key ∉ msgs.filterMap ctrlKey := by
  unfold abandon
  split
  · rename_i member
    exact iff_of_false Ack.noConfusion fun live => live.2 member
  · rename_i absent
    exact (and_iff_left absent).symm

/-- A name is that of the current call of its caller when the number agrees. -/
theorem eq_id {s : State n} {key : CallId n} (current : key.seq = (s.callers key.caller).calls) :
    key = s.id key.caller := by
  obtain ⟨caller, seq⟩ := key
  exact congrArg (CallId.mk caller) current

/-- A caller whose acknowledgement is resolved has no message on the way. -/
theorem Coordinated.caller_ne {s : State n} (inv : Coordinated s) {c : Fin n}
    (resolved : s.acks (s.id c) ≠ .live) {control : Control} {key : CallId n}
    (member : control.message key ∈ s.pipeline) : key.caller ≠ c := by
  rintro rfl
  obtain ⟨_, current, live⟩ := inv.controls_wait control key member
  rw [eq_id current] at live
  exact resolved live

/-- A waiting caller is answered by the handling of its own message. -/
theorem Coordinated.handles_own {s : State n} (inv : Coordinated s) {msg : Message (CallId n)}
    (here : s.writer = .handling msg) {c : Fin n} {control : Control}
    (waiting : (s.callers c).pc = .ctrlWait control) (live : s.acks (s.id c) = .live)
    {acked : Option (CallId n)} (resolved : resolve s.acks msg acked (s.id c) ≠ .live) :
    msg = control.message (s.id c) := by
  have named : ctrlKey msg = some (s.id c) := by
    by_contra other
    exact resolved (resolve_eq_live.mpr ⟨live, other⟩)
  obtain ⟨found, rfl⟩ := exists_control_of_ctrlKey named
  have waitsFor := (inv.controls_wait found (s.id c)
    (by rw [pipeline_handling here]; exact List.mem_cons_self)).1
  rw [waiting] at waitsFor
  rw [CallerPc.ctrlWait.inj waitsFor]

/-! ## Preservation -/

section

variable {setup : Setup} {s next : State n} {action : Action n}
  (inv : Coordinated s) (fired : Fires setup s action next)

include inv fired

theorem Coordinated.sender_step (c : Fin n) :
    next.txLock = some c ↔ (next.callers c).pc.locksSender = true := by
  have held := inv.sender
  cases fired <;> grind

theorem Coordinated.joiner_step (c : Fin n) :
    next.handleLock = some c ↔ (next.callers c).pc = .shutJoin := by
  have held := inv.joiner
  cases fired <;> grind

theorem Coordinated.owns_step (c : Fin n) (busy : (next.callers c).pc ≠ .idle) :
    0 < (next.callers c).handles := by
  have owned := inv.owns
  cases fired <;> grind

theorem Coordinated.drained_step (gone : next.writer = .exited) : next.queue = [] := by
  have empty := inv.drained
  cases fired <;> grind

theorem Coordinated.logs_past_step {key : CallId n} {record : LogEntry}
    (member : .log key record ∈ next.pipeline) : key.seq < (next.callers key.caller).calls := by
  have past := inv.logs_past
  cases fired with
  | handle here =>
      rw [pipeline_handle] at member
      exact past key record (by rw [pipeline_handling here]; exact List.mem_cons_of_mem _ member)
  | exit here => simp at member
  | _ => grind

theorem Coordinated.controls_wait_step {control : Control} {key : CallId n}
    (member : control.message key ∈ next.pipeline) :
    (next.callers key.caller).pc = .ctrlWait control ∧
      key.seq = (next.callers key.caller).calls ∧ next.acks key = .live := by
  have waits := inv.controls_wait
  cases fired with
  | @handle msg here =>
      rw [pipeline_handle] at member
      have onWay : control.message key ∈ s.pipeline := by
        rw [pipeline_handling here]
        exact List.mem_cons_of_mem _ member
      obtain ⟨waiting, current, live⟩ := waits control key onWay
      have other : ctrlKey msg ≠ some key := by
        intro same
        have distinct := inv.controls_nodup
        rw [pipeline_handling here, List.filterMap_cons_some same, List.nodup_cons] at distinct
        exact distinct.1 (List.mem_filterMap.mpr ⟨_, member, ctrlKey_message control key⟩)
      exact ⟨waiting, current, resolve_eq_live.mpr ⟨live, other⟩⟩
  | exit here => simp at member
  | flushAcked here resolved =>
      have other := inv.caller_ne resolved member
      grind
  | shutAcked here resolved =>
      have other := inv.caller_ne resolved member
      grind
  | @ctrlSent c sent here alive accepts =>
      -- The sender's own acknowledgement is still open.
      have fresh : s.acks (s.id c) = .live := by
        by_contra resolved
        have past := inv.resolved_past _ resolved
        grind
      grind
  | _ => grind

theorem Coordinated.controls_nodup_step : (next.pipeline.filterMap ctrlKey).Nodup := by
  have distinct := inv.controls_nodup
  cases fired with
  | handle here =>
      rw [pipeline_handling here] at distinct
      rw [pipeline_handle]
      exact distinct.sublist ((List.sublist_cons_self _ _).filterMap ctrlKey)
  | exit here => simp
  | take here queued => rwa [pipeline_take here queued]
  | @ctrlSent c sent here alive accepts =>
      have fresh : s.id c ∉ s.pipeline.filterMap ctrlKey := by
        intro member
        obtain ⟨msg, onWay, named⟩ := List.mem_filterMap.mp member
        obtain ⟨control, rfl⟩ := exists_control_of_ctrlKey named
        have waits := (inv.controls_wait control (s.id c) (by grind)).1
        grind
      have appended : (s.sendControl c sent).pipeline = s.pipeline ++ [sent.message (s.id c)] := by
        grind
      rw [appended, List.filterMap_append]
      simpa [List.nodup_append] using ⟨distinct, by grind⟩
  | @logSent c record here alive accepts =>
      have appended : (s.sendLog c record).pipeline = s.pipeline ++ [.log (s.id c) record] := by
        grind
      have silent : [Message.log (s.id c) record].filterMap ctrlKey = [] := rfl
      rwa [appended, List.filterMap_append, silent, List.append_nil]
  | _ => grind

theorem Coordinated.live_sent_step {c : Fin n} {control : Control}
    (waits : (next.callers c).pc = .ctrlWait control) (live : next.acks (next.id c) = .live) :
    control.message (next.id c) ∈ next.pipeline := by
  have sent := inv.live_sent
  cases fired with
  | @handle msg here =>
      obtain ⟨wasLive, other⟩ := resolve_eq_live.mp live
      have onWay := sent c control waits wasLive
      rw [pipeline_handling here] at onWay
      rcases List.mem_cons.mp onWay with same | later
      · exact absurd (same ▸ ctrlKey_message control (s.id c)) other
      · rwa [pipeline_handle]
  | exit here =>
      obtain ⟨wasLive, kept⟩ := abandon_eq_live.mp live
      have onWay := sent c control waits wasLive
      rw [pipeline_final here] at onWay
      exact absurd (List.mem_filterMap.mpr ⟨_, onWay, ctrlKey_message control (s.id c)⟩) kept
  | _ => grind

theorem Coordinated.resolved_past_step {key : CallId n} (resolved : next.acks key ≠ .live) :
    key.seq < (next.callers key.caller).calls ∨
      (key.seq = (next.callers key.caller).calls ∧
        (next.callers key.caller).pc.afterSend = true) := by
  have past := inv.resolved_past
  have waits := inv.controls_wait
  cases fired with
  | @handle msg here =>
      by_cases wasLive : s.acks key = .live
      · have named : ctrlKey msg = some key := by
          by_contra other
          exact resolved (resolve_eq_live.mpr ⟨wasLive, other⟩)
        obtain ⟨control, rfl⟩ := exists_control_of_ctrlKey named
        have waiting := waits control key (by rw [pipeline_handling here]; exact List.mem_cons_self)
        grind
      · exact past key wasLive
  | exit here =>
      by_cases wasLive : s.acks key = .live
      · have queued : key ∈ s.queue.filterMap ctrlKey := by
          by_contra kept
          exact resolved (abandon_eq_live.mpr ⟨wasLive, kept⟩)
        obtain ⟨msg, member, named⟩ := List.mem_filterMap.mp queued
        obtain ⟨control, rfl⟩ := exists_control_of_ctrlKey named
        have waiting := waits control key (by rwa [pipeline_final here])
        grind
      · exact past key wasLive
  | _ => grind

/-- Every step keeps callers and writer coordinated. -/
theorem Coordinated.step : Coordinated next where
  sender := inv.sender_step fired
  joiner := inv.joiner_step fired
  owns := inv.owns_step fired
  drained := inv.drained_step fired
  logs_past _ _ := inv.logs_past_step fired
  controls_wait _ _ := inv.controls_wait_step fired
  controls_nodup := inv.controls_nodup_step fired
  live_sent _ _ := inv.live_sent_step fired
  resolved_past _ := inv.resolved_past_step fired

end

/-- Every reachable state is coordinated. -/
theorem coordinated_of_run {setup : Setup} {owner : Fin n} {actions : List (Action n)}
    {s : State n} (ran : run (step setup) (State.init setup owner) actions = some s) :
    Coordinated s :=
  run_invariant (fun inv stepped => inv.step (fires_of_step stepped))
    (coordinated_init setup owner) ran

end XosLog.Logger

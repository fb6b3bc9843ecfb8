import XosLog.Context.Guards
import XosLog.Keyed

/-!
# Merging context into records

The merged context of a stack keeps each key at the place of its first
occurrence with the value of its last one, so a run of frames can be replaced
by the frame of its snapshot.  A record takes over the fields whose keys it
does not have.
-/

namespace XosLog.Context

/-- All fields of a stack, from the outermost frame inwards. -/
def stackFields (stack : List Frame) : List Field :=
  stack.flatMap Frame.fields

theorem setField_eq_upsert (merged : List Field) (field : Field) :
    setField merged field = Keyed.upsert Field.key merged field := by
  induction merged with
  | nil => rfl
  | cons existing rest ih => rw [setField, Keyed.upsert, ih]

theorem foldl_setField (fields merged : List Field) :
    fields.foldl setField merged = fields.foldl (Keyed.upsert Field.key) merged := by
  have same : setField = Keyed.upsert Field.key := by
    funext merged field
    exact setField_eq_upsert merged field
  rw [same]

theorem foldl_frames (stack : List Frame) (merged : List Field) :
    stack.foldl (fun merged frame => frame.fields.foldl setField merged) merged =
      (stackFields stack).foldl (Keyed.upsert Field.key) merged := by
  rw [stackFields, ← foldl_setField, List.foldl_flatMap]

/-- The merged context is made by inserting the fields one after another. -/
theorem currentContext_eq (stack : List Frame) :
    currentContext stack = (stackFields stack).foldl (Keyed.upsert Field.key) [] :=
  foldl_frames stack []

theorem currentContext_distinct (stack : List Frame) :
    ((currentContext stack).map Field.key).Nodup := by
  rw [currentContext_eq]
  exact Keyed.nodup_foldl_upsert Field.key _ List.nodup_nil

theorem mem_currentContext_keys (stack : List Frame) (key : Text) :
    key ∈ (currentContext stack).map Field.key ↔ key ∈ (stackFields stack).map Field.key := by
  rw [currentContext_eq, Keyed.mem_map_foldl_upsert]
  simp

/-! ## Values -/

/-- A field is the last one under its key in the innermost frame that has it. -/
def Innermost (stack : List Frame) (field : Field) : Prop :=
  ∃ outer frame inner before after,
    stack = outer ++ frame :: inner ∧
    frame.fields = before ++ field :: after ∧
    (∀ other ∈ after, other.key ≠ field.key) ∧
    ∀ deeper ∈ inner, ∀ other ∈ deeper.fields, other.key ≠ field.key

theorem exists_last_of_getLast? {fields : List Field} {key : Text} {field : Field}
    (last : (fields.filter fun other => other.key = key).getLast? = some field) :
    ∃ before after, fields = before ++ field :: after ∧
      ∀ other ∈ after, other.key ≠ key := by
  induction fields using List.reverseRecOn with
  | nil => cases last
  | append_singleton fields final ih =>
      rw [List.filter_append] at last
      by_cases hit : final.key = key
      · rw [List.filter_cons_of_pos (by simpa using hit), List.filter_nil,
          List.getLast?_concat] at last
        obtain rfl := Option.some.inj last
        exact ⟨fields, [], rfl, by simp⟩
      · rw [List.filter_cons_of_neg (by simpa using hit), List.filter_nil,
          List.append_nil] at last
        obtain ⟨before, after, rfl, others⟩ := ih last
        refine ⟨before, after ++ [final], by simp, ?_⟩
        intro other member
        rcases List.mem_append.mp member with early | final
        · exact others other early
        · rwa [List.mem_singleton.mp final]

/-- The last field under a key stands in the innermost frame that has the key. -/
theorem innermost_of_getLast? {stack : List Frame} {field : Field}
    (last : ((stackFields stack).filter fun other => other.key = field.key).getLast? =
      some field) : Innermost stack field := by
  induction stack using List.reverseRecOn with
  | nil => cases last
  | append_singleton stack frame ih =>
      simp only [stackFields, List.flatMap_append, List.flatMap_singleton, List.filter_append,
        List.getLast?_append] at last
      cases found : (frame.fields.filter fun other => other.key = field.key).getLast? with
      | some here =>
          rw [found, Option.some_or] at last
          obtain rfl := Option.some.inj last
          obtain ⟨before, after, split, others⟩ := exists_last_of_getLast? found
          exact ⟨stack, frame, [], before, after, rfl, split, others, by simp⟩
      | none =>
          rw [found, Option.none_or] at last
          obtain ⟨outer, owner, inner, before, after, rfl, split, others, deeper⟩ := ih last
          refine ⟨outer, owner, inner ++ [frame], before, after, by simp, split, others, ?_⟩
          intro other member
          rcases List.mem_append.mp member with early | final
          · exact deeper other early
          · rw [List.mem_singleton.mp final]
            intro field' inside same
            have kept : field' ∈ frame.fields.filter fun other => other.key = field.key :=
              List.mem_filter.mpr ⟨inside, decide_eq_true same⟩
            rw [List.getLast?_eq_none_iff.mp found] at kept
            contradiction

theorem innermost_of_mem {stack : List Frame} {field : Field}
    (member : field ∈ currentContext stack) : Innermost stack field := by
  apply innermost_of_getLast?
  have found := Keyed.find?_of_mem Field.key (currentContext_distinct stack) member
  rw [currentContext_eq, Keyed.find?_foldl_upsert] at found
  exact found

/-! ## The record's own fields -/

/-- A record takes over the context fields whose keys it does not have. -/
theorem mergeContext_fields (entry : LogEntry) {context : List Field}
    (distinct : (context.map Field.key).Nodup) :
    entry.mergeContext context = { entry with
      fields := entry.fields ++
        context.filter fun field => field.key ∉ entry.fields.map Field.key } := by
  induction context generalizing entry with
  | nil => simp [LogEntry.mergeContext]
  | cons field context ih =>
      rw [List.map_cons, List.nodup_cons] at distinct
      have any : entry.fields.any (fun existing => existing.key = field.key) =
          decide (field.key ∈ entry.fields.map Field.key) := by
        rw [Bool.eq_iff_iff]
        simp
      rw [LogEntry.mergeContext, any]
      by_cases own : field.key ∈ entry.fields.map Field.key
      · rw [if_pos (decide_eq_true own), ih entry distinct.2,
          List.filter_cons_of_neg (by simpa using own)]
      · have later : context.filter (fun other =>
              other.key ∉ (entry.fields ++ [field]).map Field.key) =
            context.filter fun other => other.key ∉ entry.fields.map Field.key := by
          apply List.filter_congr
          intro other member
          have different : other.key ≠ field.key := fun same =>
            distinct.1 (same ▸ List.mem_map_of_mem member)
          simp [different]
        rw [if_neg (by simpa using own), ih _ distinct.2, later,
          List.filter_cons_of_pos (by simpa using own)]
        simp

/-- What a record takes over from a stack: each key that occurs in some frame
and not among the record's own, once, in order of first occurrence, with its
innermost value. -/
structure Precedence (stack : List Frame) (own appended : List Field) : Prop where
  once : (appended.map Field.key).Nodup
  occurring : ∀ key, key ∈ appended.map Field.key ↔
    key ∈ (stackFields stack).map Field.key ∧ key ∉ own.map Field.key
  ordered : (appended.map Field.key).Pairwise fun first second =>
    ((stackFields stack).map Field.key).idxOf first <
      ((stackFields stack).map Field.key).idxOf second
  innermost : ∀ field ∈ appended, Innermost stack field

theorem precedence_filter (stack : List Frame) (own : List Field) :
    Precedence stack own
      ((currentContext stack).filter fun field => field.key ∉ own.map Field.key) where
  once := (currentContext_distinct stack).sublist (List.filter_sublist.map Field.key)
  occurring key := by
    rw [← mem_currentContext_keys]
    simp only [List.mem_map, List.mem_filter, decide_eq_true_eq]
    constructor
    · rintro ⟨field, ⟨member, absent⟩, rfl⟩
      exact ⟨⟨field, member, rfl⟩, absent⟩
    · rintro ⟨⟨field, member, rfl⟩, absent⟩
      exact ⟨field, ⟨member, absent⟩, rfl⟩
  ordered := by
    have all := Keyed.pairwise_idxOf_foldl_upsert Field.key (stackFields stack)
    rw [← currentContext_eq] at all
    exact all.sublist (List.filter_sublist.map Field.key)
  innermost field member := innermost_of_mem (List.mem_of_mem_filter member)

/-- Merging the context of a stack keeps the record's own fields as a prefix and
appends the others by precedence. -/
theorem mergeContext_precedence (stack : List Frame) (entry : LogEntry) :
    ∃ appended, entry.mergeContext (currentContext stack) =
      { entry with fields := entry.fields ++ appended } ∧
      Precedence stack entry.fields appended :=
  ⟨_, mergeContext_fields entry (currentContext_distinct stack),
    precedence_filter stack entry.fields⟩

/-! ## Snapshots -/

/-- Frames can be replaced by one frame that holds their merged context. -/
theorem currentContext_collapse (outer middle inner : List Frame) (id : Nat) :
    currentContext (outer ++ ⟨id, currentContext middle⟩ :: inner) =
      currentContext (outer ++ middle ++ inner) := by
  have collapsed : ∀ merged,
      (currentContext middle).foldl (Keyed.upsert Field.key) merged =
        (stackFields middle).foldl (Keyed.upsert Field.key) merged := by
    intro merged
    rw [currentContext_eq, Keyed.foldl_upsert_foldl]
  simp only [currentContext_eq (outer ++ _), currentContext_eq (outer ++ _ ++ _), stackFields,
    List.flatMap_append, List.flatMap_cons, List.foldl_append, collapsed]

variable {τ : Type} [DecidableEq τ]

@[simp]
theorem enter_stack (process : Process τ) (thread : τ) (snapshot : ContextSnapshot) :
    (process.enter thread snapshot).stack thread =
      process.stack thread ++ [⟨process.nextFrameId, snapshot.fields⟩] :=
  Function.update_self ..

/-- How snapshots compose with the stacks of the threads that enter them. -/
structure SnapshotLaws (process : Process τ) (thread : τ) : Prop where
  collapse : ∀ (outer middle inner : List Frame) (id : Nat),
    currentContext (outer ++ ⟨id, (captureContext middle).fields⟩ :: inner) =
      currentContext (outer ++ middle ++ inner)
  /-- Entering a snapshot on a thread without context reproduces it. -/
  reenter : process.stack thread = [] → ∀ captured : List Frame,
    currentContext ((process.enter thread (captureContext captured)).stack thread) =
      currentContext captured
  /-- Entering the thread's own snapshot changes nothing. -/
  idempotent : currentContext
      ((process.enter thread (captureContext (process.stack thread))).stack thread) =
    currentContext (process.stack thread)

theorem snapshots_compose (process : Process τ) (thread : τ) : SnapshotLaws process thread where
  collapse := currentContext_collapse
  reenter none captured := by
    have collapsed := currentContext_collapse [] captured [] process.nextFrameId
    rw [List.nil_append, List.nil_append, List.append_nil] at collapsed
    rw [enter_stack, none]
    exact collapsed
  idempotent := by
    rw [enter_stack, currentContext, List.foldl_append, ← currentContext]
    change (currentContext (process.stack thread)).foldl setField _ = _
    rw [foldl_setField]
    exact Keyed.foldl_upsert_of_subset Field.key (currentContext_distinct _) (List.Subset.refl _)

end XosLog.Context

import KnowledgeCompiler.Parallel.Emission

namespace KnowledgeCompiler.Parallel.EventJournal

open Lib Method

variable {hasher : Hasher} {journal next : EventJournal}

-- The history of one aggregate.
def events_of (journal : EventJournal) (aggregate_id : String) : List DomainEvent :=
  journal.events.filter (·.aggregate_id = aggregate_id)

def is_sealed (hasher : Hasher) (event : DomainEvent) : Prop :=
  event.event_type ∈ PARALLEL_RUNTIME_EVENT_TYPES ∧
    event.payload_sha256 = hasher.hexdigest (Utf8.encode event.payload_json) ∧
    event.event_id = stable_id hasher "evt" [.str event.event_type, .str event.aggregate_id,
      .str event.idempotency_key, .str event.payload_sha256]

-- What every aggregate's events are numbered with, and that their times never go back.
structure Ordered (journal : EventJournal) : Prop where
  numbered : ∀ aggregate_id, (journal.events_of aggregate_id).map DomainEvent.sequence =
    List.range' 1 (journal.events_of aggregate_id).length
  counted : ∀ aggregate_id, (journal.sequences.get? aggregate_id).getD 0 =
    (journal.events_of aggregate_id).length
  last : ∀ aggregate_id, journal.last_occurred_at.get? aggregate_id =
    (journal.events_of aggregate_id).getLast?.map DomainEvent.occurred_at
  aware : ∀ event ∈ journal.events, event.occurred_at.utcoffset.isSome = true
  chronological : ∀ aggregate_id, (journal.events_of aggregate_id).Pairwise fun first second =>
    first.occurred_at.instant ≤ second.occurred_at.instant

-- A time that is not before the last one is not before any.
theorem Ordered.latest (hordered : journal.Ordered) {aggregate_id : String} {occurred_at : Datetime}
    (hlater : ∀ previous, journal.last_occurred_at.get? aggregate_id = some previous →
      occurred_at.lt? previous = .ok false) :
    ∀ event ∈ journal.events_of aggregate_id, event.occurred_at.instant ≤ occurred_at.instant := by
  intro event hevent
  have hchronological := hordered.chronological aggregate_id
  have hlast := hordered.last aggregate_id
  rcases List.eq_nil_or_concat (journal.events_of aggregate_id) with hnil | ⟨before, latest, hsplit⟩
  · rw [hnil] at hevent
    cases hevent
  · rw [List.concat_eq_append] at hsplit
    rw [hsplit, List.getLast?_concat] at hlast
    rw [hsplit] at hevent hchronological
    have hmem : latest ∈ journal.events := by
      have hin : latest ∈ journal.events_of aggregate_id := hsplit ▸ List.mem_append_right _ (by simp)
      exact (List.mem_filter.mp hin).1
    have hinstant : latest.occurred_at.instant ≤ occurred_at.instant := by
      have hnot := hlater _ hlast
      unfold Datetime.lt? at hnot
      split_ifs at hnot
      exact not_lt.mp (of_decide_eq_false (Except.ok.inj hnot))
    rcases List.mem_append.mp hevent with hbefore | hlatest
    · exact ((List.pairwise_append.mp hchronological).2.2 event hbefore latest (by simp)).trans hinstant
    · rw [List.mem_singleton.mp hlatest]
      exact hinstant

section Append

variable {event_type aggregate_id idempotency_key : String} {payload : List (String × Json)}
  {occurred_at : Datetime}

-- The event that an append writes.
def new_event (hasher : Hasher) (journal : EventJournal) (event_type aggregate_id : String)
    (payload : List (String × Json)) (occurred_at : Datetime) (idempotency_key : String) :
    DomainEvent where
  event_id := stable_id hasher "evt" [.str event_type, .str aggregate_id, .str idempotency_key,
    .str (canonical_sha256 hasher (.obj payload))]
  event_type := event_type
  aggregate_id := aggregate_id
  sequence := (journal.sequences.get? aggregate_id).getD 0 + 1
  occurred_at := occurred_at
  payload_json := canonical_json (.obj payload)
  payload_sha256 := canonical_sha256 hasher (.obj payload)
  idempotency_key := idempotency_key

theorem events_of_record (aggregate : String) :
    (journal.record hasher event_type aggregate_id payload occurred_at idempotency_key).events_of
        aggregate =
      journal.events_of aggregate ++ if aggregate_id = aggregate then
        [journal.new_event hasher event_type aggregate_id payload occurred_at idempotency_key]
      else [] := by
  unfold events_of record
  rw [List.filter_append, List.filter_singleton]
  by_cases haggregate : aggregate_id = aggregate
  · rw [if_pos haggregate]
    simp [haggregate, new_event]
  · rw [if_neg haggregate]
    simp [haggregate]

theorem Ordered.record (hordered : journal.Ordered) (haware : occurred_at.utcoffset.isSome = true)
    (hlater : ∀ previous, journal.last_occurred_at.get? aggregate_id = some previous →
      occurred_at.lt? previous = .ok false) :
    (journal.record hasher event_type aggregate_id payload occurred_at idempotency_key).Ordered := by
  constructor
  · intro aggregate
    rw [events_of_record]
    by_cases haggregate : aggregate_id = aggregate
    · rw [if_pos haggregate, List.map_append, hordered.numbered, List.length_append,
        List.length_singleton, List.range'_concat, ← hordered.counted, haggregate]
      simp [new_event, add_comm]
    · rw [if_neg haggregate, List.append_nil]
      exact hordered.numbered aggregate
  · intro aggregate
    rw [events_of_record]
    change ((journal.sequences.set aggregate_id _).get? aggregate).getD 0 = _
    rw [Dict.get?_set]
    by_cases haggregate : aggregate_id = aggregate
    · rw [if_pos haggregate.symm, if_pos haggregate, Option.getD_some, hordered.counted,
        List.length_append, haggregate]
      rfl
    · rw [if_neg (Ne.symm haggregate), if_neg haggregate, List.append_nil]
      exact hordered.counted aggregate
  · intro aggregate
    rw [events_of_record]
    change (journal.last_occurred_at.set aggregate_id occurred_at).get? aggregate = _
    rw [Dict.get?_set]
    by_cases haggregate : aggregate_id = aggregate
    · rw [if_pos haggregate.symm, if_pos haggregate, List.getLast?_concat]
      rfl
    · rw [if_neg (Ne.symm haggregate), if_neg haggregate, List.append_nil]
      exact hordered.last aggregate
  · intro event hevent
    rcases List.mem_append.mp hevent with hold | hnew
    · exact hordered.aware event hold
    · rw [List.mem_singleton.mp hnew]
      exact haware
  · intro aggregate
    rw [events_of_record]
    by_cases haggregate : aggregate_id = aggregate
    · rw [if_pos haggregate, List.pairwise_append]
      refine ⟨hordered.chronological aggregate, List.pairwise_singleton _ _, ?_⟩
      intro first hfirst second hsecond
      rw [List.mem_singleton.mp hsecond]
      exact hordered.latest (haggregate ▸ hlater) first hfirst
    · rw [if_neg haggregate, List.append_nil]
      exact hordered.chronological aggregate

theorem Ordered.append (hordered : journal.Ordered)
    (happend : journal.append hasher event_type aggregate_id payload occurred_at idempotency_key =
      .ok next) : next.Ordered := by
  obtain ⟨-, haware, ⟨_, -, rfl⟩ | ⟨-, hlater, rfl⟩⟩ := append_returns happend
  · exact hordered
  · exact hordered.record (Option.isNone_eq_false_iff.mp haware) hlater

theorem sealed_append (hsealed : ∀ event ∈ journal.events, is_sealed hasher event)
    (happend : journal.append hasher event_type aggregate_id payload occurred_at idempotency_key =
      .ok next) : ∀ event ∈ next.events, is_sealed hasher event := by
  obtain ⟨htype, -, ⟨_, -, rfl⟩ | ⟨-, -, rfl⟩⟩ := append_returns happend
  · exact hsealed
  · intro event hevent
    rcases List.mem_append.mp hevent with hold | hnew
    · exact hsealed event hold
    · rw [List.mem_singleton.mp hnew]
      exact ⟨htype, rfl, rfl⟩

end Append

-- An append as a caller asks for it; one that raises leaves the journal as it is.
structure Append where
  event_type : String
  aggregate_id : String
  payload : List (String × Json)
  occurred_at : Datetime
  idempotency_key : String

def tried (hasher : Hasher) (journal : EventJournal) (asked : Append) : EventJournal :=
  match journal.append hasher asked.event_type asked.aggregate_id asked.payload asked.occurred_at
      asked.idempotency_key with
  | .ok next => next
  | .error _ => journal

-- The journal after some appends.
def journal_of (hasher : Hasher) (asked : List Append) : EventJournal :=
  asked.foldl (tried hasher) {}

theorem tried_cases (journal : EventJournal) (asked : Append) :
    journal.tried hasher asked = journal ∨
      journal.append hasher asked.event_type asked.aggregate_id asked.payload asked.occurred_at
        asked.idempotency_key = .ok (journal.tried hasher asked) := by
  unfold tried
  cases journal.append hasher asked.event_type asked.aggregate_id asked.payload asked.occurred_at
      asked.idempotency_key with
  | ok next => exact .inr rfl
  | error raised => exact .inl rfl

theorem events_tried (journal : EventJournal) (asked : Append) :
    journal.events <+: (journal.tried hasher asked).events := by
  rcases @tried_cases hasher journal asked with hsame | happend
  · rw [hsame]
  · rcases append_cases happend with ⟨_, -, hsame⟩ | ⟨-, hrecord⟩
    · rw [hsame]
    · rw [hrecord]
      exact List.prefix_append _ _

theorem events_foldl (journal : EventJournal) (asked : List Append) :
    journal.events <+: (asked.foldl (tried hasher) journal).events := by
  induction asked generalizing journal with
  | nil => exact List.prefix_rfl
  | cons first rest ih => exact (events_tried journal first).trans (ih _)

theorem kept_journal_of (asked : List Append) :
    (journal_of hasher asked).Ordered ∧ (journal_of hasher asked).Indexed ∧
      ∀ event ∈ (journal_of hasher asked).events, is_sealed hasher event := by
  induction asked using List.reverseRecOn with
  | nil =>
      refine ⟨⟨fun _ => rfl, fun _ => rfl, fun _ => rfl, ?_, fun _ => List.Pairwise.nil⟩, rfl, ?_⟩
      · exact fun _ hevent => absurd hevent List.not_mem_nil
      · exact fun _ hevent => absurd hevent List.not_mem_nil
  | append_singleton before last ih =>
      obtain ⟨hordered, hindexed, hsealed⟩ := ih
      rw [journal_of, List.foldl_append]
      change ((journal_of hasher before).tried hasher last).Ordered ∧
        ((journal_of hasher before).tried hasher last).Indexed ∧
          ∀ event ∈ ((journal_of hasher before).tried hasher last).events, is_sealed hasher event
      rcases tried_cases (journal_of hasher before) last with hsame | happend
      · rw [hsame]
        exact ⟨hordered, hindexed, hsealed⟩
      · exact ⟨hordered.append happend, hindexed.append happend, sealed_append hsealed happend⟩

-- Whatever is asked of a journal, what it has written stays first and every aggregate has its own
-- numbers without a gap, in the order of the times.
theorem journal_ordered (hasher : Hasher) (asked more : List Append) :
    (journal_of hasher asked).Ordered ∧ (journal_of hasher asked).Indexed ∧
      (∀ event ∈ (journal_of hasher asked).events, is_sealed hasher event) ∧
      (journal_of hasher asked).events <+: (journal_of hasher (asked ++ more)).events := by
  obtain ⟨hordered, hindexed, hsealed⟩ := kept_journal_of asked
  refine ⟨hordered, hindexed, hsealed, ?_⟩
  rw [journal_of, journal_of, List.foldl_append]
  exact events_foldl _ more

end KnowledgeCompiler.Parallel.EventJournal

import ChannelGuide.Catalogue.Sample
import ChannelGuide.Proofs.Answer.Merged
import ChannelGuide.Proofs.Query

/-!
What a catalogue that responds at once refuses. A query is refused for what the person who asks
can put right: a publisher that may not be read, a window that is too long, or a channel that is not
known. Nothing that such a catalogue holds makes a slot that cannot be filled, or an override that
does not fit.
-/
namespace ChannelGuide

def Catalogue.Knows (c : Catalogue) (id : ChannelId) : Prop :=
  ∃ channel ∈ c.channels.entries, channel.id = id

/-- Why a query is refused, the first reason before the others: someone may not read the publisher,
the window lasts too long, or a channel is not known. Of several publishers or channels the first
is named. -/
inductive Query.Refused (q : Query) (c : Catalogue) (longest : Span) : AnswerFault → Prop
  | forbidden {before after : List Publisher} {publisher : Publisher} :
      q.publishers = before ++ publisher :: after →
      (∀ other ∈ before, q.context.sources.ReadEnabled other) →
      ¬ q.context.sources.ReadEnabled publisher →
      Refused q c longest (.forbidden publisher)
  | tooLong {interval : Interval} :
      (∀ publisher ∈ q.publishers, q.context.sources.ReadEnabled publisher) →
      q.window = .interval interval → longest < interval.duration →
      Refused q c longest (.query (.windowTooLong longest.wholeHours))
  | unknown {before after : List ChannelId} {id : ChannelId} :
      (∀ publisher ∈ q.publishers, q.context.sources.ReadEnabled publisher) →
      (∀ interval, q.window = .interval interval → ¬ longest < interval.duration) →
      q.requestedIds = before ++ id :: after → (∀ other ∈ before, c.Knows other) → ¬ c.Knows id →
      Refused q c longest (.channelNotFound id)

namespace Catalogue
variable {c : Catalogue} {id : ChannelId}

theorem exists_known_iff : (∃ channel, c.known id = .ok channel) ↔ c.Knows id := by
  simp only [known_eq_ok, Register.get?_eq_some_iff, Knows]
  constructor
  · rintro ⟨channel, member, number⟩
    exact ⟨channel, member, congrArg ChannelId.mk number⟩
  · rintro ⟨channel, member, rfl⟩
    exact ⟨channel, member, rfl⟩

theorem known_eq_error_iff {fault : AnswerFault} :
    c.known id = .error fault ↔ ¬ c.Knows id ∧ fault = .channelNotFound id := by
  rw [← exists_known_iff]
  unfold known
  cases c.channels.get? id.value with
  | some channel => simp
  | none => simp [eq_comm]

end Catalogue

namespace Query
variable {q : Query} {c : Catalogue} {longest : Span} {fault : AnswerFault}

theorem checkAccess_eq_ok_iff :
    q.checkAccess = .ok () ↔ ∀ publisher ∈ q.publishers, q.context.sources.ReadEnabled publisher := by
  rw [checkAccess_eq_ok, publishers]
  simp

theorem checkAccess_eq_error_iff :
    q.checkAccess = .error fault ↔ ∃ before publisher after,
      q.publishers = before ++ publisher :: after ∧
      (∀ other ∈ before, q.context.sources.ReadEnabled other) ∧
      ¬ q.context.sources.ReadEnabled publisher ∧ fault = .forbidden publisher := by
  have named : q.checkAccess = .error fault ↔ ∃ publisher,
      q.publishers.find? (fun publisher => ¬ q.context.sources.ReadEnabled publisher) =
        some publisher ∧ fault = .forbidden publisher := by
    unfold checkAccess publishers
    split
    · next publisher closed =>
        rw [closed]
        simp only [Except.error.injEq, Option.some.injEq, exists_eq_left', eq_comm]
    · next none =>
        rw [none]
        simp only [reduceCtorEq, false_and, exists_false]
  simp only [named, List.find?_eq_some_iff_append, decide_eq_true_eq, Bool.not_eq_true',
    decide_eq_false_iff_not, not_not]
  constructor
  · rintro ⟨publisher, ⟨closed, before, after, split, fine⟩, rfl⟩
    exact ⟨before, publisher, after, split, fine, closed, rfl⟩
  · rintro ⟨before, publisher, after, split, fine, closed, rfl⟩
    exact ⟨publisher, ⟨closed, before, after, split, fine⟩, rfl⟩

theorem mapM_known_eq_error_iff {ids : List ChannelId} :
    ids.mapM c.known = .error fault ↔ ∃ before id after, ids = before ++ id :: after ∧
      (∀ other ∈ before, c.Knows other) ∧ ¬ c.Knows id ∧ fault = .channelNotFound id := by
  simp only [mapM_eq_error_iff, Catalogue.exists_known_iff, Catalogue.known_eq_error_iff]

/-- What is shown on the channels is never the reason. -/
theorem answerEach_eq_error_iff {shown : Channel → ChannelSchedule} :
    q.answerEach c longest shown = .error fault ↔ q.Refused c longest fault := by
  constructor
  · intro failed
    cases access : q.checkAccess with
    | error refusal =>
        rw [answerEach_of_forbidden access] at failed
        cases failed
        obtain ⟨before, publisher, after, split, fine, closed, rfl⟩ :=
          checkAccess_eq_error_iff.mp access
        exact .forbidden split fine closed
    | ok =>
        have open_to_all := checkAccess_eq_ok_iff.mp access
        cases duration : q.checkDuration longest with
        | error refusal =>
            rw [answerEach_of_too_long access duration] at failed
            cases failed
            obtain ⟨interval, window, long, rfl⟩ := checkDuration_eq_error_iff.mp duration
            exact .tooLong open_to_all window long
        | ok =>
            have short := checkDuration_eq_ok_iff.mp duration
            rw [answerEach_of_admitted access duration] at failed
            cases known : q.requestedIds.mapM c.known with
            | error refusal =>
                rw [known] at failed
                cases failed
                obtain ⟨before, id, after, split, fine, unknown, rfl⟩ :=
                  mapM_known_eq_error_iff.mp known
                exact .unknown open_to_all short split fine unknown
            | ok channels =>
                -- with a schedule for every channel of the query there always is a result
                obtain ⟨r, -, made, -⟩ := exists_result (ids_of_mapM_known known) shown shown Eq
                rw [known] at failed
                cases made.symm.trans failed
  · rintro (⟨split, fine, closed⟩ | ⟨open_to_all, window, long⟩ |
      ⟨open_to_all, short, split, fine, unknown⟩)
    · exact answerEach_of_forbidden
        (checkAccess_eq_error_iff.mpr ⟨_, _, _, split, fine, closed, rfl⟩)
    · exact answerEach_of_too_long (checkAccess_eq_ok_iff.mpr open_to_all)
        (checkDuration_eq_error_iff.mpr ⟨_, window, long, rfl⟩)
    · rw [answerEach_of_admitted (checkAccess_eq_ok_iff.mpr open_to_all)
        (checkDuration_eq_ok_iff.mpr short),
        mapM_known_eq_error_iff.mpr ⟨_, _, _, split, fine, unknown, rfl⟩]
      rfl

theorem Refused.isUserError (refused : q.Refused c longest fault) : fault.isUserError = true := by
  cases refused with
  | forbidden => rfl
  | tooLong => rfl
  | unknown => rfl

end Query

/-- Whatever the catalogue holds, both executors fail exactly where the query is refused, and with
the reason for it; only that a number of broadcasts cannot be asked of plain schedules at all. So
every fault is one that the person who asked can put right. -/
theorem refused_for_user_errors_only (c : Catalogue) (settings : Settings) (q : Query) :
    let store : SimulatedStore := ⟨c, .instant⟩
    let filled := (store.executeEquivalent settings q).outcome
    let plain := (store.executePlain settings q).outcome
    ∀ fault, (filled = .error fault ↔ q.Refused c settings.longestQuery fault) ∧
      (plain = .error fault ↔
        match q.window with
        | .interval _ => q.Refused c settings.longestQuery fault
        | .count _ _ => fault = .countUnsupported) ∧
      (filled = .error fault ∨ plain = .error fault → fault.isUserError = true) := by
  intro store filled plain fault
  have of_filled : filled = .error fault ↔ q.Refused c settings.longestQuery fault := by
    rw [← Query.answerEach_eq_error_iff, ← executeEquivalent_instant]
  cases window : q.window with
  | interval interval =>
      have of_plain : plain = .error fault ↔ q.Refused c settings.longestQuery fault := by
        rw [← Query.answerEach_eq_error_iff, ← executePlain_instant c settings window]
      refine ⟨of_filled, of_plain, ?_⟩
      rintro (failed | failed)
      · exact (of_filled.mp failed).isUserError
      · exact (of_plain.mp failed).isUserError
  | count start n =>
      have unsupported : plain = .error .countUnsupported := PlainExecutor.execute_of_count window
      have of_plain : plain = .error fault ↔ fault = .countUnsupported := by
        rw [unsupported, Except.error.injEq, eq_comm]
      refine ⟨of_filled, of_plain, ?_⟩
      rintro (failed | failed)
      · exact (of_filled.mp failed).isUserError
      · rw [of_plain.mp failed]
        rfl

/-- With a second channel that is not known, and overrides. -/
theorem refused_for_user_errors_only_unknown :
    let store : SimulatedStore := ⟨Sample.handover (Sample.clock 9 0) (Sample.clock 10 0) |>.catalogue,
      .instant⟩
    let q := Sample.overlaidMorning ⟨⟨[Sample.pa, Sample.ebs], true⟩, false⟩
    (store.executeEquivalent .standard q).outcome = .error (.channelNotFound ⟨2⟩) ∧
      q.Refused store.catalogue Settings.standard.longestQuery (.channelNotFound ⟨2⟩) ∧
      (AnswerFault.channelNotFound ⟨2⟩).isUserError = true := by
  intro store q
  obtain ⟨of_filled, -, user_error⟩ :=
    refused_for_user_errors_only store.catalogue .standard q (.channelNotFound ⟨2⟩)
  have failed : (store.executeEquivalent .standard q).outcome = .error (.channelNotFound ⟨2⟩) := rfl
  exact ⟨failed, of_filled.mp failed, user_error (.inl failed)⟩

end ChannelGuide

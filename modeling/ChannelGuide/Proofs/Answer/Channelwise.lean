import ChannelGuide.Catalogue.Sample
import ChannelGuide.Proofs.Answer.AtOnce
import ChannelGuide.Proofs.Query

/-!
A query for several channels and the queries for each of them. A catalogue that responds at once
answers the one as it answers the others: channels are asked about together, but none makes a
difference to what is answered of another.
-/
namespace ChannelGuide

namespace Query
variable {q : Query}

/-- The same query, for one channel. -/
def forChannel (q : Query) (id : ChannelId) : Query :=
  { q with scope := .single id, scope_acceptable := ChannelScope.acceptable_single id }

/-- The query is answered exactly if the queries for its channels are, each by itself. Then the list
holds what these are answered; otherwise the fault is that of the first that is not answered. -/
structure OneByOne (answer : Query → Except AnswerFault QueryResult) (q : Query) : Prop where
  answered : (∃ r, answer q = .ok r) ↔
    ∀ id ∈ q.requestedIds, ∃ r, answer (q.forChannel id) = .ok r
  list : ∀ r, answer q = .ok r → ∃ schedules, r = .list schedules ∧
    List.Forall₂ (fun id s => answer (q.forChannel id) = .ok (.single s)) q.requestedIds schedules
  fault : ∀ fault, answer q = .error fault → ∃ before id after,
    q.requestedIds = before ++ id :: after ∧
    (∀ other ∈ before, ∃ r, answer (q.forChannel other) = .ok r) ∧
    answer (q.forChannel id) = .error fault

/-- It is enough that the answer traverses the channels. -/
theorem oneByOne_of_mapM {answer : Query → Except AnswerFault QueryResult}
    (one : ChannelId → Except AnswerFault ChannelSchedule)
    (whole : answer q = (q.requestedIds.mapM one).map QueryResult.list)
    (each : ∀ id, answer (q.forChannel id) = (one id).map QueryResult.single) :
    q.OneByOne answer := by
  have succeeds (id : ChannelId) :
      (∃ r, answer (q.forChannel id) = .ok r) ↔ ∃ s, one id = .ok s := by
    simp [each, map_eq_ok]
  constructor
  case answered =>
    simp only [succeeds, whole, map_eq_ok]
    rw [← exists_mapM_eq_ok]
    exact ⟨fun ⟨_, schedules, made, _⟩ => ⟨schedules, made⟩,
      fun ⟨schedules, made⟩ => ⟨_, schedules, made, rfl⟩⟩
  case list =>
    intro r ok
    obtain ⟨schedules, made, rfl⟩ := map_eq_ok.mp (whole.symm.trans ok)
    refine ⟨schedules, rfl, (mapM_eq_ok_iff.mp made).imp fun id s of_one => ?_⟩
    exact (each id).trans (map_eq_ok.mpr ⟨s, of_one, rfl⟩)
  case fault =>
    intro fault failed
    obtain ⟨before, id, after, split, fine, of_one⟩ :=
      mapM_eq_error_iff.mp (map_eq_error.mp (whole.symm.trans failed))
    refine ⟨before, id, after, split, fun other earlier => ?_, ?_⟩
    · exact (succeeds other).mpr (fine other earlier)
    · exact (each id).trans (map_eq_error.mpr of_one)

/-- Where the fault is the same for every channel, the first has it. -/
theorem oneByOne_of_error {answer : Query → Except AnswerFault QueryResult} {fault : AnswerFault}
    (whole : answer q = .error fault) (each : ∀ id, answer (q.forChannel id) = .error fault) :
    q.OneByOne answer := by
  refine oneByOne_of_mapM (fun _ => .error fault) ?_ each
  obtain ⟨first, others, requested⟩ := List.exists_cons_of_ne_nil q.scope_acceptable.1
  rw [whole, requestedIds, requested]
  rfl

theorem oneByOne_of_answerEach {answer : Query → Except AnswerFault QueryResult} {c : Catalogue}
    {longest : Span} {shown : Channel → ChannelSchedule} (several : q.scope.isMultiChannel = true)
    (whole : answer q = q.answerEach c longest shown)
    (each : ∀ id, answer (q.forChannel id) = (q.forChannel id).answerEach c longest shown) :
    q.OneByOne answer := by
  -- who may ask, and for how long, does not depend on the channels
  cases access : q.checkAccess with
  | error fault =>
      exact oneByOne_of_error (whole.trans (answerEach_of_forbidden access))
        fun id => (each id).trans (answerEach_of_forbidden access)
  | ok =>
      cases duration : q.checkDuration longest with
      | error fault =>
          exact oneByOne_of_error (whole.trans (answerEach_of_too_long access duration))
            fun id => (each id).trans (answerEach_of_too_long access duration)
      | ok =>
          apply oneByOne_of_mapM fun id => (c.known id).map shown
          · rw [whole, answerEach_of_admitted access duration, mapM_map]
            cases q.requestedIds.mapM c.known with
            | error fault => rfl
            | ok channels => exact result_of_several several (channels.map shown)
          · intro id
            have one : (q.forChannel id).answerEach c longest shown =
                [id].mapM c.known >>= fun channels =>
                  (q.forChannel id).result (channels.map shown) :=
              answerEach_of_admitted access duration
            rw [each, one, List.mapM_cons]
            cases c.known id with
            | error fault => rfl
            | ok channel => rfl

section Multi
variable {publisher : Publisher} {ids : List ChannelId} {start : Instant} {bound : TimeBound}
  {context : QueryContext}

theorem single_of_multi (built : Query.multi publisher ids start bound context = .ok q)
    (id : ChannelId) : Query.single publisher id start bound context = .ok (q.forChannel id) := by
  obtain ⟨-, _, bounded, rfl⟩ := multi_eq_ok_iff.mp built
  exact single_eq_ok_iff.mpr ⟨bounded, rfl⟩

theorem scope_of_multi (built : Query.multi publisher ids start bound context = .ok q) :
    q.scope = .multi ids.eraseDups := by
  obtain ⟨-, _, _, rfl⟩ := multi_eq_ok_iff.mp built
  rfl

end Multi
end Query

/-- Whoever is asked, and whatever is laid over the answer: a query for several channels is answered
as the queries for each of them are, in the order in which the channels are first named. -/
theorem multi_one_by_one {publisher : Publisher} {ids : List ChannelId} {start : Instant}
    {bound : TimeBound} {context : QueryContext} {q : Query}
    (built : Query.multi publisher ids start bound context = .ok q) (c : Catalogue)
    (settings : Settings) (override : Option Publisher) :
    let store : SimulatedStore := ⟨c, .instant⟩
    let asked := { q with overridePublisher := override }
    asked.requestedIds = ids.eraseDups ∧
      (∀ id, (Query.single publisher id start bound context).map
        (fun one => { one with overridePublisher := override }) = .ok (asked.forChannel id)) ∧
      asked.OneByOne (fun q => (store.executeEquivalent settings q).outcome) ∧
      asked.OneByOne (fun q => (store.executePlain settings q).outcome) := by
  intro store asked
  have scope := Query.scope_of_multi built
  have several : asked.scope.isMultiChannel = true := by
    change q.scope.isMultiChannel = true
    rw [scope]
    rfl
  refine ⟨?_, fun id => ?_, ?_, ?_⟩
  · change q.scope.requestedIds = _
    rw [scope]
    rfl
  · rw [Query.single_of_multi built]
    rfl
  · exact Query.oneByOne_of_answerEach several (executeEquivalent_instant c settings asked)
      fun id => executeEquivalent_instant c settings (asked.forChannel id)
  · cases window : asked.window with
    | interval interval =>
        exact Query.oneByOne_of_answerEach several (executePlain_instant c settings window)
          fun id => executePlain_instant c settings window
    | count start n =>
        exact Query.oneByOne_of_error (PlainExecutor.execute_of_count window)
          fun id => PlainExecutor.execute_of_count window

/-- With a channel that is asked for twice, and with overrides: both executors answer with the film
of the one channel and the morning of the other, in this order, as when they are asked for each. -/
theorem multi_one_by_one_repeated :
    let store : SimulatedStore := ⟨Sample.listings.catalogue, .instant⟩
    let titles (schedules : List ChannelSchedule) :=
      schedules.map fun s => (s.channel.id.value, s.entries.map (·.item.title))
    let shown := [(2, ["Film"]),
      (1, ["Breakfast", "Breakfast", "Live Football", "Homes Under the Hammer"])]
    ∃ q, Query.multi Sample.pa [⟨2⟩, ⟨1⟩, ⟨2⟩] (Sample.clock 9 0) (.endsAt (Sample.clock 12 0))
        ⟨⟨[Sample.pa, Sample.ebs], true⟩, false⟩ = .ok q ∧
      let asked := { q with overridePublisher := some Sample.ebs }
      asked.requestedIds = [⟨2⟩, ⟨1⟩] ∧
      ∀ answer ∈ [fun q => (store.executeEquivalent .standard q).outcome,
          fun q => (store.executePlain .standard q).outcome],
        ∃ schedules, answer asked = .ok (.list schedules) ∧ titles schedules = shown ∧
          List.Forall₂ (fun id s => answer (asked.forChannel id) = .ok (.single s))
            asked.requestedIds schedules := by
  intro store titles shown
  obtain ⟨q, built, by_slot, by_entry⟩ :
      ∃ q, Query.multi Sample.pa [⟨2⟩, ⟨1⟩, ⟨2⟩] (Sample.clock 9 0) (.endsAt (Sample.clock 12 0))
          ⟨⟨[Sample.pa, Sample.ebs], true⟩, false⟩ = .ok q ∧
        let asked := { q with overridePublisher := some Sample.ebs }
        (∃ schedules, (store.executeEquivalent .standard asked).outcome = .ok (.list schedules) ∧
          titles schedules = shown) ∧
        ∃ schedules, (store.executePlain .standard asked).outcome = .ok (.list schedules) ∧
          titles schedules = shown := ⟨_, rfl, ⟨_, rfl, rfl⟩, _, rfl, rfl⟩
  obtain ⟨requested, -, equivalent, plain⟩ :=
    multi_one_by_one built Sample.listings.catalogue .standard (some Sample.ebs)
  refine ⟨q, built, requested.trans rfl,
    List.forall_mem_cons.mpr ⟨?_, List.forall_mem_singleton.mpr ?_⟩⟩
  · obtain ⟨schedules, answered, titled⟩ := by_slot
    obtain ⟨_, same, each⟩ := equivalent.list _ answered
    cases same
    exact ⟨schedules, answered, titled, each⟩
  · obtain ⟨schedules, answered, titled⟩ := by_entry
    obtain ⟨_, same, each⟩ := plain.list _ answered
    cases same
    exact ⟨schedules, answered, titled, each⟩

end ChannelGuide

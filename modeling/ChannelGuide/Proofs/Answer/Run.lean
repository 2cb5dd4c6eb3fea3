import ChannelGuide.Answer.Run

/-!
What runs come to. A run succeeds exactly when each of its steps does; it depends on what comes
after a step only where that step has succeeded; and two runs agree if their steps do.
-/
namespace ChannelGuide

theorem mapError_eq_ok {ε ε' α : Type} {x : Except ε α} {f : ε → ε'} {a : α} :
    x.mapError f = .ok a ↔ x = .ok a := by
  constructor
  · intro ok
    cases x <;> cases ok
    rfl
  · rintro rfl
    rfl

theorem mapError_eq_error {ε ε' α : Type} {x : Except ε α} {f : ε → ε'} {e : ε'} :
    x.mapError f = .error e ↔ ∃ e', x = .error e' ∧ f e' = e := by
  constructor
  · intro failed
    cases x <;> cases failed
    exact ⟨_, rfl, rfl⟩
  · rintro ⟨e', rfl, rfl⟩
    rfl

theorem map_eq_ok {ε α β : Type} {x : Except ε α} {f : α → β} {b : β} :
    x.map f = .ok b ↔ ∃ a, x = .ok a ∧ f a = b := by
  cases x <;> simp [Except.map]

theorem toOption_eq_some {ε α : Type} {x : Except ε α} {a : α} :
    x.toOption = some a ↔ x = .ok a := by
  cases x <;> simp [Except.toOption]

theorem map_eq_error {ε α β : Type} {x : Except ε α} {f : α → β} {e : ε} :
    x.map f = .error e ↔ x = .error e := by
  cases x <;> simp [Except.map]

namespace Wait

theorem zero_add (a : Wait) : zero + a = a := congrArg mk (Nat.zero_add a.millis)

theorem add_zero (a : Wait) : a + zero = a := rfl

theorem add_assoc (a b c : Wait) : a + b + c = a + (b + c) :=
  congrArg mk (Nat.add_assoc a.millis b.millis c.millis)

end Wait

namespace Reply
variable {α β : Type}

/-- The same reply with something made of its answer. -/
def map (f : α → β) (reply : Reply α) : Reply β := ⟨reply.delay, reply.outcome.map f⟩

/-- The reply comes within the limit, and is this answer. -/
structure Delivers (reply : Reply α) (limit : Wait) (a : α) : Prop where
  intime : reply.delay ≤ limit
  answered : reply.outcome = .ok a

/-- What is wrong with a reply within a limit: that it is late, or is none. -/
inductive Fails (reply : Reply α) (operation : Operation) (limit : Wait) : AnswerFault → Prop
  | late : limit < reply.delay → Fails reply operation limit (.timedOut operation limit)
  | refused {fault : ResolverFault} : reply.delay ≤ limit → reply.outcome = .error fault →
      Fails reply operation limit (.resolver fault)

/-- Two replies of which each delivers an answer, and these are related, or neither delivers one. -/
inductive Alike (R : α → β → Prop) (limit : Wait) (reply : Reply α) (other : Reply β) : Prop
  | delivered {a : α} {b : β} : reply.Delivers limit a → other.Delivers limit b → R a b →
      Alike R limit reply other
  | undelivered : (∀ a, ¬ reply.Delivers limit a) → (∀ b, ¬ other.Delivers limit b) →
      Alike R limit reply other

theorem Alike.at_once {R : α → β → Prop} {a : α} {b : β} (related : R a b) (limit : Wait) :
    Alike R limit ⟨.zero, .ok a⟩ ⟨.zero, .ok b⟩ :=
  .delivered ⟨Nat.zero_le _, rfl⟩ ⟨Nat.zero_le _, rfl⟩ related

end Reply

namespace Run
variable {α β γ δ : Type}

theorem bind_of_error {r : Run α} {fault : AnswerFault} (h : r.outcome = .error fault)
    (next : α → Run β) : r >>= next = ⟨.error fault, r.elapsed, r.calls⟩ := by
  change r.andThen next = _
  rw [andThen, h]

theorem bind_of_ok {r : Run α} {a : α} (h : r.outcome = .ok a) (next : α → Run β) :
    r >>= next =
      ⟨(next a).outcome, r.elapsed + (next a).elapsed, r.calls ++ (next a).calls⟩ := by
  change r.andThen next = _
  rw [andThen, h]

theorem outcome_bind_of_ok {r : Run α} {a : α} (h : r.outcome = .ok a) (next : α → Run β) :
    (r >>= next).outcome = (next a).outcome := by
  rw [bind_of_ok h]

/-- A step that only has a value takes no time and asks nothing. -/
theorem ofOutcome_bind (a : α) (next : α → Run β) : ofOutcome (.ok a) >>= next = next a := by
  rw [bind_of_ok rfl, ofOutcome, Wait.zero_add]
  rfl

theorem bind_eq_ok {r : Run α} {next : α → Run β} {b : β} :
    (r >>= next).outcome = .ok b ↔ ∃ a, r.outcome = .ok a ∧ (next a).outcome = .ok b := by
  cases h : r.outcome with
  | error fault => simp [bind_of_error h]
  | ok a => simp [bind_of_ok h]

theorem bind_eq_error {r : Run α} {next : α → Run β} {fault : AnswerFault} :
    (r >>= next).outcome = .error fault ↔
      r.outcome = .error fault ∨ ∃ a, r.outcome = .ok a ∧ (next a).outcome = .error fault := by
  cases h : r.outcome with
  | error other => simp [bind_of_error h]
  | ok a => simp [bind_of_ok h]

theorem bind_congr {r s : Run α} {next other : α → Run β} (first : r = s)
    (same : ∀ a, r.outcome = .ok a → next a = other a) : r >>= next = s >>= other := by
  subst first
  cases h : r.outcome with
  | error fault => rw [bind_of_error h, bind_of_error h]
  | ok a => rw [bind_of_ok h, bind_of_ok h, same a h]

theorem both_eq_ok {r : Run α} {s : Run β} {p : α × β} :
    (r.both s).outcome = .ok p ↔ r.outcome = .ok p.1 ∧ s.outcome = .ok p.2 := by
  cases hr : r.outcome with
  | error fault =>
      cases hs : s.outcome with
      | error other =>
          simp only [both, hr, hs]
          split <;> simp
      | ok b => simp [both, hr, hs]
  | ok a =>
      cases hs : s.outcome with
      | error fault => simp [both, hr, hs]
      | ok b => simp [both, hr, hs, Prod.ext_iff]

theorem eq_error_of_both {r : Run α} {s : Run β} {fault : AnswerFault}
    (failed : (r.both s).outcome = .error fault) :
    r.outcome = .error fault ∨ s.outcome = .error fault := by
  cases hr : r.outcome with
  | ok a =>
      cases hs : s.outcome with
      | ok b => simp [both, hr, hs] at failed
      | error other => exact .inr (by simpa [both, hr, hs] using failed)
  | error other =>
      cases hs : s.outcome with
      | ok b => exact .inl (by simpa [both, hr, hs] using failed)
      | error another =>
          simp only [both, hr, hs] at failed
          split at failed
          · exact .inr (by simpa using failed)
          · exact .inl (by simpa using failed)

theorem ask_eq_ok {call : Call} {operation : Operation} {limit : Wait} {reply : Reply α} {a : α} :
    (ask call operation limit reply).outcome = .ok a ↔ reply.Delivers limit a := by
  by_cases intime : reply.delay ≤ limit
  · rw [ask, if_pos intime, mapError_eq_ok]
    exact ⟨fun answered => ⟨intime, answered⟩, Reply.Delivers.answered⟩
  · rw [ask, if_neg intime]
    exact iff_of_false (fun answered => nomatch answered) fun delivers => intime delivers.intime

theorem ask_eq_error {call : Call} {operation : Operation} {limit : Wait} {reply : Reply α}
    {fault : AnswerFault} :
    (ask call operation limit reply).outcome = .error fault ↔ reply.Fails operation limit fault := by
  by_cases intime : reply.delay ≤ limit
  · rw [ask, if_pos intime, mapError_eq_error]
    constructor
    · rintro ⟨refusal, refused, rfl⟩
      exact .refused intime refused
    · rintro (late | ⟨-, refused⟩)
      · exact absurd intime (Nat.not_le_of_lt late)
      · exact ⟨_, refused, rfl⟩
  · rw [ask, if_neg intime]
    constructor
    · intro failed
      cases failed
      exact .late (Nat.lt_of_not_le intime)
    · rintro (late | ⟨intime_too, -⟩)
      · rfl
      · exact absurd intime_too intime

theorem calls_ask (call : Call) (operation : Operation) (limit : Wait) (reply : Reply α) :
    (ask call operation limit reply).calls = [call] := by
  unfold ask
  split
  · rfl
  · rfl

/-- What is made of the value asks nothing more. -/
theorem calls_bind_pure (r : Run α) (f : α → β) :
    (r >>= fun a => pure (f a)).calls = r.calls := by
  cases h : r.outcome with
  | error fault => rw [bind_of_error h]
  | ok a =>
      rw [bind_of_ok h]
      exact List.append_nil r.calls

/-- The same run with something made of its value. -/
def map (f : α → β) (r : Run α) : Run β := ⟨r.outcome.map f, r.elapsed, r.calls⟩

theorem ask_map (f : α → β) (call : Call) (operation : Operation) (limit : Wait)
    (reply : Reply α) :
    ask call operation limit (reply.map f) = (ask call operation limit reply).map f := by
  unfold ask Reply.map map
  split
  · cases reply.outcome <;> rfl
  · rfl

theorem bind_map (r : Run α) (f : α → β) (next : β → Run γ) :
    r.map f >>= next = r >>= fun a => next (f a) := by
  cases h : r.outcome with
  | error fault =>
      have mapped : (r.map f).outcome = .error fault := by rw [map, h]; rfl
      rw [bind_of_error h, bind_of_error mapped]
      rfl
  | ok a =>
      have mapped : (r.map f).outcome = .ok (f a) := by rw [map, h]; rfl
      rw [bind_of_ok h, bind_of_ok mapped]
      rfl

theorem both_map (r : Run α) (s : Run β) (f : α → γ) (g : β → δ) :
    (r.map f).both (s.map g) = (r.both s).map (Prod.map f g) := by
  unfold both map
  cases r.outcome <;> cases s.outcome <;> simp only [Except.map]
  · split <;> rfl
  · rfl

/-- The run fails with such a fault. -/
def FailsWith (P : AnswerFault → Prop) (r : Run α) : Prop :=
  ∃ fault, r.outcome = .error fault ∧ P fault

/-- Runs that are the same step by step, except where the second fails in such a way, are the same
except where it does. -/
theorem bind_eq_or_failsWith {P : AnswerFault → Prop} {r s : Run α} {next other : α → Run β}
    (first : r = s ∨ s.FailsWith P)
    (each : ∀ a, s.outcome = .ok a → next a = other a ∨ (other a).FailsWith P) :
    r >>= next = s >>= other ∨ (s >>= other).FailsWith P := by
  cases h : s.outcome with
  | error fault =>
      rcases first with rfl | ⟨fault', failed, such⟩
      · exact .inl (by rw [bind_of_error h, bind_of_error h])
      · exact .inr ⟨fault', by rw [bind_of_error failed], such⟩
  | ok a =>
      have same : r = s := first.resolve_right fun ⟨_, failed, _⟩ => by
        rw [h] at failed
        cases failed
      subst same
      rcases each a h with alike | ⟨fault, failed, such⟩
      · exact .inl (by rw [bind_of_ok h, bind_of_ok h, alike])
      · exact .inr ⟨fault, by rw [outcome_bind_of_ok h, failed], such⟩

/-- What a run comes to is decided step by step. -/
theorem outcome_bind_eq {r : Run α} {next : α → Run β} {x : Except AnswerFault α}
    {f : α → Except AnswerFault β} (first : r.outcome = x)
    (rest : ∀ a, x = .ok a → (next a).outcome = f a) : (r >>= next).outcome = x >>= f := by
  cases x with
  | error fault =>
      rw [bind_of_error first]
      rfl
  | ok a =>
      rw [bind_of_ok first]
      exact rest a rfl

/-- The same fault, or answers that stand in the relation. -/
def SameFaultOr (R : α → β → Prop) (x : Except AnswerFault α) (y : Except AnswerFault β) : Prop :=
  (∃ fault, x = .error fault ∧ y = .error fault) ∨ ∃ a b, x = .ok a ∧ y = .ok b ∧ R a b

theorem sameFaultOr_iff_of_ok {R : α → β → Prop} {x : Except AnswerFault α}
    {y : Except AnswerFault β} {a : α} {b : β} (left : x = .ok a) (right : y = .ok b) :
    SameFaultOr R x y ↔ R a b := by
  subst left right
  simp [SameFaultOr]

/-- Two runs that take equally long and come to the same fault or to related answers. What they ask
may differ. -/
structure Agree (R : α → β → Prop) (r : Run α) (s : Run β) : Prop where
  outcome : SameFaultOr R r.outcome s.outcome
  elapsed : r.elapsed = s.elapsed

namespace Agree
variable {R : α → β → Prop} {S : γ → δ → Prop}

theorem outcome_eq {r s : Run α} (h : Agree Eq r s) : r.outcome = s.outcome := by
  rcases h.outcome with ⟨fault, left, right⟩ | ⟨a, b, left, right, rfl⟩
  · rw [left, right]
  · rw [left, right]

theorem refl (r : Run α) : Agree Eq r r where
  outcome := by
    cases h : r.outcome with
    | error fault => exact .inl ⟨fault, rfl, rfl⟩
    | ok a => exact .inr ⟨a, a, rfl, rfl, rfl⟩
  elapsed := rfl

theorem bind {r : Run α} {s : Run β} {f : α → Run γ} {g : β → Run δ} (h : Agree R r s)
    (next : ∀ a b, R a b → Agree S (f a) (g b)) : Agree S (r >>= f) (s >>= g) := by
  rcases h.outcome with ⟨fault, left, right⟩ | ⟨a, b, left, right, related⟩
  · rw [bind_of_error left, bind_of_error right]
    exact ⟨.inl ⟨fault, rfl, rfl⟩, h.elapsed⟩
  · rw [bind_of_ok left, bind_of_ok right]
    obtain ⟨outcome, elapsed⟩ := next a b related
    exact ⟨outcome, by rw [h.elapsed, elapsed]⟩

theorem both {r : Run α} {s : Run β} {r' : Run γ} {s' : Run δ} (first : Agree R r s)
    (second : Agree S r' s') :
    Agree (fun p q => R p.1 q.1 ∧ S p.2 q.2) (r.both r') (s.both s') := by
  rcases first.outcome with ⟨fault, left, right⟩ | ⟨a, b, left, right, related⟩ <;>
    rcases second.outcome with ⟨other, left', right'⟩ | ⟨c, d, left', right', related'⟩ <;>
    simp only [Run.both, left, right, left', right', first.elapsed, second.elapsed]
  · split
    · exact ⟨.inl ⟨other, rfl, rfl⟩, rfl⟩
    · exact ⟨.inl ⟨fault, rfl, rfl⟩, rfl⟩
  · exact ⟨.inl ⟨fault, rfl, rfl⟩, rfl⟩
  · exact ⟨.inl ⟨other, rfl, rfl⟩, rfl⟩
  · exact ⟨.inr ⟨(a, c), (b, d), rfl, rfl, related, related'⟩, rfl⟩

theorem ask {call other : Call} {operation : Operation} {limit : Wait} {reply : Reply α}
    {reply' : Reply β} (delay : reply.delay = reply'.delay) {a : α} {b : β}
    (left : reply.outcome = .ok a) (right : reply'.outcome = .ok b) (related : R a b) :
    Agree R (Run.ask call operation limit reply) (Run.ask other operation limit reply') := by
  rw [Run.ask, Run.ask, left, right, delay]
  split
  · exact ⟨.inr ⟨a, b, rfl, rfl, related⟩, rfl⟩
  · exact ⟨.inl ⟨_, rfl, rfl⟩, rfl⟩

end Agree

/-- Two runs that both succeed, with related values, or both fail, whenever and for whatever
reason. -/
inductive Alike (R : α → β → Prop) (r : Run α) (s : Run β) : Prop
  | succeeded {a : α} {b : β} : r.outcome = .ok a → s.outcome = .ok b → R a b → Alike R r s
  | failed : (∀ a, r.outcome ≠ .ok a) → (∀ b, s.outcome ≠ .ok b) → Alike R r s

namespace Alike
variable {R : α → β → Prop} {S : γ → δ → Prop}

theorem eq_iff {r s : Run α} : Alike Eq r s ↔ ∀ a, r.outcome = .ok a ↔ s.outcome = .ok a := by
  constructor
  · rintro (⟨left, right, rfl⟩ | ⟨left, right⟩) a
    · rw [left, right]
    · exact iff_of_false (left a) (right a)
  · intro same
    cases left : r.outcome with
    | ok a => exact .succeeded left ((same a).mp left) rfl
    | error fault =>
        have fails (a : α) : r.outcome ≠ .ok a := by rw [left]; exact nofun
        exact .failed fails fun a ok => fails a ((same a).mpr ok)

theorem refl (r : Run α) : Alike Eq r r := eq_iff.mpr fun _ => Iff.rfl

theorem bind {r : Run α} {s : Run β} {f : α → Run γ} {g : β → Run δ} (h : Alike R r s)
    (next : ∀ a b, r.outcome = .ok a → s.outcome = .ok b → R a b → Alike S (f a) (g b)) :
    Alike S (r >>= f) (s >>= g) := by
  cases h with
  | succeeded left right related =>
      have rest := next _ _ left right related
      cases rest with
      | succeeded left' right' related' =>
          exact .succeeded ((outcome_bind_of_ok left f).trans left')
            ((outcome_bind_of_ok right g).trans right') related'
      | failed left' right' =>
          refine .failed (fun c ok => left' c ?_) fun d ok => right' d ?_
          · exact (outcome_bind_of_ok left f).symm.trans ok
          · exact (outcome_bind_of_ok right g).symm.trans ok
  | failed left right =>
      refine .failed (fun c ok => ?_) fun d ok => ?_
      · obtain ⟨a, first, -⟩ := bind_eq_ok.mp ok
        exact left a first
      · obtain ⟨b, first, -⟩ := bind_eq_ok.mp ok
        exact right b first

theorem both {r : Run α} {s : Run β} {r' : Run γ} {s' : Run δ} (first : Alike R r s)
    (second : Alike S r' s') :
    Alike (fun p q => R p.1 q.1 ∧ S p.2 q.2) (r.both r') (s.both s') := by
  cases first with
  | failed left right =>
      exact .failed (fun p ok => left p.1 (both_eq_ok.mp ok).1)
        fun q ok => right q.1 (both_eq_ok.mp ok).1
  | @succeeded a b left right related =>
      cases second with
      | failed left' right' =>
          exact .failed (fun p ok => left' p.2 (both_eq_ok.mp ok).2)
            fun q ok => right' q.2 (both_eq_ok.mp ok).2
      | @succeeded c d left' right' related' =>
          have ok : (r.both r').outcome = .ok (a, c) := both_eq_ok.mpr ⟨left, left'⟩
          have ok_too : (s.both s').outcome = .ok (b, d) := both_eq_ok.mpr ⟨right, right'⟩
          exact .succeeded ok ok_too ⟨related, related'⟩

theorem ask {call other : Call} {operation : Operation} {limit : Wait} {reply : Reply α}
    {reply' : Reply β} (alike : reply.Alike R limit reply') :
    Alike R (Run.ask call operation limit reply) (Run.ask other operation limit reply') := by
  cases alike with
  | delivered left right related =>
      exact .succeeded (ask_eq_ok.mpr left) (ask_eq_ok.mpr right) related
  | undelivered left right =>
      exact .failed (fun a asked => left a (ask_eq_ok.mp asked))
        fun b asked => right b (ask_eq_ok.mp asked)

end Alike
end Run
end ChannelGuide

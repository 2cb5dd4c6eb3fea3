import ChannelGuide.Answer.Fault

/-!
Runs of a query: what comes out, how much time passes, and which questions were asked on the way.
Time is a number that a run adds up; nothing waits. A question has a limit: a reply that takes
longer is a timeout at the limit, a reply at the limit still counts.
-/
namespace ChannelGuide

/-- What a collaborator answers, and after what time. -/
structure Reply (α : Type) where
  delay : Wait
  outcome : Except ResolverFault α

inductive Call where
  | channels (ids : List ChannelId)
  | schedule (channels : List Channel) (interval : Interval) (publisher : Publisher)
  | slots (channels : List Channel) (window : Window) (publisher : Publisher)
      (sources : List Publisher)
  | equivalents (ids : List ItemId) (sources : SourcePrecedence)
deriving DecidableEq

structure Run (α : Type) where
  outcome : Except AnswerFault α
  elapsed : Wait
  calls : List Call

namespace Run

def ofOutcome (outcome : Except AnswerFault α) : Run α := ⟨outcome, .zero, []⟩

/-- One run after another; a failure is the end. -/
def andThen (r : Run α) (next : α → Run β) : Run β :=
  match r.outcome with
  | .error fault => ⟨.error fault, r.elapsed, r.calls⟩
  | .ok a =>
    let s := next a
    ⟨s.outcome, r.elapsed + s.elapsed, r.calls ++ s.calls⟩

instance : Monad Run where
  pure a := ofOutcome (.ok a)
  bind := andThen

instance : MonadLift (Except AnswerFault) Run := ⟨ofOutcome⟩

def ask (call : Call) (operation : Operation) (limit : Wait) (reply : Reply α) : Run α :=
  if reply.delay ≤ limit then ⟨reply.outcome.mapError .resolver, reply.delay, [call]⟩
  else ⟨.error (.timedOut operation limit), limit, [call]⟩

/-- Two runs side by side. The first failure ends both; of two at one time the first run's counts.
If the first run fails without taking any time, the second never asks its questions. -/
def both (first : Run α) (second : Run β) : Run (α × β) :=
  let calls := first.calls ++ second.calls
  match first.outcome, second.outcome with
  | .ok a, .ok b => ⟨.ok (a, b), max first.elapsed second.elapsed, calls⟩
  | .ok _, .error fault => ⟨.error fault, second.elapsed, calls⟩
  | .error fault, .ok _ =>
    ⟨.error fault, first.elapsed, if first.elapsed = .zero then first.calls else calls⟩
  | .error fault, .error other =>
    if second.elapsed < first.elapsed then ⟨.error other, second.elapsed, calls⟩
    else ⟨.error fault, first.elapsed, if first.elapsed = .zero then first.calls else calls⟩

end Run
end ChannelGuide

import ChannelGuide.Answer.Run
import ChannelGuide.Settings

/-!
How a simulated collaborator responds: after a delay, to which a bounded jitter may be added, and
with a failure if it is set to fail. The jitter is drawn anew for each call, from a generator that
starts at a seed. Which numbers the generator gives is left open; it is only known to keep to the
bound, and to give the same ones again to the same seed.
-/
namespace ChannelGuide

/-- What is drawn from a seed, call by call, if no more than `most` is asked for. -/
class Generator where
  draw : (seed : UInt64) → (call : Nat) → (most : Wait) → Wait
  draw_le : ∀ seed call most, draw seed call most ≤ most

namespace Generator

/-- Without a generator nothing is added. -/
instance : Generator := ⟨fun _ _ _ => .zero, fun _ _ most => Nat.zero_le most.millis⟩

/-- The generator from which so many calls have drawn already. -/
@[reducible] def after (generator : Generator) (calls : Nat) : Generator where
  draw seed call most := generator.draw seed (calls + call) most
  draw_le seed call most := generator.draw_le seed (calls + call) most

end Generator

structure Jitter where
  most : Wait
  seed : UInt64
  [generator : Generator]

/-- What is added to the delay of a call. -/
def Jitter.drawn (jitter : Jitter) (call : Nat) : Wait :=
  jitter.generator.draw jitter.seed call jitter.most

structure ResponseProfile where
  delay : Wait
  jitter : Option Jitter
  failure : Option String

namespace ResponseProfile

def instant : ResponseProfile := ⟨.zero, none, none⟩

def ofSettings (settings : Settings) : ResponseProfile :=
  ⟨settings.responseDelay, none, settings.failure⟩

def delayOf (profile : ResponseProfile) (call : Nat) : Wait :=
  match profile.jitter with
  | none => profile.delay
  | some jitter => profile.delay + jitter.drawn call

def delays (profile : ResponseProfile) (calls : Nat) : List Wait :=
  (List.range calls).map profile.delayOf

def longestDelay (profile : ResponseProfile) : Wait :=
  match profile.jitter with
  | none => profile.delay
  | some jitter => profile.delay + jitter.most

/-- The profile after so many calls. -/
def after (profile : ResponseProfile) (calls : Nat) : ResponseProfile :=
  { profile with jitter := profile.jitter.map fun jitter =>
      { jitter with generator := jitter.generator.after calls } }

/-- The reply to the next call, of a resolver that would answer `answer`. -/
def respond (profile : ResponseProfile) (resolver : String) (answer : α) : Reply α where
  delay := profile.delayOf 0
  outcome := match profile.failure with
    | some reason => .error (.unavailable resolver reason)
    | none => .ok answer

theorem delayOf_after (profile : ResponseProfile) (calls call : Nat) :
    (profile.after calls).delayOf call = profile.delayOf (calls + call) := by
  unfold delayOf after
  cases profile.jitter <;> rfl

/-- Calls are drawn for one after the other, however they are counted. -/
theorem delays_add (profile : ResponseProfile) (calls more : Nat) :
    profile.delays (calls + more) = profile.delays calls ++ (profile.after calls).delays more := by
  unfold delays
  rw [List.range_add, List.map_append, List.map_map]
  refine congrArg (_ ++ ·) (List.map_congr_left fun call _ => ?_)
  exact (profile.delayOf_after calls call).symm

theorem longestDelay_after (profile : ResponseProfile) (calls : Nat) :
    (profile.after calls).longestDelay = profile.longestDelay := by
  unfold longestDelay after
  cases profile.jitter <;> rfl

/-- Whatever is drawn, a call takes no less than the delay and no more than the longest. -/
theorem delayOf_within (profile : ResponseProfile) (call : Nat) :
    profile.delay ≤ profile.delayOf call ∧ profile.delayOf call ≤ profile.longestDelay := by
  unfold delayOf longestDelay
  cases profile.jitter with
  | none => exact ⟨Nat.le_refl _, Nat.le_refl _⟩
  | some jitter =>
      exact ⟨Nat.le_add_right _ _,
        Nat.add_le_add_left (jitter.generator.draw_le jitter.seed call jitter.most) _⟩

end ResponseProfile
end ChannelGuide

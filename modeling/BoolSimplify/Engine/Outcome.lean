/-
What a step of the engine leaves behind.

Work is counted and reported whether it succeeds or not, so the counters and the
events stand beside the result.
-/

import BoolSimplify.Engine.Event

namespace BoolSimplify

structure Outcome (Result : Type) where
  result : Except Failure Result
  stats : Stats
  events : List Event

namespace Outcome

variable {First Second : Type}

def after (outcome : Outcome First) (earlier : List Event) : Outcome First :=
  { outcome with events := earlier ++ outcome.events }

def map (outcome : Outcome First) (change : First → Second) : Outcome Second :=
  ⟨outcome.result.map change, outcome.stats, outcome.events⟩

def andThen (outcome : Outcome First) (next : First → Stats → Outcome Second) : Outcome Second :=
  match outcome.result with
  | .ok value => (next value outcome.stats).after outcome.events
  | .error failure => ⟨.error failure, outcome.stats, outcome.events⟩

end Outcome

end BoolSimplify

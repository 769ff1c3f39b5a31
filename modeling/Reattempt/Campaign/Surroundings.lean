import Reattempt.Event
import Reattempt.Backoff.Source
import Reattempt.Failure.Outcome

/-!
# What a campaign is given

A campaign drives a connector in surroundings that it shares with everything
else: a clock, the token of its caller, those who hear of it and a supply of
random numbers. All of them act on one world, of whose inside the campaign
knows nothing.
-/

namespace Reattempt.Campaign

/-- What an attempt answers when it is polled. -/
structure Reply (ε : Type) where
  /-- How it ended, if it did. -/
  outcome : Option (Except ε Unit)
  /-- It cancelled the token that it was handed. -/
  cancelsOwn : Bool

/-- The surroundings of a campaign, as they act on a world `ω`. -/
structure Surroundings (ω ε : Type) where
  /-- Milliseconds since some beginning. -/
  now : ω → Nat
  /-- Ends a wait until a time of the clock, if that has come and the world lets it end. -/
  wake : Nat → ω → Option ω
  /-- Whether the caller's token is cancelled. -/
  cancelled : ω → Bool
  /-- Makes room for a new attempt. -/
  start : ω → ω
  /-- Polls the attempt in flight, which sees whether its token is cancelled. -/
  poll : Bool → ω → Reply ε × ω
  publish : Notice → ω → ω
  /-- Is told the delay before a pause. -/
  pause : Duration → ω → ω
  roll : ω → Backoff.Rolls × ω

/-- What a campaign asks of its connector apart from connecting. -/
structure Connector (ε : Type) where
  name : String
  retryable : ε → Bool
  text : ε → String

end Reattempt.Campaign

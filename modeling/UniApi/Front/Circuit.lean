/-
**`route_failures` and `channel_cooldowns`: one route of a provider and a model, in the front.**

A route keeps the instants of its failures with status 403 or 404. Enough of them in the window set the
instant until which the route is cooling.
-/

import UniApi.Routing.Circuit

namespace UniApi.Front

open UniApi.Routing (CircuitSettings)

/-- The failures of a route, and the instant until which it is cooling. -/
structure RouteCooldown where
  history : List Nat
  coolingUntil : Option Nat

/-- A route that is in no table. -/
def RouteCooldown.absent : RouteCooldown := ⟨[], none⟩

section Circuit

variable (settings : CircuitSettings)

/-- The failures that are still in the window. -/
def kept (route : RouteCooldown) (now : Nat) : List Nat :=
  route.history.dropWhile fun observed => observed + settings.window ≤ now

/-- `cool_failed_route`, without other cooldowns. -/
def coolFailedRoute (route : RouteCooldown) (now status : Nat) : RouteCooldown :=
  if status = 403 ∨ status = 404 then
    let history := kept settings route now ++ [now]
    if settings.threshold ≤ history.length then
      ⟨history, some (now + settings.openPeriod)⟩
    else { route with history := history }
  else route

/-- `reset_route_failure`. -/
def resetRouteFailure (route : RouteCooldown) : RouteCooldown := { route with history := [] }

/-- `select_provider_key` answers that the channel is cooling. -/
def channelCooling (route : RouteCooldown) (now : Nat) : Bool := route.coolingUntil.any (now < ·)

end Circuit

end UniApi.Front

import ConnectionPool.Failure
import ConnectionPool.Route

namespace ConnectionPool

structure RouteLimit where
  route : Route
  max : Nat
  deriving DecidableEq

/-- Times are in milliseconds, and absent ones mean no limit. -/
structure Conf where
  version : Nat := 0
  maxTotal : Nat := 20
  defaultMaxPerRoute : Nat := 2
  perRoute : List RouteLimit := []
  /-- How long a connection lives after its creation. -/
  timeToLive : Option Nat := none
  /-- How long a released connection may be reused when the release does not say. -/
  defaultKeepalive : Option Nat := none
  /-- How long a connection has to be idle before it is checked for staleness; without it every
  idle connection is checked. -/
  validateAfterInactivity : Option Nat := none
  deriving DecidableEq

namespace Conf

def validate (c : Conf) : Except Failure Conf :=
  if c.maxTotal = 0 then
    .error (.explain .invalidArgument "max_total must be positive")
  else if c.defaultMaxPerRoute = 0 then
    .error (.explain .invalidArgument "default_max_per_route must be positive")
  else
    match c.perRoute.find? (·.max = 0) with
    | some l => .error (.explain .invalidArgument s!"max for route {l.route.text} must be positive")
    | none => .ok c

theorem validate_eq_ok_iff {c d : Conf} :
    c.validate = .ok d ↔
      0 < c.maxTotal ∧ 0 < c.defaultMaxPerRoute ∧ (∀ l ∈ c.perRoute, 0 < l.max) ∧ d = c := by
  unfold validate
  split
  · simp; omega
  split
  · simp; omega
  split
  · next l h =>
    have hm := List.mem_of_find?_eq_some h
    have hz := List.find?_some h
    simp at hz
    constructor
    · simp
    · intro ⟨_, _, hp, _⟩
      have := hp l hm
      omega
  · next h =>
    simp at h
    constructor
    · intro hd
      cases hd
      refine ⟨by omega, by omega, fun l hl => ?_, rfl⟩
      have := h l hl
      omega
    · rintro ⟨_, _, _, rfl⟩
      rfl

end Conf

end ConnectionPool

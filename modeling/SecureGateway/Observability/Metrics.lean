import Mathlib.Data.List.Nodup
import SecureGateway.Proxy.Router

/-!
# The metrics of the gateway

`GatewayMetrics` and its recorders, from `gateway/app/observability/metrics.py`. A collector
keeps one child for every tuple of label values it was ever given; durations are left out.
-/
namespace SecureGateway.Observability

open Gateway

def boundedHttpMethods : List String :=
  ["GET", "HEAD", "OPTIONS", "POST", "PUT", "PATCH", "DELETE", "TRACE", "CONNECT"]

def normalizeHttpMethod (u : Python.Unicode) (method : String) : String :=
  let normalized := u.upper (Python.strip method)
  if normalized ∈ boundedHttpMethods then normalized else "OTHER"

/-- A collector with one tuple of label values. -/
inductive Series where
  | httpRequestsTotal (method route statusClass : String)
  | httpRequestDurationSeconds (method route : String)
  | securityEventsTotal (eventType outcome : String)
  | rateLimitDecisionsTotal (scope decision : String)
  | upstreamRequestsTotal (service outcome : String)
  | upstreamResilienceEventsTotal (service event : String)
  | upstreamRequestDurationSeconds (service : String)
  deriving DecidableEq, Repr

/-- The children that exist, oldest first, with the number of samples of each. -/
structure GatewayMetrics where
  children : List (Series × ℕ)
  nodup : (children.map Prod.fst).Nodup

namespace GatewayMetrics

def empty : GatewayMetrics := ⟨[], List.nodup_nil⟩

variable (m : GatewayMetrics) {s t : Series}

def series : List Series := m.children.map Prod.fst

/-- One more sample of `s`. -/
def bump (s : Series) (c : Series × ℕ) : Series × ℕ := if c.1 = s then (c.1, c.2 + 1) else c

theorem map_bump (s : Series) (children : List (Series × ℕ)) :
    (children.map (bump s)).map Prod.fst = children.map Prod.fst := by
  rw [List.map_map]
  apply List.map_congr_left
  intro c _
  simp only [Function.comp_apply, bump]
  split <;> rfl

/-- `collector.labels(...)` makes the child if there is none, and it takes the sample. -/
def observe (s : Series) : GatewayMetrics :=
  if h : s ∈ m.series then
    ⟨m.children.map (bump s), by
      rw [map_bump]
      exact m.nodup⟩
  else
    ⟨m.children ++ [(s, 1)], by
      rw [List.map_append]
      refine List.Nodup.append m.nodup (List.nodup_singleton s) ?_
      intro t ht hs
      obtain rfl : t = s := List.mem_singleton.mp hs
      exact h ht⟩

theorem mem_series_observe : t ∈ (m.observe s).series ↔ t ∈ m.series ∨ t = s := by
  unfold observe
  split
  · next h =>
    have hsame : t = s → t ∈ m.series := fun he => he ▸ h
    simp only [series, map_bump] at hsame ⊢
    exact ⟨Or.inl, fun ht => ht.elim id hsame⟩
  · simp [series]

def recordHttpRequest (u : Python.Unicode) (method route : String) (statusCode : ℤ) :
    GatewayMetrics :=
  let normalizedMethod := normalizeHttpMethod u method
  (m.observe (.httpRequestsTotal normalizedMethod route (statusClass statusCode))).observe
    (.httpRequestDurationSeconds normalizedMethod route)

def recordSecurityEvent (eventType outcome : String) : GatewayMetrics :=
  m.observe (.securityEventsTotal eventType outcome)

def recordRateLimitDecision (scope decision : String) : GatewayMetrics :=
  m.observe (.rateLimitDecisionsTotal scope decision)

def allowedEvents : List String :=
  ["retry", "circuit_open", "circuit_rejected", "circuit_recovered"]

def recordUpstreamResilienceEvent (service event : String) : Except Raised GatewayMetrics :=
  if event ∈ allowedEvents then .ok (m.observe (.upstreamResilienceEventsTotal service event))
  else .error (.valueError "Unknown upstream resilience event.")

def recordUpstreamRequest (service outcome : String) : GatewayMetrics :=
  (m.observe (.upstreamRequestsTotal service outcome)).observe
    (.upstreamRequestDurationSeconds service)

/-- The `…_best_effort` recorders: a recorder that raises leaves the metrics alone. -/
def bestEffort (r : Except Raised GatewayMetrics) : GatewayMetrics :=
  match r with
  | .ok m' => m'
  | .error _ => m

/-- The metrics after an operation of a handler. -/
def after : GatewayOp → GatewayMetrics
  | .metric (.securityEvent eventType outcome) =>
    m.recordSecurityEvent eventType.value outcome.value
  | .metric (.rateLimitDecision scope decision) => m.recordRateLimitDecision scope decision
  | .metric (.upstreamRequest service outcome) => m.recordUpstreamRequest service outcome
  | .upstream (.onEvent service event) =>
    m.bestEffort (m.recordUpstreamResilienceEvent service event.value)
  | _ => m

/-- Distinct children number no more than the label sets they come from. -/
theorem length_le {allowed : List Series} (h : ∀ s ∈ m.series, s ∈ allowed) :
    m.children.length ≤ allowed.length := by
  have hle : m.series.length ≤ allowed.length := (m.nodup.subperm h).length_le
  rwa [series, List.length_map] at hle

end GatewayMetrics

end SecureGateway.Observability

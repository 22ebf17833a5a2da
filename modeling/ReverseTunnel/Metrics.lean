/-!
Metrics: what a running program counts.

A metric has no reading until it is touched; from then on its reading is the sum of
what was added to it, and adding to one metric leaves every other as it was.
-/

namespace ReverseTunnel

/-- What is counted. The two that end in `Active` go up and down, the others only
up. -/
inductive Metric where
  | controlConnections
  | controlConnectionsActive
  | framingViolations
  | stalledPeers
  | provisionFailures
  | dataProxiesActive
  | userConnections
  | dataConnections
  | staleDataConnections
  | sessionsPaired
  | unboundEvictions
  | relayIngressBytes
  | relayEgressBytes
  deriving DecidableEq, Repr

/-- The name under which a metric is shown. -/
def Metric.name : Metric → String
  | .controlConnections => "tether_control_connections_total"
  | .controlConnectionsActive => "tether_control_connections_active"
  | .framingViolations => "tether_framing_violations_total"
  | .stalledPeers => "tether_stalled_peers_total"
  | .provisionFailures => "tether_provision_failures_total"
  | .dataProxiesActive => "tether_data_proxies_active"
  | .userConnections => "tether_user_connections_total"
  | .dataConnections => "tether_data_connections_total"
  | .staleDataConnections => "tether_stale_data_connections_total"
  | .sessionsPaired => "tether_sessions_paired_total"
  | .unboundEvictions => "tether_unbound_evictions_total"
  | .relayIngressBytes => "tether_relay_ingress_bytes_total"
  | .relayEgressBytes => "tether_relay_egress_bytes_total"

structure Count where
  metric : Metric
  amount : Int
  deriving DecidableEq, Repr

/-- The readings of the metrics touched so far, in the order of their first touch. -/
structure Metrics where
  readings : List (Metric × Int) := []
  deriving DecidableEq, Repr

namespace Metrics

/-- Adds to one reading in a list of them, and puts it at the end if it is new. -/
def addTo (m : Metric) (n : Int) : List (Metric × Int) → List (Metric × Int)
  | [] => [(m, n)]
  | (k, v) :: rest => if k = m then (k, v + n) :: rest else (k, v) :: addTo m n rest

def add (ms : Metrics) (c : Count) : Metrics := ⟨addTo c.metric c.amount ms.readings⟩

def addAll (ms : Metrics) (cs : List Count) : Metrics := cs.foldl add ms

/-- The reading of a metric, if it was ever touched. -/
def reading? (ms : Metrics) (m : Metric) : Option Int := ms.readings.lookup m

/-- What a metric has come to; an untouched one has come to nothing. -/
def total (ms : Metrics) (m : Metric) : Int := (ms.reading? m).getD 0

theorem lookup_addTo (m k : Metric) (n : Int) (rs : List (Metric × Int)) :
    (addTo m n rs).lookup k =
      if k = m then some ((rs.lookup m).getD 0 + n) else rs.lookup k := by
  induction rs with
  | nil =>
    by_cases h : k = m
    · simp [addTo, h]
    · have : (k == m) = false := by simpa using h
      simp [addTo, List.lookup_cons, h, this]
  | cons r rest ih =>
    obtain ⟨r, v⟩ := r
    by_cases hr : r = m
    · by_cases hk : k = m
      · simp [addTo, hr, hk]
      · have : (k == m) = false := by simpa using hk
        simp [addTo, List.lookup_cons, hr, hk, this]
    · have hm : (m == r) = false := by simpa using fun h : m = r => hr h.symm
      by_cases hk : k = r
      · have : ¬ k = m := fun h => hr (hk.symm.trans h)
        simp [addTo, hr, hk]
      · have : (k == r) = false := by simpa using hk
        simp [addTo, List.lookup_cons, hr, this, ih, hm]

/-- A change adds to its own metric and to no other. -/
theorem total_add (ms : Metrics) (c : Count) (k : Metric) :
    (ms.add c).total k = ms.total k + if k = c.metric then c.amount else 0 := by
  simp only [total, reading?, add, lookup_addTo]
  by_cases h : k = c.metric <;> simp [h]

end Metrics

end ReverseTunnel

import HealthMonitor.Time.Span

/-!
# Latency histograms

A `Histogram` counts spans by the buckets that they fall into and adds them up. A span falls into
every bucket whose bound it does not exceed; comparing whole nanoseconds decides that exactly.
-/

namespace HealthMonitor

/-- Observed spans: how many there are, how many fall into each bucket, and their sum in seconds. -/
structure Histogram where
  count : Nat
  within : List Nat
  sum : Float
  deriving Repr

namespace Histogram

/-- A bucket: the greatest span that falls into it, and its text in seconds. -/
structure Bucket where
  bound : Span
  label : String
  deriving DecidableEq, Repr

/-- The buckets, in rising order of their bounds. -/
def buckets : List Bucket := [
  ⟨Span.ofMillis 1, "0.001"⟩, ⟨Span.ofMillis 5, "0.005"⟩, ⟨Span.ofMillis 10, "0.01"⟩,
  ⟨Span.ofMillis 50, "0.05"⟩, ⟨Span.ofMillis 100, "0.1"⟩, ⟨Span.ofMillis 500, "0.5"⟩,
  ⟨Span.ofMillis 1000, "1"⟩, ⟨Span.ofMillis 5000, "5"⟩]

/-- A histogram without observations. -/
def empty : Histogram :=
  ⟨0, buckets.map fun _ => 0, 0.0⟩

instance : Inhabited Histogram := ⟨empty⟩

/-- Adds an observation. -/
def observe (h : Histogram) (s : Span) : Histogram where
  count := h.count + 1
  within := List.zipWith (fun b n => if s ≤ b.bound then n + 1 else n) buckets h.within
  sum := h.sum + s.seconds

end Histogram

end HealthMonitor

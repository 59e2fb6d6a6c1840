import HealthMonitor.Metrics.Exporter
import HealthMonitor.Number.Binary64

/-!
# The text form of metrics

`Exporter.lines` writes the families in order of their names, a family without series not at all.
The labels of a series stand in order of their names, and the series of a family in order of the
values of those labels. A histogram counts upwards from bucket to bucket and ends with its sum and
count.
-/

namespace HealthMonitor.Exporter

/-- Doubles are written without an exponent, and whole ones without a point. -/
def sampleStyle : Binary64.Style := ⟨none, none, false⟩

/-- A double as a sample. -/
def sample (x : Float) : String :=
  String.ofList ((sampleStyle.text? x).getD [])

/-- A flag as a sample. -/
def flag (b : Bool) : String :=
  if b then "1" else "0"

/-- A character of a label value between quotes. -/
def escaped (c : Char) : List Char :=
  if c = '\\' then ['\\', '\\']
  else if c = '"' then ['\\', '"']
  else if c = '\n' then ['\\', 'n']
  else [c]

/-- A label with its value. -/
def label (name value : String) : String :=
  name ++ "=\"" ++ String.ofList (value.toList.flatMap escaped) ++ "\""

/-- One line: a metric, its labels and its value. -/
def line (metric : String) (labels : List (String × String)) (value : String) : String :=
  metric ++ "\x7b" ++ ",".intercalate (labels.map fun l => label l.1 l.2) ++ "\x7d " ++ value

/-- Labels in order of their names. -/
def sortedPairs (names values : List String) : List (String × String) :=
  (names.zip values).mergeSort fun a b => decide (a.1 ≤ b.1)

/-- Series with sorted labels, in order of the label values. -/
def sortedSeries (names : List String) (f : Family α) : List (List (String × String) × α) :=
  (f.toList.map fun s => (sortedPairs names s.labels.texts, s.value)).mergeSort fun a b =>
    decide (LabelValues.mk (a.1.map Prod.snd) ≤ LabelValues.mk (b.1.map Prod.snd))

/-- The lines in front of a family. -/
def heading (family help type : String) : List String :=
  ["# HELP " ++ family ++ " " ++ help, "# TYPE " ++ family ++ " " ++ type]

/-- The lines of a family of flags. -/
def flagLines (family help : String) (names : List String) (f : Family Bool) : List String :=
  if f.isEmpty then []
  else
    heading family help "gauge"
      ++ (sortedSeries names f).map fun s => line family s.1 (flag s.2)

/-- The lines of one histogram. -/
def histogramLines (labels : List (String × String)) (h : Histogram) : List String :=
  let bucket := fun (bound : String) (n : Nat) =>
    line (latencyFamily ++ "_bucket") (labels ++ [(bucketLabel, bound)]) (toString n)
  List.zipWith (fun b n => bucket b.label n) Histogram.buckets h.within
    ++ [bucket "+Inf" h.count,
      line (latencyFamily ++ "_sum") labels (sample h.sum),
      line (latencyFamily ++ "_count") labels (toString h.count)]

/-- The lines of the latency family. -/
def latencyLines (x : Exporter) : List String :=
  if x.latency.isEmpty then []
  else
    heading latencyFamily "Latency of dependency health checks in seconds" "histogram"
      ++ (sortedSeries x.labelNames x.latency).flatMap fun s => histogramLines s.1 s.2

/-- The lines of all families. -/
def lines (x : Exporter) : List String :=
  flagLines healthFamily "Health of a dependency endpoint: 1 = healthy, 0 = unhealthy" x.labelNames
      x.health
    ++ x.latencyLines
    ++ flagLines statusFamily "Category of the last check result" (x.labelNames ++ [statusLabel])
      x.status
    ++ flagLines detailFamily "Detailed reason of the last check result"
      (x.labelNames ++ [detailLabel]) x.detail

/-- The text of all families. -/
def render (x : Exporter) : String :=
  String.join (x.lines.map fun l => l ++ "\n")

end HealthMonitor.Exporter

/-!
# Telemetry

Everything that a breaker, a retry policy or a client reports is an `Emission`: a sample of a metric or
a line of the log, in the order in which they happened. `summarize` turns samples into the readings of
their series: a count adds up, a level keeps its last value, and observations are kept in order.

Main statement: `countOf_append`, what a series counts in two runs of emissions adds up.
-/

namespace GuardedHttp

/-! ## Metrics -/

/-- What a sample belongs to: the name of a metric and its labels, in the order of their declaration. -/
structure Series where
  /-- The name of the metric. -/
  name : String
  /-- The labels and their values. -/
  labels : List (String × String)
deriving DecidableEq

/-- A label and its value as one text. -/
def Series.labelTexts (s : Series) : List String := s.labels.map fun (k, v) => k ++ "=" ++ v

/-- The text by which series are ordered. -/
def Series.sortKey (s : Series) : String :=
  s.name ++ "\x7b" ++ String.intercalate "," s.labelTexts ++ "\x7d"

/-- One report to a metric. -/
inductive Sample where
  /-- One more of what the series counts. -/
  | count (series : Series)
  /-- The current value of what the series follows. -/
  | level (series : Series) (value : Nat)
  /-- One value of what the series collects. -/
  | observe (series : Series) (value : Float)

/-- What the samples of one series amount to. -/
inductive Reading where
  /-- How many were counted. -/
  | count (n : Nat)
  /-- The last value. -/
  | level (value : Nat)
  /-- All values, in order. -/
  | observations (values : List Float)

/-- The series of a sample. -/
def Sample.series : Sample → Series
  | count s => s
  | level s _ => s
  | observe s _ => s

/-- The reading of a series with one more sample. -/
def Sample.addTo (sample : Sample) (reading : Option Reading) : Reading :=
  match sample, reading with
  | .count _, some (.count n) => .count (n + 1)
  | .count _, _ => .count 1
  | .level _ value, _ => .level value
  | .observe _ value, some (.observations values) => .observations (values ++ [value])
  | .observe _ value, _ => .observations [value]

/-- The readings of the series that have samples, in the order of their sort keys. -/
abbrev Summary := List (Series × Reading)

namespace Summary

/-- The readings with one more sample. -/
def record (sample : Sample) : Summary → Summary
  | [] => [(sample.series, sample.addTo none)]
  | (s, r) :: rest =>
    if s = sample.series then (s, sample.addTo (some r)) :: rest
    else if sample.series.sortKey < s.sortKey then
      (sample.series, sample.addTo none) :: (s, r) :: rest
    else (s, r) :: record sample rest

end Summary

/-- The readings of samples. -/
def summarize (samples : List Sample) : Summary := samples.foldl (fun sum s => sum.record s) []

/-! ## The log -/

/-- How much a line of the log matters. -/
inductive LogLevel where
  | trace
  | debug
  | info
  | warn
deriving DecidableEq

/-- A line of the log. -/
structure LogLine where
  /-- How much it matters. -/
  level : LogLevel
  /-- What it says. -/
  message : String
  /-- What it says it of. -/
  fields : List (String × String)
deriving DecidableEq

/-! ## Emissions -/

/-- A report, to a metric or to the log. -/
inductive Emission where
  /-- A sample of a metric. -/
  | sample (s : Sample)
  /-- A line of the log. -/
  | line (l : LogLine)

/-- One more of what a series counts. -/
def Emission.count (name : String) (labels : List (String × String)) : Emission :=
  .sample (.count ⟨name, labels⟩)

/-- A line of the log. -/
def Emission.log (level : LogLevel) (message : String) (fields : List (String × String)) : Emission :=
  .line ⟨level, message, fields⟩

/-- The samples among emissions. -/
def samples (emitted : List Emission) : List Sample :=
  emitted.filterMap fun
    | .sample s => some s
    | .line _ => none

/-- The log lines among emissions. -/
def logLines (emitted : List Emission) : List LogLine :=
  emitted.filterMap fun
    | .line l => some l
    | .sample _ => none

/-- How often a series was counted. -/
def countOf (series : Series) (emitted : List Emission) : Nat :=
  emitted.countP fun
    | .sample (.count s) => s = series
    | _ => false

/-- The samples of a series are counted in one part and in the other. -/
theorem countOf_append (series : Series) (a b : List Emission) :
    countOf series (a ++ b) = countOf series a + countOf series b :=
  List.countP_append

end GuardedHttp

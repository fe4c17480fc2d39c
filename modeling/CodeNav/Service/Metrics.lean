/-
Module: CodeNav.Service.Metrics
Purpose: Figures on uploads, queries and caches, and their text.
Main exports:
  QueryMethod, Histogram, Metrics, Metrics.observeQuery, Metrics.lines
-/
import CodeNav.Cache.Weighted
import CodeNav.Decimal.Layout

namespace CodeNav

/-! ### Kinds of queries -/

/-- The kinds of queries. -/
inductive QueryMethod where
  | hover
  | definitions
  | references
deriving Repr, DecidableEq, Inhabited

namespace QueryMethod

/-- The kinds in the order in which they are listed. -/
def all : List QueryMethod :=
  [.hover, .definitions, .references]

/-- The name of a kind. -/
def name : QueryMethod → String
  | .hover => "hover"
  | .definitions => "definitions"
  | .references => "references"

/-- The kind with a name. -/
def ofName? (name : String) : Option QueryMethod :=
  all.find? (·.name == name)

end QueryMethod

/-! ### Figures -/

/-- The text of a figure. -/
def figure (x : Binary64) : String :=
  Decimal.plain.render x

/-- The text of a count, which is kept as a double. -/
def countFigure (n : Nat) : String :=
  figure (.ofNat n)

/-- The upper bounds of the classes of durations, in seconds. -/
def durationBounds : List Binary64 :=
  [0.005, 0.01, 0.025, 0.05, 0.1, 0.25, 0.5, 1, 2.5, 5, 10].map Binary64.ofFloat

/-- Observed durations. -/
structure Histogram where
  observed : List Binary64
deriving Repr, DecidableEq

namespace Histogram

/-- Nothing observed. -/
def empty : Histogram :=
  ⟨[]⟩

/-- Adds an observation. -/
def observe (h : Histogram) (seconds : Binary64) : Histogram :=
  ⟨seconds :: h.observed⟩

/-- The sum of the observations in the order in which they were made. -/
def sum (h : Histogram) : Binary64 :=
  .ofFloat (h.observed.foldr (fun x total => total + x.toFloat) 0)

/-- The number of observations. -/
def count (h : Histogram) : Nat :=
  h.observed.length

/-- The number of observations up to a bound. -/
def countUpTo (h : Histogram) (bound : Binary64) : Nat :=
  h.observed.countP fun x => x.toFloat ≤ bound.toFloat

end Histogram

/-- Figures that change as requests come in. -/
structure Metrics where
  uploads : Nat
  uploadBytes : Nat
  failedUploads : Nat
  /-- How many queries of a kind were answered. -/
  answered : QueryMethod → Nat
  /-- How many queries of a kind failed. -/
  failed : QueryMethod → Nat
  durations : QueryMethod → Histogram
  diskBytes : Nat

namespace Metrics

/-- The figures before the first request. -/
def empty : Metrics where
  uploads := 0
  uploadBytes := 0
  failedUploads := 0
  answered := fun _ => 0
  failed := fun _ => 0
  durations := fun _ => .empty
  diskBytes := 0

/-- Adds one at a kind of query. -/
def increment (counts : QueryMethod → Nat) (method : QueryMethod) : QueryMethod → Nat :=
  fun m => if m = method then counts m + 1 else counts m

/-- Counts a query, and how long it took. -/
def observeQuery (metrics : Metrics) (method : QueryMethod) (found : Bool) (seconds : Binary64) :
    Metrics :=
  { metrics with
    answered := if found then increment metrics.answered method else metrics.answered
    failed := if found then metrics.failed else increment metrics.failed method
    durations := fun m =>
      if m = method then (metrics.durations m).observe seconds else metrics.durations m }

/-- Counts an upload that was stored. -/
def addUpload (metrics : Metrics) (bytes : Nat) : Metrics :=
  { metrics with
    uploads := metrics.uploads + 1
    uploadBytes := metrics.uploadBytes + bytes }

/-- Counts an upload that was not stored. -/
def addFailedUpload (metrics : Metrics) : Metrics :=
  { metrics with failedUploads := metrics.failedUploads + 1 }

/-- Notes the size of all stored dumps. -/
def setDiskBytes (metrics : Metrics) (bytes : Nat) : Metrics :=
  { metrics with diskBytes := bytes }

/-! ### Text -/

/-- A figure with its labels, or one of the lines that make up a histogram. -/
structure Sample where
  suffix : String
  labels : List (String × String)
  value : String

/-- Figures under one name. -/
structure Family where
  name : String
  help : String
  type : String
  samples : List Sample

/-- The text of labels. -/
def renderLabels (labels : List (String × String)) : String :=
  if labels.isEmpty then ""
  else
    let inside := labels.map fun (name, value) => name ++ "=\"" ++ value ++ "\""
    "\x7b" ++ ",".intercalate inside ++ "\x7d"

/-- The lines of a family; one without figures has none. -/
def Family.lines (family : Family) : List String :=
  if family.samples.isEmpty then []
  else
    ["# HELP " ++ family.name ++ " " ++ family.help,
     "# TYPE " ++ family.name ++ " " ++ family.type]
      ++ family.samples.map fun s =>
        family.name ++ s.suffix ++ renderLabels s.labels ++ " " ++ s.value

/-- A figure without labels. -/
def plain (value : String) : List Sample :=
  [⟨"", [], value⟩]

/-- A figure of each cache. -/
def perCache (databases documents : CacheStats) (value : CacheStats → String) : List Sample :=
  [⟨"", [("cache", "database")], value databases⟩, ⟨"", [("cache", "document")], value documents⟩]

/-- The kinds of queries by name. -/
def methodsByName : List QueryMethod :=
  [.definitions, .hover, .references]

/-- The counts of queries by kind and outcome; those never counted are left out. -/
def querySamples (metrics : Metrics) : List Sample :=
  methodsByName.flatMap fun method =>
    [("error", metrics.failed method), ("ok", metrics.answered method)].filterMap
      fun (outcome, count) =>
        if count == 0 then none
        else some ⟨"", [("method", method.name), ("outcome", outcome)], countFigure count⟩

/-- The lines of one histogram: a count up to each bound, the sum, and the count. -/
def histogramSamples (method : QueryMethod) (h : Histogram) : List Sample :=
  let label := ("method", method.name)
  durationBounds.map (fun bound =>
      ⟨"_bucket", [label, ("le", figure bound)], countFigure (h.countUpTo bound)⟩)
    ++ [⟨"_bucket", [label, ("le", "+Inf")], countFigure h.count⟩,
        ⟨"_sum", [label], figure h.sum⟩,
        ⟨"_count", [label], countFigure h.count⟩]

/-- The durations by kind; kinds never observed are left out. -/
def durationSamples (metrics : Metrics) : List Sample :=
  methodsByName.flatMap fun method =>
    let h := metrics.durations method
    if h.count == 0 then [] else histogramSamples method h

/-- All figures, by name. -/
def families (metrics : Metrics) (databases documents : CacheStats) : List Family :=
  let perCache := perCache databases documents
  [⟨"lsif_cache_entries", "Entries currently resident", "gauge",
      perCache fun s => countFigure s.entries⟩,
   ⟨"lsif_cache_evictions", "Entries dropped to stay under budget", "gauge",
      perCache fun s => countFigure s.evictions⟩,
   ⟨"lsif_cache_hit_rate", "Share of lookups served from memory", "gauge",
      perCache fun s => figure s.hitRate⟩,
   ⟨"lsif_cache_hits", "Cache lookups served from memory", "gauge",
      perCache fun s => countFigure s.hits⟩,
   ⟨"lsif_cache_misses", "Cache lookups that had to load", "gauge",
      perCache fun s => countFigure s.misses⟩,
   ⟨"lsif_cache_weight_bytes", "Weight of the resident entries", "gauge",
      perCache fun s => countFigure s.weight⟩,
   ⟨"lsif_failed_uploads_total", "Uploads that were rejected or failed", "counter",
      plain (countFigure metrics.failedUploads)⟩,
   ⟨"lsif_queries_total", "Requests answered, by method and outcome", "counter",
      querySamples metrics⟩,
   ⟨"lsif_query_duration_seconds", "Time spent answering a request", "histogram",
      durationSamples metrics⟩,
   ⟨"lsif_stored_dump_bytes", "Bytes of stored dumps after the last upload", "gauge",
      plain (countFigure metrics.diskBytes)⟩,
   ⟨"lsif_upload_bytes_total", "Bytes received in stored dumps", "counter",
      plain (countFigure metrics.uploadBytes)⟩,
   ⟨"lsif_uploads_total", "Dumps stored successfully", "counter",
      plain (countFigure metrics.uploads)⟩]

/-- The text of all figures, by lines. -/
def lines (metrics : Metrics) (databases documents : CacheStats) : List String :=
  (metrics.families databases documents).flatMap Family.lines

end Metrics

end CodeNav

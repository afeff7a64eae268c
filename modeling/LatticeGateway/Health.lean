import LatticeGateway.Inspection
import LatticeGateway.RoutePolicy

namespace LatticeGateway

inductive HealthLevel
  | healthy | degraded | failed
  deriving DecidableEq, Repr

inductive HealthSignalCode
  | streamEmpty | streamDecoderErrors | streamPolicyErrors | streamWarnings | streamPayloadPressure
  | streamEofMissing | streamControlOnly | connectionNotNegotiated | connectionNoDelivery
  | connectionDiagnostics | connectionResets | connectionClosed | connectionTimerPressure
  | routePolicyEmpty | routePolicyInvalid | routePolicySparse | routePolicyLoopback
  | routePolicyDuplicateFamily | aggregateFailure
  deriving DecidableEq, Repr

structure HealthSignal where
  code : HealthSignalCode := .aggregateFailure
  level : HealthLevel := .degraded
  weight : Nat := 1
  subject : String := ""
  detail : String := ""
  deriving DecidableEq, Repr

structure HealthOptions where
  maxStreamWarnings : Nat := 8
  maxStreamErrors : Nat := 0
  maxPayloadPressurePercent : Nat := 85
  minRoutes : Nat := 1
  requireStreamEof : Bool := true
  requireNegotiation : Bool := true
  requireDeliveryForPayload : Bool := true
  requireRoutePayload : Bool := true
  deriving DecidableEq, Repr

/-- A merge adds up the healthy checks of its reports without keeping anything for each, so that their
number can wrap; each of the others has its signal. -/
structure HealthReport where
  level : HealthLevel := .healthy
  score : Nat := 100
  healthyChecks : UInt64 := 0
  degradedChecks : Nat := 0
  failedChecks : Nat := 0
  signals : List HealthSignal := []
  deriving DecidableEq, Repr

def boundedSubtract (value penalty : Nat) : Nat := if penalty ≥ value then 0 else value - penalty

def cappedWeight (count perItem cap : Nat) : Nat :=
  let total := count * perItem % 2 ^ 64
  if total > cap then cap else total

def levelRank : HealthLevel → Nat
  | .healthy => 0
  | .degraded => 1
  | .failed => 2

def combineHealthLevel (lhs rhs : HealthLevel) : HealthLevel :=
  if lhs = .failed ∨ rhs = .failed then .failed
  else if lhs = .degraded ∨ rhs = .degraded then .degraded
  else .healthy

namespace HealthReport

def recordHealthy (report : HealthReport) : HealthReport :=
  { report with healthyChecks := report.healthyChecks + 1 }

def addSignal (report : HealthReport) (code : HealthSignalCode) (level : HealthLevel) (weight : Nat)
    (subject detail : String) : HealthReport :=
  let signal : HealthSignal := { code, level, weight, subject, detail }
  let report := { report with
    signals := report.signals ++ [signal]
    level := combineHealthLevel report.level level }
  match level with
  | .failed =>
    { report with
      failedChecks := report.failedChecks + 1
      score := boundedSubtract report.score (if weight = 0 then 25 else weight) }
  | .degraded =>
    { report with
      degradedChecks := report.degradedChecks + 1
      score := boundedSubtract report.score (if weight = 0 then 5 else weight) }
  | .healthy => report.recordHealthy

/-- One check of an evaluator: its signal where it fails, else a healthy check. -/
def check (report : HealthReport) (fails : Prop) [Decidable fails] (code : HealthSignalCode)
    (level : HealthLevel) (weight : Nat) (subject detail : String) : HealthReport :=
  if fails then report.addSignal code level weight subject detail else report.recordHealthy

def finalize (report : HealthReport) : HealthReport :=
  if report.failedChecks ≠ 0 then
    { report with level := .failed, score := if report.score > 49 then 49 else report.score }
  else if report.degradedChecks ≠ 0 then
    { report with level := .degraded, score := if report.score > 89 then 89 else report.score }
  else { report with level := .healthy, score := max report.score 90 }

end HealthReport

def countDetail (label : String) (count : Nat) : String := label ++ "=" ++ toString count

def percentDetail (label : String) (numerator denominator : Nat) : String :=
  label ++ "=" ++ if denominator = 0 then "n/a"
    else toString (numerator * 100 % 2 ^ 64 / denominator) ++ "%"

structure StreamInspectionReport where
  frames : List FrameObservation := []
  findings : List FrameFinding := []
  decodedBytes : Nat := 0
  payloadBytes : Nat := 0
  dataFrames : Nat := 0
  decoderReachedEof : Bool := false

def StreamInspectionReport.errorCount (inspection : StreamInspectionReport) : Nat :=
  inspection.findings.countP fun finding => finding.severity = .error

def StreamInspectionReport.warningCount (inspection : StreamInspectionReport) : Nat :=
  inspection.findings.countP fun finding => finding.severity = .warning

def evaluateStreamHealth (inspection : StreamInspectionReport) (options : HealthOptions) : HealthReport :=
  let report : HealthReport := {}
  let report := report.check (inspection.frames = []) .streamEmpty .failed 35 "stream"
    "no complete frames were decoded"
  let errors := inspection.errorCount
  let decoderFailed := inspection.findings.any fun finding =>
    finding.severity = .error ∧ finding.code = .decoderError
  let report := report.check (errors > options.maxStreamErrors)
    (if decoderFailed then .streamDecoderErrors else .streamPolicyErrors) .failed
    (cappedWeight errors 18 60) "stream" (countDetail "errors" errors)
  let warnings := inspection.warningCount
  let report := report.check (warnings > options.maxStreamWarnings) .streamWarnings .degraded
    (cappedWeight (warnings - options.maxStreamWarnings) 3 18) "stream" (countDetail "warnings" warnings)
  let report := report.check (options.requireStreamEof ∧ inspection.decoderReachedEof = false)
    .streamEofMissing .degraded 8 "stream" "decoder was left waiting for more bytes"
  let report := report.check (inspection.frames ≠ [] ∧ inspection.dataFrames = 0) .streamControlOnly .degraded 5
    "stream" "stream contains control frames but no DATA frames"
  let pressure := inspection.payloadBytes * 100 % 2 ^ 64 / inspection.decodedBytes
  let report := report.check
    (inspection.decodedBytes ≠ 0 ∧ pressure > options.maxPayloadPressurePercent)
    .streamPayloadPressure .degraded 7 "stream"
    (percentDetail "payload_pressure" inspection.payloadBytes inspection.decodedBytes)
  report.finalize

/-- What the health of a connection is read off. -/
structure ConnectionEventSummary where
  total : Nat := 0
  negotiated : Nat := 0
  delivered : Nat := 0
  timers : Nat := 0
  resets : Nat := 0
  closed : Nat := 0
  diagnostics : Nat := 0
  payloadBytes : Nat := 0
  deriving DecidableEq, Repr

def evaluateConnectionHealth (summary : ConnectionEventSummary) (options : HealthOptions) : HealthReport :=
  let report : HealthReport := {}
  if summary.total = 0 then
    (report.addSignal .connectionNotNegotiated .failed 40 "connection" "event log is empty").finalize
  else
    let report := report.check (options.requireNegotiation ∧ summary.negotiated = 0)
      .connectionNotNegotiated .failed 30 "connection" "no negotiation event was recorded"
    let report := report.check
      (options.requireDeliveryForPayload ∧ summary.payloadBytes ≠ 0 ∧ summary.delivered = 0)
      .connectionNoDelivery .degraded 12 "connection"
      "payload bytes were observed without a delivered message"
    let report := report.check (summary.diagnostics ≠ 0) .connectionDiagnostics .degraded
      (cappedWeight summary.diagnostics 4 24) "connection" (countDetail "diagnostics" summary.diagnostics)
    let report := report.check (summary.resets ≠ 0) .connectionResets .degraded
      (cappedWeight summary.resets 5 20) "connection" (countDetail "resets" summary.resets)
    let report := report.check (summary.closed ≠ 0 ∧ summary.delivered = 0) .connectionClosed .degraded 8
      "connection" "connection closed before delivering any messages"
    let report := report.check (summary.timers > summary.total / 2 ∧ summary.timers > 2)
      .connectionTimerPressure .degraded (cappedWeight summary.timers 2 18) "connection"
      (countDetail "timers" summary.timers)
    report.finalize

def RoutePolicyEntry.subject (route : RoutePolicyEntry) (index : Nat) : String :=
  if route.name ≠ [] then keyText route.name else "route[" ++ toString index ++ "]"

/-- The loop over the routes, as far as it signals. -/
def signalLoopbacks : Nat → List RoutePolicyEntry → HealthReport → HealthReport
  | _, [], report => report
  | index, route :: routes, report =>
    signalLoopbacks (index + 1) routes
      (if route.source = route.destination then
        report.addSignal .routePolicyLoopback .failed 20 (route.subject index)
          "source and destination are the same channel"
      else report)

/-- How many families more than one route has. -/
def sharedFamilies (routes : List RoutePolicyEntry) : Nat :=
  let families := routes.map (·.familyId)
  families.dedup.countP fun familyId => families.count familyId > 1

def evaluateRoutePolicyHealth (document : RoutePolicyDocument) (options : HealthOptions) : HealthReport :=
  let report : HealthReport := {}
  match (validateRoutePolicy document).diagnostics with
  | diagnostic :: rest =>
    ((diagnostic :: rest).foldl (fun report diagnostic =>
      report.addSignal .routePolicyInvalid .failed 25 "policy" diagnostic.detail) report).finalize
  | [] =>
    let report := report.recordHealthy
    if document.routes = [] then
      (report.addSignal .routePolicyEmpty .failed 45 "policy" "no routes are configured").finalize
    else
      let report := report.recordHealthy
      let report := report.check (document.routes.length < options.minRoutes) .routePolicySparse .degraded 8
        "policy" (countDetail "routes" document.routes.length)
      let report := signalLoopbacks 0 document.routes report
      let report := if document.routes.countP (fun route => route.source = route.destination) = 0 then
          report.recordHealthy
        else report
      let emptyPayloads := document.routes.countP fun route => route.payload = []
      let report := report.check (options.requireRoutePayload ∧ emptyPayloads ≠ 0) .routePolicySparse .degraded
        (cappedWeight emptyPayloads 3 15) "policy" (countDetail "empty_payloads" emptyPayloads)
      let groups := sharedFamilies document.routes
      let report := report.check (groups ≠ 0) .routePolicyDuplicateFamily .degraded
        (cappedWeight groups 2 10) "policy" (countDetail "shared_families" groups)
      report.finalize

/-- One turn of the loop over the reports, but for their scores. -/
def HealthReport.absorb (merged report : HealthReport) : HealthReport :=
  { merged with
    level := combineHealthLevel merged.level report.level
    healthyChecks := merged.healthyChecks + report.healthyChecks
    degradedChecks := merged.degradedChecks + report.degradedChecks
    failedChecks := merged.failedChecks + report.failedChecks
    signals := merged.signals ++ report.signals }

def mergeHealthReports (reports : List HealthReport) : HealthReport :=
  let merged : HealthReport := {}
  if reports = [] then
    (merged.addSignal .aggregateFailure .failed 50 "aggregate" "no reports were provided").finalize
  else
    let merged := reports.foldl HealthReport.absorb merged
    let merged := { merged with score := (reports.map HealthReport.score).sum / reports.length }
    let merged :=
      if merged.failedChecks ≠ 0 then
        merged.addSignal .aggregateFailure .failed 10 "aggregate" "one or more component reports failed"
      else if merged.degradedChecks ≠ 0 then
        merged.addSignal .aggregateFailure .degraded 4 "aggregate" "one or more component reports degraded"
      else merged.recordHealthy
    merged.finalize

end LatticeGateway

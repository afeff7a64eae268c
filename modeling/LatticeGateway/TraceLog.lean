import LatticeGateway.ReplaySnapshot
import LatticeGateway.StableSort

namespace LatticeGateway

inductive TraceKind
  | transportBytes | apiEvent | timer | pluginCompletion | diagnostic
  deriving DecidableEq, Repr

structure TraceEvent where
  timeMs : UInt64 := 0
  kind : TraceKind := .apiEvent
  label : Bytes := []
  bytes : Bytes := []
  deriving DecidableEq, Repr

structure TraceReplayReport where
  totalEvents : Nat := 0
  transportEvents : Nat := 0
  apiEvents : Nat := 0
  timerEvents : Nat := 0
  pluginEvents : Nat := 0
  diagnosticEvents : Nat := 0
  totalBytes : Nat := 0
  canonical : Bool := false
  deriving DecidableEq, Repr

structure TraceLog where
  events : List TraceEvent := []
  deriving DecidableEq, Repr

def traceKindName : TraceKind → Bytes
  | .transportBytes => ascii "transport"
  | .apiEvent => ascii "api"
  | .timer => ascii "timer"
  | .pluginCompletion => ascii "plugin"
  | .diagnostic => ascii "diagnostic"

/-- The loop over pairs of hex digits, with the error for any other character. -/
def hexPairs (nonHex : Error) : Bytes → Except Error Bytes
  | first :: second :: text =>
    match nibble? first, nibble? second with
    | some high, some low =>
      match hexPairs nonHex text with
      | .error error => .error error
      | .ok bytes => .ok ((high <<< 4 ||| low) :: bytes)
    | _, _ => .error nonHex
  | _ => .ok []

namespace TraceLog

def parseKind (text : Bytes) : Except Error TraceKind :=
  if text = ascii "transport" then .ok .transportBytes
  else if text = ascii "api" then .ok .apiEvent
  else if text = ascii "timer" then .ok .timer
  else if text = ascii "plugin" then .ok .pluginCompletion
  else if text = ascii "diagnostic" then .ok .diagnostic
  else .error (snapshotError "unknown trace event kind")

def parseHex (text : Bytes) : Except Error Bytes :=
  if text.length % 2 ≠ 0 then .error (snapshotError "trace hex has odd length")
  else hexPairs (snapshotError "trace hex contains non-hex byte") text

def parseU64Loop : Bytes → UInt64 → Except Error UInt64
  | [], value => .ok value
  | ch :: text, value =>
    if ch < 48 ∨ ch > 57 then .error (snapshotError "trace timestamp is not decimal")
    else
      let digit := (ch - 48).toUInt64
      if value > (0xFFFFFFFFFFFFFFFF - digit) / 10 then
        .error (snapshotError "trace timestamp overflows u64")
      else parseU64Loop text (value * 10 + digit)

def parseU64 (text : Bytes) : Except Error UInt64 :=
  if text = [] then .error (snapshotError "trace timestamp is empty") else parseU64Loop text 0

def record (log : TraceLog) (event : TraceEvent) : TraceLog :=
  { events := StableSort.sort (·.timeMs.toNat) (log.events ++ [event]) }

def serializeEvents : List TraceEvent → Except Error Bytes
  | [] => .ok []
  | event :: events =>
    if kBar ∈ event.label ∨ kNewline ∈ event.label then
      .error (snapshotError "trace labels cannot contain separators")
    else
      match serializeEvents events with
      | .error error => .error error
      | .ok out =>
        .ok (decimal event.timeMs.toNat ++ [kBar] ++ traceKindName event.kind ++ [kBar] ++ event.label ++
          [kBar] ++ hex event.bytes ++ [kNewline] ++ out)

def serialize (log : TraceLog) : Except Error Bytes :=
  match serializeEvents log.events with
  | .error error => .error error
  | .ok out => .ok (ascii "LTXTRACE/1" ++ [kNewline] ++ out)

def parseLine (line : Bytes) : Except Error TraceEvent :=
  let malformed := snapshotError "malformed trace line"
  match splitBar line with
  | none => .error malformed
  | some (timeText, rest) =>
    match splitBar rest with
    | none => .error malformed
    | some (kindText, rest) =>
      match splitBar rest with
      | none => .error malformed
      | some (label, hexText) =>
        match parseU64 timeText with
        | .error error => .error error
        | .ok timeMs =>
          match parseKind kindText with
          | .error error => .error error
          | .ok kind =>
            match parseHex hexText with
            | .error error => .error error
            | .ok bytes => .ok { timeMs, kind, label, bytes }

def parseLines : List Bytes → TraceLog → Except Error TraceLog
  | [], log => .ok log
  | line :: rest, log =>
    if line = [] then parseLines rest log
    else
      match parseLine line with
      | .error error => .error error
      | .ok event => parseLines rest (log.record event)

def parse (text : Bytes) : Except Error TraceLog :=
  match lines text with
  | [] => .error (snapshotError "trace header mismatch")
  | header :: rest =>
    if header ≠ ascii "LTXTRACE/1" then .error (snapshotError "trace header mismatch")
    else parseLines rest {}

end TraceLog

def TraceReplayReport.count (report : TraceReplayReport) (event : TraceEvent) : TraceReplayReport :=
  let report := { report with totalEvents := report.totalEvents + 1
                              totalBytes := report.totalBytes + event.bytes.length }
  match event.kind with
  | .transportBytes => { report with transportEvents := report.transportEvents + 1 }
  | .apiEvent => { report with apiEvents := report.apiEvents + 1 }
  | .timer => { report with timerEvents := report.timerEvents + 1 }
  | .pluginCompletion => { report with pluginEvents := report.pluginEvents + 1 }
  | .diagnostic => { report with diagnosticEvents := report.diagnosticEvents + 1 }

/-- The loop over the events, with the time of the one before. -/
def countEvents : Option UInt64 → TraceReplayReport → List TraceEvent → Except Error TraceReplayReport
  | _, report, [] => .ok report
  | previous, report, event :: events =>
    if previous.any (event.timeMs < ·) then
      .error (makeError .connection .sequenceError .none "trace replay timestamps are not monotonic")
    else countEvents (some event.timeMs) (report.count event) events

def verifyTraceReplay (log : TraceLog) : Except Error TraceReplayReport :=
  match countEvents none {} log.events with
  | .error error => .error error
  | .ok report =>
    match log.serialize with
    | .error error => .error error
    | .ok serialized =>
      match TraceLog.parse serialized with
      | .error error => .error error
      | .ok reparsed =>
        match reparsed.serialize with
        | .error error => .error error
        | .ok reserialized =>
          if serialized = reserialized then .ok { report with canonical := true }
          else .error (makeError .connection .sequenceError .none "trace replay is not canonical")

end LatticeGateway

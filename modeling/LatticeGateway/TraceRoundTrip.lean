import LatticeGateway.SnapshotRoundTrip
import LatticeGateway.TraceLog

namespace LatticeGateway

/-- A label that leaves the separators of the log to the log. -/
def TraceEvent.Plain (event : TraceEvent) : Prop := kBar ∉ event.label ∧ kNewline ∉ event.label

theorem hexPairs_hex (nonHex : Error) (bytes : Bytes) : hexPairs nonHex (hex bytes) = .ok bytes := by
  induction bytes with
  | nil => rfl
  | cons byte bytes ih =>
    obtain ⟨high, low, hhigh, hlow, hbyte, _⟩ := hexByte_spec byte
    rw [hex_cons, hexPairs, hhigh, hlow, ih]
    dsimp only
    rw [hbyte]

namespace TraceLog

theorem parseU64Loop_of_ok {text : Bytes} {value result : UInt64}
    (h : LatticeGateway.parseU64Loop text value = .ok result) : parseU64Loop text value = .ok result := by
  induction text generalizing value with
  | nil => exact h
  | cons ch text ih =>
    unfold LatticeGateway.parseU64Loop at h
    unfold parseU64Loop
    split at h
    next => cases h
    next hdigit =>
      dsimp only at h ⊢
      split at h
      next => cases h
      next hroom =>
        rw [if_neg hdigit, if_neg hroom]
        exact ih h

theorem parseU64_decimal (n : UInt64) : parseU64 (decimal n.toNat) = .ok n := by
  have hsame := LatticeGateway.parseU64_decimal n.toNat_lt
  rw [UInt64.ofNat_toNat] at hsame
  unfold LatticeGateway.parseU64 at hsame
  unfold parseU64
  split at hsame
  next => cases hsame
  next hne =>
    rw [if_neg hne]
    exact parseU64Loop_of_ok hsame

theorem parseHex_hex (bytes : Bytes) : parseHex (hex bytes) = .ok bytes := by
  rw [parseHex, length_hex, if_neg (by omega), hexPairs_hex]

theorem parseKind_name (kind : TraceKind) : parseKind (traceKindName kind) = .ok kind := by
  cases kind <;> rfl

theorem traceKindName_unreserved (kind : TraceKind) : ∀ ch ∈ traceKindName kind, Unreserved ch := by
  have habsent : kNewline ∉ traceKindName kind ∧ kBar ∉ traceKindName kind := by
    cases kind <;> decide +kernel
  exact fun ch hch => ⟨ne_of_mem_of_not_mem hch habsent.1, ne_of_mem_of_not_mem hch habsent.2⟩

def eventLine (event : TraceEvent) : Bytes :=
  decimal event.timeMs.toNat ++ kBar :: (traceKindName event.kind ++ kBar :: (event.label ++ kBar ::
    hex event.bytes))

theorem eventLine_ne_newline {event : TraceEvent} (h : event.Plain) : ∀ ch ∈ eventLine event, ch ≠ kNewline := by
  have hbar : kBar ≠ kNewline := by decide
  intro ch hch
  simp only [eventLine, List.mem_append, List.mem_cons] at hch
  rcases hch with hch | rfl | hch | rfl | hch | rfl | hch
  · exact decimal_ne_newline _ ch hch
  · exact hbar
  · exact (traceKindName_unreserved _ ch hch).1
  · exact hbar
  · rintro rfl
    exact h.2 hch
  · exact hbar
  · exact (hex_unreserved _ ch hch).1

theorem parseLine_eventLine {event : TraceEvent} (h : event.Plain) : parseLine (eventLine event) = .ok event := by
  have hlabel : ∀ ch ∈ event.label, ch ≠ kBar := by
    rintro ch hch rfl
    exact h.1 hch
  unfold parseLine eventLine
  dsimp only
  rw [splitBar_append (decimal_ne_bar _)]
  dsimp only
  rw [splitBar_append fun ch hch => (traceKindName_unreserved event.kind ch hch).2]
  dsimp only
  rw [splitBar_append hlabel]
  dsimp only
  rw [parseU64_decimal, parseKind_name, parseHex_hex]

/-- The events are written line by line, unless a label is not plain. -/
theorem serializeEvents_ok {events : List TraceEvent} {out : Bytes} :
    serializeEvents events = .ok out ↔
      (∀ event ∈ events, event.Plain) ∧ out = events.flatMap fun event => eventLine event ++ [kNewline] := by
  induction events generalizing out with
  | nil => simp [serializeEvents, eq_comm]
  | cons event events ih =>
    unfold serializeEvents
    by_cases hplain : event.Plain
    · rw [if_neg (by simpa [TraceEvent.Plain] using hplain), List.forall_mem_cons, List.flatMap_cons]
      rcases hrest : serializeEvents events with error | rest
      · refine iff_of_false (fun h => by cases h) ?_
        rintro ⟨⟨_, hall⟩, _⟩
        have hok := ih.mpr ⟨hall, rfl⟩
        rw [hrest] at hok
        cases hok
      · obtain ⟨hall, rfl⟩ := ih.mp hrest
        simp only [Except.ok.injEq, eventLine, List.append_assoc, List.cons_append, List.nil_append]
        exact ⟨fun h => ⟨⟨hplain, hall⟩, h.symm⟩, fun h => h.2.symm⟩
    · have hreserved : kBar ∈ event.label ∨ kNewline ∈ event.label := by
        unfold TraceEvent.Plain at hplain
        tauto
      rw [if_pos hreserved]
      exact iff_of_false (fun h => by cases h) fun h => hplain (h.1 event (by simp))

theorem serialize_ok {log : TraceLog} {text : Bytes} :
    log.serialize = .ok text ↔
      (∀ event ∈ log.events, event.Plain) ∧
        text = ascii "LTXTRACE/1" ++ kNewline :: log.events.flatMap fun event => eventLine event ++ [kNewline] := by
  unfold serialize
  rcases hevents : serializeEvents log.events with error | out
  · refine iff_of_false (fun h => by cases h) fun h => ?_
    rw [serializeEvents_ok.mpr ⟨h.1, rfl⟩] at hevents
    cases hevents
  · obtain ⟨hall, rfl⟩ := serializeEvents_ok.mp hevents
    simp only [Except.ok.injEq, List.append_assoc, List.cons_append, List.nil_append]
    exact ⟨fun h => ⟨hall, h.symm⟩, fun h => h.2.symm⟩

def InOrder (events : List TraceEvent) : Prop := events.Pairwise fun a b => a.timeMs.toNat ≤ b.timeMs.toNat

/-- Events that come in order are recorded at the end. -/
theorem parseLines_events {events : List TraceEvent} {log : TraceLog} (hplain : ∀ event ∈ events, event.Plain)
    (horder : InOrder (log.events ++ events)) :
    parseLines (events.map eventLine) log = .ok { events := log.events ++ events } := by
  induction events generalizing log with
  | nil => simp [parseLines]
  | cons event events ih =>
    obtain ⟨hfirst, hrest⟩ := List.forall_mem_cons.mp hplain
    obtain ⟨hbefore, _, hbehind⟩ := List.pairwise_append.mp horder
    have hrecord : log.record event = { events := log.events ++ [event] } :=
      congrArg TraceLog.mk (StableSort.sort_snoc hbefore fun a ha => hbehind a ha event (by simp))
    have hne : eventLine event ≠ [] := by simp [eventLine]
    rw [List.map_cons, parseLines, if_neg hne, parseLine_eventLine hfirst]
    dsimp only
    rw [hrecord, ih hrest (by simpa [List.append_assoc] using horder), List.append_assoc, List.singleton_append]

theorem parse_serialize {log : TraceLog} {text : Bytes} (horder : InOrder log.events)
    (h : log.serialize = .ok text) : parse text = .ok log := by
  obtain ⟨hplain, rfl⟩ := serialize_ok.mp h
  have hheader : ∀ ch ∈ ascii "LTXTRACE/1", ch ≠ kNewline := fun ch hch =>
    ne_of_mem_of_not_mem hch (by decide +kernel)
  unfold parse
  have hlines : lines (log.events.flatMap fun event => eventLine event ++ [kNewline]) =
      log.events.map eventLine := by
    rw [← List.flatMap_map eventLine (· ++ [kNewline])]
    refine lines_joined fun line hline => ?_
    obtain ⟨event, hevent, rfl⟩ := List.mem_map.mp hline
    exact eventLine_ne_newline (hplain event hevent)
  rw [lines_cons hheader, hlines]
  dsimp only
  rw [if_neg (by simp), parseLines_events hplain (by simpa using horder)]
  simp

/-- The event that a line spells; an empty line spells none. -/
def lineEvent (line : Bytes) : Option TraceEvent := (parseLine line).toOption

/-- The events that the lines of a text spell. -/
def spelled (text : Bytes) : List TraceEvent := (lines text).tail.filterMap lineEvent

/-- The log was made by recording these events one after the other, or by reading them from a text. -/
inductive Recorded : TraceLog → List TraceEvent → Prop
  | empty : Recorded {} []
  | record {log : TraceLog} {events : List TraceEvent} (h : Recorded log events) (event : TraceEvent) :
      Recorded (log.record event) (events ++ [event])
  | parse {log : TraceLog} {text : Bytes} (h : parse text = .ok log) : Recorded log (spelled text)

abbrev SortedByTime (events sorted : List TraceEvent) : Prop :=
  StableSort.Sorted (fun event : TraceEvent => event.timeMs.toNat) events sorted

theorem lineEvent_nil : lineEvent [] = none := rfl

theorem parseLines_sorted {rest : List Bytes} {log log' : TraceLog} {events : List TraceEvent}
    (hsorted : SortedByTime events log.events) (h : parseLines rest log = .ok log') :
    SortedByTime (events ++ rest.filterMap lineEvent) log'.events := by
  induction rest generalizing log events with
  | nil =>
    cases h
    simpa using hsorted
  | cons line rest ih =>
    unfold parseLines at h
    split at h
    next hempty =>
      subst hempty
      rw [List.filterMap_cons_none lineEvent_nil]
      exact ih hsorted h
    next =>
      split at h
      next => cases h
      next event hevent =>
        have hsome : lineEvent line = some event := congrArg Except.toOption hevent
        rw [List.filterMap_cons_some hsome, List.append_cons]
        exact ih (hsorted.snoc event) h

theorem Recorded.sorted {log : TraceLog} {events : List TraceEvent} (h : Recorded log events) :
    SortedByTime events log.events := by
  induction h with
  | empty => exact .nil
  | record _ event ih => exact ih.snoc event
  | @parse log text h =>
    unfold TraceLog.parse at h
    unfold spelled
    split at h
    next => cases h
    next header rest hlines =>
      split at h
      next => cases h
      next =>
        rw [hlines, List.tail_cons]
        exact parseLines_sorted .nil h

end TraceLog

open TraceLog

/-- The report tells for each kind how many events there are, and what bytes they carry together. -/
structure TraceReplayReport.Tells (report : TraceReplayReport) (events : List TraceEvent) : Prop where
  total : report.totalEvents = events.length
  transport : report.transportEvents = events.countP (·.kind = .transportBytes)
  api : report.apiEvents = events.countP (·.kind = .apiEvent)
  timer : report.timerEvents = events.countP (·.kind = .timer)
  plugin : report.pluginEvents = events.countP (·.kind = .pluginCompletion)
  diagnostic : report.diagnosticEvents = events.countP (·.kind = .diagnostic)
  bytes : report.totalBytes = (events.map fun event => event.bytes.length).sum

theorem TraceReplayReport.Tells.count {report : TraceReplayReport} {events : List TraceEvent}
    (h : report.Tells events) (event : TraceEvent) : (report.count event).Tells (events ++ [event]) := by
  obtain ⟨htotal, htransport, hapi, htimer, hplugin, hdiagnostic, hbytes⟩ := h
  unfold TraceReplayReport.count
  cases hkind : event.kind <;>
    constructor <;> simp [hkind, htotal, htransport, hapi, htimer, hplugin, hdiagnostic, hbytes]

theorem TraceReplayReport.Tells.adds_up {report : TraceReplayReport} {events : List TraceEvent}
    (h : report.Tells events) :
    report.transportEvents + report.apiEvents + report.timerEvents + report.pluginEvents +
      report.diagnosticEvents = events.length := by
  rw [h.transport, h.api, h.timer, h.plugin, h.diagnostic]
  clear h
  induction events with
  | nil => rfl
  | cons event events ih =>
    rw [List.length_cons, ← ih]
    simp only [List.countP_cons]
    cases event.kind <;> simp <;> omega

theorem countEvents_sorted {previous : Option UInt64} {report : TraceReplayReport} {before events : List TraceEvent}
    (hprevious : ∀ time ∈ previous, ∀ event ∈ events, time.toNat ≤ event.timeMs.toNat)
    (horder : InOrder events) (hreport : report.Tells before) :
    ∃ report', countEvents previous report events = .ok report' ∧ report'.Tells (before ++ events) := by
  induction events generalizing previous report before with
  | nil => exact ⟨report, rfl, by simpa using hreport⟩
  | cons event events ih =>
    obtain ⟨hfirst, hrest⟩ := List.pairwise_cons.mp horder
    have hbehind : ∀ time ∈ some event.timeMs, ∀ other ∈ events, time.toNat ≤ other.timeMs.toNat := by
      simpa using hfirst
    obtain ⟨report', hcount, htells⟩ := ih hbehind hrest (hreport.count event)
    have hlate : previous.any (event.timeMs < ·) = false := by
      cases previous with
      | none => rfl
      | some time =>
        have hle := hprevious time rfl event (by simp)
        simp only [Option.any_some, decide_eq_false_iff_not, UInt64.not_lt]
        exact UInt64.le_iff_toNat_le.mpr hle
    refine ⟨report', ?_, by simpa using htells⟩
    unfold countEvents
    rw [if_neg (by simp [hlate]), hcount]

/-- The report of a replay that succeeds. -/
def Verified (log : TraceLog) (report : TraceReplayReport) : Prop :=
  verifyTraceReplay log = .ok report ∧ report.canonical = true ∧ report.totalEvents = log.events.length ∧
    report.transportEvents + report.apiEvents + report.timerEvents + report.pluginEvents +
      report.diagnosticEvents = log.events.length ∧
    report.totalBytes = (log.events.map fun event => event.bytes.length).sum

theorem verifyTraceReplay_ok {log : TraceLog} {text : Bytes} (horder : InOrder log.events)
    (h : log.serialize = .ok text) : ∃ report, Verified log report := by
  obtain ⟨report, hcount, htells⟩ := @countEvents_sorted none {} [] log.events (by simp) horder
    (by constructor <;> rfl)
  rw [List.nil_append] at htells
  refine ⟨{ report with canonical := true }, ?_, rfl, htells.total, htells.adds_up, htells.bytes⟩
  unfold verifyTraceReplay
  rw [hcount, h]
  dsimp only
  rw [parse_serialize horder h]
  dsimp only
  rw [h]
  dsimp only
  rw [if_pos rfl]

theorem trace_log_round_trip {log : TraceLog} {events : List TraceEvent} (h : Recorded log events) :
    SortedByTime events log.events ∧
      ((∃ text, log.serialize = .ok text) ↔ ∀ event ∈ events, kBar ∉ event.label ∧ kNewline ∉ event.label) ∧
      ∀ text, log.serialize = .ok text →
        (∃ copy, TraceLog.parse text = .ok copy ∧ copy.events = log.events) ∧
          ∃ report, Verified log report := by
  have hsorted := h.sorted
  refine ⟨hsorted, ?_, fun text htext => ?_⟩
  · have hplain : (∀ event ∈ events, event.Plain) ↔ ∀ event ∈ log.events, event.Plain :=
      ⟨fun hall event hevent => hall event (hsorted.perm.mem_iff.mp hevent),
        fun hall event hevent => hall event (hsorted.perm.mem_iff.mpr hevent)⟩
    change _ ↔ ∀ event ∈ events, event.Plain
    rw [hplain]
    exact ⟨fun ⟨text, htext⟩ => (serialize_ok.mp htext).1, fun hall => ⟨_, serialize_ok.mpr ⟨hall, rfl⟩⟩⟩
  · exact ⟨⟨log, parse_serialize hsorted.sorted htext, rfl⟩, verifyTraceReplay_ok hsorted.sorted htext⟩

/-- Two events of one time and one before them, recorded in another order. -/
def mixedTrace : List TraceEvent :=
  [{ timeMs := 2, kind := .timer, bytes := [1] }, { timeMs := 1, label := ascii "in" },
    { timeMs := 2, kind := .diagnostic, label := ascii " " }]

def mixedLog : TraceLog := mixedTrace.foldl TraceLog.record {}

theorem trace_log_round_trip_mixed :
    mixedLog.events = [{ timeMs := 1, label := ascii "in" }, { timeMs := 2, kind := .timer, bytes := [1] },
      { timeMs := 2, kind := .diagnostic, label := ascii " " }] ∧ ∃ report, Verified mixedLog report := by
  have h : Recorded mixedLog mixedTrace := ((Recorded.empty.record _).record _).record _
  obtain ⟨_, hserialize, hrest⟩ := trace_log_round_trip h
  obtain ⟨text, htext⟩ := hserialize.mpr (by decide +kernel)
  exact ⟨by decide +kernel, (hrest text htext).2⟩

end LatticeGateway

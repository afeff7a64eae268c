import LatticeGateway.Health
import Mathlib.Algebra.Order.BigOperators.Group.List
import Mathlib.Algebra.Order.Group.Nat
import Mathlib.Data.UInt

namespace LatticeGateway

namespace HealthReport

/-- A report whose counts and score are in order, before `finalize_report` has set its level. -/
structure Counted (report : HealthReport) : Prop where
  failed : report.failedChecks = report.signals.countP fun signal => signal.level = .failed
  degraded : report.degradedChecks = report.signals.countP fun signal => signal.level = .degraded
  score : report.score ≤ 100

/-- The counts are those of the signals, and they fix the level and the range of the score. -/
structure Coherent (report : HealthReport) : Prop where
  failed : report.failedChecks = report.signals.countP fun signal => signal.level = .failed
  degraded : report.degradedChecks = report.signals.countP fun signal => signal.level = .degraded
  level_failed : report.level = .failed ↔ 0 < report.failedChecks
  level_degraded : report.level = .degraded ↔ report.failedChecks = 0 ∧ 0 < report.degradedChecks
  score_failed : report.level = .failed → report.score ≤ 49
  score_degraded : report.level = .degraded → report.score ≤ 89
  score_healthy : report.level = .healthy → 90 ≤ report.score ∧ report.score ≤ 100

theorem boundedSubtract_le (value penalty : Nat) : boundedSubtract value penalty ≤ value := by
  unfold boundedSubtract
  split <;> omega

theorem Counted.start : Counted {} := ⟨rfl, rfl, Nat.le_refl _⟩

section

variable {report : HealthReport}

theorem Counted.recordHealthy (h : report.Counted) : report.recordHealthy.Counted :=
  ⟨h.failed, h.degraded, h.score⟩

theorem Counted.addSignal (h : report.Counted) (code : HealthSignalCode) (level : HealthLevel) (weight : Nat)
    (subject detail : String) : (report.addSignal code level weight subject detail).Counted := by
  have hscore := h.score
  cases level with
  | healthy =>
    refine ⟨?_, ?_, hscore⟩
    · change report.failedChecks = (report.signals ++ [_]).countP _
      rw [List.countP_append, ← h.failed]
      rfl
    · change report.degradedChecks = (report.signals ++ [_]).countP _
      rw [List.countP_append, ← h.degraded]
      rfl
  | degraded =>
    refine ⟨?_, ?_, ?_⟩
    · change report.failedChecks = (report.signals ++ [_]).countP _
      rw [List.countP_append, ← h.failed]
      rfl
    · change report.degradedChecks + 1 = (report.signals ++ [_]).countP _
      rw [List.countP_append, ← h.degraded]
      rfl
    · exact Nat.le_trans (boundedSubtract_le _ _) hscore
  | failed =>
    refine ⟨?_, ?_, ?_⟩
    · change report.failedChecks + 1 = (report.signals ++ [_]).countP _
      rw [List.countP_append, ← h.failed]
      rfl
    · change report.degradedChecks = (report.signals ++ [_]).countP _
      rw [List.countP_append, ← h.degraded]
      rfl
    · exact Nat.le_trans (boundedSubtract_le _ _) hscore

theorem Counted.check (h : report.Counted) {fails : Prop} [Decidable fails] {code : HealthSignalCode}
    {level : HealthLevel} {weight : Nat} {subject detail : String} :
    (report.check fails code level weight subject detail).Counted := by
  unfold HealthReport.check
  split
  next => exact h.addSignal code level weight subject detail
  next => exact h.recordHealthy

theorem Counted.finalize (h : report.Counted) : report.finalize.Coherent := by
  have hscore := h.score
  unfold HealthReport.finalize
  split
  next hfailed =>
    refine ⟨h.failed, h.degraded, ⟨fun _ => Nat.pos_of_ne_zero hfailed, fun _ => rfl⟩, ?_, ?_, nofun, nofun⟩
    · exact ⟨nofun, fun hnone => (hfailed hnone.1).elim⟩
    · intro _
      dsimp only
      split <;> omega
  next hsound =>
    rw [not_not] at hsound
    split
    next hdegraded =>
      refine ⟨h.failed, h.degraded, ⟨nofun, fun hpos => ?_⟩, ?_, nofun, ?_, nofun⟩
      · exact absurd hsound (Nat.ne_of_gt hpos)
      · exact ⟨fun _ => ⟨hsound, Nat.pos_of_ne_zero hdegraded⟩, fun _ => rfl⟩
      · intro _
        dsimp only
        split <;> omega
    next hhealthy =>
      rw [not_not] at hhealthy
      refine ⟨h.failed, h.degraded, ⟨nofun, fun hpos => ?_⟩, ⟨nofun, fun hsome => ?_⟩, nofun, nofun, ?_⟩
      · exact absurd hsound (Nat.ne_of_gt hpos)
      · exact absurd hhealthy (Nat.ne_of_gt hsome.2)
      · intro _
        dsimp only
        omega

end

theorem evaluateStreamHealth_coherent (inspection : StreamInspectionReport) (options : HealthOptions) :
    (evaluateStreamHealth inspection options).Coherent := by
  unfold evaluateStreamHealth
  dsimp only
  apply Counted.finalize
  iterate 6 apply Counted.check
  exact .start

theorem evaluateConnectionHealth_coherent (summary : ConnectionEventSummary) (options : HealthOptions) :
    (evaluateConnectionHealth summary options).Coherent := by
  unfold evaluateConnectionHealth
  dsimp only
  split
  next => exact (Counted.start.addSignal _ _ _ _ _).finalize
  next =>
    apply Counted.finalize
    iterate 6 apply Counted.check
    exact .start

theorem Counted.signalLoopbacks {routes : List RoutePolicyEntry} {index : Nat} {report : HealthReport}
    (h : report.Counted) : (signalLoopbacks index routes report).Counted := by
  induction routes generalizing index report with
  | nil => exact h
  | cons route routes ih =>
    unfold LatticeGateway.signalLoopbacks
    apply ih
    split
    next => exact h.addSignal _ _ _ _ _
    next => exact h

theorem Counted.signalInvalid {diagnostics : List RoutePolicyDiagnostic} {report : HealthReport}
    (h : report.Counted) : (diagnostics.foldl (fun report diagnostic =>
      report.addSignal .routePolicyInvalid .failed 25 "policy" diagnostic.detail) report).Counted := by
  induction diagnostics generalizing report with
  | nil => exact h
  | cons diagnostic diagnostics ih => exact ih (h.addSignal _ _ _ _ _)

theorem evaluateRoutePolicyHealth_coherent (document : RoutePolicyDocument) (options : HealthOptions) :
    (evaluateRoutePolicyHealth document options).Coherent := by
  unfold evaluateRoutePolicyHealth
  dsimp only
  split
  next => exact Counted.start.signalInvalid.finalize
  next =>
    split
    next => exact (Counted.start.recordHealthy.addSignal _ _ _ _ _).finalize
    next =>
      have hchecked := Counted.start.recordHealthy.recordHealthy
      apply Counted.finalize
      iterate 2 apply Counted.check
      split
      next => exact .recordHealthy (.signalLoopbacks (.check hchecked))
      next => exact .signalLoopbacks (.check hchecked)

section

variable {reports : List HealthReport}

theorem foldl_absorb (merged : HealthReport) :
    (reports.foldl absorb merged).failedChecks =
        merged.failedChecks + (reports.map HealthReport.failedChecks).sum ∧
      (reports.foldl absorb merged).degradedChecks =
        merged.degradedChecks + (reports.map HealthReport.degradedChecks).sum ∧
      (reports.foldl absorb merged).healthyChecks =
        merged.healthyChecks + (reports.map HealthReport.healthyChecks).sum ∧
      (reports.foldl absorb merged).signals = merged.signals ++ reports.flatMap HealthReport.signals := by
  induction reports generalizing merged with
  | nil => simp
  | cons report reports ih =>
    obtain ⟨hfailed, hdegraded, hhealthy, hsignals⟩ := ih (merged.absorb report)
    rw [List.foldl_cons, hfailed, hdegraded, hhealthy, hsignals]
    simp only [absorb, List.map_cons, List.sum_cons, List.flatMap_cons]
    exact ⟨by omega, by omega, UInt64.add_assoc _ _ _, List.append_assoc _ _ _⟩

end

/-- The merged report before the signal of the aggregate. -/
def aggregate (reports : List HealthReport) : HealthReport :=
  { reports.foldl absorb {} with score := (reports.map HealthReport.score).sum / reports.length }

/-- The signal of the aggregate and the final clamp. -/
def conclude (merged : HealthReport) : HealthReport :=
  (if merged.failedChecks ≠ 0 then
    merged.addSignal .aggregateFailure .failed 10 "aggregate" "one or more component reports failed"
  else if merged.degradedChecks ≠ 0 then
    merged.addSignal .aggregateFailure .degraded 4 "aggregate" "one or more component reports degraded"
  else merged.recordHealthy).finalize

theorem merge_eq {reports : List HealthReport} (hsome : reports ≠ []) :
    mergeHealthReports reports = (aggregate reports).conclude := by
  unfold mergeHealthReports
  rw [if_neg hsome]
  rfl

theorem Counted.conclude {merged : HealthReport} (h : merged.Counted) : merged.conclude.Coherent := by
  unfold HealthReport.conclude
  apply Counted.finalize
  split
  next => exact h.addSignal _ _ _ _ _
  next =>
    split
    next => exact h.addSignal _ _ _ _ _
    next => exact h.recordHealthy

theorem finalize_level (report : HealthReport) : report.finalize.level =
    if report.failedChecks ≠ 0 then .failed else if report.degradedChecks ≠ 0 then .degraded else .healthy := by
  unfold finalize
  split
  next => rfl
  next => split <;> rfl

theorem conclude_level (merged : HealthReport) : merged.conclude.level =
    if merged.failedChecks ≠ 0 then .failed else if merged.degradedChecks ≠ 0 then .degraded else .healthy := by
  unfold conclude
  rw [finalize_level]
  by_cases hfailed : merged.failedChecks ≠ 0
  · rw [if_pos hfailed, if_pos hfailed]
    exact if_pos (Nat.succ_ne_zero _)
  · rw [if_neg hfailed, if_neg hfailed]
    by_cases hdegraded : merged.degradedChecks ≠ 0
    · rw [if_pos hdegraded, if_pos hdegraded]
      exact (if_neg hfailed).trans (if_pos (Nat.succ_ne_zero _))
    · rw [if_neg hdegraded, if_neg hdegraded]
      exact (if_neg hfailed).trans (if_neg hdegraded)

theorem sum_countP {reports : List HealthReport} {count : HealthReport → Nat} {p : HealthSignal → Bool}
    (h : ∀ report ∈ reports, count report = report.signals.countP p) :
    (reports.map count).sum = (reports.flatMap HealthReport.signals).countP p := by
  rw [List.countP_flatMap]
  exact congrArg List.sum (List.map_congr_left h)

theorem Coherent.score_le {report : HealthReport} (h : report.Coherent) : report.score ≤ 100 := by
  cases hlevel : report.level with
  | healthy => exact (h.score_healthy hlevel).2
  | degraded => exact Nat.le_trans (h.score_degraded hlevel) (by decide)
  | failed => exact Nat.le_trans (h.score_failed hlevel) (by decide)

theorem aggregate_counted {reports : List HealthReport} (h : ∀ report ∈ reports, report.Coherent) :
    (aggregate reports).Counted := by
  obtain ⟨hfailed, hdegraded, _, hsignals⟩ := @foldl_absorb reports {}
  refine ⟨?_, ?_, ?_⟩
  · change (reports.foldl absorb {}).failedChecks = (reports.foldl absorb {}).signals.countP _
    rw [hfailed, hsignals, Nat.zero_add]
    exact sum_countP fun report hreport => (h report hreport).failed
  · change (reports.foldl absorb {}).degradedChecks = (reports.foldl absorb {}).signals.countP _
    rw [hdegraded, hsignals, Nat.zero_add]
    exact sum_countP fun report hreport => (h report hreport).degraded
  · change (reports.map HealthReport.score).sum / reports.length ≤ 100
    refine Nat.div_le_of_le_mul ?_
    have hsum := List.sum_le_card_nsmul (reports.map HealthReport.score) 100 fun score hscore => by
      obtain ⟨report, hreport, rfl⟩ := List.mem_map.mp hscore
      exact (h report hreport).score_le
    rwa [List.length_map] at hsum

theorem Coherent.level_healthy {report : HealthReport} (h : report.Coherent)
    (hfailed : report.failedChecks = 0) (hdegraded : report.degradedChecks = 0) : report.level = .healthy := by
  cases hlevel : report.level with
  | healthy => rfl
  | degraded =>
    have hpos := (h.level_degraded.mp hlevel).2
    omega
  | failed =>
    have hpos := h.level_failed.mp hlevel
    omega

theorem sum_map_eq_zero {reports : List HealthReport} {count : HealthReport → Nat} :
    (reports.map count).sum = 0 ↔ ∀ report ∈ reports, count report = 0 := by
  rw [List.sum_eq_zero_iff_forall_eq_nat, List.forall_mem_map]

theorem sum_map_ne_zero {reports : List HealthReport} {count : HealthReport → Nat}
    (h : (reports.map count).sum ≠ 0) : ∃ report ∈ reports, 0 < count report := by
  obtain ⟨n, hn, hpos⟩ := List.sum_pos_iff_exists_pos_nat.mp (Nat.pos_of_ne_zero h)
  obtain ⟨report, hreport, rfl⟩ := List.mem_map.mp hn
  exact ⟨report, hreport, hpos⟩

/-- The worst level among the reports. -/
structure Worst (reports : List HealthReport) (level : HealthLevel) : Prop where
  bound : ∀ report ∈ reports, levelRank report.level ≤ levelRank level
  met : ∃ report ∈ reports, report.level = level

theorem merge_worst {reports : List HealthReport} (hsome : reports ≠ [])
    (h : ∀ report ∈ reports, report.Coherent) : Worst reports (mergeHealthReports reports).level := by
  obtain ⟨hfailed, hdegraded, _, _⟩ := @foldl_absorb reports {}
  rw [merge_eq hsome, conclude_level]
  change Worst reports (if (reports.foldl absorb {}).failedChecks ≠ 0 then _ else
    if (reports.foldl absorb {}).degradedChecks ≠ 0 then _ else _)
  rw [hfailed, hdegraded, Nat.zero_add, Nat.zero_add]
  by_cases hbad : (reports.map HealthReport.failedChecks).sum = 0
  · have hsound := sum_map_eq_zero.mp hbad
    rw [hbad, if_neg (by decide)]
    by_cases hweak : (reports.map HealthReport.degradedChecks).sum = 0
    · have hhealthy : ∀ report ∈ reports, report.level = .healthy := fun report hreport =>
        (h report hreport).level_healthy (hsound report hreport) (sum_map_eq_zero.mp hweak report hreport)
      rw [hweak, if_neg (by decide)]
      obtain ⟨report, hreport⟩ := List.exists_mem_of_ne_nil reports hsome
      refine ⟨fun other hother => ?_, report, hreport, hhealthy report hreport⟩
      rw [hhealthy other hother]
    · rw [if_pos hweak]
      obtain ⟨report, hreport, hpos⟩ := sum_map_ne_zero hweak
      refine ⟨fun other hother => ?_, report, hreport,
        (h report hreport).level_degraded.mpr ⟨hsound report hreport, hpos⟩⟩
      have hother := mt (h other hother).level_failed.mp (by rw [hsound other hother]; decide)
      cases hlevel : other.level with
      | healthy => decide
      | degraded => decide
      | failed => exact (hother hlevel).elim
  · rw [if_pos hbad]
    obtain ⟨report, hreport, hpos⟩ := sum_map_ne_zero hbad
    exact ⟨fun other _ => by cases other.level <;> decide, report, hreport,
      (h report hreport).level_failed.mpr hpos⟩

/-- Two reports that say the same but for the order of their signals. -/
structure SameVerdict (a b : HealthReport) : Prop where
  level : a.level = b.level
  score : a.score = b.score
  healthy : a.healthyChecks = b.healthyChecks
  degraded : a.degradedChecks = b.degradedChecks
  failed : a.failedChecks = b.failedChecks

/-- The same score and counts, whatever the level before it is settled. -/
structure Alike (a b : HealthReport) : Prop where
  score : a.score = b.score
  healthy : a.healthyChecks = b.healthyChecks
  degraded : a.degradedChecks = b.degradedChecks
  failed : a.failedChecks = b.failedChecks

section

variable {a b : HealthReport}

theorem Alike.recordHealthy (h : Alike a b) : Alike a.recordHealthy b.recordHealthy :=
  ⟨h.score, congrArg (· + 1) h.healthy, h.degraded, h.failed⟩

theorem Alike.addSignal (h : Alike a b) (code : HealthSignalCode) (level : HealthLevel) (weight : Nat)
    (subject detail : String) :
    Alike (a.addSignal code level weight subject detail) (b.addSignal code level weight subject detail) := by
  cases level with
  | healthy => exact ⟨h.score, congrArg (· + 1) h.healthy, h.degraded, h.failed⟩
  | degraded =>
    exact ⟨congrArg (boundedSubtract · _) h.score, h.healthy, congrArg (· + 1) h.degraded, h.failed⟩
  | failed =>
    exact ⟨congrArg (boundedSubtract · _) h.score, h.healthy, h.degraded, congrArg (· + 1) h.failed⟩

theorem Alike.finalize (h : Alike a b) : SameVerdict a.finalize b.finalize := by
  unfold HealthReport.finalize
  rw [h.failed, h.degraded, h.score]
  split
  next => exact ⟨rfl, rfl, h.healthy, rfl, rfl⟩
  next =>
    split
    next => exact ⟨rfl, rfl, h.healthy, rfl, rfl⟩
    next => exact ⟨rfl, rfl, h.healthy, rfl, rfl⟩

theorem Alike.conclude (h : Alike a b) : SameVerdict a.conclude b.conclude := by
  unfold HealthReport.conclude
  apply Alike.finalize
  rw [h.failed, h.degraded]
  split
  next => exact h.addSignal _ _ _ _ _
  next =>
    split
    next => exact h.addSignal _ _ _ _ _
    next => exact h.recordHealthy

end

theorem aggregate_perm {reports reports' : List HealthReport} (h : reports.Perm reports') :
    Alike (aggregate reports) (aggregate reports') := by
  obtain ⟨hfailed, hdegraded, hhealthy, _⟩ := @foldl_absorb reports {}
  obtain ⟨hfailed', hdegraded', hhealthy', _⟩ := @foldl_absorb reports' {}
  refine ⟨?_, ?_, ?_, ?_⟩
  · change (reports.map HealthReport.score).sum / reports.length =
      (reports'.map HealthReport.score).sum / reports'.length
    rw [(h.map HealthReport.score).sum_eq, h.length_eq]
  · exact (hhealthy.trans (congrArg _ (h.map HealthReport.healthyChecks).sum_eq)).trans hhealthy'.symm
  · exact (hdegraded.trans (congrArg _ (h.map HealthReport.degradedChecks).sum_eq)).trans hdegraded'.symm
  · exact (hfailed.trans (congrArg _ (h.map HealthReport.failedChecks).sum_eq)).trans hfailed'.symm

end HealthReport

/-- The reports that the evaluators and merges of such reports produce. -/
inductive Evaluated : HealthReport → Prop
  | stream (inspection : StreamInspectionReport) (options : HealthOptions) :
      Evaluated (evaluateStreamHealth inspection options)
  | connection (summary : ConnectionEventSummary) (options : HealthOptions) :
      Evaluated (evaluateConnectionHealth summary options)
  | routePolicy (document : RoutePolicyDocument) (options : HealthOptions) :
      Evaluated (evaluateRoutePolicyHealth document options)
  | merge {reports : List HealthReport} : reports ≠ [] → (∀ report ∈ reports, Evaluated report) →
      Evaluated (mergeHealthReports reports)

theorem Evaluated.coherent {report : HealthReport} (h : Evaluated report) : report.Coherent := by
  induction h with
  | stream inspection options => exact HealthReport.evaluateStreamHealth_coherent inspection options
  | connection summary options => exact HealthReport.evaluateConnectionHealth_coherent summary options
  | routePolicy document options => exact HealthReport.evaluateRoutePolicyHealth_coherent document options
  | merge hsome _ ih =>
    rw [HealthReport.merge_eq hsome]
    exact (HealthReport.aggregate_counted ih).conclude

/-- Reports are coherent however often they have been merged, and a merge takes the worst level of its
reports and comes out the same in any order of them. -/
theorem health_reports_coherent (reports : List HealthReport) (hsome : reports ≠ [])
    (h : ∀ report ∈ reports, Evaluated report) :
    (∀ report ∈ reports, report.Coherent) ∧ (mergeHealthReports reports).Coherent ∧
      HealthReport.Worst reports (mergeHealthReports reports).level ∧
      ∀ reports', reports'.Perm reports →
        HealthReport.SameVerdict (mergeHealthReports reports') (mergeHealthReports reports) := by
  have hcoherent : ∀ report ∈ reports, report.Coherent := fun report hreport => (h report hreport).coherent
  refine ⟨hcoherent, (Evaluated.merge hsome h).coherent, HealthReport.merge_worst hsome hcoherent,
    fun reports' hperm => ?_⟩
  have hsome' : reports' ≠ [] := fun hnil => hsome (hnil ▸ hperm.symm).eq_nil
  rw [HealthReport.merge_eq hsome, HealthReport.merge_eq hsome']
  exact (HealthReport.aggregate_perm hperm).conclude

/-- An empty event log beside a policy of one route without a payload. -/
theorem health_reports_coherent_two :
    (mergeHealthReports [evaluateConnectionHealth {} {},
        evaluateRoutePolicyHealth { routes := [{}] } {}]).Coherent ∧
      HealthReport.Worst [evaluateConnectionHealth {} {}, evaluateRoutePolicyHealth { routes := [{}] } {}]
        (mergeHealthReports [evaluateConnectionHealth {} {},
          evaluateRoutePolicyHealth { routes := [{}] } {}]).level := by
  have h := health_reports_coherent [evaluateConnectionHealth {} {},
    evaluateRoutePolicyHealth { routes := [{}] } {}] (List.cons_ne_nil _ _)
    (List.forall_mem_cons.mpr ⟨.connection _ _, List.forall_mem_singleton.mpr (.routePolicy _ _)⟩)
  exact ⟨h.2.1, h.2.2.1⟩

end LatticeGateway

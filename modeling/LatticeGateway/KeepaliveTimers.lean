import LatticeGateway.ClockSteps
import LatticeGateway.LiveTimers
import Mathlib.Data.List.TakeWhile

namespace LatticeGateway

namespace TimerWheel

def Ordered (wheel : TimerWheel) : Prop := wheel.timers.Pairwise fun a b => a.notAfter b = true

theorem schedule_ordered (wheel : TimerWheel) (kind : TimerKind) (channel : ChannelId)
    (dueMs : UInt64) : (wheel.schedule kind channel dueMs).2.Ordered :=
  List.pairwise_insertionSort _ _

theorem schedule_perm (wheel : TimerWheel) (kind : TimerKind) (channel : ChannelId) (dueMs : UInt64) :
    (wheel.schedule kind channel dueMs).2.timers.Perm
      (wheel.timers ++ [{ id := wheel.nextId, kind, channel, dueMs }]) :=
  List.perm_insertionSort _ _

theorem notAfter_due {a b : TimerEvent} (h : a.notAfter b = true) : a.dueMs ≤ b.dueMs := by
  unfold TimerEvent.notAfter at h
  simp only [Bool.or_eq_true, Bool.and_eq_true, decide_eq_true_eq, beq_iff_eq] at h
  rcases h with h | ⟨h, -⟩
  · exact UInt64.le_of_lt h
  · exact UInt64.le_of_eq h

section

variable {wheel : TimerWheel}

theorem Ordered.expire (h : wheel.Ordered) (nowMs : UInt64) : (wheel.expire nowMs).2.Ordered :=
  h.sublist (List.dropWhile_sublist _)

theorem expire_append (nowMs : UInt64) :
    (wheel.expire nowMs).1 ++ (wheel.expire nowMs).2.timers = wheel.timers :=
  List.takeWhile_append_dropWhile

theorem expired_due {nowMs : UInt64} {t : TimerEvent} (h : t ∈ (wheel.expire nowMs).1) :
    t.dueMs ≤ nowMs := by
  simpa using List.mem_takeWhile_imp h

theorem Ordered.left_due (h : wheel.Ordered) {nowMs : UInt64} {t : TimerEvent}
    (ht : t ∈ (wheel.expire nowMs).2.timers) : ¬ t.dueMs ≤ nowMs := by
  have hfront : wheel.timers.Pairwise fun a b =>
      decide (b.dueMs ≤ nowMs) = true → decide (a.dueMs ≤ nowMs) = true := by
    refine h.imp ?_
    intro a b hab hb
    rw [decide_eq_true_eq] at hb ⊢
    exact UInt64.le_trans (notAfter_due hab) hb
  have hdrop := (StableSort.takeWhile_dropWhile_eq_filter hfront).2
  change t ∈ wheel.timers.dropWhile (·.dueMs ≤ nowMs) at ht
  rw [hdrop, List.mem_filter] at ht
  simpa using ht.2

end

end TimerWheel

/-- The idle timer and the deadline of the PONG that answers its PING. -/
def TimerEvent.isAlarm (t : TimerEvent) : Bool := t.kind == .idle || t.kind == .pongDeadline

/-- Kind and due time of the keepalive's timers, in their order. -/
def alarms (timers : List TimerEvent) : List (TimerKind × UInt64) :=
  (timers.filter (·.isAlarm)).map fun t => (t.kind, t.dueMs)

theorem alarms_append (timers more : List TimerEvent) :
    alarms (timers ++ more) = alarms timers ++ alarms more := by
  simp [alarms]

theorem alarms_of_other {timers : List TimerEvent} (h : ∀ t ∈ timers, t.isAlarm = false) :
    alarms timers = [] := by
  unfold alarms
  rw [List.filter_eq_nil_iff.mpr fun t ht => by simp [h t ht], List.map_nil]

theorem alarms_eq_nil {timers : List TimerEvent} :
    alarms timers = [] ↔ ∀ t ∈ timers, t.isAlarm = false := by
  refine ⟨fun h t ht => ?_, alarms_of_other⟩
  have hnil := List.filter_eq_nil_iff.mp (List.map_eq_nil_iff.mp h) t ht
  simpa using hnil

theorem alarms_cons_alarm {t : TimerEvent} (h : t.isAlarm = true) (timers : List TimerEvent) :
    alarms (t :: timers) = (t.kind, t.dueMs) :: alarms timers := by
  unfold alarms
  rw [List.filter_cons_of_pos h, List.map_cons]

theorem alarms_cons_other {t : TimerEvent} (h : t.isAlarm = false) (timers : List TimerEvent) :
    alarms (t :: timers) = alarms timers := by
  unfold alarms
  rw [List.filter_cons_of_neg (by simp [h])]

namespace TimerWheel

variable {wheel : TimerWheel}

theorem Ordered.alarms (h : wheel.Ordered) : (alarms wheel.timers).Pairwise fun a b => a.2 ≤ b.2 :=
  List.pairwise_map.mpr ((h.sublist List.filter_sublist).imp notAfter_due)

/-- Another timer leaves the alarms as they are. -/
theorem Ordered.schedule_other (h : wheel.Ordered) {kind : TimerKind} (hidle : kind ≠ .idle)
    (hdeadline : kind ≠ .pongDeadline) (channel : ChannelId) (dueMs : UInt64) :
    LatticeGateway.alarms (wheel.schedule kind channel dueMs).2.timers =
      LatticeGateway.alarms wheel.timers := by
  let event : TimerEvent := { id := wheel.nextId, kind, channel, dueMs }
  have hother : [event].filter (·.isAlarm) = [] :=
    List.filter_cons_of_neg (by simp [TimerEvent.isAlarm, event, hidle, hdeadline])
  have hsub : (wheel.timers.filter (·.isAlarm)).Sublist
      ((wheel.timers ++ [event]).insertionSort fun a b => a.notAfter b) :=
    List.sublist_insertionSort (h.sublist List.filter_sublist)
      (List.filter_sublist.trans (List.sublist_append_left _ _))
  have hkept := hsub.filter (·.isAlarm)
  rw [List.filter_filter] at hkept
  simp only [Bool.and_self] at hkept
  have hlen := ((schedule_perm wheel kind channel dueMs).filter (·.isAlarm)).length_eq
  rw [List.filter_append, hother, List.append_nil] at hlen
  exact congrArg (List.map fun t => (t.kind, t.dueMs)) (hkept.eq_of_length hlen.symm).symm

theorem schedule_alarm {kind : TimerKind} (h : kind = .idle ∨ kind = .pongDeadline)
    (channel : ChannelId) (dueMs : UInt64) :
    (LatticeGateway.alarms (wheel.schedule kind channel dueMs).2.timers).Perm
      (LatticeGateway.alarms wheel.timers ++ [(kind, dueMs)]) := by
  have hperm := ((schedule_perm wheel kind channel dueMs).filter (·.isAlarm)).map
    fun t => (t.kind, t.dueMs)
  rw [List.filter_append, List.filter_cons_of_pos (by simpa [TimerEvent.isAlarm] using h),
    List.map_append] at hperm
  exact hperm

theorem schedule_first {kind : TimerKind} (h : kind = .idle ∨ kind = .pongDeadline)
    (hnone : LatticeGateway.alarms wheel.timers = []) (channel : ChannelId) (dueMs : UInt64) :
    LatticeGateway.alarms (wheel.schedule kind channel dueMs).2.timers = [(kind, dueMs)] := by
  have hperm := @schedule_alarm wheel kind h channel dueMs
  rw [hnone] at hperm
  exact List.perm_singleton.mp hperm

/-- The two alarms that a PING sets. -/
theorem schedule_both (hnone : LatticeGateway.alarms wheel.timers = []) (channel channel' : ChannelId)
    {deadlineMs dueMs : UInt64} (hlt : deadlineMs < dueMs) :
    LatticeGateway.alarms ((wheel.schedule .pongDeadline channel deadlineMs).2.schedule .idle channel'
      dueMs).2.timers = [(.pongDeadline, deadlineMs), (.idle, dueMs)] := by
  have hperm := @schedule_alarm (wheel.schedule .pongDeadline channel deadlineMs).2 .idle (.inl rfl)
    channel' dueMs
  rw [schedule_first (.inr rfl) hnone] at hperm
  refine List.Perm.eq_of_pairwise ?_ (schedule_ordered _ _ _ _).alarms ?_ hperm
  · intro a b ha hb hab hba
    have hdue : a.2 = b.2 := UInt64.le_antisymm hab hba
    have ha := hperm.mem_iff.mp ha
    have hne : deadlineMs ≠ dueMs := UInt64.ne_of_lt hlt
    simp only [List.cons_append, List.nil_append, List.mem_cons, List.not_mem_nil, or_false] at ha hb
    rcases ha with rfl | rfl <;> rcases hb with rfl | rfl
    · rfl
    · exact absurd hdue hne
    · exact absurd hdue.symm hne
    · rfl
  · exact List.pairwise_pair.mpr (UInt64.le_of_lt hlt)

theorem mem_schedule {kind : TimerKind} {channel : ChannelId} {dueMs : UInt64} {t : TimerEvent}
    (h : t ∈ (wheel.schedule kind channel dueMs).2.timers) : t ∈ wheel.timers ∨ t.kind = kind := by
  rcases List.mem_append.mp ((schedule_perm wheel kind channel dueMs).mem_iff.mp h) with h | h
  · exact .inl h
  · exact .inr (by rw [List.mem_singleton.mp h])

end TimerWheel

end LatticeGateway

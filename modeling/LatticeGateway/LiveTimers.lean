import LatticeGateway.TimerWheel
import LatticeGateway.StableSort
import LatticeGateway.Runs
import Mathlib.Algebra.Group.Nat.Defs

namespace LatticeGateway

open Runs

inductive TimerCall
  | schedule (kind : TimerKind) (channel : ChannelId) (dueMs : UInt64)
  | cancel (id : UInt64)
  | expire (nowMs : UInt64)
  deriving DecidableEq, Repr

/-- A wheel with its history: the timers it has scheduled, in that order, the ids whose cancellation
has succeeded and the timers it has returned. -/
structure TimerRun where
  wheel : TimerWheel := {}
  scheduled : List TimerEvent := []
  cancelled : List UInt64 := []
  returned : List TimerEvent := []
  deriving DecidableEq, Repr

namespace TimerRun

def step (r : TimerRun) : TimerCall → TimerRun
  | .schedule kind channel dueMs =>
    let (id, wheel) := r.wheel.schedule kind channel dueMs
    { r with wheel, scheduled := r.scheduled ++ [{ id, kind, channel, dueMs }] }
  | .cancel id =>
    match r.wheel.cancel id with
    | (.ok _, wheel) => { r with wheel, cancelled := r.cancelled ++ [id] }
    | (.error _, wheel) => { r with wheel }
  | .expire nowMs =>
    let (expired, wheel) := r.wheel.expire nowMs
    { r with wheel, returned := r.returned ++ expired }

/-- The timers scheduled, not cancelled and not yet returned, in the order of their scheduling. -/
def live (r : TimerRun) : List TimerEvent :=
  r.scheduled.filter fun t => t.id ∉ r.cancelled ∧ t ∉ r.returned

/-- The wheel answers as the set of its live timers would. -/
structure AnswersAsLive (r : TimerRun) : Prop where
  expire : ∀ nowMs, (r.wheel.expire nowMs).1 =
    StableSort.sort (·.dueMs.toNat) (r.live.filter (·.dueMs ≤ nowMs))
  once : r.returned.Nodup
  notCancelled : ∀ t ∈ r.returned, t.id ∉ r.cancelled
  cancelLive : ∀ id ∈ r.live.map (·.id), (r.wheel.cancel id).1 = .ok ()
  cancelOther : ∀ id ∉ r.live.map (·.id), ∃ error, r.wheel.cancel id = (.error error, r.wheel)

/-- The order in which the wheel keeps its timers. -/
def Before (a b : TimerEvent) : Prop :=
  a.dueMs.toNat < b.dueMs.toNat ∨ a.dueMs.toNat = b.dueMs.toNat ∧ a.id.toNat < b.id.toNat

/-- The wheel holds the live timers in order, and the ids of the scheduled ones count up from 1. -/
structure Tracks (r : TimerRun) : Prop where
  ids : r.scheduled.map (·.id.toNat) = List.range' 1 r.scheduled.length
  next : r.wheel.nextId = UInt64.ofNat (r.scheduled.length + 1)
  perm : r.wheel.timers.Perm r.live
  sorted : r.wheel.timers.Pairwise Before
  once : r.returned.Nodup
  returned : ∀ t ∈ r.returned, t ∈ r.scheduled ∧ t.id ∉ r.cancelled
  cancelled : ∀ id ∈ r.cancelled, id ∈ r.scheduled.map (·.id)

theorem before_of_notAfter {a b : TimerEvent} (h : a.notAfter b = true) (hne : a.id.toNat ≠ b.id.toNat) :
    Before a b := by
  unfold TimerEvent.notAfter at h
  simp only [Bool.or_eq_true, Bool.and_eq_true, decide_eq_true_eq, beq_iff_eq] at h
  rcases h with h | ⟨h, hid⟩
  · exact .inl (UInt64.lt_iff_toNat_lt.mp h)
  · have hle := UInt64.le_iff_toNat_le.mp hid
    exact .inr ⟨congrArg UInt64.toNat h, by omega⟩

instance notAfter_total : Std.Total fun a b : TimerEvent => a.notAfter b = true := by
  constructor
  intro a b
  simp only [TimerEvent.notAfter, Bool.or_eq_true, Bool.and_eq_true, decide_eq_true_eq, beq_iff_eq,
    UInt64.lt_iff_toNat_lt, UInt64.le_iff_toNat_le, ← UInt64.toNat_inj]
  omega

instance notAfter_trans : IsTrans TimerEvent fun a b => a.notAfter b = true := by
  constructor
  intro a b c
  simp only [TimerEvent.notAfter, Bool.or_eq_true, Bool.and_eq_true, decide_eq_true_eq, beq_iff_eq,
    UInt64.lt_iff_toNat_lt, UInt64.le_iff_toNat_le, ← UInt64.toNat_inj]
  omega

section

variable {r : TimerRun}

theorem mem_live {t : TimerEvent} :
    t ∈ r.live ↔ t ∈ r.scheduled ∧ t.id ∉ r.cancelled ∧ t ∉ r.returned := by
  unfold live
  rw [List.mem_filter, decide_eq_true_eq]

theorem Tracks.pairwise (h : r.Tracks) :
    r.scheduled.Pairwise fun a b => a.id.toNat < b.id.toNat := by
  have hids : (r.scheduled.map (·.id.toNat)).Pairwise (· < ·) := by
    rw [h.ids]
    exact List.pairwise_lt_range'
  exact List.pairwise_map.mp hids

theorem Tracks.id_inj (h : r.Tracks) {a b : TimerEvent} (ha : a ∈ r.scheduled) (hb : b ∈ r.scheduled)
    (hid : a.id = b.id) : a = b := by
  have hnodup : (r.scheduled.map (·.id.toNat)).Nodup := by
    rw [h.ids]
    exact List.nodup_range'
  exact List.inj_on_of_nodup_map hnodup ha hb (congrArg UInt64.toNat hid)

theorem Tracks.id_le (h : r.Tracks) {t : TimerEvent} (ht : t ∈ r.scheduled) :
    t.id.toNat ≤ r.scheduled.length := by
  have hmem : t.id.toNat ∈ List.range' 1 r.scheduled.length := by
    rw [← h.ids]
    exact List.mem_map_of_mem ht
  rw [List.mem_range'_1] at hmem
  omega

theorem Tracks.mem_wheel (h : r.Tracks) {t : TimerEvent} : t ∈ r.wheel.timers ↔ t ∈ r.live := h.perm.mem_iff

/-- What is due stands at the front. -/
theorem Tracks.expire (h : r.Tracks) (nowMs : UInt64) :
    r.wheel.expire nowMs = (r.wheel.timers.filter (·.dueMs ≤ nowMs),
      { r.wheel with timers := r.wheel.timers.filter fun t => ! decide (t.dueMs ≤ nowMs) }) := by
  have hfront : r.wheel.timers.Pairwise fun a b =>
      decide (b.dueMs ≤ nowMs) = true → decide (a.dueMs ≤ nowMs) = true := by
    refine h.sorted.imp ?_
    intro a b hab hb
    rw [decide_eq_true_eq, UInt64.le_iff_toNat_le] at hb ⊢
    unfold Before at hab
    omega
  obtain ⟨htake, hdrop⟩ := StableSort.takeWhile_dropWhile_eq_filter hfront
  unfold TimerWheel.expire
  rw [htake, hdrop]

theorem Tracks.cancel_ok (h : r.Tracks) {id : UInt64} (hid : id ∈ r.live.map (·.id)) :
    r.wheel.cancel id = (.ok (), { r.wheel with timers := r.wheel.timers.filter (·.id ≠ id) }) := by
  obtain ⟨t, ht, hid⟩ := List.mem_map.mp hid
  have hlt : (r.wheel.timers.filter (·.id ≠ id)).length < r.wheel.timers.length :=
    List.length_filter_lt_length_iff_exists.mpr ⟨t, h.mem_wheel.mpr ht, by simp [hid]⟩
  unfold TimerWheel.cancel
  dsimp only
  rw [if_neg (by omega)]

theorem Tracks.cancel_error (h : r.Tracks) {id : UInt64} (hid : id ∉ r.live.map (·.id)) :
    ∃ error, r.wheel.cancel id = (.error error, r.wheel) := by
  have hall : r.wheel.timers.filter (·.id ≠ id) = r.wheel.timers := by
    refine List.filter_eq_self.mpr fun t ht => decide_eq_true ?_
    rintro rfl
    exact hid (List.mem_map_of_mem (h.mem_wheel.mp ht))
  refine ⟨makeError .internal .illegalState .none "timer id is not live", ?_⟩
  unfold TimerWheel.cancel
  dsimp only
  rw [hall, if_pos rfl]

theorem Tracks.answers (h : r.Tracks) : r.AnswersAsLive where
  expire nowMs := by
    rw [h.expire]
    refine StableSort.eq_sort (R := fun a b => a.id.toNat < b.id.toNat) (fun a b hab => by omega)
      ((h.pairwise.sublist List.filter_sublist).sublist List.filter_sublist) (h.perm.filter _)
      (h.sorted.sublist List.filter_sublist)
  once := h.once
  notCancelled t ht := (h.returned t ht).2
  cancelLive id hid := by rw [h.cancel_ok hid]
  cancelOther _ hid := h.cancel_error hid

theorem Tracks.nextId_toNat (h : r.Tracks) (hroom : r.scheduled.length + 1 < 2 ^ 64) :
    r.wheel.nextId.toNat = r.scheduled.length + 1 := by
  rw [h.next, UInt64.toNat_ofNat_of_lt' hroom]

/-- The next timer is not among those that have been scheduled. -/
theorem Tracks.id_lt (h : r.Tracks) (hroom : r.scheduled.length + 1 < 2 ^ 64) :
    ∀ t ∈ r.scheduled, t.id.toNat < r.wheel.nextId.toNat := by
  intro t ht
  have hle := h.id_le ht
  have hid := h.nextId_toNat hroom
  omega

theorem Tracks.live_schedule (h : r.Tracks) (hroom : r.scheduled.length + 1 < 2 ^ 64) (kind : TimerKind)
    (channel : ChannelId) (dueMs : UInt64) : (r.step (.schedule kind channel dueMs)).live =
      r.live ++ [{ id := r.wheel.nextId, kind, channel, dueMs }] := by
  let event : TimerEvent := { id := r.wheel.nextId, kind, channel, dueMs }
  have hnew : ∀ t ∈ r.scheduled, t.id.toNat < event.id.toNat := h.id_lt hroom
  have hkept : event.id ∉ r.cancelled ∧ event ∉ r.returned := by
    constructor
    · intro hmem
      obtain ⟨t, ht, htid⟩ := List.mem_map.mp (h.cancelled _ hmem)
      have hlt := hnew t ht
      rw [htid] at hlt
      omega
    · intro hmem
      exact absurd (hnew event (h.returned event hmem).1) (by omega)
  change (r.scheduled ++ [event]).filter (fun t => t.id ∉ r.cancelled ∧ t ∉ r.returned) = _
  have hlast : [event].filter (fun t => t.id ∉ r.cancelled ∧ t ∉ r.returned) = [event] :=
    List.filter_cons_of_pos (decide_eq_true hkept)
  rw [List.filter_append, hlast]
  rfl

theorem Tracks.schedule (h : r.Tracks) (hroom : r.scheduled.length + 1 < 2 ^ 64) (kind : TimerKind)
    (channel : ChannelId) (dueMs : UInt64) : (r.step (.schedule kind channel dueMs)).Tracks := by
  let event : TimerEvent := { id := r.wheel.nextId, kind, channel, dueMs }
  have hid : event.id.toNat = r.scheduled.length + 1 := h.nextId_toNat hroom
  have hnew : ∀ t ∈ r.scheduled, t.id.toNat < event.id.toNat := h.id_lt hroom
  have hperm : (r.step (.schedule kind channel dueMs)).wheel.timers.Perm (r.wheel.timers ++ [event]) :=
    List.perm_insertionSort _ _
  refine
    { ids := ?_, next := ?_, perm := ?_, sorted := ?_, once := h.once, returned := ?_, cancelled := ?_ }
  · change (r.scheduled ++ [event]).map (·.id.toNat) = List.range' 1 (r.scheduled ++ [event]).length
    rw [List.map_append, h.ids, List.map_singleton, hid, List.length_append, List.length_singleton,
      List.range'_1_concat, Nat.add_comm 1]
  · change r.wheel.nextId + 1 = UInt64.ofNat ((r.scheduled ++ [event]).length + 1)
    rw [h.next, List.length_append, List.length_singleton, UInt64.ofNat_add (r.scheduled.length + 1) 1]
    rfl
  · rw [h.live_schedule hroom]
    exact hperm.trans (h.perm.append_right _)
  · have hsorted : (r.step (.schedule kind channel dueMs)).wheel.timers.Pairwise
        fun a b => a.notAfter b = true := List.pairwise_insertionSort _ _
    have hne : (r.step (.schedule kind channel dueMs)).wheel.timers.Pairwise
        fun a b => a.id.toNat ≠ b.id.toNat := by
      refine hperm.symm.pairwise ?_ fun hab => hab.symm
      refine List.pairwise_append.mpr ⟨?_, List.pairwise_singleton _ _, ?_⟩
      · refine h.sorted.imp_of_mem ?_
        intro a b ha hb hab heq
        have heq' := h.id_inj (mem_live.mp (h.mem_wheel.mp ha)).1 (mem_live.mp (h.mem_wheel.mp hb)).1
          (UInt64.toNat_inj.mp heq)
        subst heq'
        unfold Before at hab
        omega
      · intro a ha b hb
        rw [List.mem_singleton.mp hb]
        have hlt := hnew a (mem_live.mp (h.mem_wheel.mp ha)).1
        omega
    exact (hsorted.and hne).imp fun hab => before_of_notAfter hab.1 hab.2
  · intro t ht
    exact ⟨List.mem_append_left _ (h.returned t ht).1, (h.returned t ht).2⟩
  · intro id hid
    change id ∈ (r.scheduled ++ [event]).map (·.id)
    rw [List.map_append]
    exact List.mem_append_left _ (h.cancelled id hid)

theorem Tracks.cancel (h : r.Tracks) (id : UInt64) : (r.step (.cancel id)).Tracks := by
  by_cases hid : id ∈ r.live.map (·.id)
  · have hstep : r.step (.cancel id) = { r with
        wheel := { r.wheel with timers := r.wheel.timers.filter (·.id ≠ id) }
        cancelled := r.cancelled ++ [id] } := by
      simp only [step, h.cancel_ok hid]
    obtain ⟨t, ht, rfl⟩ := List.mem_map.mp hid
    obtain ⟨hscheduled, -, hreturned⟩ := mem_live.mp ht
    rw [hstep]
    refine { h with perm := ?_, sorted := ?_, returned := ?_, cancelled := ?_ }
    · have hlive : live { r with
          wheel := { r.wheel with timers := r.wheel.timers.filter (·.id ≠ t.id) }
          cancelled := r.cancelled ++ [t.id] } = r.live.filter (·.id ≠ t.id) := by
        unfold live
        rw [List.filter_filter]
        refine List.filter_congr fun s _ => ?_
        simp only [List.mem_append, List.mem_singleton, ne_eq, ← Bool.decide_and, decide_eq_decide]
        tauto
      rw [hlive]
      exact h.perm.filter _
    · exact h.sorted.sublist List.filter_sublist
    · intro s hs
      obtain ⟨hmem, hkept⟩ := h.returned s hs
      refine ⟨hmem, fun hin => ?_⟩
      rcases List.mem_append.mp hin with hin | hin
      · exact hkept hin
      · -- the cancelled timer is live, so it is not the returned one
        rw [h.id_inj hmem hscheduled (List.mem_singleton.mp hin)] at hs
        exact hreturned hs
    · intro id hin
      rcases List.mem_append.mp hin with hin | hin
      · exact h.cancelled id hin
      · rw [List.mem_singleton.mp hin]
        exact List.mem_map_of_mem hscheduled
  · obtain ⟨error, herror⟩ := h.cancel_error hid
    have hstep : r.step (.cancel id) = r := by simp only [step, herror]
    rw [hstep]
    exact h

theorem Tracks.expired (h : r.Tracks) (nowMs : UInt64) : (r.step (.expire nowMs)).Tracks := by
  let due := r.wheel.timers.filter (·.dueMs ≤ nowMs)
  have hdue : ∀ {t}, t ∈ due → t ∈ r.live := fun ht => h.mem_wheel.mp (List.mem_of_mem_filter ht)
  have hstep : r.step (.expire nowMs) = { r with
      wheel := { r.wheel with timers := r.wheel.timers.filter fun t => ! decide (t.dueMs ≤ nowMs) }
      returned := r.returned ++ due } := by
    simp only [step, h.expire]
    rfl
  rw [hstep]
  refine { h with perm := ?_, sorted := ?_, once := ?_, returned := ?_ }
  · have hlive : live { r with
        wheel := { r.wheel with timers := r.wheel.timers.filter fun t => ! decide (t.dueMs ≤ nowMs) }
        returned := r.returned ++ due } = r.live.filter fun t => ! decide (t.dueMs ≤ nowMs) := by
      unfold live
      rw [List.filter_filter]
      refine List.filter_congr fun t ht => ?_
      have hmem : t ∈ due ↔ t ∈ r.live ∧ t.dueMs ≤ nowMs := by
        rw [List.mem_filter, decide_eq_true_eq, h.mem_wheel]
      rw [mem_live] at hmem
      simp only [List.mem_append, ← decide_not, ← Bool.decide_and, decide_eq_decide]
      tauto
    rw [hlive]
    exact h.perm.filter _
  · exact h.sorted.sublist List.filter_sublist
  · refine List.nodup_append.mpr ⟨h.once, ?_, ?_⟩
    · refine (h.sorted.sublist List.filter_sublist).imp ?_
      rintro a b hab rfl
      unfold Before at hab
      omega
    · rintro a ha b hb rfl
      exact (mem_live.mp (hdue hb)).2.2 ha
  · intro t ht
    rcases List.mem_append.mp ht with ht | ht
    · exact h.returned t ht
    · exact ⟨(mem_live.mp (hdue ht)).1, (mem_live.mp (hdue ht)).2.1⟩

end

def schedules : TimerCall → Bool
  | .schedule .. => true
  | _ => false

theorem scheduled_step (r : TimerRun) (call : TimerCall) :
    (r.step call).scheduled.length = r.scheduled.length + if schedules call then 1 else 0 := by
  cases call with
  | schedule kind channel dueMs => exact List.length_append
  | cancel id =>
    unfold step
    dsimp only
    split <;> rfl
  | expire nowMs => rfl

theorem Tracks.run {r : TimerRun} (h : r.Tracks) {calls : List TimerCall}
    (hroom : r.scheduled.length + calls.countP schedules < 2 ^ 64) : (run step r calls).Tracks := by
  induction calls generalizing r with
  | nil => exact h
  | cons call calls ih =>
    rw [List.countP_cons] at hroom
    have hlen := scheduled_step r call
    refine ih ?_ (by omega)
    cases call with
    | schedule kind channel dueMs =>
      have hone : (if schedules (.schedule kind channel dueMs) then 1 else 0) = 1 := rfl
      exact h.schedule (by omega) kind channel dueMs
    | cancel id => exact h.cancel id
    | expire nowMs => exact h.expired nowMs

/-- The wheel is the ordered set of its live timers, as long as its ids do not wrap. -/
theorem wheel_is_live_set {calls : List TimerCall} (h : calls.countP schedules < 2 ^ 64) :
    (run step {} calls).AnswersAsLive := by
  have hempty : Tracks {} := ⟨rfl, rfl, .refl _, .nil, .nil, by simp, by simp⟩
  exact (hempty.run (by rw [List.length_nil]; omega)).answers

/-- Two timers of one due time, the third cancelled, and time that goes back. -/
theorem wheel_is_live_set_five :
    (run step {} [.schedule .idle {} 7, .schedule .retry {} 7, .schedule .drain {} 3, .expire 5,
      .cancel 3, .expire 2]).AnswersAsLive :=
  wheel_is_live_set (by decide)

/-- A timer is scheduled and returned at once. -/
def turn : List TimerCall := [.schedule .idle {} 0, .expire 0]

theorem run_turns (n : Nat) : ∃ past, (∀ t ∈ past, t.dueMs = 0) ∧
    run step {} (List.replicate n turn).flatten =
      { wheel := { nextId := UInt64.ofNat (n + 1) }, scheduled := past, returned := past } := by
  induction n with
  | zero => exact ⟨[], by simp, rfl⟩
  | succ n ih =>
    obtain ⟨past, hdue, hrun⟩ := ih
    let event : TimerEvent := { id := UInt64.ofNat (n + 1), kind := .idle, channel := {}, dueMs := 0 }
    refine ⟨past ++ [event], ?_, ?_⟩
    · intro t ht
      rcases List.mem_append.mp ht with ht | ht
      · exact hdue t ht
      · rw [List.mem_singleton.mp ht]
    · rw [List.replicate_succ', List.flatten_append, run_append, hrun, UInt64.ofNat_add (n + 1) 1]
      rfl

/-- Enough turns for the next two ids to be the last one and 0, then two timers of one due time. -/
def wrappingCalls : List TimerCall :=
  (List.replicate (2 ^ 64 - 2) turn).flatten ++ [.schedule .idle {} 5, .schedule .idle {} 5]

def lastTimer : TimerEvent := { id := 0xFFFFFFFFFFFFFFFF, dueMs := 5 }

def wrappedTimer : TimerEvent := { id := 0, dueMs := 5 }

/-- The timer with id 0 comes before the one scheduled earlier. -/
theorem wheel_wraps : ¬ (run step {} wrappingCalls).AnswersAsLive := by
  obtain ⟨past, hdue, hrun⟩ := run_turns (2 ^ 64 - 2)
  have hend : run step {} wrappingCalls =
      { wheel := { nextId := 1, timers := [wrappedTimer, lastTimer] }
        scheduled := past ++ [lastTimer] ++ [wrappedTimer], returned := past } := by
    have hid : UInt64.ofNat (2 ^ 64 - 2 + 1) = 0xFFFFFFFFFFFFFFFF := by decide
    have hlast : TimerWheel.schedule { nextId := 0xFFFFFFFFFFFFFFFF } .idle {} 5 =
        (0xFFFFFFFFFFFFFFFF, { nextId := 0, timers := [lastTimer] }) := by decide
    have hwrapped : TimerWheel.schedule { nextId := 0, timers := [lastTimer] } .idle {} 5 =
        (0, { nextId := 1, timers := [wrappedTimer, lastTimer] }) := by decide
    unfold wrappingCalls
    rw [run_append, hrun, hid]
    simp only [run, List.foldl_cons, List.foldl_nil, step, hlast, hwrapped]
    rfl
  have hnew : ∀ t, t.dueMs = 5 → t ∉ past := by
    intro t ht hmem
    rw [hdue t hmem] at ht
    exact absurd ht (by decide)
  have hlive : (run step {} wrappingCalls).live = [lastTimer, wrappedTimer] := by
    rw [hend]
    unfold live
    have hpast : past.filter (fun t => t.id ∉ ([] : List UInt64) ∧ t ∉ past) = [] := by
      refine List.filter_eq_nil_iff.mpr fun t ht => ?_
      simp [ht]
    have hlast := hnew lastTimer rfl
    have hwrapped := hnew wrappedTimer rfl
    rw [List.append_assoc, List.filter_append, hpast]
    simp [hlast, hwrapped]
  intro h
  have hexpire := h.expire 5
  have htimers : (run step {} wrappingCalls).wheel.timers = [wrappedTimer, lastTimer] := by rw [hend]
  unfold TimerWheel.expire at hexpire
  rw [hlive, htimers] at hexpire
  exact absurd hexpire (by decide)

end TimerRun

end LatticeGateway

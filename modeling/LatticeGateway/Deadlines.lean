import LatticeGateway.ClockWinding

namespace LatticeGateway

open Runs

namespace ConnectionEngine

section

variable {e : ConnectionEngine} {s : ConnectionState} {kind : TimerKind} {limit : UInt64}

theorem TimerKeeps.never : TimerKeeps fun _ => False := ⟨fun _ => id, fun h => h.elim⟩

theorem TimerKeeps.state (s : ConnectionState) : TimerKeeps fun e => e.state = s := by
  refine ⟨fun _ h => h, fun {e timer} h hretry _ => ?_⟩
  rw [← h]
  unfold handleTimer
  cases hkind : timer.kind with
  | retry => exact absurd hkind hretry
  | idle =>
    have hsent := emitFrame_sent { e with pendingPongToken := some (idleToken e.nowMs) } .ping {}
      (u64Bytes (idleToken e.nowMs)) []
    unfold idleToken at hsent
    unfold ping
    dsimp only
    split
    all_goals
      next h =>
        rw [h] at hsent
        exact .inr hsent.state
  | handshake | drain | pongDeadline | fragmentGap =>
    dsimp only
    split
    all_goals first
      | exact .inl rfl
      | exact .inr rfl

/-- The timer of a deadline closes the engine that is still in the state. -/
theorem handleTimer_deadline {timer : TimerEvent} (hs : Deadline s kind limit) (hstate : e.state = s)
    (hkind : timer.kind = kind) : (e.handleTimer timer).2.state = .closed := by
  unfold handleTimer
  rw [hkind]
  cases hs with
  | handshake =>
    dsimp only
    rw [if_pos hstate]
  | drain =>
    dsimp only
    rw [if_pos hstate]
    rfl

/-- The time does not go back, and in draining every idle PING that comes due goes out. -/
def Punctual (e : ConnectionEngine) : Call → Prop
  | .advanceTime nowMs =>
    e.nowMs ≤ nowMs ∧ (e.state = .draining → PingsOut (e.timers.expire nowMs).1 (e.expiring nowMs))
  | _ => True

instance decidablePunctual (e : ConnectionEngine) : (c : Call) → Decidable (e.Punctual c)
  | .advanceTime nowMs => inferInstanceAs (Decidable (e.nowMs ≤ nowMs ∧
      (e.state = .draining → PingsOut (e.timers.expire nowMs).1 (e.expiring nowMs))))
  | .start | .receive .. | .openChannel _ | .send .. | .grantCredit .. | .acknowledge _ | .ping _
  | .resume _ | .completePlugin _ | .flushOutbound _ | .loadReplaySnapshot _ | .halfClose ..
  | .reset _ | .goaway | .submitTask .. | .cancelTask _ | .drainOne | .drainAll => isTrue trivial

theorem mem_of_met {timers : List TimerEvent} {p : ConnectionEngine × TimerEvent}
    (h : p ∈ timersMet timers e) : p.2 ∈ timers := by
  induction timers generalizing e with
  | nil => exact absurd h List.not_mem_nil
  | cons timer timers ih =>
    unfold timersMet at h
    dsimp only at h
    by_cases hclosed : (e.record .timerExpired timer.channel).state = .closed
    · rw [if_pos hclosed] at h
      exact List.mem_cons_of_mem _ (ih h)
    · rw [if_neg hclosed] at h
      rcases List.mem_cons.mp h with rfl | h
      · exact List.mem_cons_self
      · rcases hhandled : (e.record .timerExpired timer.channel).handleTimer timer with ⟨_ | _, e'⟩
        all_goals rw [hhandled] at h
        · exact absurd h List.not_mem_nil
        · exact List.mem_cons_of_mem _ (ih h)

theorem Regulated.pings_out (h : Regulated e) (hs : Deadline e.state kind limit) {nowMs : UInt64}
    (hpunctual : e.Punctual (.advanceTime nowMs)) :
    PingsOut (e.timers.expire nowMs).1 (e.expiring nowMs) := by
  by_cases hdraining : e.state = .draining
  · exact hpunctual.2 hdraining
  · -- before the negotiation is over there is no idle timer
    have hearly : e.Early := by
      unfold Early
      generalize e.state = s at *
      cases hs with
      | handshake => exact .inr rfl
      | drain => exact absurd rfl hdraining
    intro p hp hidle
    exact absurd hidle (h.idle hearly p.2 (mem_expired (mem_of_met hp)))

/-- With time, an engine keeps its state only while the deadline of that state is still to come. -/
theorem Regulated.advanceTime_deadline (h : Regulated e) (hs : Deadline e.state kind limit) {nowMs : UInt64}
    (hpunctual : e.Punctual (.advanceTime nowMs)) {time : Nat} (hdue : DueBy kind time e.timers.timers) :
    (e.advanceTime nowMs).2.state = .closed ∨ (e.advanceTime nowMs).2.state = e.state ∧
      DueBy kind time (e.advanceTime nowMs).2.timers.timers ∧ nowMs.toNat < time := by
  have hreaches := h.advanceTime_reaches (.state e.state) .never
    (fun hstate hkind _ => .inl (handleTimer_deadline hs hstate hkind)) rfl (h.pings_out hs hpunctual) hdue
  simpa only [false_or] using hreaches

/-- In a state with a deadline its timer is due so long from now or before. -/
structure OnTime (e : ConnectionEngine) : Prop extends Regulated e where
  due : ∀ {kind limit}, Deadline e.state kind limit →
    DueBy kind (e.nowMs.toNat + limit.toNat) e.timers.timers

theorem make_onTime (policy : LocalPolicy) (registry : PluginRegistry)
    (executor : Option (DeterministicExecutor EngineTask)) : OnTime (make policy registry executor) :=
  ⟨make_regulated policy registry executor, by rintro _ _ ⟨⟩⟩

theorem OnTime.call (h : OnTime e) {c : Call} (hpunctual : e.Punctual c) : OnTime (e.call c) := by
  by_cases hadvance : ∃ nowMs, c = .advanceTime nowMs
  · obtain ⟨nowMs, rfl⟩ := hadvance
    obtain ⟨hwound, hregulated⟩ := h.toRegulated.advanceTime nowMs
    refine ⟨hregulated, fun {kind limit} hs => ?_⟩
    change Deadline (e.advanceTime nowMs).2.state kind limit at hs
    change DueBy kind ((e.advanceTime nowMs).2.nowMs.toNat + limit.toNat) _
    rw [hwound.nowMs]
    rcases hwound.begun hs rfl with hsame | hdue
    · change e.state = (e.advanceTime nowMs).2.state at hsame
      have hs' : Deadline e.state kind limit := hsame ▸ hs
      rcases h.advanceTime_deadline hs' hpunctual (h.due hs') with hclosed | ⟨-, hdue, -⟩
      · rw [hclosed] at hs
        cases hs
      · have hle := UInt64.le_iff_toNat_le.mp hpunctual.1
        exact hdue.mono (Nat.add_le_add_right hle _) (List.Subset.refl _)
    · exact hdue
  · have hwound := call_wound e (not_exists.mp hadvance)
    refine ⟨hwound.regulated h.toRegulated, fun {kind limit} hs => ?_⟩
    rw [hwound.nowMs]
    rcases hwound.begun hs rfl with hsame | hdue
    · rw [← hsame] at hs
      exact (h.due hs).mono (Nat.le_refl _) hwound.kept
    · exact hdue

/-- As long as the engine stays in a state, its deadline stays in the wheel. -/
theorem Regulated.stays {time : Nat} {stay : List Call} (hs : Deadline s kind limit) (h : Regulated e)
    (hstate : e.state = s) (hdue : DueBy kind time e.timers.timers)
    (hpunctual : Along ConnectionEngine.call Punctual e stay)
    (hstay : Along ConnectionEngine.call (fun e c => (e.call c).state = s) e stay) :
    Regulated (run ConnectionEngine.call e stay) ∧ (run ConnectionEngine.call e stay).state = s ∧
      DueBy kind time (run ConnectionEngine.call e stay).timers.timers := by
  induction stay generalizing e with
  | nil => exact ⟨h, hstate, hdue⟩
  | cons c stay ih =>
    obtain ⟨hfirst, hrest⟩ := hstay
    by_cases hadvance : ∃ nowMs, c = .advanceTime nowMs
    · obtain ⟨nowMs, rfl⟩ := hadvance
      change (e.advanceTime nowMs).2.state = s at hfirst
      subst hstate
      rcases h.advanceTime_deadline hs hpunctual.1 hdue with hclosed | ⟨-, hkept, -⟩
      · rw [← hfirst, hclosed] at hs
        cases hs
      · exact ih (h.advanceTime nowMs).2 hfirst hkept hpunctual.2 hrest
    · have hwound := call_wound e (not_exists.mp hadvance)
      exact ih (hwound.regulated h) hfirst (hdue.mono (Nat.le_refl _) hwound.kept) hpunctual.2 hrest

end

/-- No handshake and no draining outlasts its time: an engine that is in the state after `before`, and stays
in it, is closed by an `advance_time` to a time past that of then by the limit. -/
theorem deadlines_met (policy : LocalPolicy) (registry : PluginRegistry)
    (executor : Option (DeterministicExecutor EngineTask)) {s : ConnectionState} {kind : TimerKind}
    {limit nowMs : UInt64} {before stay : List Call} (hs : Deadline s kind limit)
    (hpunctual : Along call Punctual (make policy registry executor)
      (before ++ (stay ++ [.advanceTime nowMs])))
    (hbegun : (run call (make policy registry executor) before).state = s)
    (hstay : Along call (fun e c => (e.call c).state = s)
      (run call (make policy registry executor) before) stay)
    (hlate : (run call (make policy registry executor) before).nowMs.toNat + limit.toNat ≤ nowMs.toNat) :
    (run call (make policy registry executor) (before ++ (stay ++ [.advanceTime nowMs]))).state =
      .closed := by
  obtain ⟨hbefore, hpunctual⟩ := along_append.mp hpunctual
  obtain ⟨hduring, hlast, -⟩ := along_append.mp hpunctual
  have honTime : OnTime (run call (make policy registry executor) before) :=
    run_invariant (fun _ _ h hc => h.call hc) (make_onTime policy registry executor) hbefore
  rw [run_append, run_append]
  generalize run call (make policy registry executor) before = e at *
  obtain ⟨hregulated, hstate, hdue⟩ := honTime.toRegulated.stays hs hbegun (honTime.due (hbegun ▸ hs))
    hduring hstay
  rw [← hstate] at hs
  rcases hregulated.advanceTime_deadline hs hlast hdue with hclosed | ⟨-, -, hearly⟩
  · exact hclosed
  · omega

/-- While the engine drains, an idle PING goes out. -/
theorem deadlines_met_drained :
    (run call (make {} echoRegistry none) ((negotiation {} ++ [.advanceTime 29500, .goaway]) ++
      ([.receive (pongBytes 1) false, .advanceTime 30000] ++ [.advanceTime 30500]))).state = .closed :=
  deadlines_met {} echoRegistry none .drain (by decide +kernel) (by decide +kernel) (by decide +kernel)
    (by decide +kernel)

end ConnectionEngine

end LatticeGateway

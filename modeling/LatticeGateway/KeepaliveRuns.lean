import LatticeGateway.Keepalive

namespace LatticeGateway

open Runs

namespace ConnectionEngine

/-- The token of an idle PING sent at that time. -/
def idleToken (nowMs : UInt64) : UInt64 := if nowMs = 0 then 1 else nowMs

/-- `advance_time` between its `expire` and its loop. -/
def expiring (e : ConnectionEngine) (nowMs : UInt64) : ConnectionEngine :=
  { e with nowMs, timers := (e.timers.expire nowMs).2 }

theorem advanceTime_eq (e : ConnectionEngine) (nowMs : UInt64) :
    e.advanceTime nowMs = advanceLoop (e.timers.expire nowMs).1 (e.expiring nowMs) [] := rfl

/-- The two timers that an idle PING sets are due without a wrap of the clock. -/
def ClockFits (nowMs : UInt64) : Prop := nowMs.toNat + kIdlePingMs.toNat < 2 ^ 64

theorem ClockFits.deadline_first {nowMs : UInt64} (h : ClockFits nowMs) :
    nowMs + kPongTimeoutMs < nowMs + kIdlePingMs := by
  have hdeadline : kPongTimeoutMs.toNat = 5000 := rfl
  have hidle : kIdlePingMs.toNat = 30000 := rfl
  unfold ClockFits at h
  rw [UInt64.lt_iff_toNat_lt, UInt64.toNat_add, UInt64.toNat_add, hdeadline, hidle]
  omega

section

variable {e e' : ConnectionEngine} {timers : List TimerEvent} {timer : TimerEvent}

/-- The timers that are left when an idle PING has gone out set off no alarm. -/
theorem Tended.pinged (h : Tended (timer :: timers) e) (hopen : e.state ≠ .closed)
    (hkind : timer.kind = .idle) (hfits : ClockFits e.nowMs) {out : List Bytes}
    (hok : e.handleTimer timer = (.ok out, e')) :
    alarms timers = [] ∧ Waiting e.nowMs (some (idleToken e.nowMs)) e' ∧ e'.nowMs = e.nowMs := by
  have halarm : timer.isAlarm = true := by simp [TimerEvent.isAlarm, hkind]
  have hhead : alarms (timer :: timers ++ e.timers.timers) =
      (.idle, timer.dueMs) :: alarms (timers ++ e.timers.timers) := by
    rw [List.cons_append, alarms_cons_alarm halarm, hkind]
  have hnone : alarms (timers ++ e.timers.timers) = [] := (hhead ▸ h.shape).of_idle
  obtain ⟨htimers, hwheel⟩ := List.append_eq_nil_iff.mp (alarms_append _ _ ▸ hnone)
  have hactive : e.state = .active := by
    have hearly : ¬ e.Early := fun hearly => by
      rw [h.early hearly] at hhead
      cases hhead
    have hdraining := h.draining
    unfold Early at hearly
    cases hstate : e.state <;> simp_all
  have hping := emitFrame_sent { e with pendingPongToken := some (idleToken e.nowMs) } .ping {}
    (u64Bytes (idleToken e.nowMs)) []
  unfold handleTimer ping at hok
  rw [hkind] at hok
  dsimp only at hok
  split at hok
  next => cases hok
  next bytes sent hsent =>
    cases hok
    have hsame := hping.unclocked
    have hclock := hping.nowMs
    unfold idleToken at hsame hclock
    rw [hsent] at hsame hclock
    dsimp only at hsame hclock
    refine ⟨htimers, ⟨?_, ?_, hsame.state.trans hactive, ?_, hsame.pendingPongToken⟩, hclock⟩
    · exact TimerWheel.schedule_ordered _ _ _ _
    · intro t ht
      rcases TimerWheel.mem_schedule ht with ht | ht
      · rcases TimerWheel.mem_schedule ht with ht | ht
        · rw [hsame.timers] at ht
          exact h.kinds t (List.mem_append_right _ ht)
        · rw [ht]
          decide
      · rw [ht]
        decide
    · have hwheel' : alarms sent.timers.timers = [] := hsame.timers ▸ hwheel
      have hboth := TimerWheel.schedule_both hwheel' {} {} hfits.deadline_first
      rw [← hclock] at hboth ⊢
      exact hboth

theorem Waiting.tended {nowMs : UInt64} {pending : Option UInt64} (h : Waiting nowMs pending e)
    (hkinds : ∀ t ∈ timers, t.kind ≠ .retry ∧ t.kind ≠ .drain) (hnone : alarms timers = []) :
    Tended timers e where
  ordered := h.ordered
  kinds t ht := (List.mem_append.mp ht).elim (hkinds t) (h.kinds t)
  early hearly := by
    unfold Early at hearly
    rw [h.active] at hearly
    rcases hearly with hearly | hearly <;> cases hearly
  draining := by
    rw [h.active]
    decide
  shape := by
    rw [alarms_append, hnone, List.nil_append, h.wheel]
    exact .both _ _

/-- An alarm either ends the call by an error or leaves the timers behind it to be handled. -/
theorem Tended.handleTimer (h : Tended (timer :: timers) e) (hopen : e.state ≠ .closed)
    (hfits : timer.kind = .idle → ClockFits e.nowMs) :
    (∃ error e', e.handleTimer timer = (.error error, e') ∧ (e'.state = .closed ∨ Tended [] e')) ∨
      ∃ out e', e.handleTimer timer = (.ok out, e') ∧ Tended timers e' ∧ e'.state ≠ .closed ∧
        e'.nowMs = e.nowMs := by
  have hkinds := h.kinds timer (by simp)
  have hsame : ∃ out e', (.ok [], e) = ((.ok out, e') : Except Error (List Bytes) × ConnectionEngine) ∧
      Tended timers e' ∧ e'.state ≠ .closed ∧ e'.nowMs = e.nowMs :=
    ⟨[], e, rfl, h.tail, hopen, rfl⟩
  cases hkind : timer.kind with
  | retry => exact absurd hkind hkinds.1
  | drain => exact absurd hkind hkinds.2
  | handshake =>
    unfold ConnectionEngine.handleTimer
    rw [hkind]
    dsimp only
    split
    next => exact .inl ⟨_, _, rfl, .inl rfl⟩
    next => exact .inr hsame
  | pongDeadline =>
    unfold ConnectionEngine.handleTimer
    rw [hkind]
    dsimp only
    split
    next => exact .inl ⟨_, _, rfl, .inl rfl⟩
    next => exact .inr hsame
  | fragmentGap =>
    unfold ConnectionEngine.handleTimer
    rw [hkind]
    dsimp only
    split
    next => exact .inr hsame
    next => exact .inr ⟨[], _, rfl, h.tail.of_unclocked rfl rfl, hopen, rfl⟩
  | idle =>
    have hping := (emitFrame_sent { e with pendingPongToken := some (idleToken e.nowMs) } .ping {}
      (u64Bytes (idleToken e.nowMs)) []).unclocked
    rcases hhandled : e.handleTimer timer with ⟨error | out, e'⟩
    · refine .inl ⟨error, e', rfl, .inr ?_⟩
      unfold ConnectionEngine.handleTimer ping at hhandled
      rw [hkind] at hhandled
      dsimp only at hhandled
      split at hhandled
      next hsent =>
        cases hhandled
        unfold idleToken at hping
        rw [hsent] at hping
        exact (h.tail.of_unclocked hping.state hping.timers).drop
      next => cases hhandled
    · obtain ⟨hnone, hwaiting, hclock⟩ := h.pinged hopen hkind (hfits hkind) hhandled
      have htended := hwaiting.tended
        (fun t ht => h.kinds t (List.mem_cons_of_mem _ (List.mem_append_left _ ht))) hnone
      exact .inr ⟨out, e', rfl, htended, by rw [hwaiting.active]; decide, hclock⟩

theorem Unclocked.record (e : ConnectionEngine) (kind : EventKind) (channel : ChannelId) :
    Unclocked e (e.record kind channel) := ⟨rfl, rfl, rfl⟩

theorem Tended.advanceLoop (h : Tended timers e) (hopen : e.state ≠ .closed)
    (hfits : ∀ p ∈ timersMet timers e, p.2.kind = .idle → ClockFits e.nowMs) (out : List Bytes) :
    (advanceLoop timers e out).2.state = .closed ∨ Tended [] (advanceLoop timers e out).2 := by
  induction timers generalizing e out with
  | nil => exact .inr h
  | cons timer timers ih =>
    have hopen' : ¬ (e.record .timerExpired timer.channel).state = .closed := hopen
    have htended : Tended (timer :: timers) (e.record .timerExpired timer.channel) :=
      h.of_unclocked rfl rfl
    unfold timersMet at hfits
    dsimp only at hfits
    rw [if_neg hopen'] at hfits
    unfold ConnectionEngine.advanceLoop
    dsimp only
    rw [if_neg hopen']
    rcases htended.handleTimer hopen (hfits _ List.mem_cons_self) with
      ⟨error, e', heq, hend⟩ | ⟨produced, e', heq, hrest, hstate, hclock⟩
    · rw [heq]
      exact hend
    · rw [heq] at hfits ⊢
      refine ih hrest hstate (fun p hp hkind => ?_) _
      rw [hclock]
      exact hfits p (List.mem_cons_of_mem _ hp) hkind

/-- Timers of the handshake and of fragments let the others pass. -/
theorem advanceLoop_calm (hcalm : ∀ t ∈ timers, t.kind = .handshake ∨ t.kind = .fragmentGap)
    (hactive : e.state = .active) (more : List TimerEvent) (out : List Bytes) :
    ∃ e' out', Unclocked e e' ∧ e'.nowMs = e.nowMs ∧
      advanceLoop (timers ++ more) e out = advanceLoop more e' out' := by
  induction timers generalizing e out with
  | nil => exact ⟨e, out, .refl e, rfl, rfl⟩
  | cons timer timers ih =>
    obtain ⟨hfirst, hrest⟩ := List.forall_mem_cons.mp hcalm
    have hstep : ∃ e', Unclocked e e' ∧ e'.nowMs = e.nowMs ∧
        (e.record .timerExpired timer.channel).handleTimer timer = (.ok [], e') := by
      unfold ConnectionEngine.handleTimer
      rcases hfirst with hkind | hkind
      · rw [hkind]
        dsimp only
        rw [if_neg (by change e.state ≠ _; rw [hactive]; decide)]
        exact ⟨_, .record e _ _, rfl, rfl⟩
      · rw [hkind]
        dsimp only
        split
        next => exact ⟨_, .record e _ _, rfl, rfl⟩
        next =>
          refine ⟨_, ?_, ?_, rfl⟩
          · exact ⟨rfl, rfl, rfl⟩
          · rfl
    obtain ⟨e', hsame, hclock, heq⟩ := hstep
    obtain ⟨e'', out'', hsame', hclock', hloop⟩ :=
      ih hrest (hsame.state.trans hactive) (out ++ [])
    refine ⟨e'', out'', hsame.trans hsame', hclock'.trans hclock, ?_⟩
    rw [List.cons_append]
    conv_lhs => unfold ConnectionEngine.advanceLoop
    dsimp only
    rw [if_neg (by change e.state ≠ _; rw [hactive]; decide), heq]
    exact hloop

theorem calm_of_alarms (hkinds : ∀ t ∈ timers, t.kind ≠ .retry ∧ t.kind ≠ .drain)
    (hnone : alarms timers = []) : ∀ t ∈ timers, t.kind = .handshake ∨ t.kind = .fragmentGap := by
  intro t ht
  have hquiet := alarms_eq_nil.mp hnone t ht
  obtain ⟨hretry, hdrain⟩ := hkinds t ht
  unfold TimerEvent.isAlarm at hquiet
  cases hkind : t.kind <;> simp_all

/-- An idle timer that is handled and sends its PING leaves the engine waiting for the PONG. -/
theorem Tended.advanceLoop_pings (h : Tended timers e) (hopen : e.state ≠ .closed)
    (hfits : ∀ p ∈ timersMet timers e, p.2.kind = .idle → ClockFits e.nowMs)
    (hping : ∃ p ∈ timersMet timers e, p.2.kind = .idle ∧ ∃ bytes, (p.1.handleTimer p.2).1 = .ok bytes)
    (out : List Bytes) :
    Waiting e.nowMs (some (idleToken e.nowMs)) (ConnectionEngine.advanceLoop timers e out).2 := by
  induction timers generalizing e out with
  | nil => simp [timersMet] at hping
  | cons timer timers ih =>
    have hopen' : ¬ (e.record .timerExpired timer.channel).state = .closed := hopen
    have htended : Tended (timer :: timers) (e.record .timerExpired timer.channel) :=
      h.of_unclocked rfl rfl
    obtain ⟨p, hp, hkind, bytes, hbytes⟩ := hping
    unfold timersMet at hfits hp
    dsimp only at hfits hp
    rw [if_neg hopen'] at hfits hp
    unfold ConnectionEngine.advanceLoop
    dsimp only
    rw [if_neg hopen']
    rcases List.mem_cons.mp hp with rfl | hp
    · -- this is the timer: nothing behind it is an alarm
      rcases heq : (e.record .timerExpired timer.channel).handleTimer timer with ⟨error | produced, e'⟩
      · rw [heq] at hbytes
        cases hbytes
      · obtain ⟨hnone, hwaiting, -⟩ :=
          htended.pinged hopen hkind (hfits _ List.mem_cons_self hkind) heq
        have hcalm := calm_of_alarms
          (fun t ht => h.kinds t (List.mem_cons_of_mem _ (List.mem_append_left _ ht))) hnone
        obtain ⟨e'', out'', hsame, -, hloop⟩ :=
          advanceLoop_calm hcalm hwaiting.active [] (out ++ produced)
        rw [List.append_nil] at hloop
        dsimp only
        rw [hloop]
        exact hwaiting.of_unclocked hsame
    · rcases htended.handleTimer hopen (hfits _ List.mem_cons_self) with
        ⟨error, e', heq, -⟩ | ⟨produced, e', heq, hrest, hstate, hclock⟩
      · rw [heq] at hp
        cases hp
      · rw [heq] at hfits hp ⊢
        have hwaiting := ih hrest hstate (fun q hq hidle => by
          rw [hclock]
          exact hfits q (List.mem_cons_of_mem _ hq) hidle) ⟨p, hp, hkind, bytes, hbytes⟩
          (out ++ produced)
        rw [hclock] at hwaiting
        exact hwaiting

end

end ConnectionEngine

end LatticeGateway

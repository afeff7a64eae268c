import LatticeGateway.Deadlines

namespace Runs

variable {σ α : Type*} {step : σ → α → σ}

theorem along_and {P Q : σ → α → Prop} {s : σ} {calls : List α} (h : Along step P s calls)
    (h' : Along step Q s calls) : Along step (fun s a => P s a ∧ Q s a) s calls := by
  induction calls generalizing s with
  | nil => trivial
  | cons a calls ih => exact ⟨⟨h.1, h'.1⟩, ih h.2 h'.2⟩

end Runs

namespace LatticeGateway

open Runs

namespace ConnectionEngine

/-- What the calls keep that do not close the engine, all of them to an open one. -/
theorem run_open {P : ConnectionEngine → Call → Prop} {I : ConnectionEngine → Prop}
    (hopen : ∀ {e c}, P e c → e.state ≠ .closed)
    (hstep : ∀ {e c}, I e → P e c → (e.call c).state = .closed ∨ I (e.call c)) {e : ConnectionEngine}
    {calls : List Call} (he : e.state = .closed ∨ I e) (h : Along call P e calls) :
    (run call e calls).state = .closed ∨ I (run call e calls) := by
  induction calls generalizing e with
  | nil => exact he
  | cons c calls ih => exact ih (hstep (he.resolve_left (hopen h.1)) h.1) h.2

theorem handleFrame_pending (e : ConnectionEngine) (frame : Frame) :
    (e.handleFrame frame).2.pendingPongToken = settled e.pendingPongToken (pongTokens frame) := by
  by_cases hgoaway : frame.type = .goaway
  · rw [pongTokens_other (by rw [hgoaway]; decide), settled_nil]
    unfold handleFrame
    rw [hgoaway]
    rfl
  · exact (handleFrame_clock e hgoaway).2

theorem handleEvent_pending (e : ConnectionEngine) (event : DecodeEvent) :
    (e.handleEvent event).2.pendingPongToken = settled e.pendingPongToken (eventTokens event) := by
  unfold handleEvent
  cases event with
  | needMore => exact (settled_nil _).symm
  | error error => exact (settled_nil _).symm
  | frame frame =>
    have hframe := handleFrame_pending e frame
    dsimp only
    rcases h : e.handleFrame frame with ⟨error | produced, e'⟩
    · rw [h] at hframe
      dsimp only
      split
      all_goals exact hframe
    · rw [h] at hframe
      exact hframe

theorem receiveLoop_pending (events : List DecodeEvent) (e : ConnectionEngine) (out : List Bytes) :
    (receiveLoop events e out).2.pendingPongToken =
      settled e.pendingPongToken (handledTokens events e) := by
  induction events generalizing e out with
  | nil => exact (settled_nil _).symm
  | cons event events ih =>
    have hevent := handleEvent_pending e event
    unfold receiveLoop
    rcases h : e.handleEvent event with ⟨error | produced, e'⟩
    · rw [h] at hevent
      rw [handledTokens_error h]
      exact hevent
    · rw [h] at hevent
      rw [handledTokens_ok h, settled_append, ← hevent]
      exact ih e' _

/-- Only a PONG settles what is pending, apart from the timers. -/
theorem call_pending (e : ConnectionEngine) {c : Call} (hadvance : ∀ nowMs, c ≠ .advanceTime nowMs) :
    (e.call c).pendingPongToken = settled e.pendingPongToken (e.pongsOf c) := by
  cases c with
  | receive bytes eof => exact receiveLoop_pending _ (e.decoded bytes eof).2 []
  | goaway => exact (emitFrame_unclocked _ _ _ _ _).pendingPongToken.trans (settled_nil _).symm
  | _ =>
    exact (call_clock e (by simp) (by simp) hadvance).2.trans (settled_nil _).symm

theorem TimerKeeps.of_wound {C : ConnectionEngine → Prop} (hlate : ∀ {e}, C e → ¬ e.Early)
    (hC : ∀ {e e'}, C e → Wound e e' → C e') : TimerKeeps C where
  record _ h := hC h (.still rfl rfl rfl rfl)
  handle h hretry _ := .inr (hC h (handleTimer_wound hretry fun _ => hlate h))

/-- After the HELLO exchange, at this time. -/
def GreetedAt (nowMs : UInt64) (e : ConnectionEngine) : Prop := ¬ e.Early ∧ e.nowMs = nowMs

/-- A PING is unanswered, and the timer that ends its waiting is due by that time. -/
structure Expects (time : Nat) (e : ConnectionEngine) : Prop where
  late : ¬ e.Early
  pending : e.pendingPongToken ≠ none
  due : DueBy .pongDeadline time e.timers.timers

section

variable {e e' : ConnectionEngine} {nowMs : UInt64} {time : Nat}

theorem GreetedAt.keeps (nowMs : UInt64) : TimerKeeps (GreetedAt nowMs) := by
  refine .of_wound And.left fun ⟨hlate, hnow⟩ hwound => ⟨fun hearly => hlate (hwound.early hearly), ?_⟩
  exact hwound.nowMs.trans hnow

theorem handleTimer_pending (timer : TimerEvent) (h : e.pendingPongToken ≠ none) :
    (e.handleTimer timer).2.pendingPongToken ≠ none := by
  unfold handleTimer
  cases timer.kind with
  | idle =>
    have hsent := (emitFrame_unclocked { e with pendingPongToken := some (idleToken e.nowMs) } .ping {}
      (u64Bytes (idleToken e.nowMs)) []).pendingPongToken
    unfold idleToken at hsent
    unfold ping
    dsimp only
    split
    all_goals
      next hemit =>
        rw [hemit] at hsent
        dsimp only at hsent
        change _ = some _ at hsent
        exact Option.ne_none_iff_exists'.mpr ⟨_, hsent⟩
  | handshake | drain | pongDeadline | fragmentGap | retry =>
    dsimp only
    split
    all_goals exact h

theorem pending_keeps : TimerKeeps fun e => ¬ e.Early ∧ e.pendingPongToken ≠ none := by
  refine ⟨fun _ h => h, fun {e timer} ⟨hlate, hpending⟩ hretry _ => .inr ⟨fun hearly => ?_, ?_⟩⟩
  · exact hlate ((handleTimer_wound hretry fun _ => hlate).early hearly)
  · exact handleTimer_pending timer hpending

theorem Expects.keeps (time : Nat) : TimerKeeps (Expects time) := by
  refine ⟨fun _ h => ⟨h.late, h.pending, h.due⟩, fun {e timer} h hretry hok => ?_⟩
  have hwound := handleTimer_wound hretry fun _ => h.late
  refine .inr ⟨fun hearly => h.late (hwound.early hearly), handleTimer_pending timer h.pending, ?_⟩
  exact h.due.mono (Nat.le_refl _) hwound.kept

/-- What an idle timer does whose PING goes out. -/
theorem handleTimer_idle_sent {timer : TimerEvent} (hgreeted : GreetedAt nowMs e)
    (hkind : timer.kind = .idle) (hok : (e.handleTimer timer).1.isOk = true) :
    Expects (nowMs.toNat + kPongTimeoutMs.toNat) (e.handleTimer timer).2 ∧
      DueBy .idle (nowMs.toNat + kIdlePingMs.toNat) (e.handleTimer timer).2.timers.timers := by
  obtain ⟨hlate, rfl⟩ := hgreeted
  have hearly := (handleTimer_wound (by rw [hkind]; decide) fun _ => hlate).early
  have hsent := emitFrame_sent { e with pendingPongToken := some (idleToken e.nowMs) } .ping {}
    (u64Bytes (idleToken e.nowMs)) []
  unfold idleToken at hsent
  unfold handleTimer ping at hok hearly ⊢
  rw [hkind] at hok hearly ⊢
  dsimp only at hok hearly ⊢
  split
  next h =>
    rw [h] at hok
    cases hok
  next bytes e' h =>
    rw [h] at hsent hearly
    have hpending := hsent.unclocked.pendingPongToken
    have hclock : e'.nowMs = e.nowMs := hsent.nowMs
    refine ⟨⟨fun hend => hlate (hearly hend), ?_, ?_⟩, ?_⟩
    · exact Option.ne_none_iff_exists'.mpr ⟨_, hpending⟩
    · rw [← hclock]
      exact (schedule_dueBy _ _ _ _).mono (Nat.le_refl _) (schedule_kept _ _ _)
    · rw [← hclock]
      exact schedule_dueBy _ _ _ _

/-- The time does not go back, and every idle PING that comes due goes out. -/
def Prompt (e : ConnectionEngine) : Call → Prop
  | .advanceTime nowMs => e.nowMs ≤ nowMs ∧ PingsOut (e.timers.expire nowMs).1 (e.expiring nowMs)
  | _ => True

def Attended (e : ConnectionEngine) (c : Call) : Prop := e.state ≠ .closed ∧ e.Prompt c

/-- No PONG comes in. -/
def Unanswered (e : ConnectionEngine) (c : Call) : Prop := e.pongsOf c = []

instance decidablePrompt (e : ConnectionEngine) : (c : Call) → Decidable (e.Prompt c)
  | .advanceTime nowMs =>
    inferInstanceAs (Decidable (e.nowMs ≤ nowMs ∧ PingsOut (e.timers.expire nowMs).1 (e.expiring nowMs)))
  | .start | .receive .. | .openChannel _ | .send .. | .grantCredit .. | .acknowledge _ | .ping _
  | .resume _ | .completePlugin _ | .flushOutbound _ | .loadReplaySnapshot _ | .halfClose ..
  | .reset _ | .goaway | .submitTask .. | .cancelTask _ | .drainOne | .drainAll => isTrue trivial

instance decidableAttended (e : ConnectionEngine) (c : Call) : Decidable (e.Attended c) :=
  instDecidableAnd

instance decidableUnanswered (e : ConnectionEngine) (c : Call) : Decidable (e.Unanswered c) :=
  inferInstanceAs (Decidable (e.pongsOf c = []))

/-- A negotiated engine keeps an idle timer. -/
structure Beating (e : ConnectionEngine) : Prop extends Regulated e where
  beat : e.capabilities ≠ none → DueBy .idle (e.nowMs.toNat + kIdlePingMs.toNat) e.timers.timers

theorem make_beating (policy : LocalPolicy) (registry : PluginRegistry)
    (executor : Option (DeterministicExecutor EngineTask)) : Beating (make policy registry executor) :=
  ⟨make_regulated policy registry executor, fun h => absurd rfl h⟩

theorem Regulated.late (h : Regulated e) (hdue : DueBy .idle time e.timers.timers) : ¬ e.Early := by
  obtain ⟨t, ht, hkind, -⟩ := hdue
  exact fun hearly => h.idle hearly t ht hkind

/-- An idle timer that comes due sends its PING and begins again. -/
theorem Regulated.advanceTime_idle (h : Regulated e)
    (hpings : PingsOut (e.timers.expire nowMs).1 (e.expiring nowMs))
    (hdue : DueBy .idle time e.timers.timers) :
    (e.advanceTime nowMs).2.state = .closed ∨
      Expects (nowMs.toNat + kPongTimeoutMs.toNat) (e.advanceTime nowMs).2 ∧
        DueBy .idle (nowMs.toNat + kIdlePingMs.toNat) (e.advanceTime nowMs).2.timers.timers ∨
      DueBy .idle time (e.advanceTime nowMs).2.timers.timers ∧ nowMs.toNat < time := by
  have hG : TimerKeeps fun e => Expects (nowMs.toNat + kPongTimeoutMs.toNat) e ∧
      DueBy .idle (nowMs.toNat + kIdlePingMs.toNat) e.timers.timers := by
    refine ⟨fun channel ⟨hexpects, hdue⟩ => ⟨(Expects.keeps _).record channel hexpects, hdue⟩,
      fun {e timer} ⟨hexpects, hdue⟩ hretry hok => ?_⟩
    refine ((Expects.keeps _).handle hexpects hretry hok).imp_right fun hkept => ⟨hkept, ?_⟩
    exact hdue.mono (Nat.le_refl _) (handleTimer_wound hretry fun _ => hexpects.late).kept
  have hstart : GreetedAt nowMs (e.expiring nowMs) := ⟨h.late hdue, rfl⟩
  have hreaches := h.advanceTime_reaches (GreetedAt.keeps nowMs) hG
    (fun hgreeted hkind hok => .inr (handleTimer_idle_sent hgreeted hkind hok)) hstart hpings hdue
  exact hreaches.imp_right fun hend => hend.imp_right And.right

/-- Unanswered, the PING closes the engine at its deadline. -/
theorem Regulated.advanceTime_expects (h : Regulated e)
    (hpings : PingsOut (e.timers.expire nowMs).1 (e.expiring nowMs)) (hexpects : Expects time e) :
    (e.advanceTime nowMs).2.state = .closed ∨
      Expects time (e.advanceTime nowMs).2 ∧ nowMs.toNat < time := by
  have hclose : ∀ {e : ConnectionEngine} {timer : TimerEvent},
      ¬ e.Early ∧ e.pendingPongToken ≠ none → timer.kind = .pongDeadline →
        (e.handleTimer timer).2.state = .closed := by
    intro e timer hpending hkind
    unfold handleTimer
    rw [hkind]
    dsimp only
    rw [if_pos (Option.isSome_iff_ne_none.mpr hpending.2)]
    rfl
  have hreaches := h.advanceTime_reaches pending_keeps .never
    (fun hpending hkind _ => .inl (hclose hpending hkind))
    ⟨hexpects.late, hexpects.pending⟩ hpings hexpects.due
  rcases hreaches with hclosed | ⟨⟨⟩⟩ | ⟨⟨hlate, hpending⟩, hdue, hearly⟩
  · exact .inl hclosed
  · exact .inr ⟨⟨hlate, hpending, hdue⟩, hearly⟩

theorem Beating.call (h : Beating e) {c : Call} (hattended : e.Attended c) :
    (e.call c).state = .closed ∨ Beating (e.call c) := by
  by_cases hadvance : ∃ nowMs, c = .advanceTime nowMs
  · obtain ⟨nowMs, rfl⟩ := hadvance
    obtain ⟨-, honward, hpings⟩ := hattended
    obtain ⟨hwound, hregulated⟩ := h.toRegulated.advanceTime nowMs
    by_cases hcapabilities : e.capabilities = none
    · refine .inr ⟨hregulated, fun hsome => absurd ?_ hsome⟩
      exact (advanceTime_steady e nowMs).capabilities.trans hcapabilities
    · have hle := UInt64.le_iff_toNat_le.mp honward
      rcases h.advanceTime_idle (hpings) (h.beat hcapabilities) with hclosed | ⟨-, hdue⟩ | ⟨hdue, -⟩
      · exact .inl hclosed
      all_goals
        refine .inr ⟨hregulated, fun _ => ?_⟩
        change DueBy .idle ((e.advanceTime nowMs).2.nowMs.toNat + kIdlePingMs.toNat) _
        rw [hwound.nowMs]
        exact hdue.mono (by dsimp only [expiring]; omega) (List.Subset.refl _)
  · have hwound := call_wound e (not_exists.mp hadvance)
    refine .inr ⟨hwound.regulated h.toRegulated, fun hsome => ?_⟩
    rw [hwound.nowMs]
    rcases hwound.greeted with hsame | hdue
    · exact (h.beat (hsame ▸ hsome)).mono (Nat.le_refl _) hwound.kept
    · exact hdue

theorem Regulated.call (h : Regulated e) (c : Call) : Regulated (e.call c) := by
  by_cases hadvance : ∃ nowMs, c = .advanceTime nowMs
  · obtain ⟨nowMs, rfl⟩ := hadvance
    exact (h.advanceTime nowMs).2
  · exact (call_wound e (not_exists.mp hadvance)).regulated h

theorem run_regulated {policy : LocalPolicy} {registry : PluginRegistry}
    {executor : Option (DeterministicExecutor EngineTask)} (calls : List Call) :
    Regulated (run ConnectionEngine.call (make policy registry executor) calls) :=
  run_induction (fun _ c h => h.call c) calls (make_regulated policy registry executor)

theorem Expects.call (h : Expects time e) {c : Call} (hadvance : ∀ nowMs, c ≠ .advanceTime nowMs)
    (hunanswered : e.Unanswered c) : Expects time (e.call c) := by
  have hwound := call_wound e hadvance
  refine ⟨fun hearly => h.late (hwound.early hearly), ?_, h.due.mono (Nat.le_refl _) hwound.kept⟩
  rw [call_pending e hadvance, hunanswered, settled_nil]
  exact h.pending

/-- The engine waits for a PONG since now at the latest, or for the next idle timer. -/
def Watching (idleBy : Nat) (e : ConnectionEngine) : Prop :=
  Regulated e ∧ (Expects (e.nowMs.toNat + kPongTimeoutMs.toNat) e ∨ DueBy .idle idleBy e.timers.timers)

theorem Watching.advanceTime {idleBy : Nat} (h : Watching idleBy e)
    (hattended : e.Attended (.advanceTime nowMs)) :
    (e.advanceTime nowMs).2.state = .closed ∨ Regulated (e.advanceTime nowMs).2 ∧
      (Expects (nowMs.toNat + kPongTimeoutMs.toNat) (e.advanceTime nowMs).2 ∨
        DueBy .idle idleBy (e.advanceTime nowMs).2.timers.timers ∧ nowMs.toNat < idleBy) := by
  obtain ⟨hregulated, hwaits⟩ := h
  obtain ⟨-, honward, hpings⟩ := hattended
  have hle := UInt64.le_iff_toNat_le.mp honward
  have hkept := (hregulated.advanceTime nowMs).2
  rcases hwaits with hexpects | hdue
  · rcases hregulated.advanceTime_expects (hpings) hexpects with hclosed | ⟨hstill, -⟩
    · exact .inl hclosed
    · refine .inr ⟨hkept, .inl ⟨hstill.late, hstill.pending, ?_⟩⟩
      exact hstill.due.mono (by omega) (List.Subset.refl _)
  · rcases hregulated.advanceTime_idle (hpings) hdue with hclosed | ⟨hexpects, -⟩ | hdue
    · exact .inl hclosed
    · exact .inr ⟨hkept, .inl hexpects⟩
    · exact .inr ⟨hkept, .inr hdue⟩

theorem Watching.call {idleBy : Nat} (h : Watching idleBy e) {c : Call}
    (hstep : e.Attended c ∧ e.Unanswered c) : (e.call c).state = .closed ∨ Watching idleBy (e.call c) := by
  by_cases hadvance : ∃ nowMs, c = .advanceTime nowMs
  · obtain ⟨nowMs, rfl⟩ := hadvance
    have hclock : (e.advanceTime nowMs).2.nowMs = nowMs := (h.1.advanceTime nowMs).1.nowMs
    refine (h.advanceTime hstep.1).imp_right fun ⟨hregulated, hwaits⟩ => ⟨hregulated, ?_⟩
    change Expects ((e.advanceTime nowMs).2.nowMs.toNat + _) _ ∨ _
    rw [hclock]
    exact hwaits.imp_right And.left
  · have hadvance := not_exists.mp hadvance
    have hwound := call_wound e hadvance
    refine .inr ⟨h.1.call c, ?_⟩
    rw [hwound.nowMs]
    exact h.2.imp (fun hexpects => hexpects.call hadvance hstep.2)
      fun hdue => hdue.mono (Nat.le_refl _) hwound.kept

theorem Expects.call_step (h : Regulated e ∧ Expects time e) {c : Call}
    (hstep : e.Attended c ∧ e.Unanswered c) :
    (e.call c).state = .closed ∨ Regulated (e.call c) ∧ Expects time (e.call c) := by
  by_cases hadvance : ∃ nowMs, c = .advanceTime nowMs
  · obtain ⟨nowMs, rfl⟩ := hadvance
    refine (h.1.advanceTime_expects (hstep.1.2.2) h.2).imp_right fun hstill => ?_
    exact ⟨h.1.call _, hstill.1⟩
  · exact .inr ⟨h.1.call c, h.2.call (not_exists.mp hadvance) hstep.2⟩

end

/-- A silent peer does not go unnoticed: negotiated before, an engine that hears no PONG from then on is
closed once the time has gone by for an idle PING, to `pingMs`, and for its answer, to `laterMs`. -/
theorem silent_peer_noticed (policy : LocalPolicy) (registry : PluginRegistry)
    (executor : Option (DeterministicExecutor EngineTask)) {before between after : List Call}
    {pingMs laterMs : UInt64}
    (hattended : Along call Attended (make policy registry executor)
      (before ++ (between ++ (.advanceTime pingMs :: (after ++ [.advanceTime laterMs])))))
    (hnegotiated : (run call (make policy registry executor) before).capabilities ≠ none)
    (hsilent : Along call Unanswered (run call (make policy registry executor) before)
      (between ++ (.advanceTime pingMs :: (after ++ [.advanceTime laterMs]))))
    (hidle : (run call (make policy registry executor) before).nowMs.toNat + kIdlePingMs.toNat ≤
      pingMs.toNat)
    (hlate : pingMs.toNat + kPongTimeoutMs.toNat ≤ laterMs.toNat) :
    (run call (make policy registry executor)
      (before ++ (between ++ (.advanceTime pingMs :: (after ++ [.advanceTime laterMs]))))).state =
        .closed := by
  obtain ⟨hbefore, hattended⟩ := along_append.mp hattended
  obtain ⟨hbetween, hping, hlater⟩ := along_append.mp (along_and hattended hsilent)
  obtain ⟨hafter, hlast, -⟩ := along_append.mp hlater
  have hbeating := @run_open Attended _ And.left (fun h hstep => Beating.call h hstep) _ _
    (.inr (make_beating policy registry executor)) hbefore
  rw [run_append, run_append]
  generalize run call (make policy registry executor) before = e at *
  have hwatching := run_open (fun hstep => hstep.1.1) (fun h hstep => Watching.call h hstep)
    (hbeating.imp_right fun h => ⟨h.toRegulated, .inr (h.beat hnegotiated)⟩) hbetween
  generalize run call e between = e' at *
  -- at `pingMs` the idle timer has been met
  have hexpects : (e'.advanceTime pingMs).2.state = .closed ∨ Regulated (e'.advanceTime pingMs).2 ∧
      Expects (pingMs.toNat + kPongTimeoutMs.toNat) (e'.advanceTime pingMs).2 := by
    refine ((hwatching.resolve_left hping.1.1).advanceTime hping.1).imp_right fun ⟨hregulated, hend⟩ => ?_
    exact ⟨hregulated, hend.resolve_right fun hearly => by omega⟩
  have hstill := run_open (fun hstep => hstep.1.1) (fun h hstep => Expects.call_step h hstep)
    hexpects hafter
  change (run call (e'.advanceTime pingMs).2 (after ++ [.advanceTime laterMs])).state = _
  rw [run_append]
  change Attended (run call (e'.advanceTime pingMs).2 after) _ ∧ _ at hlast
  generalize run call (e'.advanceTime pingMs).2 after = e'' at *
  obtain ⟨hregulated, hwaits⟩ := hstill.resolve_left hlast.1.1
  rcases hregulated.advanceTime_expects (hlast.1.2.2) hwaits with hclosed | ⟨-, hearly⟩
  · exact hclosed
  · omega

/-- Its own PINGs and a peer that sends PINGs only do not keep an engine open. -/
theorem silent_peer_noticed_pinging :
    (run call (make {} echoRegistry none) (negotiation {} ++ ([.ping 7] ++ (.advanceTime 30000 ::
      ([.receive (frameBytes { type := .ping, payload := u64Bytes 9 }) false] ++
        [.advanceTime 35000]))))).state = .closed :=
  silent_peer_noticed {} echoRegistry none (by decide +kernel) (by decide +kernel) (by decide +kernel)
    (by decide +kernel) (by decide)

end ConnectionEngine

end LatticeGateway

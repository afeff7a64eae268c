import LatticeGateway.EmitErrors
import LatticeGateway.KeepaliveRuns

namespace LatticeGateway

open Runs

namespace ConnectionEngine

/-- The error of `advance_time` at a missed deadline. -/
def pongTimeout : Error := makeError .connection .timeout .closeConnection "PONG timeout"

section

variable {e : ConnectionEngine} {timers : List TimerEvent} {nowMs : UInt64} {pending : Option UInt64}

theorem handleTimer_idle {timer : TimerEvent} (hkind : timer.kind = .idle) :
    (e.handleTimer timer).2.state = e.state ∧
      ∀ error, (e.handleTimer timer).1 = .error error → error.code ≠ .timeout := by
  have hsent := emitFrame_sent { e with pendingPongToken := some (idleToken e.nowMs) } .ping {}
    (u64Bytes (idleToken e.nowMs)) []
  have hrefusal := fun error => @emitFrame_refusal { e with pendingPongToken := some (idleToken e.nowMs) }
    .ping {} (u64Bytes (idleToken e.nowMs)) [] error
  unfold handleTimer ping
  rw [hkind]
  dsimp only
  unfold idleToken at hsent hrefusal
  split
  next h =>
    rw [h] at hsent hrefusal
    refine ⟨hsent.state, fun error herror => ?_⟩
    cases herror
    exact (hrefusal _ rfl).1
  next h =>
    rw [h] at hsent
    exact ⟨hsent.state, by rintro _ ⟨⟩⟩

/-- Without a deadline among them, the timers of an active engine neither close it nor time out. -/
theorem advanceLoop_untimed
    (hkinds : ∀ t ∈ timers, t.kind = .handshake ∨ t.kind = .fragmentGap ∨ t.kind = .idle)
    (hactive : e.state = .active) (out : List Bytes) :
    (advanceLoop timers e out).1 ≠ .error pongTimeout ∧ (advanceLoop timers e out).2.state = .active := by
  induction timers generalizing e out with
  | nil => exact ⟨by rintro ⟨⟩, hactive⟩
  | cons timer timers ih =>
    obtain ⟨hfirst, hrest⟩ := List.forall_mem_cons.mp hkinds
    rw [← or_assoc] at hfirst
    rcases hfirst with hcalm | hidle
    · obtain ⟨e', out', hsame, -, hloop⟩ :=
        @advanceLoop_calm e [timer] (List.forall_mem_singleton.mpr hcalm) hactive timers out
      rw [List.singleton_append] at hloop
      rw [hloop]
      exact ih hrest (hsame.state.trans hactive) out'
    · obtain ⟨hstate, hcode⟩ := @handleTimer_idle (e.record .timerExpired timer.channel) _ hidle
      have hopen : ¬ (e.record .timerExpired timer.channel).state = .closed := by
        change ¬ e.state = _
        rw [hactive]
        decide
      unfold advanceLoop
      dsimp only
      rw [if_neg hopen]
      rcases h : (e.record .timerExpired timer.channel).handleTimer timer with ⟨error | produced, e'⟩
      · rw [h] at hstate hcode
        refine ⟨?_, hstate.trans hactive⟩
        rintro ⟨⟩
        exact hcode _ rfl rfl
      · rw [h] at hstate
        exact ih hrest (hstate.trans hactive) _

/-- The wheel of a waiting engine after an `expire`, with the timers that it hands over. -/
theorem Waiting.expire (h : Waiting nowMs pending e) (laterMs : UInt64) :
    (∀ t ∈ (e.timers.expire laterMs).1, t.kind ≠ .retry ∧ t.kind ≠ .drain) ∧
      alarms (e.timers.expire laterMs).1 ++ alarms (e.timers.expire laterMs).2.timers =
        [(.pongDeadline, nowMs + kPongTimeoutMs), (.idle, nowMs + kIdlePingMs)] := by
  have happend := @TimerWheel.expire_append e.timers laterMs
  refine ⟨fun t ht => h.kinds t ?_, ?_⟩
  · rw [← happend]
    exact List.mem_append_left _ ht
  · rw [← alarms_append, happend, h.wheel]

theorem alarms_due {timers : List TimerEvent} {kind : TimerKind} {dueMs : UInt64}
    (h : (kind, dueMs) ∈ alarms timers) : ∃ t ∈ timers, t.kind = kind ∧ t.dueMs = dueMs := by
  obtain ⟨t, ht, heq⟩ := List.mem_map.mp h
  obtain ⟨hkind, hdue⟩ := Prod.mk.inj heq
  exact ⟨t, List.mem_of_mem_filter ht, hkind, hdue⟩

/-- Until the deadline nothing happens to what the engine waits for. -/
theorem Waiting.advance_early (h : Waiting nowMs pending e) (hfits : ClockFits nowMs) {laterMs : UInt64}
    (hearly : laterMs.toNat < nowMs.toNat + kPongTimeoutMs.toNat) :
    Waiting nowMs pending (e.advanceTime laterMs).2 := by
  obtain ⟨hkinds, halarms⟩ := h.expire laterMs
  have hnone : alarms (e.timers.expire laterMs).1 = [] := by
    cases hexpired : alarms (e.timers.expire laterMs).1 with
    | nil => rfl
    | cons alarm rest =>
      -- the first alarm would be the deadline, which is not due yet
      rw [hexpired] at halarms
      obtain ⟨rfl, -⟩ := List.cons.inj halarms
      obtain ⟨t, ht, -, hdue⟩ := alarms_due (hexpired ▸ List.mem_cons_self)
      have hle := UInt64.le_iff_toNat_le.mp (TimerWheel.expired_due ht)
      have hdeadline : kPongTimeoutMs.toNat = 5000 := rfl
      have hidle : kIdlePingMs.toNat = 30000 := rfl
      unfold ClockFits at hfits
      rw [hdue, UInt64.toNat_add] at hle
      omega
  have hwaiting : Waiting nowMs pending (e.expiring laterMs) := by
    refine ⟨h.ordered.expire laterMs, fun t ht => h.kinds t ?_, h.active, ?_, h.pending⟩
    · rw [← @TimerWheel.expire_append e.timers laterMs]
      exact List.mem_append_right _ ht
    · rw [hnone, List.nil_append] at halarms
      exact halarms
  obtain ⟨e', out', hsame, -, hloop⟩ :=
    advanceLoop_calm (calm_of_alarms hkinds hnone) hwaiting.active [] []
  rw [List.append_nil] at hloop
  rw [advanceTime_eq, hloop]
  exact hwaiting.of_unclocked hsame

/-- From the deadline on, it is the first alarm that the wheel hands over. -/
theorem Waiting.expire_late (h : Waiting nowMs pending e) {laterMs : UInt64}
    (hlate : nowMs.toNat + kPongTimeoutMs.toNat ≤ laterMs.toNat) :
    ∃ rest, alarms (e.timers.expire laterMs).1 = (.pongDeadline, nowMs + kPongTimeoutMs) :: rest ∧
      ∀ alarm ∈ rest, alarm.1 = .idle := by
  obtain ⟨-, halarms⟩ := h.expire laterMs
  cases hexpired : alarms (e.timers.expire laterMs).1 with
  | nil =>
    rw [hexpired, List.nil_append] at halarms
    obtain ⟨t, ht, -, hdue⟩ := alarms_due (halarms ▸ List.mem_cons_self)
    refine absurd ?_ (h.ordered.left_due ht)
    have hdeadline : kPongTimeoutMs.toNat = 5000 := rfl
    rw [UInt64.le_iff_toNat_le, hdue, UInt64.toNat_add]
    omega
  | cons alarm rest =>
    rw [hexpired] at halarms
    obtain ⟨rfl, hidle⟩ := List.cons.inj halarms
    have hidle : rest ++ alarms (e.timers.expire laterMs).2.timers =
      [(.idle, nowMs + kIdlePingMs)] := hidle
    refine ⟨rest, rfl, fun alarm ht => ?_⟩
    have hmem := List.mem_append_left (alarms (e.timers.expire laterMs).2.timers) ht
    rw [hidle, List.mem_singleton] at hmem
    rw [hmem]

/-- The one deadline among timers, with calm ones before it and no further deadline behind it. -/
theorem deadline_split {deadlineMs : UInt64} {rest : List (TimerKind × UInt64)}
    (hkinds : ∀ t ∈ timers, t.kind ≠ .retry ∧ t.kind ≠ .drain)
    (halarms : alarms timers = (.pongDeadline, deadlineMs) :: rest) (hrest : ∀ alarm ∈ rest, alarm.1 = .idle) :
    ∃ front deadline back, timers = front ++ deadline :: back ∧ deadline.kind = .pongDeadline ∧
      (∀ t ∈ front, t.kind = .handshake ∨ t.kind = .fragmentGap) ∧
      ∀ t ∈ back, t.kind = .handshake ∨ t.kind = .fragmentGap ∨ t.kind = .idle := by
  obtain ⟨deadline, others, hfilter, hhead, hothers⟩ := List.map_eq_cons_iff.mp halarms
  obtain ⟨front, back, hsplit, hfront, -, hback⟩ := List.filter_eq_cons_iff.mp hfilter
  refine ⟨front, deadline, back, hsplit, congrArg Prod.fst hhead, ?_, ?_⟩
  · exact calm_of_alarms (fun t ht => hkinds t (by rw [hsplit]; exact List.mem_append_left _ ht))
      (alarms_of_other fun t ht => by simpa using hfront t ht)
  · intro t ht
    obtain ⟨hretry, hdrain⟩ :=
      hkinds t (by rw [hsplit]; exact List.mem_append_right _ (List.mem_cons_of_mem _ ht))
    have hno : t.kind ≠ .pongDeadline := by
      intro hkind
      have hmem : t ∈ others := by
        rw [← hback, List.mem_filter]
        exact ⟨ht, by simp [TimerEvent.isAlarm, hkind]⟩
      have hidle := hrest (t.kind, t.dueMs) (hothers ▸ List.mem_map_of_mem hmem)
      rw [hkind] at hidle
      cases hidle
    cases hkind : t.kind <;> simp_all

/-- At the deadline the call times out or not, as a PONG is still pending or not. -/
theorem Waiting.advance_late (h : Waiting nowMs pending e) {laterMs : UInt64}
    (hlate : nowMs.toNat + kPongTimeoutMs.toNat ≤ laterMs.toNat) :
    (pending = none → (e.advanceTime laterMs).1 ≠ .error pongTimeout ∧
      (e.advanceTime laterMs).2.state ≠ .closed) ∧
    (pending ≠ none → (e.advanceTime laterMs).1 = .error pongTimeout ∧
      (e.advanceTime laterMs).2.state = .closed) := by
  obtain ⟨rest, hexpired, hrest⟩ := h.expire_late hlate
  obtain ⟨front, deadline, back, hsplit, hdeadline, hfrontCalm, hbackKinds⟩ :=
    deadline_split (h.expire laterMs).1 hexpired hrest
  have hactive : (e.expiring laterMs).state = .active := h.active
  obtain ⟨e', out', hsame, -, hloop⟩ := advanceLoop_calm hfrontCalm hactive (deadline :: back) []
  have hopen : ¬ (e'.record .timerExpired deadline.channel).state = .closed := by
    change ¬ e'.state = _
    rw [hsame.state, hactive]
    decide
  have hpending : (e'.record .timerExpired deadline.channel).pendingPongToken = pending :=
    hsame.pendingPongToken.trans h.pending
  rw [advanceTime_eq, hsplit, hloop]
  unfold advanceLoop handleTimer
  dsimp only
  rw [if_neg hopen, hdeadline]
  dsimp only
  rw [hpending]
  constructor
  · rintro rfl
    obtain ⟨htimeout, hstate⟩ := @advanceLoop_untimed (e'.record .timerExpired deadline.channel) _
      hbackKinds (hsame.state.trans hactive) (out' ++ [])
    refine ⟨htimeout, ?_⟩
    change (advanceLoop _ _ _).2.state ≠ _
    rw [hstate]
    decide
  · intro hsome
    rw [if_pos (Option.isSome_iff_ne_none.mpr hsome)]
    exact ⟨rfl, rfl⟩

end

/-- The timers that `advance_time` handles, each behind the engine that meets it. -/
def timersHandled (e : ConnectionEngine) (nowMs : UInt64) : List (ConnectionEngine × TimerEvent) :=
  timersMet (e.timers.expire nowMs).1 (e.expiring nowMs)

/-- An idle PING goes out in `advance_time`. -/
def PingsIdle (e : ConnectionEngine) (nowMs : UInt64) : Prop :=
  ∃ p ∈ e.timersHandled nowMs, p.2.kind = .idle ∧ (p.1.handleTimer p.2).1.isOk = true

/-- The time does not go back. -/
def Onward (e : ConnectionEngine) : Call → Prop
  | .advanceTime nowMs => e.nowMs ≤ nowMs
  | _ => True

/-- The engine is open, no GOAWAY comes or goes, and the time does not go back. -/
def Regular (e : ConnectionEngine) (c : Call) : Prop := e.state ≠ .closed ∧ e.NoGoaway c ∧ e.Onward c

/-- No idle timer is handled when the two timers that its PING sets would be due past the clock's end. -/
def IdleFits (e : ConnectionEngine) : Call → Prop
  | .advanceTime nowMs => ∀ p ∈ e.timersHandled nowMs, p.2.kind = .idle → ClockFits nowMs
  | _ => True

instance decidableNoGoaway (e : ConnectionEngine) : (c : Call) → Decidable (e.NoGoaway c)
  | .goaway => isFalse id
  | .receive bytes eof => inferInstanceAs (Decidable
      (∀ p ∈ handled (e.decoded bytes eof).1 (e.decoded bytes eof).2, p.2.type ≠ .goaway))
  | .start | .openChannel _ | .send .. | .grantCredit .. | .acknowledge _ | .ping _ | .resume _
  | .completePlugin _ | .advanceTime _ | .flushOutbound _ | .loadReplaySnapshot _ | .halfClose ..
  | .reset _ | .submitTask .. | .cancelTask _ | .drainOne | .drainAll => isTrue trivial

instance decidableOnward (e : ConnectionEngine) : (c : Call) → Decidable (e.Onward c)
  | .advanceTime nowMs => inferInstanceAs (Decidable (e.nowMs ≤ nowMs))
  | .start | .receive .. | .openChannel _ | .send .. | .grantCredit .. | .acknowledge _ | .ping _
  | .resume _ | .completePlugin _ | .flushOutbound _ | .loadReplaySnapshot _ | .halfClose ..
  | .reset _ | .goaway | .submitTask .. | .cancelTask _ | .drainOne | .drainAll => isTrue trivial

instance decidableRegular (e : ConnectionEngine) (c : Call) : Decidable (e.Regular c) :=
  instDecidableAnd

instance decidableClockFits (nowMs : UInt64) : Decidable (ClockFits nowMs) := Nat.decLt _ _

instance decidableIdleFits (e : ConnectionEngine) : (c : Call) → Decidable (e.IdleFits c)
  | .advanceTime nowMs =>
    inferInstanceAs (Decidable (∀ p ∈ e.timersHandled nowMs, p.2.kind = .idle → ClockFits nowMs))
  | .start | .receive .. | .openChannel _ | .send .. | .grantCredit .. | .acknowledge _ | .ping _
  | .resume _ | .completePlugin _ | .flushOutbound _ | .loadReplaySnapshot _ | .halfClose ..
  | .reset _ | .goaway | .submitTask .. | .cancelTask _ | .drainOne | .drainAll => isTrue trivial

instance decidablePingsIdle (e : ConnectionEngine) (nowMs : UInt64) : Decidable (e.PingsIdle nowMs) :=
  inferInstanceAs (Decidable (∃ p ∈ e.timersHandled nowMs, p.2.kind = .idle ∧ _))

/-- The tokens of the PONGs that are received in the course of calls. -/
def pongsReceived (e : ConnectionEngine) : List Call → List UInt64
  | [] => []
  | c :: calls => e.pongsOf c ++ pongsReceived (e.call c) calls

/-- What the keepalive owes for the idle PING of `nowMs`, at the first later time past its deadline: with
its PONG received the call does not time out, and without it closes the connection. -/
def KeptAlive (e : ConnectionEngine) (nowMs : UInt64) (calls : List Call) (laterMs : UInt64) : Prop :=
  (idleToken nowMs ∈ e.pongsReceived calls →
    ((run call e calls).advanceTime laterMs).1 ≠ .error pongTimeout ∧
      ((run call e calls).advanceTime laterMs).2.state ≠ .closed) ∧
  (idleToken nowMs ∉ e.pongsReceived calls →
    ((run call e calls).advanceTime laterMs).1 = .error pongTimeout ∧
      ((run call e calls).advanceTime laterMs).2.state = .closed)

section

variable {e : ConnectionEngine}

theorem make_tended (policy : LocalPolicy) (registry : PluginRegistry)
    (executor : Option (DeterministicExecutor EngineTask)) : Tended [] (make policy registry executor) :=
  ⟨.nil, fun _ ht => absurd ht List.not_mem_nil, fun _ => rfl, by rintro ⟨⟩, .none⟩

theorem Tended.expiring (h : Tended [] e) (nowMs : UInt64) :
    Tended (e.timers.expire nowMs).1 (e.expiring nowMs) := by
  have happend : (e.timers.expire nowMs).1 ++ (e.expiring nowMs).timers.timers = [] ++ e.timers.timers :=
    TimerWheel.expire_append nowMs
  exact ⟨h.ordered.expire nowMs, happend ▸ h.kinds, happend ▸ h.early, h.draining, happend ▸ h.shape⟩

theorem Tended.call (h : Tended [] e) {c : Call} (hregular : e.Regular c) (hfits : e.IdleFits c) :
    (e.call c).state = .closed ∨ Tended [] (e.call c) := by
  by_cases hadvance : ∃ nowMs, c = .advanceTime nowMs
  · obtain ⟨nowMs, rfl⟩ := hadvance
    exact (h.expiring nowMs).advanceLoop hregular.1 hfits []
  · exact @call_clockwork (fun _ e => Tended [] e) (fun he hmove _ => he.move hmove) c e [] h
      hregular.2.1 (not_exists.mp hadvance)

theorem tended_run {calls : List Call} (h : e.state = .closed ∨ Tended [] e)
    (hregular : Along ConnectionEngine.call Regular e calls)
    (hfits : Along ConnectionEngine.call IdleFits e calls) :
    (run ConnectionEngine.call e calls).state = .closed ∨ Tended [] (run ConnectionEngine.call e calls) := by
  induction calls generalizing e with
  | nil => exact h
  | cons c calls ih =>
    have htended : Tended [] e := h.resolve_left hregular.1.1
    exact ih (htended.call hregular.1 hfits.1) hregular.2 hfits.2

theorem Tended.pings (h : Tended [] e) (hopen : e.state ≠ .closed) {nowMs : UInt64}
    (hfits : e.IdleFits (.advanceTime nowMs)) (hping : e.PingsIdle nowMs) :
    ClockFits nowMs ∧ Waiting nowMs (some (idleToken nowMs)) (e.advanceTime nowMs).2 := by
  obtain ⟨p, hp, hkind, hsent⟩ := hping
  refine ⟨hfits p hp hkind, (h.expiring nowMs).advanceLoop_pings hopen hfits ⟨p, hp, hkind, ?_⟩ []⟩
  cases hanswer : (p.1.handleTimer p.2).1 with
  | ok bytes => exact ⟨bytes, rfl⟩
  | error error =>
    rw [hanswer] at hsent
    cases hsent

theorem Waiting.call {nowMs : UInt64} {pending : Option UInt64} (h : Waiting nowMs pending e)
    (hfits : ClockFits nowMs) {c : Call} (hregular : e.Regular c)
    (hearly : ∀ laterMs, c = .advanceTime laterMs → laterMs.toNat < nowMs.toNat + kPongTimeoutMs.toNat) :
    (e.call c).state = .closed ∨ Waiting nowMs (settled pending (e.pongsOf c)) (e.call c) := by
  by_cases hadvance : ∃ laterMs, c = .advanceTime laterMs
  · obtain ⟨laterMs, rfl⟩ := hadvance
    refine .inr ?_
    have hsettled : settled pending (e.pongsOf (.advanceTime laterMs)) = pending := settled_nil pending
    rw [hsettled]
    exact h.advance_early hfits (hearly laterMs rfl)
  · have hstart : Waiting nowMs (settled pending []) e := by
      rw [settled_nil]
      exact h
    exact @call_clockwork (fun tokens e => Waiting nowMs (settled pending tokens) e)
      (fun he hmove hpending => by rw [settled_append]; exact he.move hmove hpending) c e [] hstart
      hregular.2.1 (not_exists.mp hadvance)

/-- Up to its deadline the engine waits for the PONG that has not been received. -/
theorem waiting_run {nowMs : UInt64} {pending : Option UInt64} {calls : List Call}
    (h : e.state = .closed ∨ Waiting nowMs pending e) (hfits : ClockFits nowMs)
    (hregular : Along ConnectionEngine.call Regular e calls)
    (hearly : ∀ laterMs, .advanceTime laterMs ∈ calls →
      laterMs.toNat < nowMs.toNat + kPongTimeoutMs.toNat) :
    (run ConnectionEngine.call e calls).state = .closed ∨
      Waiting nowMs (settled pending (e.pongsReceived calls)) (run ConnectionEngine.call e calls) := by
  induction calls generalizing e pending with
  | nil =>
    unfold pongsReceived
    rw [settled_nil]
    exact h
  | cons c calls ih =>
    have hwaiting : Waiting nowMs pending e := h.resolve_left hregular.1.1
    have hstep := hwaiting.call hfits hregular.1 fun laterMs hc => hearly laterMs (by simp [hc])
    unfold pongsReceived
    rw [settled_append]
    exact ih hstep hregular.2 fun laterMs hlater => hearly laterMs (List.mem_cons_of_mem _ hlater)

end

/-- The keepalive closes exactly the unresponsive, in every run whose idle timers are handled before the
clock can wrap: `nowMs` is the time of an idle PING and `laterMs` the first one past its deadline. -/
theorem keepalive_kept (policy : LocalPolicy) (registry : PluginRegistry)
    (executor : Option (DeterministicExecutor EngineTask)) {before between : List Call}
    {nowMs laterMs : UInt64}
    (hregular : Along call Regular (make policy registry executor)
      (before ++ .advanceTime nowMs :: between ++ [.advanceTime laterMs]))
    (hfits : Along call IdleFits (make policy registry executor) (before ++ [.advanceTime nowMs]))
    (hping : (run call (make policy registry executor) before).PingsIdle nowMs)
    (hearly : ∀ time, .advanceTime time ∈ between → time.toNat < nowMs.toNat + kPongTimeoutMs.toNat)
    (hlate : nowMs.toNat + kPongTimeoutMs.toNat ≤ laterMs.toNat) :
    KeptAlive (run call (make policy registry executor) (before ++ [.advanceTime nowMs])) nowMs between
      laterMs := by
  rw [List.append_assoc, List.cons_append, along_append] at hregular
  obtain ⟨hbefore, hping', hregular⟩ := hregular
  obtain ⟨hbetween, hlast, -⟩ := along_append.mp hregular
  obtain ⟨hfitsBefore, hfitsPing, -⟩ := along_append.mp hfits
  have htended := (tended_run (.inr (make_tended policy registry executor)) hbefore
    hfitsBefore).resolve_left hping'.1
  obtain ⟨hclock, hwaiting⟩ := htended.pings hping'.1 hfitsPing hping
  have hend := (waiting_run (.inr hwaiting) hclock hbetween hearly).resolve_left hlast.1
  obtain ⟨hnone, hsome⟩ := hend.advance_late hlate
  have hsent : run call (make policy registry executor) (before ++ [.advanceTime nowMs]) =
      ((run call (make policy registry executor) before).advanceTime nowMs).2 := run_append _ _ _
  rw [hsent]
  constructor
  · intro hreceived
    exact hnone (by simpa [settled, Option.filter] using hreceived)
  · intro hmissed
    exact hsome (by simpa [settled, Option.filter] using hmissed)

/-- A PONG as the peer writes it. -/
def pongBytes (token : UInt64) : Bytes := frameBytes { type := .pong, payload := u64Bytes token }

theorem keepalive_kept_answered :
    KeptAlive (run call (make {} echoRegistry none) (negotiation {} ++ [.advanceTime 30000])) 30000
      [.receive (pongBytes 30000) false] 35000 :=
  keepalive_kept {} echoRegistry none (by decide +kernel) (by decide +kernel) (by decide +kernel)
    (by simp) (by decide)

/-- So near the end of the clock the next idle timer is due at once, and so before the deadline: its PING
takes the place of the one that has been answered. -/
theorem keepalive_wraps :
    (Along call Regular (make {} echoRegistry none) (negotiation {} ++ .advanceTime 18446744073709531616 ::
      [.receive (pongBytes 18446744073709531616) false] ++ [.advanceTime 18446744073709536616]) ∧
      (run call (make {} echoRegistry none) (negotiation {})).PingsIdle 18446744073709531616) ∧
    ¬ KeptAlive (run call (make {} echoRegistry none) (negotiation {} ++
      [.advanceTime 18446744073709531616])) 18446744073709531616
      [.receive (pongBytes 18446744073709531616) false] 18446744073709536616 := by
  refine ⟨by decide +kernel, fun h => ?_⟩
  have hclosed := (h.1 (by decide +kernel)).2
  revert hclosed
  decide +kernel

end ConnectionEngine

end LatticeGateway

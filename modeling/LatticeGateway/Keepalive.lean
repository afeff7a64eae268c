import LatticeGateway.EmissionTrace
import LatticeGateway.KeepaliveTimers

namespace LatticeGateway

namespace ConnectionEngine

/-- The alarms that can stand in the wheel at one time, in the order in which they fire. -/
inductive AlarmShape : List (TimerKind × UInt64) → Prop
  | none : AlarmShape []
  | idle (dueMs : UInt64) : AlarmShape [(.idle, dueMs)]
  | both (deadlineMs dueMs : UInt64) : AlarmShape [(.pongDeadline, deadlineMs), (.idle, dueMs)]

theorem AlarmShape.tail {alarm : TimerKind × UInt64} {alarms : List (TimerKind × UInt64)}
    (h : AlarmShape (alarm :: alarms)) : AlarmShape alarms := by
  cases h with
  | idle => exact .none
  | both deadlineMs dueMs => exact .idle dueMs

theorem AlarmShape.of_idle {dueMs : UInt64} {alarms : List (TimerKind × UInt64)}
    (h : AlarmShape ((.idle, dueMs) :: alarms)) : alarms = [] := by
  cases h
  rfl

/-- The keepalive of an engine that is not closed, with the timers that it has still to handle. -/
structure Tended (timers : List TimerEvent) (e : ConnectionEngine) : Prop where
  ordered : e.timers.Ordered
  kinds : ∀ t ∈ timers ++ e.timers.timers, t.kind ≠ .retry ∧ t.kind ≠ .drain
  early : e.Early → alarms (timers ++ e.timers.timers) = []
  draining : e.state ≠ .draining
  shape : AlarmShape (alarms (timers ++ e.timers.timers))

section

variable {e e' : ConnectionEngine} {timers : List TimerEvent} {timer : TimerEvent}

theorem Tended.of_unclocked (h : Tended timers e) (hstate : e'.state = e.state)
    (htimers : e'.timers = e.timers) : Tended timers e' where
  ordered := htimers ▸ h.ordered
  kinds := htimers ▸ h.kinds
  early hearly := by
    rw [htimers]
    refine h.early ?_
    unfold Early at hearly ⊢
    rwa [hstate] at hearly
  draining := hstate ▸ h.draining
  shape := htimers ▸ h.shape

/-- The next timer is dropped or done with. -/
theorem Tended.tail (h : Tended (timer :: timers) e) : Tended timers e where
  ordered := h.ordered
  kinds t ht := h.kinds t (List.mem_cons_of_mem _ ht)
  early hearly := by
    have hnone := alarms_eq_nil.mp (h.early hearly)
    exact alarms_of_other fun t ht => hnone t (List.mem_cons_of_mem _ ht)
  draining := h.draining
  shape := by
    have hshape := h.shape
    rw [List.cons_append] at hshape
    cases halarm : timer.isAlarm with
    | true => exact (alarms_cons_alarm halarm _ ▸ hshape).tail
    | false => exact alarms_cons_other halarm _ ▸ hshape

/-- A call that fails leaves its remaining timers unhandled. -/
theorem Tended.drop (h : Tended timers e) : Tended [] e := by
  induction timers with
  | nil => exact h
  | cons timer timers ih => exact ih h.tail

theorem Tended.move (h : Tended [] e) (hmove : ClockMove e e') : Tended [] e' := by
  have hother : ∀ {kind : TimerKind} {channel : ChannelId} {dueMs : UInt64},
      kind ≠ .retry ∧ kind ≠ .drain → e'.timers = (e.timers.schedule kind channel dueMs).2 →
      ∀ t ∈ [] ++ e'.timers.timers, t.kind ≠ .retry ∧ t.kind ≠ .drain := by
    intro kind channel dueMs hkind htimers t ht
    rw [List.nil_append, htimers] at ht
    rcases TimerWheel.mem_schedule ht with ht | ht
    · exact h.kinds t ht
    · rw [ht]
      exact hkind
  cases hmove with
  | still hstate htimers => exact h.of_unclocked hstate htimers
  | started dueMs hcreated hstate htimers =>
    have hnone : alarms ([] ++ e'.timers.timers) = [] := by
      rw [List.nil_append, htimers, h.ordered.schedule_other (by decide) (by decide)]
      exact h.early (.inl hcreated)
    refine ⟨?_, hother (by decide) htimers, fun _ => hnone, by rw [hstate]; decide, hnone ▸ .none⟩
    rw [htimers]
    exact TimerWheel.schedule_ordered _ _ _ _
  | greeted dueMs hnegotiating hstate htimers =>
    refine ⟨?_, hother (by decide) htimers, ?_, by rw [hstate]; decide, ?_⟩
    · rw [htimers]
      exact TimerWheel.schedule_ordered _ _ _ _
    · unfold Early
      rw [hstate]
      rintro (hearly | hearly) <;> cases hearly
    · rw [List.nil_append, htimers,
        TimerWheel.schedule_first (.inl rfl) (h.early (.inr hnegotiating))]
      exact .idle dueMs
  | gap id dueMs hstate htimers =>
    have hsame : alarms ([] ++ e'.timers.timers) = alarms ([] ++ e.timers.timers) := by
      rw [List.nil_append, htimers, h.ordered.schedule_other (by decide) (by decide)]
      rfl
    refine ⟨?_, hother (by decide) htimers, ?_, hstate ▸ h.draining, hsame ▸ h.shape⟩
    · rw [htimers]
      exact TimerWheel.schedule_ordered _ _ _ _
    · unfold Early
      rw [hstate, hsame]
      exact h.early
  | resumed hstate htimers =>
    refine ⟨htimers ▸ h.ordered, htimers ▸ h.kinds, ?_, by rw [hstate]; decide, htimers ▸ h.shape⟩
    unfold Early
    rw [hstate]
    rintro (hearly | hearly) <;> cases hearly

end

/-- The engine that has sent an idle PING at `nowMs`: what is pending, and when the PONG is due. -/
structure Waiting (nowMs : UInt64) (pending : Option UInt64) (e : ConnectionEngine) : Prop where
  ordered : e.timers.Ordered
  kinds : ∀ t ∈ e.timers.timers, t.kind ≠ .retry ∧ t.kind ≠ .drain
  active : e.state = .active
  wheel : alarms e.timers.timers =
    [(.pongDeadline, nowMs + kPongTimeoutMs), (.idle, nowMs + kIdlePingMs)]
  pending : e.pendingPongToken = pending

theorem Waiting.of_unclocked {nowMs : UInt64} {pending : Option UInt64} {e e' : ConnectionEngine}
    (h : Waiting nowMs pending e) (hsame : Unclocked e e') : Waiting nowMs pending e' :=
  ⟨hsame.timers ▸ h.ordered, hsame.timers ▸ h.kinds, hsame.state.trans h.active,
    hsame.timers ▸ h.wheel, hsame.pendingPongToken.trans h.pending⟩

theorem Waiting.move {nowMs : UInt64} {pending : Option UInt64} {tokens : List UInt64}
    {e e' : ConnectionEngine} (h : Waiting nowMs pending e) (hmove : ClockMove e e')
    (hpending : e'.pendingPongToken = settled e.pendingPongToken tokens) :
    Waiting nowMs (settled pending tokens) e' := by
  rw [h.pending] at hpending
  have hactive := h.active
  cases hmove with
  | still hstate htimers =>
    exact ⟨htimers ▸ h.ordered, htimers ▸ h.kinds, hstate.trans hactive, htimers ▸ h.wheel, hpending⟩
  | started _ hcreated =>
    rw [hactive] at hcreated
    cases hcreated
  | greeted _ hnegotiating =>
    rw [hactive] at hnegotiating
    cases hnegotiating
  | gap id dueMs hstate htimers =>
    refine ⟨?_, ?_, hstate.trans hactive, ?_, hpending⟩
    · rw [htimers]
      exact TimerWheel.schedule_ordered _ _ _ _
    · intro t ht
      rw [htimers] at ht
      rcases TimerWheel.mem_schedule ht with ht | ht
      · exact h.kinds t ht
      · rw [ht]
        decide
    · rw [htimers, h.ordered.schedule_other (by decide) (by decide)]
      exact h.wheel
  | resumed hstate htimers =>
    exact ⟨htimers ▸ h.ordered, htimers ▸ h.kinds, hstate, htimers ▸ h.wheel, hpending⟩

def eventTokens : DecodeEvent → List UInt64
  | .frame frame => pongTokens frame
  | _ => []

/-- An event either closes the connection by an error or is one move. -/
theorem handleEvent_clock (e : ConnectionEngine) {event : DecodeEvent}
    (hgoaway : ∀ frame, event = .frame frame → frame.type ≠ .goaway) :
    ((∃ error, (e.handleEvent event).1 = .error error) ∧ (e.handleEvent event).2.state = .closed) ∨
      ClockMove e (e.handleEvent event).2 ∧
        (e.handleEvent event).2.pendingPongToken = settled e.pendingPongToken (eventTokens event) := by
  cases event with
  | needMore => exact .inr ⟨.still rfl rfl, (settled_nil _).symm⟩
  | error error => exact .inl ⟨⟨error, rfl⟩, rfl⟩
  | frame frame =>
    obtain ⟨hmove, hpending⟩ := handleFrame_clock e (hgoaway frame rfl)
    unfold handleEvent
    dsimp only
    split
    next error e' h =>
      rw [h] at hmove hpending
      split
      next => exact .inl ⟨⟨error, rfl⟩, rfl⟩
      next =>
        refine .inr ⟨?_, hpending⟩
        cases hmove with
        | still hstate htimers => exact .still hstate htimers
        | started dueMs hcreated hstate htimers => exact .started dueMs hcreated hstate htimers
        | greeted dueMs hnegotiating hstate htimers => exact .greeted dueMs hnegotiating hstate htimers
        | gap id dueMs hstate htimers => exact .gap id dueMs hstate htimers
        | resumed hstate htimers => exact .resumed hstate htimers
    next h =>
      rw [h] at hmove hpending
      exact .inr ⟨hmove, hpending⟩

/-- The tokens of the PONGs among the frames that are handled. -/
def handledTokens (events : List DecodeEvent) (e : ConnectionEngine) : List UInt64 :=
  (handled events e).flatMap fun p => pongTokens p.2

theorem handledTokens_error {e e' : ConnectionEngine} {event : DecodeEvent} {error : Error}
    (h : e.handleEvent event = (.error error, e')) (events : List DecodeEvent) :
    handledTokens (event :: events) e = eventTokens event := by
  unfold handledTokens handled
  rw [h]
  cases event <;> simp [eventTokens]

theorem handledTokens_ok {e e' : ConnectionEngine} {event : DecodeEvent} {produced : List Bytes}
    (h : e.handleEvent event = (.ok produced, e')) (events : List DecodeEvent) :
    handledTokens (event :: events) e = eventTokens event ++ handledTokens events e' := by
  unfold handledTokens
  conv_lhs => unfold handled
  rw [h]
  cases event <;> simp [eventTokens]

/-- The tokens of the PONGs that a call receives. -/
def pongsOf (e : ConnectionEngine) : Call → List UInt64
  | .receive bytes eof => handledTokens (e.decoded bytes eof).1 (e.decoded bytes eof).2
  | _ => []

/-- The call neither sends a GOAWAY nor handles one that it receives. -/
def NoGoaway (e : ConnectionEngine) : Call → Prop
  | .goaway => False
  | .receive bytes eof =>
    ∀ p ∈ handled (e.decoded bytes eof).1 (e.decoded bytes eof).2, p.2.type ≠ .goaway
  | _ => True

section

variable {I : List UInt64 → ConnectionEngine → Prop} (hI : ∀ {tokens more e e'}, I tokens e →
  ClockMove e e' → e'.pendingPongToken = settled e.pendingPongToken more → I (tokens ++ more) e')

include hI

theorem receiveLoop_clock {events : List DecodeEvent} {e : ConnectionEngine} {tokens : List UInt64}
    (he : I tokens e) (hgoaway : ∀ p ∈ handled events e, p.2.type ≠ .goaway) (out : List Bytes) :
    (receiveLoop events e out).2.state = .closed ∨
      I (tokens ++ handledTokens events e) (receiveLoop events e out).2 := by
  induction events generalizing e tokens out with
  | nil => exact .inr (by simpa [handledTokens, handled, receiveLoop] using he)
  | cons event events ih =>
    have hhead : ∀ frame, event = .frame frame → frame.type ≠ .goaway := by
      rintro frame rfl
      exact hgoaway (e, frame) (by simp [handled])
    have hstep := handleEvent_clock e hhead
    unfold receiveLoop
    rcases h : e.handleEvent event with ⟨error | produced, e'⟩
    · rw [h] at hstep
      rw [handledTokens_error h]
      rcases hstep with ⟨-, hclosed⟩ | ⟨hmove, hpending⟩
      · exact .inl hclosed
      · exact .inr (hI he hmove hpending)
    · rw [h] at hstep
      rw [handledTokens_ok h, ← List.append_assoc]
      rcases hstep with ⟨⟨_, herror⟩, -⟩ | ⟨hmove, hpending⟩
      · cases herror
      · refine ih (hI he hmove hpending) (fun p hp => hgoaway p ?_) _
        unfold handled
        rw [h]
        exact List.mem_append_right _ hp

/-- What every move keeps is kept by a call without a GOAWAY that does not advance the time. -/
theorem call_clockwork {c : Call} {e : ConnectionEngine} {tokens : List UInt64} (he : I tokens e)
    (hgoaway : e.NoGoaway c) (hadvance : ∀ nowMs, c ≠ .advanceTime nowMs) :
    (e.call c).state = .closed ∨ I (tokens ++ e.pongsOf c) (e.call c) := by
  by_cases hreceive : ∃ bytes eof, c = .receive bytes eof
  · obtain ⟨bytes, eof, rfl⟩ := hreceive
    have hfeed : I (tokens ++ []) (e.decoded bytes eof).2 :=
      hI he (.still rfl rfl) (settled_nil _).symm
    rw [List.append_nil] at hfeed
    exact receiveLoop_clock hI hfeed hgoaway []
  · push Not at hreceive
    have hnone : e.pongsOf c = [] := by
      cases c with
      | receive bytes eof => exact absurd rfl (hreceive bytes eof)
      | _ => rfl
    obtain ⟨hmove, hpending⟩ := call_clock e hreceive (by rintro rfl; exact hgoaway) hadvance
    rw [hnone]
    exact .inr (hI he hmove (hpending.trans (settled_nil _).symm))

end

end ConnectionEngine

end LatticeGateway

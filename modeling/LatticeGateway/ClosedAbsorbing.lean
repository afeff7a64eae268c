import LatticeGateway.ReceiveSteps

namespace LatticeGateway

open Runs

namespace ConnectionEngine

/-- The frames that a closed engine answers by leaving the closed state. -/
def Reopens (e : ConnectionEngine) (frame : Frame) : Prop :=
  frame.type = .goaway ∨ frame.type = .resume ∧ e.Resumable frame

/-- The calls after which a closed engine is still closed. -/
def StaysClosed (e : ConnectionEngine) : Call → Prop
  | .goaway => False
  | .receive bytes eof =>
    ∀ p ∈ handled (e.decoded bytes eof).1 (e.decoded bytes eof).2, ¬ p.1.Reopens p.2
  | _ => True

theorem handleData_state (e : ConnectionEngine) (frame : Frame) :
    (e.handleData frame).2.state = e.state := by
  rcases handleData_effect e frame with h | ⟨_, h, _⟩
  · exact h.state
  · exact h

/-- Of all frames, exactly those that reopen take an engine out of the closed state. -/
theorem handleFrame_closed {e : ConnectionEngine} (h : e.state = .closed) (frame : Frame) :
    (e.handleFrame frame).2.state = .closed ↔ ¬ e.Reopens frame := by
  unfold handleFrame Reopens
  cases frame.type with
  | hello =>
    rcases handleHello_cases e frame with ⟨error, heq⟩ | ⟨_, _, hnegotiating, _⟩
    · simp [heq, h]
    · rw [h] at hnegotiating
      cases hnegotiating
  | «open» => simp [(handleOpen_quiet e frame).state, h]
  | data => simp [handleData_state, h]
  | ack => simp [(handleAck_quiet e frame).state, h]
  | credit => simp [(handleCredit_quiet e frame).state, h]
  | ping => simp [(handlePing_quiet e frame).state, h]
  | pong => simp [(handlePong_quiet e frame).state, h]
  | halfClose => simp [(handleHalfClose_quiet e frame).state, h]
  | reset => simp [(handleReset_quiet e frame).state, h]
  | goaway => simp [handleGoaway, record, scheduleTimer]
  | resume =>
    rcases handleResume_cases e frame with ⟨error, heq⟩ | ⟨hresumable, out, heq⟩
    · have hnot : ¬ e.Resumable frame := by
        rintro ⟨hcontrol, request, hrequest, hhash, hresume⟩
        unfold handleResume at heq
        rw [if_neg (by simp [hcontrol])] at heq
        simp [hrequest, hhash, hresume, ReplayWindow.retainedFrom] at heq
      simp [heq, h, hnot]
    · simp [heq, hresumable, record]

theorem handleEvent_closed {e : ConnectionEngine} (h : e.state = .closed) {event : DecodeEvent}
    (hframe : ∀ frame, event = .frame frame → ¬ e.Reopens frame) :
    (e.handleEvent event).2.state = .closed := by
  cases event with
  | needMore => exact h
  | error error => rfl
  | frame frame =>
    have hclosed := (handleFrame_closed h frame).mpr (hframe frame rfl)
    unfold handleEvent
    dsimp only
    split
    next heq =>
      rw [heq] at hclosed
      split
      next => rfl
      next => exact hclosed
    next heq =>
      rw [heq] at hclosed
      exact hclosed

theorem receiveLoop_closed {events : List DecodeEvent} {e : ConnectionEngine} (h : e.state = .closed)
    (hhandled : ∀ p ∈ handled events e, ¬ p.1.Reopens p.2) (out : List Bytes) :
    (receiveLoop events e out).2.state = .closed := by
  induction events generalizing e out with
  | nil => exact h
  | cons event events ih =>
    have hclosed : (e.handleEvent event).2.state = .closed := by
      apply handleEvent_closed h
      rintro frame rfl
      exact hhandled (e, frame) (by simp [handled])
    unfold receiveLoop
    split
    next heq =>
      rw [heq] at hclosed
      exact hclosed
    next e' heq =>
      rw [heq] at hclosed
      refine ih hclosed (fun p hp => hhandled p ?_) _
      simp [handled, heq, hp]

/-- Once closed, the timers that are left only leave their events. -/
theorem advanceLoop_closed (timers : List TimerEvent) {e : ConnectionEngine} (h : e.state = .closed)
    (out : List Bytes) : (advanceLoop timers e out).2.state = .closed := by
  induction timers generalizing e with
  | nil => exact h
  | cons timer timers ih =>
    have hrecord : (e.record .timerExpired timer.channel).state = .closed := h
    simp only [advanceLoop, if_pos hrecord]
    exact ih hrecord

theorem start_closed {e : ConnectionEngine} (h : e.state = .closed) : e.start.2 = e := by
  simp [start, h]

theorem call_closed {e : ConnectionEngine} {c : Call} (h : e.state = .closed)
    (hcall : e.StaysClosed c) : (e.call c).state = .closed := by
  cases c with
  | start => exact (congrArg ConnectionEngine.state (start_closed h)).trans h
  | receive bytes eof =>
    have hdecoded : (e.decoded bytes eof).2.state = .closed := h
    exact receiveLoop_closed hdecoded hcall []
  | openChannel request => exact (openChannel_quiet e request).state.trans h
  | send id payload => exact (send_quiet e id payload).state.trans h
  | grantCredit id amount => exact (emitFrame_quiet e _ _ _ _).state.trans h
  | acknowledge ranges => exact (acknowledge_quiet e ranges).state.trans h
  | ping token => exact (emitFrame_quiet e _ _ _ _).state.trans h
  | resume request => exact (emitFrame_quiet e _ _ _ _).state.trans h
  | completePlugin completion => exact (completePlugin_quiet e completion).state.trans h
  | advanceTime nowMs =>
    have hexpired : { e with nowMs, timers := (e.timers.expire nowMs).2 }.state = .closed := h
    exact advanceLoop_closed _ hexpired []
  | flushOutbound writableBytes => exact h
  | loadReplaySnapshot text => exact (loadReplaySnapshot_quiet e text).state.trans h
  | halfClose id direction => exact (halfClose_quiet e id direction).state.trans h
  | reset id => exact (reset_quiet e id).state.trans h
  | goaway => exact hcall.elim
  | submitTask shard result => exact h
  | cancelTask id => exact h
  | drainOne => exact (drainOne_quiet e).state.trans h
  | drainAll => exact (drainAllLoop_quiet _ e).state.trans h

end ConnectionEngine

open ConnectionEngine

/-- A closed engine stays closed through every run without a `goaway` call, a GOAWAY frame or a RESUME
frame that passes its checks, after each of its calls. -/
theorem closed_absorbing {e : ConnectionEngine} (h : e.state = .closed) (calls : List Call)
    (hcalls : Along call StaysClosed e calls) (k : Nat) :
    (run call e (calls.take k)).state = .closed := by
  have hprefix : Along call StaysClosed e (calls.take k) := by
    rw [← List.take_append_drop k calls] at hcalls
    exact (along_append.mp hcalls).1
  have hstep : ∀ (e : ConnectionEngine) c, e.state = .closed → e.StaysClosed c →
      (e.call c).state = .closed := fun _ _ hclosed hcall => call_closed hclosed hcall
  exact run_invariant hstep h hprefix

/-- An engine that a bad magic has closed, and calls it is offered after that. -/
theorem closed_absorbing_bad_magic :
    (run call (make {} {} none) [.receive (List.replicate 16 0) false, .ping 1]).state = .closed := by
  have hclosed : (run call (make {} {} none) [.receive (List.replicate 16 0) false]).state =
    .closed := by decide +kernel
  exact closed_absorbing hclosed [.ping 1] ⟨trivial, trivial⟩ 1

/-- `goaway` takes an engine that a bad magic has closed back to draining. -/
theorem goaway_reopens :
    (run call (make {} {} none) [.receive (List.replicate 16 0) false]).state = .closed ∧
      (run call (make {} {} none) [.receive (List.replicate 16 0) false, .goaway]).state ≠
        .closed := by
  decide +kernel

end LatticeGateway

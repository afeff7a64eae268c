import LatticeGateway.ReceiveSteps

namespace LatticeGateway

open Runs

theorem ChannelTable.reset_hit {t : ChannelTable} {id : ChannelId} {slot : ChannelSlot}
    (h : t.find id = some slot) :
    ∃ slot', (t.reset id).2.slot? id.number = some slot' ∧ slot'.state = .tombstone := by
  have hslot := (ChannelTable.find_eq_some.mp h).1
  unfold ChannelTable.reset
  rw [h]
  exact ⟨_, ChannelTable.slot?_setSlot hslot _, rfl⟩

theorem ChannelTable.reset_miss {t : ChannelTable} {id other : ChannelId} {slot : ChannelSlot}
    (h : t.slot? id.number = some slot) (hmiss : t.find other ≠ some slot ∨ other.number ≠ id.number) :
    (t.reset other).2.slot? id.number = some slot := by
  obtain ⟨error, hreset, _⟩ | ⟨found, hfind, hreset⟩ := t.reset_cases other <;> rw [hreset]
  · exact h
  · have hfound := (ChannelTable.find_eq_some.mp hfind).1
    by_cases hnumber : other.number = id.number
    · rw [hnumber, h] at hfound
      cases hfound
      rcases hmiss with hmiss | hmiss
      · exact absurd hfind hmiss
      · exact absurd hnumber hmiss
    · rw [ChannelTable.slot?_setSlot_ne t (Ne.symm hnumber) (ChannelTable.slot?_ne_zero hfound)]
      exact h

/-- A timer of another channel leaves a live slot alone. -/
theorem ChannelTable.reset_other {t : ChannelTable} {id other : ChannelId} {slot : ChannelSlot}
    (h : t.find id = some slot) (hother : other ≠ id) :
    (t.reset other).2.find id = some slot := by
  obtain ⟨hslot, hgeneration, hlive⟩ := ChannelTable.find_eq_some.mp h
  refine ChannelTable.find_eq_some.mpr ⟨ChannelTable.reset_miss hslot ?_, hgeneration, hlive⟩
  by_cases hnumber : other.number = id.number
  · left
    intro hfind
    have hgeneration' := (ChannelTable.find_eq_some.mp hfind).2.1
    apply hother
    calc other = ⟨other.number, other.generation⟩ := rfl
      _ = ⟨id.number, id.generation⟩ := by rw [hnumber, ← hgeneration', hgeneration]
  · exact .inr hnumber

/-- No timer changes a slot that is a tombstone. -/
theorem ChannelTable.reset_tombstone {t : ChannelTable} {number : UInt32} {slot : ChannelSlot}
    (h : t.slot? number = some slot) (hstate : slot.state = .tombstone) (other : ChannelId) :
    (t.reset other).2.slot? number = some slot := by
  refine @ChannelTable.reset_miss _ ⟨number, 0⟩ _ _ h (.inl ?_)
  intro hfind
  exact (ChannelSlot.live_iff.mp (ChannelTable.find_eq_some.mp hfind).2.2).2 hstate

namespace ConnectionEngine

/-- What the timers that follow find of the engine behind `timer`; `none` when it ends the call or
closes the connection. -/
def passTimer (e : ConnectionEngine) (timer : TimerEvent) : Option ConnectionEngine :=
  match timer.kind with
  | .handshake => if e.state = .negotiating then none else some e
  | .retry =>
    match e.replay.dueForRetry 3 with
    | (.error _, _) => none
    | (.ok _, replay) => some { e with replay }
  | .idle =>
    let token := if e.nowMs = 0 then 1 else e.nowMs
    match e.ping token with
    | (.error _, _) => none
    | (.ok _, e) => some { e with pendingPongToken := some token }
  | .pongDeadline => if e.pendingPongToken.isSome then none else some e
  | .drain => if e.state = .draining then none else some e
  | .fragmentGap => some e

/-- The due timers get as far as a fragment-gap timer of channel `id`. -/
def gapReached (id : ChannelId) : List TimerEvent → ConnectionEngine → Bool
  | [], _ => false
  | timer :: timers, e =>
    (timer.kind == .fragmentGap && timer.channel == id) ||
      (e.passTimer timer).any (gapReached id timers)

/-- Two engines that differ in nothing that `passTimer` reads. -/
structure TicksAlike (e e' : ConnectionEngine) : Prop extends SendsAlike e e' where
  state : e'.state = e.state
  pendingPongToken : e'.pendingPongToken = e.pendingPongToken
  nowMs : e'.nowMs = e.nowMs

theorem TicksAlike.trans {e e' e'' : ConnectionEngine} (h : TicksAlike e e') (h' : TicksAlike e' e'') :
    TicksAlike e e'' :=
  ⟨⟨h'.policy.trans h.policy, h'.limits.trans h.limits, h'.replay.trans h.replay,
    h'.scheduler.trans h.scheduler, h'.nextFrameSeq.trans h.nextFrameSeq⟩, h'.state.trans h.state,
    h'.pendingPongToken.trans h.pendingPongToken, h'.nowMs.trans h.nowMs⟩

/-- A ping from an engine that sends alike: both fail, or both leave engines that send alike. -/
theorem ping_alike {e e' : ConnectionEngine} (h : SendsAlike e e') (token : UInt64) :
    (∃ error sent sent', e.ping token = (.error error, sent) ∧ e'.ping token = (.error error, sent')) ∨
      ∃ bytes sent sent', e.ping token = (.ok bytes, sent) ∧ e'.ping token = (.ok bytes, sent') ∧
        SendsAlike sent sent' ∧ SentFrom e sent ∧ SentFrom e' sent' := by
  have hsent : SentFrom e (e.ping token).2 := emitFrame_sent e _ _ _ _
  have hsent' : SentFrom e' (e'.ping token).2 := emitFrame_sent e' _ _ _ _
  obtain ⟨hanswer, halike⟩ : (e'.ping token).1 = (e.ping token).1 ∧
    SendsAlike (e.ping token).2 (e'.ping token).2 := emitFrame_alike h _ _ _ _
  rcases hping : e.ping token with ⟨answer, sent⟩
  rcases hping' : e'.ping token with ⟨answer', sent'⟩
  rw [hping] at hanswer hsent halike
  rw [hping'] at hanswer hsent' halike
  obtain rfl : answer' = answer := hanswer
  cases answer' with
  | error error => exact .inl ⟨error, sent, sent', rfl, rfl⟩
  | ok bytes => exact .inr ⟨bytes, sent, sent', rfl, rfl, halike, hsent, hsent'⟩

theorem passTimer_alike {e e' : ConnectionEngine} (h : TicksAlike e e') (timer : TimerEvent) :
    Option.Rel TicksAlike (e.passTimer timer) (e'.passTimer timer) := by
  unfold passTimer
  cases timer.kind with
  | handshake =>
    dsimp only
    rw [h.state]
    split
    next => exact .none
    next => exact .some h
  | drain =>
    dsimp only
    rw [h.state]
    split
    next => exact .none
    next => exact .some h
  | pongDeadline =>
    dsimp only
    rw [h.pendingPongToken]
    split
    next => exact .none
    next => exact .some h
  | fragmentGap => exact .some h
  | retry =>
    dsimp only
    rw [h.replay]
    rcases e.replay.dueForRetry 3 with ⟨_ | _, replay⟩
    · exact .none
    · exact .some ⟨⟨h.policy, h.limits, rfl, h.scheduler, h.nextFrameSeq⟩, h.state,
        h.pendingPongToken, h.nowMs⟩
  | idle =>
    dsimp only
    rw [h.nowMs]
    generalize (if e.nowMs = 0 then (1 : UInt64) else e.nowMs) = token
    rcases ping_alike h.toSendsAlike token with ⟨error, sent, sent', hping, hping'⟩ |
      ⟨bytes, sent, sent', hping, hping', halike, hsent, hsent'⟩
    · rw [hping, hping']
      exact .none
    · rw [hping, hping']
      exact .some ⟨⟨halike.policy, halike.limits, halike.replay, halike.scheduler,
        halike.nextFrameSeq⟩, hsent'.state.trans (h.state.trans hsent.state.symm), rfl,
        hsent'.nowMs.trans (h.nowMs.trans hsent.nowMs.symm)⟩

theorem gapReached_alike (id : ChannelId) (timers : List TimerEvent) {e e' : ConnectionEngine}
    (h : TicksAlike e e') : gapReached id timers e' = gapReached id timers e := by
  induction timers generalizing e e' with
  | nil => rfl
  | cons timer timers ih =>
    have hpass := passTimer_alike h timer
    unfold gapReached
    generalize e.passTimer timer = passed at hpass ⊢
    generalize e'.passTimer timer = passed' at hpass ⊢
    cases hpass with
    | none => rfl
    | some h => simp only [Option.any_some, ih h]

/-- The engine after the handling of a timer, unless that ended the call or closed the connection. -/
def afterTimer (e : ConnectionEngine) (timer : TimerEvent) : Option ConnectionEngine :=
  match e.handleTimer timer with
  | (.error _, _) => none
  | (.ok _, e) => if e.state = .closed then none else some e

theorem afterTimer_alike {e : ConnectionEngine} (h : e.state ≠ .closed) (timer : TimerEvent) :
    Option.Rel TicksAlike (e.passTimer timer) (e.afterTimer timer) := by
  have hself : TicksAlike e e := ⟨⟨rfl, rfl, rfl, rfl, rfl⟩, rfl, rfl, rfl⟩
  unfold passTimer afterTimer handleTimer
  cases timer.kind with
  | handshake =>
    by_cases hstate : e.state = .negotiating
    · simp only [if_pos hstate]
      exact .none
    · simp only [if_neg hstate, if_neg h]
      exact .some hself
  | drain =>
    by_cases hstate : e.state = .draining
    · simp only [if_pos hstate, record]
      exact .none
    · simp only [if_neg hstate, if_neg h]
      exact .some hself
  | pongDeadline =>
    dsimp only
    by_cases hpending : e.pendingPongToken.isSome
    · simp only [if_pos hpending]
      exact .none
    · simp only [if_neg hpending, if_neg h]
      exact .some hself
  | fragmentGap =>
    cases e.channels with
    | none =>
      simp only [if_neg h]
      exact .some hself
    | some t =>
      have hreset : ({ e with channels := some (t.reset timer.channel).2 }.record .channelReset
        timer.channel).state ≠ .closed := h
      simp only [if_neg hreset]
      exact .some ⟨⟨rfl, rfl, rfl, rfl, rfl⟩, rfl, rfl, rfl⟩
  | retry =>
    dsimp only
    rcases e.replay.dueForRetry 3 with ⟨_ | _, replay⟩
    · exact .none
    · simp only [if_neg h]
      exact .some ⟨⟨rfl, rfl, rfl, rfl, rfl⟩, rfl, rfl, rfl⟩
  | idle =>
    dsimp only
    generalize (if e.nowMs = 0 then (1 : UInt64) else e.nowMs) = token
    have halike : SendsAlike e { e with pendingPongToken := some token } := ⟨rfl, rfl, rfl, rfl, rfl⟩
    rcases ping_alike halike token with ⟨error, sent, sent', hping, hping'⟩ |
      ⟨bytes, sent, sent', hping, hping', halike, hsent, hsent'⟩
    · rw [hping, hping']
      exact .none
    · rw [hping, hping']
      have hstate : sent'.state = e.state := hsent'.state
      have hopen : ((sent'.scheduleTimer .pongDeadline {} kPongTimeoutMs).scheduleTimer .idle {}
        kIdlePingMs).state ≠ .closed := by
        intro hclosed
        exact h (hstate.symm.trans hclosed)
      simp only [if_neg hopen]
      exact .some ⟨⟨halike.policy, halike.limits, halike.replay, halike.scheduler,
        halike.nextFrameSeq⟩, hsent'.state.trans hsent.state.symm, hsent'.pendingPongToken,
        hsent'.nowMs.trans hsent.nowMs.symm⟩

theorem handleTimer_channels (e : ConnectionEngine) {timer : TimerEvent}
    (h : timer.kind ≠ .fragmentGap) : (e.handleTimer timer).2.channels = e.channels := by
  unfold handleTimer
  cases hkind : timer.kind with
  | handshake => dsimp only; split <;> rfl
  | retry => dsimp only; split <;> rfl
  | pongDeadline => dsimp only; split <;> rfl
  | drain => dsimp only; split <;> rfl
  | fragmentGap => exact absurd hkind h
  | idle =>
    dsimp only
    generalize (if e.nowMs = 0 then (1 : UInt64) else e.nowMs) = token
    have hsent : SentFrom { e with pendingPongToken := some token }
        ({ e with pendingPongToken := some token }.ping token).2 := emitFrame_sent _ _ _ _ _
    split
    next hping => rw [hping] at hsent; exact hsent.channels
    next hping => rw [hping] at hsent; exact hsent.channels

theorem advanceLoop_closed_channels (timers : List TimerEvent) {e : ConnectionEngine}
    (h : e.state = .closed) (out : List Bytes) : (advanceLoop timers e out).2.channels = e.channels := by
  induction timers generalizing e with
  | nil => rfl
  | cons timer timers ih =>
    have hrecord : (e.record .timerExpired timer.channel).state = .closed := h
    simp only [advanceLoop, if_pos hrecord]
    exact ih hrecord

/-- One round of the loop of `advance_time`. -/
theorem advanceLoop_cons (timer : TimerEvent) (timers : List TimerEvent) {e : ConnectionEngine}
    (h : e.state ≠ .closed) (out : List Bytes) :
    (∃ e' out', (e.record .timerExpired timer.channel).afterTimer timer = some e' ∧
      (advanceLoop (timer :: timers) e out).2 = (advanceLoop timers e' out').2 ∧
      e'.state ≠ .closed ∧ e' = ((e.record .timerExpired timer.channel).handleTimer timer).2) ∨
    (e.record .timerExpired timer.channel).afterTimer timer = none ∧
      (advanceLoop (timer :: timers) e out).2.channels =
        ((e.record .timerExpired timer.channel).handleTimer timer).2.channels := by
  have hrecord : (e.record .timerExpired timer.channel).state ≠ .closed := h
  simp only [advanceLoop, if_neg hrecord, afterTimer]
  rcases (e.record .timerExpired timer.channel).handleTimer timer with ⟨_ | bytes, e'⟩
  · exact .inr ⟨rfl, rfl⟩
  · by_cases hclosed : e'.state = .closed
    · exact .inr ⟨if_pos hclosed, advanceLoop_closed_channels timers hclosed _⟩
    · exact .inl ⟨e', _, if_neg hclosed, rfl, hclosed, rfl⟩

/-- The slots after one timer: a fragment-gap timer resets its channel, any other leaves them alone. -/
theorem handleTimer_slots (e : ConnectionEngine) {t : ChannelTable} (ht : e.channels = some t)
    (timer : TimerEvent) : (e.handleTimer timer).2.channels =
      some (if timer.kind = .fragmentGap then (t.reset timer.channel).2 else t) := by
  split
  next hkind =>
    unfold handleTimer
    rw [hkind]
    simp only [ht]
    rfl
  next hkind => rw [handleTimer_channels e hkind, ht]

/-- A slot that is a tombstone stays as it is. -/
theorem advanceLoop_tombstone (timers : List TimerEvent) {e : ConnectionEngine} {t : ChannelTable}
    {number : UInt32} {slot : ChannelSlot} (ht : e.channels = some t)
    (hslot : t.slot? number = some slot) (hstate : slot.state = .tombstone) (out : List Bytes) :
    ∃ t', (advanceLoop timers e out).2.channels = some t' ∧ t'.slot? number = some slot := by
  induction timers generalizing e t out with
  | nil => exact ⟨t, ht, hslot⟩
  | cons timer timers ih =>
    by_cases hclosed : e.state = .closed
    · exact ⟨t, (advanceLoop_closed_channels _ hclosed out).trans ht, hslot⟩
    · have hslots := handleTimer_slots (e.record .timerExpired timer.channel) ht timer
      have hkept : (if timer.kind = .fragmentGap then (t.reset timer.channel).2 else t).slot? number =
          some slot := by
        split
        next => exact ChannelTable.reset_tombstone hslot hstate timer.channel
        next => exact hslot
      rcases advanceLoop_cons timer timers hclosed out with ⟨e', out', _, hloop, _, rfl⟩ | ⟨_, hend⟩
      · rw [hloop]
        exact ih hslots hkept out'
      · exact ⟨_, hend.trans hslots, hkept⟩

theorem gapReached_cons (id : ChannelId) (timer : TimerEvent) (timers : List TimerEvent)
    {e : ConnectionEngine} (h : e.state ≠ .closed) :
    gapReached id (timer :: timers) e = (timer.kind == .fragmentGap && timer.channel == id ||
      ((e.record .timerExpired timer.channel).afterTimer timer).any (gapReached id timers)) := by
  have halike : TicksAlike e (e.record .timerExpired timer.channel) :=
    ⟨⟨rfl, rfl, rfl, rfl, rfl⟩, rfl, rfl, rfl⟩
  have hpass := passTimer_alike halike timer
  have hafter := afterTimer_alike (e := e.record .timerExpired timer.channel) h timer
  unfold gapReached
  congr 1
  generalize (e.record .timerExpired timer.channel).afterTimer timer = after at hafter ⊢
  generalize (e.record .timerExpired timer.channel).passTimer timer = passed at hpass hafter
  generalize e.passTimer timer = passed' at hpass ⊢
  cases hpass with
  | none => cases hafter; rfl
  | some hpass =>
    cases hafter with
    | some hafter =>
      exact (gapReached_alike id timers (hpass.trans hafter)).symm

/-- A live slot becomes a tombstone when a fragment-gap timer of its channel is reached, and is left
alone otherwise. -/
theorem advanceLoop_live (timers : List TimerEvent) {e : ConnectionEngine} {t : ChannelTable}
    {id : ChannelId} {slot : ChannelSlot} (ht : e.channels = some t) (hfind : t.find id = some slot)
    (h : e.state ≠ .closed) (out : List Bytes) :
    ∃ t' slot', (advanceLoop timers e out).2.channels = some t' ∧
      t'.slot? id.number = some slot' ∧
      ((gapReached id timers e = true ∧ slot'.state = .tombstone) ∨
        (gapReached id timers e = false ∧ slot' = slot)) := by
  induction timers generalizing e t out with
  | nil => exact ⟨t, slot, ht, (ChannelTable.find_eq_some.mp hfind).1, .inr ⟨rfl, rfl⟩⟩
  | cons timer timers ih =>
    have hslots := handleTimer_slots (e.record .timerExpired timer.channel) ht timer
    rw [gapReached_cons id timer timers h]
    by_cases hgap : timer.kind = .fragmentGap ∧ timer.channel = id
    · obtain ⟨hkind, rfl⟩ := hgap
      obtain ⟨slot', hslot', hstate'⟩ := ChannelTable.reset_hit hfind
      rw [if_pos hkind] at hslots
      have hreached : (timer.kind == .fragmentGap && timer.channel == timer.channel ||
          ((e.record .timerExpired timer.channel).afterTimer timer).any
            (gapReached timer.channel timers)) = true := by simp [hkind]
      rcases advanceLoop_cons timer timers h out with ⟨e', out', _, hloop, _, rfl⟩ | ⟨_, hend⟩
      · obtain ⟨t', ht', hkept⟩ := advanceLoop_tombstone timers hslots hslot' hstate' out'
        exact ⟨t', slot', by rw [hloop]; exact ht', hkept, .inl ⟨hreached, hstate'⟩⟩
      · exact ⟨_, slot', hend.trans hslots, hslot', .inl ⟨hreached, hstate'⟩⟩
    · have hkept : (if timer.kind = .fragmentGap then (t.reset timer.channel).2 else t).find id =
          some slot := by
        split
        next hkind => exact ChannelTable.reset_other hfind fun heq => hgap ⟨hkind, heq⟩
        next => exact hfind
      have hfalse : (timer.kind == .fragmentGap && timer.channel == id) = false := by
        simpa using hgap
      rw [hfalse, Bool.false_or]
      rcases advanceLoop_cons timer timers h out with
        ⟨e', out', hsome, hloop, hopen, rfl⟩ | ⟨hnone, hend⟩
      · rw [hloop, hsome]
        exact ih hslots hkept hopen out'
      · rw [hnone]
        exact ⟨_, slot, hend.trans hslots, (ChannelTable.find_eq_some.mp hkept).1, .inr ⟨rfl, rfl⟩⟩

/-- A call of `advance_time` that gets as far as a due fragment-gap timer of channel `id`. -/
def GapDue (e : ConnectionEngine) (nowMs : UInt64) (id : ChannelId) : Prop :=
  e.state ≠ .closed ∧ gapReached id (e.timers.expire nowMs).1 { e with nowMs } = true

instance decidableGapDue (e : ConnectionEngine) (nowMs : UInt64) (id : ChannelId) :
    Decidable (e.GapDue nowMs id) := instDecidableAnd

/-- The state, the sequence counters and the flags of a slot are as they were. -/
def SlotUntouched (slot slot' : ChannelSlot) : Prop :=
  slot'.state = slot.state ∧ slot'.nextSendSeq = slot.nextSendSeq ∧
    slot'.nextRecvSeq = slot.nextRecvSeq ∧ slot'.localHalfClosed = slot.localHalfClosed ∧
    slot'.remoteHalfClosed = slot.remoteHalfClosed

theorem advanceTime_slot {e : ConnectionEngine} {t : ChannelTable} {id : ChannelId} {slot : ChannelSlot}
    (ht : e.channels = some t) (hfind : t.find id = some slot) (nowMs : UInt64) :
    ∃ t' slot', (e.advanceTime nowMs).2.channels = some t' ∧ t'.slot? id.number = some slot' ∧
      (SlotUntouched slot slot' ↔ ¬ e.GapDue nowMs id) := by
  let e₁ : ConnectionEngine := { e with nowMs, timers := (e.timers.expire nowMs).2 }
  have halike : TicksAlike { e with nowMs } e₁ := ⟨⟨rfl, rfl, rfl, rfl, rfl⟩, rfl, rfl, rfl⟩
  have hslot := (ChannelTable.find_eq_some.mp hfind).1
  have hlive := (ChannelTable.find_eq_some.mp hfind).2.2
  by_cases hclosed : e.state = .closed
  · refine ⟨t, slot, (advanceLoop_closed_channels (e := e₁) _ hclosed []).trans ht, hslot, ?_⟩
    simp [SlotUntouched, GapDue, hclosed]
  · obtain ⟨t', slot', ht', hslot', hcases⟩ :=
      advanceLoop_live (e.timers.expire nowMs).1 (e := e₁) ht hfind hclosed []
    rw [gapReached_alike id _ halike] at hcases
    refine ⟨t', slot', ht', hslot', ?_⟩
    rcases hcases with ⟨hreached, hstate⟩ | ⟨hreached, rfl⟩
    · have htouched : ¬ SlotUntouched slot slot' := by
        rintro ⟨hsame, _⟩
        exact (ChannelSlot.live_iff.mp hlive).2 (hsame.symm.trans hstate)
      simp [htouched, GapDue, hclosed, hreached]
    · simp [SlotUntouched, GapDue, hreached]

end ConnectionEngine

open ConnectionEngine

/-- In every state that a run reaches, `advance_time` leaves a live channel without an incomplete message
as it is, except when it gets as far as a due fragment-gap timer of that channel. -/
theorem advance_time_spares_complete_channel (policy : LocalPolicy) (registry : PluginRegistry)
    (executor : Option (DeterministicExecutor EngineTask)) (calls : List Call) (nowMs : UInt64)
    {t : ChannelTable} {id : ChannelId} {slot : ChannelSlot}
    (ht : (run call (make policy registry executor) calls).channels = some t)
    (hfind : t.find id = some slot) (_ : slot.reassembler.pending.keys = []) :
    (∃ t' slot', ((run call (make policy registry executor) calls).advanceTime nowMs).2.channels =
        some t' ∧ t'.slot? id.number = some slot' ∧ SlotUntouched slot slot') ↔
      ¬ (run call (make policy registry executor) calls).GapDue nowMs id := by
  obtain ⟨t', slot', ht', hslot', hiff⟩ := advanceTime_slot ht hfind nowMs
  rw [← hiff]
  constructor
  · rintro ⟨t'', slot'', ht'', hslot'', huntouched⟩
    rw [ht'] at ht''
    cases ht''
    rw [hslot'] at hslot''
    cases hslot''
    exact huntouched
  · exact fun huntouched => ⟨t', slot', ht', hslot', huntouched⟩

/-- A message of two bytes that arrives in two fragments. -/
def twoFragments : List Call :=
  let fragment (offset : Nat) : Frame :=
    { type := .data, channel := ⟨1, 1⟩, payload := [7], extensions := fragmentExtensions 1 offset 2 }
  [.receive (frameBytes (fragment 0)) false, .receive (frameBytes (fragment 1)) false]

/-- An engine that has received that message whole, on the one channel it has. -/
def wholeMessage : ConnectionEngine :=
  let openFrame : Frame := { type := .open, channel := ⟨1, 1⟩, payload := u32Bytes 7 ++ u32Bytes 0 }
  run call (make { maxChannels := 1 } echoRegistry none)
    (negotiation { maxChannels := 1 } ++ .receive (frameBytes openFrame) false :: twoFragments)

def wholeTable : ChannelTable := wholeMessage.channels.getD (.make 0 0 0)

def wholeSlot : ChannelSlot := (wholeTable.find ⟨1, 1⟩).getD { reassembler := { maxMessage := 0 } }

/-- What the engine holds, and what `advance_time` does to its channel once the timer is due. -/
theorem wholeMessage_computed :
    (wholeMessage.channels.isSome = true ∧ (wholeTable.find ⟨1, 1⟩).isSome = true) ∧
    (wholeSlot.reassembler.pending.keys = [] ∧ wholeSlot.state = .open) ∧
    ¬ wholeMessage.GapDue 999 ⟨1, 1⟩ ∧
    ((wholeMessage.advanceTime 1000).2.channels.bind fun t => (t.slot? 1).map (·.state)) =
      some .tombstone := by
  decide +kernel

theorem wholeMessage_channels : wholeMessage.channels = some wholeTable :=
  (Option.getD_of_ne_none (Option.isSome_iff_ne_none.mp wholeMessage_computed.1.1) _).symm

theorem wholeTable_find : wholeTable.find ⟨1, 1⟩ = some wholeSlot :=
  (Option.getD_of_ne_none (Option.isSome_iff_ne_none.mp wholeMessage_computed.1.2) _).symm

theorem advance_time_spares_complete_channel_early :
    ∃ t' slot', (wholeMessage.advanceTime 999).2.channels = some t' ∧ t'.slot? 1 = some slot' ∧
      SlotUntouched wholeSlot slot' := by
  obtain ⟨_, ⟨hcomplete, _⟩, hdue, _⟩ := wholeMessage_computed
  exact (advance_time_spares_complete_channel _ _ _ _ 999 wholeMessage_channels wholeTable_find
    hcomplete).mpr hdue

/-- One second after its first fragment, the timer of a message that is complete resets its channel. -/
theorem advance_time_resets_complete_channel :
    wholeMessage.channels = some wholeTable ∧ wholeTable.find ⟨1, 1⟩ = some wholeSlot ∧
      wholeSlot.reassembler.pending.keys = [] ∧
      ¬ ∃ t' slot', (wholeMessage.advanceTime 1000).2.channels = some t' ∧
        t'.slot? 1 = some slot' ∧ SlotUntouched wholeSlot slot' := by
  obtain ⟨_, ⟨hcomplete, hopen⟩, _, hreset⟩ := wholeMessage_computed
  refine ⟨wholeMessage_channels, wholeTable_find, hcomplete, ?_⟩
  rintro ⟨t', slot', ht', hslot', hstate, _⟩
  rw [ht', Option.bind_some, hslot', Option.map_some, hstate, hopen] at hreset
  cases hreset

end LatticeGateway

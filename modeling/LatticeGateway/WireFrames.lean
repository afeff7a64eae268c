import LatticeGateway.LoggedCalls
import LatticeGateway.StalledQueues

namespace LatticeGateway

open Runs BoundedLog ConnectionEngine

/-- The numbers of the DATA frames on channels of this number, whatever their generation. -/
def dataNumbers (frames : List Frame) (channelNo : UInt32) : List UInt32 :=
  (frames.filter fun frame => frame.type = .data ∧ frame.channel.number = channelNo).map (·.frameSeq)

/-- A frame that is behind these is no DATA frame, or the DATA frames of its channel number have been numbered
one after the other up to it. -/
def Frame.Continuous (before : List Frame) (frame : Frame) : Prop :=
  frame.type = .data → Consecutive 0 (dataNumbers before frame.channel.number ++ [frame.frameSeq])

instance (before : List Frame) (frame : Frame) : Decidable (frame.Continuous before) :=
  inferInstanceAs (Decidable (_ → _))

theorem dataNumbers_concat {frames : List Frame} {frame : Frame} (htype : frame.type = .data) :
    dataNumbers (frames ++ [frame]) frame.channel.number =
      dataNumbers frames frame.channel.number ++ [frame.frameSeq] := by
  simp [dataNumbers, htype]

theorem dataNumbers_other {frames : List Frame} {frame : Frame} {channelNo : UInt32}
    (h : frame.type = .data → frame.channel.number ≠ channelNo) :
    dataNumbers (frames ++ [frame]) channelNo = dataNumbers frames channelNo := by
  unfold dataNumbers
  rw [List.filter_append]
  by_cases htype : frame.type = .data
  · simp [htype, h htype]
  · simp [htype]

/-- After these frames nothing is queued on the channels that are numbered without a gap, and what comes next
there is expected; on the others something is queued. -/
structure OutboundScheduler.Paced (s : OutboundScheduler) (sent : List Frame) : Prop where
  stalled : s.Stalled
  steady : ∀ channelNo, Consecutive 0 (dataNumbers sent channelNo) → s.queue (some channelNo) = [] ∧
    s.expected channelNo = expectedBehind 0 (dataNumbers sent channelNo)
  broken : ∀ channelNo, ¬ Consecutive 0 (dataNumbers sent channelNo) → s.queue (some channelNo) ≠ []

namespace OutboundScheduler.Paced

variable {s s' : OutboundScheduler} {sent : List Frame} {frame : Frame}

theorem same (h : s.Paced sent) (hsame : SameQueues s s') : s'.Paced sent := by
  refine ⟨hsame.stalled h.stalled, fun channelNo hsteady => ?_, fun channelNo hbroken => ?_⟩
  · rw [hsame.queue, hsame.expected]
    exact h.steady channelNo hsteady
  · rw [hsame.queue]
    exact h.broken channelNo hbroken

/-- A frame that is no DATA frame changes nothing for the channels. -/
theorem controlled (h : s.Paced sent) (htype : frame.type ≠ .data) : s.Paced (sent ++ [frame]) := by
  have hother : ∀ channelNo, dataNumbers (sent ++ [frame]) channelNo = dataNumbers sent channelNo :=
    fun _ => dataNumbers_other fun hdata => absurd hdata htype
  refine ⟨h.stalled, fun channelNo hsteady => ?_, fun channelNo hbroken => ?_⟩
  · rw [hother] at hsteady ⊢
    exact h.steady channelNo hsteady
  · rw [hother] at hbroken
    exact h.broken channelNo hbroken

theorem passes_iff (h : s.Paced sent) (htype : frame.type = .data) :
    s.Passes frame.channel.number frame.frameSeq ↔ frame.Continuous sent := by
  unfold Frame.Continuous
  rw [consecutive_concat]
  constructor
  · rintro ⟨hempty, hnext⟩ _
    by_cases hsteady : Consecutive 0 (dataNumbers sent frame.channel.number)
    · rw [(h.steady _ hsteady).2] at hnext
      exact ⟨hsteady, hnext⟩
    · exact absurd hempty (h.broken _ hsteady)
  · intro hcontinuous
    obtain ⟨hsteady, hnext⟩ := hcontinuous htype
    obtain ⟨hempty, hexpected⟩ := h.steady _ hsteady
    exact ⟨hempty, by rwa [hexpected]⟩

/-- A DATA frame leaves the other channels alone. -/
theorem updated (h : s.Paced sent) (htype : frame.type = .data) {queue : List OutboundItem}
    {expected : UInt32} (hupdates : Updates s s' frame.channel.number queue expected) (hstalled : s'.Stalled)
    (hsteady : frame.Continuous sent → queue = [] ∧ expected = frame.frameSeq + 1)
    (hbroken : ¬ frame.Continuous sent → queue ≠ []) : s'.Paced (sent ++ [frame]) := by
  have hown : Consecutive 0 (dataNumbers (sent ++ [frame]) frame.channel.number) ↔ frame.Continuous sent := by
    rw [dataNumbers_concat htype]
    exact ⟨fun h _ => h, fun h => h htype⟩
  refine ⟨hstalled, fun channelNo hnumbers => ?_, fun channelNo hnumbers => ?_⟩
  all_goals
    rw [hupdates.queue]
    by_cases hchannel : channelNo = frame.channel.number
  · subst hchannel
    obtain ⟨rfl, rfl⟩ := hsteady (hown.mp hnumbers)
    rw [hupdates.expected, dataNumbers_concat htype, expectedBehind_concat, Function.update_self,
      Function.update_self]
    exact ⟨rfl, rfl⟩
  · rw [hupdates.expected, Function.update_of_ne (by simpa using hchannel), Function.update_of_ne hchannel]
    rw [dataNumbers_other fun _ => Ne.symm hchannel] at hnumbers ⊢
    exact h.steady channelNo hnumbers
  · subst hchannel
    rw [Function.update_self]
    exact hbroken fun h => hnumbers (hown.mpr h)
  · rw [Function.update_of_ne (by simpa using hchannel)]
    rw [dataNumbers_other fun _ => Ne.symm hchannel] at hnumbers
    exact h.broken channelNo hnumbers

/-- What a frame that is queued and flushed at once brings out. -/
theorem flushed (h : s.Paced sent) {encoded : Bytes} {queued : OutboundScheduler}
    (henqueue : s.enqueue (outboundItem frame encoded) = (.ok (), queued)) {writableBytes : Nat}
    (hlimit : s.byteLimit = writableBytes) :
    (queued.drain writableBytes).1 =
        (if frame.Continuous sent then [outboundItem frame encoded] else []) ∧
      (queued.drain writableBytes).2.byteLimit = s.byteLimit ∧
      (queued.drain writableBytes).2.Paced (sent ++ [frame]) := by
  have hfits := (enqueue_cases henqueue).2.1
  have hroom : (outboundItem frame encoded).encoded.length ≤ writableBytes := by omega
  by_cases htype : frame.type = .data
  · have hdata : (outboundItem frame encoded).priority = .data := by
      simp [outboundItem, isControlFrame, htype]
    obtain ⟨hsome, hcontrol, hadded⟩ := enqueue_data henqueue hdata
    rw [h.stalled.control] at hcontrol
    by_cases hcontinuous : frame.Continuous sent
    · have hpasses := (h.passes_iff htype).mpr hcontinuous
      have hempty : s.queue (some (outboundItem frame encoded).channel.number) = [] := hpasses.1
      rw [hempty, List.nil_append] at hadded
      obtain ⟨hout, hupdates⟩ := h.stalled.passes_data hadded hcontrol hsome hpasses.2 hroom
      rw [if_pos hcontinuous]
      refine ⟨hout, hupdates.byteLimit, h.updated htype hupdates ⟨?_, fun channelNo => ?_⟩
        (fun _ => ⟨rfl, rfl⟩) (absurd hcontinuous)⟩
      · exact (congrFun hupdates.queue none).trans h.stalled.control
      · by_cases hchannel : channelNo = frame.channel.number
        · subst hchannel
          have hnothing : (queued.drain writableBytes).2.queue (some frame.channel.number) = [] :=
            (congrFun hupdates.queue _).trans (Function.update_self ..)
          unfold Blocked
          rw [hnothing]
          exact fun _ hnone => absurd hnone (by simp)
        · exact (hupdates.blocked_other hchannel).mpr (h.stalled.blocked channelNo)
    · have hholds : ¬ s.Passes frame.channel.number frame.frameSeq := fun hpasses =>
        hcontinuous ((h.passes_iff htype).mp hpasses)
      obtain ⟨hout, hstalled, hupdates⟩ := h.stalled.holds_data hadded hcontrol hholds writableBytes
      rw [if_neg hcontinuous]
      exact ⟨hout, hupdates.byteLimit, h.updated htype hupdates hstalled
        (fun h => absurd h hcontinuous) fun _ => by simp⟩
  · have hcontrol : (outboundItem frame encoded).priority = .control := by
      simp [outboundItem, isControlFrame, htype]
    obtain ⟨hout, hsame⟩ := h.stalled.passes_control henqueue hcontrol hroom
    have hcontinuous : frame.Continuous sent := fun hdata => absurd hdata htype
    rw [if_pos hcontinuous]
    exact ⟨hout, hsame.byteLimit, (h.same hsame).controlled htype⟩

end OutboundScheduler.Paced

namespace ConnectionEngine

/-- The frames that `emit` has accepted. -/
def acceptedFrames (ps : List Emission) : List Frame := (ps.filter (·.Sent)).map Prod.snd

/-- The chunks that `emit` makes of a frame. -/
def Emission.said (p : Emission) : List Bytes := outbound (p.1.emit p.2).1

theorem sentFrames_append (ps qs : List Emission) :
    acceptedFrames (ps ++ qs) = acceptedFrames ps ++ acceptedFrames qs := by
  unfold acceptedFrames
  rw [List.filter_append, List.map_append]

/-- What the queue looks like when these frames have been accepted. -/
structure Paced (e : ConnectionEngine) (sent : List Frame) : Prop where
  scheduler : e.scheduler.Paced sent
  limit : e.scheduler.byteLimit = e.policy.connectionWindow

/-- A frame that is accepted goes out whole and at once if it continues those before it, and else not. -/
def Emission.GoesOut (p : Emission) (before : List Frame) : Prop :=
  p.Sent → ∃ encoded, p.1.codec.encode p.2 = .ok encoded ∧
    (p.1.emit p.2).1 = .ok (if p.2.Continuous before then [encoded] else [])

section

variable {e e' : ConnectionEngine} {sent : List Frame}

theorem Paced.unlogged (h : Paced e sent) (hsame : Unlogged e e') : Paced e' sent :=
  ⟨by rw [hsame.scheduler]; exact h.scheduler, by rw [hsame.scheduler, hsame.policy]; exact h.limit⟩

theorem Paced.flush (h : Paced e sent) (writableBytes : Nat) :
    (e.flushOutbound writableBytes).1 = [] ∧ Paced (e.flushOutbound writableBytes).2 sent := by
  obtain ⟨hnone, hsame⟩ := h.scheduler.stalled.drain writableBytes
  unfold flushOutbound
  exact ⟨by simp only [hnone, List.map_nil], h.scheduler.same hsame, hsame.byteLimit.trans h.limit⟩

theorem Paced.emit (h : Paced e sent) (frame : Frame) :
    Paced (e.emit frame).2 (sent ++ acceptedFrames [(e, frame)]) ∧ Emission.GoesOut (e, frame) sent := by
  have hresult : (∃ error, (e.emit frame).1 = .error error ∧ (e.emit frame).2.scheduler = e.scheduler) ∨
      ∃ encoded, e.codec.encode frame = .ok encoded ∧
        (e.emit frame).1 = .ok (if frame.Continuous sent then [encoded] else []) ∧
        (e.emit frame).2.scheduler.byteLimit = e.scheduler.byteLimit ∧
        (e.emit frame).2.scheduler.Paced (sent ++ [frame]) := by
    unfold ConnectionEngine.emit
    cases hencode : e.codec.encode frame with
    | error error => exact .inl ⟨error, rfl, rfl⟩
    | ok encoded =>
      dsimp only
      rcases e.replay.record 1 frame.frameSeq encoded with ⟨error | ⟨⟩, w⟩
      · exact .inl ⟨error, rfl, rfl⟩
      · dsimp only
        unfold queueEncoded flushOutbound
        rcases henqueue : e.scheduler.enqueue (outboundItem frame encoded) with ⟨error | ⟨⟩, queued⟩
        · exact .inl ⟨error, rfl, enqueue_error henqueue⟩
        · obtain ⟨hout, hbytes, hpaced⟩ := h.scheduler.flushed henqueue h.limit
          refine .inr ⟨encoded, rfl, ?_, hbytes, hpaced⟩
          simp only [hout]
          split <;> rfl
  have hpolicy := (emit_sent e frame).policy
  rcases hresult with ⟨error, herror, hscheduler⟩ | ⟨encoded, hencode, hok, hbytes, hpaced⟩
  · have hrefused : ¬ Emission.Sent (e, frame) := fun ⟨_, hsent⟩ => by rw [herror] at hsent; cases hsent
    have hnone : acceptedFrames [(e, frame)] = [] := by simp [acceptedFrames, hrefused]
    rw [hnone, List.append_nil]
    exact ⟨⟨by rw [hscheduler]; exact h.scheduler, by rw [hscheduler, hpolicy]; exact h.limit⟩,
      fun hsent => absurd hsent hrefused⟩
  · have hsent : Emission.Sent (e, frame) := ⟨_, hok⟩
    have hone : acceptedFrames [(e, frame)] = [frame] := by simp [acceptedFrames, hsent]
    rw [hone]
    exact ⟨⟨hpaced, hbytes.trans (h.limit.trans (by rw [hpolicy]))⟩, fun _ => ⟨encoded, hencode, hok⟩⟩

/-- Each of the frames goes out as those before it, here and earlier, allow. -/
def EachGoesOut (sent : List Frame) (ps : List Emission) : Prop :=
  ∀ before p after, ps = before ++ p :: after → p.GoesOut (sent ++ acceptedFrames before)

theorem EachGoesOut.append {ps qs : List Emission} (h : EachGoesOut sent ps)
    (h' : EachGoesOut (sent ++ acceptedFrames ps) qs) : EachGoesOut sent (ps ++ qs) := by
  intro before p after hsplit
  rcases List.append_eq_append_iff.mp hsplit with ⟨more, rfl, hqs⟩ | ⟨more, hps, hrest⟩
  · have hlater := h' more p after hqs
    rwa [List.append_assoc, ← sentFrames_append] at hlater
  · rcases more with _ | ⟨first, more⟩
    · rw [List.append_nil] at hps
      subst hps
      have hlater := h' [] p after hrest.symm
      rwa [show acceptedFrames [] = [] from rfl, List.append_nil] at hlater
    · obtain ⟨rfl, rfl⟩ := List.cons_eq_cons.mp hrest
      exact h before p more hps

theorem Notes.paced {ps : List Emission} {ns : List (Note LoggedFrame)} {out : List Bytes}
    (h : Notes e ps ns out e') (hpaced : Paced e sent) :
    Paced e' (sent ++ acceptedFrames ps) ∧ EachGoesOut sent ps ∧ (ps.flatMap Emission.said).Sublist out := by
  have hnothing : EachGoesOut sent [] := fun before p after hsplit => by simp at hsplit
  induction h generalizing sent with
  | same hsame =>
    rw [show acceptedFrames [] = [] from rfl, List.append_nil]
    exact ⟨hpaced.unlogged hsame, hnothing, List.nil_sublist _⟩
  | repeats _ hsame =>
    rw [show acceptedFrames [] = [] from rfl, List.append_nil]
    exact ⟨hpaced.unlogged hsame, hnothing, List.nil_sublist _⟩
  | acks | retries | spent =>
    rw [show acceptedFrames [] = [] from rfl, List.append_nil]
    exact ⟨⟨hpaced.scheduler, hpaced.limit⟩, hnothing, List.nil_sublist _⟩
  | flush writableBytes =>
    rw [show acceptedFrames [] = [] from rfl, List.append_nil]
    exact ⟨(hpaced.flush writableBytes).2, hnothing, List.nil_sublist _⟩
  | @emit e e' frame _ hsame =>
    have hnumbered : Paced { e with nextFrameSeq := e.nextFrameSeq + 1 } sent :=
      ⟨hpaced.scheduler, hpaced.limit⟩
    obtain ⟨hafter, hout⟩ := (hnumbered.unlogged hsame).emit frame
    refine ⟨hafter, fun before p after hsplit => ?_, ?_⟩
    · obtain ⟨rfl, hp⟩ : before = [] ∧ p = (e', frame) := by
        rcases before with _ | ⟨_, before⟩
        · exact ⟨rfl, (List.cons_eq_cons.mp hsplit).1.symm⟩
        · exact absurd (List.cons_eq_cons.mp hsplit).2 (by simp)
      rw [hp, show acceptedFrames [] = [] from rfl, List.append_nil]
      exact hout
    · rw [List.flatMap_singleton]
      exact List.Sublist.refl _
  | append _ _ ih ih' =>
    obtain ⟨hmiddle, hfirst, hsaid⟩ := ih hpaced hnothing
    obtain ⟨hlast, hsecond, hmore⟩ := ih' hmiddle fun before p after hsplit => by simp at hsplit
    rw [sentFrames_append, ← List.append_assoc, List.flatMap_append]
    exact ⟨hlast, hfirst.append hsecond, hsaid.append hmore⟩

theorem call_paced (h : Paced e sent) (c : Call) :
    Paced (e.call c) (sent ++ acceptedFrames (e.emissions c)) ∧ EachGoesOut sent (e.emissions c) ∧
      ∀ chunks, e.answer c = .ok chunks → ((e.emissions c).flatMap Emission.said).Sublist chunks := by
  by_cases hload : ∃ text, c = .loadReplaySnapshot text
  · obtain ⟨text, rfl⟩ := hload
    have hnone : e.emissions (.loadReplaySnapshot text) = [] := rfl
    rw [hnone, show acceptedFrames [] = [] from rfl, List.append_nil]
    refine ⟨?_, fun before p after hsplit => by simp at hsplit, fun _ _ => List.nil_sublist _⟩
    rcases loadReplaySnapshot_cases e text with ⟨_, hcase, _⟩ | ⟨_, _, _, ⟨_, hcase⟩ | ⟨_, hcase⟩⟩
    all_goals
      change Paced (e.loadReplaySnapshot text).2 sent
      rw [hcase]
      exact ⟨h.scheduler, h.limit⟩
  · obtain ⟨out, hnotes, hout⟩ := call_answers e fun text hc => hload ⟨text, hc⟩
    obtain ⟨hafter, heach, hsaid⟩ := hnotes.paced h
    refine ⟨hafter, heach, fun chunks hok => ?_⟩
    rw [hout chunks hok]
    exact hsaid

/-- Everything that the calls hand to `emit`. -/
def emitted (e : ConnectionEngine) : List Call → List Emission
  | [] => []
  | c :: calls => e.emissions c ++ emitted (e.call c) calls

theorem run_paced (h : Paced e sent) (calls : List Call) :
    Paced (run call e calls) (sent ++ acceptedFrames (emitted e calls)) ∧
      EachGoesOut sent (emitted e calls) := by
  induction calls generalizing e sent with
  | nil =>
    unfold emitted
    rw [show acceptedFrames [] = [] from rfl, List.append_nil]
    exact ⟨h, fun before p after hsplit => by simp at hsplit⟩
  | cons c calls ih =>
    obtain ⟨hafter, hfirst, _⟩ := call_paced h c
    obtain ⟨hlast, hrest⟩ := ih hafter
    unfold emitted
    rw [sentFrames_append, ← List.append_assoc]
    exact ⟨hlast, hfirst.append hrest⟩

end

theorem make_paced (policy : LocalPolicy) (registry : PluginRegistry)
    (executor : Option (DeterministicExecutor EngineTask)) : Paced (make policy registry executor) [] := by
  refine ⟨⟨⟨rfl, fun channelNo item hitem => ?_⟩, fun _ _ => ⟨rfl, rfl⟩, fun _ h => absurd trivial h⟩, rfl⟩
  cases hitem

/-- What a run puts on the wire, of all that it hands to `emit`. -/
structure OnWire (e : ConnectionEngine) (calls : List Call) : Prop where
  each : EachGoesOut [] (emitted e calls)
  handed : ∀ before c after, calls = before ++ c :: after → ∀ chunks,
    (run call e before).answer c = .ok chunks →
      (((run call e before).emissions c).flatMap Emission.said).Sublist chunks
  flushed : ∀ writableBytes, ((run call e calls).flushOutbound writableBytes).1 = []
  stuck : ∀ channelNo, ¬ Consecutive 0 (dataNumbers (acceptedFrames (emitted e calls)) channelNo) →
    (run call e calls).scheduler.queue (some channelNo) ≠ []

/-- Whatever is called, a frame that `emit` accepts goes out whole with the call that has emitted it, unless
it is a DATA frame and those of its channel number have not been numbered one after the other. Then it stays
in the queue, which no later call and no flush ever empties. -/
theorem frames_go_out (policy : LocalPolicy) (registry : PluginRegistry)
    (executor : Option (DeterministicExecutor EngineTask)) (calls : List Call) :
    OnWire (make policy registry executor) calls := by
  have hmake := make_paced policy registry executor
  refine ⟨(run_paced hmake calls).2, fun before c after _ => ?_, fun writableBytes => ?_, ?_⟩
  · exact (call_paced (run_paced hmake before).1 c).2.2
  · exact ((run_paced hmake calls).1.flush writableBytes).1
  · exact (run_paced hmake calls).1.scheduler.broken

/-- How many chunks each of the calls is answered with. -/
def chunkCounts (e : ConnectionEngine) : List Call → List Nat
  | [] => []
  | c :: calls => (outbound (e.answer c)).length :: chunkCounts (e.call c) calls

/-- Two messages, and a third behind a PING that takes the number which the channel is waiting for. -/
example : chunkCounts (make { maxChannels := 1 } echoRegistry none) (negotiation { maxChannels := 1 } ++
    [.openChannel {}, .send ⟨1, 1⟩ [104], .send ⟨1, 1⟩ [105], .ping 9, .send ⟨1, 1⟩ [33],
      .flushOutbound 1000]) = [1, 0, 1, 1, 1, 1, 0, 0] := by
  decide +kernel

end ConnectionEngine

end LatticeGateway

import LatticeGateway.ConcurrentOpens
import LatticeGateway.EngineBuffer
import LatticeGateway.SilentPeer
import LatticeGateway.WireFrames

namespace LatticeGateway

open Runs

namespace ConnectionEngine

/-- A PING or a PONG. -/
def keepaliveFrame (type : FrameType) (frameSeq : UInt32) (token : UInt64) : Frame :=
  { type, frameSeq, payload := u64Bytes token }

theorem keepaliveFrame_small (type : FrameType) (frameSeq : UInt32) (token : UInt64) :
    (keepaliveFrame type frameSeq token).Small :=
  ⟨rfl, show (0 : UInt32) ≤ kMaxChannelNo by decide, rfl, Nat.le_of_eq (length_u64Bytes token)⟩

theorem decodeU64Be_bytes (token : UInt64) : decodeU64Be (u64Bytes token) = .ok token := by
  unfold decodeU64Be
  rw [if_neg (not_not.mpr (length_u64Bytes token)), u64Of_u64Bytes]

/-- Between two frames, what another codec has written of a frame is that frame, or an error. -/
theorem decoded_chunk {e : ConnectionEngine} (h : e.codec.Clear) {writer : FrameCodec}
    (hheader : writer.limits.maxHeader = 4096) {frame : Frame} {encoded : Bytes} (hsmall : frame.Small)
    (hencode : writer.encode frame = .ok encoded) :
    e.decoded encoded false = ([.frame frame], e) ∨
      ∃ error, (e.decoded encoded false).1 = [.error error] := by
  have hemptied : ({ writer with buffer := [] } : FrameCodec).Clear := ⟨rfl, hheader⟩
  by_cases hsize : encoded.length ≤ e.codec.limits.maxFrame
  · have hsame := FrameCodec.encode_relimit hencode (by rw [hheader, h.header]) hsize
    have hfeed := h.feed_one hsame hsmall.known
    rw [hsmall.canonical] at hfeed
    unfold decoded
    rw [hfeed]
    exact .inl rfl
  · exact .inr (h.feed_large hemptied hencode (Nat.lt_of_not_le hsize))

theorem receive_undecoded {e : ConnectionEngine} {bytes : Bytes} {error : Error}
    (h : (e.decoded bytes false).1 = [.error error]) :
    (e.receive bytes false).1 = .error error ∧ (e.receive bytes false).2.state = .closed := by
  rw [receive_eq, h]
  exact ⟨rfl, rfl⟩

theorem receive_decoded {e : ConnectionEngine} {bytes : Bytes} {frame : Frame} {produced : List Bytes}
    (h : e.decoded bytes false = ([.frame frame], e)) (hok : (e.receive bytes false).1 = .ok produced) :
    (e.handleFrame frame).1 = .ok produced := by
  rw [receive_eq, h] at hok
  unfold receiveLoop handleEvent at hok
  dsimp only at hok
  rcases hhandled : e.handleFrame frame with ⟨error | out, e'⟩
  · rw [hhandled] at hok
    cases hok
  · rw [hhandled] at hok
    exact hok

theorem handleFrame_ping (e : ConnectionEngine) (frameSeq : UInt32) (token : UInt64) :
    e.handleFrame (keepaliveFrame .ping frameSeq token) = e.emitFrame .pong {} (u64Bytes token) := by
  change e.handlePing _ = _
  unfold handlePing keepaliveFrame
  dsimp only
  rw [if_neg (show ¬ ({} : ChannelId).isControl = false by decide), decodeU64Be_bytes]

theorem frameEmissions_ping (e : ConnectionEngine) (frameSeq : UInt32) (token : UInt64) :
    frameEmissions (e, keepaliveFrame .ping frameSeq token) = [e.framed .pong {} (u64Bytes token)] := by
  unfold frameEmissions keepaliveFrame
  dsimp only
  rw [if_neg (show ¬ ({} : ChannelId).isControl = false by decide), decodeU64Be_bytes]

theorem pongTokens_pong (frameSeq : UInt32) (token : UInt64) :
    pongTokens (keepaliveFrame .pong frameSeq token) = [token] := by
  unfold pongTokens keepaliveFrame
  rw [if_pos ⟨rfl, show ({} : ChannelId).isControl = true by decide⟩]
  dsimp only
  rw [decodeU64Be_bytes]

theorem handled_first {frame : Frame} (events : List DecodeEvent) (e : ConnectionEngine) :
    (e, frame) ∈ handled (.frame frame :: events) e := by
  unfold handled
  exact List.mem_append_left _ (List.mem_singleton.mpr rfl)

section

variable {e : ConnectionEngine} {writer : FrameCodec} {frameSeq : UInt32} {token : UInt64}
  {encoded : Bytes}

/-- An engine that takes a PING well answers it with what it emits of its PONG. -/
theorem receive_ping (h : e.codec.Clear) (hheader : writer.limits.maxHeader = 4096)
    (hencode : writer.encode (keepaliveFrame .ping frameSeq token) = .ok encoded) {answers : List Bytes}
    (hok : (e.receive encoded false).1 = .ok answers) : ∃ p ∈ e.emissions (.receive encoded false),
      p.1.codec = e.codec ∧ p.2 = keepaliveFrame .pong p.2.frameSeq token ∧
        (p.1.emit p.2).1 = .ok answers := by
  rcases decoded_chunk h hheader (keepaliveFrame_small .ping frameSeq token) hencode with
    hframe | ⟨error, herror⟩
  · refine ⟨e.framed .pong {} (u64Bytes token), ?_, rfl, rfl, ?_⟩
    · change _ ∈ (handled (e.decoded encoded false).1 (e.decoded encoded false).2).flatMap frameEmissions
      rw [hframe]
      refine List.mem_flatMap.mpr ⟨_, handled_first _ _, ?_⟩
      rw [frameEmissions_ping]
      exact List.mem_singleton.mpr rfl
    · have hhandled := receive_decoded hframe hok
      rw [handleFrame_ping] at hhandled
      exact hhandled
  · rw [(receive_undecoded herror).1] at hok
    cases hok

/-- A PONG that comes in while the engine stays open. -/
theorem receive_pong (h : e.codec.Clear) (hheader : writer.limits.maxHeader = 4096)
    (hencode : writer.encode (keepaliveFrame .pong frameSeq token) = .ok encoded)
    (hopen : (e.receive encoded false).2.state ≠ .closed) :
    token ∈ e.pongsOf (.receive encoded false) := by
  rcases decoded_chunk h hheader (keepaliveFrame_small .pong frameSeq token) hencode with
    hframe | ⟨error, herror⟩
  · change _ ∈ (handled (e.decoded encoded false).1 (e.decoded encoded false).2).flatMap _
    rw [hframe]
    refine List.mem_flatMap.mpr ⟨_, handled_first _ _, ?_⟩
    rw [pongTokens_pong]
    exact List.mem_singleton.mpr rfl
  · exact absurd (receive_undecoded herror).2 hopen

theorem handleTimer_nowMs (e : ConnectionEngine) (timer : TimerEvent) :
    (e.handleTimer timer).2.nowMs = e.nowMs := by
  unfold handleTimer
  cases timer.kind with
  | idle =>
    have hsent := emitFrame_nowMs { e with pendingPongToken := some (idleToken e.nowMs) } .ping {}
      (u64Bytes (idleToken e.nowMs)) []
    unfold idleToken at hsent
    unfold ping
    dsimp only
    split
    all_goals
      next hemit =>
        rw [hemit] at hsent
        exact hsent
  | handshake | drain | pongDeadline | fragmentGap | retry =>
    dsimp only
    split
    all_goals rfl

/-- The engines that meet the timers are at the time of `advance_time`, with the codec of before. -/
theorem met_same {timers : List TimerEvent} {p : ConnectionEngine × TimerEvent}
    (h : p ∈ timersMet timers e) : p.1.nowMs = e.nowMs ∧ p.1.codec = e.codec := by
  induction timers generalizing e with
  | nil => exact absurd h List.not_mem_nil
  | cons timer timers ih =>
    have hnow := handleTimer_nowMs (e.record .timerExpired timer.channel) timer
    have hcodec := handleTimer_codec (e.record .timerExpired timer.channel) timer
    unfold timersMet at h
    dsimp only at h
    by_cases hclosed : (e.record .timerExpired timer.channel).state = .closed
    · rw [if_pos hclosed] at h
      exact @ih (e.record .timerExpired timer.channel) h
    · rw [if_neg hclosed] at h
      rcases List.mem_cons.mp h with rfl | h
      · exact ⟨rfl, rfl⟩
      · rcases hhandled : (e.record .timerExpired timer.channel).handleTimer timer with ⟨_ | _, e'⟩
        all_goals rw [hhandled] at h hnow hcodec
        · exact absurd h List.not_mem_nil
        · exact ⟨(ih h).1.trans hnow, (ih h).2.trans hcodec⟩

/-- A timer that is neither a retry nor idle puts nothing out. -/
theorem handleTimer_quiet {timer : TimerEvent} (hretry : timer.kind ≠ .retry) (hidle : timer.kind ≠ .idle)
    {produced : List Bytes} (hok : (e.handleTimer timer).1 = .ok produced) : produced = [] := by
  unfold handleTimer at hok
  cases hkind : timer.kind with
  | retry => exact absurd hkind hretry
  | idle => exact absurd hkind hidle
  | handshake | drain | pongDeadline | fragmentGap =>
    rw [hkind] at hok
    dsimp only at hok
    split at hok
    all_goals cases hok
    all_goals rfl

/-- What an idle timer puts out is its PING. -/
theorem handleTimer_ping {timer : TimerEvent} (hkind : timer.kind = .idle) {produced : List Bytes}
    (hok : (e.handleTimer timer).1 = .ok produced) : ∃ p ∈ timerEmissions (e, timer), p.1.codec = e.codec ∧
      p.2 = keepaliveFrame .ping p.2.frameSeq (idleToken e.nowMs) ∧ (p.1.emit p.2).1 = .ok produced := by
  unfold timerEmissions idleToken
  unfold handleTimer ping at hok
  rw [hkind] at hok ⊢
  dsimp only at hok ⊢
  refine ⟨_, List.mem_singleton.mpr rfl, rfl, rfl, ?_⟩
  split at hok
  next h => cases hok
  next h =>
    cases hok
    exact congrArg Prod.fst h

/-- With no retry timer, what `advance_time` puts out is of idle timers. -/
theorem advanceLoop_chunks {timers : List TimerEvent} (hretry : ∀ t ∈ timers, t.kind ≠ .retry)
    {out chunks : List Bytes} (hok : (advanceLoop timers e out).1 = .ok chunks) :
    ∀ chunk ∈ chunks, chunk ∈ out ∨ ∃ p ∈ timersMet timers e, p.2.kind = .idle ∧
      ∃ produced, (p.1.handleTimer p.2).1 = .ok produced ∧ chunk ∈ produced := by
  induction timers generalizing e out with
  | nil =>
    cases hok
    exact fun chunk hchunk => .inl hchunk
  | cons timer timers ih =>
    obtain ⟨hfirst, hrest⟩ := List.forall_mem_cons.mp hretry
    unfold advanceLoop at hok
    unfold timersMet
    dsimp only at hok ⊢
    by_cases hclosed : (e.record .timerExpired timer.channel).state = .closed
    · rw [if_pos hclosed] at hok ⊢
      exact ih hrest hok
    · rw [if_neg hclosed] at hok ⊢
      have hquiet := @handleTimer_quiet (e.record .timerExpired timer.channel) timer hfirst
      rcases hhandled : (e.record .timerExpired timer.channel).handleTimer timer with ⟨_ | produced, e'⟩
      · rw [hhandled] at hok
        cases hok
      · rw [hhandled] at hok hquiet
        intro chunk hchunk
        rcases ih hrest hok chunk hchunk with hmem | ⟨p, hp, hkind, hproduced⟩
        · rcases List.mem_append.mp hmem with hmem | hmem
          · exact .inl hmem
          · by_cases hidle : timer.kind = .idle
            · exact .inr ⟨_, List.mem_cons_self, hidle, produced, congrArg Prod.fst hhandled, hmem⟩
            · rw [hquiet hidle rfl] at hmem
              exact absurd hmem List.not_mem_nil
        · exact .inr ⟨p, List.mem_cons_of_mem _ hp, hkind, hproduced⟩

end

section

variable {policy : LocalPolicy} {registry : PluginRegistry}
  {executor : Option (DeterministicExecutor EngineTask)} {calls : List Call}

theorem run_made (calls : List Call) :
    Made policy registry (run call (make policy registry executor) calls) :=
  run_induction (fun _ c h => h.call c) calls (make_made policy registry executor)

theorem run_header (calls : List Call) :
    (run call (make policy registry executor) calls).codec.limits.maxHeader = 4096 := by
  rw [(run_made calls).limits]

/-- A control frame that a run emits well goes out in one chunk. -/
theorem emits_one_chunk {c : Call} {p : Emission}
    (hp : p ∈ (run call (make policy registry executor) calls).emissions c) (hdata : p.2.type ≠ .data)
    {out : List Bytes} (hok : (p.1.emit p.2).1 = .ok out) :
    ∃ encoded, p.1.codec.encode p.2 = .ok encoded ∧ out = [encoded] := by
  obtain ⟨before, after, hsplit⟩ := List.append_of_mem hp
  have hpaced := (call_paced (run_paced (make_paced policy registry executor) calls).1 c).2.1
  obtain ⟨encoded, hencode, hout⟩ := hpaced before p after hsplit ⟨out, hok⟩
  refine ⟨encoded, hencode, ?_⟩
  rw [hok, if_pos ?_] at hout
  · cases hout
    rfl
  · exact fun hdata' => absurd hdata' hdata

/-- Whatever chunk `advance_time` puts out, it is a PING with the token of that time. -/
theorem advanceTime_chunks {nowMs : UInt64} {pings : List Bytes}
    (hok : ((run call (make policy registry executor) calls).advanceTime nowMs).1 = .ok pings)
    {ping : Bytes} (hping : ping ∈ pings) :
    (run call (make policy registry executor) calls).PingsIdle nowMs ∧
      ∃ writer : FrameCodec, writer.limits.maxHeader = 4096 ∧ ∃ frameSeq,
        writer.encode (keepaliveFrame .ping frameSeq (idleToken nowMs)) = .ok ping := by
  have hregulated := @run_regulated policy registry executor calls
  have hchunks := @advanceLoop_chunks ((run call (make policy registry executor) calls).expiring nowMs) _
    (fun t ht => hregulated.retry t (mem_expired ht)) [] pings hok ping hping
  obtain ⟨p, hp, hkind, produced, hproduced, hchunk⟩ := hchunks.resolve_left List.not_mem_nil
  obtain ⟨hnow, hcodec⟩ := met_same hp
  obtain ⟨q, hq, hsame, hframe, hemit⟩ := handleTimer_ping hkind hproduced
  have hmem : q ∈ (run call (make policy registry executor) calls).emissions (.advanceTime nowMs) :=
    List.mem_flatMap.mpr ⟨p, hp, hq⟩
  obtain ⟨encoded, hencode, rfl⟩ := emits_one_chunk hmem (by rw [hframe]; exact FrameType.noConfusion) hemit
  obtain rfl := List.mem_singleton.mp hchunk
  refine ⟨⟨p, hp, hkind, by rw [hproduced]; rfl⟩, q.1.codec, ?_, q.2.frameSeq, ?_⟩
  · rw [hsame, hcodec]
    exact run_header calls
  · rw [← hencode, hframe, hnow]
    rfl

/-- Whatever a PING is answered with, it is a PONG with its token. -/
theorem receive_answers (hbuffer : (run call (make policy registry executor) calls).codec.buffer = [])
    {writer : FrameCodec} (hheader : writer.limits.maxHeader = 4096) {frameSeq : UInt32} {token : UInt64}
    {encoded : Bytes} (hencode : writer.encode (keepaliveFrame .ping frameSeq token) = .ok encoded)
    {answers : List Bytes}
    (hok : ((run call (make policy registry executor) calls).receive encoded false).1 = .ok answers) :
    ∃ answering : FrameCodec, answering.limits.maxHeader = 4096 ∧ ∃ frameSeq,
      answering.encode (keepaliveFrame .pong frameSeq token) = .ok answers.flatten := by
  obtain ⟨p, hp, hsame, hframe, hemit⟩ := receive_ping ⟨hbuffer, run_header calls⟩ hheader hencode hok
  obtain ⟨answer, hanswer, rfl⟩ := emits_one_chunk hp (by rw [hframe]; exact FrameType.noConfusion) hemit
  refine ⟨p.1.codec, ?_, p.2.frameSeq, ?_⟩
  · rw [hsame]
    exact run_header calls
  · rw [← hframe, List.flatten_singleton]
    exact hanswer

end

theorem pongsReceived_append (e : ConnectionEngine) (calls calls' : List Call) :
    e.pongsReceived (calls ++ calls') =
      e.pongsReceived calls ++ (run call e calls).pongsReceived calls' := by
  induction calls generalizing e with
  | nil => rfl
  | cons c calls ih =>
    change e.pongsOf c ++ pongsReceived (e.call c) (calls ++ calls') = _
    rw [ih, ← List.append_assoc]
    rfl

theorem regular_open {e : ConnectionEngine} {calls : List Call} {c : Call}
    (h : Along call Regular e (calls ++ [c])) : e.state ≠ .closed := by
  cases calls with
  | nil => exact h.1.1
  | cons first calls => exact h.1.1

/-- With its PONG in, the call past the deadline of a PING does not time out. -/
theorem Waiting.answered {e : ConnectionEngine} {nowMs laterMs : UInt64} {calls : List Call}
    (h : Waiting nowMs (some (idleToken nowMs)) e) (hfits : ClockFits nowMs)
    (hregular : Along ConnectionEngine.call Regular e (calls ++ [.advanceTime laterMs]))
    (hearly : ∀ time, .advanceTime time ∈ calls → time.toNat < nowMs.toNat + kPongTimeoutMs.toNat)
    (hlate : nowMs.toNat + kPongTimeoutMs.toNat ≤ laterMs.toNat)
    (hanswered : idleToken nowMs ∈ e.pongsReceived calls) :
    ((run ConnectionEngine.call e calls).advanceTime laterMs).1 ≠ .error pongTimeout ∧
      ((run ConnectionEngine.call e calls).advanceTime laterMs).2.state ≠ .closed := by
  obtain ⟨hcalls, hlast, -⟩ := along_append.mp hregular
  have hend := (waiting_run (.inr h) hfits hcalls hearly).resolve_left hlast.1
  refine (hend.advance_late hlate).1 ?_
  simpa [settled, Option.filter] using hanswered

/-- A peer that answers keeps the connection: when the PING of `nowMs` reaches it between two frames, and
what it puts out reaches the engine between two frames before the deadline, the engine does not time out. -/
theorem live_peer_kept (policy : LocalPolicy) (registry : PluginRegistry)
    (executor : Option (DeterministicExecutor EngineTask)) (peerPolicy : LocalPolicy)
    (peerRegistry : PluginRegistry) (peerExecutor : Option (DeterministicExecutor EngineTask))
    {before first after peerCalls : List Call} {nowMs laterMs : UInt64} {pings answers : List Bytes}
    {ping : Bytes}
    (hregular : Along call Regular (make policy registry executor) (before ++ (.advanceTime nowMs ::
      (first ++ (.receive answers.flatten false :: (after ++ [.advanceTime laterMs]))))))
    (hfits : Along call IdleFits (make policy registry executor) (before ++ [.advanceTime nowMs]))
    (hpings : ((run call (make policy registry executor) before).advanceTime nowMs).1 = .ok pings)
    (hping : ping ∈ pings)
    (hpeer : (run call (make peerPolicy peerRegistry peerExecutor) peerCalls).codec.buffer = [])
    (hanswers : ((run call (make peerPolicy peerRegistry peerExecutor) peerCalls).receive ping false).1 =
      .ok answers)
    (hbuffer : (run call (make policy registry executor)
      (before ++ (.advanceTime nowMs :: first))).codec.buffer = [])
    (hearly : ∀ time, .advanceTime time ∈ first ++ after → time.toNat < nowMs.toNat + kPongTimeoutMs.toNat)
    (hlate : nowMs.toNat + kPongTimeoutMs.toNat ≤ laterMs.toNat) :
    ((run call (make policy registry executor) (before ++ (.advanceTime nowMs ::
      (first ++ (.receive answers.flatten false :: after))))).advanceTime laterMs).1 ≠ .error pongTimeout ∧
    ((run call (make policy registry executor) (before ++ (.advanceTime nowMs ::
      (first ++ (.receive answers.flatten false :: after))))).advanceTime laterMs).2.state ≠ .closed := by
  obtain ⟨hidle, writer, hheader, frameSeq, hencode⟩ := advanceTime_chunks hpings hping
  obtain ⟨answering, hanswering, pongSeq, hpong⟩ := receive_answers hpeer hheader hencode hanswers
  obtain ⟨hbefore, hstep, hcalls⟩ := along_append.mp hregular
  obtain ⟨hfitsBefore, hfitsPing, -⟩ := along_append.mp hfits
  have htended := (tended_run (.inr (make_tended policy registry executor)) hbefore
    hfitsBefore).resolve_left hstep.1
  obtain ⟨hclock, hwaiting⟩ := htended.pings hstep.1 hfitsPing hidle
  rw [run_append]
  have hlimit := @run_header policy registry executor (before ++ (.advanceTime nowMs :: first))
  rw [run_append] at hbuffer hlimit
  generalize run call (make policy registry executor) before = e at *
  -- the engine waits for the token of its PING, which the PONG brings back
  refine hwaiting.answered hclock ?_ ?_ hlate ?_
  · rw [List.append_assoc]
    exact hcalls
  · intro time htime
    refine hearly time ?_
    simpa using htime
  · obtain ⟨-, -, hafter⟩ := along_append.mp hcalls
    rw [pongsReceived_append]
    refine List.mem_append_right _ (List.mem_append_left _ ?_)
    exact receive_pong ⟨hbuffer, hlimit⟩ hanswering hpong (regular_open hafter)

/-- The PING of 30 s gets its answer from a peer that has had the same negotiation. -/
theorem live_peer_kept_answered :
    ((run call (make {} echoRegistry none) (negotiation {} ++ (.advanceTime 30000 ::
      ([] ++ (.receive [frameBytes { type := .pong, frameSeq := 2, payload := u64Bytes 30000 }].flatten
        false :: []))))).advanceTime 35000).1 ≠ .error pongTimeout ∧
    ((run call (make {} echoRegistry none) (negotiation {} ++ (.advanceTime 30000 ::
      ([] ++ (.receive [frameBytes { type := .pong, frameSeq := 2, payload := u64Bytes 30000 }].flatten
        false :: []))))).advanceTime 35000).2.state ≠ .closed :=
  @live_peer_kept {} echoRegistry none {} echoRegistry none (negotiation {}) [] [] (negotiation {}) 30000
    35000 [frameBytes { type := .ping, frameSeq := 2, payload := u64Bytes 30000 }]
    [frameBytes { type := .pong, frameSeq := 2, payload := u64Bytes 30000 }]
    (frameBytes { type := .ping, frameSeq := 2, payload := u64Bytes 30000 }) (by decide +kernel)
    (by decide +kernel) (by decide +kernel) (by decide +kernel) (by decide +kernel) (by decide +kernel)
    (by decide +kernel) (by simp) (by decide)

end ConnectionEngine

end LatticeGateway

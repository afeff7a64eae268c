import LatticeGateway.FrameLimit
import LatticeGateway.SilentPeer

namespace LatticeGateway

open Runs

namespace ConnectionEngine

/-- The bytes keep to the limit, and a reader of that limit takes whatever frame it is that they write. -/
structure ChunkWithin (limit : Nat) (chunk : Bytes) : Prop where
  length : chunk.length ≤ limit
  read : ∀ (writer : FrameCodec) (frame : Frame), writer.limits.maxHeader ≤ 4096 →
    writer.encode frame = .ok chunk → frame.KnownRequired →
    ∀ reader : FrameCodec, reader.Clear → reader.limits.maxFrame = limit →
      reader.feed chunk false = ([.frame frame.canonical], reader)

theorem chunkWithin_iff {limit : Nat} {chunk : Bytes} : ChunkWithin limit chunk ↔ chunk.length ≤ limit := by
  refine ⟨ChunkWithin.length, fun hle => ⟨hle, ?_⟩⟩
  intro writer frame hheader hencode hknown reader hreader hlimit
  refine hreader.feed_one (FrameCodec.encode_relimit hencode ?_ ?_) hknown
  · rw [hreader.header]
    exact hheader
  · rw [hlimit]
    exact hle

/-- The retained frames that a call puts out again: for a RESUME that is received, and for a retry timer. -/
def repeated (e : ConnectionEngine) : Call → List Bytes
  | .receive bytes eof =>
    (handled (e.decoded bytes eof).1 (e.decoded bytes eof).2).flatMap fun p =>
      if p.2.type = .resume then outbound (p.1.handleFrame p.2).1 else []
  | .advanceTime nowMs =>
    (e.timersHandled nowMs).flatMap fun p =>
      if p.2.kind = .retry then outbound (p.1.handleTimer p.2).1 else []
  | _ => []

/-- Whatever a call sends, anew or again, keeps to the limit. -/
structure EmitsWithin (limit : Nat) (e : ConnectionEngine) (c : Call) : Prop where
  sent : ∀ p ∈ e.emissions c, p.Sent → ∀ encoded, p.1.codec.encode p.2 = .ok encoded →
    Emission.Within limit p encoded
  again : ∀ chunk ∈ e.repeated c, ChunkWithin limit chunk

/-- A RESUME is refused, or all that is retained of what it asks for keeps to the limit. -/
def ResumesWithin (limit : Nat) (p : ConnectionEngine × Frame) : Prop :=
  p.2.type = .resume → p.1.Resumable p.2 → ∀ request, decodeResumePayload p.2.payload = .ok request →
    ∀ entry ∈ p.1.replay.entries, request.firstRequiredSeq ≤ entry.frameSeq → entry.encoded.length ≤ limit

/-- A RESUME that is taken is answered with the retained frames from the one it names on. -/
theorem handleResume_retained {e : ConnectionEngine} {frame : Frame} (h : e.Resumable frame) :
    ∃ request, decodeResumePayload frame.payload = .ok request ∧ (e.handleResume frame).1 =
      .ok ((e.replay.entries.filter (·.frameSeq ≥ request.firstRequiredSeq)).map (·.encoded)) := by
  obtain ⟨hcontrol, request, hrequest, hhash, hcan⟩ := h
  refine ⟨request, hrequest, ?_⟩
  unfold handleResume ReplayWindow.retainedFrom
  rw [if_neg (by rw [hcontrol]; decide), hrequest]
  dsimp only
  rw [if_neg (not_not.mpr hhash), hcan]

theorem resumesWithin_iff {limit : Nat} (p : ConnectionEngine × Frame) : ResumesWithin limit p ↔
    (p.2.type = .resume → ∀ chunk ∈ outbound (p.1.handleFrame p.2).1, chunk.length ≤ limit) := by
  obtain ⟨e, frame⟩ := p
  unfold ResumesWithin
  dsimp only
  refine forall_congr' fun htype => ?_
  have hframe : e.handleFrame frame = e.handleResume frame := by
    unfold handleFrame
    rw [htype]
  rw [hframe]
  constructor
  · intro hwithin chunk hchunk
    rcases handleResume_cases e frame with ⟨error, hrefused⟩ | ⟨hresumable, _⟩
    · rw [hrefused] at hchunk
      cases hchunk
    · obtain ⟨request, hrequest, hanswer⟩ := handleResume_retained hresumable
      rw [hanswer] at hchunk
      obtain ⟨entry, hentry, rfl⟩ := List.mem_map.mp hchunk
      obtain ⟨hmem, hle⟩ := List.mem_filter.mp hentry
      exact hwithin hresumable request hrequest entry hmem (of_decide_eq_true hle)
  · intro hwithin hresumable request hrequest entry hentry hle
    obtain ⟨request', hrequest', hanswer⟩ := handleResume_retained hresumable
    obtain rfl : request' = request := Except.ok.inj (hrequest'.symm.trans hrequest)
    refine hwithin entry.encoded ?_
    rw [hanswer]
    exact List.mem_map.mpr ⟨entry, List.mem_filter.mpr ⟨hentry, decide_eq_true hle⟩, rfl⟩

/-- No retry timer is ever set, so what goes out again goes out for a RESUME. -/
theorem again_iff {e : ConnectionEngine} (hregulated : Regulated e) {limit : Nat} (c : Call) :
    (∀ chunk ∈ e.repeated c, ChunkWithin limit chunk) ↔
      ∀ bytes eof, c = .receive bytes eof →
        ∀ p ∈ handled (e.decoded bytes eof).1 (e.decoded bytes eof).2, ResumesWithin limit p := by
  constructor
  · rintro hwithin bytes eof rfl p hp
    refine (resumesWithin_iff p).mpr fun htype chunk hchunk => (hwithin chunk ?_).length
    refine List.mem_flatMap.mpr ⟨p, hp, ?_⟩
    rw [if_pos htype]
    exact hchunk
  · intro hwithin chunk hchunk
    cases c with
    | receive bytes eof =>
      obtain ⟨p, hp, hchunk⟩ := List.mem_flatMap.mp hchunk
      by_cases htype : p.2.type = .resume
      · rw [if_pos htype] at hchunk
        exact chunkWithin_iff.mpr
          ((resumesWithin_iff p).mp (hwithin bytes eof rfl p hp) htype chunk hchunk)
      · rw [if_neg htype] at hchunk
        cases hchunk
    | advanceTime nowMs =>
      obtain ⟨p, hp, hchunk⟩ := List.mem_flatMap.mp hchunk
      rw [if_neg (hregulated.retry p.2 (mem_expired (mem_of_met hp)))] at hchunk
      cases hchunk
    | _ => cases hchunk

/-- What an active engine sends keeps to the negotiated limit, but for an ACK of too many ranges, and for
the frames above the limit that it has retained, if a RESUME asks for them. -/
theorem emits_within_limit (policy : LocalPolicy) (registry : PluginRegistry)
    (executor : Option (DeterministicExecutor EngineTask)) (calls : List Call) (c : Call) {limit : Nat}
    (hactive : (run call (make policy registry executor) calls).state = .active)
    (hlimit : (run call (make policy registry executor) calls).capabilities.map (·.maxFrame) = some limit) :
    EmitsWithin limit (run call (make policy registry executor) calls) c ↔
      (∀ ranges, c = .acknowledge ranges → AckGoes (run call (make policy registry executor) calls) ranges →
        ackFrameBytes ranges.length ≤ limit) ∧
      ∀ bytes eof, c = .receive bytes eof →
        ∀ p ∈ handled ((run call (make policy registry executor) calls).decoded bytes eof).1
          ((run call (make policy registry executor) calls).decoded bytes eof).2, ResumesWithin limit p := by
  have hfloor : LimitFloor (run call (make policy registry executor) calls) := by
    have hmake : LimitFloor (make policy registry executor) := by
      intro caps hcaps
      cases hcaps
    exact run_induction (fun _ c h => h.call c) calls hmake
  have hregulated := @run_regulated policy registry executor calls
  generalize run call (make policy registry executor) calls = e at *
  obtain ⟨caps, hcaps, rfl⟩ := Option.map_eq_some_iff.mp hlimit
  rw [← again_iff hregulated]
  constructor
  · rintro ⟨hsent, hagain⟩
    exact ⟨(sent_iff_ack hactive hcaps (hfloor caps hcaps)).mp hsent, hagain⟩
  · rintro ⟨hack, hagain⟩
    exact ⟨(sent_iff_ack hactive hcaps (hfloor caps hcaps)).mpr hack, hagain⟩

/-- An engine of the default policy whose peer takes the smallest frames there may be. -/
def narrowEngine : ConnectionEngine :=
  run call (make {} echoRegistry none) (negotiation { maxFrame := 128 })

theorem narrowEngine_active :
    narrowEngine.state = .active ∧ narrowEngine.capabilities.map (·.maxFrame) = some 128 := by
  decide +kernel

theorem emits_within_limit_one : EmitsWithin 128 narrowEngine (.acknowledge [⟨1, 1⟩]) := by
  refine (emits_within_limit {} echoRegistry none (negotiation { maxFrame := 128 }) _
    narrowEngine_active.1 narrowEngine_active.2).mpr ⟨?_, fun _ _ hother => by cases hother⟩
  rintro ranges hranges _
  obtain rfl : [⟨1, 1⟩] = ranges := by injection hranges
  decide

/-- Every other frame number, 13 of them. -/
def oddRanges : List AckRange :=
  [1, 3, 5, 7, 9, 11, 13, 15, 17, 19, 21, 23, 25].map fun frameSeq => ⟨frameSeq, frameSeq⟩

/-- An engine that has retained an ACK of them, and a RESUME that asks for it. -/
def acknowledgedEngine : ConnectionEngine := narrowEngine.call (.acknowledge oddRanges)

def askingBytes : Bytes :=
  (acknowledgedEngine.capabilities.map fun caps =>
    let request : ResumeRequest := { transcriptHash := caps.transcriptHash, firstRequiredSeq := 2 }
    frameBytes { type := .resume, payload := encodeResumePayload request }).getD []

/-- The reader of a peer whose own limit is 128 gives up on the chunks. -/
def TooLarge (result : Except Error (List Bytes)) : Prop :=
  (FrameCodec.feed { limits := { maxFrame := 128, maxHeader := 4096 } } (outbound result).flatten false).1 =
    [.error (frameTooLarge "frame exceeds negotiated limit")]

theorem oddRanges_exceed :
    (∃ p ∈ narrowEngine.emissions (.acknowledge oddRanges), p.Sent ∧
      (p.1.codec.encode p.2).toOption.any (128 < ·.length) = true) ∧
    (∃ chunk ∈ acknowledgedEngine.repeated (.receive askingBytes false), 128 < chunk.length) ∧
    acknowledgedEngine.state = .active ∧ acknowledgedEngine.capabilities.map (·.maxFrame) = some 128 := by
  decide +kernel

theorem oddRanges_rejected : TooLarge (narrowEngine.acknowledge oddRanges).1 ∧
    TooLarge (acknowledgedEngine.receive askingBytes false).1 := by
  unfold TooLarge
  decide +kernel

/-- An ACK of 13 ranges is too long for the peer, which gives up the connection, when it is sent and when it
is sent again. -/
theorem acknowledge_exceeds_limit :
    (narrowEngine.state = .active ∧ narrowEngine.capabilities.map (·.maxFrame) = some 128 ∧
      ¬ EmitsWithin 128 narrowEngine (.acknowledge oddRanges) ∧
      TooLarge (narrowEngine.acknowledge oddRanges).1) ∧
    acknowledgedEngine.state = .active ∧ acknowledgedEngine.capabilities.map (·.maxFrame) = some 128 ∧
      ¬ EmitsWithin 128 acknowledgedEngine (.receive askingBytes false) ∧
      TooLarge (acknowledgedEngine.receive askingBytes false).1 := by
  obtain ⟨⟨p, hp, hsent, hlong⟩, ⟨chunk, hchunk, hlonger⟩, hactive, hlimit⟩ := oddRanges_exceed
  refine ⟨⟨narrowEngine_active.1, narrowEngine_active.2, fun hwithin => ?_, oddRanges_rejected.1⟩,
    hactive, hlimit, fun hwithin => ?_, oddRanges_rejected.2⟩
  · cases hencode : p.1.codec.encode p.2 with
    | error error => simp [hencode, Except.toOption] at hlong
    | ok encoded =>
      have hlength := (hwithin.sent p hp hsent encoded hencode).length
      simp only [hencode, Except.toOption, Option.any_some, decide_eq_true_eq] at hlong
      omega
  · exact Nat.not_le_of_lt hlonger (hwithin.again chunk hchunk).length

end ConnectionEngine

end LatticeGateway

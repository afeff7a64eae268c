import LatticeGateway.CertifiedFrames
import LatticeGateway.Health
import LatticeGateway.FrameGrammar

namespace LatticeGateway

open StreamDecoder

structure StreamInspectionOptions where
  limits : FrameLimits := {}
  eof : Bool := true
  requireDataMessageExtensions : Bool := true
  warnOnSequenceRewind : Bool := true
  warnOnGoawayNotLast : Bool := true
  maxFrames : Nat := 4096
  deriving DecidableEq, Repr

/-- The whole report: the health checks read everything but the count of control frames. -/
structure InspectedStream extends StreamInspectionReport where
  controlFrames : Nat := 0

namespace StreamInspectionOptions

variable (options : StreamInspectionOptions)

def rewindFindings (previous : Option UInt32) (frame : Frame) (index : Nat) : List FrameFinding :=
  match previous with
  | none => []
  | some sequence =>
    if options.warnOnSequenceRewind ∧ frame.frameSeq < sequence then
      [frame.finding index .warning .sequenceRewind "frame sequence moved backwards"]
    else []

/-- `last` says whether the frame is the last event of the decoder. -/
def goawayFindings (last : Bool) (frame : Frame) (index : Nat) : List FrameFinding :=
  if options.warnOnGoawayNotLast ∧ frame.type = .goaway ∧ last = false then
    [frame.finding index .warning .goawayNotLast "GOAWAY was followed by additional decoder events"]
  else []

/-- The frame is looked into by `inspect_frame`. -/
def Inspects (frame : Frame) : Prop := options.requireDataMessageExtensions ∨ frame.type ≠ .data

instance (frame : Frame) : Decidable (options.Inspects frame) := inferInstanceAs (Decidable (_ ∨ _))

def contentFindings (frame : Frame) (index : Nat) : List FrameFinding :=
  if options.Inspects frame then inspectFrame frame index else []

/-- The loop of `inspect_frame_stream`. -/
def inspectEvents : List DecodeEvent → InspectedStream → Option UInt32 → InspectedStream
  | [], report, _ => report
  | .needMore :: events, report, previous => inspectEvents events report previous
  | .error error :: events, report, previous =>
    inspectEvents events
      { report with
        findings := report.findings ++
          [{ severity := .error, code := .decoderError, frameIndex := report.frames.length
             detail := error.detail }] }
      previous
  | .frame frame :: events, report, previous =>
    let index := report.frames.length
    if index ≥ options.maxFrames then
      { report with
        findings := report.findings ++
          [frame.finding index .error .tooManyFrames "stream contains more frames than the inspection cap"] }
    else
      inspectEvents events
        { report with
          findings := report.findings ++ options.rewindFindings previous frame index ++
            options.goawayFindings events.isEmpty frame index ++ options.contentFindings frame index
          payloadBytes := report.payloadBytes + frame.payload.length
          dataFrames := if frame.type = .data then report.dataFrames + 1 else report.dataFrames
          controlFrames := if frame.type = .data then report.controlFrames else report.controlFrames + 1
          frames := report.frames ++ [observeFrame frame index] }
        (some frame.frameSeq)

end StreamInspectionOptions

def inspectFrameStream (bytes : Bytes) (options : StreamInspectionOptions) : InspectedStream :=
  options.inspectEvents (FrameCodec.feed { limits := options.limits } bytes options.eof).1
    { decodedBytes := bytes.length, decoderReachedEof := options.eof } none

theorem errorCount_eq_zero_iff {inspection : StreamInspectionReport} :
    inspection.errorCount = 0 ↔ Certified inspection.findings := by
  unfold StreamInspectionReport.errorCount Certified
  rw [List.countP_eq_zero]
  simp

section

variable {options : StreamInspectionOptions} {frame : Frame} {index : Nat}

theorem rewindFindings_certified (previous : Option UInt32) :
    Certified (options.rewindFindings previous frame index) := by
  unfold StreamInspectionOptions.rewindFindings Certified
  split
  next => simp
  next =>
    split
    next => simp [Frame.finding]
    next => simp

theorem goawayFindings_certified (last : Bool) :
    Certified (options.goawayFindings last frame index) := by
  unfold StreamInspectionOptions.goawayFindings Certified
  split
  next => simp [Frame.finding]
  next => simp

theorem contentFindings_certified : Certified (options.contentFindings frame index) ↔
    (options.Inspects frame → Certified (inspectFrame frame index)) := by
  unfold StreamInspectionOptions.contentFindings
  split
  next h => exact ⟨fun hcertified _ => hcertified, fun hcertified => hcertified h⟩
  next h => exact ⟨fun _ hinspects => absurd hinspects h, fun _ finding hfinding => absurd hfinding (by simp)⟩

/-- The frames are without an error, and within the cap, from this index on. -/
structure Faultless (options : StreamInspectionOptions) (index : Nat) (frames : List Frame) : Prop where
  cap : index + frames.length ≤ options.maxFrames
  certified : ∀ i frame, frames[i]? = some frame → options.Inspects frame →
    Certified (inspectFrame frame (index + i))

theorem faultless_nil (hindex : index ≤ options.maxFrames) : Faultless options index [] :=
  ⟨hindex, fun _ _ h => by simp at h⟩

theorem faultless_cons {frames : List Frame} : Faultless options index (frame :: frames) ↔
    (options.Inspects frame → Certified (inspectFrame frame index)) ∧
      Faultless options (index + 1) frames := by
  constructor
  · intro h
    have hcap := h.cap
    rw [List.length_cons] at hcap
    refine ⟨fun hinspects => h.certified 0 frame rfl hinspects, by omega, fun i other hother hinspects => ?_⟩
    have hlater := h.certified (i + 1) other (by simpa using hother) hinspects
    rwa [show index + 1 + i = index + (i + 1) by omega]
  · rintro ⟨hfirst, hcap, hrest⟩
    refine ⟨by rw [List.length_cons]; omega, fun i other hother hinspects => ?_⟩
    cases i with
    | zero =>
      obtain rfl : frame = other := by simpa using hother
      exact hfirst hinspects
    | succ i =>
      have hlater := hrest i other (by simpa using hother) hinspects
      rwa [show index + (i + 1) = index + 1 + i by omega]

/-- What the loop makes of frames and of the error behind them, if there is one. -/
structure Inspected (options : StreamInspectionOptions) (report : InspectedStream) (frames : List Frame)
    (failure : Option Error) (result : InspectedStream) : Prop where
  observed : result.frames = report.frames ++ (frames.take (options.maxFrames - report.frames.length)).mapIdx
    fun i frame => observeFrame frame (report.frames.length + i)
  payload : result.payloadBytes = report.payloadBytes +
    ((frames.take (options.maxFrames - report.frames.length)).map (·.payload.length)).sum
  data : result.dataFrames = report.dataFrames +
    (frames.take (options.maxFrames - report.frames.length)).countP (·.type = .data)
  control : result.controlFrames = report.controlFrames +
    (frames.take (options.maxFrames - report.frames.length)).countP (·.type ≠ .data)
  bytes : result.decodedBytes = report.decodedBytes
  reached : result.decoderReachedEof = report.decoderReachedEof
  findings : Certified result.findings ↔ Certified report.findings ∧ failure = none ∧
    Faultless options report.frames.length frames

theorem inspectEvents_frames (frames : List Frame) (failure : Option Error) (report : InspectedStream)
    (previous : Option UInt32) (hroom : report.frames.length ≤ options.maxFrames) :
    Inspected options report frames failure
      (options.inspectEvents (frames.map .frame ++ failure.toList.map .error) report previous) := by
  induction frames generalizing report previous with
  | nil =>
    have hnone := faultless_nil hroom
    cases failure with
    | none =>
      exact ⟨by simp [StreamInspectionOptions.inspectEvents], by simp [StreamInspectionOptions.inspectEvents],
        by simp [StreamInspectionOptions.inspectEvents], by simp [StreamInspectionOptions.inspectEvents],
        rfl, rfl, fun h => ⟨h, rfl, hnone⟩, fun h => h.1⟩
    | some error =>
      refine ⟨by simp [StreamInspectionOptions.inspectEvents],
        by simp [StreamInspectionOptions.inspectEvents], by simp [StreamInspectionOptions.inspectEvents],
        by simp [StreamInspectionOptions.inspectEvents], rfl, rfl, fun h => ?_, fun h => ?_⟩
      · exact absurd (certified_append.mp h).2 (not_certified_singleton rfl)
      · cases h.2.1
  | cons frame frames ih =>
    rw [List.map_cons, List.cons_append]
    unfold StreamInspectionOptions.inspectEvents
    dsimp only
    by_cases hfull : report.frames.length ≥ options.maxFrames
    · rw [if_pos hfull]
      have hnone : options.maxFrames - report.frames.length = 0 := by omega
      refine ⟨by simp [hnone], by simp [hnone], by simp [hnone], by simp [hnone], rfl, rfl, fun h => ?_,
        fun h => ?_⟩
      · exact absurd (certified_append.mp h).2 (not_certified_singleton rfl)
      · have hcap := h.2.2.cap
        rw [List.length_cons] at hcap
        omega
    · rw [if_neg hfull]
      have hleft : options.maxFrames - report.frames.length =
          options.maxFrames - (report.frames.length + 1) + 1 := by omega
      generalize hlast : (frames.map DecodeEvent.frame ++ failure.toList.map DecodeEvent.error).isEmpty = last
      have hrest := ih
        { report with
          findings := report.findings ++ options.rewindFindings previous frame report.frames.length ++
            options.goawayFindings last frame report.frames.length ++
            options.contentFindings frame report.frames.length
          payloadBytes := report.payloadBytes + frame.payload.length
          dataFrames := if frame.type = .data then report.dataFrames + 1 else report.dataFrames
          controlFrames := if frame.type = .data then report.controlFrames else report.controlFrames + 1
          frames := report.frames ++ [observeFrame frame report.frames.length] }
        (some frame.frameSeq) (by simp; omega)
      obtain ⟨hframes, hpayload, hdata, hcontrol, hbytes, hreached, hfindings⟩ := hrest
      simp only [List.length_append, List.length_singleton] at hframes hpayload hdata hcontrol hfindings
      refine ⟨?_, ?_, ?_, ?_, hbytes, hreached, ?_⟩
      · rw [hframes, hleft, List.take_succ_cons, List.mapIdx_cons, List.append_assoc, List.singleton_append]
        simp only [Nat.add_zero, Nat.add_assoc, Nat.add_comm 1]
      · rw [hpayload, hleft, List.take_succ_cons, List.map_cons, List.sum_cons, Nat.add_assoc]
      · rw [hdata, hleft, List.take_succ_cons, List.countP_cons]
        by_cases htype : frame.type = .data
        · simp only [htype, if_true, decide_true]
          omega
        · simp [htype]
      · rw [hcontrol, hleft, List.take_succ_cons, List.countP_cons]
        by_cases htype : frame.type = .data
        · simp [htype]
        · simp only [htype, ne_eq, not_false_eq_true, decide_true, if_true, if_false]
          omega
      · rw [hfindings, certified_append, certified_append, certified_append, contentFindings_certified,
          faultless_cons]
        have hrewind := @rewindFindings_certified options frame report.frames.length previous
        have hgoaway := @goawayFindings_certified options frame report.frames.length last
        tauto

/-- The error that the input ends with, if it does. -/
def endError : Tail UInt8 Error → Option Error
  | .rest _ => none
  | .failed error => some error

/-- The verdict on the input, which may or may not be its end. -/
def tailOf (eof : Bool) (tail : Tail UInt8 Error) : Tail UInt8 Error :=
  if eof then tail.atEnd truncatedRest else tail

theorem feed_events {limits : FrameLimits} {bytes : Bytes} {frames : List Frame} {tail : Tail UInt8 Error}
    (h : Decodes (decodeFrame limits false) bytes frames tail) (eof : Bool) :
    (FrameCodec.feed { limits } bytes eof).1 = (feedResult (frames.map .frame) (tailOf eof tail)).1 := by
  cases eof with
  | false => rw [@FrameCodec.feed_more { limits } bytes frames tail h]; rfl
  | true => rw [@FrameCodec.feed_eof { limits } bytes frames tail h]; rfl

/-- What the inspection makes of a stream, in terms of what there is to be decoded. -/
theorem inspectFrameStream_decodes {bytes : Bytes} {frames : List Frame} {tail : Tail UInt8 Error}
    (h : Decodes (decodeFrame options.limits false) bytes frames tail) :
    Inspected options { decodedBytes := bytes.length, decoderReachedEof := options.eof } frames
      (endError (tailOf options.eof tail)) (inspectFrameStream bytes options) := by
  unfold inspectFrameStream
  rw [feed_events h]
  generalize tailOf options.eof tail = verdict
  have hinspected := inspectEvents_frames frames (endError verdict)
    { decodedBytes := bytes.length, decoderReachedEof := options.eof } none (Nat.zero_le options.maxFrames)
  rcases verdict with rest | error
  · cases frames with
    | nil => exact hinspected
    | cons frame frames =>
      rw [show (endError (.rest rest)).toList.map DecodeEvent.error = [] from rfl,
        List.append_nil] at hinspected
      exact hinspected
  · exact hinspected

/-- The bytes are the frames in the grammar, and behind them what may become one more. -/
structure Framed (limits : FrameLimits) (bytes : Bytes) (frames : List Frame) (rest : Bytes) : Prop where
  form : ∃ whole, bytes = whole ++ rest ∧ StreamForm limits whole frames
  payload : ∀ frame ∈ frames, frame.payload.length < 2 ^ 32
  undecided : decodeFrame limits false rest = .needMore

theorem framed_iff {limits : FrameLimits} {bytes rest : Bytes} {frames : List Frame} :
    Framed limits bytes frames rest ↔ Decodes (decodeFrame limits false) bytes frames (.rest rest) := by
  constructor
  · rintro ⟨⟨whole, rfl, hform⟩, hpayload, hundecided⟩
    have hall := (hform.decodes hpayload false).append_rest (decodeFrame_stable limits)
      (Decodes.rest hundecided)
    rwa [List.append_nil] at hall
  · intro h
    have hread : (∃ whole, bytes = whole ++ rest ∧ StreamForm limits whole frames) ∧
        ∀ frame ∈ frames, frame.payload.length < 2 ^ 32 := by
      generalize ht : Tail.rest rest = t at h
      induction h with
      | rest =>
        cases ht
        exact ⟨⟨[], rfl, [], rfl, .nil⟩, fun _ hframe => absurd hframe List.not_mem_nil⟩
      | failed => cases ht
      | @item bytes frame n frames _ hv _ ih =>
        obtain ⟨⟨whole, hbytes, parts, rfl, hforms⟩, hpayload⟩ := ih ht
        obtain ⟨hform, hsize⟩ := decodeFrame_sound hv
        refine ⟨⟨bytes.take n ++ parts.flatten, ?_, bytes.take n :: parts, rfl, .cons hform hforms⟩,
          List.forall_mem_cons.mpr ⟨hsize, hpayload⟩⟩
        rw [List.append_assoc, ← hbytes, List.take_append_drop]
    exact ⟨hread.1, hread.2, h.rest_needMore⟩

/-- What is listed of a stream of frames that are no more than the cap. -/
structure Listed (frames : List Frame) (report : InspectedStream) : Prop where
  observed : report.frames = frames.mapIdx fun index frame => observeFrame frame index
  payload : report.payloadBytes = (frames.map (·.payload.length)).sum
  data : report.dataFrames = frames.countP (·.type = .data)
  control : report.controlFrames = frames.countP (·.type ≠ .data)

theorem inspectFrameStream_listed {bytes rest : Bytes} {frames : List Frame}
    (h : Framed options.limits bytes frames rest) (hcap : frames.length ≤ options.maxFrames) :
    Listed frames (inspectFrameStream bytes options) := by
  have hinspected := inspectFrameStream_decodes (framed_iff.mp h)
  have htake : frames.take (options.maxFrames - 0) = frames := List.take_of_length_le (by omega)
  refine ⟨?_, ?_, ?_, ?_⟩
  · rw [hinspected.observed]
    simp only [List.length_nil, htake, List.nil_append, Nat.zero_add]
  · rw [hinspected.payload]
    simp only [List.length_nil, htake, Nat.zero_add]
  · rw [hinspected.data]
    simp only [List.length_nil, htake, Nat.zero_add]
  · rw [hinspected.control]
    simp only [List.length_nil, htake, Nat.zero_add]

/-- Of a stream of frames the inspection finds no error exactly if nothing incomplete is left at its end, and
the frames are without one themselves. -/
theorem Framed.errors {bytes rest : Bytes} {frames : List Frame}
    (h : Framed options.limits bytes frames rest) :
    (inspectFrameStream bytes options).errorCount = 0 ↔
      (options.eof = true → rest = []) ∧ Faultless options 0 frames := by
  rw [errorCount_eq_zero_iff, (inspectFrameStream_decodes (framed_iff.mp h)).findings]
  constructor
  · rintro ⟨_, hnone, hfaultless⟩
    refine ⟨fun heof => ?_, hfaultless⟩
    rw [heof] at hnone
    cases rest with
    | nil => rfl
    | cons b bs => cases hnone
  · rintro ⟨hend, hfaultless⟩
    refine ⟨fun finding hfinding => absurd hfinding List.not_mem_nil, ?_, hfaultless⟩
    unfold tailOf
    split
    next heof => rw [hend heof]; rfl
    next => rfl

theorem inspectFrameStream_errors (bytes : Bytes) (options : StreamInspectionOptions) :
    (inspectFrameStream bytes options).errorCount = 0 ↔ ∃ frames rest,
      Framed options.limits bytes frames rest ∧ (options.eof = true → rest = []) ∧
        Faultless options 0 frames := by
  constructor
  · intro hnone
    obtain ⟨frames, tail, h⟩ := (decodeFrame_stable options.limits).exists_decodes bytes
    rcases tail with rest | error
    · have hframed := framed_iff.mpr h
      exact ⟨frames, rest, hframed, hframed.errors.mp hnone⟩
    · rw [errorCount_eq_zero_iff, (inspectFrameStream_decodes h).findings] at hnone
      have hfailed := hnone.2.1
      unfold tailOf at hfailed
      split at hfailed
      all_goals cases hfailed
  · rintro ⟨frames, rest, hframed, hfaultless⟩
    exact hframed.errors.mpr hfaultless

/-- The inspection finds no error exactly in a stream of frames of the grammar that are without one
themselves and no more than the cap, with nothing incomplete at its end; it lists all of them. -/
theorem stream_inspection_exact (bytes : Bytes) (options : StreamInspectionOptions) :
    ((inspectFrameStream bytes options).errorCount = 0 ↔ ∃ frames rest,
      Framed options.limits bytes frames rest ∧ (options.eof = true → rest = []) ∧
        Faultless options 0 frames) ∧
    ∀ frames rest, Framed options.limits bytes frames rest → frames.length ≤ options.maxFrames →
      Listed frames (inspectFrameStream bytes options) :=
  ⟨inspectFrameStream_errors bytes options, fun _ _ => inspectFrameStream_listed⟩

/-- A PING of no payload, and the same cut short. -/
example :
    let ping : Bytes := [76, 84, 88, 49, 32, 0, 0, 0, 0, 0, 0, 0, 0, 0, 0, 0, 0, 7, 193, 170, 234]
    ((inspectFrameStream ping {}).findings.map (·.code), (inspectFrameStream (ping.take 20) {}).findings.map
      (·.code)) = ([.pingPayloadSize], [.decoderError]) := by
  decide +kernel

end

end LatticeGateway

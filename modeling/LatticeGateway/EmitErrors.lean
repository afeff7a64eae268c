import LatticeGateway.EngineCalls

namespace LatticeGateway

/-- What a frame that does not go out is refused with: no timeout, and a would-block only by the whole
connection's queue. -/
def EmitRefusal (error : Error) : Prop :=
  error.code ≠ .timeout ∧ (error.code = .wouldBlock → error.scope = .connection)

instance decidableEmitRefusal (error : Error) : Decidable (EmitRefusal error) := instDecidableAnd

theorem encodeUleb128_refusal {value : UInt32} {error : Error} (h : encodeUleb128 value = .error error) :
    EmitRefusal error := by
  unfold encodeUleb128 at h
  dsimp only at h
  split at h
  next =>
    cases h
    decide
  next => cases h

theorem writeSortedExtensions_refusal {extensions : List Extension} {error : Error}
    (h : writeSortedExtensions extensions = .error error) : EmitRefusal error := by
  induction extensions with
  | nil => cases h
  | cons extension extensions ih =>
    unfold writeSortedExtensions at h
    split at h
    next =>
      cases h
      decide
    next =>
      dsimp only at h
      split at h
      next herror =>
        cases h
        exact encodeUleb128_refusal herror
      next =>
        split at h
        next hrest =>
          cases h
          exact ih hrest
        next => cases h

theorem encode_refusal {codec : FrameCodec} {frame : Frame} {error : Error}
    (h : codec.encode frame = .error error) : EmitRefusal error := by
  unfold FrameCodec.encode at h
  split at h
  next =>
    cases h
    decide
  next =>
    split at h
    next =>
      cases h
      decide
    next =>
      split at h
      next hext =>
        cases h
        exact writeSortedExtensions_refusal hext
      next =>
        split at h
        next =>
          cases h
          decide
        next =>
          split at h
          next =>
            cases h
            decide
          next =>
            split at h
            next hlen =>
              cases h
              exact encodeUleb128_refusal hlen
            next =>
              dsimp only at h
              repeat' split at h
              all_goals
                cases h
                try decide

theorem record_refusal {w w' : ReplayWindow} {epoch : UInt16} {frameSeq : UInt32} {encoded : Bytes}
    {error : Error} (h : w.record epoch frameSeq encoded = (.error error, w')) :
    EmitRefusal error := by
  unfold ReplayWindow.record at h
  split at h
  next =>
    cases h
    decide
  next =>
    split at h
    next =>
      cases h
      decide
    next => cases h

theorem enqueue_refusal {s : OutboundScheduler} {item : OutboundItem} {error : Error}
    (h : (s.enqueue item).1 = .error error) : EmitRefusal error := by
  unfold OutboundScheduler.enqueue at h
  dsimp only at h
  repeat' split at h
  all_goals
    cases h
    try decide

namespace ConnectionEngine

/-- A frame that does not go out is no timeout. -/
theorem emit_refusal {e e' : ConnectionEngine} {frame : Frame} {error : Error}
    (h : e.emit frame = (.error error, e')) : EmitRefusal error := by
  unfold emit at h
  split at h
  next herror =>
    cases h
    exact encode_refusal herror
  next =>
    split at h
    next herror =>
      cases h
      exact record_refusal herror
    next =>
      split at h
      next herror =>
        cases h
        exact enqueue_refusal (congrArg Prod.fst herror)
      next => cases h

theorem emitFrame_refusal {e : ConnectionEngine} {type : FrameType} {channel : ChannelId}
    {payload : Bytes} {extensions : List Extension} {error : Error}
    (h : (e.emitFrame type channel payload extensions).1 = .error error) : EmitRefusal error :=
  emit_refusal (Prod.ext h rfl)

end ConnectionEngine

end LatticeGateway

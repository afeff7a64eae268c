import LatticeGateway.BoundedLog
import LatticeGateway.FrameNumbering

namespace LatticeGateway

open Runs BoundedLog

/-- A frame in the log of what may have to be sent again: its number and its encoding. -/
abbrev LoggedFrame := UInt32 × Bytes

def ReplayEntry.logged (entry : ReplayEntry) : LoggedFrame := (entry.frameSeq, entry.encoded)

def ReplayWindow.logged (w : ReplayWindow) : List LoggedFrame := w.entries.map ReplayEntry.logged

theorem logged_recorded (w : ReplayWindow) (frameSeq : UInt32) (encoded : Bytes) :
    (w.recorded frameSeq encoded).logged = push w.capacity w.logged (frameSeq, encoded) := by
  unfold ReplayWindow.recorded ReplayWindow.logged push
  rw [List.length_map]
  split
  next => rw [List.map_append, List.map_tail]; rfl
  next => rw [List.map_append]; rfl

theorem logged_dueForRetry (w : ReplayWindow) (retryLimit : UInt8) :
    (w.dueForRetry retryLimit).2.logged = w.logged := by
  have hkeeps := congrArg (List.map (·.2)) (retryLoop_keeps retryLimit w.entries)
  rw [List.map_map, List.map_map] at hkeeps
  exact hkeeps

/-- A range that is acknowledged strikes its frames out. -/
def AckRange.struck (ranges : List AckRange) (frame : LoggedFrame) : Bool := ranges.any (·.covers frame.1)

theorem logged_acknowledge {w w' : ReplayWindow} {epoch : UInt16} {ranges : List AckRange}
    {acked : List ReplayEntry} (h : w.acknowledge epoch ranges = (.ok acked, w')) :
    w'.logged = w.logged.filter fun frame => ! AckRange.struck ranges frame := by
  unfold ReplayWindow.acknowledge at h
  split at h
  next => cases h
  next =>
    split at h
    next => cases h
    next =>
      obtain rfl := congrArg Prod.snd h
      have hperm : (sortRanges ranges).Perm ranges := List.perm_insertionSort _ ranges
      unfold ReplayWindow.logged
      rw [List.filter_map]
      refine congrArg _ (List.filter_congr fun entry _ => ?_)
      exact congrArg not hperm.any_eq

namespace ConnectionEngine

/-- An emission is put in the log if its frame can be encoded and the replay window takes it. -/
def Emission.noted (p : Emission) : List (Note LoggedFrame) :=
  match p.1.codec.encode p.2 with
  | .error _ => []
  | .ok encoded =>
    match p.1.replay.record 1 p.2.frameSeq encoded with
    | (.error _, _) => []
    | (.ok _, _) => [.append (p.2.frameSeq, encoded)]

/-- What a received frame does to the log: an ACK strikes out its ranges, a PING is answered. -/
def frameNotes (p : ConnectionEngine × Frame) : List (Note LoggedFrame) :=
  match p.2.type with
  | .ack =>
    if p.2.channel.isControl = false then []
    else
      match decodeAckPayload p.2.payload with
      | .error _ => []
      | .ok (epoch, ranges) =>
        match p.1.replay.acknowledge epoch ranges with
        | (.error _, _) => []
        | (.ok _, _) => [.strike (AckRange.struck ranges)]
  | _ => (frameEmissions p).flatMap Emission.noted

/-- A snapshot that can be read replaces the log, also where its last number is refused afterwards. -/
def loadNotes (e : ConnectionEngine) (text : Bytes) : List (Note LoggedFrame) :=
  if e.state ≠ .created then []
  else
    match ReplayWindow.restoreRetained text with
    | .error _ => []
    | .ok w => [.replace w.logged]

/-- What a call does to the log. -/
def callNotes (e : ConnectionEngine) : Call → List (Note LoggedFrame)
  | .receive bytes eof =>
    (handled (e.decoded bytes eof).1 (e.decoded bytes eof).2).flatMap frameNotes
  | .loadReplaySnapshot text => e.loadNotes text
  | c => (e.emissions c).flatMap Emission.noted

def history (e : ConnectionEngine) : List Call → List (Note LoggedFrame)
  | [] => []
  | c :: calls => e.callNotes c ++ history (e.call c) calls

/-- Nothing changes that has to do with what is sent. -/
structure Unlogged (e e' : ConnectionEngine) : Prop where
  replay : e'.replay = e.replay
  nextFrameSeq : e'.nextFrameSeq = e.nextFrameSeq
  scheduler : e'.scheduler = e.scheduler
  policy : e'.policy = e.policy
  limits : e'.codec.limits = e.codec.limits

/-- How an engine gets from one state to another: what it emits on the way, what becomes of its log, and the
chunks that come of it all. A retry counts entries of the window, and changes nothing in the log. -/
inductive Notes : ConnectionEngine → List Emission → List (Note LoggedFrame) → List Bytes →
    ConnectionEngine → Prop
  | same {e e'} : Unlogged e e' → Notes e [] [] [] e'
  | emit {e e'} {frame : Frame} : frame.frameSeq = e.nextFrameSeq →
      Unlogged { e with nextFrameSeq := e.nextFrameSeq + 1 } e' →
      Notes e [(e', frame)] (Emission.noted (e', frame)) (outbound (e'.emit frame).1) (e'.emit frame).2
  | acks {e epoch ranges acked w} : e.replay.acknowledge epoch ranges = (.ok acked, w) →
      Notes e [] [.strike (AckRange.struck ranges)] [] { e with replay := w }
  | retries {e w due} {retryLimit : UInt8} : e.replay.dueForRetry retryLimit = (.ok due, w) →
      Notes e [] [] (due.map (·.encoded)) { e with replay := w }
  | spent {e w error} {retryLimit : UInt8} : e.replay.dueForRetry retryLimit = (.error error, w) →
      Notes e [] [] [] { e with replay := w }
  | repeats {e e' epoch firstRequired retained} : e.replay.retainedFrom epoch firstRequired = .ok retained →
      Unlogged e e' → Notes e [] [] (retained.map (·.encoded)) e'
  | flush {e} (writableBytes : Nat) :
      Notes e [] [] (e.flushOutbound writableBytes).1 (e.flushOutbound writableBytes).2
  | append {e e' e'' ps qs ns ms out more} : Notes e ps ns out e' → Notes e' qs ms more e'' →
      Notes e (ps ++ qs) (ns ++ ms) (out ++ more) e''

/-- A call that ends so has emitted these frames and noted this; the chunks that it is answered with, if it
succeeds, are all that came of it. -/
def Answers (e : ConnectionEngine) (ps : List Emission) (ns : List (Note LoggedFrame))
    (result : Except Error (List Bytes) × ConnectionEngine) : Prop :=
  ∃ out, Notes e ps ns out result.2 ∧ ∀ chunks, result.1 = .ok chunks → chunks = out

/-- Nothing but emissions happens to the log. -/
abbrev Emits (e : ConnectionEngine) (ps : List Emission)
    (result : Except Error (List Bytes) × ConnectionEngine) : Prop :=
  Answers e ps (ps.flatMap Emission.noted) result

theorem Unlogged.refl (e : ConnectionEngine) : Unlogged e e := ⟨rfl, rfl, rfl, rfl, rfl⟩

theorem Unlogged.trans {e e' e'' : ConnectionEngine} (h : Unlogged e e') (h' : Unlogged e' e'') :
    Unlogged e e'' :=
  ⟨h'.replay.trans h.replay, h'.nextFrameSeq.trans h.nextFrameSeq, h'.scheduler.trans h.scheduler,
    h'.policy.trans h.policy, h'.limits.trans h.limits⟩

section

variable {e e' e'' : ConnectionEngine} {ps qs : List Emission} {ns ms : List (Note LoggedFrame)}
  {result : Except Error (List Bytes) × ConnectionEngine}

theorem Unlogged.then_answers (h : Unlogged e e') (h' : Answers e' ps ns result) :
    Answers e ps ns result := by
  obtain ⟨out, hnotes, hout⟩ := h'
  exact ⟨out, Notes.append (.same h) hnotes, hout⟩

theorem Notes.then_unlogged {out : List Bytes} (h : Notes e ps ns out e') (h' : Unlogged e' e'') :
    Notes e ps ns out e'' := by
  have hboth := h.append (.same h')
  rwa [List.append_nil, List.append_nil, List.append_nil] at hboth

/-- The call goes on with what is not about sending, and is answered as before. -/
theorem Answers.then_unlogged (h : Answers e ps ns result) (h' : Unlogged result.2 e') :
    Answers e ps ns (result.1, e') := by
  obtain ⟨out, hnotes, hout⟩ := h
  exact ⟨out, hnotes.then_unlogged h', hout⟩

theorem Unlogged.fails {error : Error} (h : Unlogged e e') : Answers e [] [] (.error error, e') :=
  ⟨[], .same h, fun _ hok => by cases hok⟩

theorem Unlogged.succeeds (h : Unlogged e e') : Answers e [] [] (.ok [], e') :=
  ⟨[], .same h, fun _ hok => by cases hok; rfl⟩

theorem Emits.emit {frame : Frame} (hseq : frame.frameSeq = e.nextFrameSeq)
    (h : Unlogged { e with nextFrameSeq := e.nextFrameSeq + 1 } e') :
    Emits e [(e', frame)] (e'.emit frame) := by
  unfold Emits
  rw [List.flatMap_singleton]
  refine ⟨_, .emit hseq h, fun chunks hok => ?_⟩
  rw [hok]
  rfl

end

theorem emitFrame_emits (e : ConnectionEngine) (type : FrameType) (channel : ChannelId) (payload : Bytes)
    (extensions : List Extension) :
    Emits e [e.framed type channel payload extensions] (e.emitFrame type channel payload extensions) :=
  .emit rfl (.refl _)

theorem emit_noted (e : ConnectionEngine) (frame : Frame) :
    Emission.noted (e, frame) = [] ∧ (e.emit frame).2.replay = e.replay ∨
      ∃ encoded, e.codec.encode frame = .ok encoded ∧ e.replay.Accepts frame.frameSeq ∧
        Emission.noted (e, frame) = [.append (frame.frameSeq, encoded)] ∧
        (e.emit frame).2.replay = e.replay.recorded frame.frameSeq encoded := by
  unfold Emission.noted emit
  dsimp only
  cases e.codec.encode frame with
  | error error => exact .inl ⟨rfl, rfl⟩
  | ok encoded =>
    dsimp only
    rcases hrecord : e.replay.record 1 frame.frameSeq encoded with ⟨error | ⟨⟩, w⟩
    · exact .inl ⟨rfl, record_error hrecord⟩
    · have haccepts := record_ok (congrArg Prod.fst hrecord)
      rw [haccepts.record] at hrecord
      obtain rfl := congrArg Prod.snd hrecord
      refine .inr ⟨encoded, rfl, haccepts, rfl, ?_⟩
      dsimp only
      split
      next h =>
        obtain rfl := congrArg Prod.snd h
        rfl
      next h =>
        obtain rfl := congrArg Prod.snd h
        rfl

end ConnectionEngine

end LatticeGateway

import LatticeGateway.EngineBuffer

namespace LatticeGateway

open Runs StreamDecoder

/-- The event, if any, behind the frames that were decoded. -/
def tailEvents : Tail UInt8 Error → List DecodeEvent
  | .rest _ => []
  | .failed error => [.error error]

theorem feedResult_events (frames : List Frame) (tail : Tail UInt8 Error) :
    (feedResult (frames.map .frame) tail).1 = frames.map .frame ++ tailEvents tail ∨
      (frames = [] ∧ tailEvents tail = [] ∧ (feedResult (frames.map .frame) tail).1 = [.needMore]) := by
  cases tail with
  | failed error => exact .inl rfl
  | rest rest =>
    cases frames with
    | nil => exact .inr ⟨rfl, rfl, rfl⟩
    | cons frame frames => exact .inl (by simp [feedResult, tailEvents])

theorem frame_in_events {frames : List Frame} {tail : Tail UInt8 Error} {before behind : List DecodeEvent}
    {frame : Frame} (h : frames.map .frame ++ tailEvents tail = before ++ .frame frame :: behind) :
    ∃ fs gs, frames = fs ++ frame :: gs ∧ before = fs.map .frame ∧
      behind = gs.map .frame ++ tailEvents tail := by
  induction frames generalizing before with
  | nil =>
    have hmem : DecodeEvent.frame frame ∈ tailEvents tail := by
      rw [List.map_nil, List.nil_append] at h
      simp [h]
    cases tail <;> simp [tailEvents] at hmem
  | cons x frames ih =>
    cases before with
    | nil =>
      obtain ⟨hx, hbehind⟩ := List.cons_eq_cons.mp h
      cases hx
      exact ⟨[], frames, rfl, rfl, hbehind.symm⟩
    | cons event before =>
      obtain ⟨rfl, hrest⟩ := List.cons_eq_cons.mp h
      obtain ⟨fs, gs, rfl, rfl, hbehind⟩ := ih hrest
      exact ⟨x :: fs, gs, rfl, rfl, hbehind⟩

theorem suffix_of_events {frames : List Frame} {tail : Tail UInt8 Error} {last : List DecodeEvent}
    (h : last <:+ frames.map .frame ++ tailEvents tail) (hne : last ≠ []) :
    ∃ fs gs, frames = fs ++ gs ∧ last = gs.map .frame ++ tailEvents tail := by
  obtain ⟨before, hbefore⟩ := h
  rcases List.append_eq_append_iff.mp hbefore with ⟨mid, hmid, hlast⟩ | ⟨mid, hmid, hlast⟩
  · obtain ⟨fs, gs, rfl, _, rfl⟩ := List.map_eq_append_iff.mp hmid
    exact ⟨fs, gs, rfl, hlast⟩
  · cases mid with
    | nil => exact ⟨frames, [], by simp, by simpa using hlast.symm⟩
    | cons event mid =>
      have hnil : last = [] := by
        cases tail <;> simp [tailEvents] at hlast
        exact hlast.2.2
      exact absurd hnil hne

theorem decodes_failed_closes {limits : FrameLimits} {bytes : Bytes} {frames : List Frame} {error : Error}
    (h : Decodes (decodeFrame limits false) bytes frames (.failed error)) :
    error.action = .closeConnection := by
  generalize htail : Tail.failed error = tail at h
  induction h with
  | rest => cases htail
  | failed hv =>
    cases htail
    exact decodeFrame_fail_closes hv
  | item _ _ ih => exact ih htail

namespace ConnectionEngine

/-- What a caller sees of an engine. -/
def SeenAlike (e e' : ConnectionEngine) : Prop :=
  e'.state = e.state ∧ e'.channels = e.channels ∧ e'.events = e.events

/-- `receive` on one chunk after the other: all that it returned, and the engine at the end. -/
def receiveChunks (e : ConnectionEngine) : List Bytes → List Bytes × ConnectionEngine
  | [] => ([], e)
  | chunk :: chunks =>
    let (answer, e) := e.receive chunk false
    let (out, e) := e.receiveChunks chunks
    (outbound answer ++ out, e)

/-- However the bytes are cut into chunks, `receive` does and answers what it does on them at once. -/
def ChunksAlike (e : ConnectionEngine) (bytes : Bytes) : Prop :=
  ∀ chunks, chunks.flatten = bytes →
    (e.receiveChunks chunks).1 = outbound (e.receive bytes false).1 ∧
      SeenAlike (e.receive bytes false).2 (e.receiveChunks chunks).2

/-- The events have no visible effect: each is handled, none is answered. -/
def Unseen (events : List DecodeEvent) (e : ConnectionEngine) : Prop :=
  (receiveLoop events e []).1 = .ok [] ∧ SeenAlike e (receiveLoop events e []).2

/-- When an event fails, none before it is answered, and no last part of what follows has an effect. -/
def KeepsChunks (events : List DecodeEvent) (e : ConnectionEngine) : Prop :=
  ∀ before event behind out e₁ error e₂, events = before ++ event :: behind →
    receiveLoop before e [] = (.ok out, e₁) → e₁.handleEvent event = (.error error, e₂) →
    out = [] ∧ ∀ rest, rest <:+ behind → Unseen rest e₂

theorem receiveLoop_append (events more : List DecodeEvent) (e : ConnectionEngine) (out : List Bytes) :
    receiveLoop (events ++ more) e out =
      match receiveLoop events e out with
      | (.error error, e) => (.error error, e)
      | (.ok out, e) => receiveLoop more e out := by
  induction events generalizing e out with
  | nil => rfl
  | cons event events ih =>
    simp only [List.cons_append, receiveLoop]
    rcases e.handleEvent event with ⟨_ | produced, e'⟩
    · rfl
    · exact ih e' (out ++ produced)

theorem receiveLoop_out (events : List DecodeEvent) (e : ConnectionEngine) (out : List Bytes) :
    receiveLoop events e out =
      ((receiveLoop events e []).1.map (out ++ ·), (receiveLoop events e []).2) := by
  induction events generalizing e out with
  | nil => simp [receiveLoop, Except.map]
  | cons event events ih =>
    simp only [receiveLoop]
    rcases e.handleEvent event with ⟨_ | produced, e'⟩
    · rfl
    · dsimp only
      rw [ih e' (out ++ produced), ih e' ([] ++ produced)]
      rcases receiveLoop events e' [] with ⟨_ | _, e''⟩ <;> simp [Except.map]

/-- Two runs of the loop, one behind the other, that are not stopped. -/
theorem receiveLoop_append_ok {events more : List DecodeEvent} {e e' : ConnectionEngine}
    {out : List Bytes} (h : receiveLoop (events ++ more) e [] = (.ok out, e')) :
    ∃ first second e₁, receiveLoop events e [] = (.ok first, e₁) ∧
      receiveLoop more e₁ [] = (.ok second, e') ∧ out = first ++ second := by
  rw [receiveLoop_append] at h
  rcases hfirst : receiveLoop events e [] with ⟨_ | first, e₁⟩
  · rw [hfirst] at h
    cases h
  · rw [hfirst] at h
    dsimp only at h
    rw [receiveLoop_out] at h
    rcases hsecond : receiveLoop more e₁ [] with ⟨_ | second, e₂⟩
    · rw [hsecond] at h
      cases h
    · rw [hsecond] at h
      cases h
      exact ⟨first, second, e₁, rfl, hsecond, rfl⟩

/-- An event that fails ends the loop. -/
theorem receiveLoop_fails {before : List DecodeEvent} {e e₁ e₂ : ConnectionEngine} {out : List Bytes}
    {event : DecodeEvent} {error : Error} (hbefore : receiveLoop before e [] = (.ok out, e₁))
    (hevent : e₁.handleEvent event = (.error error, e₂)) (behind : List DecodeEvent) :
    receiveLoop (before ++ event :: behind) e [] = (.error error, e₂) := by
  rw [receiveLoop_append, hbefore]
  simp only [receiveLoop, hevent]

/-- The loop either gets through, or stops at its first failing event. -/
theorem receiveLoop_cases (events : List DecodeEvent) (e : ConnectionEngine) :
    (∃ out e', receiveLoop events e [] = (.ok out, e')) ∨
      ∃ before event behind out e₁ error e₂, events = before ++ event :: behind ∧
        receiveLoop before e [] = (.ok out, e₁) ∧ e₁.handleEvent event = (.error error, e₂) := by
  induction events generalizing e with
  | nil => exact .inl ⟨[], e, rfl⟩
  | cons event events ih =>
    rcases hevent : e.handleEvent event with ⟨error | produced, e'⟩
    · exact .inr ⟨[], event, events, [], e, error, e', rfl, rfl, hevent⟩
    · rcases ih e' with
        ⟨out, e'', h⟩ | ⟨before, failing, behind, out, e₁, error, e₂, rfl, hbefore, hfailing⟩
      · refine .inl ⟨produced ++ out, e'', ?_⟩
        simp only [receiveLoop, hevent]
        rw [receiveLoop_out, h]
        simp [Except.map]
      · refine .inr ⟨event :: before, failing, behind, produced ++ out, e₁, error, e₂, rfl, ?_, hfailing⟩
        simp only [receiveLoop, hevent]
        rw [receiveLoop_out, hbefore]
        simp [Except.map]

/-- `receive` decodes, then runs its loop as if the bytes behind the frames were not there. -/
theorem receive_decodes {e : ConnectionEngine} {bytes : Bytes} {frames : List Frame}
    {tail : Tail UInt8 Error}
    (h : Decodes (decodeFrame e.codec.limits false) (e.codec.buffer ++ bytes) frames tail) :
    e.receive bytes false = rebuffer (feedResult (frames.map .frame) tail).2
      (receiveLoop (feedResult (frames.map .frame) tail).1 e []) := by
  rw [receive_eq, decoded, FrameCodec.feed_more h]
  exact receiveLoop_buffer _ e _ []

theorem receive_rest {e : ConnectionEngine} {bytes rest : Bytes} {frames : List Frame}
    (h : Decodes (decodeFrame e.codec.limits false) (e.codec.buffer ++ bytes) frames (.rest rest)) :
    e.receive bytes false = rebuffer rest (receiveLoop (frames.map .frame) e []) := by
  rw [receive_decodes h]
  cases frames <;> rfl

/-- The frames of a chunk, those of the chunks that follow, and what is left at the end. -/
theorem chunk_decodes {e : ConnectionEngine} {chunk later rest : Bytes} {frames : List Frame}
    (h : Decodes (decodeFrame e.codec.limits false) (e.codec.buffer ++ (chunk ++ later)) frames
      (.rest rest)) :
    ∃ first second left, frames = first ++ second ∧
      Decodes (decodeFrame e.codec.limits false) (e.codec.buffer ++ chunk) first (.rest left) ∧
      Decodes (decodeFrame e.codec.limits false) (left ++ later) second (.rest rest) := by
  have hstable := decodeFrame_stable e.codec.limits
  obtain ⟨first, tail, hfirst⟩ := hstable.exists_decodes (e.codec.buffer ++ chunk)
  rw [← List.append_assoc] at h
  cases tail with
  | failed error =>
    obtain ⟨_, htail⟩ := h.unique (hfirst.append_failed hstable later)
    cases htail
  | rest left =>
    obtain ⟨second, tail, hsecond⟩ := hstable.exists_decodes (left ++ later)
    obtain ⟨hframes, htail⟩ := h.unique (hfirst.append_rest hstable hsecond)
    rw [← htail] at hsecond
    exact ⟨first, second, left, hframes, hfirst, hsecond⟩

theorem decodes_hungry {e : ConnectionEngine} {frames : List Frame} {rest : Bytes} (hi : Hungry e)
    (h : Decodes (decodeFrame e.codec.limits false) e.codec.buffer frames (.rest rest)) :
    frames = [] ∧ rest = e.codec.buffer := by
  obtain ⟨hframes, htail⟩ := h.unique (.rest hi)
  cases htail
  exact ⟨hframes, rfl⟩

/-- What a chunk leaves in the codec is again no whole frame. -/
theorem left_hungry {e e' : ConnectionEngine} {bytes left : Bytes} {frames : List Frame}
    (hcodec : e'.codec = e.codec)
    (h : Decodes (decodeFrame e.codec.limits false) bytes frames (.rest left)) :
    Hungry (e'.withBuffer left) ∧ (e'.withBuffer left).codec.limits = e.codec.limits := by
  have hlimits : (e'.withBuffer left).codec.limits = e.codec.limits := congrArg (·.limits) hcodec
  refine ⟨?_, hlimits⟩
  unfold Hungry
  rw [hlimits]
  exact h.rest_needMore

/-- Chunks whose frames all succeed do together what their frames do. -/
theorem receiveChunks_ok (chunks : List Bytes) {e e' : ConnectionEngine} {frames : List Frame}
    {rest : Bytes} {out : List Bytes} (hi : Hungry e)
    (h : Decodes (decodeFrame e.codec.limits false) (e.codec.buffer ++ chunks.flatten) frames
      (.rest rest)) (hloop : receiveLoop (frames.map .frame) e [] = (.ok out, e')) :
    e.receiveChunks chunks = (out, e'.withBuffer rest) := by
  induction chunks generalizing e e' frames out with
  | nil =>
    rw [List.flatten_nil, List.append_nil] at h
    obtain ⟨rfl, rfl⟩ := decodes_hungry hi h
    cases hloop
    rfl
  | cons chunk chunks ih =>
    obtain ⟨first, second, left, rfl, hfirst, hsecond⟩ := chunk_decodes h
    rw [List.map_append] at hloop
    obtain ⟨out₁, out₂, e₁, hloop₁, hloop₂, rfl⟩ := receiveLoop_append_ok hloop
    have hcodec : e₁.codec = e.codec := by
      have := receiveLoop_codec (first.map .frame) e []
      rw [hloop₁] at this
      exact this
    have hreceive : e.receive chunk false = (.ok out₁, e₁.withBuffer left) := by
      rw [receive_rest hfirst, hloop₁]
      rfl
    obtain ⟨hhungry, hlimits⟩ := left_hungry hcodec hfirst
    have hloop' : receiveLoop (second.map .frame) (e₁.withBuffer left) [] =
        (.ok out₂, e'.withBuffer left) := by
      rw [receiveLoop_buffer, hloop₂]
      rfl
    rw [← hlimits] at hsecond
    have hrest := ih hhungry hsecond hloop'
    simp only [receiveChunks, hreceive, hrest]
    rfl

theorem Unseen.withBuffer {events : List DecodeEvent} {e : ConnectionEngine} (h : Unseen events e)
    (buffer : Bytes) : Unseen events (e.withBuffer buffer) := by
  unfold Unseen
  rw [receiveLoop_buffer]
  exact h

/-- Chunks of which one frame fails, with nothing answered before it and nothing to see behind it. -/
theorem receiveChunks_failing (chunks : List Bytes) {e e₁ e₂ : ConnectionEngine}
    {before behind : List Frame} {frame : Frame} {rest : Bytes} {error : Error} (hi : Hungry e)
    (h : Decodes (decodeFrame e.codec.limits false) (e.codec.buffer ++ chunks.flatten)
      (before ++ frame :: behind) (.rest rest))
    (hbefore : receiveLoop (before.map .frame) e [] = (.ok [], e₁))
    (hframe : e₁.handleEvent (.frame frame) = (.error error, e₂))
    (hunseen : ∀ last, last <:+ behind → Unseen (last.map .frame) e₂) :
    (e.receiveChunks chunks).1 = [] ∧ SeenAlike e₂ (e.receiveChunks chunks).2 := by
  induction chunks generalizing e e₁ e₂ before with
  | nil =>
    rw [List.flatten_nil, List.append_nil] at h
    have hnil := (decodes_hungry hi h).1
    simp at hnil
  | cons chunk chunks ih =>
    obtain ⟨first, second, left, hframes, hfirst, hsecond⟩ := chunk_decodes h
    -- either the chunk ends before the failing frame, or that frame is in it
    have hcases : (∃ mid, before = first ++ mid ∧ second = mid ++ frame :: behind) ∨
        ∃ mid, first = before ++ frame :: mid ∧ behind = mid ++ second := by
      rcases List.append_eq_append_iff.mp hframes with ⟨mid, hmid, hrest⟩ | ⟨mid, hmid, hrest⟩
      · cases mid with
        | nil => exact .inl ⟨[], by simpa using hmid.symm, by simpa using hrest.symm⟩
        | cons x mid =>
          obtain ⟨rfl, hbehind⟩ := List.cons_eq_cons.mp hrest
          exact .inr ⟨mid, hmid, hbehind⟩
      · exact .inl ⟨mid, hmid, hrest⟩
    rcases hcases with ⟨mid, rfl, rfl⟩ | ⟨mid, rfl, rfl⟩
    · rw [List.map_append] at hbefore
      obtain ⟨out₁, out₂, e', hloop₁, hloop₂, hout⟩ := receiveLoop_append_ok hbefore
      obtain ⟨rfl, rfl⟩ := List.append_eq_nil_iff.mp hout.symm
      have hcodec : e'.codec = e.codec := by
        have := receiveLoop_codec (first.map .frame) e []
        rw [hloop₁] at this
        exact this
      have hreceive : e.receive chunk false = (.ok [], e'.withBuffer left) := by
        rw [receive_rest hfirst, hloop₁]
        rfl
      obtain ⟨hhungry, hlimits⟩ := left_hungry hcodec hfirst
      have hloop' : receiveLoop (mid.map .frame) (e'.withBuffer left) [] =
          (.ok [], e₁.withBuffer left) := by
        rw [receiveLoop_buffer, hloop₂]
        rfl
      have hframe' : (e₁.withBuffer left).handleEvent (.frame frame) =
          (.error error, e₂.withBuffer left) := by
        rw [handleEvent_buffer, hframe]
        rfl
      rw [← hlimits] at hsecond
      obtain ⟨hout, hseen⟩ := ih hhungry hsecond hloop' hframe' fun last hlast =>
        (hunseen last hlast).withBuffer left
      simp only [receiveChunks, hreceive]
      exact ⟨by rw [hout]; rfl, hseen⟩
    · have hstop : receiveLoop ((before ++ frame :: mid).map .frame) e [] = (.error error, e₂) := by
        rw [List.map_append, List.map_cons]
        exact receiveLoop_fails hbefore hframe _
      have hreceive : e.receive chunk false = (.error error, e₂.withBuffer left) := by
        rw [receive_rest hfirst, hstop]
        rfl
      have hcodec : e₂.codec = e.codec := by
        have := receiveLoop_codec ((before ++ frame :: mid).map .frame) e []
        rw [hstop] at this
        exact this
      obtain ⟨hhungry, hlimits⟩ := left_hungry hcodec hfirst
      obtain ⟨hanswer, hseen⟩ := (hunseen second (List.suffix_append mid second)).withBuffer left
      rw [← hlimits] at hsecond
      have hrest := receiveChunks_ok chunks hhungry hsecond (Prod.ext hanswer rfl)
      simp only [receiveChunks, hreceive, hrest]
      exact ⟨rfl, hseen⟩

theorem Step.events_length {e e' : ConnectionEngine} (h : Step e e') :
    e.events.length ≤ e'.events.length := by
  cases h with
  | silent h =>
    obtain ⟨more, hevents, _⟩ := h.events
    simp [hevents]
  | hello _ _ _ h =>
    obtain ⟨more, hevents, _⟩ := h.events
    rw [hevents]
    simp only [negotiated, record, scheduleTimer, List.length_append]
    omega
  | delivers h =>
    obtain ⟨_, _, _, _, _, _, _, _, _, _, h⟩ := h
    obtain ⟨more, hevents, _⟩ := h.events
    rw [hevents]
    simp only [delivered, record, setSlot, List.length_append]
    omega

/-- A failing event leaves a diagnostic. -/
theorem handleEvent_error_events {e e' : ConnectionEngine} {event : DecodeEvent} {error : Error}
    (h : e.handleEvent event = (.error error, e')) : e.events.length < e'.events.length := by
  cases event with
  | needMore => cases h
  | error error =>
    cases h
    simp [diagnostic]
  | frame frame =>
    have hlength := (handleFrame_step e frame).events_length
    unfold handleEvent at h
    dsimp only at h
    split at h
    next heq =>
      rw [heq] at hlength
      cases h
      dsimp only at hlength
      split <;> simp only [diagnostic, List.length_append, List.length_singleton] <;> omega
    next => cases h

/-- What the loop leaves unseen it has got through. -/
theorem receiveLoop_error_events {events : List DecodeEvent} {e e' : ConnectionEngine} {error : Error}
    {out : List Bytes} (h : receiveLoop events e out = (.error error, e')) :
    e.events.length < e'.events.length := by
  induction events generalizing e out with
  | nil => cases h
  | cons event events ih =>
    have hstep := (handleEvent_step e event).events_length
    unfold receiveLoop at h
    rcases hevent : e.handleEvent event with ⟨_ | produced, e₁⟩
    · rw [hevent] at h
      cases h
      exact handleEvent_error_events hevent
    · rw [hevent] at h hstep
      have := ih h
      dsimp only at hstep
      omega

/-- An event that fails without closing the connection is a frame among those that were decoded. -/
theorem failing_frame {e e₁ e₂ : ConnectionEngine} {bytes : Bytes} {frames : List Frame}
    {tail : Tail UInt8 Error} {before behind : List DecodeEvent} {event : DecodeEvent} {error : Error}
    {out : List Bytes}
    (h : Decodes (decodeFrame e.codec.limits false) (e.codec.buffer ++ bytes) frames tail)
    (hclosing : ∀ error, (e.receive bytes false).1 = .error error → error.action ≠ .closeConnection)
    (hevents : (feedResult (frames.map .frame) tail).1 = before ++ event :: behind)
    (hbefore : receiveLoop before e [] = (.ok out, e₁))
    (hevent : e₁.handleEvent event = (.error error, e₂)) :
    e.receive bytes false = rebuffer (feedResult (frames.map .frame) tail).2 (.error error, e₂) ∧
      ∃ fs frame gs, event = .frame frame ∧ frames = fs ++ frame :: gs ∧ before = fs.map .frame ∧
        behind = gs.map .frame ++ tailEvents tail := by
  have hreceive : e.receive bytes false =
      rebuffer (feedResult (frames.map .frame) tail).2 (.error error, e₂) := by
    rw [receive_decodes h, hevents, receiveLoop_fails hbefore hevent]
  refine ⟨hreceive, ?_⟩
  have hopen := hclosing error (by rw [hreceive]; rfl)
  rcases feedResult_events frames tail with heq | ⟨_, _, heq⟩
  · rw [heq] at hevents
    cases event with
    | needMore => cases hevent
    | frame frame =>
      obtain ⟨fs, gs, hframes, hfs, hgs⟩ := frame_in_events hevents
      exact ⟨fs, frame, gs, rfl, hframes, hfs, hgs⟩
    | error failure =>
      obtain rfl : failure = error := by
        cases hevent
        rfl
      have hmem : DecodeEvent.error failure ∈ frames.map .frame ++ tailEvents tail := by simp [hevents]
      cases tail with
      | rest rest => simp [tailEvents] at hmem
      | failed failure' =>
        obtain rfl : failure = failure' := by simpa [tailEvents] using hmem
        exact absurd (decodes_failed_closes h) hopen
  · rw [heq] at hevents
    have hmem : event ∈ [DecodeEvent.needMore] := by simp [hevents]
    rw [List.mem_singleton.mp hmem] at hevent
    cases hevent

/-- Bytes whose frames all succeed, or fail with nothing to lose, can be cut anywhere. -/
theorem chunksAlike_of_keeps {e : ConnectionEngine} {bytes : Bytes} {frames : List Frame}
    {tail : Tail UInt8 Error} (hi : Hungry e)
    (h : Decodes (decodeFrame e.codec.limits false) (e.codec.buffer ++ bytes) frames tail)
    (hclosing : ∀ error, (e.receive bytes false).1 = .error error → error.action ≠ .closeConnection)
    (hkeeps : KeepsChunks (feedResult (frames.map .frame) tail).1 e) : ChunksAlike e bytes := by
  rintro chunks rfl
  rcases receiveLoop_cases (feedResult (frames.map .frame) tail).1 e with ⟨out, e', hloop⟩ |
    ⟨before, event, behind, out, e₁, error, e₂, hevents, hbefore, hevent⟩
  · have hreceive := receive_decodes h
    rw [hloop] at hreceive
    cases tail with
    | failed error =>
      obtain ⟨_, _, _, _, hfailed, _⟩ := receiveLoop_append_ok hloop
      cases hfailed
    | rest rest =>
      rw [receive_rest h] at hreceive
      have hloop' : receiveLoop (frames.map .frame) e [] = (.ok out, e') := by
        cases frames <;> exact hloop
      rw [receiveChunks_ok chunks hi h hloop', receive_rest h, hloop']
      exact ⟨rfl, rfl, rfl, rfl⟩
  · obtain ⟨rfl, hunseen⟩ := hkeeps before event behind out e₁ error e₂ hevents hbefore hevent
    obtain ⟨hreceive, fs, frame, gs, rfl, rfl, rfl, rfl⟩ :=
      failing_frame h hclosing hevents hbefore hevent
    rw [hreceive]
    cases tail with
    | failed failure =>
      have hlast := hunseen [.error failure] (List.suffix_append _ _)
      cases hlast.1
    | rest rest =>
      have hlast : ∀ last, last <:+ gs → Unseen (last.map .frame) e₂ := by
        rintro last ⟨front, rfl⟩
        exact hunseen _ ⟨front.map .frame, by simp [tailEvents]⟩
      have hfailing : (e.receiveChunks chunks).1 = [] ∧ SeenAlike e₂ (e.receiveChunks chunks).2 :=
        receiveChunks_failing chunks hi h hbefore hevent hlast
      exact hfailing

/-- The chunk that ends with the frames `fs` of the bytes, and the chunk with the others. -/
theorem chunk_at {e : ConnectionEngine} {bytes : Bytes} {fs gs : List Frame} {tail : Tail UInt8 Error}
    (hi : Hungry e) (hne : fs ≠ [])
    (h : Decodes (decodeFrame e.codec.limits false) (e.codec.buffer ++ bytes) (fs ++ gs) tail) :
    ∃ first second, bytes = first ++ second ∧
      Decodes (decodeFrame e.codec.limits false) (e.codec.buffer ++ first) fs (.rest []) ∧
      Decodes (decodeFrame e.codec.limits false) second gs tail := by
  have hstable := decodeFrame_stable e.codec.limits
  obtain ⟨n, hn, hfirst, hsecond⟩ := h.cut hstable (decodeFrame_nil _ _)
  obtain ⟨x, fs, rfl⟩ := List.exists_cons_of_ne_nil hne
  have hle : e.codec.buffer.length ≤ n := by
    refine hfirst.cut_beyond hstable ?_
    rw [List.take_left]
    exact hi
  have hcut : n = e.codec.buffer.length + (n - e.codec.buffer.length) := by omega
  rw [hcut, List.take_length_add_append] at hfirst
  rw [hcut, List.drop_length_add_append] at hsecond
  exact ⟨_, _, (List.take_append_drop _ _).symm, hfirst, hsecond⟩

/-- Bytes that can be cut anywhere lose nothing to a frame that fails. -/
theorem keeps_of_chunksAlike {e : ConnectionEngine} {bytes : Bytes} {frames : List Frame}
    {tail : Tail UInt8 Error} (hi : Hungry e)
    (h : Decodes (decodeFrame e.codec.limits false) (e.codec.buffer ++ bytes) frames tail)
    (hclosing : ∀ error, (e.receive bytes false).1 = .error error → error.action ≠ .closeConnection)
    (halike : ChunksAlike e bytes) : KeepsChunks (feedResult (frames.map .frame) tail).1 e := by
  intro before event behind out e₁ error e₂ hevents hbefore hevent
  obtain ⟨hreceive, fs, frame, gs, rfl, rfl, rfl, rfl⟩ :=
    failing_frame h hclosing hevents hbefore hevent
  refine ⟨?_, ?_⟩
  · -- cut before the failing frame: what was answered until then is returned
    by_cases hfs : fs = []
    · subst hfs
      cases hbefore
      rfl
    · obtain ⟨first, second, rfl, hfirst, _⟩ := chunk_at hi hfs h
      have hout := (halike [first, second] (by simp)).1
      have hanswer : (e.receive first false).1 = .ok out := by
        rw [receive_rest hfirst, hbefore]
        rfl
      rw [hreceive] at hout
      simp only [receiveChunks, hanswer, rebuffer, outbound] at hout
      exact (List.append_eq_nil_iff.mp hout).1
  · intro last hlast
    by_cases hne : last = []
    · subst hne
      exact ⟨rfl, rfl, rfl, rfl⟩
    · -- cut before the last part: it meets the engine that the failing frame has left
      obtain ⟨mid, rest, rfl, rfl⟩ := suffix_of_events hlast hne
      rw [show fs ++ frame :: (mid ++ rest) = (fs ++ frame :: mid) ++ rest by simp] at h
      obtain ⟨first, second, rfl, hfirst, hsecond⟩ := chunk_at hi (by simp) h
      have hstop : e.receive first false = (.error error, e₂.withBuffer []) := by
        rw [receive_rest hfirst, List.map_append, List.map_cons, receiveLoop_fails hbefore hevent]
        rfl
      have hcodec : (e₂.withBuffer []).codec.limits = e.codec.limits := by
        have := receiveLoop_codec ((fs ++ frame :: mid).map .frame) e []
        rw [List.map_append, List.map_cons, receiveLoop_fails hbefore hevent] at this
        exact congrArg (·.limits) this
      have hrest : (e₂.withBuffer []).receive second false = rebuffer (feedResult (rest.map .frame) tail).2
          (receiveLoop (rest.map .frame ++ tailEvents tail) e₂ []) := by
        rw [← hcodec] at hsecond
        rw [receive_decodes hsecond, receiveLoop_buffer]
        rcases feedResult_events rest tail with heq | ⟨rfl, htail, _⟩
        · rw [heq]
          rfl
        · exact absurd htail hne
      obtain ⟨hout, hseen⟩ := halike [first, second] (by simp)
      rw [hreceive] at hout hseen
      simp only [receiveChunks, hstop, hrest, rebuffer, outbound] at hout hseen
      rcases hloop : receiveLoop (rest.map .frame ++ tailEvents tail) e₂ [] with ⟨failure | later, e₃⟩
      · have hlonger := receiveLoop_error_events hloop
        rw [hloop] at hseen
        have hevents : e₃.events = e₂.events := hseen.2.2
        rw [hevents] at hlonger
        omega
      · rw [hloop] at hout hseen
        have hnil : later = [] := by simpa [outbound] using hout
        refine ⟨?_, ?_⟩
        · rw [hloop, hnil]
        · rw [hloop]
          exact hseen

end ConnectionEngine

open ConnectionEngine

/-- In every state that a run reaches, bytes that raise no connection-closing error can be cut into chunks
anywhere exactly when no frame fails, or the first that does follows on nothing answered and nothing
behind it has a visible effect. -/
theorem chunks_alike_iff (policy : LocalPolicy) (registry : PluginRegistry)
    (executor : Option (DeterministicExecutor EngineTask)) (calls : List Call) {bytes : Bytes}
    (hclosing : ∀ error, ((run call (make policy registry executor) calls).receive bytes false).1 =
      .error error → error.action ≠ .closeConnection) :
    ChunksAlike (run call (make policy registry executor) calls) bytes ↔
      KeepsChunks ((run call (make policy registry executor) calls).decoded bytes false).1
        (run call (make policy registry executor) calls) := by
  have hmake : Hungry (make policy registry executor) := decodeFrame_nil _ _
  have hi : Hungry (run call (make policy registry executor) calls) :=
    run_induction (fun _ c hi => hi.call c) calls hmake
  obtain ⟨frames, tail, h⟩ := (decodeFrame_stable _).exists_decodes
    ((run call (make policy registry executor) calls).codec.buffer ++ bytes)
  rw [decoded, FrameCodec.feed_more h]
  exact ⟨keeps_of_chunksAlike hi h hclosing, chunksAlike_of_keeps hi h hclosing⟩

/-- An engine with one channel slot that has negotiated. -/
def negotiatedEngine : ConnectionEngine :=
  run call (make { maxChannels := 1 } echoRegistry none) (negotiation { maxChannels := 1 })

def pingBytes : Bytes := frameBytes { type := .ping, payload := u64Bytes 1 }

/-- An OPEN whose generation is not the next one, which resets the channel and no more. -/
def staleOpenBytes : Bytes :=
  frameBytes { type := .open, channel := ⟨1, 2⟩, payload := u32Bytes 7 ++ u32Bytes 0 }

/-- The action that an answer asks for. -/
def answeredAction {α : Type} : Except Error α → CloseAction
  | .error error => error.action
  | .ok _ => .none

theorem chunks_alike_ping : ChunksAlike negotiatedEngine pingBytes := by
  obtain ⟨haction, hevents, hok⟩ :
      answeredAction (negotiatedEngine.receive pingBytes false).1 = .none ∧
      (negotiatedEngine.decoded pingBytes false).1 =
        [.frame { type := .ping, payload := u64Bytes 1 }] ∧
      (negotiatedEngine.handleEvent (.frame { type := .ping, payload := u64Bytes 1 })).1.isOk = true := by
    decide +kernel
  have hclosing : ∀ error, (negotiatedEngine.receive pingBytes false).1 = .error error →
      error.action ≠ .closeConnection := by
    intro error herror hclose
    rw [herror, answeredAction, hclose] at haction
    cases haction
  refine (chunks_alike_iff _ _ _ _ hclosing).mpr ?_
  intro before event behind out e₁ error e₂ hsplit hbefore hevent
  have hsplit : [DecodeEvent.frame { type := .ping, payload := u64Bytes 1 }] =
    before ++ event :: behind := hevents.symm.trans hsplit
  cases before with
  | nil =>
    cases hbefore
    obtain ⟨rfl, rfl⟩ := List.cons_eq_cons.mp hsplit
    have hevent : negotiatedEngine.handleEvent _ = _ := hevent
    rw [hevent] at hok
    cases hok
  | cons first before => simp at hsplit

/-- Behind an OPEN that is refused, a PING is answered in a chunk of its own but not in the same one. -/
theorem chunks_differ_behind_refused_open :
    (∀ error, (negotiatedEngine.receive (staleOpenBytes ++ pingBytes) false).1 = .error error →
      error.action ≠ .closeConnection) ∧
      ¬ ChunksAlike negotiatedEngine (staleOpenBytes ++ pingBytes) := by
  obtain ⟨haction, hdiffer⟩ :
      answeredAction (negotiatedEngine.receive (staleOpenBytes ++ pingBytes) false).1 = .resetChannel ∧
      (negotiatedEngine.receiveChunks [staleOpenBytes, pingBytes]).1 ≠
        outbound (negotiatedEngine.receive (staleOpenBytes ++ pingBytes) false).1 := by
    decide +kernel
  refine ⟨?_, ?_⟩
  · intro error herror hclose
    rw [herror, answeredAction, hclose] at haction
    cases haction
  · intro halike
    exact hdiffer (halike [staleOpenBytes, pingBytes] (by simp)).1

end LatticeGateway

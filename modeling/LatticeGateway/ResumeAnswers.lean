import LatticeGateway.LoggedCalls

namespace LatticeGateway

open Runs BoundedLog

/-- The number of a logged frame. -/
abbrev LoggedFrame.number (frame : LoggedFrame) : Nat := frame.1.toNat

namespace ConnectionEngine

/-- There are numbers left for all the frames. -/
def HasRoom (e : ConnectionEngine) (ps : List Emission) : Prop :=
  ps = [] ∨ e.nextFrameSeq ≠ 0 ∧ e.nextFrameSeq.toNat + ps.length ≤ 2 ^ 32

instance (e : ConnectionEngine) (ps : List Emission) : Decidable (e.HasRoom ps) := instDecidableOr

/-- The window of a snapshot that is loaded leaves a number behind it. -/
def LeavesNumber (e : ConnectionEngine) (text : Bytes) : Prop :=
  e.state = .created → ∀ w ∈ (ReplayWindow.restoreRetained text).toOption, w.latestSequence ≠ some 0xFFFFFFFF

instance (e : ConnectionEngine) (text : Bytes) : Decidable (e.LeavesNumber text) :=
  have : Decidable (∀ w ∈ (ReplayWindow.restoreRetained text).toOption,
      w.latestSequence ≠ some 0xFFFFFFFF) := Option.decidableForallMem _
  inferInstanceAs (Decidable (_ → _))

def HasNumbers (e : ConnectionEngine) : Call → Prop
  | .loadReplaySnapshot text => e.LeavesNumber text
  | c => e.HasRoom (e.emissions c)

instance (e : ConnectionEngine) (c : Call) : Decidable (e.HasNumbers c) :=
  match c with
  | .loadReplaySnapshot text => instDecidableLeavesNumber e text
  | .start | .receive .. | .openChannel _ | .send .. | .grantCredit .. | .acknowledge _ | .ping _
  | .resume _ | .completePlugin _ | .advanceTime _ | .flushOutbound _ | .halfClose .. | .reset _
  | .goaway | .submitTask .. | .cancelTask _ | .drainOne | .drainAll => instDecidableHasRoom e _

/-- The replay window is the newest part of a log whose frames are numbered upwards, below the counter. -/
structure Logs (e : ConnectionEngine) (log : List LoggedFrame) : Prop where
  newest : e.replay.logged <:+ log
  ascends : Rising LoggedFrame.number e.ceiling log

theorem Logs.of_unlogged {e e' : ConnectionEngine} {log : List LoggedFrame} (h : Logs e log)
    (hsame : Unlogged e e') : Logs e' log := by
  refine ⟨by rw [hsame.replay]; exact h.newest, ?_⟩
  unfold ceiling
  rw [hsame.nextFrameSeq]
  exact h.ascends

/-- The counter goes up by the frames numbered. -/
theorem Notes.counter {e e' : ConnectionEngine} {ps : List Emission} {ns : List (Note LoggedFrame)}
    {out : List Bytes} (h : Notes e ps ns out e') :
    e'.nextFrameSeq = e.nextFrameSeq + UInt32.ofNat ps.length := by
  induction h with
  | same hsame => simp [hsame.nextFrameSeq]
  | repeats _ hsame => simp [hsame.nextFrameSeq]
  | emit _ hsame =>
    rw [emit_nextFrameSeq, hsame.nextFrameSeq]
    rfl
  | acks | retries | spent | flush => simp [flushOutbound]
  | append _ _ ih ih' => rw [ih', ih, List.length_append, UInt32.ofNat_add, UInt32.add_assoc]

/-- Where there are numbers for all, there are for the first ones and then for the others. -/
theorem Notes.room {e e' : ConnectionEngine} {ps qs : List Emission} {ns : List (Note LoggedFrame)}
    {out : List Bytes} (h : Notes e ps ns out e') (hroom : e.HasRoom (ps ++ qs)) :
    e.HasRoom ps ∧ e'.HasRoom qs := by
  constructor
  · refine hroom.imp (fun hnone => (List.append_eq_nil_iff.mp hnone).1) fun hleft => ?_
    rw [List.length_append] at hleft
    exact ⟨hleft.1, by omega⟩
  · rcases qs with _ | ⟨q, qs⟩
    · exact .inl rfl
    obtain ⟨hcounter, hlast⟩ := hroom.resolve_left (by simp)
    rw [List.length_append, List.length_cons] at hlast
    have hnext : e'.nextFrameSeq.toNat = e.nextFrameSeq.toNat + ps.length := by
      rw [h.counter, toNat_add_ofNat (by omega)]
    have hpos : e.nextFrameSeq.toNat ≠ 0 := fun hzero => hcounter (UInt32.toNat_inj.mp hzero)
    refine .inr ⟨?_, ?_⟩
    · rw [ne_eq, ← UInt32.toNat_inj, hnext, UInt32.toNat_zero]
      omega
    · rw [hnext, List.length_cons]
      omega

theorem Logs.retried {e : ConnectionEngine} {log : List LoggedFrame} (h : Logs e log) {retryLimit : UInt8}
    {w : ReplayWindow} {result : Except Error (List ReplayEntry)}
    (hretry : e.replay.dueForRetry retryLimit = (result, w)) : Logs { e with replay := w } log := by
  have hsame := logged_dueForRetry e.replay retryLimit
  rw [hretry] at hsame
  refine ⟨?_, h.ascends⟩
  rw [hsame]
  exact h.newest

theorem Notes.logs {e e' : ConnectionEngine} {ps : List Emission} {ns : List (Note LoggedFrame)}
    {out : List Bytes} (h : Notes e ps ns out e') {log : List LoggedFrame} (hlogs : Logs e log)
    (hroom : e.HasRoom ps) : Logs e' (ns.foldl write log) := by
  induction h generalizing log with
  | same hsame => exact hlogs.of_unlogged hsame
  | repeats _ hsame => exact hlogs.of_unlogged hsame
  | flush => exact ⟨hlogs.newest, hlogs.ascends⟩
  | acks hacked =>
    refine ⟨?_, hlogs.ascends.strike _⟩
    rw [logged_acknowledge hacked]
    exact strike_suffix hlogs.newest _
  | retries hretry => exact hlogs.retried hretry
  | spent hretry => exact hlogs.retried hretry
  | @emit e e' frame hseq hsame =>
    have hreplay : e'.replay = e.replay := hsame.replay
    obtain ⟨hcounter, hlast⟩ := hroom.resolve_left (List.cons_ne_nil _ _)
    have hceiling : e.ceiling = e.nextFrameSeq.toNat := ceiling_of_ne hcounter
    have hafter : (e'.emit frame).2.ceiling = e.nextFrameSeq.toNat + 1 := by
      have htrace : Notes e [(e', frame)] _ _ (e'.emit frame).2 := .emit hseq hsame
      unfold ceiling
      rw [htrace.counter]
      rw [List.length_singleton] at hlast ⊢
      by_cases hwraps : e.nextFrameSeq.toNat + 1 < 2 ^ 32
      · have hsucc := toNat_add_ofNat hwraps
        rw [if_neg, hsucc]
        rw [← UInt32.toNat_inj, hsucc, UInt32.toNat_zero]
        omega
      · have hwrapped : e.nextFrameSeq.toNat + 1 = 2 ^ 32 := by omega
        rw [if_pos, hwrapped]
        rw [← UInt32.toNat_inj, UInt32.toNat_add, UInt32.toNat_ofNat', Nat.add_mod_mod, hwrapped]
        rfl
    have hascends := hlogs.ascends
    rw [hceiling] at hascends
    rcases emit_noted e' frame with ⟨hnone, hkept⟩ | ⟨encoded, _, _, hone, hrecorded⟩
    · rw [hnone]
      refine ⟨?_, ?_⟩
      · rw [hkept, hreplay]
        exact hlogs.newest
      · rw [hafter]
        exact hascends.mono (Nat.le_succ _)
    · rw [hone]
      refine ⟨?_, ?_⟩
      · rw [hrecorded, logged_recorded, hreplay]
        exact push_suffix hlogs.newest _ _
      · rw [hafter]
        exact hascends.append (by rw [hseq]) (by rw [hseq]; exact Nat.lt_succ_self _)
  | append h _ ih ih' =>
    obtain ⟨hfirst, hsecond⟩ := h.room hroom
    rw [List.foldl_append]
    exact ih' (ih hlogs hfirst) hsecond

theorem sound_logs {e : ConnectionEngine} {w : ReplayWindow} (hsound : w.Sound)
    (hlatest : w.latestSequence ≠ some 0xFFFFFFFF) (hreplay : e.replay = w)
    (hnext : e.nextFrameSeq = w.following) : Logs e w.logged := by
  have hbelow := hsound.below hlatest
  refine ⟨by rw [hreplay], ?_, ?_⟩
  · refine List.pairwise_map.mpr (hsound.increasing.imp ?_)
    intro earlier later hlt
    exact UInt32.lt_iff_toNat_lt.mp hlt
  · intro frame hframe
    obtain ⟨entry, hentry, rfl⟩ := List.mem_map.mp hframe
    have hlt := UInt32.lt_iff_toNat_lt.mp (hbelow entry hentry)
    change entry.frameSeq.toNat < e.ceiling
    unfold ceiling
    rw [hnext]
    split
    next => exact entry.frameSeq.toNat_lt
    next => exact hlt

theorem load_logs {e : ConnectionEngine} {text : Bytes} {log : List LoggedFrame} (hlogs : Logs e log)
    (h : e.HasNumbers (.loadReplaySnapshot text)) :
    Logs (e.loadReplaySnapshot text).2 ((e.loadNotes text).foldl write log) := by
  unfold loadNotes
  by_cases hcreated : e.state ≠ .created
  · have hload : e.loadReplaySnapshot text =
        (.error (stateError "replay snapshot can only load before start"), e) := by
      unfold loadReplaySnapshot
      rw [if_pos hcreated]
    rw [if_pos hcreated, hload]
    exact hlogs
  rw [if_neg hcreated]
  rcases loadReplaySnapshot_cases e text with
    ⟨error, hload, hnone⟩ | ⟨w, _, hw, ⟨hlatest, hload⟩ | ⟨hlatest, hload⟩⟩
  · rw [hload]
    cases hrestored : ReplayWindow.restoreRetained text with
    | error => exact hlogs
    | ok w => exact absurd hrestored (hnone (not_not.mp hcreated) w)
  · exact absurd hlatest (h (not_not.mp hcreated) w (by simp [hw, Except.toOption]))
  · rw [hload, hw]
    exact sound_logs (restoreRetained_sound hw) hlatest rfl rfl

theorem HasNumbers.room {e : ConnectionEngine} {c : Call} (h : e.HasNumbers c)
    (hload : ∀ text, c ≠ .loadReplaySnapshot text) : e.HasRoom (e.emissions c) := by
  unfold HasNumbers at h
  split at h
  next text => exact absurd rfl (hload text)
  next => exact h

theorem Logs.call {e : ConnectionEngine} {c : Call} {log : List LoggedFrame} (hlogs : Logs e log)
    (h : e.HasNumbers c) : Logs (e.call c) ((e.callNotes c).foldl write log) := by
  by_cases hload : ∃ text, c = .loadReplaySnapshot text
  · obtain ⟨text, rfl⟩ := hload
    exact load_logs hlogs h
  · have hother : ∀ text, c ≠ .loadReplaySnapshot text := fun text hc => hload ⟨text, hc⟩
    obtain ⟨_, hnotes, _⟩ := call_answers e hother
    exact hnotes.logs hlogs (h.room hother)

theorem history_logs {e : ConnectionEngine} {calls : List Call} (h : Along call HasNumbers e calls)
    {log : List LoggedFrame} (hlogs : Logs e log) :
    Logs (run call e calls) ((history e calls).foldl write log) := by
  induction calls generalizing e log with
  | nil => exact hlogs
  | cons c calls ih =>
    unfold history
    rw [List.foldl_append]
    exact ih h.2 (hlogs.call h.1)

/-- What a RESUME is answered with, off a log of which the window is the newest part. -/
theorem Logs.resumes {e e' : ConnectionEngine} {log : List LoggedFrame} (hlogs : Logs e log) {frame : Frame}
    {out : List Bytes} (h : e.handleResume frame = (.ok out, e')) :
    ∃ request, decodeResumePayload frame.payload = .ok request ∧
      out = (log.filter fun logged => decide (request.firstRequiredSeq.toNat ≤ logged.number)).map (·.2) := by
  unfold handleResume at h
  split at h
  next => cases h
  split at h
  next => cases h
  next request hrequest =>
    split at h
    next => cases h
    split at h
    next => cases h
    next hcan =>
      have hepoch : request.epoch = e.replay.epoch := by
        unfold ReplayWindow.canResume at hcan
        split at hcan
        next => cases hcan
        next hsame => exact not_not.mp hsame
      rw [hepoch] at h hcan
      obtain ⟨oldest, newest, holdest, _, hle, _⟩ := canResume_iff.mp hcan
      split at h
      next => cases h
      next retained hretained =>
        obtain ⟨_, rfl⟩ := retainedFrom_iff.mp hretained
        obtain ⟨first, hfirst, rfl⟩ := Option.map_eq_some_iff.mp holdest
        have hhead : e.replay.logged.head? = some first.logged := by
          unfold ReplayWindow.logged
          rw [List.head?_map, hfirst]
          rfl
        have hfilter := filter_of_suffix hlogs.ascends.increasing hlogs.newest hhead
          (UInt32.le_iff_toNat_le.mp hle)
        refine ⟨request, hrequest, ?_⟩
        rw [hfilter]
        unfold ReplayWindow.logged
        rw [List.filter_map, List.map_map]
        exact (Except.ok.inj (congrArg Prod.fst h)).symm.trans (congrArg _ (List.filter_congr fun entry _ =>
          decide_eq_decide.mpr UInt32.le_iff_toNat_le))

/-- A RESUME that is taken is answered with every frame from the one it names on that has been encoded and not
been acknowledged, in ascending order and as it was encoded then, although the window has a capacity. -/
theorem resume_repeats (policy : LocalPolicy) (registry : PluginRegistry)
    (executor : Option (DeterministicExecutor EngineTask)) (calls : List Call) (bytes : Bytes) (eof : Bool)
    (h : Along call HasNumbers (make policy registry executor) (calls ++ [.receive bytes eof]))
    {e e' e'' : ConnectionEngine} (he : run call (make policy registry executor) calls = e)
    {before after : List (ConnectionEngine × Frame)} {frame : Frame}
    (hmet : handled (e.decoded bytes eof).1 (e.decoded bytes eof).2 = before ++ (e', frame) :: after)
    (htype : frame.type = .resume) {out : List Bytes} (hout : e'.handleFrame frame = (.ok out, e'')) :
    (standing (history (make policy registry executor) calls ++ before.flatMap frameNotes)).Pairwise
        (fun earlier later => earlier.number < later.number) ∧
      ∃ request, decodeResumePayload frame.payload = .ok request ∧
        out = ((standing (history (make policy registry executor) calls ++ before.flatMap frameNotes)).filter
          fun logged => decide (request.firstRequiredSeq.toNat ≤ logged.number)).map (·.2) := by
  obtain ⟨hcalls, hreceive, _⟩ := along_append.mp h
  have hmake : Logs (make policy registry executor) [] :=
    ⟨List.suffix_refl _, List.Pairwise.nil, fun frame hframe => absurd hframe List.not_mem_nil⟩
  have hlogs := history_logs hcalls hmake
  rw [he] at hlogs hreceive
  have hdecoded : Unlogged e (e.decoded bytes eof).2 := ⟨rfl, rfl, rfl, rfl, rfl⟩
  have hroom := hreceive.room fun text hc => by cases hc
  have hemissions : e.emissions (.receive bytes eof) =
      (handled (e.decoded bytes eof).1 (e.decoded bytes eof).2).flatMap frameEmissions := rfl
  rw [hemissions, hmet, List.flatMap_append] at hroom
  obtain ⟨_, hnotes⟩ := handled_notes hmet
  have hnow := hnotes.logs (hlogs.of_unlogged hdecoded) (hnotes.room hroom).1
  have hframe : e'.handleFrame frame = e'.handleResume frame := by
    unfold handleFrame
    rw [htype]
  rw [hframe] at hout
  rw [standing_append]
  exact ⟨hnow.ascends.increasing, hnow.resumes hout⟩

def narrowPolicy : LocalPolicy := { maxChannels := 1, replayWindow := 2 }

/-- HELLO, two PINGs, and an ACK of the first of these: the window has room for two frames. -/
def pingedCalls : List Call :=
  negotiation narrowPolicy ++ [.ping 5, .ping 6, .receive (frameBytes
    { type := .ack, payload := u16Bytes 1 ++ u16Bytes 1 ++ u32Bytes 2 ++ u32Bytes 2 }) false]

def pingedEngine : ConnectionEngine := run call (make narrowPolicy echoRegistry none) pingedCalls

/-- A PING, the answer to which the RESUME behind it asks for again. -/
def resumingBytes : Bytes :=
  frameBytes { type := .ping, payload := u64Bytes 7 } ++ (pingedEngine.capabilities.map fun caps =>
    let request : ResumeRequest := { transcriptHash := caps.transcriptHash, firstRequiredSeq := 3 }
    frameBytes { type := .resume, payload := encodeResumePayload request }).getD []

theorem resume_repeats_two : ∃ before e' frame e'' request out,
    handled (pingedEngine.decoded resumingBytes false).1 (pingedEngine.decoded resumingBytes false).2 =
      [before, (e', frame)] ∧ e'.handleFrame frame = (.ok out, e'') ∧ out.length = 2 ∧
      out = ((standing (history (make narrowPolicy echoRegistry none) pingedCalls ++
        frameNotes before)).filter
          fun logged => decide (request.firstRequiredSeq.toNat ≤ logged.number)).map (·.2) ∧
      decodeResumePayload frame.payload = .ok request := by
  obtain ⟨hroom, htypes, hanswers⟩ : Along call HasNumbers (make narrowPolicy echoRegistry none)
        (pingedCalls ++ [.receive resumingBytes false]) ∧
      (handled (pingedEngine.decoded resumingBytes false).1
        (pingedEngine.decoded resumingBytes false).2).map (·.2.type) = [.ping, .resume] ∧
      (handled (pingedEngine.decoded resumingBytes false).1
        (pingedEngine.decoded resumingBytes false).2).map (fun p =>
          (p.1.handleFrame p.2).1.toOption.map List.length) = [some 1, some 2] := by
    decide +kernel
  rcases hmet : handled (pingedEngine.decoded resumingBytes false).1
    (pingedEngine.decoded resumingBytes false).2 with _ | ⟨p, _ | ⟨⟨e', frame⟩, _ | ⟨_, _⟩⟩⟩
  all_goals rw [hmet] at htypes hanswers
  · cases htypes
  · simp at htypes
  · have htype : frame.type = .resume := by simpa using (List.cons_eq_cons.mp htypes).2
    have hanswer : (e'.handleFrame frame).1.toOption.map List.length = some 2 := by
      simpa using (List.cons_eq_cons.mp hanswers).2
    rcases hout : e'.handleFrame frame with ⟨error | out, e''⟩
    · rw [hout] at hanswer
      cases hanswer
    · rw [hout] at hanswer
      obtain ⟨-, request, hrequest, hrepeats⟩ := @resume_repeats narrowPolicy echoRegistry none pingedCalls
        resumingBytes false hroom _ _ _ rfl [p] _ _ hmet htype _ hout
      rw [List.flatMap_singleton] at hrepeats
      exact ⟨p, e', frame, e'', request, out, rfl, hout, by simpa [Except.toOption] using hanswer, hrepeats,
        hrequest⟩
  · simp at htypes

end ConnectionEngine

end LatticeGateway

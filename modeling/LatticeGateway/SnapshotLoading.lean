import LatticeGateway.EmissionTrace
import LatticeGateway.ResumeRange
import LatticeGateway.SnapshotRoundTrip

namespace LatticeGateway

open Runs

/-- The number of the frame that follows those of the window. -/
def ReplayWindow.following (w : ReplayWindow) : UInt32 := w.latestSequence.elim 1 (· + 1)

theorem ReplayWindow.following_toNat {w : ReplayWindow} (h : w.latestSequence ≠ some 0xFFFFFFFF) :
    w.following.toNat = w.latestSequence.elim 1 (·.toNat + 1) := by
  unfold ReplayWindow.following
  cases hlatest : w.latestSequence with
  | none => rfl
  | some latest =>
    have hlt := latest.toNat_lt
    have hne : latest.toNat ≠ (0xFFFFFFFF : UInt32).toNat := fun hmax => h (by
      rw [hlatest, UInt32.toNat_inj.mp hmax])
    simp only [UInt32.reduceToNat] at hne
    change (latest + 1).toNat = latest.toNat + 1
    rw [UInt32.toNat_add, UInt32.toNat_one, Nat.mod_eq_of_lt (by omega)]

theorem ReplayWindow.Sound.below {w : ReplayWindow} (h : w.Sound)
    (hlatest : w.latestSequence ≠ some 0xFFFFFFFF) : w.Below w.following := by
  intro entry hentry
  obtain ⟨_, newest, _, hnewest, _, hle⟩ := retained_between h.increasing hentry
  have hfollowing := ReplayWindow.following_toNat hlatest
  rw [hnewest] at hfollowing
  have hle := UInt32.le_iff_toNat_le.mp hle
  refine UInt32.lt_iff_toNat_lt.mpr ?_
  rw [hfollowing]
  exact Nat.lt_succ_of_le hle

namespace ConnectionEngine

/-- What a loaded text does: it is rejected with nothing changed, or its window is taken and then the
number behind it is refused, or it is taken and continued. -/
theorem loadReplaySnapshot_cases (e : ConnectionEngine) (text : Bytes) :
    (∃ error, e.loadReplaySnapshot text = (.error error, e) ∧
        (e.state = .created → ∀ w, ReplayWindow.restoreRetained text ≠ .ok w)) ∨
      ∃ w, e.state = .created ∧ ReplayWindow.restoreRetained text = .ok w ∧
        ((w.latestSequence = some 0xFFFFFFFF ∧
            e.loadReplaySnapshot text = (.error (makeError .connection .resourceLimit .closeConnection
              "replay snapshot frame sequence is exhausted"), { e with replay := w })) ∨
          w.latestSequence ≠ some 0xFFFFFFFF ∧
            e.loadReplaySnapshot text = (.ok (), { e with replay := w, nextFrameSeq := w.following })) := by
  unfold loadReplaySnapshot
  by_cases hcreated : e.state ≠ .created
  · rw [if_pos hcreated]
    exact .inl ⟨_, rfl, fun h => absurd h hcreated⟩
  rw [if_neg hcreated]
  cases hrestored : ReplayWindow.restoreRetained text with
  | error error => exact .inl ⟨error, rfl, fun _ w h => by cases h⟩
  | ok w =>
    refine .inr ⟨w, not_not.mp hcreated, rfl, ?_⟩
    cases hlatest : w.latestSequence with
    | none =>
      refine .inr ⟨by simp, ?_⟩
      simp [ReplayWindow.following, hlatest]
    | some latest =>
      by_cases hmax : latest = 0xFFFFFFFF
      · refine .inl ⟨by rw [hmax], ?_⟩
        simp only [hlatest, if_pos hmax]
      · refine .inr ⟨by simpa using hmax, ?_⟩
        simp [ReplayWindow.following, hlatest, hmax]

/-- A rejected snapshot changes nothing exactly when its last number was not the reason, or the window
it stands for is the engine's own. -/
theorem rejected_load_unchanged (e : ConnectionEngine) (text : Bytes) (hcreated : e.state = .created) :
    (∀ error, (e.loadReplaySnapshot text).1 = .error error → (e.loadReplaySnapshot text).2 = e) ↔
      ∀ w, ReplayWindow.restoreRetained text = .ok w → w.latestSequence = some 0xFFFFFFFF →
        w = e.replay := by
  rcases loadReplaySnapshot_cases e text with
    ⟨error, hload, hnone⟩ | ⟨w, _, hw, ⟨hmax, hload⟩ | ⟨hmax, hload⟩⟩
  · rw [hload]
    exact ⟨fun _ w hw => absurd hw (hnone hcreated w), fun _ _ _ => rfl⟩
  · rw [hload, hw]
    constructor
    · intro hsame w' hw' _
      obtain rfl : w = w' := by injection hw'
      exact congrArg ConnectionEngine.replay (hsame _ rfl)
    · intro hown _ _
      rw [hown w rfl hmax]
  · rw [hload, hw]
    refine ⟨fun _ w' hw' hmax' => ?_, fun _ _ h => by cases h⟩
    obtain rfl : w = w' := by injection hw'
    exact absurd hmax' hmax

/-- An entry that repeats the number of the one before it. -/
def repeatedSnapshot : Bytes :=
  ascii "LTXREPLAY/1\ncapacity|4\nepoch|1\nentry|9|0|aa\nentry|9|0|bb\n"

/-- One entry, under the last number there is. -/
def exhaustedSnapshot : Bytes := ascii "LTXREPLAY/1\ncapacity|4\nepoch|1\nentry|4294967295|0|aa\n"

theorem rejected_load_unchanged_repeated :
    ((make {} {} none).loadReplaySnapshot repeatedSnapshot).2 = make {} {} none := by
  have hrejected : ReplayWindow.restoreRetained repeatedSnapshot =
        .error (resumeRejected "replay snapshot entries are not ordered") ∧
      ((make {} {} none).loadReplaySnapshot repeatedSnapshot).1 =
        .error (resumeRejected "replay snapshot entries are not ordered") := by decide +kernel
  refine (rejected_load_unchanged (make {} {} none) repeatedSnapshot rfl).mpr ?_ _ hrejected.2
  intro w hw
  rw [hrejected.1] at hw
  cases hw

theorem exhausted_load_changes :
    ((make {} {} none).loadReplaySnapshot exhaustedSnapshot).1.toOption = none ∧
      (make {} {} none).replay.entries = [] ∧
      ((make {} {} none).loadReplaySnapshot exhaustedSnapshot).2.replay.entries =
        [⟨1, 0xFFFFFFFF, [0xAA], 0⟩] := by
  decide +kernel

/-- A frame is as long under any other number. -/
theorem encode_renumbered {codec codec' : FrameCodec} {frame : Frame} {encoded : Bytes}
    (h : codec.encode frame = .ok encoded) (hlimits : codec'.limits = codec.limits) (frameSeq : UInt32) :
    ∃ renumbered, codec'.encode { frame with frameSeq } = .ok renumbered ∧
      renumbered.length = encoded.length := by
  obtain ⟨ext, hencodes⟩ := FrameCodec.encode_ok h
  have hlength : (checkedBytes { frame with frameSeq } ext).length = (checkedBytes frame ext).length := by
    rw [length_checkedBytes, length_checkedBytes]
    rfl
  have hheader := hencodes.header
  have hsize := hencodes.size
  rw [← hlimits] at hheader hsize
  refine ⟨_, FrameCodec.encode_of_fits hencodes.flags hencodes.number hencodes.extensions hheader
    hencodes.payload (by rwa [hlength]) (by rw [hlength]; exact hencodes.small), ?_⟩
  rw [hencodes.length_eq, ← hlength]
  simp

/-- What an engine has from its making for as long as it has not started, whatever else is called. -/
structure Made (policy : LocalPolicy) (registry : PluginRegistry) (e : ConnectionEngine) : Prop where
  limits : e.codec.limits = { maxFrame := policy.maxFrame, maxHeader := 4096 }
  policy : e.policy = policy
  registry : e.registry = registry
  idle : e.state = .created → e.Idle

/-- Without DATA nothing is ever left in the queue. -/
theorem Idle.emitted {e : ConnectionEngine} (h : e.Idle) {frame : Frame} (htype : frame.type ≠ .data) :
    (e.emit frame).2.Idle := by
  unfold emit
  cases hencode : e.codec.encode frame with
  | error error => exact h
  | ok encoded =>
    obtain ⟨hne, hsmall⟩ := encode_nonempty hencode
    have hitem : outboundItem frame encoded = ⟨.control, frame.channel, frame.frameSeq, encoded⟩ := by
      simp [outboundItem, isControlFrame, htype]
    dsimp only
    split
    next => exact ⟨h.scheduler, h.limit⟩
    next =>
      unfold queueEncoded flushOutbound
      dsimp only
      rw [hitem]
      by_cases hfits : encoded.length ≤ e.scheduler.byteLimit
      · obtain ⟨hqueued, hdrained⟩ := @OutboundScheduler.Idle.pass_control _ h.scheduler frame.channel
          frame.frameSeq encoded e.policy.connectionWindow hne hsmall hfits (by rwa [← h.limit])
        rcases henqueue : e.scheduler.enqueue ⟨.control, frame.channel, frame.frameSeq, encoded⟩ with
          ⟨queued, waiting⟩
        rw [henqueue] at hqueued hdrained
        dsimp only at hqueued hdrained
        simp only [hqueued, hdrained]
        exact ⟨h.scheduler, h.limit⟩
      · have hfull : ∃ error, e.scheduler.enqueue ⟨.control, frame.channel, frame.frameSeq, encoded⟩ =
            (.error error, e.scheduler) := by
          unfold OutboundScheduler.enqueue
          have hadd : checkedAdd 0 encoded.length = some (0 + encoded.length) :=
            checkedAdd_of_lt (by omega)
          rw [if_neg hne, h.scheduler.queued, hadd]
          dsimp only
          rw [if_pos (by omega)]
          exact ⟨_, rfl⟩
        obtain ⟨error, hfull⟩ := hfull
        simp only [hfull]
        exact ⟨h.scheduler, h.limit⟩

section

variable {policy : LocalPolicy} {registry : PluginRegistry} {e e' : ConnectionEngine}

theorem Made.still (h : Made policy registry e) (hstill : Still e e') : Made policy registry e' :=
  ⟨hstill.limits.trans h.limits, hstill.policy.trans h.policy, hstill.registry.trans h.registry,
    fun hcreated => hstill.idle (h.idle (hstill.created hcreated))⟩

theorem Made.emitted (h : Made policy registry e) {frame : Frame}
    (hdata : frame.type = .data → e.state ≠ .created) : Made policy registry (e.emit frame).2 := by
  have hidle : e.state = .created → (e.emit frame).2.Idle := fun hcreated =>
    (h.idle hcreated).emitted fun hframe => hdata hframe hcreated
  obtain ⟨replay, scheduler, nextFrameSeq, hsent⟩ := emit_sent e frame
  rw [hsent] at hidle ⊢
  exact ⟨h.limits, h.policy, h.registry, hidle⟩

theorem Trace.made {ps : List Emission} (htrace : Trace e ps e') (h : Made policy registry e) :
    Made policy registry e' := by
  induction htrace with
  | still hstill => exact h.still hstill
  | @emit e e' frame _ hdata hstill =>
    have hnumbered : Made policy registry { e with nextFrameSeq := e.nextFrameSeq + 1 } :=
      ⟨h.limits, h.policy, h.registry, fun hcreated =>
        ⟨(h.idle hcreated).scheduler, (h.idle hcreated).limit⟩⟩
    refine (hnumbered.still hstill).emitted fun hframe hcreated => ?_
    have hactive := hdata hframe
    rw [show e.state = .created from hstill.created hcreated] at hactive
    cases hactive
  | append _ _ ih ih' => exact ih' (ih h)

theorem Made.loaded (h : Made policy registry e) (text : Bytes) :
    Made policy registry (e.loadReplaySnapshot text).2 := by
  have hkept : ∀ w next, Made policy registry { e with replay := w, nextFrameSeq := next } :=
    fun w next => ⟨h.limits, h.policy, h.registry, fun hcreated =>
      ⟨(h.idle hcreated).scheduler, (h.idle hcreated).limit⟩⟩
  rcases loadReplaySnapshot_cases e text with
    ⟨error, hload, _⟩ | ⟨w, _, _, ⟨_, hload⟩ | ⟨_, hload⟩⟩
  · rw [hload]
    exact h
  · rw [hload]
    exact hkept w e.nextFrameSeq
  · rw [hload]
    exact hkept w w.following

theorem Made.call (h : Made policy registry e) (c : Call) : Made policy registry (e.call c) := by
  rcases call_cases e c with ⟨text, rfl⟩ | htrace
  · exact h.loaded text
  · exact htrace.made h

end

theorem make_made (policy : LocalPolicy) (registry : PluginRegistry)
    (executor : Option (DeterministicExecutor EngineTask)) :
    Made policy registry (make policy registry executor) :=
  ⟨rfl, rfl, rfl, fun _ => ⟨⟨rfl, rfl, rfl⟩, rfl⟩⟩

/-- What a started engine has passed. -/
theorem start_ok {e : ConnectionEngine} {out : List Bytes} (h : e.start.1 = .ok out) :
    ∃ payload encoded, encodeHelloPayload e.localHello = .ok payload ∧
      e.codec.encode { type := .hello, frameSeq := e.nextFrameSeq, payload } = .ok encoded ∧
      e.replay.Accepts e.nextFrameSeq ∧
      e.scheduler.queuedBytes + encoded.length ≤ e.scheduler.byteLimit := by
  unfold start at h
  split at h
  next => cases h
  next =>
    split at h
    next => cases h
    next payload hpayload =>
      obtain ⟨encoded, hencode, hreplay, hfits⟩ := emit_ok h
      exact ⟨payload, encoded, hpayload, hencode, hreplay, hfits⟩

theorem Idle.start_sends {e : ConnectionEngine} (h : e.Idle) (hcreated : e.state = .created)
    {payload encoded : Bytes} (hpayload : encodeHelloPayload e.localHello = .ok payload)
    (hencode : e.codec.encode { type := .hello, frameSeq := e.nextFrameSeq, payload } = .ok encoded)
    (hreplay : e.replay.Accepts e.nextFrameSeq) (hfits : encoded.length ≤ e.policy.connectionWindow) :
    e.start.1 = .ok [encoded] ∧ e.start.2.replay = e.replay.recorded e.nextFrameSeq encoded := by
  have hwaits : Idle { { e with state := .negotiating }.scheduleTimer .handshake {} kHandshakeTimeoutMs
      with nextFrameSeq := e.nextFrameSeq + 1 } := ⟨h.scheduler, h.limit⟩
  have hsent := hwaits.emit_control hencode hreplay hfits (by rintro ⟨⟩)
  have hstart : e.start = { { e with state := .negotiating }.scheduleTimer .handshake {}
      kHandshakeTimeoutMs with nextFrameSeq := e.nextFrameSeq + 1 }.emit
        { type := .hello, frameSeq := e.nextFrameSeq, payload } := by
    unfold start
    rw [if_neg (not_not.mpr hcreated), hpayload]
    rfl
  rw [hstart, hsent]
  exact ⟨rfl, rfl⟩

/-- The engine starts, and its HELLO follows the frames of the window. -/
def Continues (e : ConnectionEngine) (w : ReplayWindow) : Prop :=
  ∃ frameSeq payload encoded, frameSeq.toNat = w.latestSequence.elim 1 (·.toNat + 1) ∧
    e.codec.encode { type := .hello, frameSeq, payload } = .ok encoded ∧
    e.start.1 = .ok [encoded] ∧
    e.start.2.replay.entries =
      (if w.entries.length ≥ w.capacity then w.entries.tail else w.entries) ++
        [{ epoch := 1, frameSeq, encoded, retries := 0 }]

/-- An engine that has loaded a snapshot continues it exactly when it is one of the first epoch. -/
theorem loaded_snapshot_continues {policy : LocalPolicy} {registry : PluginRegistry}
    {executor executor' : Option (DeterministicExecutor EngineTask)} {hello : List Bytes}
    (hstart : (make policy registry executor).start.1 = .ok hello) (calls : List Call)
    {text : Bytes} {w : ReplayWindow} (hw : ReplayWindow.restoreRetained text = .ok w)
    (hload : ((run call (make policy registry executor') calls).loadReplaySnapshot text).1 = .ok ()) :
    Continues ((run call (make policy registry executor') calls).loadReplaySnapshot text).2 w ↔
      w.epoch = 1 := by
  have hmade : Made policy registry (run call (make policy registry executor') calls) :=
    run_induction (fun _ c h => h.call c) calls (make_made policy registry executor')
  generalize run call (make policy registry executor') calls = e at hmade hload
  rcases loadReplaySnapshot_cases e text with
    ⟨error, hcase, _⟩ | ⟨w', hcreated, hw', ⟨_, hcase⟩ | ⟨hlatest, hcase⟩⟩
  · rw [hcase] at hload
    cases hload
  · rw [hcase] at hload
    cases hload
  rw [hw] at hw'
  obtain rfl : w = w' := by injection hw'
  have hsound := restoreRetained_sound hw
  have hloaded := hmade.loaded text
  rw [hcase] at hloaded ⊢
  dsimp only at hloaded ⊢
  constructor
  · rintro ⟨_, _, _, _, _, hsent, _⟩
    obtain ⟨_, _, _, _, haccepts, _⟩ := start_ok hsent
    exact haccepts.1
  · intro hepoch
    have hidle := hloaded.idle hcreated
    obtain ⟨payload, encoded, hpayload, hencode, _, hfits⟩ := start_ok hstart
    obtain ⟨renumbered, hrenumbered, hlength⟩ :=
      encode_renumbered hencode (hloaded.limits.trans (make_made policy registry executor).limits.symm)
        w.following
    refine ⟨w.following, payload, renumbered, ReplayWindow.following_toNat hlatest, hrenumbered, ?_⟩
    have hlocal : ({ e with replay := w, nextFrameSeq := w.following } : ConnectionEngine).localHello =
        (make policy registry executor).localHello := by
      unfold localHello
      rw [hloaded.policy, hloaded.registry]
      rfl
    have hroom : renumbered.length ≤ policy.connectionWindow := by
      have hlimit : 0 + encoded.length ≤ policy.connectionWindow := hfits
      omega
    obtain ⟨hsent, hreplay⟩ := hidle.start_sends hcreated (hlocal ▸ hpayload) hrenumbered
      ⟨hepoch, (hsound.below hlatest).not_contains⟩ (by rw [hloaded.policy]; exact hroom)
    exact ⟨hsent, congrArg ReplayWindow.entries hreplay⟩

/-- A full window of one entry. -/
def fullSnapshot : Bytes := ascii "LTXREPLAY/1\ncapacity|1\nepoch|1\nentry|9|2|aa\n"

/-- A window of the second epoch. -/
def secondEpochSnapshot : Bytes := ascii "LTXREPLAY/1\ncapacity|4\nepoch|2\nentry|9|0|aa\n"

theorem loaded_snapshot_continues_full :
    Continues ((run call (make {} {} none) [.ping 5]).loadReplaySnapshot fullSnapshot).2
      { capacity := 1, entries := [⟨1, 9, [0xAA], 2⟩] } := by
  have hstart : (make {} {} none).start.1 = .ok (outbound (make {} {} none).start.1) := by
    decide +kernel
  have hrestored : ReplayWindow.restoreRetained fullSnapshot =
      .ok { capacity := 1, entries := [⟨1, 9, [0xAA], 2⟩] } := by decide +kernel
  have hload : ((run call (make {} {} none) [.ping 5]).loadReplaySnapshot fullSnapshot).1 = .ok () := by
    decide +kernel
  exact (loaded_snapshot_continues hstart [.ping 5] hrestored hload).mpr rfl

theorem second_epoch_refused :
    (make {} {} none).start.1.toOption.isSome = true ∧
      ((make {} {} none).loadReplaySnapshot secondEpochSnapshot).1 = .ok () ∧
      ((make {} {} none).loadReplaySnapshot secondEpochSnapshot).2.start.1 =
        .error (resumeRejected "replay epoch mismatch") := by
  decide +kernel

end ConnectionEngine

end LatticeGateway

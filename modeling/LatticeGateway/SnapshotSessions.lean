import LatticeGateway.ReplayStore
import LatticeGateway.ResumeAnswers

namespace LatticeGateway

open Runs BoundedLog

instance (plan : SavePlan) : Decidable plan.Closes := inferInstanceAs (Decidable (_ ∧ _ ∧ _))

instance (plan : SavePlan) : Decidable plan.Removes := inferInstanceAs (Decidable (_ ∧ _))

instance (plan : SavePlan) : Decidable plan.Publishes := inferInstanceAs (Decidable (_ ∧ _))

instance (plan : SavePlan) (text : Bytes) : Decidable (plan.Flushes text) :=
  inferInstanceAs (Decidable (_ → _))

namespace ConnectionEngine

theorem Logs.entry_below {e : ConnectionEngine} {log : List LoggedFrame} (h : Logs e log)
    {entry : ReplayEntry} (hentry : entry ∈ e.replay.entries) : entry.frameSeq.toNat < e.ceiling :=
  h.ascends.below entry.logged (h.newest.subset (List.mem_map_of_mem hentry))

/-- While numbers are left, every window that an engine comes to is one that recording leads to. -/
theorem Notes.reached {e e' : ConnectionEngine} {ps : List Emission} {ns : List (Note LoggedFrame)}
    {out : List Bytes} (h : Notes e ps ns out e') {log : List LoggedFrame} (hlogs : Logs e log)
    (hroom : e.HasRoom ps) (hreached : e.replay.Reached) : e'.replay.Reached := by
  induction h generalizing log with
  | same hsame =>
    rw [hsame.replay]
    exact hreached
  | repeats _ hsame =>
    rw [hsame.replay]
    exact hreached
  | flush => exact hreached
  | @acks e epoch ranges acked w hacked =>
    have hstep := hreached.acknowledge epoch ranges
    rw [hacked] at hstep
    exact hstep
  | @retries e w due retryLimit hretry =>
    have hstep := hreached.dueForRetry retryLimit
    rw [hretry] at hstep
    exact hstep
  | @spent e w error retryLimit hretry =>
    have hstep := hreached.dueForRetry retryLimit
    rw [hretry] at hstep
    exact hstep
  | @emit e e' frame hseq hsame =>
    have hreplay : e'.replay = e.replay := hsame.replay
    obtain ⟨hcounter, _⟩ := hroom.resolve_left (List.cons_ne_nil _ _)
    rcases emit_noted e' frame with ⟨_, hkept⟩ | ⟨encoded, hencode, haccepts, _, hrecorded⟩
    · rw [hkept, hreplay]
      exact hreached
    · have hnew : ∀ entry ∈ e'.replay.entries, entry.frameSeq < frame.frameSeq := by
        intro entry hentry
        rw [hreplay] at hentry
        have hbelow := hlogs.entry_below hentry
        rw [ceiling_of_ne hcounter] at hbelow
        rw [hseq]
        exact UInt32.lt_iff_toNat_lt.mpr hbelow
      rw [← hreplay] at hreached
      have hstep := hreached.record 1 (encode_nonempty hencode).1 hnew
      rw [haccepts.record] at hstep
      rw [hrecorded]
      exact hstep
  | append h _ ih ih' =>
    obtain ⟨hfirst, hsecond⟩ := h.room hroom
    exact ih' (h.logs hlogs hfirst) hsecond (ih hlogs hfirst hreached)

theorem run_reached {e : ConnectionEngine} {calls : List Call} (h : Along call HasNumbers e calls)
    {log : List LoggedFrame} (hlogs : Logs e log) (hreached : e.replay.Reached) :
    (run call e calls).replay.Reached := by
  induction calls generalizing e log with
  | nil => exact hreached
  | cons c calls ih =>
    refine ih h.2 (hlogs.call h.1) ?_
    by_cases hload : ∃ text, c = .loadReplaySnapshot text
    · obtain ⟨text, rfl⟩ := hload
      change (e.loadReplaySnapshot text).2.replay.Reached
      rcases loadReplaySnapshot_cases e text with
        ⟨error, hload, _⟩ | ⟨w, _, hw, ⟨_, hload⟩ | ⟨_, hload⟩⟩
      · rw [hload]
        exact hreached
      all_goals
        rw [hload]
        exact .restored hw
    · have hother : ∀ text, c ≠ .loadReplaySnapshot text := fun text hc => hload ⟨text, hc⟩
      obtain ⟨_, hnotes, _⟩ := call_answers e hother
      exact hnotes.reached hlogs (HasNumbers.room h.1 hother) hreached

def exportReplaySnapshot (e : ConnectionEngine) : Except Error Bytes := .ok e.replay.serializeRetained

end ConnectionEngine

open ConnectionEngine

/-- `inspects` says whether `exists` finds out if the file is there. The tool's `snapshot_error` builds the
error that `store_error` builds. -/
def loadSnapshotIfPresent (e : ConnectionEngine) (path : Bytes) (inspects : Bool) (fs : FileSystem) :
    Except Error Unit × ConnectionEngine :=
  if path = [] then (.ok (), e)
  else if inspects = false then (.error (storeError "cannot inspect replay snapshot path"), e)
  else if (fs path).isNone then (.ok (), e)
  else
    match loadText path fs with
    | .error error => (.error error, e)
    | .ok text => e.loadReplaySnapshot text

def saveSnapshot (e : ConnectionEngine) (path : Bytes) (plan : SavePlan) (fs : FileSystem) :
    SaveEnd × FileSystem :=
  if path = [] then (.returned (.ok ()), fs)
  else
    match e.exportReplaySnapshot with
    | .error error => (.returned (.error error), fs)
    | .ok text => saveText path text plan fs

/-- A process that loads a snapshot, uses its engine and saves the snapshot again, if it gets as far. -/
structure SnapshotSession where
  policy : LocalPolicy
  registry : PluginRegistry := {}
  executor : Option (DeterministicExecutor EngineTask) := none
  inspects : Bool := true
  calls : List Call
  plan : Option SavePlan := some {}

namespace SnapshotSession

def engine (s : SnapshotSession) : ConnectionEngine := make s.policy s.registry s.executor

/-- The engine that the process goes on with, unless the load fails. -/
def loaded (s : SnapshotSession) (path : Bytes) (fs : FileSystem) : Option ConnectionEngine :=
  match loadSnapshotIfPresent s.engine path s.inspects fs with
  | (.error _, _) => none
  | (.ok _, e) => some e

def runOn (path : Bytes) (fs : FileSystem) (s : SnapshotSession) : FileSystem :=
  match s.loaded path fs, s.plan with
  | some e, some plan => (saveSnapshot (run call e s.calls) path plan fs).2
  | _, _ => fs

/-- What the process should go on with when the last snapshot that was saved is `cell`: a window of no frames
where there is none, and else the saved window, if there is a number behind it. -/
def start (s : SnapshotSession) (cell : Option ReplayWindow) : Option ConnectionEngine :=
  if s.inspects = false then none
  else
    match cell with
    | none => some s.engine
    | some w =>
      if w.latestSequence = some 0xFFFFFFFF then none
      else some { s.engine with replay := w, nextFrameSeq := w.following }

/-- What is left of the snapshot after the process. -/
def leave (cell : Option ReplayWindow) (s : SnapshotSession) : Option ReplayWindow :=
  match s.start cell, s.plan with
  | some e, some plan =>
    if plan.Publishes then some (run call e s.calls).replay else if plan.Removes then none else cell
  | _, _ => cell

/-- The policy asks for a window, no number is used twice, and no flush fails in silence when the stream of
the temporary file is closed. -/
def Fits (cell : Option ReplayWindow) (s : SnapshotSession) : Prop :=
  1 ≤ s.policy.replayWindow.toNat ∧ ∀ e ∈ s.start cell, Along call HasNumbers e s.calls ∧
    ∀ plan ∈ s.plan, plan.Flushes (run call e s.calls).replay.serializeRetained

/-- The file holds the text of the cell's window. -/
structure Holds (path : Bytes) (fs : FileSystem) (cell : Option ReplayWindow) : Prop where
  content : fs path = cell.map ReplayWindow.serializeRetained
  reached : ∀ w ∈ cell, w.Reached

theorem Holds.loaded {path : Bytes} {fs : FileSystem} {cell : Option ReplayWindow} (h : Holds path fs cell)
    (hpath : path ≠ []) (s : SnapshotSession) : s.loaded path fs = s.start cell := by
  unfold SnapshotSession.loaded loadSnapshotIfPresent SnapshotSession.start
  rw [if_neg hpath]
  by_cases hinspects : s.inspects = false
  · rw [if_pos hinspects, if_pos hinspects]
  rw [if_neg hinspects, if_neg hinspects]
  have hcontent := h.content
  cases cell with
  | none =>
    rw [Option.map_none] at hcontent
    rw [hcontent]
    rfl
  | some w =>
    rw [Option.map_some] at hcontent
    have htext : loadText path fs = .ok w.serializeRetained := by
      unfold loadText
      rw [hcontent]
    rw [hcontent, if_neg (by simp), htext]
    dsimp only
    have hrestore := (h.reached w rfl).sound.restore
    rcases loadReplaySnapshot_cases s.engine w.serializeRetained with
      ⟨error, _, hnone⟩ | ⟨w', _, hw', ⟨hlatest, hload⟩ | ⟨hlatest, hload⟩⟩
    · exact absurd hrestore (hnone rfl w)
    all_goals
      obtain rfl := Except.ok.inj (hrestore.symm.trans hw')
      rw [hload]
    · rw [if_pos hlatest]
    · rw [if_neg hlatest]

theorem start_reached {s : SnapshotSession} {cell : Option ReplayWindow} (hfits : s.Fits cell)
    (hreached : ∀ w ∈ cell, w.Reached) {e : ConnectionEngine} (h : s.start cell = some e) :
    e.replay.Reached ∧ ∃ log, Logs e log := by
  unfold start at h
  split at h
  next => cases h
  next =>
    cases cell with
    | none =>
      obtain rfl := Option.some.inj h
      have hlt := s.policy.replayWindow.toNat_lt
      exact ⟨.fresh hfits.1 (hlt.trans (by decide)), [], List.suffix_refl _, List.Pairwise.nil,
        fun frame hframe => absurd hframe List.not_mem_nil⟩
    | some w =>
      have hw := hreached w rfl
      dsimp only at h
      split at h
      next => cases h
      next hlatest =>
        obtain rfl := Option.some.inj h
        exact ⟨hw, _, sound_logs hw.sound hlatest rfl rfl⟩

/-- Whatever befalls the save, the file holds what the process should leave. -/
theorem Holds.runOn {path : Bytes} {fs : FileSystem} {cell : Option ReplayWindow} (h : Holds path fs cell)
    (hpath : path ≠ []) {s : SnapshotSession} (hfits : s.Fits cell) :
    Holds path (s.runOn path fs) (leave cell s) := by
  unfold SnapshotSession.runOn leave
  rw [h.loaded hpath]
  cases hstart : s.start cell with
  | none => exact h
  | some e =>
    cases hplan : s.plan with
    | none => exact h
    | some plan =>
      dsimp only
      obtain ⟨hreached, log, hlogs⟩ := start_reached hfits h.reached hstart
      obtain ⟨hnumbers, hflushes⟩ := hfits.2 e hstart
      have hended := run_reached hnumbers hlogs hreached
      have hsave : saveSnapshot (run call e s.calls) path plan fs =
          saveText path (run call e s.calls).replay.serializeRetained plan fs := by
        unfold saveSnapshot exportReplaySnapshot
        rw [if_neg hpath]
      rw [hsave]
      by_cases hpublishes : plan.Publishes
      · rw [if_pos hpublishes]
        refine ⟨(saveText_published hpublishes fs).1 (hflushes plan hplan), ?_⟩
        rintro w ⟨⟩
        exact hended
      rw [if_neg hpublishes]
      by_cases hremoves : plan.Removes
      · rw [if_pos hremoves]
        exact ⟨saveText_lost hremoves hpublishes fs, by simp⟩
      · rw [if_neg hremoves]
        exact ⟨(saveText_untouched hremoves fs).trans h.content, h.reached⟩

theorem Holds.run {path : Bytes} {fs : FileSystem} {cell : Option ReplayWindow} (h : Holds path fs cell)
    (hpath : path ≠ []) {sessions : List SnapshotSession}
    (hfits : Along leave (fun cell s => s.Fits cell) cell sessions) :
    Holds path (run (SnapshotSession.runOn path) fs sessions) (run leave cell sessions) := by
  induction sessions generalizing fs cell with
  | nil => exact h
  | cons s sessions ih => exact ih (h.runOn hpath hfits.1) hfits.2

instance (cell : Option ReplayWindow) (s : SnapshotSession) : Decidable (s.Fits cell) :=
  have := @Option.decidableForallMem
  inferInstanceAs (Decidable (_ ∧ ∀ e ∈ s.start cell, Along call HasNumbers e s.calls ∧
    ∀ plan ∈ s.plan, plan.Flushes (run call e s.calls).replay.serializeRetained))

end SnapshotSession

end LatticeGateway

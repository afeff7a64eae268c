import LatticeGateway.EngineEffects
import LatticeGateway.Gateway

namespace LatticeGateway

open Runs

namespace ConnectionEngine

/-- The frames that the rounds of `sendLoop` emit, up to the first that fails. -/
def emittedFrames (id : ChannelId) (sequence : UInt32) (total : Nat) :
    List (Nat × Bytes) → ConnectionEngine → List Frame
  | [], _ => []
  | (offset, fragment) :: rest, e =>
    match e.emitFrame .data id fragment (fragmentExtensions sequence offset total) with
    | (.error _, _) => []
    | (.ok _, e') =>
      (e.makeFrame .data id fragment (fragmentExtensions sequence offset total)).1 ::
        emittedFrames id sequence total rest e'

/-- The DATA frames that `send` emits, and the extensions it gives them. -/
def sentFrames (e : ConnectionEngine) (id : ChannelId) (payload : Bytes) : List Frame :=
  match e.channels, e.capabilities with
  | some channels, some capabilities =>
    if e.state ≠ .active then []
    else
      match channels.find id with
      | none => []
      | some slot =>
        if slot.localHalfClosed then []
        else if payload.length > capabilities.maxMessage then []
        else
          match slot.flow.reserve payload.length with
          | (.error _, _) => []
          | (.ok _, flow) =>
            match (channels.setSlot id.number { slot with flow }).reserveSendSequence id with
            | (.error _, _) => []
            | (.ok sequence, channels) =>
              emittedFrames id sequence payload.length
                (fragments (max 1 (capabilities.maxFrame / 2)) payload payload.length 0)
                { e with channels := some channels }
  | _, _ => []

/-- The frame carries the family in its extensions. -/
def Carries (frame : Frame) (family : UInt32) : Prop :=
  extensionU32 frame kExtFamilyId = .ok family

instance (frame : Frame) (family : UInt32) : Decidable (Carries frame family) :=
  decidable_of_iff ((extensionU32 frame kExtFamilyId).toOption = some family) (by
    unfold Carries
    cases extensionU32 frame kExtFamilyId with
    | error error => simp [Except.toOption]
    | ok found => simp [Except.toOption])

/-- The rounds whose frames are emitted come first, and are all of them when the loop succeeds. -/
theorem emittedFrames_rounds (id : ChannelId) (sequence : UInt32) (total : Nat)
    (rounds : List (Nat × Bytes)) (e : ConnectionEngine) (out : List Bytes) :
    (emittedFrames id sequence total rounds e).map (·.payload) <+: rounds.map (·.2) ∧
      ((∃ sent, (sendLoop id sequence total rounds e out).1 = .ok sent) →
        (emittedFrames id sequence total rounds e).map (·.payload) = rounds.map (·.2)) := by
  induction rounds generalizing e out with
  | nil => exact ⟨List.prefix_rfl, fun _ => rfl⟩
  | cons round rounds ih =>
    obtain ⟨offset, fragment⟩ := round
    unfold emittedFrames sendLoop
    rcases e.emitFrame .data id fragment (fragmentExtensions sequence offset total) with
      ⟨_ | encoded, e'⟩
    · refine ⟨List.nil_prefix, ?_⟩
      rintro ⟨sent, hsent⟩
      cases hsent
    · obtain ⟨hfirst, hall⟩ := ih e' (out ++ encoded)
      refine ⟨List.prefix_cons_inj _ |>.mpr hfirst, fun hok => ?_⟩
      exact congrArg (fragment :: ·) (hall hok)

theorem fragments_join {maxFragment : Nat} (hpos : 0 < maxFragment) (payload : Bytes) {fuel offset : Nat}
    (h : payload.length ≤ offset + fuel) :
    (fragments maxFragment payload fuel offset).flatMap (·.2) = payload.drop offset := by
  induction fuel generalizing offset with
  | zero => rw [List.drop_eq_nil_of_le (by omega), fragments, List.flatMap_nil]
  | succ fuel ih =>
    unfold fragments
    split
    next =>
      rw [List.flatMap_cons, ih (by omega), ← List.drop_drop]
      exact List.take_append_drop _ _
    next hend => rw [List.drop_eq_nil_of_le (by omega), List.flatMap_nil]

theorem Sendable.sentFrames {e : ConnectionEngine} {id : ChannelId} {payload : Bytes} {caps : CapabilitySet}
    {t : ChannelTable} {slot : ChannelSlot} {flow : FlowAccount}
    (h : e.Sendable id payload caps t slot flow) (hwrap : slot.nextSendSeq ≠ 0xFFFFFFFF) :
    e.sentFrames id payload = emittedFrames id slot.nextSendSeq payload.length
      (fragments (max 1 (caps.maxFrame / 2)) payload payload.length 0)
      { e with channels := some (t.setSlot id.number (sending slot flow)) } := by
  unfold ConnectionEngine.sentFrames
  rw [h.channels, h.capabilities]
  dsimp only
  rw [if_neg (not_not.mpr h.active), h.found]
  dsimp only
  rw [if_neg (by simp [h.localOpen]), if_neg (Nat.not_lt.mpr h.cap), h.reserved]
  dsimp only
  rw [h.reserveSequence, if_neg hwrap]

/-- A `send` that succeeds has sent its payload whole in those frames. -/
theorem sentFrames_join {e : ConnectionEngine} {id : ChannelId} {payload : Bytes} {out : List Bytes}
    (h : (e.send id payload).1 = .ok out) : (e.sentFrames id payload).flatMap (·.payload) = payload := by
  rcases send_cases e id payload with
    ⟨error, herror⟩ | ⟨caps, t, slot, flow, hsendable, ⟨_, error, herror⟩ | ⟨hwrap, hsend⟩⟩
  · rw [herror] at h
    cases h
  · rw [herror] at h
    cases h
  · rw [hsend] at h
    have hall := (emittedFrames_rounds id slot.nextSendSeq payload.length
      (fragments (max 1 (caps.maxFrame / 2)) payload payload.length 0)
      { e with channels := some (t.setSlot id.number (sending slot flow)) } []).2 ⟨out, h⟩
    rw [hsendable.sentFrames hwrap, List.flatMap_def, hall, ← List.flatMap_def,
      fragments_join (by omega) payload (by omega), List.drop_zero]

theorem fragmentExtensions_carries {frame : Frame} {sequence : UInt32} {offset total : Nat}
    (h : frame.extensions = fragmentExtensions sequence offset total) (family : UInt32) :
    Carries frame family ↔ family = 7 := by
  have hseven : extensionU32 frame kExtFamilyId = .ok 7 := by
    unfold extensionU32 findExtension
    rw [h]
    rfl
  unfold Carries
  rw [hseven]
  exact ⟨fun hsame => (Except.ok.inj hsame).symm, fun hsame => by rw [hsame]⟩

theorem emittedFrames_extensions {id : ChannelId} {sequence : UInt32} {total : Nat}
    {rounds : List (Nat × Bytes)} {e : ConnectionEngine} {frame : Frame}
    (h : frame ∈ emittedFrames id sequence total rounds e) : ∃ offset,
      frame.extensions = fragmentExtensions sequence offset total := by
  induction rounds generalizing e with
  | nil => cases h
  | cons round rounds ih =>
    obtain ⟨offset, fragment⟩ := round
    unfold emittedFrames at h
    split at h
    next => cases h
    next =>
      rcases List.mem_cons.mp h with rfl | hrest
      · exact ⟨offset, rfl⟩
      · exact ih hrest

/-- Whatever the channel was opened for, its DATA frames carry family 7. -/
theorem sentFrames_carries {e : ConnectionEngine} {id : ChannelId} {payload : Bytes} {frame : Frame}
    (h : frame ∈ e.sentFrames id payload) (family : UInt32) : Carries frame family ↔ family = 7 := by
  unfold sentFrames at h
  repeat' split at h
  all_goals try cases h
  obtain ⟨offset, hextensions⟩ := emittedFrames_extensions h
  exact fragmentExtensions_carries hextensions family

/-- The DATA frames that `bridgeToConnection` emits. -/
def bridgedFrames (g : Gateway) (source destination : CapabilitySet) (e : ConnectionEngine)
    (channel : ChannelId) (payload : Bytes) : List Frame :=
  match g.bridgeMessage source destination channel payload with
  | .error _ => []
  | .ok message => e.sentFrames message.destination message.payload

/-- An engine with the channels that were opened on it, each with the family asked for. -/
structure OpeningRun where
  engine : ConnectionEngine
  opened : List (ChannelId × UInt32) := []

def OpeningRun.call (r : OpeningRun) (c : Call) : OpeningRun :=
  { engine := r.engine.call c
    opened := match c with
      | .openChannel request =>
        match (r.engine.openChannel request).1 with
        | .error _ => r.opened
        | .ok (id, _) => r.opened ++ [(id, request.familyId)]
      | _ => r.opened }

/-- The frames sent on a channel carry the family that it was opened with exactly when that is 7, and
so do those bridged to it along a route of that family. -/
theorem family_kept_iff (policy : LocalPolicy) (registry : PluginRegistry)
    (executor : Option (DeterministicExecutor EngineTask)) (calls : List Call) :
    ∀ p ∈ (run OpeningRun.call { engine := make policy registry executor } calls).opened,
      (∀ payload, ∀ frame ∈ (run OpeningRun.call { engine := make policy registry executor }
        calls).engine.sentFrames p.1 payload, Carries frame p.2 ↔ p.2 = 7) ∧
      ∀ (g : Gateway) (source destination : CapabilitySet) (channel : ChannelId) (route : GatewayRoute),
        g.findRoute channel = .ok route → route.destination = p.1 → route.familyId = p.2 →
        ∀ payload, ∀ frame ∈ bridgedFrames g source destination
          (run OpeningRun.call { engine := make policy registry executor } calls).engine channel payload,
          Carries frame route.familyId ↔ route.familyId = 7 := by
  intro p _
  refine ⟨fun payload frame hframe => sentFrames_carries hframe p.2, ?_⟩
  intro g source destination channel route _ _ _ payload frame hframe
  unfold bridgedFrames at hframe
  split at hframe
  next => cases hframe
  next message _ => exact sentFrames_carries hframe route.familyId

/-- A registry with one plugin of that family. -/
def familyRegistry (family : UInt32) : PluginRegistry :=
  { entries := AList.singleton family
      { descriptor := { echoDescriptor with familyId := family }, factory := echoPlugin } }

/-- An engine that has negotiated that family with its like, and opened a channel for it. -/
def familyRun (family : UInt32) : OpeningRun :=
  let registry := familyRegistry family
  run OpeningRun.call { engine := make { maxChannels := 1 } registry none }
    [.start, .receive (outbound (make { maxChannels := 1 } registry none).start.1).flatten false,
      .openChannel { familyId := family }]

theorem family_kept_iff_seven :
    ∃ frame ∈ (familyRun 7).engine.sentFrames ⟨1, 1⟩ [104, 105], Carries frame 7 := by
  obtain ⟨hopened, hsent⟩ : (⟨1, 1⟩, 7) ∈ (familyRun 7).opened ∧
      (familyRun 7).engine.sentFrames ⟨1, 1⟩ [104, 105] ≠ [] := by decide +kernel
  obtain ⟨frame, hframe⟩ := List.exists_mem_of_ne_nil _ hsent
  exact ⟨frame, hframe, ((family_kept_iff { maxChannels := 1 } (familyRegistry 7) none _ (⟨1, 1⟩, 7)
    hopened).1 [104, 105] frame hframe).mpr rfl⟩

/-- A channel opened for family 8 sends its messages as those of family 7. -/
theorem family_lost : ¬ ∀ (policy : LocalPolicy) (registry : PluginRegistry)
    (executor : Option (DeterministicExecutor EngineTask)) (calls : List Call),
    ∀ p ∈ (run OpeningRun.call { engine := make policy registry executor } calls).opened,
      ∀ payload, ∀ frame ∈ (run OpeningRun.call { engine := make policy registry executor }
        calls).engine.sentFrames p.1 payload, Carries frame p.2 := by
  intro h
  obtain ⟨hopened, hsent⟩ : (⟨1, 1⟩, 8) ∈ (familyRun 8).opened ∧
      (familyRun 8).engine.sentFrames ⟨1, 1⟩ [104, 105] ≠ [] := by decide +kernel
  obtain ⟨frame, hframe⟩ := List.exists_mem_of_ne_nil _ hsent
  have hcarries := h { maxChannels := 1 } (familyRegistry 8) none _ (⟨1, 1⟩, 8) hopened
    [104, 105] frame hframe
  exact absurd ((sentFrames_carries hframe 8).mp hcarries) (by decide)

end ConnectionEngine

end LatticeGateway

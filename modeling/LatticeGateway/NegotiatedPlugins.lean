import LatticeGateway.PluginFamilies

namespace LatticeGateway

open Runs

namespace ConnectionEngine

theorem dispatch_capabilities (e : ConnectionEngine) (channel : ChannelId) (family : UInt32)
    (completed : LogicalMessage) :
    (e.dispatch channel family completed).2.capabilities = e.capabilities := by
  obtain ⟨_, _, _, hmoves, _⟩ := dispatch_moves e channel family completed
  rw [hmoves]

/-- A step that neither begins nor ends the HELLO exchange. -/
structure Calm (e e' : ConnectionEngine) : Prop where
  early : e'.Early → e.Early
  channels : e'.channels ≠ none → e.channels ≠ none
  capabilities : e'.capabilities = e.capabilities

theorem Silent.calm {e e' : ConnectionEngine} (h : Silent e e')
    (hcapabilities : e'.capabilities = e.capabilities) : Calm e e' := by
  refine ⟨h.early, fun hsome hnone => ?_, hcapabilities⟩
  have hchannels := h.channels
  rw [hnone] at hchannels
  cases hchannels' : e'.channels with
  | none => exact hsome hchannels'
  | some t =>
    rw [hchannels'] at hchannels
    cases hchannels

/-- A calm step, or the HELLO that is accepted. -/
def Moves (e e' : ConnectionEngine) : Prop :=
  Calm e e' ∨ e.state = .negotiating ∧ e'.capabilities ≠ none ∧ ¬ e'.Early

theorem Moves.trans_calm {e e' e'' : ConnectionEngine} (h : Moves e e') (h' : Calm e' e'') :
    Moves e e'' := by
  rcases h with h | ⟨hstate, hsome, hlate⟩
  · exact .inl ⟨h.early ∘ h'.early, h.channels ∘ h'.channels, h'.capabilities.trans h.capabilities⟩
  · exact .inr ⟨hstate, by rwa [h'.capabilities], fun hearly => hlate (h'.early hearly)⟩

/-- Capabilities are there with the table, and not before the HELLO exchange is over. -/
structure Settled (e : ConnectionEngine) : Prop where
  early : e.Early → e.capabilities = none
  tabled : e.channels ≠ none → e.capabilities ≠ none

theorem Settled.moves {e e' : ConnectionEngine} (hi : Settled e) (h : Moves e e') : Settled e' := by
  rcases h with h | ⟨_, hsome, hlate⟩
  · refine ⟨fun hearly => ?_, fun hchannels => ?_⟩
    · rw [h.capabilities]
      exact hi.early (h.early hearly)
    · rw [h.capabilities]
      exact hi.tabled (h.channels hchannels)
  · exact ⟨fun hearly => absurd hearly hlate, fun _ => hsome⟩

/-- What was negotiated stays so. -/
theorem Settled.kept {e e' : ConnectionEngine} (hi : Settled e) (h : Moves e e') {caps : CapabilitySet}
    (hcaps : e.capabilities = some caps) : e'.capabilities = some caps := by
  rcases h with h | ⟨hstate, _, _⟩
  · rw [h.capabilities, hcaps]
  · rw [hi.early (.inr hstate)] at hcaps
    cases hcaps

theorem handleData_calm (e : ConnectionEngine) (frame : Frame) : Calm e (e.handleData frame).2 := by
  have hcapabilities : (e.handleData frame).2.capabilities = e.capabilities := by
    rcases handleData_completed e frame with ⟨_, hsteady⟩ | ⟨family, completed, e', _, hsteady, h⟩
    · exact hsteady.capabilities
    · rw [h, dispatch_capabilities, hsteady.capabilities]
  rcases handleData_effect e frame with hquiet | ⟨hdelivers, hstate, _⟩
  · exact hquiet.toSilent.calm hcapabilities
  · obtain ⟨t, _, _, _, _, ht, _⟩ := hdelivers
    refine ⟨?_, fun _ => by simp [ht], hcapabilities⟩
    unfold Early
    rw [hstate]
    exact fun hearly => hearly

theorem handleFrame_moves (e : ConnectionEngine) (frame : Frame) :
    Moves e (e.handleFrame frame).2 := by
  by_cases hdata : frame.type = .data
  · have hframe : e.handleFrame frame = e.handleData frame := by simp only [handleFrame, hdata]
    rw [hframe]
    exact .inl (handleData_calm e frame)
  · by_cases hhello : frame.type = .hello
    · have hframe : e.handleFrame frame = e.handleHello frame := by simp only [handleFrame, hhello]
      rw [hframe]
      rcases handleHello_cases e frame with ⟨error, h⟩ | ⟨_, caps, hstate, _, _, h⟩
      · rw [h]
        exact .inl ((Silent.refl e).calm rfl)
      · rw [h]
        refine .inr ⟨hstate, Option.some_ne_none caps, ?_⟩
        rintro (hearly | hearly) <;> cases hearly
    · have hsteady := handleFrame_steady e hhello hdata
      exact .inl ((handleFrame_silent e hhello hdata).calm hsteady.capabilities)

theorem handleEvent_moves (e : ConnectionEngine) (event : DecodeEvent) :
    Moves e (e.handleEvent event).2 := by
  have hdiagnostic : ∀ (e : ConnectionEngine) (error : Error), Calm e (e.diagnostic error) :=
    fun e error => (Quiet.diagnostic e error).toSilent.calm rfl
  have hclosed : ∀ (e : ConnectionEngine) (error : Error),
      Calm e { e.diagnostic error with state := .closed } := fun e error =>
    ((Quiet.diagnostic e error).toSilent.trans (.moved _ (by decide) (by decide))).calm rfl
  cases event with
  | needMore => exact .inl ((Silent.refl e).calm rfl)
  | error error => exact .inl (hclosed e error)
  | frame frame =>
    have hframe := handleFrame_moves e frame
    unfold handleEvent
    dsimp only
    split
    next error e' h =>
      rw [h] at hframe
      dsimp only
      split
      next => exact hframe.trans_calm (hclosed e' error)
      next => exact hframe.trans_calm (hdiagnostic e' error)
    next h =>
      rw [h] at hframe
      exact hframe

theorem mem_handled {event : DecodeEvent} {events : List DecodeEvent} {e : ConnectionEngine}
    {p : ConnectionEngine × Frame} (h : p ∈ handled (event :: events) e) :
    p.1 = e ∨ ∃ produced e', e.handleEvent event = (.ok produced, e') ∧ p ∈ handled events e' := by
  unfold handled at h
  rcases List.mem_append.mp h with hfirst | hrest
  · cases event with
    | needMore => cases hfirst
    | error error => cases hfirst
    | frame frame =>
      rw [List.mem_singleton.mp hfirst]
      exact .inl rfl
  · split at hrest
    next => cases hrest
    next produced e' hevent => exact .inr ⟨produced, e', hevent, hrest⟩

/-- What was negotiated before or during a `receive` is so at its end. -/
theorem receiveLoop_settled (events : List DecodeEvent) {e : ConnectionEngine} (hi : Settled e)
    (out : List Bytes) : Settled (receiveLoop events e out).2 ∧
      ∀ caps, e.capabilities = some caps → (receiveLoop events e out).2.capabilities = some caps := by
  induction events generalizing e out with
  | nil => exact ⟨hi, fun _ h => h⟩
  | cons event events ih =>
    have hmoves := handleEvent_moves e event
    unfold receiveLoop
    rcases h : e.handleEvent event with ⟨_ | produced, e'⟩
    · rw [h] at hmoves
      exact ⟨hi.moves hmoves, fun caps hcaps => hi.kept hmoves hcaps⟩
    · rw [h] at hmoves
      obtain ⟨hsettled, hkept⟩ := ih (hi.moves hmoves) (out ++ produced)
      exact ⟨hsettled, fun caps hcaps => hkept caps (hi.kept hmoves hcaps)⟩

theorem handled_settled (events : List DecodeEvent) {e : ConnectionEngine} (hi : Settled e)
    (out : List Bytes) : ∀ p ∈ handled events e, p.1.registry = e.registry ∧ Settled p.1 ∧
      ∀ caps, p.1.capabilities = some caps →
        (receiveLoop events e out).2.capabilities = some caps := by
  induction events generalizing e out with
  | nil => simp [handled]
  | cons event events ih =>
    intro p hp
    have hmoves := handleEvent_moves e event
    have hregistry := (handleEvent_queues e event).registry
    rcases mem_handled hp with hsame | ⟨produced, e', h, hrest⟩
    · rw [hsame]
      exact ⟨rfl, hi, (receiveLoop_settled (event :: events) hi out).2⟩
    · rw [h] at hmoves hregistry
      unfold receiveLoop
      rw [h]
      obtain ⟨hsame, hlater⟩ := ih (hi.moves hmoves) (out ++ produced) p hrest
      exact ⟨hsame.trans hregistry, hlater⟩

/-- What a call does to capabilities and plugins. -/
structure CallEffect (e : ConnectionEngine) (c : Call) : Prop where
  settled : Settled (e.call c)
  kept : ∀ caps, e.capabilities = some caps → (e.call c).capabilities = some caps
  executor : (e.call c).executor.isSome = e.executor.isSome
  queued : ∀ family ∈ (e.call c).queuedFamilies, family ∈ e.queuedFamilies ∨ family ∈ e.callLeases c
  invoked : ∀ family ∈ e.callInvokes c, family ∈ e.queuedFamilies ∨ family ∈ e.callLeases c

theorem CallEffect.of_silent {e : ConnectionEngine} {c : Call} (hi : Settled e)
    (hsilent : Silent e (e.call c)) (hcapabilities : (e.call c).capabilities = e.capabilities)
    (hqueues : Queues e (e.call c) []) (hinvoked : ∀ family ∈ e.callInvokes c,
      family ∈ e.queuedFamilies) : CallEffect e c := by
  have hmoves : Moves e (e.call c) := .inl (hsilent.calm hcapabilities)
  refine ⟨hi.moves hmoves, fun _ hcaps => hi.kept hmoves hcaps, hqueues.executor, ?_,
    fun family hfamily => .inl (hinvoked family hfamily)⟩
  intro family hfamily
  rcases hqueues.queued family hfamily with hold | hnone
  · exact .inl hold
  · cases hnone

theorem CallEffect.of_steady {e : ConnectionEngine} {c : Call} (hi : Settled e)
    (hsilent : Silent e (e.call c)) (hsteady : Steady e (e.call c)) (hinvoked : e.callInvokes c = []) :
    CallEffect e c :=
  .of_silent hi hsilent hsteady.capabilities (hsteady.queues []) (by simp [hinvoked])

theorem receive_effect {e : ConnectionEngine} (hi : Settled e) (bytes : Bytes) (eof : Bool) :
    CallEffect e (.receive bytes eof) := by
  have hdecoded : Settled (e.decoded bytes eof).2 := ⟨hi.early, hi.tabled⟩
  obtain ⟨hsettled, hkept⟩ := receiveLoop_settled (e.decoded bytes eof).1 hdecoded []
  have hqueues := receiveLoop_queues (e.decoded bytes eof).1 (e.decoded bytes eof).2 []
  refine ⟨hsettled, hkept, hqueues.executor, hqueues.queued, fun family hfamily => .inr ?_⟩
  change family ∈ if e.executor.isSome then [] else e.callLeases (.receive bytes eof) at hfamily
  split at hfamily
  next => cases hfamily
  next => exact hfamily

theorem submitTask_effect {e : ConnectionEngine} (hi : Settled e) (shard : UInt32)
    (result : Except Error Unit) : CallEffect e (.submitTask shard result) := by
  refine .of_silent hi (.of_eq rfl rfl rfl) rfl ⟨rfl, Option.isSome_map, ?_⟩ (by simp [callInvokes])
  intro family hfamily
  cases hexecutor : e.executor with
  | none => simp [queuedFamilies, call, hexecutor] at hfamily
  | some executor =>
    exact @submit_families _ (e.call (.submitTask shard result)) _ _ _ _ _ hexecutor
      (by simp only [call, hexecutor]; rfl) rfl family hfamily

theorem cancelTask_effect {e : ConnectionEngine} (hi : Settled e) (id : UInt64) :
    CallEffect e (.cancelTask id) := by
  refine .of_silent hi (.of_eq rfl rfl rfl) rfl ⟨rfl, Option.isSome_map, ?_⟩ (by simp [callInvokes])
  intro family hfamily
  obtain ⟨_, hfound, task, htask, hmem⟩ := mem_queuedFamilies.mp hfamily
  obtain ⟨executor, hexecutor, rfl⟩ := Option.map_eq_some_iff.mp hfound
  refine .inl (mem_queuedFamilies.mpr ⟨executor, hexecutor, task, ?_, hmem⟩)
  rw [executor.cancel_queue] at htask
  exact List.mem_of_mem_filter htask

theorem call_effect {e : ConnectionEngine} (hi : Settled e) (c : Call) : CallEffect e c := by
  cases c with
  | receive bytes eof => exact receive_effect hi bytes eof
  | start => exact .of_steady hi (start_silent e) (start_steady e) rfl
  | openChannel request =>
    exact .of_steady hi (openChannel_quiet e request).toSilent (openChannel_steady e request) rfl
  | send id payload => exact .of_steady hi (send_quiet e id payload).toSilent (send_steady e id payload) rfl
  | grantCredit id amount =>
    exact .of_steady hi (emitFrame_quiet e _ _ _ _).toSilent (emitFrame_steady e _ _ _ _) rfl
  | acknowledge ranges =>
    exact .of_steady hi (acknowledge_quiet e ranges).toSilent (acknowledge_steady e ranges) rfl
  | ping token =>
    exact .of_steady hi (emitFrame_quiet e _ _ _ _).toSilent (emitFrame_steady e _ _ _ _) rfl
  | resume request =>
    exact .of_steady hi (emitFrame_quiet e _ _ _ _).toSilent (emitFrame_steady e _ _ _ _) rfl
  | completePlugin completion =>
    exact .of_steady hi (completePlugin_quiet e completion).toSilent
      (completePlugin_steady e completion) rfl
  | advanceTime nowMs =>
    have htimers : Quiet e { e with nowMs, timers := (e.timers.expire nowMs).2 } :=
      .of_eq rfl rfl rfl rfl
    exact .of_steady hi (htimers.toSilent.trans (advanceLoop_silent _ _ _)) (advanceTime_steady e nowMs)
      rfl
  | flushOutbound writableBytes => exact .of_steady hi (.of_eq rfl rfl rfl) ⟨rfl, rfl, rfl⟩ rfl
  | loadReplaySnapshot text =>
    exact .of_steady hi (loadReplaySnapshot_quiet e text).toSilent (loadReplaySnapshot_steady e text) rfl
  | halfClose id direction =>
    exact .of_steady hi (halfClose_quiet e id direction).toSilent (halfClose_steady e id direction) rfl
  | reset id => exact .of_steady hi (reset_quiet e id).toSilent (reset_steady e id) rfl
  | goaway => exact .of_steady hi (goaway_silent e) (goaway_steady e) rfl
  | submitTask shard result => exact submitTask_effect hi shard result
  | cancelTask id => exact cancelTask_effect hi id
  | drainOne =>
    obtain ⟨hqueues, hcapabilities, hpopped⟩ := drainOne_queues e
    exact .of_silent hi (drainOne_quiet e).toSilent hcapabilities hqueues hpopped
  | drainAll =>
    obtain ⟨hqueues, hcapabilities, hdrained⟩ :=
      drainAllLoop_queues (e.executor.elim 0 (·.queue.length)) e
    exact .of_silent hi (drainAllLoop_quiet _ e).toSilent hcapabilities hqueues hdrained

/-- An engine with the families that plugins were leased for, and those whose plugins were run. -/
structure Watched where
  engine : ConnectionEngine
  leased : List UInt32 := []
  invoked : List UInt32 := []

def Watched.call (w : Watched) (c : Call) : Watched :=
  { engine := w.engine.call c
    leased := w.leased ++ w.engine.callLeases c
    invoked := w.invoked ++ w.engine.callInvokes c }

/-- Every DATA frame that completes a message carries a family that was negotiated, or one that the
registry cannot lease. -/
def Guarded (w : Watched) : Call → Prop
  | .receive bytes eof =>
    ∀ p ∈ handled (w.engine.decoded bytes eof).1 (w.engine.decoded bytes eof).2,
      p.2.type = .data → ∀ handed ∈ p.1.completed? p.2, p.1.Negotiated handed.1 ∨
        (p.1.registry.createLease handed.1).toOption.isNone = true
  | _ => True

instance (e : ConnectionEngine) (family : UInt32) : Decidable (e.Negotiated family) :=
  decidable_of_iff (∃ caps ∈ e.capabilities, ∃ plugin ∈ caps.plugins, plugin.familyId = family) Iff.rfl

instance (w : Watched) (c : Call) : Decidable (Guarded w c) :=
  match c with
  | .receive _ _ => inferInstanceAs (Decidable (∀ p ∈ handled _ _, _))
  | .start | .openChannel _ | .send .. | .grantCredit .. | .acknowledge _ | .ping _ | .resume _
  | .completePlugin _ | .advanceTime _ | .flushOutbound _ | .loadReplaySnapshot _ | .halfClose ..
  | .reset _ | .goaway | .submitTask .. | .cancelTask _ | .drainOne | .drainAll => isTrue trivial

/-- Only plugins of leased families are run, or wait for it. -/
structure Watched.Tracked (w : Watched) : Prop where
  settled : w.engine.Settled
  queued : ∀ family ∈ w.engine.queuedFamilies, family ∈ w.leased
  invoked : ∀ family ∈ w.invoked, family ∈ w.leased

theorem Watched.Tracked.call {w : Watched} (h : w.Tracked) (c : Call) : (w.call c).Tracked := by
  have heffect := call_effect h.settled c
  have hmore : ∀ family, family ∈ w.engine.queuedFamilies ∨ family ∈ w.engine.callLeases c →
      family ∈ (w.call c).leased := by
    rintro family (hqueued | hleased)
    · exact List.mem_append_left _ (h.queued family hqueued)
    · exact List.mem_append_right _ hleased
  refine ⟨heffect.settled, fun family hfamily => hmore family (heffect.queued family hfamily), ?_⟩
  intro family hfamily
  rcases List.mem_append.mp hfamily with hold | hnew
  · exact List.mem_append_left _ (h.invoked family hold)
  · exact hmore family (heffect.invoked family hnew)

theorem leases_negotiated {p : ConnectionEngine × Frame} {family : UInt32}
    (h : p.2.type = .data → ∀ handed ∈ p.1.completed? p.2, p.1.Negotiated handed.1 ∨
      (p.1.registry.createLease handed.1).toOption.isNone = true)
    (hfamily : family ∈ p.1.leases p.2) : p.1.Negotiated family := by
  unfold leases at hfamily
  split at hfamily
  next hdata =>
    split at hfamily
    next => cases hfamily
    next family' completed hcompleted =>
      have hguarded := h hdata (family', completed) hcompleted
      split at hfamily
      next => cases hfamily
      next lease hlease =>
        rw [List.mem_singleton.mp hfamily]
        rcases hguarded with hnegotiated | hnone
        · exact hnegotiated
        · rw [hlease] at hnone
          cases hnone
  next => cases hfamily

theorem Negotiated.kept {e e' : ConnectionEngine} {family : UInt32} (h : e.Negotiated family)
    (hkept : ∀ caps, e.capabilities = some caps → e'.capabilities = some caps) :
    e'.Negotiated family := by
  obtain ⟨caps, hcaps, hplugin⟩ := h
  exact ⟨caps, hkept caps hcaps, hplugin⟩

/-- What a guarded call leases was negotiated. -/
theorem callLeases_negotiated {w : Watched} (hi : w.engine.Settled) {c : Call} (h : Guarded w c)
    {family : UInt32} (hfamily : family ∈ w.engine.callLeases c) :
    (w.engine.call c).Negotiated family := by
  cases c with
  | receive bytes eof =>
    have hdecoded : Settled (w.engine.decoded bytes eof).2 := ⟨hi.early, hi.tabled⟩
    obtain ⟨p, hp, hleased⟩ := List.mem_flatMap.mp hfamily
    obtain ⟨_, _, hkept⟩ := handled_settled (w.engine.decoded bytes eof).1 hdecoded [] p hp
    exact (leases_negotiated (h p hp) hleased).kept hkept
  | _ => cases hfamily

theorem guarded_run {w : Watched} (hi : w.Tracked) (hleased : ∀ family ∈ w.leased,
    w.engine.Negotiated family) {calls : List Call} (h : Along Watched.call Guarded w calls) :
    ∀ family ∈ (run Watched.call w calls).invoked, (run Watched.call w calls).engine.Negotiated family := by
  have hstep : ∀ (w : Watched) (c : Call),
      (w.Tracked ∧ ∀ family ∈ w.leased, w.engine.Negotiated family) → Guarded w c →
      ((w.call c).Tracked ∧ ∀ family ∈ (w.call c).leased, (w.call c).engine.Negotiated family) := by
    rintro w c ⟨hi, hleased⟩ hguarded
    refine ⟨hi.call c, fun family hfamily => ?_⟩
    rcases List.mem_append.mp hfamily with hold | hnew
    · exact (hleased family hold).kept (call_effect hi.settled c).kept
    · exact callLeases_negotiated hi.settled hguarded hnew
  obtain ⟨htracked, hnegotiated⟩ := run_invariant hstep ⟨hi, hleased⟩ h
  exact fun family hfamily => hnegotiated family (htracked.invoked family hfamily)

theorem mem_leases {e : ConnectionEngine} {frame : Frame} (hdata : frame.type = .data)
    {handed : UInt32 × LogicalMessage} (hcompleted : e.completed? frame = some handed)
    {lease : Plugin} (hlease : e.registry.createLease handed.1 = .ok lease) :
    handed.1 ∈ e.leases frame := by
  unfold leases
  rw [if_pos hdata, hcompleted]
  dsimp only
  rw [hlease]
  exact List.mem_singleton.mpr rfl

theorem completed?_channels {e : ConnectionEngine} {frame : Frame} {handed : UInt32 × LogicalMessage}
    (h : e.completed? frame = some handed) : e.channels ≠ none := by
  intro hnone
  unfold completed? at h
  rw [hnone] at h
  cases h

theorem run_kept {w : Watched} (hi : w.Tracked) {caps : CapabilitySet}
    (hcaps : w.engine.capabilities = some caps) (calls : List Call) :
    (run Watched.call w calls).engine.capabilities = some caps := by
  have hstep : ∀ (w : Watched) (c : Call), w.Tracked ∧ w.engine.capabilities = some caps →
      (w.call c).Tracked ∧ (w.call c).engine.capabilities = some caps :=
    fun w c h => ⟨h.1.call c, (call_effect h.1.settled c).kept caps h.2⟩
  exact (run_induction hstep calls ⟨hi, hcaps⟩).2

theorem run_invoked {w : Watched} {family : UInt32} (h : family ∈ w.invoked) (calls : List Call) :
    family ∈ (run Watched.call w calls).invoked := by
  have hstep : ∀ (w : Watched) (c : Call), family ∈ w.invoked → family ∈ (w.call c).invoked :=
    fun _ _ h => List.mem_append_left _ h
  exact run_induction hstep calls h

/-- Without an executor every plugin that is leased runs, and so shows what it was leased for. -/
theorem run_guarded {w : Watched} (hi : w.Tracked) (hnone : w.engine.executor.isSome = false)
    {calls : List Call} (h : ∀ family ∈ (run Watched.call w calls).invoked,
      (run Watched.call w calls).engine.Negotiated family) : Along Watched.call Guarded w calls := by
  induction calls generalizing w with
  | nil => trivial
  | cons c calls ih =>
    have heffect := call_effect hi.settled c
    refine ⟨?_, ih (hi.call c) (heffect.executor.trans hnone) h⟩
    cases c with
    | receive bytes eof =>
      intro p hp hdata handed hhanded
      have hdecoded : Settled (w.engine.decoded bytes eof).2 := ⟨hi.settled.early, hi.settled.tabled⟩
      obtain ⟨_, hsettled, hkept⟩ := handled_settled (w.engine.decoded bytes eof).1 hdecoded [] p hp
      cases hlease : p.1.registry.createLease handed.1 with
      | error error => exact .inr rfl
      | ok lease =>
        left
        have hleased : handed.1 ∈ w.engine.callLeases (.receive bytes eof) :=
          List.mem_flatMap.mpr ⟨p, hp, mem_leases hdata hhanded hlease⟩
        have hinvoked : handed.1 ∈ (w.call (.receive bytes eof)).invoked := by
          refine List.mem_append_right _ ?_
          change handed.1 ∈ if w.engine.executor.isSome then [] else _
          rw [hnone]
          exact hleased
        obtain ⟨caps, hcaps⟩ :=
          Option.ne_none_iff_exists'.mp (hsettled.tabled (completed?_channels hhanded))
        obtain ⟨final, hfinal, hplugin⟩ := h _ (run_invoked hinvoked calls)
        have hsame : (run Watched.call (w.call (.receive bytes eof)) calls).engine.capabilities =
            some caps := run_kept (hi.call (.receive bytes eof)) (hkept caps hcaps) calls
        obtain rfl : final = caps := Option.some.inj (hfinal.symm.trans hsame)
        exact ⟨final, hcaps, hplugin⟩
    | _ => trivial

theorem Watched.Tracked.start (policy : LocalPolicy) (registry : PluginRegistry)
    {executor : Option (DeterministicExecutor EngineTask)}
    (hforeign : ∀ x ∈ executor, ∀ task ∈ x.queue, taskFamilies task.run = []) :
    Watched.Tracked { engine := make policy registry executor } := by
  refine ⟨⟨fun _ => rfl, fun h => absurd rfl h⟩, fun family hfamily => ?_, fun _ h => h⟩
  obtain ⟨x, hx, task, htask, hmem⟩ := mem_queuedFamilies.mp hfamily
  rw [hforeign x hx task htask] at hmem
  cases hmem

/-- Only plugins of negotiated families run in every run whose DATA frames complete messages for families
that were negotiated or cannot be leased; without an executor in no other. -/
theorem negotiated_plugins_run (policy : LocalPolicy) (registry : PluginRegistry)
    (executor : Option (DeterministicExecutor EngineTask))
    (hforeign : ∀ x ∈ executor, ∀ task ∈ x.queue, taskFamilies task.run = []) (calls : List Call) :
    (Along Watched.call Guarded { engine := make policy registry executor } calls →
      ∀ family ∈ (run Watched.call { engine := make policy registry executor } calls).invoked,
        (run Watched.call { engine := make policy registry executor } calls).engine.Negotiated family) ∧
    (executor = none →
      (∀ family ∈ (run Watched.call { engine := make policy registry executor } calls).invoked,
        (run Watched.call { engine := make policy registry executor } calls).engine.Negotiated family) →
      Along Watched.call Guarded { engine := make policy registry executor } calls) := by
  have htracked : Watched.Tracked { engine := make policy registry executor } :=
    .start policy registry hforeign
  refine ⟨fun h => guarded_run htracked (by simp) h, fun hnone h => run_guarded htracked ?_ h⟩
  rw [hnone]
  rfl

/-- The calls that bring such an engine to receive one message of `family` on a channel for family 7. -/
def receives (family : UInt32) : List Call :=
  let openFrame : Frame := { type := .open, channel := ⟨1, 1⟩, payload := u32Bytes 7 ++ u32Bytes 0 }
  let dataFrame : Frame :=
    { type := .data, channel := ⟨1, 1⟩, payload := [104, 105], extensions :=
        [{ type := kExtMessageSeq, required := true, value := u32Bytes 1 },
          { type := kExtFragmentOffset, required := true, value := u32Bytes 0 },
          { type := kExtMessageTotal, required := true, value := u32Bytes 2 },
          { type := kExtFamilyId, required := true, value := u32Bytes family }] }
  negotiation { maxChannels := 1 } ++
    [.receive (frameBytes openFrame) false, .receive (frameBytes dataFrame) false]

theorem negotiated_plugins_run_echo :
    7 ∈ (run Watched.call { engine := make { maxChannels := 1 } echoRegistry none } (receives 7)).invoked ∧
      (run Watched.call { engine := make { maxChannels := 1 } echoRegistry none }
        (receives 7)).engine.Negotiated 7 := by
  obtain ⟨hinvoked, hguarded⟩ :
      7 ∈ (run Watched.call { engine := make { maxChannels := 1 } echoRegistry none }
        (receives 7)).invoked ∧
      Along Watched.call Guarded { engine := make { maxChannels := 1 } echoRegistry none }
        (receives 7) := by decide +kernel
  refine ⟨hinvoked, ?_⟩
  exact (negotiated_plugins_run { maxChannels := 1 } echoRegistry none (by simp) (receives 7)).1
    hguarded 7 hinvoked

/-- The echo plugin under a second family, which the peer of `receives` does not offer. -/
def twoFamilies : PluginRegistry :=
  { entries := echoRegistry.entries.insert 8
      { descriptor := { echoDescriptor with familyId := 8 }, factory := echoPlugin } }

/-- On a channel for family 7, a DATA frame for family 8 runs the plugin of family 8. -/
theorem unnegotiated_plugin_runs : ¬ ∀ (policy : LocalPolicy) (registry : PluginRegistry)
    (executor : Option (DeterministicExecutor EngineTask)),
    (∀ x ∈ executor, ∀ task ∈ x.queue, taskFamilies task.run = []) → ∀ calls : List Call,
      ∀ family ∈ (run Watched.call { engine := make policy registry executor } calls).invoked,
        (run Watched.call { engine := make policy registry executor } calls).engine.Negotiated family := by
  intro h
  obtain ⟨hinvoked, hforeign⟩ :
      8 ∈ (run Watched.call { engine := make { maxChannels := 1 } twoFamilies none }
        (receives 8)).invoked ∧
      ¬ (run Watched.call { engine := make { maxChannels := 1 } twoFamilies none }
        (receives 8)).engine.Negotiated 8 := by decide +kernel
  exact hforeign (h { maxChannels := 1 } twoFamilies none (by simp) (receives 8) 8 hinvoked)

end ConnectionEngine

end LatticeGateway

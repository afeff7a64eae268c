import LatticeGateway.DataReceiving
import LatticeGateway.FragmentInverse
import LatticeGateway.FrameLimit
import LatticeGateway.NegotiatedPlugins
import LatticeGateway.StreamInspection
import LatticeGateway.WireFrames

namespace LatticeGateway

open Runs BoundedLog

/-- The bytes are one frame of the grammar, without an error wherever it stands in a stream. -/
structure ProperChunk (limits : FrameLimits) (chunk : Bytes) (frame : Frame) : Prop where
  form : FrameForm limits chunk frame
  payload : frame.payload.length < 2 ^ 32
  certified : ∀ index, Certified (inspectFrame frame index)

/-- Whatever the window may have to send again is a proper chunk. -/
def ReplayWindow.Retains (limits : FrameLimits) (w : ReplayWindow) : Prop :=
  ∀ logged ∈ w.logged, ∃ frame, ProperChunk limits logged.2 frame

section

variable {frame : Frame} {index : Nat}

theorem certified_nil : Certified [] := fun _ hfinding => absurd hfinding List.not_mem_nil

theorem inspectFrame_certified (hduplicate : Certified (frame.duplicateFindings index))
    (hdata : frame.type = .data → Certified (frame.dataFindings index))
    (hresume : frame.type = .resume → frame.channel.isControl = true) :
    Certified (inspectFrame frame index) := by
  have hempty : Certified (frame.emptyRequiredFindings index) := by
    intro finding hfinding
    obtain ⟨_, _, rfl⟩ := List.mem_map.mp hfinding
    simp [Frame.finding]
  have hping : Certified (frame.pingFindings index) := by
    unfold Frame.pingFindings Certified
    split <;> simp [Frame.finding]
  have hchannel : Certified (frame.resumeFindings index) := by
    unfold Frame.resumeFindings
    rw [if_neg fun h => by rw [hresume h.1] at h; cases h.2]
    exact certified_nil
  have hcontrol : Certified (frame.controlFindings index) := by
    unfold Frame.controlFindings Certified
    split <;> simp [Frame.finding]
  unfold inspectFrame
  simp only [certified_append]
  refine ⟨⟨⟨⟨⟨hempty, hduplicate⟩, ?_⟩, hping⟩, hchannel⟩, hcontrol⟩
  split
  next htype => exact hdata htype
  next => exact certified_nil

/-- A frame without extensions is proper, unless it should have some. -/
theorem plain_certified (hplain : frame.extensions = []) (hdata : frame.type ≠ .data)
    (hresume : frame.type = .resume → frame.channel.isControl = true) :
    Certified (inspectFrame frame index) := by
  refine inspectFrame_certified ?_ (fun htype => absurd htype hdata) hresume
  have hnone : frame.duplicateFindings index = [] := by
    unfold Frame.duplicateFindings Frame.seenTypes
    rw [hplain]
    rfl
  rw [hnone]
  exact certified_nil

theorem dataExtensionFindings_u32 {type : UInt16} {missingCode : FrameFindingCode} {name : String}
    {value : UInt32} (h : extensionU32 frame type = .ok value) :
    frame.dataExtensionFindings index type missingCode name = [] := by
  unfold extensionU32 at h
  unfold Frame.dataExtensionFindings
  cases hext : findExtension frame type with
  | none =>
    rw [hext] at h
    cases h
  | some ext =>
    rw [hext] at h
    dsimp only at h ⊢
    by_cases hsize : ext.value.length ≠ 4
    · rw [if_pos hsize] at h
      cases h
    · exact if_neg hsize

/-- A fragment that starts within its message is proper. -/
theorem fragment_certified {sequence : UInt32} {offset total : Nat}
    (hextensions : frame.extensions = ConnectionEngine.fragmentExtensions sequence offset total)
    (hdata : frame.type = .data) (hoffset : offset < total) (htotal : total < 2 ^ 32) :
    Certified (inspectFrame frame index) := by
  obtain ⟨hseq, hstart, hsize, hfamily⟩ := ConnectionEngine.extensionU32_fragment hextensions
  have hwhole : (UInt32.ofNat total).toNat = total := by
    rw [UInt32.toNat_ofNat', Nat.mod_eq_of_lt htotal]
  have hbegin : (UInt32.ofNat offset).toNat = offset := by
    rw [UInt32.toNat_ofNat', Nat.mod_eq_of_lt (by omega)]
  refine inspectFrame_certified ?_ (fun _ => ?_) fun htype => by rw [hdata] at htype; cases htype
  · have hnone : frame.duplicateFindings index = [] := by
      unfold Frame.duplicateFindings Frame.seenTypes
      rw [hextensions]
      rfl
    rw [hnone]
    exact certified_nil
  · have hzero : UInt32.ofNat total ≠ 0 := by
      rw [ne_eq, ← UInt32.toNat_inj, hwhole, UInt32.toNat_zero]
      omega
    have hrange : ¬ UInt32.ofNat offset > UInt32.ofNat total := by
      rw [gt_iff_lt, UInt32.lt_iff_toNat_lt, hwhole, hbegin]
      omega
    unfold Frame.dataFindings Frame.zeroTotalFindings Frame.rangeFindings
    rw [dataExtensionFindings_u32 hseq, dataExtensionFindings_u32 hstart, dataExtensionFindings_u32 hsize,
      dataExtensionFindings_u32 hfamily, hsize, hstart]
    dsimp only
    rw [if_neg hzero, if_neg hrange]
    exact certified_nil

end

namespace ConnectionEngine

/-- No message is longer than a total of 32 bits can say. -/
def Announced (e : ConnectionEngine) : Prop := ∀ caps ∈ e.capabilities, caps.maxMessage < 2 ^ 32

theorem Announced.same {e e' : ConnectionEngine} (h : Announced e)
    (hcapabilities : e'.capabilities = e.capabilities) : Announced e' := by
  unfold Announced
  rwa [hcapabilities]

theorem Announced.handleFrame {e : ConnectionEngine} (h : Announced e) (frame : Frame) :
    Announced (e.handleFrame frame).2 := by
  by_cases hdata : frame.type = .data
  · have hframe : e.handleFrame frame = e.handleData frame := by
      simp only [ConnectionEngine.handleFrame, hdata]
    rw [hframe]
    exact h.same (handleData_calm e frame).capabilities
  by_cases hhello : frame.type = .hello
  · have hframe : e.handleFrame frame = e.handleHello frame := by
      simp only [ConnectionEngine.handleFrame, hhello]
    rw [hframe]
    rcases handleHello_cases e frame with ⟨error, hcase⟩ | ⟨peer, caps, _, hpeer, hagreed, hcase⟩
    · rw [hcase]
      exact h
    · rw [hcase]
      rintro _ ⟨⟩
      -- The HELLO of the peer has the number in 32 bits, and the lower one is agreed on.
      have hlimit := decodeHelloPayload_message hpeer
      have hmin := (negotiate_ok hagreed).maxMessage
      omega
  · exact h.same (handleFrame_steady e hhello hdata).capabilities

theorem Announced.handleEvent {e : ConnectionEngine} (h : Announced e) (event : DecodeEvent) :
    Announced (e.handleEvent event).2 := by
  cases event with
  | needMore => exact h
  | error error => exact h
  | frame frame =>
    have hframe := h.handleFrame frame
    unfold ConnectionEngine.handleEvent
    dsimp only
    split
    next hcase =>
      rw [hcase] at hframe
      dsimp only
      split
      all_goals exact hframe
    next hcase =>
      rw [hcase] at hframe
      exact hframe

theorem Announced.receiveLoop {e : ConnectionEngine} (h : Announced e) (events : List DecodeEvent)
    (out : List Bytes) : Announced (receiveLoop events e out).2 := by
  induction events generalizing e out with
  | nil => exact h
  | cons event events ih =>
    have hevent := h.handleEvent event
    unfold ConnectionEngine.receiveLoop
    rcases hcase : e.handleEvent event with ⟨_ | produced, e'⟩
    all_goals rw [hcase] at hevent
    · exact hevent
    · exact ih hevent _

theorem Announced.call {e : ConnectionEngine} (h : Announced e) (c : Call) : Announced (e.call c) := by
  have hsteady : Steady e (e.call c) → Announced (e.call c) := fun hsteady => h.same hsteady.capabilities
  cases c with
  | receive bytes eof => exact Announced.receiveLoop (e := (e.decoded bytes eof).2) h _ []
  | start => exact hsteady (start_steady e)
  | openChannel request => exact hsteady (openChannel_steady e request)
  | send id payload => exact hsteady (send_steady e id payload)
  | grantCredit id amount => exact hsteady (emitFrame_steady e _ _ _ _)
  | acknowledge ranges => exact hsteady (acknowledge_steady e ranges)
  | ping token => exact hsteady (emitFrame_steady e _ _ _ _)
  | resume request => exact hsteady (emitFrame_steady e _ _ _ _)
  | completePlugin completion => exact hsteady (completePlugin_steady e completion)
  | advanceTime nowMs => exact hsteady (advanceTime_steady e nowMs)
  | loadReplaySnapshot text => exact hsteady (loadReplaySnapshot_steady e text)
  | halfClose id direction => exact hsteady (halfClose_steady e id direction)
  | reset id => exact hsteady (reset_steady e id)
  | goaway => exact hsteady (goaway_steady e)
  | flushOutbound writableBytes => exact h
  | submitTask shard result => exact h
  | cancelTask id => exact h
  | drainOne => exact h.same (drainOne_queues e).2.1
  | drainAll => exact h.same (drainAllLoop_queues _ e).2.1

/-- A frame that makes a proper chunk when it is encoded. -/
structure Emission.Proper (p : Emission) : Prop where
  known : p.2.KnownRequired
  certified : ∀ index, Certified (inspectFrame p.2.canonical index)

theorem Emission.Proper.chunk {p : Emission} (h : p.Proper) (hheader : p.1.codec.limits.maxHeader ≤ 65535)
    {encoded : Bytes} (hencode : p.1.codec.encode p.2 = .ok encoded) :
    ProperChunk p.1.codec.limits encoded p.2.canonical := by
  obtain ⟨ext, hencodes⟩ := FrameCodec.encode_ok hencode
  exact ⟨⟨_, _, hencodes.wireForm hheader h.known⟩, hencodes.payload, h.certified⟩

theorem plain_proper {p : Emission} (hplain : p.2.extensions = []) (hdata : p.2.type ≠ .data)
    (hresume : p.2.type = .resume → p.2.channel.isControl = true) : p.Proper where
  known := by
    unfold Frame.KnownRequired
    rw [hplain]
    exact fun _ h => absurd h List.not_mem_nil
  certified index := by
    have hcanonical : p.2.canonical.extensions = [] := by
      unfold Frame.canonical
      rw [hplain]
      rfl
    exact plain_certified hcanonical hdata hresume

theorem loop_proper {id : ChannelId} {sequence : UInt32} {total : Nat} (htotal : total < 2 ^ 32)
    {rounds : List (Nat × Bytes)} (hrounds : ∀ round ∈ rounds, round.1 < total) {e : ConnectionEngine}
    {p : Emission} (h : p ∈ loopEmissions id sequence total rounds e) : p.Proper := by
  induction rounds generalizing e with
  | nil => cases h
  | cons round rest ih =>
    obtain ⟨offset, fragment⟩ := round
    unfold loopEmissions at h
    rcases List.mem_cons.mp h with rfl | hrest
    · refine ⟨dataFrame_known id sequence total e.nextFrameSeq (offset, fragment), fun index => ?_⟩
      exact fragment_certified rfl rfl (hrounds (offset, fragment) (by simp)) htotal
    · split at hrest
      next => cases hrest
      next => exact ih (fun other hother => hrounds other (List.mem_cons_of_mem _ hother)) hrest

theorem send_proper {e : ConnectionEngine} (hannounced : Announced e) {id : ChannelId} {payload : Bytes}
    {p : Emission} (h : p ∈ e.sendEmissions id payload) : p.Proper := by
  unfold sendEmissions at h
  split at h
  next channels caps _ hcaps =>
    split at h
    next => cases h
    next =>
      split at h
      next => cases h
      next =>
        split at h
        next => cases h
        next =>
          split at h
          next => cases h
          next hsize =>
            split at h
            next => cases h
            next =>
              split at h
              next => cases h
              next =>
                have hmessage := hannounced caps hcaps
                exact loop_proper (by omega) (fun round hround => (fragments_slice payload hround).2.1) h
  next => cases h

theorem emissions_proper {e : ConnectionEngine} (hannounced : Announced e) {c : Call} {p : Emission}
    (h : p ∈ e.emissions c) : p.Proper := by
  have hplain : ∀ q : Emission, p ∈ [q] → q.2.extensions = [] → q.2.type ≠ .data →
      (q.2.type = .resume → q.2.channel.isControl = true) → p.Proper := by
    intro q hmem hextensions hdata hresume
    rw [List.mem_singleton.mp hmem]
    exact plain_proper hextensions hdata hresume
  cases c with
  | start =>
    have h : p ∈ e.startEmissions := h
    unfold startEmissions at h
    split at h
    next => cases h
    next =>
      split at h
      next => cases h
      next => exact hplain _ h rfl (by rintro ⟨⟩) (by rintro ⟨⟩)
  | receive bytes eof =>
    obtain ⟨⟨e', frame⟩, _, hp⟩ := List.mem_flatMap.mp h
    unfold frameEmissions at hp
    split at hp
    next =>
      split at hp
      next => cases hp
      next =>
        split at hp
        next => cases hp
        next => exact hplain _ hp rfl (by rintro ⟨⟩) (by rintro ⟨⟩)
    next => cases hp
  | openChannel request =>
    have h : p ∈ e.openEmissions request := h
    unfold openEmissions at h
    split at h
    next =>
      split at h
      next => cases h
      next =>
        split at h
        next => cases h
        next =>
          split at h
          next => cases h
          next =>
            split at h
            next => cases h
            next => exact hplain _ h rfl (by rintro ⟨⟩) (by rintro ⟨⟩)
    next => cases h
  | send id payload => exact send_proper hannounced h
  | grantCredit id amount => exact hplain _ h rfl (by rintro ⟨⟩) (by rintro ⟨⟩)
  | acknowledge ranges =>
    have h : p ∈ e.acknowledgeEmissions ranges := h
    unfold acknowledgeEmissions at h
    split at h
    next => cases h
    next => exact hplain _ h rfl (by rintro ⟨⟩) (by rintro ⟨⟩)
  | ping token => exact hplain _ h rfl (by rintro ⟨⟩) (by rintro ⟨⟩)
  | resume request => exact hplain _ h rfl (by rintro ⟨⟩) fun _ => rfl
  | advanceTime nowMs =>
    obtain ⟨⟨e', timer⟩, _, hp⟩ := List.mem_flatMap.mp h
    unfold timerEmissions at hp
    split at hp
    next => exact hplain _ hp rfl (by rintro ⟨⟩) (by rintro ⟨⟩)
    next => cases hp
  | halfClose id direction =>
    have h : p ∈ e.halfCloseEmissions id direction := h
    unfold halfCloseEmissions at h
    split at h
    next => cases h
    next =>
      split at h
      next => cases h
      next => exact hplain _ h rfl (by rintro ⟨⟩) (by rintro ⟨⟩)
  | reset id =>
    have h : p ∈ e.resetEmissions id := h
    unfold resetEmissions at h
    split at h
    next => cases h
    next =>
      split at h
      next => cases h
      next => exact hplain _ h rfl (by rintro ⟨⟩) (by rintro ⟨⟩)
  | goaway => exact hplain _ h rfl (by rintro ⟨⟩) (by rintro ⟨⟩)
  | _ => cases h

/-- The codec keeps to the limits, and so does all that may be sent again. -/
structure Vouches (limits : FrameLimits) (e : ConnectionEngine) : Prop where
  codec : e.codec.limits = limits
  retains : e.replay.Retains limits

theorem retryLoop_due {retryLimit : UInt8} {entries due kept : List ReplayEntry}
    (h : retryLoop retryLimit entries = (.ok due, kept)) : due = kept := by
  induction entries generalizing due kept with
  | nil => cases h; rfl
  | cons entry entries ih =>
    unfold retryLoop at h
    split at h
    next => cases h
    next =>
      split at h
      next => cases h
      next hrest =>
        cases h
        rw [ih hrest]

theorem dueForRetry_ok {w w' : ReplayWindow} {retryLimit : UInt8} {due : List ReplayEntry}
    (h : w.dueForRetry retryLimit = (.ok due, w')) : due = w'.entries := by
  unfold ReplayWindow.dueForRetry at h
  rcases hloop : retryLoop retryLimit w.entries with ⟨result, kept⟩
  rw [hloop] at h
  cases h
  exact retryLoop_due hloop

section

variable {e e' : ConnectionEngine} {limits : FrameLimits}

theorem Vouches.unlogged (h : Vouches limits e) (hsame : Unlogged e e') : Vouches limits e' :=
  ⟨hsame.limits.trans h.codec, by rw [hsame.replay]; exact h.retains⟩

theorem Vouches.retried (h : Vouches limits e) {retryLimit : UInt8} {w : ReplayWindow}
    {result : Except Error (List ReplayEntry)} (hretry : e.replay.dueForRetry retryLimit = (result, w)) :
    Vouches limits { e with replay := w } := by
  have hsame := logged_dueForRetry e.replay retryLimit
  rw [hretry] at hsame
  refine ⟨h.codec, ?_⟩
  unfold ReplayWindow.Retains
  rw [hsame]
  exact h.retains

/-- A proper frame makes a proper chunk, which is all that comes out and all that is added to the window. -/
theorem Vouches.emit (h : Vouches limits e) (hheader : limits.maxHeader ≤ 65535) {frame : Frame}
    (hproper : Emission.Proper (e, frame)) {sent : List Frame} (hpaced : Paced e sent) :
    Vouches limits (e.emit frame).2 ∧
      ∀ chunk ∈ outbound (e.emit frame).1, ∃ frame, ProperChunk limits chunk frame := by
  have hchunk : ∀ encoded, e.codec.encode frame = .ok encoded →
      ∃ frame, ProperChunk limits encoded frame := by
    intro encoded hencode
    rw [← h.codec] at hheader ⊢
    exact ⟨_, hproper.chunk hheader hencode⟩
  have hcodec : (e.emit frame).2.codec.limits = limits := by
    obtain ⟨replay, scheduler, nextFrameSeq, hsent⟩ := emit_sent e frame
    rw [hsent]
    exact h.codec
  refine ⟨⟨hcodec, ?_⟩, ?_⟩
  · rcases emit_noted e frame with ⟨_, hkept⟩ | ⟨encoded, hencode, _, _, hrecorded⟩
    · rw [hkept]
      exact h.retains
    · intro logged hlogged
      rw [hrecorded, logged_recorded] at hlogged
      rcases List.mem_append.mp ((push_suffix (List.suffix_refl _) _ _).subset hlogged) with hold | hnew
      · exact h.retains logged hold
      · rw [List.mem_singleton.mp hnew]
        exact hchunk encoded hencode
  · intro chunk hout
    cases hresult : (e.emit frame).1 with
    | error error =>
      rw [hresult] at hout
      cases hout
    | ok out =>
      obtain ⟨encoded, hencode, hgoes⟩ := (hpaced.emit frame).2 ⟨out, hresult⟩
      rw [hgoes] at hout
      dsimp only [outbound] at hout
      split at hout
      next =>
        rw [List.mem_singleton.mp hout]
        exact hchunk encoded hencode
      next => cases hout

theorem Notes.vouches {ps : List Emission} {ns : List (Note LoggedFrame)} {out : List Bytes}
    (h : Notes e ps ns out e') (hheader : limits.maxHeader ≤ 65535) {sent : List Frame}
    (hpaced : Paced e sent) (hvouches : Vouches limits e) (hproper : ∀ p ∈ ps, p.Proper) :
    Vouches limits e' ∧ ∀ chunk ∈ out, ∃ frame, ProperChunk limits chunk frame := by
  have hnone : ∀ chunk ∈ ([] : List Bytes), ∃ frame, ProperChunk limits chunk frame :=
    fun _ hchunk => absurd hchunk List.not_mem_nil
  have hentries : ∀ {e : ConnectionEngine} {entries : List ReplayEntry}, Vouches limits e →
      (∀ entry ∈ entries, entry ∈ e.replay.entries) →
        ∀ chunk ∈ entries.map (·.encoded), ∃ frame, ProperChunk limits chunk frame := by
    intro e entries hvouches hsub chunk hchunk
    obtain ⟨entry, hentry, rfl⟩ := List.mem_map.mp hchunk
    exact hvouches.retains entry.logged (List.mem_map_of_mem (hsub entry hentry))
  induction h generalizing sent with
  | same hsame => exact ⟨hvouches.unlogged hsame, hnone⟩
  | @emit e e' frame _ hsame =>
    have hnumbered : Paced { e with nextFrameSeq := e.nextFrameSeq + 1 } sent :=
      ⟨hpaced.scheduler, hpaced.limit⟩
    have hkept : Vouches limits { e with nextFrameSeq := e.nextFrameSeq + 1 } :=
      ⟨hvouches.codec, hvouches.retains⟩
    exact (hkept.unlogged hsame).emit hheader (hproper (e', frame) (by simp)) (hnumbered.unlogged hsame)
  | acks hacked =>
    refine ⟨⟨hvouches.codec, fun logged hlogged => ?_⟩, hnone⟩
    rw [logged_acknowledge hacked] at hlogged
    exact hvouches.retains logged (List.mem_of_mem_filter hlogged)
  | retries hretry =>
    have hafter := hvouches.retried hretry
    exact ⟨hafter, hentries hafter fun entry hentry => by rwa [dueForRetry_ok hretry] at hentry⟩
  | spent hretry => exact ⟨hvouches.retried hretry, hnone⟩
  | repeats hretained hsame =>
    refine ⟨hvouches.unlogged hsame, hentries hvouches fun entry hentry => ?_⟩
    unfold ReplayWindow.retainedFrom at hretained
    split at hretained
    next => cases hretained
    next =>
      cases hretained
      exact List.mem_of_mem_filter hentry
  | flush writableBytes =>
    rw [(hpaced.flush writableBytes).1]
    exact ⟨⟨hvouches.codec, hvouches.retains⟩, hnone⟩
  | append h _ ih ih' =>
    obtain ⟨hfirst, hsecond⟩ := List.forall_mem_append.mp hproper
    obtain ⟨hmiddle, hout⟩ := ih hpaced hvouches hfirst
    obtain ⟨hlast, hmore⟩ := ih' (h.paced hpaced).1 hmiddle hsecond
    exact ⟨hlast, List.forall_mem_append.mpr ⟨hout, hmore⟩⟩

end

/-- The chunks of all the calls that succeed. -/
def wire (e : ConnectionEngine) : List Call → List Bytes
  | [] => []
  | c :: calls => outbound (e.answer c) ++ wire (e.call c) calls

/-- Only snapshots of proper chunks are loaded. -/
def LoadsProper (limits : FrameLimits) (calls : List Call) : Prop :=
  ∀ text, .loadReplaySnapshot text ∈ calls → ∀ w ∈ (ReplayWindow.restoreRetained text).toOption,
    w.Retains limits

section

variable {e : ConnectionEngine} {limits : FrameLimits}

theorem Vouches.loads (h : Vouches limits e) {text : Bytes}
    (hproper : ∀ w ∈ (ReplayWindow.restoreRetained text).toOption, w.Retains limits) :
    Vouches limits (e.loadReplaySnapshot text).2 := by
  rcases loadReplaySnapshot_cases e text with
    ⟨_, hcase, _⟩ | ⟨w, _, hrestored, ⟨_, hcase⟩ | ⟨_, hcase⟩⟩
  · rw [hcase]
    exact h
  all_goals
    rw [hcase]
    exact ⟨h.codec, hproper w (by simp [hrestored, Except.toOption])⟩

theorem run_vouches {sent : List Frame} (hpaced : Paced e sent) (hheader : limits.maxHeader ≤ 65535)
    {calls : List Call} (hproper : LoadsProper limits calls) (hannounced : Announced e)
    (h : Vouches limits e) : Vouches limits (run call e calls) ∧
      ∀ chunk ∈ wire e calls, ∃ frame, ProperChunk limits chunk frame := by
  induction calls generalizing e sent with
  | nil => exact ⟨h, fun _ hchunk => absurd hchunk List.not_mem_nil⟩
  | cons c calls ih =>
    have hcall : Vouches limits (e.call c) ∧
        ∀ chunk ∈ outbound (e.answer c), ∃ frame, ProperChunk limits chunk frame := by
      by_cases hload : ∃ text, c = .loadReplaySnapshot text
      · obtain ⟨text, rfl⟩ := hload
        refine ⟨h.loads (hproper text (by simp)), fun chunk hchunk => ?_⟩
        unfold answer at hchunk
        dsimp only at hchunk
        cases hresult : (e.loadReplaySnapshot text).1 with
        | error => rw [hresult] at hchunk; cases hchunk
        | ok => rw [hresult] at hchunk; cases hchunk
      · obtain ⟨out, hnotes, hout⟩ := call_answers e fun text hc => hload ⟨text, hc⟩
        obtain ⟨hafter, hchunks⟩ := hnotes.vouches hheader hpaced h fun p => emissions_proper hannounced
        refine ⟨hafter, fun chunk hchunk => ?_⟩
        cases hresult : e.answer c with
        | error => rw [hresult] at hchunk; cases hchunk
        | ok chunks =>
          rw [hresult, hout chunks hresult] at hchunk
          exact hchunks chunk hchunk
    obtain ⟨hlast, hrest⟩ := ih (call_paced hpaced c).1
      (fun text htext => hproper text (List.mem_cons_of_mem _ htext)) (hannounced.call c) hcall.1
    exact ⟨hlast, List.forall_mem_append.mpr ⟨hcall.2, hrest⟩⟩

end

end ConnectionEngine

section

variable {options : StreamInspectionOptions} {chunks : List Bytes}

/-- The stream is a frame for each of the chunks, all listed by the inspection and without an error. -/
structure PassesInspection (options : StreamInspectionOptions) (chunks : List Bytes) : Prop where
  frames : ∃ frames, List.Forall₂ (ProperChunk options.limits) chunks frames ∧
    (chunks.length ≤ options.maxFrames → Listed frames (inspectFrameStream chunks.flatten options))
  errors : (inspectFrameStream chunks.flatten options).errorCount = 0 ↔ chunks.length ≤ options.maxFrames

theorem exists_frames {limits : FrameLimits} (h : ∀ chunk ∈ chunks, ∃ frame, ProperChunk limits chunk frame) :
    ∃ frames, List.Forall₂ (ProperChunk limits) chunks frames := by
  induction chunks with
  | nil => exact ⟨[], .nil⟩
  | cons chunk chunks ih =>
    obtain ⟨⟨frame, hfirst⟩, hrest⟩ := List.forall_mem_cons.mp h
    obtain ⟨frames, hall⟩ := ih hrest
    exact ⟨frame :: frames, .cons hfirst hall⟩

theorem proper_framed {limits : FrameLimits} {frames : List Frame}
    (h : List.Forall₂ (ProperChunk limits) chunks frames) : Framed limits chunks.flatten frames [] := by
  refine ⟨⟨_, (List.append_nil _).symm, chunks, rfl, h.imp fun _ _ hproper => hproper.form⟩,
    fun frame hframe => ?_, decodeFrame_nil limits false⟩
  obtain ⟨i, hi, rfl⟩ := List.mem_iff_getElem.mp hframe
  exact (h.get (by rw [h.length_eq]; exact hi) hi).payload

theorem proper_passes (h : ∀ chunk ∈ chunks, ∃ frame, ProperChunk options.limits chunk frame) :
    PassesInspection options chunks := by
  obtain ⟨frames, hproper⟩ := exists_frames h
  have hframed := proper_framed hproper
  have hlength := hproper.length_eq
  refine ⟨⟨frames, hproper, fun hcap => inspectFrameStream_listed hframed (by omega)⟩, ?_⟩
  rw [hframed.errors]
  constructor
  · rintro ⟨_, hfaultless⟩
    have hcap := hfaultless.cap
    omega
  · intro hcap
    refine ⟨fun _ => rfl, by omega, fun i frame hframe _ => ?_⟩
    obtain ⟨hi, rfl⟩ := List.getElem?_eq_some_iff.mp hframe
    exact (hproper.get (by rw [hlength]; exact hi) hi).certified _

end

open ConnectionEngine

/-- Whatever is called, what an engine puts on the wire is a frame for each chunk, in which the inspection
finds no error unless there are more than it is told to look at. The engine ends with a snapshot that may be
loaded again. -/
theorem own_traffic_passes (policy : LocalPolicy) (registry : PluginRegistry)
    (executor : Option (DeterministicExecutor EngineTask)) (calls : List Call)
    (options : StreamInspectionOptions)
    (hlimits : options.limits = { maxFrame := policy.maxFrame, maxHeader := 4096 })
    (hloads : LoadsProper options.limits calls) :
    PassesInspection options (wire (make policy registry executor) calls) ∧
      (run call (make policy registry executor) calls).replay.Retains options.limits := by
  have hmade : Vouches options.limits (make policy registry executor) :=
    ⟨hlimits.symm, fun _ hlogged => absurd hlogged List.not_mem_nil⟩
  have hannounced : Announced (make policy registry executor) := fun _ hcaps => by cases hcaps
  have hheader : options.limits.maxHeader ≤ 65535 := by
    rw [hlimits]
    exact (by decide : 4096 ≤ 65535)
  obtain ⟨hended, hwire⟩ := run_vouches (make_paced policy registry executor) hheader hloads hannounced hmade
  exact ⟨proper_passes hwire, hended.retains⟩

/-- A message and a PING, behind the HELLO. -/
def hiTraffic : List Bytes :=
  wire (make {} echoRegistry none) (negotiation {} ++ [.openChannel {}, .send ⟨1, 1⟩ [104, 105], .ping 9])

theorem own_traffic_passes_hi : hiTraffic.length = 4 ∧
    (inspectFrameStream hiTraffic.flatten {}).errorCount = 0 := by
  have hfour : hiTraffic.length = 4 := by decide +kernel
  have hpasses := own_traffic_passes {} echoRegistry none
    (negotiation {} ++ [.openChannel {}, .send ⟨1, 1⟩ [104, 105], .ping 9]) {} rfl
    fun text htext => by simp [negotiation] at htext
  exact ⟨hfour, hpasses.1.errors.mpr (hfour.trans_le (by decide))⟩

end LatticeGateway

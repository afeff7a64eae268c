import LatticeGateway.ConcurrentOpens
import LatticeGateway.MessageFamily

namespace LatticeGateway

/-- The rounds of `send` follow one another from `offset` on. -/
def Chained : Nat → List (Nat × Bytes) → Prop
  | _, [] => True
  | offset, (start, fragment) :: rest => start = offset ∧ Chained (offset + fragment.length) rest

namespace ConnectionEngine

theorem fragments_chained {maxFragment : Nat} (payload : Bytes) (fuel offset : Nat) :
    Chained offset (fragments maxFragment payload fuel offset) := by
  induction fuel generalizing offset with
  | zero => exact trivial
  | succ fuel ih =>
    unfold fragments
    split
    next hmore =>
      refine ⟨rfl, ?_⟩
      by_cases hlast : payload.length - offset < maxFragment
      · have hnone : fragments maxFragment payload fuel (offset + maxFragment) = [] := by
          cases fuel with
          | zero => rfl
          | succ fuel => exact if_neg (by omega)
        rw [hnone]
        exact trivial
      · have hlength : ((payload.drop offset).take maxFragment).length = maxFragment := by
          rw [List.length_take, List.length_drop]
          omega
        rw [hlength]
        exact ih _
    next => exact trivial

theorem fragments_round {maxFragment : Nat} (hpos : 0 < maxFragment) (payload : Bytes) {fuel offset : Nat}
    {round : Nat × Bytes} (h : round ∈ fragments maxFragment payload fuel offset) :
    round.2 ≠ [] ∧ round.2.length ≤ min payload.length maxFragment := by
  induction fuel generalizing offset with
  | zero => cases h
  | succ fuel ih =>
    unfold fragments at h
    split at h
    next hmore =>
      rcases List.mem_cons.mp h with rfl | hrest
      · have hlength : ((payload.drop offset).take maxFragment).length =
            min maxFragment (payload.length - offset) := by
          rw [List.length_take, List.length_drop]
        refine ⟨List.ne_nil_of_length_pos ?_, ?_⟩
        · dsimp only
          omega
        · dsimp only
          omega
      · exact ih hrest
    next => cases h

theorem fragments_length (maxFragment : Nat) (payload : Bytes) (fuel offset : Nat) :
    (fragments maxFragment payload fuel offset).length ≤ fuel := by
  induction fuel generalizing offset with
  | zero => exact Nat.le_refl 0
  | succ fuel ih =>
    unfold fragments
    split
    next => exact Nat.succ_le_succ (ih _)
    next => exact Nat.zero_le _

/-- The DATA frame of one round of `send`. -/
def dataFrame (id : ChannelId) (sequence : UInt32) (total : Nat) (frameSeq : UInt32)
    (round : Nat × Bytes) : Frame :=
  { type := .data, channel := id, frameSeq, payload := round.2
    extensions := fragmentExtensions sequence round.1 total }

def dataFrames (id : ChannelId) (sequence : UInt32) (total : Nat) :
    UInt32 → List (Nat × Bytes) → List Frame
  | _, [] => []
  | frameSeq, round :: rest =>
    dataFrame id sequence total frameSeq round :: dataFrames id sequence total (frameSeq + 1) rest

theorem dataFrame_known (id : ChannelId) (sequence : UInt32) (total : Nat) (frameSeq : UInt32)
    (round : Nat × Bytes) : (dataFrame id sequence total frameSeq round).KnownRequired := by
  unfold Frame.KnownRequired dataFrame fragmentExtensions
  simp only [List.forall_mem_cons, List.not_mem_nil, false_implies, implies_true, and_true]
  decide

/-- A required extension of 32 bits as the codec writes it. -/
def extensionBytes (type : UInt16) (value : UInt32) : Bytes :=
  u16Bytes (type ||| kRequiredBit) ++ [4] ++ u32Bytes value

theorem writeSortedExtensions_u32 {type : UInt16} (htype : type ≤ 0x7FFF) (value : UInt32)
    {rest : List Extension} {out : Bytes} (hrest : writeSortedExtensions rest = .ok out) :
    writeSortedExtensions ({ type, required := true, value := u32Bytes value } :: rest) =
      .ok (extensionBytes type value ++ out) := by
  have hsize : encodeUleb128 (UInt32.ofNat (u32Bytes value).length) = .ok [4] := by
    rw [length_u32Bytes]
    decide
  unfold writeSortedExtensions
  rw [if_neg (UInt16.not_lt.mpr htype)]
  dsimp only
  rw [hsize, hrest]
  rfl

/-- The extension block of a DATA frame. -/
def fragmentHeader (sequence : UInt32) (offset total : Nat) : Bytes :=
  extensionBytes kExtMessageSeq sequence ++
    (extensionBytes kExtFragmentOffset (UInt32.ofNat offset) ++
      (extensionBytes kExtMessageTotal (UInt32.ofNat total) ++ (extensionBytes kExtFamilyId 7 ++ [])))

theorem writeExtensions_fragment (sequence : UInt32) (offset total : Nat) :
    writeExtensions (fragmentExtensions sequence offset total) =
      .ok (fragmentHeader sequence offset total) := by
  have hsorted : sortExtensions (fragmentExtensions sequence offset total) =
      fragmentExtensions sequence offset total := rfl
  unfold writeExtensions
  rw [hsorted]
  exact writeSortedExtensions_u32 (by decide) _ (writeSortedExtensions_u32 (by decide) _
    (writeSortedExtensions_u32 (by decide) _ (writeSortedExtensions_u32 (by decide) _ rfl)))

/-- A DATA frame whose fragment takes half of a limit stays below that limit. -/
theorem dataFrame_within {codec : FrameCodec} {limit : Nat} (hge : 128 ≤ limit)
    (hheader : 28 ≤ codec.limits.maxHeader) (hlimit : limit ≤ codec.limits.maxFrame) {id : ChannelId}
    (hnumber : id.number ≤ kMaxChannelNo) (sequence : UInt32) (total : Nat) (frameSeq : UInt32)
    {round : Nat × Bytes} (hround : round.2.length ≤ limit / 2) (hsmall : round.2.length < 2 ^ 32) :
    ∃ encoded, codec.encode (dataFrame id sequence total frameSeq round) = .ok encoded ∧
      encoded.length ≤ limit := by
  have hlength : (fragmentHeader sequence round.1 total).length = 28 := rfl
  have hvarint := length_sizeBytes_le (dataFrame id sequence total frameSeq round)
  have htotal := length_checkedBytes (dataFrame id sequence total frameSeq round)
    (fragmentHeader sequence round.1 total)
  have hpayload : (dataFrame id sequence total frameSeq round).payload.length = round.2.length := rfl
  refine ⟨_, FrameCodec.encode_of_fits rfl hnumber (writeExtensions_fragment _ _ _) (by omega)
    (by omega) (by omega) (by omega), ?_⟩
  rw [List.length_append, length_u32Bytes]
  omega

theorem dataFrame_encode {codec : FrameCodec} (hheader : codec.Clear) {limit : Nat} (hge : 128 ≤ limit)
    (hlt : limit < 2 ^ 32) (hlimit : limit ≤ codec.limits.maxFrame) {id : ChannelId}
    (hnumber : id.number ≤ kMaxChannelNo) (sequence : UInt32) (total : Nat) (frameSeq : UInt32)
    {round : Nat × Bytes} (hround : round.2.length ≤ limit / 2) : ∃ encoded,
      codec.encode (dataFrame id sequence total frameSeq round) = .ok encoded ∧
        encoded.length ≤ limit := by
  have hheaders := hheader.header
  exact dataFrame_within hge (by omega) hlimit hnumber sequence total frameSeq hround (by omega)

theorem add_ofNat_ne {number : UInt32} {n : Nat} (hpos : 0 < n) (hn : n < 2 ^ 32) :
    number + UInt32.ofNat n ≠ number := by
  intro hsame
  have hzero : UInt32.ofNat n = 0 := by grind
  have hmod := congrArg UInt32.toNat hzero
  rw [UInt32.toNat_ofNat', Nat.mod_eq_of_lt hn, UInt32.toNat_zero] at hmod
  omega

theorem expected_passed (s : OutboundScheduler) (channelNo sequence : UInt32) :
    (s.passed channelNo sequence).expected channelNo = sequence + 1 := by
  unfold OutboundScheduler.expected OutboundScheduler.passed
  rw [AList.lookup_insert]
  rfl

theorem contains_recorded {w : ReplayWindow} {frameSeq other : UInt32} {encoded : Bytes}
    (hother : w.contains other = false) (hne : other ≠ frameSeq) :
    (w.recorded frameSeq encoded).contains other = false := by
  unfold ReplayWindow.contains ReplayWindow.recorded at *
  rw [List.any_eq_false] at hother ⊢
  intro entry hentry
  rcases List.mem_append.mp hentry with hold | hnew
  · split at hold
    next => exact hother entry (List.mem_of_mem_tail hold)
    next => exact hother entry hold
  · rw [List.mem_singleton.mp hnew]
    simpa using hne.symm

/-- What the frames of one `send` need to pass: numbers that the replay window does not hold, and a
scheduler that expects the first of them on the channel, or none. -/
structure Passable (e : ConnectionEngine) (id : ChannelId) (count : Nat) : Prop where
  expected : e.scheduler.expected id.number = 0 ∨ e.scheduler.expected id.number = e.nextFrameSeq
  numbers : ∀ i < count, e.replay.contains (e.nextFrameSeq + UInt32.ofNat i) = false

/-- The frames of a negotiated limit that an engine can send whole. -/
structure Sends (e : ConnectionEngine) (limit : Nat) : Prop where
  ge : 128 ≤ limit
  lt : limit < 2 ^ 32
  codec : limit ≤ e.codec.limits.maxFrame
  window : limit ≤ e.policy.connectionWindow

theorem Ready.sends_data {e : ConnectionEngine} {caps : CapabilitySet} (h : Ready e caps) {limit : Nat}
    (hsends : Sends e limit) {id : ChannelId} (hnumber : id.number ≤ kMaxChannelNo) {count : Nat}
    (hpass : Passable e id (count + 1)) (hcount : count + 1 < 2 ^ 32) (sequence : UInt32) (total : Nat)
    {round : Nat × Bytes} (hround : round.2.length ≤ limit / 2) : ∃ encoded e',
      e.codec.encode (dataFrame id sequence total e.nextFrameSeq round) = .ok encoded ∧
        encoded.length ≤ limit ∧
        e.emitFrame .data id round.2 (fragmentExtensions sequence round.1 total) = (.ok [encoded], e') ∧
        Ready e' caps ∧ Passable e' id count ∧ SentFrom e e' ∧ e'.nextFrameSeq = e.nextFrameSeq + 1 := by
  obtain ⟨encoded, hencode, hlength⟩ := dataFrame_encode h.codec hsends.ge hsends.lt hsends.codec hnumber
    sequence total e.nextFrameSeq hround
  have hnext : e.replay.contains e.nextFrameSeq = false := by
    have hfirst := hpass.numbers 0 (by omega)
    rwa [show e.nextFrameSeq + UInt32.ofNat 0 = e.nextFrameSeq from UInt32.add_zero _] at hfirst
  have hnumbered : Idle { e with nextFrameSeq := e.nextFrameSeq + 1 } := ⟨h.scheduler, h.limit⟩
  have hsent := hnumbered.emit_data hencode ⟨h.epoch, hnext⟩
    (Nat.le_trans hlength hsends.window) rfl hpass.expected
  refine ⟨encoded, _, hencode, hlength, hsent, ?_, ⟨?_, ?_⟩, ⟨_, _, _, rfl⟩, rfl⟩
  · exact ⟨⟨⟨h.scheduler.control, h.scheduler.data, h.scheduler.queued⟩, h.limit⟩, h.codec, h.frames,
      h.maxFrame, h.window, h.active, h.capabilities, h.epoch⟩
  · exact .inr (expected_passed _ _ _)
  · intro i hi
    have hother := hpass.numbers (i + 1) (by omega)
    have hsucc : e.nextFrameSeq + UInt32.ofNat (i + 1) = e.nextFrameSeq + 1 + UInt32.ofNat i := by
      rw [UInt32.ofNat_add]
      grind
    rw [hsucc] at hother
    refine contains_recorded hother ?_
    rw [← hsucc]
    exact add_ofNat_ne (by omega) (by omega)

/-- Every round of `send` goes out in a chunk of its own. -/
theorem sendLoop_passes {caps : CapabilitySet} {limit : Nat} {id : ChannelId}
    (hnumber : id.number ≤ kMaxChannelNo) (sequence : UInt32) (total : Nat) (rounds : List (Nat × Bytes))
    {e : ConnectionEngine} (h : Ready e caps) (hsends : Sends e limit)
    (hpass : Passable e id rounds.length) (hcount : rounds.length < 2 ^ 32)
    (hrounds : ∀ round ∈ rounds, round.2.length ≤ limit / 2) (out : List Bytes) : ∃ chunks e',
      sendLoop id sequence total rounds e out = (.ok (out ++ chunks), e') ∧ Ready e' caps ∧
        List.Forall₂ (fun frame chunk => e.codec.encode frame = .ok chunk ∧ chunk.length ≤ limit)
          (dataFrames id sequence total e.nextFrameSeq rounds) chunks := by
  induction rounds generalizing e out with
  | nil => exact ⟨[], e, by rw [List.append_nil]; rfl, h, .nil⟩
  | cons round rest ih =>
    obtain ⟨encoded, e', hencode, hlength, hemit, hready, hpass', hsent, hnext⟩ :=
      h.sends_data hsends hnumber hpass hcount sequence total (hrounds round (by simp))
    have hsends' : Sends e' limit := by
      refine ⟨hsends.ge, hsends.lt, ?_, ?_⟩
      · rw [hsent.codec]
        exact hsends.codec
      · rw [hsent.policy]
        exact hsends.window
    obtain ⟨chunks, e'', hloop, hready', hchunks⟩ := ih hready hsends' hpass'
      (Nat.lt_of_succ_lt hcount) (fun other hother => hrounds other (List.mem_cons_of_mem _ hother))
      (out ++ [encoded])
    rw [hsent.codec, hnext] at hchunks
    refine ⟨encoded :: chunks, e'', ?_, hready', .cons ⟨hencode, hlength⟩ hchunks⟩
    unfold sendLoop
    rw [hemit]
    dsimp only
    rw [hloop, List.append_assoc]
    rfl

end ConnectionEngine

end LatticeGateway

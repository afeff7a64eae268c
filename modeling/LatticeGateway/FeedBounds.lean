import LatticeGateway.CheckedFeed
import LatticeGateway.FrameStream
import LatticeGateway.MinimalVarints
import LatticeGateway.Runs

namespace LatticeGateway

open BoundedReads Runs StreamDecoder

/-- A fresh codec after these calls of `feed`, each with its bytes and its `eof`. -/
def FrameCodec.fed (limits : FrameLimits) (calls : List (Bytes × Bool)) : FrameCodec :=
  run (fun codec call => (codec.feed call.1 call.2).2) { limits } calls

/-- What one more call of `feed` reads lies within the bytes, it ends, and it keeps little of them. -/
structure DecodesInBounds (limits : FrameLimits) (calls : List (Bytes × Bool)) : Prop where
  reads : ∀ bytes eof budget, ((FrameCodec.fed limits calls).buffer ++ bytes).length < 21 * budget →
    Checked.feed (.fed limits calls) budget bytes eof = .ok ((FrameCodec.fed limits calls).feed bytes eof)
  consumes : ∀ bytes eof s s', s.consumed ≤ ((FrameCodec.fed limits calls).buffer ++ bytes).length →
    Checked.feedRound limits eof ((FrameCodec.fed limits calls).buffer ++ bytes) s = .ok (.next s') →
    s.consumed + 21 ≤ s'.consumed ∧
      s'.consumed < ((FrameCodec.fed limits calls).buffer ++ bytes).length
  retained : (FrameCodec.fed limits calls).buffer.length < max 21 limits.maxFrame
  suffix : (FrameCodec.fed limits calls).buffer <:+ (calls.map (·.1)).flatten

theorem checked_byteAt {bytes : Bytes} {i : Nat} (h : i < bytes.length) :
    index bytes i = .ok (byteAt bytes i) := index_of_lt h 0

theorem checked_u16At {bytes : Bytes} {i : Nat} (h : i + 1 < bytes.length) :
    Checked.u16At bytes i = .ok (u16At bytes i) := by
  unfold Checked.u16At
  rw [checked_byteAt (by omega), ok_bind, checked_byteAt h, ok_bind]
  rfl

theorem checked_u24At {bytes : Bytes} {i : Nat} (h : i + 2 < bytes.length) :
    Checked.u24At bytes i = .ok (u24At bytes i) := by
  unfold Checked.u24At
  rw [checked_byteAt (by omega), ok_bind, checked_byteAt (by omega), ok_bind, checked_byteAt h, ok_bind]
  rfl

theorem checked_u32At {bytes : Bytes} {i : Nat} (h : i + 3 < bytes.length) :
    Checked.u32At bytes i = .ok (u32At bytes i) := by
  unfold Checked.u32At
  rw [checked_byteAt (by omega), ok_bind, checked_byteAt (by omega), ok_bind,
    checked_byteAt (by omega), ok_bind, checked_byteAt h, ok_bind]
  rfl

theorem checked_decodeUleb128Loop (bytes : Bytes) (offset remaining : Nat) (value shift : UInt32) :
    Checked.decodeUleb128Loop bytes offset remaining value shift =
      .ok (decodeUleb128Loop bytes offset remaining value shift) := by
  induction remaining generalizing value shift with
  | zero => rfl
  | succ remaining ih =>
    unfold Checked.decodeUleb128Loop decodeUleb128Loop
    dsimp only
    by_cases hout : offset + (kMaxVarintBytes - (remaining + 1)) ≥ bytes.length
    · rw [if_pos hout, if_pos hout]
    · rw [if_neg hout, if_neg hout, checked_byteAt (Nat.not_le.mp hout), ok_bind]
      by_cases hlast : byteAt bytes (offset + (kMaxVarintBytes - (remaining + 1))) &&& 0x80 = 0
      · rw [if_pos hlast, if_pos hlast]
        split <;> rfl
      · rw [if_neg hlast, if_neg hlast, ih]

/-- `decode_uleb128` reads inside of the bytes, at whatever offset it is called. -/
theorem checked_decodeUleb128 (bytes : Bytes) (offset : Nat) :
    Checked.decodeUleb128 bytes offset = .ok (decodeUleb128 bytes offset) :=
  checked_decodeUleb128Loop bytes offset kMaxVarintBytes 0 0

/-- The loop of `parse_extensions` answers so from these values of its variables. -/
def ParsesTo (bytes : Bytes) (s : Checked.ExtensionCursor)
    (answer : Except Error (List Extension)) : Prop :=
  s.cursor ≤ bytes.length ∧ ∃ fuel, bytes.length - s.cursor ≤ fuel ∧
    answer = (parseExtensionsLoop fuel (bytes.drop s.cursor) s.previous).map (s.extensions ++ ·)

/-- What is left of the answer of a round behind which other rounds follow. -/
theorem parsed_cons {rest : Except Error (List Extension)} (before : List Extension)
    (extension : Extension) :
    (match rest with
      | .error error => .error error
      | .ok extensions => .ok (extension :: extensions) : Except Error (List Extension)).map
        (before ++ ·) = rest.map (before ++ [extension] ++ ·) := by
  cases rest with
  | error error => rfl
  | ok extensions => simp [Except.map]

/-- A round of `parse_extensions` ends as it should, or takes at least three bytes. -/
theorem extensionRound_leads {bytes : Bytes} (s : Checked.ExtensionCursor)
    (answer : Except Error (List Extension)) (h : ParsesTo bytes s answer) :
    Checked.extensionRound bytes s = .ok (.done answer) ∨
      ∃ s', Checked.extensionRound bytes s = .ok (.next s') ∧ ParsesTo bytes s' answer ∧
        bytes.length - s'.cursor + 3 ≤ bytes.length - s.cursor := by
  obtain ⟨hle, fuel, hfuel, rfl⟩ := h
  unfold Checked.extensionRound
  by_cases hmore : s.cursor < bytes.length
  · obtain ⟨fuel, rfl⟩ : ∃ f, fuel = f + 1 := ⟨fuel - 1, by omega⟩
    rw [if_pos hmore, distance_of_le hle, ok_bind]
    have hlength : (bytes.drop s.cursor).length = bytes.length - s.cursor := List.length_drop
    obtain ⟨byte, rest, hrest⟩ : ∃ byte rest, bytes.drop s.cursor = byte :: rest :=
      ⟨_, _, drop_eq_byteAt_cons hmore⟩
    have hraw : u16At (bytes.drop s.cursor) 0 = u16At bytes s.cursor := u16At_drop bytes s.cursor 0
    rw [hrest, parseExtensionsLoop, ← hrest, hlength, hraw, decodeUleb128_drop]
    by_cases hshort : bytes.length - s.cursor < 2
    · rw [if_pos hshort, if_pos hshort]
      exact .inl rfl
    rw [if_neg hshort, if_neg hshort, checked_u16At (by omega), ok_bind, checked_decodeUleb128, ok_bind]
    rcases hread : decodeUleb128 bytes (s.cursor + 2) with error | ⟨len, used⟩
    · exact .inl rfl
    obtain ⟨hused, hfits⟩ := decodeUleb128_used hread
    dsimp only
    rw [distance_of_le hfits, ok_bind, show bytes.length - s.cursor - (2 + used) =
      bytes.length - (s.cursor + 2 + used) by omega]
    by_cases hlen : len.toNat > bytes.length - (s.cursor + 2 + used)
    · rw [if_pos hlen, if_pos hlen]
      exact .inl rfl
    rw [if_neg hlen, if_neg hlen]
    by_cases hsorted : s.previous.any (u16At bytes s.cursor &&& ~~~kRequiredBit < ·)
    · rw [if_pos hsorted, if_pos hsorted]
      exact .inl rfl
    rw [if_neg hsorted, if_neg hsorted]
    by_cases hknown : (u16At bytes s.cursor &&& kRequiredBit != 0 &&
        !knownRequiredExtension (u16At bytes s.cursor &&& ~~~kRequiredBit)) = true
    · rw [if_pos hknown, if_pos hknown]
      exact .inl rfl
    rw [if_neg hknown, if_neg hknown, subspan_of_le (by omega), ok_bind]
    have htwo : s.cursor + (2 + used) = s.cursor + 2 + used := by omega
    have hbehind : s.cursor + (2 + used + len.toNat) = s.cursor + 2 + used + len.toNat := by omega
    refine .inr ⟨_, rfl, ⟨by dsimp only; omega, fuel, by dsimp only; omega, ?_⟩, by dsimp only; omega⟩
    rw [List.drop_drop, List.drop_drop, htwo, hbehind]
    exact parsed_cons _ _
  · rw [if_neg hmore, List.drop_eq_nil_of_le (Nat.not_lt.mp hmore)]
    left
    cases fuel <;> simp [parseExtensionsLoop, Except.map]

/-- `parse_extensions` reads inside of the bytes, whatever they are, and ends. -/
theorem checked_parseExtensions (bytes : Bytes) :
    Checked.parseExtensions bytes = .ok (parseExtensions bytes) := by
  have hstart : ParsesTo bytes {} (parseExtensions bytes) := by
    refine ⟨Nat.zero_le _, bytes.length, Nat.sub_le _ _, ?_⟩
    unfold parseExtensions
    rw [List.drop_zero]
    cases parseExtensionsLoop bytes.length bytes none <;> rfl
  have hbudget : bytes.length - (0 : Nat) < 3 * (bytes.length + 1) := by omega
  exact loop_of_rounds (ParsesTo bytes) (fun s => bytes.length - s.cursor) extensionRound_leads hstart
    hbudget

theorem checked_readPrefix {limits : FrameLimits} {view : Bytes} (h : kFixedPrefixBytes ≤ view.length) :
    Checked.readPrefix limits view = .ok (readPrefix limits view) := by
  simp only [kFixedPrefixBytes] at h
  unfold Checked.readPrefix readPrefix
  rw [checked_u32At (by omega), ok_bind]
  by_cases hmagic : u32At view 0 ≠ kLtxMagic
  · rw [if_pos hmagic, if_pos hmagic]
  rw [if_neg hmagic, if_neg hmagic, checked_byteAt (by omega), ok_bind]
  cases FrameType.ofCode? (byteAt view 4) with
  | none => rfl
  | some type =>
    dsimp only
    rw [checked_byteAt (by omega), ok_bind]
    by_cases hflags : byteAt view 5 ≠ 0
    · rw [if_pos hflags, if_pos hflags]
    rw [if_neg hflags, if_neg hflags, checked_u16At (by omega), ok_bind]
    by_cases hheader : (u16At view 6).toNat > limits.maxHeader
    · rw [if_pos hheader, if_pos hheader]
    rw [if_neg hheader, if_neg hheader, checked_u24At (by omega), ok_bind, checked_byteAt (by omega),
      ok_bind, checked_u32At (by omega), ok_bind]

/-- Of an empty view the prefix would be read out of bounds. -/
example : Checked.readPrefix {} [] = .error .outOfBounds := rfl

theorem checked_readExtensions {view : Bytes} {varintBytes : Nat} {extLen : UInt16}
    (h : 16 + varintBytes + extLen.toNat ≤ view.length) :
    Checked.readExtensions view varintBytes extLen =
      .ok (if extLen > 0 then parseExtensions ((view.drop (16 + varintBytes)).take extLen.toNat)
        else .ok []) := by
  unfold Checked.readExtensions
  by_cases hany : extLen > 0
  · rw [if_pos hany, if_pos hany, subspan_of_le h, ok_bind, checked_parseExtensions]
  · rw [if_neg hany, if_neg hany]

/-- The lengths that a frame declares have been checked against the limit, and its total against what is
there: so all of its parts are. -/
theorem checked_readBody {limits : FrameLimits} {view : Bytes} {fields : FramePrefix} {varintBytes : Nat}
    {payloadSize : UInt32} {extent : FrameExtent}
    (hextent : frameExtent limits varintBytes fields.extLen payloadSize = .ok extent)
    (hthere : extent.total ≤ view.length) :
    Checked.readBody view fields varintBytes payloadSize extent =
      .ok (readBody view fields varintBytes payloadSize extent) := by
  obtain ⟨hheader, hcrc, htotal, _⟩ := frameExtent_spec hextent
  unfold Checked.readBody readBody
  rw [checked_u32At (by omega), ok_bind, subspan_of_le (by omega), ok_bind, List.drop_zero]
  by_cases hsum : crc32c (view.take extent.withoutCrc) ≠ u32At view extent.withoutCrc
  · rw [if_pos hsum, if_pos hsum]
  rw [if_neg hsum, if_neg hsum, checked_readExtensions (by omega), ok_bind]
  generalize (if fields.extLen > 0 then parseExtensions ((view.drop (16 + varintBytes)).take
    fields.extLen.toNat) else .ok []) = parsed
  cases parsed with
  | error error => rfl
  | ok extensions =>
    dsimp only
    rw [subspan_of_le (by omega), ok_bind]

theorem checked_decodeFrame {limits : FrameLimits} {eof : Bool} {buffer : Bytes} {consumed : Nat}
    (h : consumed ≤ buffer.length) :
    Checked.decodeFrame limits eof buffer consumed =
      .ok (decodeFrame limits eof (buffer.drop consumed)) := by
  unfold Checked.decodeFrame decodeFrame
  rw [distance_of_le h, ok_bind, List.length_drop]
  by_cases hshort : buffer.length - consumed < kFixedPrefixBytes
  · rw [if_pos hshort, if_pos hshort]
    split <;> rfl
  have hview : (buffer.drop consumed).length = buffer.length - consumed := List.length_drop
  rw [if_neg hshort, if_neg hshort, subspan_rest h, ok_bind,
    checked_readPrefix (hview ▸ Nat.not_lt.mp hshort), ok_bind]
  cases readPrefix limits (buffer.drop consumed) with
  | error error => rfl
  | ok fields =>
    dsimp only
    rw [checked_decodeUleb128, ok_bind]
    rcases decodeUleb128 (buffer.drop consumed) 16 with error | ⟨payloadSize, varintBytes⟩
    · dsimp only
      repeat' split
      all_goals rfl
    dsimp only
    cases hextent : frameExtent limits varintBytes fields.extLen payloadSize with
    | error error => rfl
    | ok extent =>
      dsimp only
      by_cases htotal : buffer.length - consumed < extent.total
      · rw [if_pos htotal, if_pos htotal]
        split <;> rfl
      rw [if_neg htotal, if_neg htotal, checked_readBody hextent (by omega), ok_bind]
      cases readBody (buffer.drop consumed) fields varintBytes payloadSize extent <;> rfl

/-- A round of `feed` returns what the loop returns, or goes on behind a frame of at least 21 bytes. -/
theorem feedRound_cases {limits : FrameLimits} {eof : Bool} {buffer : Bytes} {s : Checked.FeedCursor}
    (h : s.consumed ≤ buffer.length) :
    (∃ answer, Checked.feedRound limits eof buffer s = .ok (.done answer) ∧
      ∀ fuel, feedLoop limits eof (fuel + 1) (buffer.drop s.consumed) s.events = answer) ∨
    ∃ s', Checked.feedRound limits eof buffer s = .ok (.next s') ∧
      s.consumed + 21 ≤ s'.consumed ∧ s'.consumed < buffer.length ∧
      ∀ fuel, feedLoop limits eof (fuel + 1) (buffer.drop s.consumed) s.events =
        feedLoop limits eof fuel (buffer.drop s'.consumed) s'.events := by
  unfold Checked.feedRound
  rw [checked_decodeFrame h, ok_bind]
  cases hverdict : decodeFrame limits eof (buffer.drop s.consumed) with
  | needMore =>
    have hloop : ∀ fuel, feedLoop limits eof (fuel + 1) (buffer.drop s.consumed) s.events =
        (if s.events.isEmpty then [.needMore] else s.events, buffer.drop s.consumed) := by
      intro fuel
      rw [feedLoop, hverdict]
    refine .inl ⟨_, ?_, hloop⟩
    dsimp only
    by_cases hconsumed : s.consumed > 0
    · rw [if_pos hconsumed, eraseFront_of_le h, ok_bind]
    · rw [if_neg hconsumed, Nat.eq_zero_of_not_pos hconsumed, List.drop_zero]
  | fail error =>
    refine .inl ⟨_, rfl, fun fuel => ?_⟩
    rw [feedLoop, hverdict]
  | item frame total =>
    obtain ⟨hleast, hthere, _⟩ := decodeFrame_item hverdict
    rw [List.length_drop] at hthere
    have hloop : ∀ fuel, feedLoop limits eof (fuel + 1) (buffer.drop s.consumed) s.events =
        if buffer.drop (s.consumed + total) = [] then (s.events ++ [.frame frame], [])
        else feedLoop limits eof fuel (buffer.drop (s.consumed + total)) (s.events ++ [.frame frame]) := by
      intro fuel
      rw [feedLoop, hverdict]
      dsimp only
      rw [List.drop_drop]
    dsimp only
    by_cases hall : s.consumed + total = buffer.length
    · rw [if_pos hall]
      refine .inl ⟨_, rfl, fun fuel => ?_⟩
      rw [hloop, if_pos (List.drop_eq_nil_of_le (by omega))]
    · rw [if_neg hall]
      refine .inr ⟨_, rfl, by dsimp only; omega, by dsimp only; omega, fun fuel => ?_⟩
      rw [hloop, if_neg (by rw [List.drop_eq_nil_iff]; omega)]

/-- The loop of `feed` answers so from these values of its variables. -/
def FeedsTo (limits : FrameLimits) (eof : Bool) (buffer : Bytes) (s : Checked.FeedCursor)
    (answer : List DecodeEvent × Bytes) : Prop :=
  s.consumed ≤ buffer.length ∧ ∃ fuel, buffer.length - s.consumed < fuel ∧
    answer = feedLoop limits eof fuel (buffer.drop s.consumed) s.events

theorem feedRound_leads {limits : FrameLimits} {eof : Bool} {buffer : Bytes} (s : Checked.FeedCursor)
    (answer : List DecodeEvent × Bytes) (h : FeedsTo limits eof buffer s answer) :
    Checked.feedRound limits eof buffer s = .ok (.done answer) ∨
      ∃ s', Checked.feedRound limits eof buffer s = .ok (.next s') ∧ FeedsTo limits eof buffer s' answer ∧
        buffer.length - s'.consumed + 21 ≤ buffer.length - s.consumed := by
  obtain ⟨hle, fuel, hfuel, rfl⟩ := h
  obtain ⟨fuel, rfl⟩ : ∃ f, fuel = f + 1 := ⟨fuel - 1, by omega⟩
  rcases @feedRound_cases limits eof buffer s hle with
    ⟨answer, hround, hloop⟩ | ⟨s', hround, hleast, hthere, hloop⟩
  · rw [hloop]
    exact .inl hround
  · exact .inr ⟨s', hround, ⟨hthere.le, fuel, by omega, hloop fuel⟩, by omega⟩

/-- `feed` reads inside of its buffer, and a budget of one round for 21 bytes is enough. -/
theorem checked_feed (codec : FrameCodec) (bytes : Bytes) (eof : Bool) {budget : Nat}
    (hbudget : (codec.buffer ++ bytes).length < 21 * budget) :
    Checked.feed codec budget bytes eof = .ok (codec.feed bytes eof) := by
  have hstart : FeedsTo codec.limits eof (codec.buffer ++ bytes) {}
      (feedLoop codec.limits eof ((codec.buffer ++ bytes).length + 1) (codec.buffer ++ bytes) []) :=
    ⟨Nat.zero_le _, _, Nat.lt_succ_of_le (Nat.sub_le _ _), rfl⟩
  have hloop := loop_of_rounds (FeedsTo codec.limits eof (codec.buffer ++ bytes))
    (fun s => (codec.buffer ++ bytes).length - s.consumed) feedRound_leads hstart hbudget
  unfold Checked.feed
  rw [hloop]
  rfl

/-- What waits for more bytes is shorter than a frame can be. -/
theorem decodeFrame_needMore {limits : FrameLimits} {eof : Bool} {view : Bytes}
    (h : decodeFrame limits eof view = .needMore) : view.length < max 21 limits.maxFrame := by
  unfold decodeFrame at h
  by_cases hshort : view.length < kFixedPrefixBytes
  · simp only [kFixedPrefixBytes] at hshort
    omega
  rw [if_neg hshort] at h
  cases hfields : readPrefix limits view with
  | error error =>
    rw [hfields] at h
    cases h
  | ok fields =>
    rw [hfields] at h
    dsimp only at h
    cases hread : decodeUleb128 view 16 with
    | error error =>
      rw [hread] at h
      dsimp only at h
      have hcode : error.code = .needMoreData := by
        by_contra hother
        rw [if_neg hother] at h
        cases h
      have hbreaks : BreaksOff (view.drop 16) :=
        (decodesMinimal view 16).needMoreData.mp ⟨error, hread, hcode⟩
      have hleft := hbreaks.1
      rw [List.length_drop] at hleft
      omega
    | ok size =>
      rw [hread] at h
      dsimp only at h
      cases hextent : frameExtent limits size.2 fields.extLen size.1 with
      | error error =>
        rw [hextent] at h
        cases h
      | ok extent =>
        rw [hextent] at h
        dsimp only at h
        obtain ⟨_, _, _, hmax⟩ := frameExtent_spec hextent
        by_cases htotal : view.length < extent.total
        · omega
        · rw [if_neg htotal] at h
          cases hbody : readBody view fields size.2 size.1 extent <;> rw [hbody] at h <;> cases h

/-- The loop of `feed` leaves the end of its buffer behind, and only what waits for more bytes. -/
theorem feedLoop_retains {limits : FrameLimits} {eof : Bool} {fuel : Nat} {view : Bytes}
    (events : List DecodeEvent) (hfuel : view.length < fuel) :
    (feedLoop limits eof fuel view events).2 <:+ view ∧
      (feedLoop limits eof fuel view events).2.length < max 21 limits.maxFrame := by
  induction fuel generalizing view events with
  | zero => omega
  | succ fuel ih =>
    rw [feedLoop]
    cases hverdict : decodeFrame limits eof view with
    | needMore => exact ⟨List.suffix_refl view, decodeFrame_needMore hverdict⟩
    | fail error => exact ⟨List.nil_suffix, by dsimp only [List.length_nil]; omega⟩
    | item frame total =>
      obtain ⟨hleast, hthere, _⟩ := decodeFrame_item hverdict
      dsimp only
      split
      next => exact ⟨List.nil_suffix, by dsimp only [List.length_nil]; omega⟩
      next =>
        obtain ⟨hsuffix, hlength⟩ := @ih (view.drop total) (events ++ [.frame frame])
          (by rw [List.length_drop]; omega)
        exact ⟨hsuffix.trans (List.drop_suffix total view), hlength⟩

theorem FrameCodec.feed_retains (codec : FrameCodec) (bytes : Bytes) (eof : Bool) :
    (codec.feed bytes eof).2.limits = codec.limits ∧
      (codec.feed bytes eof).2.buffer <:+ codec.buffer ++ bytes ∧
      (codec.feed bytes eof).2.buffer.length < max 21 codec.limits.maxFrame :=
  ⟨rfl, feedLoop_retains [] (Nat.lt_succ_self _)⟩

/-- After any calls a codec keeps its limits, and of the bytes only the end that waits for more. -/
theorem FrameCodec.fed_retains (limits : FrameLimits) (calls : List (Bytes × Bool)) :
    (fed limits calls).limits = limits ∧ (fed limits calls).buffer <:+ (calls.map (·.1)).flatten ∧
      (fed limits calls).buffer.length < max 21 limits.maxFrame := by
  induction calls using List.reverseRecOn with
  | nil => exact ⟨rfl, List.nil_suffix, by simp [fed, run]⟩
  | append_singleton calls call ih =>
    obtain ⟨hlimits, hsuffix, _⟩ := ih
    have hfed : fed limits (calls ++ [call]) = ((fed limits calls).feed call.1 call.2).2 :=
      run_append _ calls [call]
    obtain ⟨hkept, hend, hlength⟩ := (fed limits calls).feed_retains call.1 call.2
    rw [hlimits] at hkept hlength
    rw [hfed, List.map_append, List.flatten_append]
    obtain ⟨front, hfront⟩ := hsuffix
    exact ⟨hkept, hend.trans ⟨front, by simp [← hfront]⟩, hlength⟩

/-- For all limits and calls of `feed`: no access is out of bounds, every round that goes on has consumed
at least 21 bytes, and what is retained is a short suffix of the bytes fed. -/
theorem feed_in_bounds (limits : FrameLimits) (calls : List (Bytes × Bool)) :
    DecodesInBounds limits calls := by
  obtain ⟨_, hsuffix, hlength⟩ := FrameCodec.fed_retains limits calls
  refine ⟨fun bytes eof budget hbudget => checked_feed _ bytes eof hbudget, ?_, hlength, hsuffix⟩
  intro bytes eof s s' hle hnext
  rcases @feedRound_cases limits eof _ s hle with ⟨answer, hround, _⟩ | ⟨t, hround, hleast, hthere, _⟩
  · rw [hnext] at hround
    cases hround
  · rw [hnext] at hround
    cases hround
    exact ⟨hleast, hthere⟩

end LatticeGateway

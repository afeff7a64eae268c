import LatticeGateway.FrameCodec

namespace LatticeGateway

open StreamDecoder

theorem readPrefix_append {limits : FrameLimits} {view : Bytes} (more : Bytes)
    (h : kFixedPrefixBytes ≤ view.length) :
    readPrefix limits (view ++ more) = readPrefix limits view := by
  simp only [kFixedPrefixBytes] at h
  have hbyte : ∀ i < 16, byteAt (view ++ more) i = byteAt view i :=
    fun i hi => byteAt_append_left more (by omega)
  have hext : u16At (view ++ more) 6 = u16At view 6 := by
    simp only [u16At, hbyte 6 (by omega), hbyte (6 + 1) (by omega)]
  have hnumber : u24At (view ++ more) 8 = u24At view 8 := by
    simp only [u24At, hbyte 8 (by omega), hbyte (8 + 1) (by omega), hbyte (8 + 2) (by omega)]
  unfold readPrefix
  rw [u32At_append_left more (by omega), u32At_append_left more (by omega), hbyte 4 (by omega),
    hbyte 5 (by omega), hbyte 11 (by omega), hext, hnumber]

theorem frameExtent_spec {limits : FrameLimits} {varintBytes : Nat} {extLen : UInt16}
    {payloadSize : UInt32} {extent : FrameExtent}
    (h : frameExtent limits varintBytes extLen payloadSize = .ok extent) :
    extent.headerTotal = 16 + varintBytes + extLen.toNat ∧
      extent.withoutCrc = extent.headerTotal + payloadSize.toNat ∧
      extent.total = extent.withoutCrc + 4 ∧ extent.total ≤ limits.maxFrame := by
  unfold frameExtent at h
  split at h
  next => cases h
  next headerTotal h1 =>
    split at h
    next => cases h
    next withoutCrc h2 =>
      split at h
      next => cases h
      next total h3 =>
        split at h
        next => cases h
        next hle =>
          cases h
          exact ⟨checkedAdd_eq_some h1, checkedAdd_eq_some h2, checkedAdd_eq_some h3, Nat.not_lt.mp hle⟩

theorem take_drop_append {α : Type*} {xs : List α} {a n : Nat} (ys : List α)
    (h : a + n ≤ xs.length) : ((xs ++ ys).drop a).take n = (xs.drop a).take n := by
  rw [List.drop_append_of_le_length (by omega),
    List.take_append_of_le_length (by rw [List.length_drop]; omega)]

theorem readBody_append {limits : FrameLimits} {view : Bytes} {fields : FramePrefix}
    {varintBytes : Nat} {payloadSize : UInt32} {extent : FrameExtent} (more : Bytes)
    (h : frameExtent limits varintBytes fields.extLen payloadSize = .ok extent)
    (hlen : extent.total ≤ view.length) :
    readBody (view ++ more) fields varintBytes payloadSize extent =
      readBody view fields varintBytes payloadSize extent := by
  obtain ⟨hheader, hcrc, htotal, _⟩ := frameExtent_spec h
  unfold readBody
  rw [List.take_append_of_le_length (by omega), u32At_append_left more (by omega),
    take_drop_append more (by omega), take_drop_append more (by omega)]

theorem decodeUleb128_append {view : Bytes} {offset : Nat} (more : Bytes)
    (h : ∀ e, decodeUleb128 view offset = .error e → e.code ≠ .needMoreData) :
    decodeUleb128 (view ++ more) offset = decodeUleb128 view offset :=
  decodeUleb128Loop_append more h

/-- Everything `decodeFrame` can answer short of asking for more. -/
theorem decodeFrame_append {limits : FrameLimits} {view : Bytes} (more : Bytes)
    (h : decodeFrame limits false view ≠ .needMore) :
    decodeFrame limits false (view ++ more) = decodeFrame limits false view := by
  unfold decodeFrame at h ⊢
  by_cases hlen : view.length < kFixedPrefixBytes
  · simp [hlen] at h
  have hlen' : ¬ (view ++ more).length < kFixedPrefixBytes := by
    rw [List.length_append]; omega
  rw [if_neg hlen] at h
  rw [if_neg hlen, if_neg hlen', readPrefix_append more (by omega)]
  cases hfields : readPrefix limits view with
  | error error => rfl
  | ok fields =>
    simp only [hfields] at h ⊢
    have hvarint : decodeUleb128 (view ++ more) 16 = decodeUleb128 view 16 := by
      apply decodeUleb128_append
      intro error he hcode
      simp [he, hcode] at h
    rw [hvarint]
    cases hread : decodeUleb128 view 16 with
    | error error => rfl
    | ok size =>
      simp only [hread] at h ⊢
      cases hextent : frameExtent limits size.2 fields.extLen size.1 with
      | error error => rfl
      | ok extent =>
        simp only [hextent] at h ⊢
        by_cases htotal : view.length < extent.total
        · simp [htotal] at h
        · rw [if_neg htotal, if_neg (by rw [List.length_append]; omega),
            readBody_append more hextent (by omega)]

/-- Everything that a frame which the decoder hands out has passed. -/
theorem decodeFrame_parts {limits : FrameLimits} {eof : Bool} {view : Bytes} {frame : Frame} {n : Nat}
    (h : decodeFrame limits eof view = .item frame n) :
    ∃ fields payloadSize varintBytes extent, readPrefix limits view = .ok fields ∧
      decodeUleb128 view 16 = .ok (payloadSize, varintBytes) ∧
      frameExtent limits varintBytes fields.extLen payloadSize = .ok extent ∧
      n = extent.total ∧ n ≤ view.length ∧
      readBody view fields varintBytes payloadSize extent = .ok frame := by
  unfold decodeFrame at h
  split at h
  next => split at h <;> cases h
  next =>
    split at h
    next => cases h
    next fields hfields =>
      split at h
      next =>
        repeat' split at h
        all_goals cases h
      next payloadSize varintBytes hread =>
        split at h
        next => cases h
        next extent hextent =>
          split at h
          next => split at h <;> cases h
          next hfull =>
            split at h
            next => cases h
            next hbody =>
              cases h
              exact ⟨fields, payloadSize, varintBytes, extent, hfields, hread, hextent, rfl,
                by omega, hbody⟩

/-- A frame takes its prefix, at least one byte for the payload's length, and the checksum. -/
theorem decodeFrame_item {limits : FrameLimits} {eof : Bool} {view : Bytes} {frame : Frame}
    {n : Nat} (h : decodeFrame limits eof view = .item frame n) :
    21 ≤ n ∧ n ≤ view.length ∧ n ≤ limits.maxFrame := by
  obtain ⟨fields, payloadSize, varintBytes, extent, _, hread, hextent, rfl, hfull, _⟩ :=
    decodeFrame_parts h
  obtain ⟨hheader, hcrc, htotal, hmax⟩ := frameExtent_spec hextent
  have hused := (decodeUleb128_used hread).1
  exact ⟨by omega, hfull, hmax⟩

theorem decodeUleb128Loop_error {bytes : Bytes} {offset remaining : Nat} {value shift : UInt32}
    {error : Error} (h : decodeUleb128Loop bytes offset remaining value shift = .error error) :
    error.code = .needMoreData ∨ error.action = .closeConnection := by
  induction remaining generalizing value shift with
  | zero =>
    cases h
    exact .inr rfl
  | succ remaining ih =>
    unfold decodeUleb128Loop at h
    dsimp only at h
    split at h
    next =>
      cases h
      exact .inl rfl
    next =>
      split at h
      next =>
        split at h
        next =>
          cases h
          exact .inr rfl
        next => cases h
      next => exact ih h

theorem parseExtensionsLoop_error {fuel : Nat} {bytes : Bytes} {previous : Option UInt16} {error : Error}
    (h : parseExtensionsLoop fuel bytes previous = .error error) : error.action = .closeConnection := by
  induction fuel generalizing bytes previous error with
  | zero => cases bytes <;> cases h
  | succ fuel ih =>
    cases bytes with
    | nil => cases h
    | cons byte bytes =>
      unfold parseExtensionsLoop at h
      dsimp only at h
      repeat' split at h
      all_goals cases h
      all_goals first
        | rfl
        | exact ih ‹_›

theorem readBody_error {view : Bytes} {fields : FramePrefix} {varintBytes : Nat} {payloadSize : UInt32}
    {extent : FrameExtent} {error : Error}
    (h : readBody view fields varintBytes payloadSize extent = .error error) :
    error.action = .closeConnection := by
  unfold readBody at h
  split at h
  next => cases h; rfl
  next =>
    split at h
    next hextensions =>
      cases h
      split at hextensions
      next => exact parseExtensionsLoop_error hextensions
      next => cases hextensions
    next => cases h

/-- Every decode error closes the connection. -/
theorem decodeFrame_fail_closes {limits : FrameLimits} {view : Bytes} {error : Error}
    (h : decodeFrame limits false view = .fail error) : error.action = .closeConnection := by
  unfold decodeFrame at h
  split at h
  next => simp at h
  next =>
    split at h
    next hfields =>
      cases h
      unfold readPrefix at hfields
      repeat' split at hfields
      all_goals cases hfields
      all_goals rfl
    next fields _ =>
      split at h
      next hread =>
        split at h
        next => simp at h
        next hcode =>
          cases h
          exact (decodeUleb128Loop_error hread).resolve_left hcode
      next =>
        split at h
        next hextent =>
          cases h
          unfold frameExtent at hextent
          repeat' split at hextent
          all_goals cases hextent
          all_goals rfl
        next =>
          split at h
          next => simp at h
          next =>
            split at h
            next hbody => cases h; exact readBody_error hbody
            next => cases h

/-- A frame is read from the bytes that it takes alone. -/
theorem decodeFrame_take {limits : FrameLimits} {view : Bytes} {frame : Frame} {n : Nat}
    (h : decodeFrame limits false view = .item frame n) :
    decodeFrame limits false (view.take n) = .item frame n := by
  obtain ⟨fields, payloadSize, varintBytes, extent, hfields, hread, hextent, rfl, hn, hbody⟩ :=
    decodeFrame_parts h
  obtain ⟨hheader, hcrc, htotal, _⟩ := frameExtent_spec hextent
  have hview : view.take extent.total ++ view.drop extent.total = view := List.take_append_drop _ view
  have hlength : (view.take extent.total).length = extent.total := List.length_take_of_le hn
  have hfixed : kFixedPrefixBytes ≤ (view.take extent.total).length := by
    simp only [kFixedPrefixBytes]
    omega
  rw [← hview, readPrefix_append _ hfixed] at hfields
  rw [← hview] at hread
  have hlocal : decodeUleb128 (view.take extent.total) 16 = .ok (payloadSize, varintBytes) :=
    (decodeUleb128Loop_local (Nat.le_refl _) hread).2 (by omega)
  rw [← hview, readBody_append _ hextent (by omega)] at hbody
  unfold decodeFrame
  rw [if_neg (Nat.not_lt.mpr hfixed), hfields]
  simp only [hlocal, hextent]
  rw [if_neg (by omega), hbody]

theorem decodeFrame_stable (limits : FrameLimits) : Stable (decodeFrame limits false) where
  fail_append h ys := (decodeFrame_append ys (by rw [h]; simp)).trans h
  item_append h ys := (decodeFrame_append ys (by rw [h]; simp)).trans h
  item_pos h := by have := decodeFrame_item h; omega
  item_le h := (decodeFrame_item h).2.1
  item_take := decodeFrame_take

/-- The error for an undecided rest once the input has ended. -/
def truncatedRest (view : Bytes) : Error :=
  if view.length < kFixedPrefixBytes then
    makeError .connection .truncatedFrame .closeConnection "EOF before fixed prefix"
  else
    match decodeUleb128 view 16 with
    | .error error => { error with code := .truncatedFrame, action := .closeConnection }
    | .ok _ => makeError .connection .truncatedFrame .closeConnection "EOF inside frame"

theorem decodeFrame_eof (limits : FrameLimits) (view : Bytes) :
    decodeFrame limits true view = atEnd truncatedRest view (decodeFrame limits false view) := by
  by_cases hlen : view.length < kFixedPrefixBytes
  · simp only [decodeFrame, if_pos hlen, atEnd, Bool.false_and, Bool.false_eq_true, if_false,
      truncatedRest]
    cases view <;> rfl
  have hne : view.isEmpty = false := by
    cases view with
    | nil => simp [kFixedPrefixBytes] at hlen
    | cons b bs => rfl
  simp only [decodeFrame, if_neg hlen]
  cases hfields : readPrefix limits view with
  | error error => rfl
  | ok fields =>
    cases hread : decodeUleb128 view 16 with
    | error error =>
      by_cases hcode : error.code = .needMoreData
      · simp [hcode, atEnd, hne, truncatedRest, hlen, hread]
      · simp [hcode, atEnd]
    | ok size =>
      cases hextent : frameExtent limits size.2 fields.extLen size.1 with
      | error error => simp [hextent, atEnd]
      | ok extent =>
        by_cases htotal : view.length < extent.total
        · simp [hextent, htotal, atEnd, hne, truncatedRest, hlen, hread]
        · cases hbody : readBody view fields size.2 size.1 extent <;>
            simp [hextent, htotal, hbody, atEnd]

/-- The events of one `feed` and the buffer it leaves, from what there was to decode. -/
def feedResult (events : List DecodeEvent) : Tail UInt8 Error → List DecodeEvent × Bytes
  | .rest rest => (if events.isEmpty then [.needMore] else events, rest)
  | .failed error => (events ++ [.error error], [])

theorem decodeFrame_nil (limits : FrameLimits) (eof : Bool) : decodeFrame limits eof [] = .needMore := by
  simp [decodeFrame, kFixedPrefixBytes]

theorem feedLoop_eq {limits : FrameLimits} {eof : Bool} {fuel : Nat} {view : Bytes}
    {frames : List Frame} {tail : Tail UInt8 Error} (events : List DecodeEvent)
    (h : Decodes (decodeFrame limits eof) view frames tail) (hfuel : frames.length < fuel) :
    feedLoop limits eof fuel view events = feedResult (events ++ frames.map .frame) tail := by
  induction h generalizing fuel events with
  | rest hv =>
    obtain ⟨fuel, rfl⟩ : ∃ f, fuel = f + 1 := ⟨fuel - 1, by omega⟩
    simp [feedLoop, hv, feedResult]
  | failed hv =>
    obtain ⟨fuel, rfl⟩ : ∃ f, fuel = f + 1 := ⟨fuel - 1, by omega⟩
    simp [feedLoop, hv, feedResult]
  | @item view frame n frames tail hv hrest ih =>
    obtain ⟨fuel, rfl⟩ : ∃ f, fuel = f + 1 := ⟨fuel - 1, by omega⟩
    simp only [List.length_cons] at hfuel
    simp only [feedLoop, hv]
    split
    next hdone =>
      -- the whole buffer is used up: the loop returns without another round
      rw [hdone] at hrest
      obtain ⟨rfl, rfl⟩ := hrest.unique (.rest (decodeFrame_nil limits eof))
      simp [feedResult]
    next => rw [ih _ (by omega)]; simp

theorem FrameCodec.feed_eq {codec : FrameCodec} {bytes : Bytes} {eof : Bool} {frames : List Frame}
    {tail : Tail UInt8 Error}
    (h : Decodes (decodeFrame codec.limits eof) (codec.buffer ++ bytes) frames tail)
    (hlen : frames.length ≤ (codec.buffer ++ bytes).length) :
    codec.feed bytes eof = ((feedResult (frames.map .frame) tail).1,
      { codec with buffer := (feedResult (frames.map .frame) tail).2 }) := by
  have hloop : feedLoop codec.limits eof ((codec.buffer ++ bytes).length + 1)
      (codec.buffer ++ bytes) [] = feedResult (frames.map .frame) tail :=
    feedLoop_eq [] h (by omega)
  simp only [FrameCodec.feed, hloop]

theorem FrameCodec.feed_more {codec : FrameCodec} {bytes : Bytes} {frames : List Frame}
    {tail : Tail UInt8 Error}
    (h : Decodes (decodeFrame codec.limits false) (codec.buffer ++ bytes) frames tail) :
    codec.feed bytes false = ((feedResult (frames.map .frame) tail).1,
      { codec with buffer := (feedResult (frames.map .frame) tail).2 }) :=
  feed_eq h (h.length_le (decodeFrame_stable _))

theorem FrameCodec.feed_eof {codec : FrameCodec} {bytes : Bytes} {frames : List Frame}
    {tail : Tail UInt8 Error}
    (h : Decodes (decodeFrame codec.limits false) (codec.buffer ++ bytes) frames tail) :
    codec.feed bytes true = ((feedResult (frames.map .frame) (tail.atEnd truncatedRest)).1,
      { codec with buffer := (feedResult (frames.map .frame) (tail.atEnd truncatedRest)).2 }) := by
  refine feed_eq ?_ (h.length_le (decodeFrame_stable _))
  have hstep : decodeFrame codec.limits true =
      fun view => atEnd truncatedRest view (decodeFrame codec.limits false view) :=
    funext (decodeFrame_eof codec.limits)
  rw [hstep]
  exact h.atEnd truncatedRest

/-- Feeding chunk after chunk with `eof` false. -/
def FrameCodec.feedChunks (codec : FrameCodec) : List Bytes → List DecodeEvent × FrameCodec
  | [] => ([], codec)
  | chunk :: chunks =>
    let (events, codec) := codec.feed chunk false
    let (more, codec) := codec.feedChunks chunks
    (events ++ more, codec)

/-- What a reader acts on: frame and error events, up to and including the first error. -/
def observed : List DecodeEvent → List DecodeEvent
  | [] => []
  | .needMore :: events => observed events
  | .error error :: _ => [.error error]
  | .frame frame :: events => .frame frame :: observed events

@[simp] theorem observed_frames_append (frames : List Frame) (events : List DecodeEvent) :
    observed (frames.map .frame ++ events) = frames.map .frame ++ observed events := by
  induction frames with
  | nil => rfl
  | cons frame frames ih => simp [observed, ih]

theorem observed_feedResult_failed (frames : List Frame) (error : Error) (more : List DecodeEvent) :
    observed ((feedResult (frames.map .frame) (.failed error)).1 ++ more) =
      frames.map .frame ++ [.error error] := by
  simp [feedResult, observed]

theorem observed_feedResult_rest (frames : List Frame) (rest : Bytes) (more : List DecodeEvent) :
    observed ((feedResult (frames.map .frame) (.rest rest)).1 ++ more) =
      frames.map .frame ++ observed more := by
  cases frames <;> simp [feedResult, observed]

theorem observed_feedResult_atEnd (frames : List Frame) (tail : Tail UInt8 Error) :
    observed (feedResult (frames.map .frame) (tail.atEnd truncatedRest)).1 =
      frames.map .frame ++ observed (feedResult [] (tail.atEnd truncatedRest)).1 := by
  cases htail : tail.atEnd truncatedRest with
  | rest rest =>
    have h := observed_feedResult_rest frames rest []
    simpa [feedResult, observed] using h
  | failed error =>
    simp [feedResult, observed]

/-- A codec whose buffer is undecided sees the same whether the rest comes in chunks or at once. -/
theorem FrameCodec.observed_feedChunks (chunks : List Bytes) (codec : FrameCodec) :
    observed ((codec.feedChunks chunks).1 ++ ((codec.feedChunks chunks).2.feed [] true).1) =
      observed (codec.feed chunks.flatten true).1 := by
  induction chunks generalizing codec with
  | nil => rfl
  | cons chunk chunks ih =>
    have hstable := decodeFrame_stable codec.limits
    obtain ⟨frames, tail, hfirst⟩ := hstable.exists_decodes (codec.buffer ++ chunk)
    simp only [FrameCodec.feedChunks, FrameCodec.feed_more hfirst, List.flatten_cons]
    cases tail with
    | failed error =>
      have hall := hfirst.append_failed hstable chunks.flatten
      rw [List.append_assoc] at hall
      rw [FrameCodec.feed_eof hall, List.append_assoc, observed_feedResult_failed]
      simp [Tail.atEnd, feedResult, observed]
    | rest rest =>
      obtain ⟨later, tail, hlater⟩ := hstable.exists_decodes (rest ++ chunks.flatten)
      have hall := hfirst.append_rest hstable hlater
      rw [List.append_assoc] at hall
      have hbuffer : (feedResult (frames.map .frame) (.rest rest)).2 = rest := rfl
      rw [List.append_assoc, observed_feedResult_rest, hbuffer, ih, feed_eof hlater, feed_eof hall,
        observed_feedResult_atEnd later, observed_feedResult_atEnd (frames ++ later),
        List.map_append, List.append_assoc]

/-- Streaming decode equals one-shot decode, for every way to cut the bytes into chunks. -/
theorem streaming_decode_eq_one_shot (limits : FrameLimits) (chunks : List Bytes) :
    observed ((FrameCodec.feedChunks { limits } chunks).1 ++
        ((FrameCodec.feedChunks { limits } chunks).2.feed [] true).1) =
      observed (FrameCodec.feed { limits } chunks.flatten true).1 :=
  FrameCodec.observed_feedChunks chunks { limits }

end LatticeGateway

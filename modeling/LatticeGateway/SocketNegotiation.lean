import LatticeGateway.ConcurrentOpens
import LatticeGateway.EngineBuffer
import LatticeGateway.UnixTransport

namespace LatticeGateway

open Runs StreamDecoder

/-- Where `negotiate_unix_peer` stands: in `write_all`, with the chunk under way in front, in `read_some`,
or at its end. -/
inductive NegotiationPhase
  | writing (chunks : List Bytes)
  | reading
  | returned (result : Except Error Unit)

/-- A process that runs `negotiate_unix_peer`, and whether it has exited since. -/
structure NegotiatingPeer where
  engine : ConnectionEngine
  phase : NegotiationPhase
  exited : Bool := false

def peerClosedEarly : Error := transportError "peer closed before HELLO negotiation completed"

/-- On to the next system call, past chunks of which nothing is left. -/
def proceed (engine : ConnectionEngine) : List Bytes → NegotiationPhase
  | [] => if engine.state = .negotiating then .reading else .returned (.ok ())
  | [] :: chunks => proceed engine chunks
  | (byte :: chunk) :: chunks => .writing ((byte :: chunk) :: chunks)

namespace NegotiatingPeer

def begin (engine : ConnectionEngine) : NegotiatingPeer :=
  match engine.start with
  | (.error error, engine) => { engine, phase := .returned (.error error) }
  | (.ok hello, engine) => { engine, phase := proceed engine hello }

/-- What a `send` puts on the wire, and the process behind it. -/
def send (p : NegotiatingPeer) (outcome : SendOutcome) : Bytes × NegotiatingPeer :=
  match p.phase with
  | .writing (chunk :: chunks) =>
    match sendSome chunk outcome with
    | .error error => ([], { p with phase := .returned (.error error) })
    | .ok sent => (sent, { p with phase := proceed p.engine (chunk.drop sent.length :: chunks) })
  | _ => ([], p)

/-- What the process does with what `read_some` returns. -/
def read (p : NegotiatingPeer) : Except Error Bytes → NegotiatingPeer
  | .error error => { p with phase := .returned (.error error) }
  | .ok [] => { p with phase := .returned (.error peerClosedEarly) }
  | .ok (byte :: bytes) =>
    match p.engine.receive (byte :: bytes) false with
    | (.error error, engine) => { p with engine, phase := .returned (.error error) }
    | (.ok produced, engine) => { p with engine, phase := proceed engine produced }

/-- What the process has still to write. -/
def unsent (p : NegotiatingPeer) : Bytes :=
  match p.phase with
  | .writing chunks => chunks.flatten
  | _ => []

end NegotiatingPeer

/-- The two ends of a socket, and the bytes that one has written and the other not yet read. -/
structure NegotiatingPair where
  left : NegotiatingPeer
  right : NegotiatingPeer
  toLeft : Bytes := []
  toRight : Bytes := []

inductive SocketEnd
  | left | right
  deriving DecidableEq, Repr

/-- What may happen at one end: its `send` or its `recv` comes back, or the process exits. A `recv` returns
at most `count + 1` bytes. -/
inductive SocketMove
  | send (outcome : SendOutcome)
  | recv (count : Nat)
  | recvBroken (outcome : RecvOutcome)
  | exit

namespace NegotiatingPair

def swap (p : NegotiatingPair) : NegotiatingPair := ⟨p.right, p.left, p.toRight, p.toLeft⟩

def begin (a b : ConnectionEngine) : NegotiatingPair :=
  { left := .begin a, right := .begin b }

/-- A `recv` finds bytes, or the end of those of a process that has exited, or else does not come back. -/
def stepLeft (p : NegotiatingPair) : SocketMove → NegotiatingPair
  | .send outcome =>
    let (sent, left) := p.left.send outcome
    { p with left, toRight := p.toRight ++ sent }
  | .recv count =>
    match p.left.phase with
    | .reading =>
      if p.toLeft = [] ∧ p.right.exited = false then p
      else
        let got := (p.toLeft.take (count + 1)).take kDefaultMaxFrame
        { p with left := p.left.read (.ok got), toLeft := p.toLeft.drop got.length }
    | _ => p
  | .recvBroken outcome =>
    match p.left.phase with
    | .reading => { p with left := p.left.read (recvSome kDefaultMaxFrame outcome) }
    | _ => p
  | .exit =>
    match p.left.phase with
    | .returned _ => { p with left := { p.left with exited := true } }
    | _ => p

def step (p : NegotiatingPair) : SocketEnd × SocketMove → NegotiatingPair
  | (.left, move) => p.stepLeft move
  | (.right, move) => (p.swap.stepLeft move).swap

end NegotiatingPair

/-- No `send` fails, and no `recv` is interrupted, which would look as if the other end were closed. -/
def SocketMove.Clean : SocketMove → Prop
  | .send outcome => outcome.Harmless
  | .recv _ => True
  | .recvBroken _ => False
  | .exit => True

/-- What is still to be done: each byte is to be sent and to be read, each process to return and to exit. -/
def NegotiatingPeer.work (p : NegotiatingPeer) : Nat :=
  2 * p.unsent.length + (match p.phase with | .returned _ => 0 | _ => 1) + (if p.exited then 0 else 1)

def NegotiatingPair.work (p : NegotiatingPair) : Nat :=
  p.left.work + p.right.work + p.toLeft.length + p.toRight.length

theorem NegotiatingPeer.work_le (p : NegotiatingPeer) (h : p.unsent = []) : p.work ≤ 2 := by
  unfold work
  rw [h, List.length_nil]
  split <;> split <;> omega

/-- The process returns nothing but success, with that engine. -/
def NegotiatingPeer.ReturnsOnly (p : NegotiatingPeer) (e : ConnectionEngine) : Prop :=
  ∀ result, p.phase = .returned result → result = .ok () ∧ p.engine = e

/-- No clean move changes anything any more. -/
def NegotiatingPair.Settled (p : NegotiatingPair) : Prop :=
  ∀ side (move : SocketMove), move.Clean → p.step (side, move) = p

/-- How a started engine hears, piece by piece, the HELLO frame of the other: it wants more until it has all
of it; when it refuses a piece, it is `hopeless`. -/
structure Hears (e : ConnectionEngine) (heard : Bytes) (hopeless : Prop) : Prop where
  negotiating : e.state = .negotiating
  buffer : e.codec.buffer = []
  pieces : ∀ x later, heard = x ++ later →
    (later ≠ [] ∧ decodeFrame e.codec.limits false x = .needMore) ∨
    (∃ error e', e.receive x false = (.error error, e') ∧ hopeless) ∨
    (later = [] ∧ ∃ e', e.receive x false = (.ok [], e') ∧ e'.state = .active)

namespace ConnectionEngine

theorem receive_withBuffer {e : ConnectionEngine} (h : e.codec.buffer = []) (read bytes : Bytes) :
    (e.withBuffer read).receive bytes false = e.receive (read ++ bytes) false := by
  unfold receive withBuffer FrameCodec.feed
  dsimp only
  rw [h]
  rfl

theorem receive_needMore {e : ConnectionEngine} (h : e.codec.buffer = []) {bytes : Bytes}
    (hmore : decodeFrame e.codec.limits false bytes = .needMore) :
    e.receive bytes false = (.ok [], e.withBuffer bytes) := by
  have hdecodes : Decodes (decodeFrame e.codec.limits false) (e.codec.buffer ++ bytes) [] (.rest bytes) := by
    rw [h]
    exact .rest hmore
  unfold receive
  rw [FrameCodec.feed_more hdecodes]
  rfl

/-- The HELLO frame of one engine is to another either one frame or an error. -/
theorem hello_decodes {e peer : ConnectionEngine} (h : e.codec.Clear) (hpeer : peer.codec.Clear)
    {frame : Frame} {encoded : Bytes} (hencode : peer.codec.encode frame = .ok encoded)
    (hknown : frame.KnownRequired) :
    Decodes (decodeFrame e.codec.limits false) encoded [frame.canonical] (.rest []) ∨
      ∃ error, Decodes (decodeFrame e.codec.limits false) encoded [] (.failed error) := by
  by_cases hsize : encoded.length ≤ e.codec.limits.maxFrame
  · have hsame := FrameCodec.encode_relimit hencode (by rw [hpeer.header, h.header]) hsize
    have hall := @decodes_encodings e.codec.limits (by rw [h.header]; decide) [frame] [encoded]
      (by simpa using hknown) (.cons hsame .nil) false
    left
    simpa using hall
  · obtain ⟨ext, hencodes⟩ := FrameCodec.encode_ok hencode
    have hheader := hpeer.header
    obtain ⟨error, hfail⟩ := decodeFrame_large hencodes (by omega) (h.header.trans hheader.symm)
      (by omega : e.codec.limits.maxFrame < encoded.length) false
    exact .inr ⟨error, .failed hfail⟩

theorem receive_failed {e : ConnectionEngine} (h : e.codec.buffer = []) {bytes : Bytes} {error : Error}
    (hfailed : Decodes (decodeFrame e.codec.limits false) bytes [] (.failed error)) :
    ∃ e', e.receive bytes false = (.error error, e') := by
  have hdecodes : Decodes (decodeFrame e.codec.limits false) (e.codec.buffer ++ bytes) [] (.failed error) := by
    rw [h]
    exact hfailed
  unfold receive
  rw [FrameCodec.feed_more hdecodes]
  exact ⟨_, rfl⟩

/-- The answer to a whole HELLO frame. -/
theorem receive_hello {e : ConnectionEngine} (h : e.codec.buffer = []) {bytes payload : Bytes}
    {frameSeq : UInt32}
    (hdecodes : Decodes (decodeFrame e.codec.limits false) bytes
      [Frame.canonical { type := .hello, frameSeq, payload }] (.rest [])) :
    (∃ error e', e.receive bytes false = (.error error, e')) ∨
      ∃ e', e.receive bytes false = (.ok [], e') ∧ e'.state = .active := by
  have hall : Decodes (decodeFrame e.codec.limits false) (e.codec.buffer ++ bytes)
      [Frame.canonical { type := .hello, frameSeq, payload }] (.rest []) := by
    rw [h]
    exact hdecodes
  have hreceive : e.receive bytes false =
      receiveLoop [.frame (Frame.canonical { type := .hello, frameSeq, payload })] (e.withBuffer []) [] := by
    unfold receive
    rw [FrameCodec.feed_more hall]
    rfl
  rw [hreceive]
  unfold receiveLoop handleEvent
  have hframe : (e.withBuffer []).handleFrame (Frame.canonical { type := .hello, frameSeq, payload }) =
      (e.withBuffer []).handleHello { type := .hello, frameSeq, payload } := rfl
  dsimp only
  rw [hframe]
  rcases handleHello_cases (e.withBuffer []) { type := .hello, frameSeq, payload } with
    ⟨error, herror⟩ | ⟨_, caps, _, _, _, hok⟩
  · rw [herror]
    exact .inl ⟨error, _, rfl⟩
  · rw [hok]
    exact .inr ⟨_, rfl, rfl⟩

/-- An engine that waits for a HELLO hears that of another. -/
theorem Unused.hears {e peer : ConnectionEngine} (h : Unused e) (hwaits : e.state = .negotiating)
    (hpeer : peer.codec.Clear) {frameSeq : UInt32} {payload encoded : Bytes} {hopeless : Prop}
    (hencode : peer.codec.encode { type := .hello, frameSeq, payload } = .ok encoded)
    (hrefused : ∀ error e', e.receive encoded false = (.error error, e') → hopeless) :
    Hears e encoded hopeless := by
  refine ⟨hwaits, h.codec.buffer, fun x later hsplit => ?_⟩
  have hstable := decodeFrame_stable e.codec.limits
  have hwhole := hello_decodes h.codec hpeer hencode (by simp [Frame.KnownRequired])
  obtain ⟨frames, tail, hx⟩ := hstable.exists_decodes x
  cases frames with
  | nil =>
    cases tail with
    | rest rest =>
      cases hx with
      | rest hmore =>
        refine .inl ⟨fun hnil => ?_, hmore⟩
        rw [hsplit, hnil, List.append_nil] at hwhole
        rcases hwhole with hone | ⟨error, hfails⟩
        · cases ((Decodes.rest hmore).unique hone).1
        · cases ((Decodes.rest hmore).unique hfails).2
    | failed error =>
      obtain ⟨e', hreceive⟩ := receive_failed h.codec.buffer hx
      obtain ⟨e'', hall⟩ := receive_failed h.codec.buffer (hx.append_failed hstable later)
      rw [← hsplit] at hall
      exact .inr (.inl ⟨error, e', hreceive, hrefused error e'' hall⟩)
  | cons frame frames =>
    -- a piece with a frame in it is the whole of it
    have hlater : later = [] ∧ Decodes (decodeFrame e.codec.limits false) encoded
        [Frame.canonical { type := .hello, frameSeq, payload }] (.rest []) := by
      rcases tail with rest | error
      · obtain ⟨more, tail, hmore⟩ := hstable.exists_decodes (rest ++ later)
        have hall := hx.append_rest hstable hmore
        rw [← hsplit] at hall
        rcases hwhole with hone | ⟨error, hfails⟩
        · obtain ⟨hframes, rfl⟩ := hall.unique hone
          obtain ⟨_, hnone⟩ := List.cons_eq_cons.mp hframes
          obtain ⟨rfl, rfl⟩ := List.append_eq_nil_iff.mp hnone
          generalize hboth : rest ++ later = both at hmore
          cases hmore with
          | rest hrest => exact ⟨(List.append_eq_nil_iff.mp hboth).2, hone⟩
        · cases (hall.unique hfails).1
      · have hall := hx.append_failed hstable later
        rw [← hsplit] at hall
        rcases hwhole with hone | ⟨error, hfails⟩
        · cases (hall.unique hone).2
        · cases (hall.unique hfails).1
    obtain ⟨rfl, hone⟩ := hlater
    rw [List.append_nil] at hsplit
    subst hsplit
    rcases receive_hello h.codec.buffer hone with ⟨error, e', hreceive⟩ | hactive
    · exact .inr (.inl ⟨error, e', hreceive, hrefused error e' hreceive⟩)
    · exact .inr (.inr ⟨rfl, hactive⟩)

theorem start_negotiating {e e' : ConnectionEngine} {out : List Bytes} (h : e.start = (.ok out, e')) :
    e'.state = .negotiating := by
  unfold start at h
  split at h
  next => cases h
  next =>
    split at h
    next => cases h
    next payload _ =>
      obtain ⟨_, _, _, hsent⟩ := emitFrame_sent
        ({ e with state := .negotiating }.scheduleTimer .handshake {} kHandshakeTimeoutMs) .hello {} payload []
      rw [h] at hsent
      dsimp only at hsent
      rw [hsent]
      rfl

end ConnectionEngine

open ConnectionEngine

/-- Where a process stands that has started as `e`, has `read` so much of what it is to hear and has so much
`unsent`. -/
inductive Stands (e : ConnectionEngine) (heard : Bytes) (hopeless : Prop) :
    NegotiatingPeer → Bytes → Bytes → Prop
  | writing {unsent} : unsent ≠ [] → Stands e heard hopeless ⟨e, .writing [unsent], false⟩ [] unsent
  | reading {read} : decodeFrame e.codec.limits false read = .needMore →
      Stands e heard hopeless ⟨e.withBuffer read, .reading, false⟩ read []
  | returned {e' exited} : e.receive heard false = (.ok [], e') →
      Stands e heard hopeless ⟨e', .returned (.ok ()), exited⟩ heard []
  | failed {e' error exited read unsent} : hopeless →
      Stands e heard hopeless ⟨e', .returned (.error error), exited⟩ read unsent

/-- Both processes stand somewhere, and no byte between them is lost, doubled or out of place. -/
structure Negotiating (l r : ConnectionEngine) (hearsL hearsR : Bytes) (hopeless : Prop)
    (p : NegotiatingPair) (readL unsentL readR unsentR : Bytes) : Prop where
  left : Stands l hearsL hopeless p.left readL unsentL
  right : Stands r hearsR hopeless p.right readR unsentR
  toLeft : hearsL = readL ++ p.toLeft ++ unsentR
  toRight : hearsR = readR ++ p.toRight ++ unsentL

theorem Negotiating.swap {l r : ConnectionEngine} {hearsL hearsR : Bytes} {hopeless : Prop}
    {p : NegotiatingPair} {readL unsentL readR unsentR : Bytes}
    (h : Negotiating l r hearsL hearsR hopeless p readL unsentL readR unsentR) :
    Negotiating r l hearsR hearsL hopeless p.swap readR unsentR readL unsentL :=
  ⟨h.right, h.left, h.toRight, h.toLeft⟩

theorem proceed_rest {e : ConnectionEngine} {heard : Bytes} {hopeless : Prop} (h : Hears e heard hopeless)
    (rest : Bytes) : Stands e heard hopeless ⟨e, proceed e [rest], false⟩ [] rest ∧
      (NegotiatingPeer.unsent ⟨e, proceed e [rest], false⟩) = rest := by
  cases rest with
  | nil =>
    have hphase : proceed e [[]] = .reading := by
      simp only [proceed, if_pos h.negotiating]
    have hsame : e.withBuffer [] = e := by
      unfold withBuffer
      rw [← h.buffer]
    rw [hphase]
    have hstands := @Stands.reading e heard hopeless [] (decodeFrame_nil _ _)
    rw [hsame] at hstands
    exact ⟨hstands, rfl⟩
  | cons byte rest => exact ⟨.writing (by simp), by simp [proceed, NegotiatingPeer.unsent]⟩

section LeftMoves

variable {l r : ConnectionEngine} {hearsL hearsR : Bytes} {hopeless : Prop} {p : NegotiatingPair}
  {readL unsentL readR unsentR : Bytes}

/-- A move either changes nothing or leaves less to do. -/
def Moved (p p' : NegotiatingPair) : Prop := p' = p ∨ p'.work < p.work

/-- A process that is not writing sends nothing. -/
theorem NegotiatingPair.stepLeft_idle {p : NegotiatingPair}
    (h : ∀ chunk chunks, p.left.phase ≠ .writing (chunk :: chunks)) (outcome : SendOutcome) :
    p.stepLeft (.send outcome) = p := by
  obtain ⟨⟨e, phase, exited⟩, right, toLeft, toRight⟩ := p
  cases phase with
  | writing chunks =>
    cases chunks with
    | nil => simp [stepLeft, NegotiatingPeer.send]
    | cons chunk chunks => exact absurd rfl (h chunk chunks)
  | reading | returned => simp [stepLeft, NegotiatingPeer.send]

theorem NegotiatingPair.exits {p : NegotiatingPair} {result : Except Error Unit}
    (h : p.left.phase = .returned result) :
    p.stepLeft .exit = { p with left := { p.left with exited := true } } ∧ Moved p (p.stepLeft .exit) := by
  have hstep : p.stepLeft .exit = { p with left := { p.left with exited := true } } := by
    simp only [stepLeft, h]
  refine ⟨hstep, ?_⟩
  rw [hstep]
  obtain ⟨⟨e, phase, exited⟩, right, toLeft, toRight⟩ := p
  obtain rfl : phase = .returned result := h
  cases exited with
  | true => exact .inl rfl
  | false =>
    right
    have hbefore : NegotiatingPeer.work ⟨e, .returned result, false⟩ = 1 := rfl
    have hafter : NegotiatingPeer.work ⟨e, .returned result, true⟩ = 0 := rfl
    unfold work
    dsimp only
    omega

theorem Negotiating.send (hl : Hears l hearsL hopeless)
    (h : Negotiating l r hearsL hearsR hopeless p readL unsentL readR unsentR) {outcome : SendOutcome}
    (hclean : outcome.Harmless) : ∃ unsentL', Moved p (p.stepLeft (.send outcome)) ∧
      Negotiating l r hearsL hearsR hopeless (p.stepLeft (.send outcome)) readL unsentL' readR unsentR := by
  obtain ⟨left, right, toLeft, toRight⟩ := p
  have hleft := h.left
  dsimp only at hleft
  cases hleft with
  | @writing _ hne =>
    obtain ⟨sent, hsent⟩ := hclean.sends unsentL
    obtain ⟨⟨later, rfl⟩, _⟩ := sendSome_ok hsent
    obtain ⟨hstands, hunsent⟩ := proceed_rest hl later
    have hstep : NegotiatingPair.stepLeft ⟨⟨l, .writing [sent ++ later], false⟩, right, toLeft, toRight⟩
        (.send outcome) = ⟨⟨l, proceed l [later], false⟩, right, toLeft, toRight ++ sent⟩ := by
      simp only [NegotiatingPair.stepLeft, NegotiatingPeer.send, hsent, List.drop_left]
    rw [hstep]
    refine ⟨later, ?_, hstands, h.right, h.toLeft, ?_⟩
    · by_cases hnone : sent = []
      · subst hnone
        left
        cases later with
        | nil => exact absurd rfl hne
        | cons byte later => simp [proceed]
      · right
        have hpos := List.length_pos_iff.mpr hnone
        have hreading : (match proceed l [later] with | .returned _ => 0 | _ => 1) = 1 := by
          cases later with
          | nil => simp only [proceed, if_pos hl.negotiating]
          | cons byte later => rfl
        simp only [NegotiatingPair.work, NegotiatingPeer.work, hunsent, hreading]
        simp only [NegotiatingPeer.unsent, List.flatten_cons, List.flatten_nil, List.length_append,
          List.append_nil]
        omega
    · have hbytes := h.toRight
      simp only [List.append_assoc] at hbytes ⊢
      exact hbytes
  | reading | returned | failed =>
    rw [NegotiatingPair.stepLeft_idle (by simp) outcome]
    exact ⟨_, .inl rfl, h⟩

/-- A process that reads from one that has exited has no more to hear, and so none of its hopes. -/
theorem Negotiating.hopeless_of_exited (hl : Hears l hearsL hopeless)
    (h : Negotiating l r hearsL hearsR hopeless p readL unsentL readR unsentR)
    (hmore : decodeFrame l.codec.limits false readL = .needMore) (hnone : p.toLeft = [])
    (hexited : p.right.exited = true) : hopeless := by
  have hbytes := h.toLeft
  rw [hnone, List.append_nil] at hbytes
  have hright := h.right
  generalize p.right = right at hright hexited
  cases hright with
  | writing => cases hexited
  | reading => cases hexited
  | failed hopeless => exact hopeless
  | returned =>
    rcases hl.pieces readL [] hbytes with ⟨hne, _⟩ | ⟨_, _, _, hopeless⟩ | ⟨_, e', hok, hactive⟩
    · exact absurd rfl hne
    · exact hopeless
    · rw [receive_needMore hl.buffer hmore] at hok
      cases hok
      have hwaits : (l.withBuffer readL).state = .negotiating := hl.negotiating
      rw [hwaits] at hactive
      cases hactive

/-- What the process makes of the next bytes that it hears. -/
theorem Hears.reads (hl : Hears l hearsL hopeless) {read got later : Bytes}
    (hsplit : hearsL = read ++ got ++ later) (hne : got ≠ []) :
    ∃ read' peer, NegotiatingPeer.read ⟨l.withBuffer read, .reading, false⟩ (.ok got) = peer ∧
      Stands l hearsL hopeless peer read' [] ∧ peer.unsent = [] ∧ hearsL = read' ++ later := by
  cases got with
  | nil => exact absurd rfl hne
  | cons byte got =>
    have hreceive := receive_withBuffer hl.buffer read (byte :: got)
    unfold NegotiatingPeer.read
    dsimp only
    rw [hreceive]
    rcases hl.pieces (read ++ byte :: got) later hsplit with
      ⟨_, hmore⟩ | ⟨error, e', hfails, hopeless⟩ | ⟨rfl, e', hok, hactive⟩
    · rw [receive_needMore hl.buffer hmore]
      have hphase : proceed (l.withBuffer (read ++ byte :: got)) [] = .reading := if_pos hl.negotiating
      dsimp only
      rw [hphase]
      exact ⟨_, _, rfl, .reading hmore, rfl, hsplit⟩
    · rw [hfails]
      exact ⟨_, _, rfl, .failed hopeless, rfl, hsplit⟩
    · rw [List.append_nil] at hsplit
      rw [hok]
      have hphase : proceed e' [] = .returned (.ok ()) := if_neg (by rw [hactive]; decide)
      dsimp only
      rw [hphase]
      rw [← hsplit] at hok
      exact ⟨_, _, rfl, .returned hok, rfl, (List.append_nil _).symm⟩

theorem Negotiating.recv (hl : Hears l hearsL hopeless)
    (h : Negotiating l r hearsL hearsR hopeless p readL unsentL readR unsentR) (count : Nat) :
    ∃ readL', Moved p (p.stepLeft (.recv count)) ∧
      Negotiating l r hearsL hearsR hopeless (p.stepLeft (.recv count)) readL' unsentL readR unsentR := by
  obtain ⟨left, right, toLeft, toRight⟩ := p
  have hleft := h.left
  dsimp only at hleft
  cases hleft with
  | writing | returned | failed => exact ⟨_, .inl rfl, h⟩
  | reading hmore =>
    by_cases hblocked : toLeft = [] ∧ right.exited = false
    · have hstep : NegotiatingPair.stepLeft ⟨⟨l.withBuffer readL, .reading, false⟩, right, toLeft, toRight⟩
          (.recv count) = ⟨⟨l.withBuffer readL, .reading, false⟩, right, toLeft, toRight⟩ := by
        simp only [NegotiatingPair.stepLeft, if_pos hblocked]
      rw [hstep]
      exact ⟨readL, .inl rfl, h⟩
    · generalize hgot : (toLeft.take (count + 1)).take kDefaultMaxFrame = got
      have hstep : NegotiatingPair.stepLeft ⟨⟨l.withBuffer readL, .reading, false⟩, right, toLeft, toRight⟩
          (.recv count) = ⟨NegotiatingPeer.read ⟨l.withBuffer readL, .reading, false⟩ (.ok got), right,
            toLeft.drop got.length, toRight⟩ := by
        simp only [NegotiatingPair.stepLeft, if_neg hblocked, hgot]
      have hheard : toLeft = got ++ toLeft.drop got.length := by
        have htake : got <+: toLeft := by
          rw [← hgot]
          exact (List.take_prefix _ _).trans (List.take_prefix _ _)
        obtain ⟨rest, hrest⟩ := htake
        rw [← hrest, List.drop_left]
      rw [hstep]
      by_cases hnone : toLeft = []
      · subst hnone
        have hexited : right.exited = true := by simpa using hblocked
        obtain rfl : got = [] := by rw [← hgot]; simp
        have hopeless := h.hopeless_of_exited hl hmore rfl hexited
        refine ⟨readL, .inr ?_, .failed hopeless, h.right, h.toLeft, h.toRight⟩
        simp [NegotiatingPair.work, NegotiatingPeer.work, NegotiatingPeer.read, NegotiatingPeer.unsent]
      · have hne : got ≠ [] := by
          rw [← hgot]
          simp [kDefaultMaxFrame, hnone]
        have hpos := List.length_pos_iff.mpr hne
        have hbytes := h.toLeft
        dsimp only at hbytes
        rw [hheard] at hbytes
        have hsplit : hearsL = readL ++ got ++ (toLeft.drop got.length ++ unsentR) := by
          rw [hbytes]
          simp only [List.append_assoc]
        obtain ⟨readL', peer, hread, hstands, hunsent, hrest⟩ := hl.reads hsplit hne
        rw [hread]
        refine ⟨readL', .inr ?_, hstands, h.right, by rw [hrest, List.append_assoc], h.toRight⟩
        have hlength := congrArg List.length hheard
        have hwork := peer.work_le hunsent
        have hbefore : NegotiatingPeer.work ⟨l.withBuffer readL, .reading, false⟩ = 2 := rfl
        rw [List.length_append] at hlength
        unfold NegotiatingPair.work
        dsimp only
        omega

theorem Negotiating.exit (h : Negotiating l r hearsL hearsR hopeless p readL unsentL readR unsentR) :
    Moved p (p.stepLeft .exit) ∧
      Negotiating l r hearsL hearsR hopeless (p.stepLeft .exit) readL unsentL readR unsentR := by
  obtain ⟨left, right, toLeft, toRight⟩ := p
  have hleft := h.left
  dsimp only at hleft
  cases hleft with
  | writing | reading => exact ⟨.inl rfl, h⟩
  | returned hreceive => exact ⟨(NegotiatingPair.exits rfl).2, .returned hreceive, h.right, h.toLeft, h.toRight⟩
  | failed hopeless => exact ⟨(NegotiatingPair.exits rfl).2, .failed hopeless, h.right, h.toLeft, h.toRight⟩

theorem Negotiating.stepLeft (hl : Hears l hearsL hopeless)
    (h : Negotiating l r hearsL hearsR hopeless p readL unsentL readR unsentR) {move : SocketMove}
    (hclean : move.Clean) : ∃ readL' unsentL', Moved p (p.stepLeft move) ∧
      Negotiating l r hearsL hearsR hopeless (p.stepLeft move) readL' unsentL' readR unsentR := by
  cases move with
  | send outcome =>
    obtain ⟨unsentL', hboth⟩ := h.send hl hclean
    exact ⟨readL, unsentL', hboth⟩
  | recv count =>
    obtain ⟨readL', hboth⟩ := h.recv hl count
    exact ⟨readL', unsentL, hboth⟩
  | recvBroken => exact absurd hclean id
  | exit => exact ⟨readL, unsentL, h.exit⟩

theorem NegotiatingPair.work_swap (p : NegotiatingPair) : p.swap.work = p.work := by
  unfold work swap
  dsimp only
  omega

/-- Every clean move, of either side, keeps the bytes in order and does not go on for ever. -/
theorem Negotiating.step (hl : Hears l hearsL hopeless) (hr : Hears r hearsR hopeless)
    (h : Negotiating l r hearsL hearsR hopeless p readL unsentL readR unsentR) (side : SocketEnd)
    {move : SocketMove} (hclean : move.Clean) : Moved p (p.step (side, move)) ∧
      ∃ readL' unsentL' readR' unsentR', Negotiating l r hearsL hearsR hopeless (p.step (side, move))
        readL' unsentL' readR' unsentR' := by
  cases side with
  | left =>
    obtain ⟨readL', unsentL', hmoved, hnext⟩ := h.stepLeft hl hclean
    exact ⟨hmoved, _, _, _, _, hnext⟩
  | right =>
    obtain ⟨readR', unsentR', hmoved, hnext⟩ := h.swap.stepLeft hr hclean
    refine ⟨?_, _, _, _, _, hnext.swap⟩
    rcases hmoved with hsame | hless
    · exact .inl (congrArg NegotiatingPair.swap hsame)
    · refine .inr ?_
      rw [NegotiatingPair.work_swap] at hless
      change (p.swap.stepLeft move).swap.work < _
      rw [NegotiatingPair.work_swap]
      exact hless

/-- Where there is hope, a process that can no longer move has returned, or waits for one that can write. -/
theorem Negotiating.stuck_left (hhope : ¬ hopeless) (hl : Hears l hearsL hopeless)
    (h : Negotiating l r hearsL hearsR hopeless p readL unsentL readR unsentR)
    (hstuck : ∀ move : SocketMove, move.Clean → p.stepLeft move = p) :
    unsentL = [] ∧ (p.left.phase = .returned (.ok ()) ∨ unsentR ≠ []) := by
  obtain ⟨left, right, toLeft, toRight⟩ := p
  have hleft := h.left
  dsimp only at hleft
  cases hleft with
  | failed hopeless => exact absurd hopeless hhope
  | returned => exact ⟨rfl, .inl rfl⟩
  | @writing _ hne =>
    -- a `send` of one byte would change what is in flight
    have hone := congrArg NegotiatingPair.toRight (hstuck (.send (.took 1)) (.inr rfl))
    obtain ⟨byte, rest, rfl⟩ := List.exists_cons_of_ne_nil hne
    simp [NegotiatingPair.stepLeft, NegotiatingPeer.send, sendSome] at hone
  | @reading _ hmore =>
    refine ⟨rfl, .inr fun hnone => ?_⟩
    have hbytes := h.toLeft
    dsimp only at hbytes
    rw [hnone, List.append_nil] at hbytes
    by_cases hflight : toLeft = []
    · rw [hflight] at hbytes
      rcases hl.pieces readL [] hbytes with ⟨hne, _⟩ | ⟨_, _, _, hopeless⟩ | ⟨_, e', hok, hactive⟩
      · exact hne rfl
      · exact hhope hopeless
      · rw [receive_needMore hl.buffer hmore] at hok
        cases hok
        have hwaits : (l.withBuffer readL).state = .negotiating := hl.negotiating
        rw [hwaits] at hactive
        cases hactive
    · have hone := congrArg NegotiatingPair.toLeft (hstuck (.recv 0) trivial)
      obtain ⟨byte, rest, rfl⟩ := List.exists_cons_of_ne_nil hflight
      simp [NegotiatingPair.stepLeft, kDefaultMaxFrame] at hone

theorem Negotiating.settled (hhope : ¬ hopeless) (hl : Hears l hearsL hopeless)
    (hr : Hears r hearsR hopeless)
    (h : Negotiating l r hearsL hearsR hopeless p readL unsentL readR unsentR) (hstuck : p.Settled) :
    p.left.phase = .returned (.ok ()) ∧ p.right.phase = .returned (.ok ()) := by
  obtain ⟨hunsentL, hleft⟩ := h.stuck_left hhope hl fun move hclean => hstuck .left move hclean
  obtain ⟨hunsentR, hright⟩ := h.swap.stuck_left hhope hr fun move hclean =>
    congrArg NegotiatingPair.swap (hstuck .right move hclean)
  exact ⟨hleft.resolve_right fun hne => hne hunsentR, hright.resolve_right fun hne => hne hunsentL⟩

/-- Where there is hope, a process returns only with what it would have received at once. -/
theorem Negotiating.returns_left (hhope : ¬ hopeless)
    (h : Negotiating l r hearsL hearsR hopeless p readL unsentL readR unsentR) {e' : ConnectionEngine}
    {out : List Bytes} (hreceive : l.receive hearsL false = (.ok out, e')) : p.left.ReturnsOnly e' := by
  intro result hphase
  have hleft := h.left
  generalize p.left = left at hleft hphase
  cases hleft with
  | writing | reading => cases hphase
  | failed hopeless => exact absurd hopeless hhope
  | returned hok =>
    rw [hok] at hreceive
    cases hphase
    cases hreceive
    exact ⟨rfl, rfl⟩

end LeftMoves

/-- Two engines that have started hear each other's HELLO. -/
theorem started_hear {a b l r : ConnectionEngine} {toA toB : List Bytes} (ha : Fresh a) (hb : Fresh b)
    (hstartA : a.start = (.ok toB, l)) (hstartB : b.start = (.ok toA, r)) : ∃ helloA helloB,
      toB = [helloA] ∧ toA = [helloB] ∧ Hears l helloB (helloExchange a b = none) ∧
      Hears r helloA (helloExchange a b = none) := by
  obtain ⟨_, helloA, _, hencodeA, rfl, _, _, hunusedA, _⟩ := ha.unused.started hstartA
  obtain ⟨_, helloB, _, hencodeB, rfl, _, _, hunusedB, _⟩ := hb.unused.started hstartB
  refine ⟨helloA, helloB, rfl, rfl,
    hunusedA.hears (start_negotiating hstartA) hb.unused.codec hencodeB fun error e' hfails => ?_,
    hunusedB.hears (start_negotiating hstartB) ha.unused.codec hencodeA fun error e' hfails => ?_⟩
  · unfold helloExchange
    simp only [hstartA, hstartB, List.flatten_singleton, hfails]
  · unfold helloExchange
    simp only [hstartA, hstartB, List.flatten_singleton, hfails]
    rcases l.receive helloB false with ⟨_ | _, _⟩
    · rfl
    · rfl

theorem begin_negotiating {a b l r : ConnectionEngine} {helloA helloB : Bytes} {hopeless : Prop}
    (hstartA : a.start = (.ok [helloA], l)) (hstartB : b.start = (.ok [helloB], r))
    (hl : Hears l helloB hopeless) (hr : Hears r helloA hopeless) :
    Negotiating l r helloB helloA hopeless (.begin a b) [] helloA [] helloB := by
  have hleft := (proceed_rest hl helloA).1
  have hright := (proceed_rest hr helloB).1
  have hbeginA : NegotiatingPeer.begin a = ⟨l, proceed l [helloA], false⟩ := by
    unfold NegotiatingPeer.begin
    rw [hstartA]
  have hbeginB : NegotiatingPeer.begin b = ⟨r, proceed r [helloB], false⟩ := by
    unfold NegotiatingPeer.begin
    rw [hstartB]
  rw [← hbeginA] at hleft
  rw [← hbeginB] at hright
  exact ⟨hleft, hright, rfl, rfl⟩

/-- The processes of two fresh engines all along a run of clean moves. -/
theorem run_negotiating {l r : ConnectionEngine} {hearsL hearsR : Bytes} {hopeless : Prop}
    (hl : Hears l hearsL hopeless) (hr : Hears r hearsR hopeless) {p : NegotiatingPair}
    {moves : List (SocketEnd × SocketMove)} (hclean : ∀ m ∈ moves, m.2.Clean)
    (h : ∃ readL unsentL readR unsentR,
      Negotiating l r hearsL hearsR hopeless p readL unsentL readR unsentR) :
    ∃ readL unsentL readR unsentR, Negotiating l r hearsL hearsR hopeless
      (run NegotiatingPair.step p moves) readL unsentL readR unsentR := by
  induction moves generalizing p with
  | nil => exact h
  | cons m moves ih =>
    obtain ⟨_, _, _, _, h⟩ := h
    exact ih (fun m' hm' => hclean m' (List.mem_cons_of_mem _ hm'))
      (h.step hl hr m.1 (hclean m List.mem_cons_self)).2

/-- However the kernel cuts what the two processes send and read, and in whatever order their system calls
come back: when the HELLO exchange goes through in two whole chunks, neither process returns an error, each
that returns has the engine of that exchange, no run goes on for ever, and none stops before both have
returned. -/
theorem negotiation_completes {a b a' b' : ConnectionEngine} (ha : Fresh a) (hb : Fresh b)
    (hhello : helloExchange a b = some (a', b')) (moves : List (SocketEnd × SocketMove))
    (hclean : ∀ m ∈ moves, m.2.Clean) :
    let p := run NegotiatingPair.step (.begin a b) moves
    p.left.ReturnsOnly a' ∧ p.right.ReturnsOnly b' ∧
      (∀ side (move : SocketMove), move.Clean → Moved p (p.step (side, move))) ∧
      (p.Settled → p.left.phase = .returned (.ok ()) ∧ p.right.phase = .returned (.ok ())) := by
  intro p
  have hhope : ¬ helloExchange a b = none := by rw [hhello]; simp
  have hexchange := hhello
  unfold helloExchange at hexchange
  rcases hstartA : a.start with ⟨_ | toB, l⟩
  · rw [hstartA] at hexchange
    cases hexchange
  rcases hstartB : b.start with ⟨_ | toA, r⟩
  · rw [hstartA, hstartB] at hexchange
    cases hexchange
  obtain ⟨helloA, helloB, rfl, rfl, hl, hr⟩ := started_hear ha hb hstartA hstartB
  obtain ⟨_, _, _, _, h⟩ := run_negotiating hl hr hclean ⟨_, _, _, _, begin_negotiating hstartA hstartB hl hr⟩
  rw [hstartA, hstartB] at hexchange
  dsimp only at hexchange
  rw [List.flatten_singleton, List.flatten_singleton] at hexchange
  rcases hreceiveA : l.receive helloB false with ⟨_ | outA, endA⟩
  · rw [hreceiveA] at hexchange
    cases hexchange
  rcases hreceiveB : r.receive helloA false with ⟨_ | outB, endB⟩
  · rw [hreceiveA, hreceiveB] at hexchange
    cases hexchange
  rw [hreceiveA, hreceiveB] at hexchange
  cases hexchange
  exact ⟨h.returns_left hhope hreceiveA, h.swap.returns_left hhope hreceiveB,
    fun side move hmove => (h.step hl hr side hmove).1, h.settled hhope hl hr⟩

/-- Two processes in which both calls return, with a HELLO in two pieces and another cut by a signal. -/
def cutMoves : List (SocketEnd × SocketMove) :=
  [(.left, .send (.took 7)), (.right, .send (.took 999)), (.left, .send .interrupted),
    (.right, .recv 3), (.left, .send (.took 999)), (.right, .recv 999), (.right, .exit), (.left, .recv 999)]

theorem cutMoves_clean : ∀ m ∈ cutMoves, m.2.Clean := by
  simp [cutMoves, SocketMove.Clean, SendOutcome.Harmless, SendOutcome.isTaking]

theorem negotiation_completes_cut : ∃ a' b', helloExchange echoEngine echoEngine = some (a', b') ∧
    (run NegotiatingPair.step (.begin echoEngine echoEngine) cutMoves).left.ReturnsOnly a' ∧
    (run NegotiatingPair.step (.begin echoEngine echoEngine) cutMoves).right.ReturnsOnly b' := by
  obtain ⟨a', b', hhello, _⟩ := @exchanged_of_any echoEngine echoEngine (fun _ _ => True) _ (by decide +kernel)
  have hall := negotiation_completes echoEngine_fresh echoEngine_fresh hhello cutMoves cutMoves_clean
  exact ⟨a', b', hhello, hall.1, hall.2.1⟩

def NegotiationPhase.succeeded : NegotiationPhase → Bool
  | .returned (.ok _) => true
  | _ => false

theorem NegotiationPhase.succeeded_iff {phase : NegotiationPhase} :
    phase.succeeded = true ↔ phase = .returned (.ok ()) := by
  rcases phase with _ | _ | (_ | ⟨⟩) <;> simp [succeeded]

theorem NegotiatingPair.stepLeft_right (p : NegotiatingPair) (move : SocketMove) :
    (p.stepLeft move).right = p.right := by
  unfold stepLeft
  repeat' split
  all_goals rfl

/-- A process that has returned does not change any more. -/
theorem NegotiatingPair.stepLeft_returned {p : NegotiatingPair} {result : Except Error Unit}
    (h : p.left.phase = .returned result) (move : SocketMove) :
    (p.stepLeft move).left.phase = .returned result := by
  cases move with
  | send outcome => rw [stepLeft_idle (by simp [h])]; exact h
  | recv | recvBroken => simp only [stepLeft, h]
  | exit => rw [(exits h).1]; exact h

theorem NegotiatingPair.run_returned {p : NegotiatingPair} {result : Except Error Unit}
    (moves : List (SocketEnd × SocketMove)) :
    (p.left.phase = .returned result → (run step p moves).left.phase = .returned result) ∧
      (p.right.phase = .returned result → (run step p moves).right.phase = .returned result) := by
  refine ⟨run_induction (I := fun p : NegotiatingPair => p.left.phase = .returned result) ?_ moves,
    run_induction (I := fun p : NegotiatingPair => p.right.phase = .returned result) ?_ moves⟩
  · rintro p ⟨_ | _, move⟩ h
    · exact stepLeft_returned h move
    · change (p.swap.stepLeft move).right.phase = _
      rw [stepLeft_right]
      exact h
  · rintro p ⟨_ | _, move⟩ h
    · change (p.stepLeft move).right.phase = _
      rw [stepLeft_right]
      exact h
    · exact stepLeft_returned (p := p.swap) h move

theorem begin_failed {e e' : ConnectionEngine} {error : Error} (h : e.start = (.error error, e')) :
    (NegotiatingPeer.begin e).phase = .returned (.error error) := by
  unfold NegotiatingPeer.begin
  rw [h]

/-- The other way round: two processes that both return success, after whatever system calls, have the
engines that they would have had after two whole chunks. -/
theorem negotiation_agrees {a b : ConnectionEngine} (ha : Fresh a) (hb : Fresh b)
    (moves : List (SocketEnd × SocketMove)) (hclean : ∀ m ∈ moves, m.2.Clean)
    (hleft : (run NegotiatingPair.step (.begin a b) moves).left.phase = .returned (.ok ()))
    (hright : (run NegotiatingPair.step (.begin a b) moves).right.phase = .returned (.ok ())) :
    helloExchange a b = some ((run NegotiatingPair.step (.begin a b) moves).left.engine,
      (run NegotiatingPair.step (.begin a b) moves).right.engine) := by
  rcases hstartA : a.start with ⟨error | toB, l⟩
  · have hstays := (NegotiatingPair.run_returned (p := .begin a b) moves).1 (begin_failed hstartA)
    rw [hleft] at hstays
    cases hstays
  rcases hstartB : b.start with ⟨error | toA, r⟩
  · have hstays := (NegotiatingPair.run_returned (p := .begin a b) moves).2 (begin_failed hstartB)
    rw [hright] at hstays
    cases hstays
  obtain ⟨helloA, helloB, rfl, rfl, hl, hr⟩ := started_hear ha hb hstartA hstartB
  obtain ⟨_, _, _, _, h⟩ :=
    run_negotiating hl hr hclean ⟨_, _, _, _, begin_negotiating hstartA hstartB hl hr⟩
  have hstandsL := h.left
  have hstandsR := h.right
  unfold helloExchange
  simp only [hstartA, hstartB, List.flatten_singleton]
  generalize (run NegotiatingPair.step (.begin a b) moves).left = left at hleft hstandsL
  generalize (run NegotiatingPair.step (.begin a b) moves).right = right at hright hstandsR
  cases hstandsL with
  | writing | reading | failed => cases hleft
  | returned hreceiveL =>
    cases hstandsR with
    | writing | reading | failed => cases hright
    | returned hreceiveR => rw [hreceiveL, hreceiveR]

theorem negotiation_agrees_cut : helloExchange echoEngine echoEngine =
    some ((run NegotiatingPair.step (.begin echoEngine echoEngine) cutMoves).left.engine,
      (run NegotiatingPair.step (.begin echoEngine echoEngine) cutMoves).right.engine) :=
  negotiation_agrees echoEngine_fresh echoEngine_fresh cutMoves cutMoves_clean
    (NegotiationPhase.succeeded_iff.mp (by decide +kernel))
    (NegotiationPhase.succeeded_iff.mp (by decide +kernel))

end LatticeGateway

import LatticeGateway.Types

namespace LatticeGateway

def kDefaultMaxFrame : Nat := 64 * 1024

def transportError (detail : String) : Error :=
  makeError .transport .transportError .closeConnection detail

/-- How a `send` of the kernel ends: a signal comes first, it fails, or it takes `n` bytes, if it is
offered as many. -/
inductive SendOutcome
  | interrupted
  | failed (reason : String)
  | took (n : Nat)
  deriving DecidableEq, Repr

inductive RecvOutcome
  | interrupted
  | failed (reason : String)
  | got (bytes : Bytes)
  deriving DecidableEq, Repr

/-- Why a function has not returned success: its error, a `send` that has not come back, or a value asked
of an empty optional. -/
inductive Halt
  | error (error : Error)
  | waiting
  | badOptional
  deriving DecidableEq, Repr

/-- A transport, with how its next `send`s end and what they have taken so far. -/
structure UnixTransport where
  fd : Int := -1
  outcomes : List SendOutcome := []
  taken : Bytes := []
  deriving DecidableEq, Repr

/-- What a round of the loop of `write` gets rid of. -/
def sendSome (rest : Bytes) : SendOutcome → Except Error Bytes
  | .interrupted => .ok []
  | .failed reason => .error (transportError ("send failed: " ++ reason))
  | .took n => if n = 0 then .error (transportError "send returned zero bytes") else .ok (rest.take n)

def recvSome (maxBytes : Nat) : RecvOutcome → Except Error Bytes
  | .interrupted => .ok []
  | .failed reason => .error (transportError ("recv failed: " ++ reason))
  | .got bytes => .ok (bytes.take maxBytes)

namespace UnixTransport

/-- The loop of `write`, once `sent` bytes are gone. -/
def writeLoop (fd : Int) (bytes : Bytes) :
    List SendOutcome → Nat → Bytes → Except Halt Unit × UnixTransport
  | [], sent, taken =>
    if sent < bytes.length then (.error .waiting, { fd, taken }) else (.ok (), { fd, taken })
  | outcome :: outcomes, sent, taken =>
    if sent < bytes.length then
      match sendSome (bytes.drop sent) outcome with
      | .error error => (.error (.error error), { fd, outcomes, taken })
      | .ok chunk => writeLoop fd bytes outcomes (sent + chunk.length) (taken ++ chunk)
    else (.ok (), { fd, outcomes := outcome :: outcomes, taken })

def write (t : UnixTransport) (bytes : Bytes) : Except Halt Unit × UnixTransport :=
  if t.fd < 0 then (.error (.error (transportError "write on closed Unix transport")), t)
  else writeLoop t.fd bytes t.outcomes 0 t.taken

def readSome (t : UnixTransport) (maxBytes : Nat) (outcome : RecvOutcome) : Except Error Bytes :=
  if t.fd < 0 then .error (transportError "read on closed Unix transport") else recvSome maxBytes outcome

def writeAll (t : UnixTransport) : List Bytes → Except Halt Unit × UnixTransport
  | [] => (.ok (), t)
  | chunk :: chunks =>
    match t.write chunk with
    | (.error halt, t) => (.error halt, t)
    | (.ok _, t) => t.writeAll chunks

end UnixTransport

/-- A `send` that takes something of what it is offered. -/
def SendOutcome.isTaking : SendOutcome → Bool
  | .took n => n != 0
  | _ => false

/-- A `send` that does not end the write with an error. -/
def SendOutcome.Harmless (outcome : SendOutcome) : Prop :=
  outcome = .interrupted ∨ outcome.isTaking = true

theorem sendSome_ok {rest chunk : Bytes} {outcome : SendOutcome} (h : sendSome rest outcome = .ok chunk) :
    (∃ later, rest = chunk ++ later) ∧ (outcome.isTaking = true → rest ≠ [] → chunk ≠ []) := by
  cases outcome with
  | interrupted =>
    cases h
    exact ⟨⟨rest, rfl⟩, by simp [SendOutcome.isTaking]⟩
  | failed reason => cases h
  | took n =>
    change (if n = 0 then _ else _) = _ at h
    by_cases hzero : n = 0
    · rw [if_pos hzero] at h
      cases h
    · rw [if_neg hzero] at h
      cases h
      exact ⟨⟨rest.drop n, (List.take_append_drop n rest).symm⟩, fun _ hrest => by simp [hzero, hrest]⟩

/-- Whether a `send` fails does not depend on what it is offered. -/
theorem sendSome_error {rest : Bytes} {outcome : SendOutcome} {error : Error}
    (h : sendSome rest outcome = .error error) (offered : Bytes) : sendSome offered outcome = .error error := by
  cases outcome with
  | interrupted => cases h
  | failed reason => exact h
  | took n =>
    unfold sendSome at h ⊢
    dsimp only at h ⊢
    by_cases hzero : n = 0
    · rw [if_pos hzero] at h ⊢
      exact h
    · rw [if_neg hzero] at h
      cases h

theorem SendOutcome.Harmless.sends {outcome : SendOutcome} (h : outcome.Harmless) (rest : Bytes) :
    ∃ chunk, sendSome rest outcome = .ok chunk := by
  rcases h with rfl | htaking
  · exact ⟨[], rfl⟩
  · cases outcome with
    | took n => exact ⟨rest.take n, if_neg (by simpa [SendOutcome.isTaking] using htaking)⟩
    | _ => cases htaking

/-- What a write of some bytes does: `done` of them go out, in order, and `rest` does not, for which one of
the `used` outcomes is to blame, or the next, which is not there yet. -/
structure Wrote (t : UnixTransport) (bytes : Bytes) (result : Except Halt Unit) (t' : UnixTransport)
    (used : List SendOutcome) (done rest : Bytes) : Prop where
  fd : t'.fd = t.fd
  outcomes : t.outcomes = used ++ t'.outcomes
  bytes_eq : bytes = done ++ rest
  taken : t'.taken = t.taken ++ done
  progress : used.countP (·.isTaking) ≤ done.length
  ok : result = .ok () ↔ rest = []
  waiting : result = .error .waiting → t'.outcomes = []
  failed : ∀ error, result = .error (.error error) →
    ∃ before outcome, used = before ++ [outcome] ∧ ∀ offered, sendSome offered outcome = .error error
  optional : result ≠ .error .badOptional

theorem Wrote.nothing (t : UnixTransport) : Wrote t [] (.ok ()) t [] [] [] :=
  ⟨rfl, rfl, rfl, (List.append_nil _).symm, Nat.le_refl _, by simp, by simp, by simp, by simp⟩

theorem Wrote.append {t t' t'' : UnixTransport} {bytes more : Bytes} {result : Except Halt Unit}
    {used used' : List SendOutcome} {done done' rest' : Bytes} (h : Wrote t bytes (.ok ()) t' used done [])
    (h' : Wrote t' more result t'' used' done' rest') :
    Wrote t (bytes ++ more) result t'' (used ++ used') (done ++ done') rest' where
  fd := h'.fd.trans h.fd
  outcomes := by rw [h.outcomes, h'.outcomes, List.append_assoc]
  bytes_eq := by rw [h.bytes_eq, h'.bytes_eq, List.append_nil, List.append_assoc]
  taken := by rw [h'.taken, h.taken, List.append_assoc]
  progress := by
    have hfirst := h.progress
    have hsecond := h'.progress
    rw [List.countP_append, List.length_append]
    omega
  ok := h'.ok
  waiting := h'.waiting
  failed error herror := by
    obtain ⟨before, outcome, hlast, hfailed⟩ := h'.failed error herror
    exact ⟨used ++ before, outcome, by rw [hlast, List.append_assoc], hfailed⟩
  optional := h'.optional

/-- What stops a write keeps back what was to follow. -/
theorem Wrote.stopped {t t' : UnixTransport} {bytes : Bytes} {halt : Halt} {used : List SendOutcome}
    {done rest : Bytes} (h : Wrote t bytes (.error halt) t' used done rest) (more : Bytes) :
    Wrote t (bytes ++ more) (.error halt) t' used done (rest ++ more) where
  fd := h.fd
  outcomes := h.outcomes
  bytes_eq := by rw [h.bytes_eq, List.append_assoc]
  taken := h.taken
  progress := h.progress
  ok := by
    have hrest : rest ≠ [] := fun hnil => by cases h.ok.mpr hnil
    simp [hrest]
  waiting := h.waiting
  failed := h.failed
  optional := h.optional

/-- A round of the loop in front of the others. -/
theorem Wrote.round {fd : Int} {outcome : SendOutcome} {outcomes used : List SendOutcome}
    {taken bytes chunk done rest : Bytes} {result : Except Halt Unit} {t' : UnixTransport}
    (htaking : outcome.isTaking = true → chunk ≠ [])
    (h : Wrote { fd, outcomes, taken := taken ++ chunk } bytes result t' used done rest) :
    Wrote { fd, outcomes := outcome :: outcomes, taken } (chunk ++ bytes) result t' (outcome :: used)
      (chunk ++ done) rest where
  fd := h.fd
  outcomes := by rw [List.cons_append, ← h.outcomes]
  bytes_eq := by rw [h.bytes_eq, List.append_assoc]
  taken := by rw [h.taken, List.append_assoc]
  progress := by
    have hprogress := h.progress
    rw [List.countP_cons, List.length_append]
    split
    next htakes =>
      have hpos := List.length_pos_iff.mpr (htaking htakes)
      omega
    next => omega
  ok := h.ok
  waiting := h.waiting
  failed error herror := by
    obtain ⟨before, last, hlast, hfailed⟩ := h.failed error herror
    exact ⟨outcome :: before, last, by rw [hlast, List.cons_append], hfailed⟩
  optional := h.optional

namespace UnixTransport

theorem writeLoop_wrote (fd : Int) (bytes : Bytes) (outcomes : List SendOutcome) {sent : Nat}
    (hsent : sent ≤ bytes.length) (taken : Bytes) : ∃ used done rest,
    Wrote { fd, outcomes, taken } (bytes.drop sent) (writeLoop fd bytes outcomes sent taken).1
      (writeLoop fd bytes outcomes sent taken).2 used done rest := by
  induction outcomes generalizing sent taken with
  | nil =>
    unfold writeLoop
    split
    next hlt =>
      exact ⟨[], [], bytes.drop sent, rfl, rfl, rfl, (List.append_nil _).symm, Nat.le_refl _,
        by simpa using hlt, fun _ => rfl, by simp, by simp⟩
    next hge =>
      rw [List.drop_eq_nil_of_le (by omega)]
      exact ⟨[], [], [], .nothing _⟩
  | cons outcome outcomes ih =>
    unfold writeLoop
    split
    next hlt =>
      have hrest : bytes.drop sent ≠ [] := by simpa using hlt
      cases hround : sendSome (bytes.drop sent) outcome with
      | error error =>
        have hharm : ¬ outcome.Harmless := fun h => by
          obtain ⟨chunk, hok⟩ := h.sends (bytes.drop sent)
          rw [hround] at hok
          cases hok
        have hidle : ¬ outcome.isTaking = true := fun h => hharm (.inr h)
        refine ⟨[outcome], [], bytes.drop sent, rfl, rfl, rfl, (List.append_nil _).symm, by simp [hidle],
          by simpa using hlt, by simp, fun error' herror => ⟨[], outcome, rfl, fun offered => ?_⟩, by simp⟩
        cases herror
        exact sendSome_error hround offered
      | ok chunk =>
        obtain ⟨⟨later, hlater⟩, htaking⟩ := sendSome_ok hround
        have hlength := congrArg List.length hlater
        rw [List.length_drop, List.length_append] at hlength
        have hdrop : bytes.drop (sent + chunk.length) = later := by
          rw [← List.drop_drop, hlater, List.drop_left]
        have hsent : sent + chunk.length ≤ bytes.length := by omega
        obtain ⟨used, done, rest, h⟩ := ih hsent (taken ++ chunk)
        rw [hdrop] at h
        rw [hlater]
        exact ⟨_, _, _, h.round fun htakes => htaking htakes hrest⟩
    next hge =>
      rw [List.drop_eq_nil_of_le (by omega)]
      exact ⟨[], [], [], .nothing _⟩

theorem write_wrote {t : UnixTransport} (hopen : 0 ≤ t.fd) (bytes : Bytes) : ∃ used done rest,
    Wrote t bytes (t.write bytes).1 (t.write bytes).2 used done rest := by
  unfold write
  rw [if_neg (by omega)]
  exact writeLoop_wrote t.fd bytes t.outcomes (Nat.zero_le _) t.taken

theorem writeAll_wrote {t : UnixTransport} (hopen : 0 ≤ t.fd) (chunks : List Bytes) : ∃ used done rest,
    Wrote t chunks.flatten (t.writeAll chunks).1 (t.writeAll chunks).2 used done rest := by
  induction chunks generalizing t with
  | nil => exact ⟨[], [], [], .nothing t⟩
  | cons chunk chunks ih =>
    obtain ⟨used, done, rest, hwrite⟩ := write_wrote hopen chunk
    rw [List.flatten_cons]
    unfold writeAll
    rcases hresult : t.write chunk with ⟨halt | ⟨⟩, t'⟩
    · rw [hresult] at hwrite
      exact ⟨used, done, _, hwrite.stopped _⟩
    · rw [hresult] at hwrite
      obtain rfl := hwrite.ok.mp rfl
      obtain ⟨used', done', rest', hmore⟩ := ih (t := t') (by rw [hwrite.fd]; exact hopen)
      exact ⟨_, _, _, hwrite.append hmore⟩

/-- However the kernel cuts, interrupts or breaks off its `send`s, what it takes of the chunks is a first
part of them, and all of them exactly when `write_all` succeeds, as it does once as many harmless `send`s
have taken something as there are bytes; and an error is that of the last `send` it has made. -/
theorem write_all_in_order (t : UnixTransport) (hopen : 0 ≤ t.fd) (chunks : List Bytes) :
    ∃ done rest, chunks.flatten = done ++ rest ∧ (t.writeAll chunks).2.taken = t.taken ++ done ∧
      ((t.writeAll chunks).1 = .ok () ↔ rest = []) ∧
      ((∀ outcome ∈ t.outcomes, outcome.Harmless) →
        chunks.flatten.length ≤ t.outcomes.countP (·.isTaking) → (t.writeAll chunks).1 = .ok ()) ∧
      ∀ error, (t.writeAll chunks).1 = .error (.error error) → ∃ before outcome,
        t.outcomes = before ++ outcome :: (t.writeAll chunks).2.outcomes ∧
          ∀ offered, sendSome offered outcome = .error error := by
  obtain ⟨used, done, rest, h⟩ := writeAll_wrote hopen chunks
  refine ⟨done, rest, h.bytes_eq, h.taken, h.ok, fun hharmless henough => ?_, fun error herror => ?_⟩
  rcases hresult : (t.writeAll chunks).1 with halt | ⟨⟩
  · rw [hresult] at h
    have hrest : rest ≠ [] := fun hnil => by cases h.ok.mpr hnil
    cases halt with
    | badOptional => exact absurd rfl h.optional
    | error error =>
      obtain ⟨before, outcome, rfl, hfailed⟩ := h.failed error rfl
      obtain ⟨chunk, hsends⟩ := (hharmless outcome (by rw [h.outcomes]; simp)).sends []
      rw [hfailed] at hsends
      cases hsends
    | waiting =>
      have hall := h.outcomes
      rw [h.waiting rfl, List.append_nil] at hall
      have hprogress := h.progress
      have hpos := List.length_pos_iff.mpr hrest
      rw [hall, h.bytes_eq, List.length_append] at henough
      omega
  · rfl
  · obtain ⟨before, outcome, rfl, hfailed⟩ := h.failed error herror
    exact ⟨before, outcome, by rw [h.outcomes, List.append_assoc]; rfl, hfailed⟩

/-- Two chunks in three `send`s, with a signal in between. -/
theorem write_all_in_order_three : ∃ done rest, ([[1, 2, 3], [4]] : List Bytes).flatten = done ++ rest ∧
    (writeAll ⟨3, [.took 2, .interrupted, .took 9, .took 1], []⟩ [[1, 2, 3], [4]]).2.taken = [] ++ done ∧
    rest = [] := by
  obtain ⟨done, rest, hsplit, htaken, hok, _⟩ :=
    write_all_in_order ⟨3, [.took 2, .interrupted, .took 9, .took 1], []⟩ (by decide) [[1, 2, 3], [4]]
  exact ⟨done, rest, hsplit, htaken, hok.mp (by decide)⟩

end UnixTransport

end LatticeGateway

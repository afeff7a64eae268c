import Mathlib.Data.List.Basic
import Mathlib.Logic.Function.Basic

namespace BlockStream

/-- Blocks that carry bytes which can be cut. -/
structure Payload (α β : Type*) where
  bytes : α → List β
  withBytes : α → List β → α
  bytes_withBytes : ∀ a bs, bytes (withBytes a bs) = bs
  withBytes_bytes : ∀ a, withBytes a (bytes a) = a
  withBytes_withBytes : ∀ a bs cs, withBytes (withBytes a bs) cs = withBytes a cs

variable {α β κ : Type*} [DecidableEq κ] (P : Payload α β)

/-- `Orderly P p q out q' p'`: the chunks `out` are taken off the queues `q` and leave `q'`, where
`p` and `p'` name the queue whose first block is part-sent. No other queue is served before it. -/
inductive Orderly : Option κ → (κ → List α) → List α → (κ → List α) → Option κ → Prop
  | done (p q) : Orderly p q [] q p
  | whole {p q k a rest out q' p'} : (∀ j ∈ p, j = k) → q k = a :: rest →
      Orderly none (Function.update q k rest) out q' p' → Orderly p q (a :: out) q' p'
  | part {p q k a rest n out q' p'} : (∀ j ∈ p, j = k) → q k = a :: rest → 0 < n →
      n < (P.bytes a).length →
      Orderly (some k) (Function.update q k (P.withBytes a ((P.bytes a).drop n) :: rest)) out q' p' →
      Orderly p q (P.withBytes a ((P.bytes a).take n) :: out) q' p'

/-- The chunks `cs` are pieces of the block `a`, with the bytes `bs` between them. -/
def Pieces (a : α) (cs : List α) (bs : List β) : Prop :=
  ∃ parts : List (List β), cs = parts.map (P.withBytes a) ∧ parts.flatten = bs

/-- The chunks are all the pieces of one block after another. -/
inductive Whole : List α → List α → Prop
  | nil : Whole [] []
  | concat {blocks chunks a cs} : Whole blocks chunks → Pieces P a cs (P.bytes a) →
      Whole (blocks ++ [a]) (chunks ++ cs)

/-- Behind whole blocks, the chunks hold at most a proper prefix of one more block. -/
def Contiguous (sent : List α) (last : Option α) (chunks : List α) : Prop :=
  ∃ done cs, chunks = done ++ cs ∧ Whole P sent done ∧
    match last with
    | none => cs = []
    | some a => ∃ bs rest, Pieces P a cs bs ∧ bs ++ rest = P.bytes a ∧ rest ≠ []

variable {P}

theorem Orderly.trans {p p' p'' : Option κ} {q q' q'' : κ → List α} {out out' : List α}
    (h : Orderly P p q out q' p') (h' : Orderly P p' q' out' q'' p'') :
    Orderly P p q (out ++ out') q'' p'' := by
  induction h with
  | done => exact h'
  | whole hp hq _ ih => exact .whole hp hq (ih h')
  | part hp hq hpos hlt _ ih => exact .part hp hq hpos hlt (ih h')

theorem Orderly.of_eq {q q' : κ → List α} (h : q' = q) (p : Option κ) : Orderly P p q [] q' p := by
  subst h
  exact .done p q'

/-- Queue by queue, the bytes taken and the bytes left are the bytes that were queued. -/
theorem Orderly.bytes {key : α → κ} (hkey : ∀ a bs, key (P.withBytes a bs) = key a)
    {p p' : Option κ} {q q' : κ → List α} {out : List α} (h : Orderly P p q out q' p')
    (hkeyed : ∀ k, ∀ a ∈ q k, key a = k) (k : κ) :
    (q k).flatMap P.bytes =
      (out.filter (fun a => key a = k)).flatMap P.bytes ++ (q' k).flatMap P.bytes := by
  have hupdate : ∀ {q : κ → List α} {j : κ} {queue : List α}, (∀ k, ∀ a ∈ q k, key a = k) →
      (∀ a ∈ queue, key a = j) → ∀ k, ∀ a ∈ Function.update q j queue k, key a = k := by
    intro q j queue hq hqueue k a ha
    by_cases hk : k = j
    · subst hk
      rw [Function.update_self] at ha
      exact hqueue a ha
    · rw [Function.update_of_ne hk] at ha
      exact hq k a ha
  induction h with
  | done => simp
  | @whole p q j a rest out q' p' hp hq _ ih =>
    have hall : ∀ b ∈ a :: rest, key b = j := by
      rw [← hq]
      exact hkeyed j
    have hrest := ih (hupdate hkeyed fun b hb => hall b (List.mem_cons_of_mem _ hb))
    have ha := hall a (by simp)
    by_cases hk : k = j
    · subst hk
      rw [Function.update_self] at hrest
      simp [hq, ha, hrest]
    · rw [Function.update_of_ne hk] at hrest
      rw [hrest, List.filter_cons_of_neg (by simp [ha, Ne.symm hk])]
  | @part p q j a rest n out q' p' hp hq _ _ _ ih =>
    have hall : ∀ b ∈ a :: rest, key b = j := by
      rw [← hq]
      exact hkeyed j
    have ha := hall a (by simp)
    have hqueue : ∀ b ∈ P.withBytes a ((P.bytes a).drop n) :: rest, key b = j := by
      intro b hb
      rcases List.mem_cons.mp hb with rfl | hb
      · rw [hkey, ha]
      · exact hall b (List.mem_cons_of_mem _ hb)
    have hrest := ih (hupdate hkeyed hqueue)
    by_cases hk : k = j
    · subst hk
      rw [Function.update_self] at hrest
      simp only [List.flatMap_cons, P.bytes_withBytes] at hrest
      rw [hq, List.filter_cons_of_pos (by simp [hkey, ha]), List.flatMap_cons, List.flatMap_cons,
        P.bytes_withBytes, List.append_assoc, ← hrest, ← List.append_assoc, List.take_append_drop]
    · rw [Function.update_of_ne hk] at hrest
      rw [hrest, List.filter_cons_of_neg (by simp [hkey, ha, Ne.symm hk])]

theorem Pieces.bytes {a : α} {cs : List α} {bs : List β} (h : Pieces P a cs bs) :
    cs.flatMap P.bytes = bs := by
  obtain ⟨parts, rfl, rfl⟩ := h
  simp [List.flatMap_map, P.bytes_withBytes, List.flatMap_id']

theorem Pieces.concat {a : α} {cs : List α} {bs : List β} (h : Pieces P a cs bs) (part : List β) :
    Pieces P a (cs ++ [P.withBytes a part]) (bs ++ part) := by
  obtain ⟨parts, rfl, rfl⟩ := h
  exact ⟨parts ++ [part], by simp, by simp⟩

theorem Pieces.nil (a : α) : Pieces P a [] [] := ⟨[], rfl, rfl⟩

theorem Whole.bytes {sent done : List α} (h : Whole P sent done) :
    done.flatMap P.bytes = sent.flatMap P.bytes := by
  induction h with
  | nil => rfl
  | concat _ hpieces ih => simp [List.flatMap_append, ih, hpieces.bytes]

/-- As a byte stream: whole blocks, then at most a proper prefix of one. -/
theorem Contiguous.stream {sent chunks : List α} {last : Option α}
    (h : Contiguous P sent last chunks) :
    ∃ bs, chunks.flatMap P.bytes = sent.flatMap P.bytes ++ bs ∧
      match last with
      | none => bs = []
      | some a => bs <+: P.bytes a ∧ bs ≠ P.bytes a := by
  obtain ⟨done, cs, rfl, hwhole, hlast⟩ := h
  refine ⟨cs.flatMap P.bytes, by rw [List.flatMap_append, hwhole.bytes], ?_⟩
  cases last with
  | none => simp [show cs = [] from hlast]
  | some a =>
    obtain ⟨bs, rest, hpieces, hbytes, hne⟩ := hlast
    simp only [hpieces.bytes]
    refine ⟨⟨rest, hbytes⟩, fun he => hne ?_⟩
    rw [he] at hbytes
    simpa using hbytes

/-- The chunks sent so far are contiguous, and with what is queued they account, queue by queue and
in order, for every accepted block. -/
inductive Framed (P : Payload α β) (key : α → κ) (accepted chunks : List α) (q : κ → List α) :
    Option κ → Prop
  | idle {sent} (whole : Whole P sent chunks)
      (account : ∀ k, accepted.filter (fun a => key a = k) =
        sent.filter (fun a => key a = k) ++ q k) : Framed P key accepted chunks q none
  | opened {sent done cs a bs rest k queue} (split : chunks = done ++ cs) (whole : Whole P sent done)
      (pieces : Pieces P a cs bs) (bytes : bs ++ rest = P.bytes a) (rest_ne : rest ≠ [])
      (head : q k = P.withBytes a rest :: queue)
      (account : ∀ j, accepted.filter (fun a => key a = j) =
        sent.filter (fun a => key a = j) ++ Function.update q k (a :: queue) j) :
      Framed P key accepted chunks q (some k)

variable {key : α → κ} {accepted chunks out : List α} {q q' : κ → List α} {p p' : Option κ}

theorem Framed.contiguous (h : Framed P key accepted chunks q p) :
    ∃ sent last, Contiguous P sent last chunks ∧
      ∀ k, (sent ++ last.toList).filter (fun a => key a = k) <+:
        accepted.filter (fun a => key a = k) := by
  cases h with
  | @idle sent whole account =>
    refine ⟨sent, none, ⟨chunks, [], by simp, whole, rfl⟩, fun k => ?_⟩
    rw [account k]
    simp
  | @opened sent done cs a bs rest k queue split whole pieces bytes rest_ne head account =>
    refine ⟨sent, some a, ⟨done, cs, split, whole, bs, rest, pieces, bytes, rest_ne⟩, fun j => ?_⟩
    rw [account j, List.filter_append]
    refine (List.prefix_append_right_inj _).mpr ?_
    have hmem : a ∈ accepted.filter (fun a => key a = k) := by rw [account k]; simp
    have hkey : key a = k := by simpa using (List.mem_filter.mp hmem).2
    by_cases hj : j = k
    · subst hj
      simp [hkey]
    · simp [hkey, Ne.symm hj]

/-- Accepting a block puts it behind the others of its queue. -/
theorem Framed.accept (h : Framed P key accepted chunks q p) (b : α) :
    Framed P key (accepted ++ [b]) chunks (Function.update q (key b) (q (key b) ++ [b])) p := by
  cases h with
  | @idle sent whole account =>
    refine .idle whole fun k => ?_
    rw [List.filter_append, account k]
    by_cases hk : k = key b
    · subst hk; simp
    · simp [hk, Ne.symm hk]
  | @opened sent done cs a bs rest k queue split whole pieces bytes rest_ne head account =>
    by_cases hb : key b = k
    · subst hb
      have hhead : Function.update q (key b) (q (key b) ++ [b]) (key b) =
          P.withBytes a rest :: (queue ++ [b]) := by simp [head]
      refine .opened split whole pieces bytes rest_ne hhead fun j => ?_
      rw [List.filter_append, account j]
      by_cases hj : j = key b
      · subst hj; simp
      · simp [hj, Ne.symm hj]
    · have hhead : Function.update q (key b) (q (key b) ++ [b]) k = P.withBytes a rest :: queue := by
        rw [Function.update_of_ne (Ne.symm hb), head]
      refine .opened split whole pieces bytes rest_ne hhead fun j => ?_
      rw [List.filter_append, account j]
      by_cases hj : j = key b
      · subst hj; simp [hb]
      · by_cases hk : j = k
        · subst hk; simp [hb]
        · simp [hj, hk, Ne.symm hj]

theorem Framed.orderly (h : Framed P key accepted chunks q p) (ho : Orderly P p q out q' p') :
    Framed P key accepted (chunks ++ out) q' p' := by
  induction ho generalizing chunks with
  | done => simpa using h
  | @whole p q k b queue out q' p' hp hq _ ih =>
    have hchunks : chunks ++ b :: out = chunks ++ [b] ++ out := by simp
    rw [hchunks]
    apply ih
    cases h with
    | @idle sent whole account =>
      have hpieces : Pieces P b [b] (P.bytes b) := by
        have := (Pieces.nil (P := P) b).concat (P.bytes b)
        rwa [P.withBytes_bytes] at this
      have hmem : b ∈ accepted.filter (fun a => key a = k) := by rw [account k, hq]; simp
      have hkey : key b = k := by simpa using (List.mem_filter.mp hmem).2
      refine .idle (whole.concat hpieces) fun j => ?_
      rw [account j, List.filter_append]
      by_cases hj : j = k
      · subst hj; simp [hkey, hq]
      · simp [hj, hkey, Ne.symm hj]
    | @opened sent done cs a bs rest j tail split whole pieces bytes rest_ne head account =>
      obtain rfl : j = k := hp j rfl
      rw [head] at hq
      obtain ⟨rfl, rfl⟩ := List.cons.inj hq
      have hmem : a ∈ accepted.filter (fun a => key a = j) := by rw [account j]; simp
      have hkey : key a = j := by simpa using (List.mem_filter.mp hmem).2
      have hpieces := pieces.concat rest
      rw [bytes] at hpieces
      have hwhole := whole.concat hpieces
      rw [← List.append_assoc, ← split] at hwhole
      refine .idle hwhole fun i => ?_
      rw [account i, List.filter_append]
      by_cases hi : i = j
      · subst hi; simp [hkey]
      · simp [hi, hkey, Ne.symm hi]
  | @part p q k b queue n out q' p' hp hq hpos hlt _ ih =>
    have hchunks : chunks ++ P.withBytes b ((P.bytes b).take n) :: out =
        chunks ++ [P.withBytes b ((P.bytes b).take n)] ++ out := by simp
    rw [hchunks]
    apply ih
    have hrest : (P.bytes b).drop n ≠ [] := by
      rw [ne_eq, List.drop_eq_nil_iff]
      omega
    cases h with
    | @idle sent whole account =>
      refine .opened rfl whole ((Pieces.nil b).concat _) (by simp) hrest
        (Function.update_self k _ q) fun j => ?_
      rw [account j, Function.update_idem]
      by_cases hj : j = k
      · subst hj; simp [hq]
      · simp [hj]
    | @opened sent done cs a bs rest j tail split whole pieces bytes rest_ne head account =>
      obtain rfl : j = k := hp j rfl
      rw [head] at hq
      obtain ⟨rfl, rfl⟩ := List.cons.inj hq
      rw [P.bytes_withBytes] at hrest
      have hchunk : chunks ++ [P.withBytes (P.withBytes a rest) (rest.take n)] =
          done ++ (cs ++ [P.withBytes a (rest.take n)]) := by
        rw [split, P.withBytes_withBytes, List.append_assoc]
      have hbytes : bs ++ rest.take n ++ rest.drop n = P.bytes a := by
        rw [List.append_assoc, List.take_append_drop, bytes]
      rw [P.bytes_withBytes, P.withBytes_withBytes a rest (rest.drop n)]
      refine .opened hchunk whole (pieces.concat _) hbytes hrest (Function.update_self j _ q)
        fun i => ?_
      rw [account i, Function.update_idem]

end BlockStream

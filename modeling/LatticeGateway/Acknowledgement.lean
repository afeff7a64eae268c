import LatticeGateway.ReplayHistory

namespace LatticeGateway

open Runs

/-- Well-formed ranges, pairwise disjoint, in any order. -/
structure DisjointRanges (ranges : List AckRange) : Prop where
  valid : ∀ range ∈ ranges, range.first ≤ range.last
  disjoint : ranges.Pairwise fun a b => a.last < b.first ∨ b.last < a.first

theorem DisjointRanges.sorted {ranges : List AckRange} (h : DisjointRanges ranges) :
    (sortRanges ranges).Pairwise fun a b => a.last < b.first := by
  have hperm : (sortRanges ranges).Perm ranges := List.perm_insertionSort _ ranges
  have hle : (sortRanges ranges).Pairwise fun a b => a.first ≤ b.first :=
    List.pairwise_insertionSort _ ranges
  have hdisjoint : (sortRanges ranges).Pairwise fun a b => a.last < b.first ∨ b.last < a.first :=
    (hperm.pairwise_iff fun hab => hab.symm).mpr h.disjoint
  refine (hle.and hdisjoint).imp_of_mem ?_
  intro a b ha hb hboth
  obtain ⟨hfirst, hlt | hlt⟩ := hboth
  · exact hlt
  · have hvalid := h.valid b (hperm.mem_iff.mp hb)
    exact absurd (UInt32.lt_of_lt_of_le hlt (UInt32.le_trans hfirst hvalid)) (UInt32.lt_irrefl _)

/-- On sorted disjoint ranges only the comparison with the latest sequence is left to fail. -/
theorem checkRanges_ok {latest : Option UInt32} {previous : Option AckRange} {ranges : List AckRange}
    (hvalid : ∀ range ∈ ranges, range.first ≤ range.last)
    (hsorted : ranges.Pairwise fun a b => a.last < b.first)
    (hprevious : ∀ before ∈ previous, ∀ range ∈ ranges, before.last < range.first) :
    checkRanges latest previous ranges = .ok () ↔
      ∀ range ∈ ranges, ∀ newest ∈ latest, range.last ≤ newest := by
  induction ranges generalizing previous with
  | nil => simp [checkRanges]
  | cons range ranges ih =>
    obtain ⟨hfirst, hrest⟩ := List.pairwise_cons.mp hsorted
    have hbehind : previous.any (·.last ≥ range.first) = false := by
      cases previous with
      | none => rfl
      | some before => simpa using hprevious before rfl range (by simp)
    unfold checkRanges
    rw [if_neg (UInt32.not_lt.mpr (hvalid range (by simp))), if_neg (by simp [hbehind])]
    have ih := @ih (some range) (fun other hother => hvalid other (List.mem_cons_of_mem _ hother)) hrest
      (by simpa using hfirst)
    rw [List.forall_mem_cons, ← ih]
    cases latest with
    | none => simp
    | some newest =>
      have hone : (∀ other ∈ some newest, range.last ≤ other) ↔ range.last ≤ newest := by simp
      rw [hone]
      simp only [Option.any_some, decide_eq_true_eq]
      split
      next hover =>
        refine ⟨fun hcontra => (by cases hcontra), fun hboth => ?_⟩
        exact absurd hboth.1 (UInt32.not_le.mpr hover)
      next hunder => exact ⟨fun hok => ⟨UInt32.not_lt.mp hunder, hok⟩, fun hboth => hboth.2⟩

/-- `acknowledge` goes through. -/
def ReplayWindow.Acks (w : ReplayWindow) (ranges : List AckRange) : Prop :=
  ∃ retired, (w.acknowledge w.epoch ranges).1 = .ok retired

/-- The entries that the ranges retire. -/
def acked (ranges : List AckRange) (entry : ReplayEntry) : Bool :=
  ranges.any (·.covers entry.frameSeq)

theorem acked_sort (ranges : List AckRange) (entry : ReplayEntry) :
    (sortRanges ranges).any (·.covers entry.frameSeq) = acked ranges entry := by
  have hperm : (sortRanges ranges).Perm ranges := List.perm_insertionSort _ ranges
  exact hperm.any_eq

theorem acknowledge_of_ok {w : ReplayWindow} {ranges : List AckRange}
    (h : checkRanges w.latestSequence none (sortRanges ranges) = .ok ()) :
    w.acknowledge w.epoch ranges =
      (.ok (w.entries.filter (acked ranges)),
        { w with entries := w.entries.filter (! acked ranges ·) }) := by
  unfold ReplayWindow.acknowledge
  rw [if_neg (by simp), h]
  simp only [acked_sort]

theorem acks_iff {w : ReplayWindow} {ranges : List AckRange} (h : DisjointRanges ranges) :
    w.Acks ranges ↔ ∀ range ∈ ranges, ∀ newest ∈ w.latestSequence, range.last ≤ newest := by
  have hperm : (sortRanges ranges).Perm ranges := List.perm_insertionSort _ ranges
  have hcheck := @checkRanges_ok w.latestSequence none (sortRanges ranges)
    (fun range hrange => h.valid range (hperm.mem_iff.mp hrange)) h.sorted (by simp)
  simp only [hperm.mem_iff] at hcheck
  rw [← hcheck]
  constructor
  · rintro ⟨retired, hretired⟩
    unfold ReplayWindow.acknowledge at hretired
    rw [if_neg (by simp)] at hretired
    split at hretired
    next => cases hretired
    next hok => exact hok
  · intro hok
    rw [ReplayWindow.Acks, acknowledge_of_ok hok]
    exact ⟨_, rfl⟩

theorem acks_check {w : ReplayWindow} {ranges : List AckRange} (h : w.Acks ranges) :
    checkRanges w.latestSequence none (sortRanges ranges) = .ok () := by
  obtain ⟨retired, hretired⟩ := h
  unfold ReplayWindow.acknowledge at hretired
  rw [if_neg (by simp)] at hretired
  split at hretired
  next => cases hretired
  next hok => exact hok

/-- Ranges are acknowledged exactly when none ends above the frames that were ever recorded, and
acknowledging them again succeeds and retires nothing. -/
structure AckLaw (r : WindowRun) (ranges : List AckRange) : Prop where
  accepts : r.window.Acks ranges ↔ ∀ range ∈ ranges, r.reached range.last = true
  repeats : r.window.Acks ranges →
    (r.window.acknowledge r.window.epoch ranges).2.acknowledge r.window.epoch ranges =
      (.ok [], (r.window.acknowledge r.window.epoch ranges).2)

/-- The newest frame of the window tells what was recorded, and the ranges leave it or retire all. -/
def AckSafe (r : WindowRun) (ranges : List AckRange) : Prop :=
  match r.window.entries.getLast? with
  | none => ∀ range ∈ ranges, r.reached range.last = true
  | some newest =>
    (∃ range ∈ ranges, r.reached range.last = false) ∨
      (∀ range ∈ ranges, range.last ≤ newest.frameSeq) ∧
        (acked ranges newest = false ∨ ∀ entry ∈ r.window.entries, acked ranges entry = true)

instance (r : WindowRun) (ranges : List AckRange) : Decidable (AckSafe r ranges) := by
  unfold AckSafe
  split
  · exact inferInstance
  · exact inferInstance

theorem reached_of_le {r : WindowRun} (h : r.Retains) {newest : ReplayEntry}
    (hnewest : r.window.entries.getLast? = some newest) {frameSeq : UInt32}
    (hle : frameSeq ≤ newest.frameSeq) : r.reached frameSeq = true := by
  have hmem : newest ∈ r.recorded := h.kept.subset (List.mem_of_getLast? hnewest)
  obtain ⟨front, last, hlast⟩ : ∃ front last, r.recorded = front ++ [last] :=
    ⟨_, _, (List.dropLast_append_getLast (List.ne_nil_of_mem hmem)).symm⟩
  have hincreasing := h.increasing
  unfold WindowRun.reached
  rw [hlast] at hmem hincreasing ⊢
  simp only [List.getLast?_append, List.getLast?_singleton, Option.some_or, Option.any_some,
    decide_eq_true_eq]
  rcases List.mem_append.mp hmem with hfront | hsame
  · have hlt := (List.pairwise_append.mp hincreasing).2.2 newest hfront last (by simp)
    exact UInt32.le_trans hle (UInt32.le_of_lt hlt)
  · rwa [List.mem_singleton.mp hsame] at hle

theorem getLast?_filter_last {entries : List ReplayEntry} {newest : ReplayEntry}
    (hnewest : entries.getLast? = some newest) {keep : ReplayEntry → Bool} (hkeep : keep newest = true) :
    (entries.filter keep).getLast? = some newest := by
  obtain ⟨front, rfl⟩ := List.getLast?_eq_some_iff.mp hnewest
  simp [hkeep]

theorem acked_last {entries : List ReplayEntry} {ranges : List AckRange} {newest : ReplayEntry}
    (hincreasing : entries.Pairwise fun a b => a.frameSeq < b.frameSeq)
    (hnewest : entries.getLast? = some newest) (hacked : acked ranges newest = true)
    {other : ReplayEntry} (hother : (entries.filter (! acked ranges ·)).getLast? = some other) :
    ∃ range ∈ ranges, other.frameSeq < range.last := by
  obtain ⟨front, rfl⟩ := List.getLast?_eq_some_iff.mp hnewest
  obtain ⟨range, hrange, hcovers⟩ := List.any_eq_true.mp hacked
  obtain ⟨hmem, hkept⟩ := List.mem_filter.mp (List.mem_of_getLast? hother)
  have hle : newest.frameSeq ≤ range.last := by
    unfold AckRange.covers at hcovers
    simp only [Bool.and_eq_true, decide_eq_true_eq] at hcovers
    exact hcovers.2
  rcases List.mem_append.mp hmem with hfront | hsame
  · have hlt := (List.pairwise_append.mp hincreasing).2.2 other hfront newest (by simp)
    exact ⟨range, hrange, UInt32.lt_of_lt_of_le hlt hle⟩
  · rw [List.mem_singleton.mp hsame, hacked] at hkept
    cases hkept

theorem latestSequence_eq {w : ReplayWindow} {newest : ReplayEntry}
    (h : w.entries.getLast? = some newest) : w.latestSequence = some newest.frameSeq := by
  unfold ReplayWindow.latestSequence
  rw [h]
  rfl

theorem acknowledge_again {w : ReplayWindow} {ranges : List AckRange} (hacks : w.Acks ranges) :
    (w.acknowledge w.epoch ranges).2.acknowledge w.epoch ranges =
        (.ok [], (w.acknowledge w.epoch ranges).2) ↔ (w.acknowledge w.epoch ranges).2.Acks ranges := by
  rw [acknowledge_of_ok (acks_check hacks)]
  dsimp only
  constructor
  · intro h
    exact ⟨[], congrArg Prod.fst h⟩
  · intro h
    have hagain := acknowledge_of_ok (acks_check h)
    dsimp only at hagain
    rw [hagain]
    simp [List.filter_filter]

/-- Ranges that went through go through again exactly when they left the newest frame, or nothing. -/
theorem repeats_iff {w : ReplayWindow} {ranges : List AckRange} (h : DisjointRanges ranges)
    (hincreasing : w.entries.Pairwise fun a b => a.frameSeq < b.frameSeq) (hacks : w.Acks ranges)
    {newest : ReplayEntry} (hnewest : w.entries.getLast? = some newest) :
    (w.acknowledge w.epoch ranges).2.Acks ranges ↔
      acked ranges newest = false ∨ ∀ entry ∈ w.entries, acked ranges entry = true := by
  have hwithin := (acks_iff h).mp hacks
  have hleft : (w.acknowledge w.epoch ranges).2.entries = w.entries.filter (! acked ranges ·) := by
    rw [acknowledge_of_ok (acks_check hacks)]
  rw [acks_iff h]
  constructor
  · intro hagain
    by_contra hneither
    obtain ⟨hcovered, hsome⟩ := not_or.mp hneither
    have hne : w.entries.filter (! acked ranges ·) ≠ [] := by
      intro hnil
      rw [List.filter_eq_nil_iff] at hnil
      exact hsome fun entry hentry => by simpa using hnil entry hentry
    obtain ⟨other, hother⟩ : ∃ other, (w.entries.filter (! acked ranges ·)).getLast? = some other :=
      ⟨_, List.getLast?_eq_some_getLast hne⟩
    obtain ⟨range, hrange, hlt⟩ := acked_last hincreasing hnewest (by simpa using hcovered) hother
    rw [← hleft] at hother
    exact absurd (hagain range hrange _ (latestSequence_eq hother)) (UInt32.not_le.mpr hlt)
  · rintro (huncovered | hall) range hrange latest hlatest
    · have hsame := @getLast?_filter_last _ _ hnewest (! acked ranges ·) (by simp [huncovered])
      rw [← hleft] at hsame
      rw [latestSequence_eq hsame] at hlatest
      obtain rfl := Option.some.inj hlatest
      exact hwithin range hrange _ (latestSequence_eq hnewest)
    · have hnil : w.entries.filter (! acked ranges ·) = [] := by
        rw [List.filter_eq_nil_iff]
        intro entry hentry
        simp [hall entry hentry]
      unfold ReplayWindow.latestSequence at hlatest
      rw [hleft, hnil] at hlatest
      cases hlatest

/-- Acknowledgement keeps its law in a state exactly when the newest frame of the window tells what was
recorded, and the ranges leave that frame or retire all. -/
theorem ack_law_iff (capacity : Nat) (calls : List WindowCall)
    (hcalls : Along WindowRun.step WindowRun.Increasing { window := { capacity } } calls)
    {ranges : List AckRange} (h : DisjointRanges ranges) :
    AckLaw (run WindowRun.step { window := { capacity } } calls) ranges ↔
      AckSafe (run WindowRun.step { window := { capacity } } calls) ranges := by
  have hretains := retains_run capacity hcalls
  generalize run WindowRun.step { window := { capacity } } calls = r at hretains
  have hincreasing : r.window.entries.Pairwise fun a b => a.frameSeq < b.frameSeq :=
    hretains.increasing.sublist hretains.kept
  have hlaw : AckLaw r ranges ↔ (r.window.Acks ranges ↔ ∀ range ∈ ranges, r.reached range.last = true) ∧
      (r.window.Acks ranges → (r.window.acknowledge r.window.epoch ranges).2.Acks ranges) := by
    constructor
    · exact fun hl => ⟨hl.accepts, fun hacks => (acknowledge_again hacks).mp (hl.repeats hacks)⟩
    · exact fun hl => ⟨hl.1, fun hacks => (acknowledge_again hacks).mpr (hl.2 hacks)⟩
  rw [hlaw]
  unfold AckSafe
  cases hnewest : r.window.entries.getLast? with
  | none =>
    have hnil : r.window.entries = [] := List.getLast?_eq_none_iff.mp hnewest
    have hacks : ∀ w : ReplayWindow, w.entries = [] → w.Acks ranges := by
      intro w hw
      rw [acks_iff h]
      intro range _ latest hlatest
      simp [ReplayWindow.latestSequence, hw] at hlatest
    have hagain : (r.window.acknowledge r.window.epoch ranges).2.entries = [] :=
      List.sublist_nil.mp (hnil ▸ (acknowledge_entries r.window r.window.epoch ranges).1)
    simp only [hacks _ hnil, hacks _ hagain, true_iff, implies_true, and_true]
  | some newest =>
    have hacks : r.window.Acks ranges ↔ ∀ range ∈ ranges, range.last ≤ newest.frameSeq := by
      rw [acks_iff h, latestSequence_eq hnewest]
      simp
    have hreached : r.window.Acks ranges → ∀ range ∈ ranges, r.reached range.last = true :=
      fun hok range hrange => reached_of_le hretains hnewest (hacks.mp hok range hrange)
    have hbeyond : (∃ range ∈ ranges, r.reached range.last = false) ↔
        ¬ ∀ range ∈ ranges, r.reached range.last = true := by simp
    dsimp only
    rw [hbeyond, ← hacks]
    by_cases hok : r.window.Acks ranges
    · have hall := hreached hok
      rw [← repeats_iff h hincreasing hok hnewest]
      simp only [hok, eq_true hall, true_implies, true_and, not_true_eq_false, false_or]
    · simp only [hok, false_iff, false_implies, and_true, false_and, or_false]

theorem ack_law_iff_prefix :
    AckLaw (run WindowRun.step { window := { capacity := 4 } }
      [.record 1 1 [1], .record 1 2 [2], .record 1 3 [3]]) [⟨2, 2⟩, ⟨1, 1⟩] :=
  (ack_law_iff 4 _ (by decide) ⟨by decide, by decide⟩).mpr (by decide)

/-- The newest frame cannot be acknowledged twice. -/
theorem ack_law_broken : ¬ ∀ (capacity : Nat) (calls : List WindowCall),
    Along WindowRun.step WindowRun.Increasing { window := { capacity } } calls →
    ∀ ranges, DisjointRanges ranges →
      AckLaw (run WindowRun.step { window := { capacity } } calls) ranges := by
  intro h
  have haccepts := (h 4 [.record 1 1 [1], .record 1 2 [2], .acknowledge 1 [⟨2, 2⟩]] (by decide) [⟨2, 2⟩]
    ⟨by decide, by decide⟩).accepts
  rw [acks_iff ⟨by decide, by decide⟩] at haccepts
  have hlatest : (run WindowRun.step { window := { capacity := 4 } }
      [.record 1 1 [1], .record 1 2 [2], .acknowledge 1 [⟨2, 2⟩]]).window.latestSequence = some 1 := by
    decide +kernel
  exact absurd (haccepts.mpr (by decide +kernel) ⟨2, 2⟩ (by simp) 1 hlatest) (by decide)

/-- The loop of `acknowledge` over the deque: an entry that some range covers moves to the retired ones and
is erased where it stands, so that `it` already points behind it. -/
def retireLoop (ranges : List AckRange) (entries : List ReplayEntry) (it : Nat)
    (retired : List ReplayEntry) : List ReplayEntry × List ReplayEntry :=
  if h : it < entries.length then
    if acked ranges entries[it] then
      retireLoop ranges (entries.eraseIdx it) it (retired ++ [entries[it]])
    else retireLoop ranges entries (it + 1) retired
  else (retired, entries)
  termination_by entries.length - it
  decreasing_by
    · have hlength := List.length_eraseIdx_of_lt h
      omega
    · omega

/-- `acknowledge` as it is written: the ranges are sorted and checked, then the deque is edited in place. -/
def ReplayWindow.acknowledgeInPlace (w : ReplayWindow) (epoch : UInt16) (ranges : List AckRange) :
    Except Error (List ReplayEntry) × ReplayWindow :=
  if epoch ≠ w.epoch then (.error (resumeRejected "ACK epoch mismatch"), w)
  else
    match checkRanges w.latestSequence none (sortRanges ranges) with
    | .error error => (.error error, w)
    | .ok _ =>
      let (retired, entries) := retireLoop (sortRanges ranges) w.entries 0 []
      (.ok retired, { w with entries })

/-- The entries before `it` have been kept, those from `it` on are still to be looked at. -/
theorem retireLoop_spec (ranges : List AckRange) (kept rest retired : List ReplayEntry) :
    retireLoop ranges (kept ++ rest) kept.length retired =
      (retired ++ rest.filter (acked ranges), kept ++ rest.filter (! acked ranges ·)) := by
  induction rest generalizing kept retired with
  | nil =>
    unfold retireLoop
    rw [dif_neg (by simp)]
    simp
  | cons entry rest ih =>
    have hlt : kept.length < (kept ++ entry :: rest).length := by simp
    have hget : (kept ++ entry :: rest)[kept.length] = entry := by simp
    unfold retireLoop
    rw [dif_pos hlt, hget]
    by_cases hacked : acked ranges entry = true
    · have herase : (kept ++ entry :: rest).eraseIdx kept.length = kept ++ rest := by
        rw [List.eraseIdx_append_of_length_le (Nat.le_refl _), Nat.sub_self, List.eraseIdx_cons_zero]
      rw [if_pos hacked, herase, ih]
      simp [hacked]
    · have hnext := ih (kept ++ [entry]) retired
      rw [List.append_assoc, List.singleton_append, List.length_append, List.length_singleton] at hnext
      rw [if_neg hacked, hnext]
      simp [hacked]

theorem acknowledgeInPlace_eq (w : ReplayWindow) (epoch : UInt16) (ranges : List AckRange) :
    w.acknowledgeInPlace epoch ranges = w.acknowledge epoch ranges := by
  have hloop := retireLoop_spec (sortRanges ranges) [] w.entries []
  rw [List.nil_append, List.length_nil] at hloop
  unfold ReplayWindow.acknowledgeInPlace ReplayWindow.acknowledge
  rw [hloop]
  rfl

/-- The entries whose sequence lies in some range are returned, all others stay, both in order and as they
were; a refused call changes nothing. -/
theorem acknowledge_retires (w : ReplayWindow) (epoch : UInt16) (ranges : List AckRange) :
    (∀ retired, (w.acknowledgeInPlace epoch ranges).1 = .ok retired →
      retired = w.entries.filter (fun entry =>
        ∃ range ∈ ranges, range.first ≤ entry.frameSeq ∧ entry.frameSeq ≤ range.last) ∧
      (w.acknowledgeInPlace epoch ranges).2 = { w with entries := w.entries.filter (fun entry =>
        ¬ ∃ range ∈ ranges, range.first ≤ entry.frameSeq ∧ entry.frameSeq ≤ range.last) }) ∧
    ∀ error, (w.acknowledgeInPlace epoch ranges).1 = .error error →
      (w.acknowledgeInPlace epoch ranges).2 = w := by
  have hcovers : ∀ entry, acked ranges entry = decide
      (∃ range ∈ ranges, range.first ≤ entry.frameSeq ∧ entry.frameSeq ≤ range.last) := by
    intro entry
    rw [Bool.eq_iff_iff, decide_eq_true_eq]
    unfold acked AckRange.covers
    simp only [List.any_eq_true, Bool.and_eq_true, decide_eq_true_eq]
  have hretired : w.entries.filter (acked ranges) = w.entries.filter (fun entry =>
      ∃ range ∈ ranges, range.first ≤ entry.frameSeq ∧ entry.frameSeq ≤ range.last) :=
    List.filter_congr fun entry _ => hcovers entry
  have hleft : w.entries.filter (! acked ranges ·) = w.entries.filter (fun entry =>
      ¬ ∃ range ∈ ranges, range.first ≤ entry.frameSeq ∧ entry.frameSeq ≤ range.last) := by
    refine List.filter_congr fun entry _ => ?_
    rw [hcovers entry, decide_not]
  rw [acknowledgeInPlace_eq]
  by_cases hepoch : epoch = w.epoch
  · subst hepoch
    cases hcheck : checkRanges w.latestSequence none (sortRanges ranges) with
    | ok _ =>
      rw [acknowledge_of_ok hcheck]
      refine ⟨fun retired hok => ?_, fun error herror => (by cases herror)⟩
      obtain rfl := Except.ok.inj hok
      exact ⟨hretired, congrArg (fun entries => { w with entries }) hleft⟩
    | error failure =>
      unfold ReplayWindow.acknowledge
      rw [if_neg (by simp), hcheck]
      exact ⟨fun retired hok => (by cases hok), fun _ _ => rfl⟩
  · unfold ReplayWindow.acknowledge
    rw [if_pos hepoch]
    exact ⟨fun retired hok => (by cases hok), fun _ _ => rfl⟩

end LatticeGateway

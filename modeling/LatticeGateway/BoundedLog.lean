import Mathlib.Data.List.Infix

namespace BoundedLog

variable {α : Type*}

/-- What can happen to a log: an entry is appended, some are struck out, or it is replaced. -/
inductive Note (α : Type*)
  | append (entry : α)
  | strike (struck : α → Bool)
  | replace (log : List α)

def write (log : List α) : Note α → List α
  | .append entry => log ++ [entry]
  | .strike struck => log.filter fun entry => ! struck entry
  | .replace log => log

/-- What stands in a log after all the notes. -/
def standing (notes : List (Note α)) : List α := notes.foldl write []

theorem standing_append (notes more : List (Note α)) :
    standing (notes ++ more) = more.foldl write (standing notes) :=
  List.foldl_append

@[simp] theorem standing_note (notes : List (Note α)) (note : Note α) :
    standing (notes ++ [note]) = write (standing notes) note :=
  standing_append notes [note]

/-- A buffer with an entry more, for which its oldest goes when it is full. -/
def push (capacity : Nat) (buffer : List α) (entry : α) : List α :=
  (if buffer.length ≥ capacity then buffer.tail else buffer) ++ [entry]

/-- A buffer holds the newest part of the log, whatever its capacity. -/
theorem push_suffix {buffer log : List α} (h : buffer <:+ log) (capacity : Nat) (entry : α) :
    push capacity buffer entry <:+ log ++ [entry] := by
  obtain ⟨older, rfl⟩ := h
  unfold push
  split
  next =>
    refine ⟨older ++ buffer.take 1, ?_⟩
    rw [← List.drop_one, List.append_assoc, ← List.append_assoc _ _ [entry], List.take_append_drop,
      List.append_assoc]
  next => exact ⟨older, (List.append_assoc ..).symm⟩

theorem strike_suffix {buffer log : List α} (h : buffer <:+ log) (struck : α → Bool) :
    buffer.filter (fun entry => ! struck entry) <:+ write log (.strike struck) :=
  h.filter _

section Keys

variable {key : α → Nat}

/-- The keys ascend, and lie below `ceiling`. -/
structure Rising (key : α → Nat) (ceiling : Nat) (log : List α) : Prop where
  increasing : log.Pairwise fun earlier later => key earlier < key later
  below : ∀ entry ∈ log, key entry < ceiling

theorem Rising.append {ceiling : Nat} {log : List α} (h : Rising key ceiling log) {entry : α}
    (hkey : ceiling ≤ key entry) {next : Nat} (hnext : key entry < next) :
    Rising key next (log ++ [entry]) := by
  refine ⟨List.pairwise_append.mpr ⟨h.increasing, List.pairwise_singleton .., ?_⟩, ?_⟩
  · intro earlier hearlier later hlater
    obtain rfl := List.mem_singleton.mp hlater
    exact (h.below earlier hearlier).trans_le hkey
  · intro other hother
    rcases List.mem_append.mp hother with hother | hother
    · have hbelow := h.below other hother
      omega
    · obtain rfl := List.mem_singleton.mp hother
      exact hnext

theorem Rising.strike {ceiling : Nat} {log : List α} (h : Rising key ceiling log) (struck : α → Bool) :
    Rising key ceiling (write log (.strike struck)) :=
  ⟨h.increasing.filter _, fun entry hentry => h.below entry (List.mem_of_mem_filter hentry)⟩

theorem Rising.mono {ceiling next : Nat} {log : List α} (h : Rising key ceiling log)
    (hle : ceiling ≤ next) : Rising key next log :=
  ⟨h.increasing, fun entry hentry => (h.below entry hentry).trans_le hle⟩

/-- From the oldest entry of the buffer on, the buffer is as good as the log. -/
theorem filter_of_suffix {log buffer : List α}
    (hincreasing : log.Pairwise fun earlier later => key earlier < key later) (h : buffer <:+ log)
    {oldest : α} (holdest : buffer.head? = some oldest) {first : Nat} (hfirst : key oldest ≤ first) :
    log.filter (fun entry => decide (first ≤ key entry)) =
      buffer.filter fun entry => decide (first ≤ key entry) := by
  obtain ⟨older, rfl⟩ := h
  have hbelow : ∀ entry ∈ older, ¬ decide (first ≤ key entry) = true := by
    intro entry hentry hle
    have hlt := (List.pairwise_append.mp hincreasing).2.2 entry hentry oldest (List.mem_of_mem_head? holdest)
    have hle := of_decide_eq_true hle
    omega
  rw [List.filter_append, List.filter_eq_nil_iff.mpr hbelow, List.nil_append]

end Keys

end BoundedLog

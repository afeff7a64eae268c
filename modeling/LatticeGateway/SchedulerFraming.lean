import LatticeGateway.BlockStream
import LatticeGateway.OutboundScheduler

namespace LatticeGateway

open BlockStream

def encodedPayload : Payload OutboundItem UInt8 where
  bytes item := item.encoded
  withBytes item encoded := { item with encoded }
  bytes_withBytes _ _ := rfl
  withBytes_bytes _ := rfl
  withBytes_withBytes _ _ _ := rfl

/-- The queue an item goes to: `none` for the control queue, else a channel's. -/
def OutboundItem.queueKey (item : OutboundItem) : Option UInt32 :=
  match item.priority with
  | .control => none
  | .data => some item.channel.number

def OutboundScheduler.queue (s : OutboundScheduler) : Option UInt32 → List OutboundItem
  | none => s.control
  | some channelNo => (s.data.lookup channelNo).getD []

/-- The sequence number a channel is expected to go on with, 0 for any. -/
def OutboundScheduler.expected (s : OutboundScheduler) (channelNo : UInt32) : UInt32 :=
  (s.expectedSequence.lookup channelNo).getD 0

/-- The visit of a channel takes bytes of its first item. -/
def OutboundScheduler.serves (s : OutboundScheduler) (channelNo : UInt32) : Bool :=
  match s.queue (some channelNo) with
  | [] => false
  | item :: _ =>
    let expected := (s.expectedSequence.lookup channelNo).getD 0
    (expected == 0 || item.sequence == expected) && item.encoded != []

@[simp] theorem queue_none (s : OutboundScheduler) : s.queue none = s.control := rfl

theorem queue_control (s : OutboundScheduler) (queued : Nat) (control : List OutboundItem) :
    { s with queuedBytes := queued, control := control }.queue =
      Function.update s.queue none control := by
  funext k
  cases k with
  | none => simp
  | some c => simp [OutboundScheduler.queue]

theorem queue_data (s : OutboundScheduler) (queued : Nat) (cursor : UInt32)
    (expected : AList fun _ : UInt32 => UInt32) (channelNo : UInt32) (queue : List OutboundItem) :
    { s with queuedBytes := queued, rrCursor := cursor, expectedSequence := expected,
             data := s.data.insert channelNo queue }.queue =
      Function.update s.queue (some channelNo) queue := by
  funext k
  cases k with
  | none => simp
  | some c =>
    by_cases hc : c = channelNo
    · subst hc; simp [OutboundScheduler.queue]
    · rw [Function.update_of_ne (by simpa using hc)]
      simp [OutboundScheduler.queue, AList.lookup_insert_ne hc]

/-- `enqueue` accepts an item of some bytes for which there is room, behind the others of its queue; on a
channel its sequence is larger than theirs. -/
theorem enqueue_cases {s s' : OutboundScheduler} {item : OutboundItem}
    (h : s.enqueue item = (.ok (), s')) : item.encoded ≠ [] ∧
      s.queuedBytes + item.encoded.length ≤ s.byteLimit ∧
      ((item.priority = .control ∧
        s' = { s with queuedBytes := s.queuedBytes + item.encoded.length
                      control := s.control ++ [item] }) ∨
      (item.priority = .data ∧
        (∀ back ∈ ((s.data.lookup item.channel.number).getD []).getLast?, back.sequence < item.sequence) ∧
        s' = { s with queuedBytes := s.queuedBytes + item.encoded.length
                      data := s.data.insert item.channel.number
                        ((s.data.lookup item.channel.number).getD [] ++ [item]) })) := by
  unfold OutboundScheduler.enqueue at h
  split at h
  next => cases h
  next hne =>
    dsimp only at h
    split at h
    next => cases h
    next next hadd =>
      obtain rfl := checkedAdd_eq_some hadd
      split at h
      next => cases h
      next hfits =>
        refine ⟨hne, Nat.not_lt.mp hfits, ?_⟩
        cases hpriority : item.priority with
        | control =>
          rw [hpriority] at h
          cases h
          exact .inl ⟨rfl, rfl⟩
        | data =>
          rw [hpriority] at h
          dsimp only at h
          refine .inr ⟨rfl, ?_⟩
          split at h
          next last hlast =>
            split at h
            next => cases h
            next hlt =>
              cases h
              refine ⟨fun back hback => ?_, rfl⟩
              obtain rfl : last = back := Option.some.inj (hlast.symm.trans hback)
              exact UInt32.not_le.mp hlt
          next hnone =>
            cases h
            refine ⟨fun back hback => ?_, rfl⟩
            cases hnone.symm.trans hback

/-- The queue has room for the item, and the item does not step back in its channel. -/
structure OutboundScheduler.Takes (s : OutboundScheduler) (item : OutboundItem) : Prop where
  room : ∃ total ∈ checkedAdd s.queuedBytes item.encoded.length, total ≤ s.byteLimit
  ascends : item.priority = .data →
    ∀ back ∈ ((s.data.lookup item.channel.number).getD []).getLast?, back.sequence < item.sequence

theorem enqueue_ok_iff {s : OutboundScheduler} {item : OutboundItem} (hne : item.encoded ≠ []) :
    (s.enqueue item).1 = .ok () ↔ s.Takes item := by
  constructor
  · intro h
    have haccepted : s.enqueue item = (.ok (), (s.enqueue item).2) := Prod.ext h rfl
    obtain ⟨_, hfits, hcases⟩ := enqueue_cases haccepted
    refine ⟨?_, fun hdata => ?_⟩
    · unfold OutboundScheduler.enqueue at h
      rw [if_neg hne] at h
      cases hadd : checkedAdd s.queuedBytes item.encoded.length with
      | none => simp [hadd] at h
      | some total => exact ⟨total, rfl, by rwa [checkedAdd_eq_some hadd]⟩
    · rcases hcases with ⟨hcontrol, _⟩ | ⟨_, hascends, _⟩
      · rw [hdata] at hcontrol
        cases hcontrol
      · exact hascends
  · rintro ⟨⟨total, htotal, hroom⟩, hascends⟩
    have hadd : checkedAdd s.queuedBytes item.encoded.length = some total := htotal
    unfold OutboundScheduler.enqueue
    simp only [if_neg hne, hadd, if_neg (Nat.not_lt.mpr hroom)]
    cases hpriority : item.priority with
    | control => rfl
    | data =>
      dsimp only
      split
      next back hback => rw [if_neg (UInt32.not_le.mpr (hascends hpriority back hback))]
      next => rfl

/-- What `enqueue` has checked and done when it accepts an item. -/
structure Enqueued (s : OutboundScheduler) (item : OutboundItem) (s' : OutboundScheduler) : Prop where
  nonempty : item.encoded ≠ []
  queue : s'.queue = Function.update s.queue item.queueKey (s.queue item.queueKey ++ [item])
  increasing : item.priority = .data →
    ∀ back ∈ (s.queue item.queueKey).getLast?, back.sequence < item.sequence

theorem enqueue_ok {s s' : OutboundScheduler} {item : OutboundItem}
    (h : s.enqueue item = (.ok (), s')) : Enqueued s item s' := by
  obtain ⟨hne, _, ⟨hpriority, rfl⟩ | ⟨hpriority, hincreasing, rfl⟩⟩ := enqueue_cases h
  · have hkey : item.queueKey = none := by
      simp [OutboundItem.queueKey, hpriority]
    refine ⟨hne, ?_, fun hdata => absurd (hpriority.symm.trans hdata) (by decide)⟩
    rw [queue_control, hkey, queue_none]
  · have hkey : item.queueKey = some item.channel.number := by
      simp [OutboundItem.queueKey, hpriority]
    refine ⟨hne, ?_, fun _ => ?_⟩
    · rw [hkey]
      exact queue_data s _ s.rrCursor s.expectedSequence _ _
    · rw [hkey]
      exact hincreasing

theorem enqueue_error {s s' : OutboundScheduler} {item : OutboundItem} {error : Error}
    (h : s.enqueue item = (.error error, s')) : s' = s := by
  unfold OutboundScheduler.enqueue at h
  dsimp only at h
  repeat' split at h
  all_goals cases h
  all_goals rfl

/-- The loop over the control queue serves that queue alone; with budget left it has emptied it. -/
theorem drainControl_orderly (writableBytes : Nat) {fuel : Nat} {s : OutboundScheduler} (used : Nat)
    (out : List OutboundItem) {p : Option (Option UInt32)}
    (hp : ∀ j ∈ p, j = none ∧ s.control ≠ []) (hfuel : s.control.length ≤ fuel) :
    ∃ more p', (OutboundScheduler.drainControl writableBytes fuel s used out).1 = out ++ more ∧
      Orderly encodedPayload p s.queue more
        (OutboundScheduler.drainControl writableBytes fuel s used out).2.2.queue p' ∧
      ((OutboundScheduler.drainControl writableBytes fuel s used out).2.1 < writableBytes →
        p' = none) := by
  have hp' : ∀ j ∈ p, j = none := fun j hj => (hp j hj).1
  have hnone : s.control = [] → p = none := by
    intro hnil
    rw [Option.eq_none_iff_forall_not_mem]
    exact fun j hj => (hp j hj).2 hnil
  induction fuel generalizing s used out p with
  | zero =>
    have hnil : s.control = [] := List.eq_nil_of_length_eq_zero (by omega)
    exact ⟨[], p, by simp [OutboundScheduler.drainControl], .done _ _, fun _ => hnone hnil⟩
  | succ fuel ih =>
    cases hcontrol : s.control with
    | nil => simp only [OutboundScheduler.drainControl, hcontrol]
             exact ⟨[], p, by simp, .done _ _, fun _ => hnone hcontrol⟩
    | cons item rest =>
      simp only [OutboundScheduler.drainControl, hcontrol]
      split
      next hused =>
        split
        next htake =>
          obtain ⟨more, p', hout, horderly, hleft⟩ :=
            @ih { s with queuedBytes := s.queuedBytes - item.encoded.length, control := rest }
              (used + item.encoded.length) (out ++ [item]) none (by simp)
              (by simpa [hcontrol] using hfuel) (by simp) (by simp)
          rw [queue_control] at horderly
          rw [htake, List.take_length]
          exact ⟨item :: more, p', by simpa using hout, .whole hp' hcontrol horderly, hleft⟩
        next htake =>
          have hpart : min (writableBytes - used) item.encoded.length = writableBytes - used := by
            omega
          rw [hpart]
          have hlt : writableBytes - used < item.encoded.length := by omega
          refine ⟨[_], some none, rfl, .part hp' hcontrol (by omega) hlt
            (.of_eq (queue_control s _ _) _), fun h => ?_⟩
          dsimp only at h
          omega
      next hused => exact ⟨[], p, by simp, .done _ _, fun h => absurd h hused⟩

theorem drainControl_nil (writableBytes fuel : Nat) {s : OutboundScheduler} (used : Nat)
    (out : List OutboundItem) (h : s.control = []) :
    OutboundScheduler.drainControl writableBytes fuel s used out = (out, used, s) := by
  cases fuel with
  | zero => rfl
  | succ fuel => simp only [OutboundScheduler.drainControl, h]

theorem drainControl_full {writableBytes used : Nat} (hused : writableBytes ≤ used) {fuel : Nat}
    {s : OutboundScheduler} {out : List OutboundItem} :
    OutboundScheduler.drainControl writableBytes fuel s used out = (out, used, s) := by
  cases fuel with
  | zero => rfl
  | succ fuel =>
    unfold OutboundScheduler.drainControl
    split
    next => rfl
    next => rw [if_neg (by omega)]

/-- The loop over the channels continues a part-sent item when that channel is the first it serves. -/
theorem drainData_orderly (writableBytes : Nat) {channels : List UInt32} {s : OutboundScheduler}
    (used : Nat) (out : List OutboundItem) {p : Option (Option UInt32)}
    (hp : writableBytes ≤ used ∨ ∀ j ∈ p, j = channels.find? s.serves) :
    ∃ more p', (OutboundScheduler.drainData writableBytes channels s used out).1 = out ++ more ∧
      Orderly encodedPayload p s.queue more
        (OutboundScheduler.drainData writableBytes channels s used out).2.queue p' := by
  induction channels generalizing s used out p with
  | nil => exact ⟨[], p, by simp [OutboundScheduler.drainData], .done _ _⟩
  | cons channelNo channels ih =>
    have hskip : writableBytes ≤ used ∨ s.serves channelNo = false →
        writableBytes ≤ used ∨ ∀ j ∈ p, j = channels.find? s.serves := by
      rintro (hused | hserves)
      · exact .inl hused
      · rcases hp with hused | hp
        · exact .inl hused
        · exact .inr fun j hj => by rw [hp j hj, List.find?_cons_of_neg (by simp [hserves])]
    unfold OutboundScheduler.drainData
    cases hqueue : s.queue (some channelNo) with
    | nil =>
      have hlookup : (s.data.lookup channelNo).getD [] = [] := hqueue
      rw [hlookup]
      exact ih used out (hskip (.inr (by simp [OutboundScheduler.serves, hqueue])))
    | cons item rest =>
      have hlookup : (s.data.lookup channelNo).getD [] = item :: rest := hqueue
      rw [hlookup]
      dsimp only
      split
      next hexpected =>
        refine ih used out (hskip (.inr ?_))
        simp [OutboundScheduler.serves, hqueue, hexpected.1, hexpected.2]
      next hexpected =>
        split
        next hzero =>
          refine ih used out (hskip ?_)
          by_cases hused : writableBytes ≤ used
          · exact .inl hused
          · right
            have hempty : item.encoded = [] := List.eq_nil_of_length_eq_zero (by omega)
            simp [OutboundScheduler.serves, hqueue, hempty]
        next hpos =>
          have hp' : ∀ j ∈ p, j = some channelNo := by
            intro j hj
            rcases hp with hused | hp
            · omega
            · rw [hp j hj]
              have hserves : s.serves channelNo = true := by
                have hne : item.encoded ≠ [] := by
                  intro h
                  simp [h] at hpos
                simp only [OutboundScheduler.serves, hqueue, Bool.and_eq_true, Bool.or_eq_true,
                  beq_iff_eq, bne_iff_ne]
                exact ⟨by tauto, hne⟩
              exact List.find?_cons_of_pos hserves
          split
          next htake =>
            rw [htake, List.take_length]
            obtain ⟨more, p', hout, horderly⟩ := ih (used + item.encoded.length) (out ++ [item])
              (.inr (show ∀ j ∈ none, j = _ by simp))
            rw [queue_data] at horderly
            exact ⟨item :: more, p', by simpa using hout, .whole hp' hqueue horderly⟩
          next htake =>
            have hpart : min (writableBytes - used) item.encoded.length = writableBytes - used := by
              omega
            rw [hpart] at hpos ⊢
            have hlt : writableBytes - used < item.encoded.length := by omega
            exact ⟨[_], some (some channelNo), rfl, .part hp' hqueue (by omega) hlt
              (.of_eq (queue_data s _ _ _ _ _) _)⟩

theorem lookup_foldl_erase (channels : List UInt32) (data : AList fun _ : UInt32 => List OutboundItem)
    (channelNo : UInt32) :
    ((channels.foldl (fun data c => if (data.lookup c).getD [] = [] then data.erase c else data)
      data).lookup channelNo).getD [] = (data.lookup channelNo).getD [] := by
  induction channels generalizing data with
  | nil => rfl
  | cons c channels ih =>
    rw [List.foldl_cons, ih]
    split
    next hempty =>
      by_cases hc : channelNo = c
      · subst hc; rw [AList.lookup_erase, hempty]; rfl
      · rw [AList.lookup_erase_ne hc]
    next => rfl

theorem queue_eraseEmpty (s : OutboundScheduler) : s.eraseEmpty.queue = s.queue := by
  funext k
  cases k with
  | none => rfl
  | some c => exact lookup_foldl_erase _ _ _

end LatticeGateway

import LatticeGateway.CloseFrames

namespace LatticeGateway

open Runs JoinReplicas ConnectionEngine

/-- What a call on `x` sends is on its way to `y`. -/
def Endpoint.answer (x y : Endpoint) (result : Except Error (List Bytes) × ConnectionEngine) :
    Endpoint × Endpoint :=
  match result with
  | (.error _, engine) => ({ x with engine }, y)
  | (.ok chunks, engine) => ({ x with engine }, { y with inbox := y.inbox ++ chunks })

def Side.other : Side → Side
  | .a => .b
  | .b => .a

/-- One side acts, with the other at the far end of the link. -/
def Link.on (l : Link) (side : Side) (act : Endpoint → Endpoint → Endpoint × Endpoint) : Link :=
  match side with
  | .a => let (a, b) := act l.a l.b; { a, b }
  | .b => let (b, a) := act l.b l.a; { a, b }

inductive CloseMove
  | openChannel (side : Side) (request : OpenRequest)
  | halfClose (side : Side) (id : ChannelId) (direction : Direction)
  | reset (side : Side) (id : ChannelId)
  | deliver (side : Side)

def Link.act (l : Link) : CloseMove → Link
  | .openChannel side request => l.on side fun x y => x.openChannel y request
  | .halfClose side id direction => l.on side fun x y => x.answer y (x.engine.halfClose id direction)
  | .reset side id => l.on side fun x y => x.answer y (x.engine.reset id)
  | .deliver side => l.on side fun x y => x.deliver y

/-- Only one side opens channels. -/
def CloseMove.OpensAt (opener : Side) : CloseMove → Prop
  | .openChannel side _ => side = opener
  | _ => True

/-- The HALF_CLOSE or RESET frame of the call, if it sends one, has a number that the replay window of its
sender does not hold. -/
def Link.ClosesNumbered (l : Link) : CloseMove → Prop
  | .halfClose side id direction => ∀ p ∈ (l.at side).engine.halfCloseEmissions id direction,
      (l.at side).engine.replay.contains p.2.frameSeq = false
  | .reset side id => ∀ p ∈ (l.at side).engine.resetEmissions id,
      (l.at side).engine.replay.contains p.2.frameSeq = false
  | _ => True

instance (l : Link) (move : CloseMove) : Decidable (l.ClosesNumbered move) := by
  unfold Link.ClosesNumbered
  cases move with
  | halfClose => exact inferInstance
  | reset => exact inferInstance
  | openChannel => exact isTrue trivial
  | deliver => exact isTrue trivial

/-- The slot of a live channel. -/
def ConnectionEngine.liveSlot (e : ConnectionEngine) (id : ChannelId) : Option ChannelSlot :=
  e.channels.bind (·.find id)

/-- What one end has closed for sending, the other has closed for receiving, and the other way round. -/
def Mirrors (slot slot' : ChannelSlot) : Prop :=
  slot.localHalfClosed = slot'.remoteHalfClosed ∧ slot.remoteHalfClosed = slot'.localHalfClosed

/-- With no frame in flight, every channel that was opened is live at both ends, with mirrored half-closes,
or at neither. -/
def Link.Converged (l : Link) : Prop :=
  l.a.inbox = [] → l.b.inbox = [] → ∀ id ∈ l.a.opened ++ l.b.opened,
    Option.Rel Mirrors (l.a.engine.liveSlot id) (l.b.engine.liveSlot id)

/-- What an end has learnt of the channel at index `k`. -/
def Endpoint.life (x : Endpoint) (mirrored : Bool) (k : Nat) : Life :=
  x.engine.channels.elim ⊥ (·.life mirrored k)

/-- An end whose table has the slots of `opened` in use, with the notices on their way to it. -/
structure Endpoint.Stands (x : Endpoint) (caps : CapabilitySet) (mirrored : Bool) (slots next : Nat)
    (opened announced : Set Nat) (notices : List Notice) : Prop where
  ready : Ready x.engine caps
  table : ∃ t, x.engine.channels = some t ∧ t.Shared slots opened
  told : List.Forall₂ (Tells caps mirrored) notices x.inbox
  orderly : Orderly announced next (opened ∩ announced) notices
  below : ∀ k ∈ opened, k < next

/-- Two ends that come to the same view of every channel but those below `next` that are not announced. -/
structure Joined (mirrored : Bool) (x y : Endpoint) (caps caps' : CapabilitySet) (slots next : Nat)
    (opened opened' announced : Set Nat) (xs ys : List Notice) : Prop where
  left : x.Stands caps mirrored slots next opened announced xs
  right : y.Stands caps' (!mirrored) slots next opened' announced ys
  serves : ∀ family, Serves caps.plugins family ↔ Serves caps'.plugins family
  within : ∀ k ∈ announced, k < next
  size : next ≤ slots
  balanced : ∀ k, k ∈ announced ∨ next ≤ k →
    Balanced (x.life mirrored k) (xs.map (·.life k)) (y.life (!mirrored) k) (ys.map (·.life k))

section

variable {mirrored : Bool} {x y : Endpoint} {caps caps' : CapabilitySet} {slots next : Nat}
  {opened opened' announced : Set Nat} {xs ys : List Notice}

theorem Joined.symm (h : Joined mirrored x y caps caps' slots next opened opened' announced xs ys) :
    Joined (!mirrored) y x caps' caps slots next opened' opened announced ys xs := by
  refine ⟨h.right, ?_, fun family => (h.serves family).symm, h.within, h.size, ?_⟩
  · rw [Bool.not_not]
    exact h.left
  · rw [Bool.not_not]
    exact fun k hk => (h.balanced k hk).symm

theorem Endpoint.life_of_table {t : ChannelTable} (ht : x.engine.channels = some t) (k : Nat) :
    x.life mirrored k = t.life mirrored k := by
  unfold Endpoint.life
  rw [ht]
  rfl

section

variable {t t' : ChannelTable} {x' : Endpoint} {k j : Nat} {news : Life} {notice : Notice} {life : Life}

/-- An end learns something and says so. -/
theorem ChannelTable.Learns.announce (h : t.Learns t' mirrored opened k news)
    (ht : x.engine.channels = some t) (ht' : x'.engine.channels = some t') (hj : j = k → k ∈ opened)
    (hnotice : notice.life j = Notice.life j (.closed k news)) {toLeft : List Life}
    (hbalanced : Balanced (x.life mirrored j) toLeft life (ys.map (·.life j))) :
    Balanced (x'.life mirrored j) toLeft life ((ys ++ [notice]).map (·.life j)) := by
  rw [Endpoint.life_of_table ht] at hbalanced
  rw [Endpoint.life_of_table ht', h.life hj, List.map_append, List.map_singleton, hnotice]
  exact hbalanced.update _

/-- An end learns what it is told. -/
theorem ChannelTable.Learns.hear (h : t.Learns t' mirrored opened k news)
    (ht : x.engine.channels = some t) (ht' : x'.engine.channels = some t') (hj : j = k → k ∈ opened)
    (hnotice : notice.life j = Notice.life j (.closed k news)) {toRight : List Life}
    (hbalanced : Balanced (x.life mirrored j) ((notice :: xs).map (·.life j)) life toRight) :
    Balanced (x'.life mirrored j) (xs.map (·.life j)) life toRight := by
  rw [Endpoint.life_of_table ht, List.map_cons, hnotice] at hbalanced
  rw [Endpoint.life_of_table ht', h.life hj]
  exact hbalanced.deliver

end

/-- A call that closes something leaves both ends on their way to the same view. -/
theorem Joined.closes (h : Joined mirrored x y caps caps' slots next opened opened' announced xs ys)
    {result : Except Error (List Bytes) × ConnectionEngine}
    (hcloses : x.engine.Closes caps mirrored slots opened result) :
    ∃ ys', Joined mirrored (x.answer y result).1 (x.answer y result).2 caps caps' slots next opened opened'
      announced xs ys' := by
  rcases hcloses with ⟨error, rfl⟩ |
    ⟨k, hk, news, chunk, e', t, t', rfl, htells, hready, ht, ht', hshared, hlearns⟩
  · exact ⟨ys, h⟩
  · refine ⟨ys ++ [.closed k news], ⟨hready, ⟨t', ht', hshared⟩, h.left.told, h.left.orderly, h.left.below⟩,
      ⟨h.right.ready, h.right.table, List.rel_append h.right.told (.cons (htells caps') .nil),
        h.right.orderly.concat_closed (h.left.below k hk) news, h.right.below⟩, h.serves, h.within,
      h.size, fun j hj => ?_⟩
    exact hlearns.announce ht ht' (fun _ => hk) rfl (h.balanced j hj)

/-- So does a frame that arrives. -/
theorem Joined.deliver (h : Joined mirrored x y caps caps' slots next opened opened' announced xs ys) :
    ∃ now xs', Joined mirrored (x.deliver y).1 (x.deliver y).2 caps caps' slots next now opened' announced
      xs' ys ∧ opened ⊆ now ∧ now ⊆ opened ∪ announced ∧ (x.deliver y).1.opened = x.opened ∧
      (x.deliver y).2.opened = y.opened := by
  obtain ⟨t, ht, hshared⟩ := h.left.table
  have htold := h.left.told
  have horderly := h.left.orderly
  unfold Endpoint.deliver
  cases hinbox : x.inbox with
  | nil => exact ⟨opened, xs, h, subset_rfl, Set.subset_union_left, rfl, rfl⟩
  | cons chunk inbox =>
    rw [hinbox] at htold
    cases htold with
    | @cons notice _ rest _ htells hrest =>
      cases notice with
      | opened k =>
        obtain ⟨hunknown, hnow⟩ := horderly
        have hk : k ∈ announced := hnow.subset (Set.mem_insert k _)
        have hunused : k ∉ opened := fun hmem => hunknown ⟨hmem, hk⟩
        have hlt : k < slots := Nat.lt_of_lt_of_le (h.within k hk) h.size
        cases htells with
        | opened _ frameSeq hserves =>
          obtain ⟨e', hopens, _, hreceive⟩ := h.left.ready.handleOpen_ok ht hshared.used hunused
            (by rw [hshared.length]; exact hlt) hserves frameSeq
          obtain ⟨hready, ht', _⟩ := h.left.ready.opens hopens
          obtain ⟨hshared', hlearns⟩ := hshared.take hunused hlt mirrored
          dsimp only
          rw [hreceive]
          dsimp only
          rw [List.append_nil]
          refine ⟨insert k opened, rest, ⟨⟨hready, ⟨_, ht', hshared'⟩, hrest, ?_, ?_⟩, h.right, h.serves,
            h.within, h.size, fun j hj => ?_⟩, Set.subset_insert k opened, ?_, rfl, rfl⟩
          · rw [Set.insert_inter_of_mem hk]
            exact hnow
          · rintro j (rfl | hj)
            · exact h.within j hk
            · exact h.left.below j hj
          · exact hlearns.hear ht ht' (fun _ => Set.mem_insert k opened) rfl (h.balanced j hj)
          · exact Set.insert_subset (.inr hk) Set.subset_union_left
      | closed k news =>
        obtain ⟨hknown, hk, hnow⟩ := horderly
        obtain ⟨result, e', t', hreceive, hquiet, hready, ht', hshared', hlearns⟩ :=
          h.left.ready.hears ht hshared (Nat.lt_of_lt_of_le hk h.size) htells
        have htaken : ∀ j, j ∈ announced ∨ next ≤ j → j = k → k ∈ opened := by
          rintro j hj rfl
          exact (hknown (hj.resolve_right (Nat.not_le.mpr hk))).1
        dsimp only
        rw [hreceive]
        cases result with
        | error error =>
          exact ⟨opened, rest, ⟨⟨hready, ⟨t', ht', hshared'⟩, hrest, hnow, h.left.below⟩, h.right, h.serves,
            h.within, h.size, fun j hj => hlearns.hear ht ht' (htaken j hj) rfl (h.balanced j hj)⟩,
            subset_rfl, Set.subset_union_left, rfl, rfl⟩
        | ok out =>
          obtain rfl := hquiet out rfl
          dsimp only
          rw [List.append_nil]
          exact ⟨opened, rest, ⟨⟨hready, ⟨t', ht', hshared'⟩, hrest, hnow, h.left.below⟩, h.right, h.serves,
            h.within, h.size, fun j hj => hlearns.hear ht ht' (htaken j hj) rfl (h.balanced j hj)⟩,
            subset_rfl, Set.subset_union_left, rfl, rfl⟩

/-- An opening takes the next slot of a side that knows all that is announced. If its OPEN frame cannot go
out, nothing is announced. -/
theorem Joined.openChannel (h : Joined mirrored x y caps caps' slots next {i | i < next} opened' announced
      xs ys) (hopened' : opened' ⊆ announced) (request : OpenRequest) :
    ∃ next' announced' ys', Joined mirrored (x.openChannel y request).1 (x.openChannel y request).2 caps
      caps' slots next' {i | i < next'} opened' announced' xs ys' ∧ announced ⊆ announced' ∧
      (∀ id ∈ (x.openChannel y request).1.opened, id ∈ x.opened ∨ ∃ k ∈ announced', id = firstId k) ∧
      (x.openChannel y request).2.opened = y.opened := by
  obtain ⟨t, ht, hshared⟩ := h.left.table
  have hnext : next ∉ announced := fun hmem => Nat.lt_irrefl next (h.within next hmem)
  have hunused : next ∉ {i | i < next} := Nat.lt_irrefl next
  have hmore : {i | i < next + 1} = insert next {i | i < next} := by
    ext i
    simp only [Set.mem_ofPred_eq, Set.mem_insert_iff]
    omega
  have hknown : {i | i < next} ∩ announced = announced := Set.inter_eq_right.mpr h.within
  unfold Endpoint.openChannel
  rcases h.left.ready.openChannel_outcome ht hshared.used request with
    ⟨error, herror⟩ | ⟨hlt, ⟨_, error, herror⟩ | ⟨_, hserves, e', hopens, _, hok⟩⟩
  · rw [herror]
    exact ⟨next, announced, ys, h, subset_rfl, fun id hid => .inl hid, rfl⟩
  · rw [hshared.length] at hlt
    obtain ⟨hshared', hlearns⟩ := hshared.take hunused hlt mirrored
    rw [← hmore] at hshared'
    rw [herror]
    refine ⟨next + 1, announced, ys, ⟨⟨h.left.ready.of_same rfl rfl rfl rfl rfl rfl, ⟨_, rfl, hshared'⟩,
      h.left.told, ?_, fun k hk => hk⟩, ⟨h.right.ready, h.right.table, h.right.told,
      h.right.orderly.mono, fun k hk => Nat.lt_succ_of_lt (h.right.below k hk)⟩, h.serves,
      fun k hk => Nat.lt_succ_of_lt (h.within k hk), hlt, fun j hj => ?_⟩, subset_rfl,
      fun id hid => .inl hid, rfl⟩
    · have horderly := h.left.orderly.mono
      rw [hknown] at horderly
      rwa [hmore, Set.insert_inter_of_notMem hnext, hknown]
    · have hbefore := h.balanced j (hj.imp_right Nat.le_of_succ_le)
      rw [Endpoint.life_of_table ht] at hbefore
      have hother : j ≠ next := by
        rintro rfl
        exact hj.elim hnext (Nat.not_succ_le_self j)
      rw [← hlearns.others j hother] at hbefore
      exact hbefore
  · rw [hshared.length] at hlt
    obtain ⟨hready, ht', _⟩ := h.left.ready.opens hopens
    obtain ⟨hshared', hlearns⟩ := hshared.take hunused hlt mirrored
    have horderly := h.left.orderly
    rw [hknown] at horderly
    rw [← hmore] at hshared'
    rw [hok]
    dsimp only
    refine ⟨next + 1, insert next announced, ys ++ [.opened next], ⟨⟨hready, ⟨_, ht', hshared'⟩,
      h.left.told, ?_, fun k hk => hk⟩, ⟨h.right.ready, h.right.table, ?_, ?_,
      fun k hk => Nat.lt_succ_of_lt (h.right.below k hk)⟩, h.serves, ?_, hlt, ?_⟩,
      Set.subset_insert next announced, ?_, rfl⟩
    · rw [hmore, ← Set.insert_inter_distrib, hknown]
      exact horderly.insert
    · exact List.rel_append h.right.told (.cons (.opened next _ ((h.serves _).mp hserves)) .nil)
    · have hunknown : opened' ∩ insert next announced = opened' ∩ announced :=
        Set.inter_insert_of_notMem fun hmem => hnext (hopened' hmem)
      rw [hunknown]
      exact h.right.orderly.concat_opened hnext
    · rintro k (rfl | hk)
      · exact Nat.lt_succ_self k
      · exact Nat.lt_succ_of_lt (h.within k hk)
    · intro j hj
      have hbefore : j ∈ announced ∨ next ≤ j := by
        rcases hj with (rfl | hj) | hj
        · exact .inr (Nat.le_refl j)
        · exact .inl hj
        · exact .inr (Nat.le_of_succ_le hj)
      have hnotice : Notice.life j (.opened next) = Notice.life j (.closed next (.closed (false, false))) := rfl
      refine hlearns.announce ht ?_ (fun _ => Set.mem_insert next _) hnotice (h.balanced j hbefore)
      exact ht'
    · intro id hid
      rcases List.mem_append.mp hid with hold | hnew
      · exact .inl hold
      · exact .inr ⟨next, Set.mem_insert next announced, List.mem_singleton.mp hnew⟩

end

/-- Ends of which `x` alone opens channels. -/
def Converging (x y : Endpoint) : Prop :=
  ∃ caps caps' slots next opened' announced xs ys,
    Joined false x y caps caps' slots next {i | i < next} opened' announced xs ys ∧ opened' ⊆ announced ∧
    (∀ id ∈ x.opened, ∃ k ∈ announced, id = firstId k) ∧ y.opened = []

/-- The result of a call that, on a ready engine, only closes something that it announces. -/
def ConnectionEngine.Announcing (e : ConnectionEngine)
    (result : Except Error (List Bytes) × ConnectionEngine) : Prop :=
  ∀ (mirrored : Bool) {caps : CapabilitySet} {t : ChannelTable} {slots : Nat} {opened : Set Nat},
    Ready e caps → e.channels = some t → t.Shared slots opened → e.Closes caps mirrored slots opened result

theorem Endpoint.answer_opened (x y : Endpoint) (result : Except Error (List Bytes) × ConnectionEngine) :
    (x.answer y result).1.opened = x.opened ∧ (x.answer y result).2.opened = y.opened := by
  rcases result with ⟨_ | _, _⟩
  · exact ⟨rfl, rfl⟩
  · exact ⟨rfl, rfl⟩

section

variable {x y : Endpoint}

theorem Converging.openChannel (h : Converging x y) (request : OpenRequest) :
    Converging (x.openChannel y request).1 (x.openChannel y request).2 := by
  obtain ⟨caps, caps', slots, next, opened', announced, xs, ys, hjoined, hknown, hopened, hnone⟩ := h
  obtain ⟨next', announced', ys', hnow, hmore, hids, hsame⟩ := hjoined.openChannel hknown request
  refine ⟨caps, caps', slots, next', opened', announced', xs, ys', hnow, hknown.trans hmore,
    fun id hid => ?_, hsame.trans hnone⟩
  rcases hids id hid with hold | hnew
  · obtain ⟨k, hk, hid⟩ := hopened id hold
    exact ⟨k, hmore hk, hid⟩
  · exact hnew

/-- The side that opens closes something. -/
theorem Converging.closes (h : Converging x y) {result : Except Error (List Bytes) × ConnectionEngine}
    (hcloses : x.engine.Announcing result) : Converging (x.answer y result).1 (x.answer y result).2 := by
  obtain ⟨caps, caps', slots, next, opened', announced, xs, ys, hjoined, hknown, hopened, hnone⟩ := h
  obtain ⟨t, ht, hshared⟩ := hjoined.left.table
  obtain ⟨ys', hnow⟩ := hjoined.closes (hcloses false hjoined.left.ready ht hshared)
  obtain ⟨hx, hy⟩ := x.answer_opened y result
  exact ⟨caps, caps', slots, next, opened', announced, xs, ys', hnow, hknown, by rwa [hx], hy.trans hnone⟩

/-- The other side does. -/
theorem Converging.other_closes (h : Converging x y) {result : Except Error (List Bytes) × ConnectionEngine}
    (hcloses : y.engine.Announcing result) : Converging (y.answer x result).2 (y.answer x result).1 := by
  obtain ⟨caps, caps', slots, next, opened', announced, xs, ys, hjoined, hknown, hopened, hnone⟩ := h
  obtain ⟨t, ht, hshared⟩ := hjoined.right.table
  obtain ⟨xs', hnow⟩ := hjoined.symm.closes (hcloses true hjoined.right.ready ht hshared)
  obtain ⟨hy, hx⟩ := y.answer_opened x result
  exact ⟨caps, caps', slots, next, opened', announced, xs', ys, hnow.symm, hknown, by rwa [hx],
    hy.trans hnone⟩

theorem Converging.deliver (h : Converging x y) : Converging (x.deliver y).1 (x.deliver y).2 := by
  obtain ⟨caps, caps', slots, next, opened', announced, xs, ys, hjoined, hknown, hopened, hnone⟩ := h
  obtain ⟨now, xs', hnow, hsub, hsup, hx, hy⟩ := hjoined.deliver
  obtain rfl : {i | i < next} = now :=
    hsub.antisymm (hsup.trans (Set.union_subset subset_rfl hjoined.within))
  exact ⟨caps, caps', slots, next, opened', announced, xs', ys, hnow, hknown, by rwa [hx], hy.trans hnone⟩

theorem Converging.other_deliver (h : Converging x y) : Converging (y.deliver x).2 (y.deliver x).1 := by
  obtain ⟨caps, caps', slots, next, opened', announced, xs, ys, hjoined, hknown, hopened, hnone⟩ := h
  obtain ⟨now, ys', hnow, _, hsup, hy, hx⟩ := hjoined.symm.deliver
  exact ⟨caps, caps', slots, next, now, announced, xs, ys', hnow.symm,
    hsup.trans (Set.union_subset hknown subset_rfl), by rwa [hx], hy.trans hnone⟩

theorem Life.closed_ne_top (halves : Bool × Bool) : closed halves ≠ ⊤ := by
  intro h
  exact WithTop.coe_ne_top (WithBot.coe_injective h)

/-- With nothing in flight both ends have learnt the same of every channel that was opened. -/
theorem Converging.settled (h : Converging x y) (hx : x.inbox = []) (hy : y.inbox = []) {id : ChannelId}
    (hid : id ∈ x.opened) : Option.Rel Mirrors (x.engine.liveSlot id) (y.engine.liveSlot id) := by
  obtain ⟨caps, caps', slots, next, opened', announced, xs, ys, hjoined, hknown, hopened, hnone⟩ := h
  obtain ⟨k, hk, rfl⟩ := hopened id hid
  have htoldX := hjoined.left.told
  have htoldY := hjoined.right.told
  rw [hx] at htoldX
  rw [hy] at htoldY
  cases htoldX
  cases htoldY
  obtain ⟨t, ht, hshared⟩ := hjoined.left.table
  obtain ⟨t', ht', hshared'⟩ := hjoined.right.table
  have hlt := Nat.lt_of_lt_of_le (hjoined.within k hk) hjoined.size
  obtain ⟨slot, hslot, _⟩ := hshared.slot hlt
  obtain ⟨slot', hslot', _⟩ := hshared'.slot hlt
  have hmem : k ∈ {i | i < next} := hjoined.within k hk
  have hmem' : k ∈ opened' := (hjoined.right.orderly.symm ▸ hk : k ∈ opened' ∩ announced).1
  have hsame := (hjoined.balanced k (.inl hk)).eq
  rw [Endpoint.life_of_table ht, Endpoint.life_of_table ht', ChannelTable.life_of_slot hslot,
    ChannelTable.life_of_slot hslot'] at hsame
  unfold ConnectionEngine.liveSlot
  rw [ht, ht']
  change Option.Rel Mirrors (t.find (firstId k)) (t'.find (firstId k))
  cases hlive : slot.live with
  | true =>
    rw [ChannelSlot.life_of_live hlive] at hsame
    cases hlive' : slot'.live with
    | true =>
      rw [ChannelSlot.life_of_live hlive'] at hsame
      have hhalves := WithTop.coe_injective (WithBot.coe_injective hsame)
      rw [(hshared.find_iff hmem hslot).mpr ⟨rfl, hlive⟩, (hshared'.find_iff hmem' hslot').mpr ⟨rfl, hlive'⟩]
      exact .some ⟨congrArg Prod.fst hhalves, congrArg Prod.snd hhalves⟩
    | false =>
      rw [ChannelSlot.life_of_dead (hshared'.used.taken k slot' hslot' hmem').1 hlive'] at hsame
      exact absurd hsame (Life.closed_ne_top _)
  | false =>
    rw [ChannelSlot.life_of_dead (hshared.used.taken k slot hslot hmem).1 hlive] at hsame
    cases hlive' : slot'.live with
    | true =>
      rw [ChannelSlot.life_of_live hlive'] at hsame
      exact absurd hsame.symm (Life.closed_ne_top _)
    | false =>
      rw [hshared.find_dead hmem hslot hlive, hshared'.find_dead hmem' hslot' hlive']
      exact .none

/-- Two ends that have just negotiated. -/
theorem Matched.converging {caps caps' : CapabilitySet} {slots : Nat} (h : Matched x y caps caps' slots 0 0)
    (hx : x.opened = []) (hy : y.opened = []) : Converging x y := by
  obtain ⟨t, ht, hfilled, hlength⟩ := h.left.table
  obtain ⟨t', ht', hfilled', hlength'⟩ := h.right.table
  have hnothing : {i | i < 0} = (∅ : Set Nat) := by
    ext i
    simp
  have hshared : ∀ {t : ChannelTable}, t.Filled 0 → t.slots.length = slots → t.Shared slots {i | i < 0} := by
    intro t hfilled hlength
    refine ⟨hfilled.used, fun slot hslot => ?_, hlength⟩
    obtain ⟨i, hi⟩ := List.mem_iff_getElem?.mp hslot
    have hfree := (hfilled.free i slot hi (Nat.zero_le i)).1
    exact ⟨by rw [hfree]; rintro ⟨⟩, by rw [hfree]; rintro ⟨⟩⟩
  have hempty : ∀ {caps : CapabilitySet} {chunks : List Bytes}, Opening caps 0 0 chunks → chunks = [] := by
    intro caps chunks hopening
    cases hopening
    rfl
  refine ⟨caps, caps', slots, 0, {i | i < 0}, ∅, [], [], ⟨⟨h.left.ready, ⟨t, ht, hshared hfilled hlength⟩,
    by rw [hempty h.toLeft]; exact .nil, Set.inter_empty _, fun k hk => hk⟩, ⟨h.right.ready,
    ⟨t', ht', hshared hfilled' hlength'⟩, by rw [hempty h.toRight]; exact .nil, Set.inter_empty _,
    fun k hk => hk⟩, h.serves, fun k hk => hk.elim, Nat.zero_le slots, fun k _ => ?_⟩,
    subset_of_eq hnothing, by simp [hx], hy⟩
  rw [Endpoint.life_of_table ht, Endpoint.life_of_table ht',
    (hshared hfilled hlength).life_unopened (Nat.not_lt_zero k),
    (hshared hfilled' hlength').life_unopened (Nat.not_lt_zero k)]
  rfl

end

/-- The link as its opener sees it. -/
def Link.Converging (l : Link) (opener : Side) : Prop :=
  LatticeGateway.Converging (l.at opener) (l.at opener.other)

theorem Link.Converging.on {l : Link} {opener side : Side}
    {act : Endpoint → Endpoint → Endpoint × Endpoint}
    (hopener : side = opener → LatticeGateway.Converging (act (l.at opener) (l.at opener.other)).1
      (act (l.at opener) (l.at opener.other)).2)
    (hother : side = opener.other → LatticeGateway.Converging (act (l.at opener.other) (l.at opener)).2
      (act (l.at opener.other) (l.at opener)).1) : (l.on side act).Converging opener := by
  cases side with
  | a =>
    cases opener with
    | a => exact hopener rfl
    | b => exact hother rfl
  | b =>
    cases opener with
    | a => exact hother rfl
    | b => exact hopener rfl

theorem Link.Converging.act {l : Link} {opener : Side} (h : l.Converging opener) {move : CloseMove}
    (hopens : move.OpensAt opener) (hnumbered : l.ClosesNumbered move) :
    (l.act move).Converging opener := by
  cases move with
  | openChannel side request =>
    obtain rfl : side = opener := hopens
    exact .on (fun _ => h.openChannel request) fun hside => by cases side <;> cases hside
  | halfClose side id direction =>
    have hcloses : (l.at side).engine.Announcing ((l.at side).engine.halfClose id direction) :=
      fun mirrored _ _ _ _ hready ht hshared => hready.halfClose_closes ht hshared mirrored hnumbered
    exact .on (fun hside => by subst hside; exact Converging.closes h hcloses)
      fun hside => by subst hside; exact Converging.other_closes h hcloses
  | reset side id =>
    have hcloses : (l.at side).engine.Announcing ((l.at side).engine.reset id) :=
      fun mirrored _ _ _ _ hready ht hshared => hready.reset_closes ht hshared mirrored hnumbered
    exact .on (fun hside => by subst hside; exact Converging.closes h hcloses)
      fun hside => by subst hside; exact Converging.other_closes h hcloses
  | deliver side => exact .on (fun _ => Converging.deliver h) fun _ => Converging.other_deliver h

theorem Mirrors.symm_rel {slot slot' : Option ChannelSlot} (h : Option.Rel Mirrors slot slot') :
    Option.Rel Mirrors slot' slot := by
  cases h with
  | none => exact .none
  | some h => exact .some ⟨h.2.symm, h.1.symm⟩

theorem Link.Converging.converged {l : Link} {opener : Side} (h : l.Converging opener) : l.Converged := by
  intro ha hb id hid
  have hnone : (l.at opener.other).opened = [] := by
    obtain ⟨_, _, _, _, _, _, _, _, _, _, _, hnone⟩ := h
    exact hnone
  cases opener with
  | a =>
    rw [show l.b.opened = [] from hnone, List.append_nil] at hid
    exact Converging.settled h ha hb hid
  | b =>
    rw [show l.a.opened = [] from hnone, List.nil_append] at hid
    exact Mirrors.symm_rel (Converging.settled h hb ha hid)

/-- Whatever one side opens, both sides close, and in whatever order the frames arrive, the ends agree on
every channel whenever no frame is in flight. -/
theorem closes_converge {a b a' b' : ConnectionEngine} (ha : Fresh a) (hb : Fresh b)
    (hhello : helloExchange a b = some (a', b')) (opener : Side) (moves : List CloseMove)
    (hopens : ∀ move ∈ moves, move.OpensAt opener)
    (h : Along Link.act Link.ClosesNumbered { a := { engine := a' }, b := { engine := b' } } moves) :
    (run Link.act { a := { engine := a' }, b := { engine := b' } } moves).Converged := by
  obtain ⟨caps, caps', slots, hmatched⟩ := matched_start ha hb hhello
  have hstart : Link.Converging { a := { engine := a' }, b := { engine := b' } } opener := by
    cases opener with
    | a => exact hmatched.converging rfl rfl
    | b => exact hmatched.symm.converging rfl rfl
  generalize ({ a := { engine := a' }, b := { engine := b' } } : Link) = l at hstart h ⊢
  induction moves generalizing l with
  | nil => exact hstart.converged
  | cons move moves ih =>
    obtain ⟨hfirst, hrest⟩ := List.forall_mem_cons.mp hopens
    exact ih hrest _ (hstart.act hfirst h.1) h.2

instance (move : CloseMove) (opener : Side) : Decidable (move.OpensAt opener) := by
  unfold CloseMove.OpensAt
  cases move with
  | openChannel => exact inferInstance
  | halfClose => exact isTrue trivial
  | reset => exact isTrue trivial
  | deliver => exact isTrue trivial

/-- Half-closes of both sides cross, and then a reset and a half-close. -/
def crossingMoves : List CloseMove :=
  [.openChannel .a {}, .deliver .b, .halfClose .a (firstId 0) .localSend, .halfClose .b (firstId 0) .localSend,
    .deliver .a, .reset .a (firstId 0), .halfClose .b (firstId 0) .remoteSend, .deliver .b, .deliver .a,
    .deliver .b]

theorem closes_converge_crossing : ∃ a' b', helloExchange echoEngine echoEngine = some (a', b') ∧
    (run Link.act { a := { engine := a' }, b := { engine := b' } } crossingMoves).Converged := by
  obtain ⟨a', b', hhello, hnumbered⟩ := @exchanged_of_any echoEngine echoEngine
    (fun a b => Along Link.act Link.ClosesNumbered { a := { engine := a }, b := { engine := b } }
      crossingMoves) _ (by decide +kernel)
  exact ⟨a', b', hhello, closes_converge echoEngine_fresh echoEngine_fresh hhello .a crossingMoves
    (by decide) hnumbered⟩

/-- A half-close whose frame is not sent is one that only its caller knows of. -/
theorem closes_diverge : ¬ ∀ (a b a' b' : ConnectionEngine), Fresh a → Fresh b →
    helloExchange a b = some (a', b') → ∀ (opener : Side) (moves : List CloseMove),
      (∀ move ∈ moves, move.OpensAt opener) →
      (run Link.act { a := { engine := a' }, b := { engine := b' } } moves).Converged := by
  intro h
  obtain ⟨a', b', hhello, ha, hb, hopened, hlocal, hremote⟩ :=
    @exchanged_of_any (echoEngine.loadReplaySnapshot wrappingSnapshot).2 echoEngine
    (fun a b =>
      (run Link.act { a := { engine := a }, b := { engine := b } }
        [.openChannel .a {}, .deliver .b, .halfClose .a (firstId 0) .localSend]).a.inbox = [] ∧
      (run Link.act { a := { engine := a }, b := { engine := b } }
        [.openChannel .a {}, .deliver .b, .halfClose .a (firstId 0) .localSend]).b.inbox = [] ∧
      firstId 0 ∈ (run Link.act { a := { engine := a }, b := { engine := b } }
        [.openChannel .a {}, .deliver .b, .halfClose .a (firstId 0) .localSend]).a.opened ∧
      ((run Link.act { a := { engine := a }, b := { engine := b } }
        [.openChannel .a {}, .deliver .b, .halfClose .a (firstId 0) .localSend]).a.engine.liveSlot
          (firstId 0)).map (·.localHalfClosed) = some true ∧
      ((run Link.act { a := { engine := a }, b := { engine := b } }
        [.openChannel .a {}, .deliver .b, .halfClose .a (firstId 0) .localSend]).b.engine.liveSlot
          (firstId 0)).map (·.remoteHalfClosed) = some false) _ (by decide +kernel)
  have hmirrors := h _ _ _ _ ⟨_, _, _, [wrappingSnapshot], rfl⟩ echoEngine_fresh hhello .a _ (by decide)
    ha hb (firstId 0) (List.mem_append_left _ hopened)
  obtain ⟨slot, hslot, hclosed⟩ := Option.map_eq_some_iff.mp hlocal
  obtain ⟨slot', hslot', hopen⟩ := Option.map_eq_some_iff.mp hremote
  rw [hslot, hslot'] at hmirrors
  cases hmirrors with
  | some hsame =>
    rw [hsame.1, hopen] at hclosed
    cases hclosed

end LatticeGateway

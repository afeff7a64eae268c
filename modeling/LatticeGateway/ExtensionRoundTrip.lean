import LatticeGateway.ExtensionGrammar

namespace LatticeGateway

theorem extensionLess_false_type {a b : Extension} (h : extensionLess b a = false) :
    a.type ≤ b.type := by
  unfold extensionLess at h
  split at h
  next he => rw [he]; exact UInt16.le_refl _
  next => simpa using h

instance extensionOrder_total : Std.Total (fun a b => extensionLess b a = false) where
  total a b := by
    unfold extensionLess
    by_cases he : a.type = b.type
    · simp only [he, if_true]
      cases a.required <;> cases b.required <;> simp
    · rw [if_neg (Ne.symm he), if_neg he]
      simp only [decide_eq_false_iff_not, UInt16.not_lt]
      exact UInt16.le_total _ _

instance extensionOrder_trans : IsTrans Extension (fun a b => extensionLess b a = false) where
  trans a b c hab hbc := by
    have h1 := extensionLess_false_type hab
    have h2 := extensionLess_false_type hbc
    unfold extensionLess at hab hbc ⊢
    by_cases hac : c.type = a.type
    · have heq : b.type = a.type := UInt16.le_antisymm (hac ▸ h2) h1
      rw [if_pos heq] at hab
      rw [if_pos (hac.trans heq.symm)] at hbc
      rw [if_pos hac]
      cases ha : a.required <;> cases hb : b.required <;> cases hc : c.required <;> simp_all
    · rw [if_neg hac]
      simpa using UInt16.le_trans h1 h2

/-- `ys` is `xs` sorted by `extensionLess` with equal elements left in their order. -/
structure StablySorted (xs ys : List Extension) : Prop where
  perm : ys.Perm xs
  sorted : ys.Pairwise (fun a b => extensionLess b a = false)
  stable : ∀ (type : UInt16) (required : Bool),
    ys.filter (fun e => e.type == type && e.required == required) =
      xs.filter (fun e => e.type == type && e.required == required)

theorem sortExtensions_stablySorted (xs : List Extension) : StablySorted xs (sortExtensions xs) where
  perm := List.perm_insertionSort _ xs
  sorted := List.pairwise_insertionSort _ xs
  stable type required := by
    have hsame : (xs.filter (fun e => e.type == type && e.required == required)).Pairwise
        (fun a b => extensionLess b a = false) := by
      apply List.pairwise_of_forall_mem_list
      intro a ha b hb
      simp only [List.mem_filter, Bool.and_eq_true, beq_iff_eq] at ha hb
      simp [extensionLess, ha.2.1, ha.2.2, hb.2.1, hb.2.2]
    have hsub := List.sublist_insertionSort hsame List.filter_sublist
    have hfilter := hsub.filter (fun e => e.type == type && e.required == required)
    rw [List.filter_filter] at hfilter
    simp only [Bool.and_self] at hfilter
    refine (hfilter.eq_of_length ?_).symm
    exact ((List.perm_insertionSort _ xs).filter _).length_eq.symm

theorem toNat_raw {type : UInt16} (required : Bool) (h : type.toNat < 2 ^ 15) :
    (type ||| (if required then kRequiredBit else 0)).toNat =
      type.toNat + if required then 2 ^ 15 else 0 := by
  cases required with
  | false => simp
  | true =>
    rw [if_pos rfl, if_pos rfl, UInt16.toNat_or, show kRequiredBit.toNat = 2 ^ 15 from rfl,
      Nat.or_comm, nat_or_eq_add (Nat.dvd_refl _) h, Nat.add_comm]

theorem writeSortedExtensions_cons {extension : Extension} {extensions : List Extension} {out : Bytes}
    (h : writeSortedExtensions (extension :: extensions) = .ok out) :
    ¬ extension.type > 0x7FFF ∧ ∃ more, writeSortedExtensions extensions = .ok more ∧
      out = u16Bytes (extension.type ||| (if extension.required then kRequiredBit else 0)) ++
        encodeUleb128Loop (kMaxVarintBytes + 1) (UInt32.ofNat extension.value.length) ++
        (extension.value ++ more) := by
  simp only [writeSortedExtensions, encodeUleb128_eq] at h
  split at h
  next => cases h
  next htype =>
    cases hw : writeSortedExtensions extensions with
    | error error => simp [hw] at h
    | ok more =>
      simp only [hw, Except.ok.injEq] at h
      exact ⟨htype, more, rfl, by rw [← h, List.append_assoc]⟩

/-- What is written of sorted extensions is an extension block. -/
theorem writeSortedExtensions_block {extensions : List Extension} {out : Bytes}
    (hwrite : writeSortedExtensions extensions = .ok out) (hlen : out.length < 2 ^ 32)
    (hsorted : extensions.Pairwise (fun a b => a.type ≤ b.type))
    (hknown : ∀ e ∈ extensions, e.required = true → knownRequiredExtension e.type = true) :
    ExtensionBlock extensions out := by
  induction extensions generalizing out with
  | nil =>
    cases hwrite
    exact .nil
  | cons extension extensions ih =>
    obtain ⟨htype, more, hmore, hout⟩ := writeSortedExtensions_cons hwrite
    obtain ⟨hle, hsorted'⟩ := List.pairwise_cons.mp hsorted
    have hlength := congrArg List.length hout
    simp only [List.length_append] at hlength
    have htype' : extension.type.toNat < 2 ^ 15 := by
      rw [gt_iff_lt, UInt16.lt_iff_toNat_lt, show (0x7FFF : UInt16).toNat = 32767 from rfl] at htype
      omega
    have hvalue : (UInt32.ofNat extension.value.length).toNat = extension.value.length := by
      rw [UInt32.toNat_ofNat']
      exact Nat.mod_eq_of_lt (by omega)
    have hsize := encodeUleb128Loop_minimal (UInt32.ofNat extension.value.length)
    rw [hvalue] at hsize
    have hrest := ih hmore (by omega) hsorted' (fun e he => hknown e (List.mem_cons_of_mem _ he))
    rw [hout, u16Bytes_eq_digits, toNat_raw _ htype', ← List.append_assoc]
    exact .cons htype'
      (fun hrequired => (knownRequiredExtension_iff _).mp (hknown extension (by simp) hrequired))
      hle hsize hrest

/-- An extension block is what is written of its extensions, taken in its order. -/
theorem ExtensionBlock.written {extensions : List Extension} {out : Bytes}
    (h : ExtensionBlock extensions out) (hlen : out.length < 2 ^ 32) :
    writeSortedExtensions extensions = .ok out := by
  induction h with
  | nil => rfl
  | @cons e es size out htype hknown hsorted hminimal hblock ih =>
    simp only [List.length_append, BigEndian.length_digits] at hlen
    have hvalue : (UInt32.ofNat e.value.length).toNat = e.value.length := by
      rw [UInt32.toNat_ofNat']
      exact Nat.mod_eq_of_lt (by omega)
    have hrange : ¬ e.type > 0x7FFF := by
      rw [gt_iff_lt, UInt16.lt_iff_toNat_lt, show (0x7FFF : UInt16).toNat = 32767 from rfl]
      omega
    rw [← hvalue] at hminimal
    rw [writeSortedExtensions, if_neg hrange, encodeUleb128_eq, ih (by omega),
      hminimal.unique (encodeUleb128Loop_minimal _), ← toNat_raw _ htype, ← u16Bytes_eq_digits]

theorem writeExtensions_block {extensions : List Extension} {out : Bytes}
    (hwrite : writeExtensions extensions = .ok out) (hlen : out.length < 2 ^ 32)
    (hknown : ∀ e ∈ extensions, e.required = true → knownRequiredExtension e.type = true) :
    ExtensionBlock (sortExtensions extensions) out := by
  have hstable := sortExtensions_stablySorted extensions
  exact writeSortedExtensions_block hwrite hlen (hstable.sorted.imp extensionLess_false_type)
    (fun e he => hknown e (hstable.perm.mem_iff.mp he))

theorem ExtensionBlock.types_sorted {extensions : List Extension} {block : Bytes}
    (h : ExtensionBlock extensions block) : extensions.Pairwise (fun a b => a.type ≤ b.type) := by
  induction h with
  | nil => exact .nil
  | cons _ _ hsorted _ _ ih => exact .cons hsorted ih

theorem ExtensionBlock.knownRequired {extensions : List Extension} {block : Bytes}
    (h : ExtensionBlock extensions block) :
    ∀ e ∈ extensions, e.required = true → knownRequiredExtension e.type = true := by
  induction h with
  | nil => simp
  | @cons e es _ _ _ hknown _ _ _ ih =>
    rintro e' (_ | ⟨_, hlater⟩) hrequired
    · exact (knownRequiredExtension_iff _).mpr (hknown hrequired)
    · exact ih e' hlater hrequired

theorem extensionLess_false_iff {a b : Extension} (h : a.type ≤ b.type) :
    extensionLess b a = false ↔ (a.type = b.type → b.required = true → a.required = true) := by
  unfold extensionLess
  by_cases he : b.type = a.type
  · rw [if_pos he, Bool.and_eq_false_imp, Bool.not_eq_false']
    exact ⟨fun k _ => k, fun k => k he.symm⟩
  · rw [if_neg he, decide_eq_false_iff_not, UInt16.not_lt]
    exact ⟨fun _ heq => absurd heq.symm he, fun _ => h⟩

/-- Types that do not fall are in the order of `extensionLess` when no optional extension stands before a
required one of its type. -/
theorem sortExtensions_eq_self_iff {extensions : List Extension}
    (h : extensions.Pairwise (fun a b => a.type ≤ b.type)) :
    sortExtensions extensions = extensions ↔
      extensions.Pairwise (fun a b => a.type = b.type → b.required = true → a.required = true) := by
  have hiff : extensions.Pairwise (fun a b => extensionLess b a = false) ↔
      extensions.Pairwise (fun a b => a.type = b.type → b.required = true → a.required = true) :=
    ⟨fun k => (h.and k).imp fun hab => (extensionLess_false_iff hab.1).mp hab.2,
      fun k => (h.and k).imp fun hab => (extensionLess_false_iff hab.1).mpr hab.2⟩
  rw [← hiff]
  constructor
  · intro heq
    rw [← heq]
    exact (sortExtensions_stablySorted extensions).sorted
  · intro hsorted
    exact List.Pairwise.insertionSort_eq hsorted

end LatticeGateway

import LatticeGateway.HelloRoundTrip
import LatticeGateway.PluginRegistry

namespace LatticeGateway

/-- Some plugin of the list serves the family. -/
def Serves (plugins : List PluginDescriptor) (family : UInt32) : Prop :=
  ∃ plugin ∈ plugins, plugin.familyId = family

theorem serves_sort {plugins : List PluginDescriptor} {family : UInt32} :
    Serves (sortPlugins plugins) family ↔ Serves plugins family := by
  unfold Serves sortPlugins
  simp only [List.mem_insertionSort]

theorem all_ne_eq_false {plugins : List PluginDescriptor} {family : UInt32} :
    plugins.all (·.familyId ≠ family) = false ↔ Serves plugins family := by
  simp [Serves]

/-- The descriptors that a local plugin shares with the peer's. -/
def sharedWith (peers : List PluginDescriptor) (lhs : PluginDescriptor) : List PluginDescriptor :=
  (peers.filter (·.familyId = lhs.familyId)).map fun rhs =>
    { lhs with maxDepth := min lhs.maxDepth rhs.maxDepth }

/-- The two sides offer one family under two schemas. -/
def SchemaMismatch (locals peers : List PluginDescriptor) : Prop :=
  ∃ lhs ∈ locals, ∃ rhs ∈ peers, rhs.familyId = lhs.familyId ∧ rhs.schemaHash ≠ lhs.schemaHash

theorem mem_sharedWith {peers : List PluginDescriptor} {lhs plugin : PluginDescriptor} :
    plugin ∈ sharedWith peers lhs ↔ ∃ rhs ∈ peers, rhs.familyId = lhs.familyId ∧
      plugin = { lhs with maxDepth := min lhs.maxDepth rhs.maxDepth } := by
  simp only [sharedWith, List.mem_map, List.mem_filter, decide_eq_true_eq]
  constructor
  · rintro ⟨rhs, ⟨hmem, hfamily⟩, rfl⟩
    exact ⟨rhs, hmem, hfamily, rfl⟩
  · rintro ⟨rhs, hmem, hfamily, rfl⟩
    exact ⟨rhs, ⟨hmem, hfamily⟩, rfl⟩

theorem commonPlugins_cases (locals peers : List PluginDescriptor) :
    (SchemaMismatch locals peers ∧ commonPlugins locals peers =
      .error (makeError .plugin .negotiationRejected .closeConnection "plugin schema hash mismatch")) ∨
    (¬ SchemaMismatch locals peers ∧
      commonPlugins locals peers = .ok (locals.flatMap (sharedWith peers))) := by
  induction locals with
  | nil => exact .inr ⟨by simp [SchemaMismatch], rfl⟩
  | cons lhs locals ih =>
    have hsplit : SchemaMismatch (lhs :: locals) peers ↔
        (∃ rhs ∈ peers, rhs.familyId = lhs.familyId ∧ rhs.schemaHash ≠ lhs.schemaHash) ∨
          SchemaMismatch locals peers := by
      simp [SchemaMismatch]
    have hany : (peers.filter (·.familyId = lhs.familyId)).any (·.schemaHash ≠ lhs.schemaHash) = true ↔
        ∃ rhs ∈ peers, rhs.familyId = lhs.familyId ∧ rhs.schemaHash ≠ lhs.schemaHash := by
      simp
    unfold commonPlugins
    dsimp only
    by_cases hfirst : ∃ rhs ∈ peers, rhs.familyId = lhs.familyId ∧ rhs.schemaHash ≠ lhs.schemaHash
    · exact .inl ⟨hsplit.mpr (.inl hfirst), if_pos (hany.mpr hfirst)⟩
    · rw [if_neg (mt hany.mp hfirst)]
      rcases ih with ⟨hmismatch, hcommon⟩ | ⟨hnone, hcommon⟩
      · exact .inl ⟨hsplit.mpr (.inr hmismatch), by rw [hcommon]⟩
      · refine .inr ⟨mt hsplit.mp (not_or.mpr ⟨hfirst, hnone⟩), ?_⟩
        rw [hcommon]
        rfl

theorem commonPlugins_ok {locals peers plugins : List PluginDescriptor}
    (h : commonPlugins locals peers = .ok plugins) :
    ¬ SchemaMismatch locals peers ∧ plugins = locals.flatMap (sharedWith peers) := by
  rcases commonPlugins_cases locals peers with ⟨_, hcommon⟩ | ⟨hnone, hcommon⟩
  · rw [hcommon] at h
    cases h
  · rw [hcommon] at h
    exact ⟨hnone, (Except.ok.inj h).symm⟩

theorem serves_flatMap {locals peers : List PluginDescriptor} {family : UInt32} :
    Serves (locals.flatMap (sharedWith peers)) family ↔ Serves locals family ∧ Serves peers family := by
  unfold Serves
  simp only [List.mem_flatMap, mem_sharedWith]
  constructor
  · rintro ⟨_, ⟨lhs, hlhs, rhs, hrhs, hsame, rfl⟩, rfl⟩
    exact ⟨⟨lhs, hlhs, rfl⟩, rhs, hrhs, hsame⟩
  · rintro ⟨⟨lhs, hlhs, rfl⟩, rhs, hrhs, hsame⟩
    exact ⟨_, ⟨lhs, hlhs, rhs, hrhs, hsame, rfl⟩, rfl⟩

/-- How often each family comes up among the common descriptors. -/
theorem families_flatMap (locals peers : List PluginDescriptor) :
    (locals.flatMap (sharedWith peers)).map (·.familyId) = locals.flatMap fun lhs =>
      List.replicate (peers.countP (·.familyId = lhs.familyId)) lhs.familyId := by
  rw [List.map_flatMap]
  congr 1
  funext lhs
  simp [sharedWith, List.map_map, Function.comp_def, List.map_const', List.countP_eq_length_filter]

theorem distinct_flatMap {locals peers : List PluginDescriptor} (h : DistinctFamilies locals) :
    DistinctFamilies (locals.flatMap (sharedWith peers)) ↔
      ∀ lhs ∈ locals, peers.countP (·.familyId = lhs.familyId) ≤ 1 := by
  unfold DistinctFamilies at *
  rw [families_flatMap, List.nodup_flatMap]
  constructor
  · intro hnodup lhs hlhs
    exact List.nodup_replicate.mp (hnodup.1 lhs hlhs)
  · intro hcount
    refine ⟨fun lhs hlhs => List.nodup_replicate.mpr (hcount lhs hlhs), ?_⟩
    refine (List.pairwise_map.mp h).imp ?_
    intro lhs lhs' hne family hfamily hfamily'
    exact hne ((List.eq_of_mem_replicate hfamily).symm.trans (List.eq_of_mem_replicate hfamily'))

/-- What a successful negotiation has checked and chosen. -/
structure Agreed (ours peer : HelloMessage) (caps : CapabilitySet) : Prop where
  overlap : peer.minMajor ≤ ours.maxMajor ∧ ours.minMajor ≤ peer.maxMajor
  major : caps.major = min ours.maxMajor peer.maxMajor
  maxFrame : caps.maxFrame = min ours.limits.maxFrame peer.limits.maxFrame
  maxMessage : caps.maxMessage = min ours.limits.maxMessage peer.limits.maxMessage
  connectionWindow :
    caps.connectionWindow = min ours.limits.connectionWindow peer.limits.connectionWindow
  maxChannels : caps.maxChannels = min ours.limits.maxChannels peer.limits.maxChannels
  frame_ge : 128 ≤ caps.maxFrame
  window_ge : caps.maxFrame ≤ caps.connectionWindow
  features : caps.features = (ours.limits.requiredFeatures ||| ours.limits.optionalFeatures) &&&
    (peer.limits.requiredFeatures ||| peer.limits.optionalFeatures)
  required : ours.limits.requiredFeatures &&& ~~~caps.features = 0 ∧
    peer.limits.requiredFeatures &&& ~~~caps.features = 0
  matching : ¬ SchemaMismatch ours.plugins peer.plugins
  plugins : caps.plugins = sortPlugins (ours.plugins.flatMap (sharedWith peer.plugins))

theorem negotiate_ok {ours peer : HelloMessage} {caps : CapabilitySet}
    (h : negotiate ours peer = .ok caps) : Agreed ours peer caps := by
  unfold negotiate at h
  split at h
  next => cases h
  next hversions =>
    dsimp only at h
    split at h
    next => cases h
    next hlimits =>
      split at h
      next => cases h
      next hfeatures =>
        split at h
        next => cases h
        next => cases h
        next first rest hcommon =>
          cases h
          obtain ⟨hframe, _, hwindow, _⟩ : _ ∧ _ ∧ _ ∧ _ := by simpa only [not_or, not_lt] using hlimits
          obtain ⟨hpeer, hours⟩ := not_or.mp hversions
          obtain ⟨hmatching, hplugins⟩ := commonPlugins_ok hcommon
          exact ⟨⟨UInt16.not_lt.mp hpeer, UInt16.not_lt.mp hours⟩, rfl, rfl, rfl, rfl, rfl, hframe,
            hwindow, rfl, by simpa only [not_or, not_not] using hfeatures, hmatching, by rw [hplugins]⟩

theorem Agreed.serves {ours peer : HelloMessage} {caps : CapabilitySet} (h : Agreed ours peer caps)
    (family : UInt32) :
    Serves caps.plugins family ↔ Serves ours.plugins family ∧ Serves peer.plugins family := by
  rw [h.plugins, serves_sort, serves_flatMap]

/-- What a negotiated set may promise to either side. -/
structure Sound (ours peer : HelloMessage) (caps : CapabilitySet) : Prop where
  majorOurs : ours.minMajor ≤ caps.major ∧ caps.major ≤ ours.maxMajor
  majorPeer : peer.minMajor ≤ caps.major ∧ caps.major ≤ peer.maxMajor
  maxFrame : caps.maxFrame ≤ ours.limits.maxFrame ∧ caps.maxFrame ≤ peer.limits.maxFrame
  maxMessage : caps.maxMessage ≤ ours.limits.maxMessage ∧ caps.maxMessage ≤ peer.limits.maxMessage
  connectionWindow : caps.connectionWindow ≤ ours.limits.connectionWindow ∧
    caps.connectionWindow ≤ peer.limits.connectionWindow
  maxChannels : caps.maxChannels ≤ ours.limits.maxChannels ∧ caps.maxChannels ≤ peer.limits.maxChannels
  offered : caps.features &&& ~~~(ours.limits.requiredFeatures ||| ours.limits.optionalFeatures) = 0 ∧
    caps.features &&& ~~~(peer.limits.requiredFeatures ||| peer.limits.optionalFeatures) = 0
  required : ours.limits.requiredFeatures &&& ~~~caps.features = 0 ∧
    peer.limits.requiredFeatures &&& ~~~caps.features = 0
  increasing : caps.plugins.Pairwise fun a b => a.familyId < b.familyId
  plugins : ∀ plugin ∈ caps.plugins,
    (∃ lhs ∈ ours.plugins, lhs.familyId = plugin.familyId ∧ lhs.schemaHash = plugin.schemaHash) ∧
    (∃ rhs ∈ peer.plugins, rhs.familyId = plugin.familyId ∧ rhs.schemaHash = plugin.schemaHash)

theorem distinct_sort {plugins : List PluginDescriptor} :
    DistinctFamilies (sortPlugins plugins) ↔ DistinctFamilies plugins :=
  ((sortPlugins_perm plugins).map _).nodup_iff

theorem Agreed.offered {ours peer : HelloMessage} {caps : CapabilitySet} (h : Agreed ours peer caps)
    {plugin : PluginDescriptor} (hmem : plugin ∈ caps.plugins) :
    (∃ lhs ∈ ours.plugins, lhs.familyId = plugin.familyId ∧ lhs.schemaHash = plugin.schemaHash) ∧
    (∃ rhs ∈ peer.plugins, rhs.familyId = plugin.familyId ∧ rhs.schemaHash = plugin.schemaHash) := by
  rw [h.plugins, (sortPlugins_perm _).mem_iff, List.mem_flatMap] at hmem
  obtain ⟨lhs, hlhs, hshared⟩ := hmem
  obtain ⟨rhs, hrhs, hfamily, rfl⟩ := mem_sharedWith.mp hshared
  have hschema : rhs.schemaHash = lhs.schemaHash := by
    by_contra hne
    exact h.matching ⟨lhs, hlhs, rhs, hrhs, hfamily, hne⟩
  exact ⟨⟨lhs, hlhs, rfl, rfl⟩, rhs, hrhs, hfamily, hschema⟩

theorem and_and_not (a b : UInt64) : a &&& b &&& ~~~a = 0 ∧ a &&& b &&& ~~~b = 0 := by
  constructor <;>
  · apply UInt64.toBitVec_inj.mp
    ext i
    simp
    try tauto

theorem uint16_min (a b : UInt16) : min a b ≤ a ∧ min a b ≤ b ∧ (min a b = a ∨ min a b = b) := by
  have hmin : min a b = if a ≤ b then a else b := rfl
  rw [hmin]
  split
  next hle => exact ⟨UInt16.le_refl a, hle, .inl rfl⟩
  next hgt => exact ⟨(UInt16.le_total a b).resolve_left hgt, UInt16.le_refl b, .inr rfl⟩

/-- Negotiation is sound exactly when the peer's own version range is not inverted, and it lists none
of the local families twice. -/
theorem negotiation_sound_iff {ours peer : HelloMessage} {caps : CapabilitySet}
    (hversions : ours.minMajor ≤ ours.maxMajor) (hdistinct : DistinctFamilies ours.plugins)
    (h : negotiate ours peer = .ok caps) :
    Sound ours peer caps ↔ peer.minMajor ≤ peer.maxMajor ∧
      ∀ lhs ∈ ours.plugins, peer.plugins.countP (·.familyId = lhs.familyId) ≤ 1 := by
  have hagreed := negotiate_ok h
  have hfamilies : DistinctFamilies caps.plugins ↔
      ∀ lhs ∈ ours.plugins, peer.plugins.countP (·.familyId = lhs.familyId) ≤ 1 := by
    rw [hagreed.plugins, distinct_sort, distinct_flatMap hdistinct]
  constructor
  · intro hsound
    refine ⟨UInt16.le_trans hsound.majorPeer.1 hsound.majorPeer.2, hfamilies.mp ?_⟩
    exact List.pairwise_map.mpr (hsound.increasing.imp fun hlt => UInt32.ne_of_lt hlt)
  · rintro ⟨hpeer, hcount⟩
    have hmajor := hagreed.major
    have hwithin : (ours.minMajor ≤ caps.major ∧ caps.major ≤ ours.maxMajor) ∧
        peer.minMajor ≤ caps.major ∧ caps.major ≤ peer.maxMajor := by
      obtain ⟨hours, hpeers, hone⟩ := uint16_min ours.maxMajor peer.maxMajor
      rw [← hmajor] at hours hpeers hone
      obtain ⟨hlow, hhigh⟩ := hagreed.overlap
      rcases hone with hsame | hsame
      · rw [hsame] at hpeers ⊢
        exact ⟨⟨hversions, UInt16.le_refl _⟩, hlow, hpeers⟩
      · rw [hsame] at hours ⊢
        exact ⟨⟨hhigh, hours⟩, hpeer, UInt16.le_refl _⟩
    have hoffered := and_and_not (ours.limits.requiredFeatures ||| ours.limits.optionalFeatures)
      (peer.limits.requiredFeatures ||| peer.limits.optionalFeatures)
    rw [← hagreed.features] at hoffered
    have hincreasing : caps.plugins.Pairwise fun a b => a.familyId < b.familyId := by
      rw [hagreed.plugins]
      exact sortPlugins_strict ((distinct_flatMap hdistinct).mpr hcount)
    refine ⟨hwithin.1, hwithin.2, ?_, ?_, ?_, ?_, hoffered, hagreed.required, hincreasing,
      fun plugin hmem => hagreed.offered hmem⟩
    · rw [hagreed.maxFrame]
      exact ⟨min_le_left _ _, min_le_right _ _⟩
    · rw [hagreed.maxMessage]
      exact ⟨min_le_left _ _, min_le_right _ _⟩
    · rw [hagreed.connectionWindow]
      exact ⟨min_le_left _ _, min_le_right _ _⟩
    · obtain ⟨hours, hpeers, _⟩ := uint16_min ours.limits.maxChannels peer.limits.maxChannels
      rw [hagreed.maxChannels]
      exact ⟨hours, hpeers⟩

/-- The echo plugin alone on one side; the other lists another family twice beside it. -/
theorem negotiation_sound_iff_twice : ∃ caps,
    negotiate { plugins := [echoDescriptor] }
      { plugins := [{ familyId := 9 }, echoDescriptor, { familyId := 9 }] } = .ok caps ∧
    Sound { plugins := [echoDescriptor] }
      { plugins := [{ familyId := 9 }, echoDescriptor, { familyId := 9 }] } caps := by
  have hok : (negotiate { plugins := [echoDescriptor] }
      { plugins := [{ familyId := 9 }, echoDescriptor, { familyId := 9 }] }).toOption.isSome = true := by
    decide +kernel
  cases h : negotiate { plugins := [echoDescriptor] }
      { plugins := [{ familyId := 9 }, echoDescriptor, { familyId := 9 }] } with
  | error error => rw [h] at hok; cases hok
  | ok caps => exact ⟨caps, rfl, (negotiation_sound_iff (by decide) (by decide) h).mpr (by decide)⟩

/-- The HELLO payload of a peer that offers the versions from 2 to 1. -/
def invertedPayload : Bytes :=
  helloHead { minMajor := 2, maxMajor := 1, plugins := [echoDescriptor] } ++ descriptorBytes echoDescriptor

theorem negotiation_unsound : ¬ ∀ (ours peer : HelloMessage) (payload : Bytes) (caps : CapabilitySet),
    ours.minMajor ≤ ours.maxMajor → DistinctFamilies ours.plugins →
    decodeHelloPayload payload = .ok peer → negotiate ours peer = .ok caps → Sound ours peer caps := by
  intro hsound
  have hdecoded : (decodeHelloPayload invertedPayload).toOption.map (·.minMajor) = some 2 ∧
      ((decodeHelloPayload invertedPayload).toOption.bind fun peer =>
        (negotiate { maxMajor := 2, plugins := [echoDescriptor] } peer).toOption.map (·.major)) =
          some 1 := by decide +kernel
  obtain ⟨hmin, hmajor⟩ := hdecoded
  cases hpeer : decodeHelloPayload invertedPayload with
  | error error => rw [hpeer] at hmin; cases hmin
  | ok peer =>
    rw [hpeer] at hmin hmajor
    cases hcaps : negotiate { maxMajor := 2, plugins := [echoDescriptor] } peer with
    | error error => simp [hcaps, Except.toOption] at hmajor
    | ok caps =>
      have hmajorPeer := (hsound _ peer _ caps (by decide) (by decide) hpeer hcaps).majorPeer.1
      have hmin : peer.minMajor = 2 := by simpa [Except.toOption] using hmin
      have hmajor : caps.major = 1 := by simpa [hcaps, Except.toOption] using hmajor
      rw [hmin, hmajor] at hmajorPeer
      exact absurd hmajorPeer (by decide)

/-- The two ends come out of the exchange alike: with one capability set, or with errors of one kind. -/
def Alike : Except Error CapabilitySet → Except Error CapabilitySet → Prop
  | .ok caps, .ok caps' => caps = caps'
  | .error error, .error error' => error.scope = error'.scope ∧ error.code = error'.code
  | _, _ => False

/-- A HELLO that the wire carries unchanged, up to the order of its plugins. -/
structure HelloMessage.Faithful (hello : HelloMessage) : Prop where
  versions : hello.minMajor ≤ hello.maxMajor
  maxFrame : hello.limits.maxFrame < 2 ^ 32
  maxMessage : hello.limits.maxMessage < 2 ^ 32
  connectionWindow : hello.limits.connectionWindow < 2 ^ 32
  count : hello.plugins.length ≤ 65535
  distinct : DistinctFamilies hello.plugins

theorem HelloMessage.Faithful.onWire {hello : HelloMessage} (h : hello.Faithful) :
    hello.onWire.limits.maxFrame = hello.limits.maxFrame ∧
      hello.onWire.limits.maxMessage = hello.limits.maxMessage ∧
      hello.onWire.limits.connectionWindow = hello.limits.connectionWindow :=
  ⟨Nat.mod_eq_of_lt h.maxFrame, Nat.mod_eq_of_lt h.maxMessage, Nat.mod_eq_of_lt h.connectionWindow⟩

theorem schemaMismatch_comm {locals peers : List PluginDescriptor} :
    SchemaMismatch locals peers ↔ SchemaMismatch peers locals := by
  constructor <;> rintro ⟨lhs, hlhs, rhs, hrhs, hfamily, hschema⟩ <;>
    exact ⟨rhs, hrhs, lhs, hlhs, hfamily.symm, hschema.symm⟩

theorem schemaMismatch_sort {locals peers : List PluginDescriptor} :
    SchemaMismatch locals (sortPlugins peers) ↔ SchemaMismatch locals peers := by
  simp only [SchemaMismatch, (sortPlugins_perm peers).mem_iff]

theorem countP_le_one {plugins : List PluginDescriptor} (h : DistinctFamilies plugins) (family : UInt32) :
    plugins.countP (·.familyId = family) ≤ 1 := by
  have hcount := List.nodup_iff_count_le_one.mp h family
  rw [List.count, List.countP_map] at hcount
  refine Nat.le_trans (List.countP_mono_left ?_) hcount
  intro plugin _ hfamily
  simpa using hfamily

theorem uint16_min_comm (a b : UInt16) : min a b = min b a := by
  have hmin : ∀ a b : UInt16, min a b = if a ≤ b then a else b := fun _ _ => rfl
  have := @UInt16.le_antisymm a b
  have := UInt16.le_total a b
  rw [hmin, hmin]
  split <;> split <;> simp_all

theorem uint32_min_comm (a b : UInt32) : min a b = min b a := by
  have hmin : ∀ a b : UInt32, min a b = if a ≤ b then a else b := fun _ _ => rfl
  have := @UInt32.le_antisymm a b
  have := UInt32.le_total a b
  rw [hmin, hmin]
  split <;> split <;> simp_all

/-- Without a schema mismatch, either side finds the same common descriptors. -/
theorem mem_common_comm {locals peers : List PluginDescriptor} (h : ¬ SchemaMismatch locals peers)
    {plugin : PluginDescriptor} (hmem : plugin ∈ locals.flatMap (sharedWith peers)) :
    plugin ∈ peers.flatMap (sharedWith locals) := by
  obtain ⟨lhs, hlhs, hshared⟩ := List.mem_flatMap.mp hmem
  obtain ⟨rhs, hrhs, hfamily, rfl⟩ := mem_sharedWith.mp hshared
  have hschema : rhs.schemaHash = lhs.schemaHash := by
    by_contra hne
    exact h ⟨lhs, hlhs, rhs, hrhs, hfamily, hne⟩
  refine List.mem_flatMap.mpr ⟨rhs, hrhs, mem_sharedWith.mpr ⟨lhs, hlhs, hfamily.symm, ?_⟩⟩
  rw [hfamily, hschema, uint32_min_comm]

theorem distinct_common {locals peers : List PluginDescriptor} (hlocals : DistinctFamilies locals)
    (hpeers : DistinctFamilies peers) :
    DistinctFamilies (locals.flatMap (sharedWith (sortPlugins peers))) :=
  (distinct_flatMap hlocals).mpr fun lhs _ => countP_le_one (distinct_sort.mpr hpeers) lhs.familyId

theorem sort_common_comm {locals peers : List PluginDescriptor} (hlocals : DistinctFamilies locals)
    (hpeers : DistinctFamilies peers) (h : ¬ SchemaMismatch locals peers) :
    sortPlugins (locals.flatMap (sharedWith (sortPlugins peers))) =
      sortPlugins (peers.flatMap (sharedWith (sortPlugins locals))) := by
  have hleft := distinct_common hlocals hpeers
  have hright := distinct_common hpeers hlocals
  have hsorted : ∀ (xs ys : List PluginDescriptor) (plugin : PluginDescriptor),
      plugin ∈ xs.flatMap (sharedWith (sortPlugins ys)) ↔ plugin ∈ xs.flatMap (sharedWith ys) := by
    intro xs ys plugin
    simp only [List.mem_flatMap, mem_sharedWith, (sortPlugins_perm ys).mem_iff]
  have hperm : (locals.flatMap (sharedWith (sortPlugins peers))).Perm
      (peers.flatMap (sharedWith (sortPlugins locals))) := by
    refine (List.perm_ext_iff_of_nodup hleft.of_map hright.of_map).mpr fun plugin => ?_
    rw [hsorted, hsorted]
    exact ⟨mem_common_comm h, mem_common_comm (mt schemaMismatch_comm.mp h)⟩
  refine List.Perm.eq_of_pairwise ?_ (sortPlugins_strict hleft) (sortPlugins_strict hright)
    ((sortPlugins_perm _).trans (hperm.trans (sortPlugins_perm _).symm))
  intro a b _ _ hab hba
  exact absurd (UInt32.lt_trans hab hba) (UInt32.lt_irrefl _)

theorem sortPlugins_nil {plugins : List PluginDescriptor} : sortPlugins plugins = [] ↔ plugins = [] := by
  rw [← List.length_eq_zero_iff, length_sortPlugins, List.length_eq_zero_iff]

/-- Either side finds a schema mismatch, or the two find the same plugins. -/
theorem commonPlugins_alike {a b : List PluginDescriptor} (ha : DistinctFamilies a)
    (hb : DistinctFamilies b) :
    (∃ error, commonPlugins a (sortPlugins b) = .error error ∧
      commonPlugins b (sortPlugins a) = .error error) ∨
    ∃ xs ys, commonPlugins a (sortPlugins b) = .ok xs ∧ commonPlugins b (sortPlugins a) = .ok ys ∧
      sortPlugins xs = sortPlugins ys ∧ (xs = [] ↔ ys = []) := by
  have hA := commonPlugins_cases a (sortPlugins b)
  have hB := commonPlugins_cases b (sortPlugins a)
  rw [schemaMismatch_sort] at hA hB
  rcases hA with ⟨hmismatch, hA⟩ | ⟨hmatch, hA⟩
  · rcases hB with ⟨_, hB⟩ | ⟨hmatch, _⟩
    · exact .inl ⟨_, hA, hB⟩
    · exact absurd (schemaMismatch_comm.mp hmismatch) hmatch
  · rcases hB with ⟨hmismatch, _⟩ | ⟨_, hB⟩
    · exact absurd (schemaMismatch_comm.mp hmismatch) hmatch
    · have hsort := sort_common_comm ha hb hmatch
      refine .inr ⟨_, _, hA, hB, hsort, ?_⟩
      rw [← sortPlugins_nil, hsort, sortPlugins_nil]

theorem negotiate_alike {a b : HelloMessage} (ha : a.Faithful) (hb : b.Faithful) :
    Alike (negotiate a b.onWire) (negotiate b a.onWire) := by
  obtain ⟨hframeA, hmessageA, hwindowA⟩ := ha.onWire
  obtain ⟨hframeB, hmessageB, hwindowB⟩ := hb.onWire
  unfold negotiate
  by_cases hversions : a.maxMajor < b.onWire.minMajor ∨ b.onWire.maxMajor < a.minMajor
  · have hversions' : b.maxMajor < a.onWire.minMajor ∨ a.onWire.maxMajor < b.minMajor := hversions.symm
    rw [if_pos hversions, if_pos hversions']
    exact ⟨rfl, rfl⟩
  have hversions' : ¬ (b.maxMajor < a.onWire.minMajor ∨ a.onWire.maxMajor < b.minMajor) :=
    mt Or.symm hversions
  rw [if_neg hversions, if_neg hversions']
  have hmajor : min b.maxMajor a.onWire.maxMajor = min a.maxMajor b.onWire.maxMajor :=
    uint16_min_comm _ _
  have hchannels : min b.limits.maxChannels a.onWire.limits.maxChannels =
      min a.limits.maxChannels b.onWire.limits.maxChannels := uint16_min_comm _ _
  have hoffered : (b.limits.requiredFeatures ||| b.limits.optionalFeatures) &&&
      (a.onWire.limits.requiredFeatures ||| a.onWire.limits.optionalFeatures) =
      (a.limits.requiredFeatures ||| a.limits.optionalFeatures) &&&
        (b.onWire.limits.requiredFeatures ||| b.onWire.limits.optionalFeatures) := UInt64.and_comm _ _
  rw [hframeA, hmessageA, hwindowA, hframeB, hmessageB, hwindowB, hmajor, hchannels, hoffered,
    Nat.min_comm b.limits.maxFrame, Nat.min_comm b.limits.maxMessage,
    Nat.min_comm b.limits.connectionWindow]
  generalize min a.maxMajor b.onWire.maxMajor = major
  generalize min a.limits.maxChannels b.onWire.limits.maxChannels = maxChannels
  generalize (a.limits.requiredFeatures ||| a.limits.optionalFeatures) &&&
    (b.onWire.limits.requiredFeatures ||| b.onWire.limits.optionalFeatures) = features
  dsimp only
  split
  next => exact ⟨rfl, rfl⟩
  next =>
    by_cases hfeatures : a.limits.requiredFeatures &&& ~~~features ≠ 0 ∨
        b.onWire.limits.requiredFeatures &&& ~~~features ≠ 0
    · have hfeatures' : b.limits.requiredFeatures &&& ~~~features ≠ 0 ∨
          a.onWire.limits.requiredFeatures &&& ~~~features ≠ 0 := hfeatures.symm
      rw [if_pos hfeatures, if_pos hfeatures']
      exact ⟨rfl, rfl⟩
    have hfeatures' : ¬ (b.limits.requiredFeatures &&& ~~~features ≠ 0 ∨
        a.onWire.limits.requiredFeatures &&& ~~~features ≠ 0) := mt Or.symm hfeatures
    rw [if_neg hfeatures, if_neg hfeatures']
    have hpluginsA : a.onWire.plugins = sortPlugins a.plugins := rfl
    have hpluginsB : b.onWire.plugins = sortPlugins b.plugins := rfl
    rw [hpluginsA, hpluginsB]
    rcases commonPlugins_alike ha.distinct hb.distinct with
      ⟨error, hA, hB⟩ | ⟨xs, ys, hA, hB, hsort, hnil⟩
    · rw [hA, hB]
      exact ⟨rfl, rfl⟩
    · rw [hA, hB]
      cases xs with
      | nil =>
        obtain rfl := hnil.mp rfl
        exact ⟨rfl, rfl⟩
      | cons x xs =>
        cases ys with
        | nil => exact absurd (hnil.mpr rfl) (List.cons_ne_nil _ _)
        | cons y ys =>
          dsimp only
          rw [hsort]
          rfl

/-- Both ends of a HELLO exchange come to the same result. -/
theorem peers_agree {a b : HelloMessage} (ha : a.Faithful) (hb : b.Faithful) :
    ∃ payloadA payloadB readA readB,
      encodeHelloPayload a = .ok payloadA ∧ decodeHelloPayload payloadA = .ok readA ∧
      encodeHelloPayload b = .ok payloadB ∧ decodeHelloPayload payloadB = .ok readB ∧
      Alike (negotiate a readB) (negotiate b readA) := by
  obtain ⟨payloadA, hpayloadA⟩ := encodeHelloPayload_of_distinct ha.versions ha.distinct
  obtain ⟨payloadB, hpayloadB⟩ := encodeHelloPayload_of_distinct hb.versions hb.distinct
  have hcountA := ha.count
  have hcountB := hb.count
  exact ⟨payloadA, payloadB, a.onWire, b.onWire, hpayloadA,
    decodeHelloPayload_written hpayloadA (by omega), hpayloadB,
    decodeHelloPayload_written hpayloadB (by omega), negotiate_alike ha hb⟩

theorem peers_agree_echo :
    ∃ payloadA payloadB readA readB,
      encodeHelloPayload { plugins := [echoDescriptor] } = .ok payloadA ∧
      decodeHelloPayload payloadA = .ok readA ∧
      encodeHelloPayload { maxMajor := 3, plugins := [{ familyId := 9 }, echoDescriptor] } = .ok payloadB ∧
      decodeHelloPayload payloadB = .ok readB ∧
      Alike (negotiate { plugins := [echoDescriptor] } readB)
        (negotiate { maxMajor := 3, plugins := [{ familyId := 9 }, echoDescriptor] } readA) :=
  peers_agree ⟨by decide, by decide, by decide, by decide, by decide, by decide⟩
    ⟨by decide, by decide, by decide, by decide, by decide, by decide⟩

end LatticeGateway

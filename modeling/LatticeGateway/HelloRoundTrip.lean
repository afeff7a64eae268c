import LatticeGateway.Negotiator

namespace LatticeGateway

/-- A HELLO as its peer reads it: the limits are cut to 32 bits, the replay window is not sent. -/
def HelloMessage.onWire (hello : HelloMessage) : HelloMessage :=
  { minMajor := hello.minMajor, maxMajor := hello.maxMajor
    plugins := sortPlugins hello.plugins
    limits := { minMajor := hello.minMajor, maxMajor := hello.maxMajor
                maxFrame := hello.limits.maxFrame % 2 ^ 32
                maxMessage := hello.limits.maxMessage % 2 ^ 32
                connectionWindow := hello.limits.connectionWindow % 2 ^ 32
                maxChannels := hello.limits.maxChannels
                requiredFeatures := hello.limits.requiredFeatures
                optionalFeatures := hello.limits.optionalFeatures } }

@[simp] theorem length_descriptorBytes (plugin : PluginDescriptor) :
    (descriptorBytes plugin).length = 16 := rfl

theorem length_descriptors (plugins : List PluginDescriptor) :
    (plugins.flatMap descriptorBytes).length = 16 * plugins.length := by
  induction plugins with
  | nil => rfl
  | cons plugin plugins ih =>
    rw [List.flatMap_cons, List.length_append, ih, length_descriptorBytes, List.length_cons]
    omega

theorem writePlugins_ok {previous : Option UInt32} {plugins : List PluginDescriptor} {out : Bytes}
    (h : writePlugins previous plugins = .ok out) : out = plugins.flatMap descriptorBytes := by
  induction plugins generalizing previous out with
  | nil =>
    cases h
    rfl
  | cons plugin plugins ih =>
    unfold writePlugins at h
    split at h
    next => cases h
    next =>
      split at h
      next => cases h
      next rest hrest =>
        cases h
        rw [ih hrest, List.flatMap_cons]

theorem readPlugins_cursor {payload : Bytes} {count cursor last : Nat}
    {plugins : List PluginDescriptor} (h : readPlugins payload count cursor = .ok (plugins, last)) :
    last = cursor + 16 * count := by
  induction count generalizing cursor plugins with
  | zero =>
    cases h
    rfl
  | succ count ih =>
    unfold readPlugins at h
    split at h
    next => cases h
    next =>
      split at h
      next => cases h
      next rest last' hrest =>
        cases h
        have := ih hrest
        omega

theorem readPlugins_write (plugins : List PluginDescriptor) (head : Bytes) :
    readPlugins (head ++ plugins.flatMap descriptorBytes) plugins.length head.length =
      .ok (plugins, head.length + 16 * plugins.length) := by
  induction plugins generalizing head with
  | nil => rfl
  | cons plugin plugins ih =>
    have htail := ih (head ++ descriptorBytes plugin)
    rw [List.append_assoc, List.length_append, length_descriptorBytes] at htail
    have hfamily : u32At (head ++ (descriptorBytes plugin ++ plugins.flatMap descriptorBytes))
        head.length = plugin.familyId := by
      rw [descriptorBytes, List.append_assoc, List.append_assoc]
      exact u32At_behind rfl _ _
    have hschema : u64Of (((head ++ (descriptorBytes plugin ++
        plugins.flatMap descriptorBytes)).drop (head.length + 4)).take 8) = plugin.schemaHash := by
      have hread := @u64Of_behind (head ++ u32Bytes plugin.familyId) (head.length + 4) (by simp)
        plugin.schemaHash (u32Bytes plugin.maxDepth ++ plugins.flatMap descriptorBytes)
      simpa only [descriptorBytes, List.append_assoc] using hread
    have hdepth : u32At (head ++ (descriptorBytes plugin ++ plugins.flatMap descriptorBytes))
        (head.length + 12) = plugin.maxDepth := by
      have hread := @u32At_behind (head ++ u32Bytes plugin.familyId ++ u64Bytes plugin.schemaHash)
        (head.length + 12) (by simp) plugin.maxDepth (plugins.flatMap descriptorBytes)
      simpa only [descriptorBytes, List.append_assoc] using hread
    have hlength : (head ++ (descriptorBytes plugin ++ plugins.flatMap descriptorBytes)).length =
        head.length + (16 + 16 * plugins.length) := by
      rw [List.length_append, List.length_append, length_descriptorBytes, length_descriptors]
    rw [List.length_cons, List.flatMap_cons]
    unfold readPlugins
    rw [if_neg (by omega), htail]
    simp only [hfamily, hschema, hdepth]
    congr 2
    omega

/-- The fixed fields of a HELLO payload. -/
def helloHead (hello : HelloMessage) : Bytes :=
  u16Bytes hello.minMajor ++ u16Bytes hello.maxMajor ++
    u32Bytes (UInt32.ofNat hello.limits.maxFrame) ++
    u32Bytes (UInt32.ofNat hello.limits.maxMessage) ++
    u32Bytes (UInt32.ofNat hello.limits.connectionWindow) ++ u16Bytes hello.limits.maxChannels ++
    u64Bytes hello.limits.requiredFeatures ++ u64Bytes hello.limits.optionalFeatures ++
    u16Bytes (UInt16.ofNat hello.plugins.length)

@[simp] theorem length_helloHead (hello : HelloMessage) : (helloHead hello).length = 36 := rfl

theorem helloHead_reads (hello : HelloMessage) (rest : Bytes) {payload : Bytes}
    (hpayload : payload = helloHead hello ++ rest) :
    u16At payload 0 = hello.minMajor ∧ u16At payload 2 = hello.maxMajor ∧
      u32At payload 4 = UInt32.ofNat hello.limits.maxFrame ∧
      u32At payload 8 = UInt32.ofNat hello.limits.maxMessage ∧
      u32At payload 12 = UInt32.ofNat hello.limits.connectionWindow ∧
      u16At payload 16 = hello.limits.maxChannels ∧
      u64Of ((payload.drop 18).take 8) = hello.limits.requiredFeatures ∧
      u64Of ((payload.drop 26).take 8) = hello.limits.optionalFeatures ∧
      u16At payload 34 = UInt16.ofNat hello.plugins.length := by
  let versions := u16Bytes hello.minMajor ++ u16Bytes hello.maxMajor
  let sizes := versions ++ u32Bytes (UInt32.ofNat hello.limits.maxFrame) ++
    u32Bytes (UInt32.ofNat hello.limits.maxMessage)
  let limits := sizes ++ u32Bytes (UInt32.ofNat hello.limits.connectionWindow) ++
    u16Bytes hello.limits.maxChannels
  have hall : payload = u16Bytes hello.minMajor ++ (u16Bytes hello.maxMajor ++
      (u32Bytes (UInt32.ofNat hello.limits.maxFrame) ++
      (u32Bytes (UInt32.ofNat hello.limits.maxMessage) ++
      (u32Bytes (UInt32.ofNat hello.limits.connectionWindow) ++
      (u16Bytes hello.limits.maxChannels ++ (u64Bytes hello.limits.requiredFeatures ++
      (u64Bytes hello.limits.optionalFeatures ++
      (u16Bytes (UInt16.ofNat hello.plugins.length) ++ rest)))))))) := by
    rw [hpayload]
    simp only [helloHead, List.append_assoc]
  rw [hall]
  refine ⟨u16At_u16Bytes _ _, u16At_behind rfl _ _, ?_, ?_, ?_, ?_, ?_, ?_, ?_⟩
  · simpa only [versions, List.append_assoc] using @u32At_behind versions 4 rfl _ _
  · simpa only [versions, List.append_assoc] using
      @u32At_behind (versions ++ u32Bytes (UInt32.ofNat hello.limits.maxFrame)) 8 rfl _ _
  · simpa only [versions, sizes, List.append_assoc] using @u32At_behind sizes 12 rfl _ _
  · simpa only [versions, sizes, List.append_assoc] using
      @u16At_behind (sizes ++ u32Bytes (UInt32.ofNat hello.limits.connectionWindow)) 16 rfl _ _
  · simpa only [versions, sizes, limits, List.append_assoc] using @u64Of_behind limits 18 rfl _ _
  · simpa only [versions, sizes, limits, List.append_assoc] using
      @u64Of_behind (limits ++ u64Bytes hello.limits.requiredFeatures) 26 rfl _ _
  · simpa only [versions, sizes, limits, List.append_assoc] using
      @u16At_behind (limits ++ u64Bytes hello.limits.requiredFeatures ++
        u64Bytes hello.limits.optionalFeatures) 34 rfl _ _

theorem encodeHelloPayload_ok {hello : HelloMessage} {payload : Bytes}
    (h : encodeHelloPayload hello = .ok payload) :
    payload = helloHead hello ++ (sortPlugins hello.plugins).flatMap descriptorBytes := by
  unfold encodeHelloPayload at h
  split at h
  next => cases h
  next =>
    dsimp only at h
    split at h
    next => cases h
    next plugins hplugins =>
      cases h
      rw [writePlugins_ok hplugins]
      rfl

theorem length_sortPlugins (plugins : List PluginDescriptor) :
    (sortPlugins plugins).length = plugins.length := List.length_insertionSort _ _

/-- What is read from a HELLO payload is what was written to it. -/
theorem decode_encode_hello {hello peer : HelloMessage} {payload : Bytes}
    (h : encodeHelloPayload hello = .ok payload) (h' : decodeHelloPayload payload = .ok peer) :
    peer = hello.onWire := by
  obtain rfl := encodeHelloPayload_ok h
  obtain ⟨hmin, hmax, hframe, hmessage, hwindow, hchannels, hrequired, hoptional, hcount⟩ :=
    helloHead_reads hello ((sortPlugins hello.plugins).flatMap descriptorBytes) rfl
  unfold decodeHelloPayload at h'
  rw [if_neg (by simp), hcount] at h'
  split at h'
  next => cases h'
  next read cursor hread =>
    split at h'
    next => cases h'
    next hcursor =>
      have hall : (UInt16.ofNat hello.plugins.length).toNat = (sortPlugins hello.plugins).length := by
        have hlast := readPlugins_cursor hread
        have hlength := not_not.mp hcursor
        rw [List.length_append, length_helloHead, length_descriptors] at hlength
        omega
      have hwrite := readPlugins_write (sortPlugins hello.plugins) (helloHead hello)
      rw [length_helloHead] at hwrite
      rw [hall, hwrite] at hread
      cases hread
      cases h'
      rw [HelloMessage.onWire, hmin, hmax, hframe, hmessage, hwindow, hchannels, hrequired, hoptional]
      simp only [UInt32.toNat_ofNat']

/-- A HELLO payload is read whenever the number of its plugins fits in 16 bits. -/
theorem decodeHelloPayload_written {hello : HelloMessage} {payload : Bytes}
    (h : encodeHelloPayload hello = .ok payload) (hcount : hello.plugins.length < 2 ^ 16) :
    decodeHelloPayload payload = .ok hello.onWire := by
  cases hdecode : decodeHelloPayload payload with
  | ok peer => rw [decode_encode_hello h hdecode]
  | error error =>
    obtain rfl := encodeHelloPayload_ok h
    have hall : (UInt16.ofNat hello.plugins.length).toNat = (sortPlugins hello.plugins).length := by
      rw [UInt16.toNat_ofNat', Nat.mod_eq_of_lt hcount, length_sortPlugins]
    have hwrite := readPlugins_write (sortPlugins hello.plugins) (helloHead hello)
    rw [length_helloHead] at hwrite
    unfold decodeHelloPayload at hdecode
    rw [if_neg (by simp), (helloHead_reads hello _ rfl).2.2.2.2.2.2.2.2, hall, hwrite] at hdecode
    dsimp only at hdecode
    rw [if_neg (by rw [List.length_append, length_helloHead, length_descriptors]; simp)] at hdecode
    cases hdecode

theorem writePlugins_of_sorted {previous : Option UInt32} {plugins : List PluginDescriptor}
    (hsorted : plugins.Pairwise fun a b => a.familyId < b.familyId)
    (hprevious : ∀ family ∈ previous, ∀ plugin ∈ plugins, family < plugin.familyId) :
    ∃ out, writePlugins previous plugins = .ok out := by
  induction plugins generalizing previous with
  | nil => exact ⟨[], rfl⟩
  | cons plugin plugins ih =>
    obtain ⟨hfirst, hrest⟩ := List.pairwise_cons.mp hsorted
    obtain ⟨out, hout⟩ := @ih (some plugin.familyId) hrest (by simpa using hfirst)
    unfold writePlugins
    have hnew : previous ≠ some plugin.familyId := by
      rintro rfl
      exact absurd (hprevious _ rfl plugin (by simp)) (UInt32.lt_irrefl _)
    rw [if_neg hnew, hout]
    exact ⟨_, rfl⟩

/-- No two plugins of the list serve the same family. -/
def DistinctFamilies (plugins : List PluginDescriptor) : Prop := (plugins.map (·.familyId)).Nodup

instance (plugins : List PluginDescriptor) : Decidable (DistinctFamilies plugins) :=
  inferInstanceAs (Decidable (List.Nodup _))

theorem sortPlugins_perm (plugins : List PluginDescriptor) : (sortPlugins plugins).Perm plugins :=
  List.perm_insertionSort _ plugins

theorem sortPlugins_strict {plugins : List PluginDescriptor} (h : DistinctFamilies plugins) :
    (sortPlugins plugins).Pairwise fun a b => a.familyId < b.familyId := by
  have hle : (sortPlugins plugins).Pairwise fun a b => a.familyId ≤ b.familyId :=
    List.pairwise_insertionSort _ plugins
  have hne : (sortPlugins plugins).Pairwise fun a b => a.familyId ≠ b.familyId :=
    List.pairwise_map.mp (((sortPlugins_perm plugins).map _).nodup_iff.mpr h)
  exact (hle.and hne).imp fun h => UInt32.lt_of_le_of_ne h.1 h.2

theorem encodeHelloPayload_of_distinct {hello : HelloMessage} (hversions : hello.minMajor ≤ hello.maxMajor)
    (hdistinct : DistinctFamilies hello.plugins) : ∃ payload, encodeHelloPayload hello = .ok payload := by
  obtain ⟨out, hout⟩ := @writePlugins_of_sorted none _ (sortPlugins_strict hdistinct) (by simp)
  unfold encodeHelloPayload
  rw [if_neg (UInt16.not_lt.mpr hversions), hout]
  exact ⟨_, rfl⟩

end LatticeGateway

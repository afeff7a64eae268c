import LatticeGateway.HelloRoundTrip

namespace LatticeGateway

/-- What a HELLO says on the wire; its limits are still of any size. -/
structure HelloFields where
  minMajor : UInt16
  maxMajor : UInt16
  maxFrame : Nat
  maxMessage : Nat
  connectionWindow : Nat
  maxChannels : UInt16
  requiredFeatures : UInt64
  optionalFeatures : UInt64
  plugins : List PluginDescriptor
  deriving DecidableEq, Repr

def HelloMessage.fields (hello : HelloMessage) : HelloFields where
  minMajor := hello.minMajor
  maxMajor := hello.maxMajor
  maxFrame := hello.limits.maxFrame
  maxMessage := hello.limits.maxMessage
  connectionWindow := hello.limits.connectionWindow
  maxChannels := hello.limits.maxChannels
  requiredFeatures := hello.limits.requiredFeatures
  optionalFeatures := hello.limits.optionalFeatures
  plugins := sortPlugins hello.plugins

/-- The payload is read as a HELLO with the same fields. -/
def ReadAs (payload : Bytes) (hello : HelloMessage) : Prop :=
  ∃ peer, decodeHelloPayload payload = .ok peer ∧ peer.fields = hello.fields

/-- Whatever the payload is read as is written as this payload. -/
def WrittenAsRead (payload : Bytes) : Prop :=
  ∀ hello, ReadAs payload hello → encodeHelloPayload hello = .ok payload

/-- Whatever the HELLO is written as is read as this HELLO. -/
def ReadAsWritten (hello : HelloMessage) : Prop :=
  ∀ payload, encodeHelloPayload hello = .ok payload → ReadAs payload hello

/-- The descriptors that stand in the payload from an offset on. -/
def pluginsAt (payload : Bytes) (offset count : Nat) : List PluginDescriptor :=
  (List.range count).map fun i =>
    { familyId := u32At payload (offset + 16 * i)
      schemaHash := u64Of ((payload.drop (offset + 16 * i + 4)).take 8)
      maxDepth := u32At payload (offset + 16 * i + 12) }

/-- The descriptors that a HELLO payload lists. -/
def listedPlugins (payload : Bytes) : List PluginDescriptor :=
  pluginsAt payload 36 (u16At payload 34).toNat

/-- As many bytes as the count wants. -/
def HelloLaidOut (payload : Bytes) : Prop := payload.length = 36 + 16 * (u16At payload 34).toNat

instance (payload : Bytes) : Decidable (HelloLaidOut payload) := inferInstanceAs (Decidable (_ = _))

def AscendingFamilies (plugins : List PluginDescriptor) : Prop :=
  plugins.Pairwise fun a b => a.familyId < b.familyId

/-- The limits and the number of plugins that the layout has room for. -/
structure HelloMessage.Fits (hello : HelloMessage) : Prop where
  maxFrame : hello.limits.maxFrame < 2 ^ 32
  maxMessage : hello.limits.maxMessage < 2 ^ 32
  connectionWindow : hello.limits.connectionWindow < 2 ^ 32
  plugins : hello.plugins.length < 2 ^ 16

def listedHello (payload : Bytes) : HelloMessage where
  minMajor := u16At payload 0
  maxMajor := u16At payload 2
  plugins := listedPlugins payload
  limits := { minMajor := u16At payload 0, maxMajor := u16At payload 2
              maxFrame := (u32At payload 4).toNat
              maxMessage := (u32At payload 8).toNat
              connectionWindow := (u32At payload 12).toNat
              maxChannels := u16At payload 16
              requiredFeatures := u64Of ((payload.drop 18).take 8)
              optionalFeatures := u64Of ((payload.drop 26).take 8) }

theorem pluginsAt_succ (payload : Bytes) (offset count : Nat) :
    pluginsAt payload offset (count + 1) =
      { familyId := u32At payload offset
        schemaHash := u64Of ((payload.drop (offset + 4)).take 8)
        maxDepth := u32At payload (offset + 12) } :: pluginsAt payload (offset + 16) count := by
  unfold pluginsAt
  rw [List.range_succ_eq_map, List.map_cons, List.map_map, Nat.mul_zero, Nat.add_zero]
  refine congrArg _ (List.map_congr_left fun i _ => ?_)
  have hshift : offset + 16 * i.succ = offset + 16 + 16 * i := by omega
  rw [Function.comp_apply, hshift]

theorem length_pluginsAt (payload : Bytes) (offset count : Nat) :
    (pluginsAt payload offset count).length = count := by simp [pluginsAt]

theorem readPlugins_listed {payload : Bytes} {count offset : Nat}
    (h : offset + 16 * count ≤ payload.length) :
    readPlugins payload count offset = .ok (pluginsAt payload offset count, offset + 16 * count) := by
  induction count generalizing offset with
  | zero => rfl
  | succ count ih =>
    have hrest := ih (show offset + 16 + 16 * count ≤ payload.length by omega)
    have hlast : offset + 16 + 16 * count = offset + 16 * (count + 1) := by omega
    unfold readPlugins
    rw [if_neg (by omega), hrest, pluginsAt_succ, hlast]

theorem decodeHelloPayload_iff {payload : Bytes} {hello : HelloMessage} :
    decodeHelloPayload payload = .ok hello ↔ HelloLaidOut payload ∧ hello = listedHello payload := by
  unfold HelloLaidOut
  by_cases hlength : payload.length = 36 + 16 * (u16At payload 34).toNat
  · have hread := @readPlugins_listed payload (u16At payload 34).toNat 36 (by omega)
    have hdecode : decodeHelloPayload payload = .ok (listedHello payload) := by
      unfold decodeHelloPayload
      rw [if_neg (by omega), hread]
      dsimp only
      rw [if_neg (by omega)]
      rfl
    rw [hdecode]
    exact ⟨fun h => ⟨hlength, by cases h; rfl⟩, fun h => by rw [h.2]⟩
  · refine iff_of_false ?_ fun h => hlength h.1
    intro h
    unfold decodeHelloPayload at h
    split at h
    next => cases h
    next =>
      split at h
      next => cases h
      next plugins cursor hread =>
        have hcursor := readPlugins_cursor hread
        split at h
        next => cases h
        next hend => exact hlength (by omega)

/-- What is written for the descriptors that were read are the bytes they were read from. -/
theorem flatMap_pluginsAt {payload : Bytes} {count offset : Nat}
    (h : offset + 16 * count = payload.length) :
    (pluginsAt payload offset count).flatMap descriptorBytes = payload.drop offset := by
  induction count generalizing offset with
  | zero => rw [List.drop_eq_nil_of_le (by omega)]; rfl
  | succ count ih =>
    have hrest := ih (show offset + 16 + 16 * count = payload.length by omega)
    rw [pluginsAt_succ, List.flatMap_cons, hrest]
    unfold descriptorBytes
    dsimp only
    rw [u32Bytes_at (by omega), u64Bytes_at (by omega), u32Bytes_at (by omega), List.append_assoc,
      List.append_assoc, drop_take_append payload (offset + 12) 4,
      drop_take_append payload (offset + 4) 8, drop_take_append payload offset 4]

/-- The payload is what the encoder writes for the HELLO it lists, but for the order of the plugins. -/
theorem HelloLaidOut.bytes {payload : Bytes} (h : HelloLaidOut payload) :
    helloHead (listedHello payload) ++ (listedPlugins payload).flatMap descriptorBytes = payload := by
  unfold HelloLaidOut at h
  have hcount : UInt16.ofNat (listedPlugins payload).length = u16At payload 34 := by
    simp [listedPlugins, length_pluginsAt]
  unfold helloHead listedHello
  dsimp only
  rw [hcount, UInt32.ofNat_toNat, UInt32.ofNat_toNat, UInt32.ofNat_toNat,
    u16Bytes_at (i := 0) (by omega), u16Bytes_at (i := 2) (by omega), u32Bytes_at (i := 4) (by omega),
    u32Bytes_at (i := 8) (by omega), u32Bytes_at (i := 12) (by omega), u16Bytes_at (i := 16) (by omega),
    u64Bytes_at (i := 18) (by omega), u64Bytes_at (i := 26) (by omega), u16Bytes_at (i := 34) (by omega)]
  unfold listedPlugins
  rw [flatMap_pluginsAt h.symm]
  simp only [List.append_assoc]
  rw [drop_take_append payload 34 2, drop_take_append payload 26 8, drop_take_append payload 18 8,
    drop_take_append payload 16 2, drop_take_append payload 12 4, drop_take_append payload 8 4,
    drop_take_append payload 4 4, drop_take_append payload 2 2, drop_take_append payload 0 2, List.drop_zero]

/-- On sorted descriptors only neighbours of one family are refused. -/
theorem writePlugins_ascending {previous : Option UInt32} {plugins : List PluginDescriptor} {out : Bytes}
    (hsorted : plugins.Pairwise fun a b => a.familyId ≤ b.familyId)
    (hprevious : ∀ family ∈ previous, ∀ plugin ∈ plugins, family ≤ plugin.familyId)
    (h : writePlugins previous plugins = .ok out) :
    AscendingFamilies plugins ∧ ∀ family ∈ previous, ∀ plugin ∈ plugins, family < plugin.familyId := by
  induction plugins generalizing previous out with
  | nil => exact ⟨.nil, by simp⟩
  | cons plugin plugins ih =>
    obtain ⟨hfirst, hrest⟩ := List.pairwise_cons.mp hsorted
    unfold writePlugins at h
    split at h
    next => cases h
    next hnew =>
      split at h
      next => cases h
      next out' hout =>
        obtain ⟨hascending, hbehind⟩ := ih hrest (by simpa using hfirst) hout
        have hafter := hbehind plugin.familyId rfl
        refine ⟨List.pairwise_cons.mpr ⟨hafter, hascending⟩, ?_⟩
        intro family hfamily
        obtain rfl : previous = some family := hfamily
        have hlt : family < plugin.familyId := by
          refine UInt32.lt_of_le_of_ne (hprevious family rfl plugin (by simp)) ?_
          rintro rfl
          exact hnew rfl
        refine List.forall_mem_cons.mpr ⟨hlt, ?_⟩
        intro other hother
        exact UInt32.lt_trans hlt (hafter other hother)

theorem AscendingFamilies.distinct {plugins : List PluginDescriptor} (h : AscendingFamilies plugins) :
    DistinctFamilies plugins :=
  List.pairwise_map.mpr (h.imp fun hlt => UInt32.ne_of_lt hlt)

theorem DistinctFamilies.perm {plugins plugins' : List PluginDescriptor} (h : plugins.Perm plugins') :
    DistinctFamilies plugins ↔ DistinctFamilies plugins' := (h.map _).nodup_iff

theorem sortPlugins_of_ascending {plugins : List PluginDescriptor} (h : AscendingFamilies plugins) :
    sortPlugins plugins = plugins :=
  List.Pairwise.insertionSort_eq (h.imp fun hlt => UInt32.le_of_lt hlt)

theorem encodeHelloPayload_iff {hello : HelloMessage} {payload : Bytes} :
    encodeHelloPayload hello = .ok payload ↔
      hello.minMajor ≤ hello.maxMajor ∧ DistinctFamilies hello.plugins ∧
        helloHead hello ++ (sortPlugins hello.plugins).flatMap descriptorBytes = payload := by
  constructor
  · intro h
    have hbytes := encodeHelloPayload_ok h
    unfold encodeHelloPayload at h
    split at h
    next => cases h
    next hversions =>
      dsimp only at h
      split at h
      next => cases h
      next out hout =>
        have hle : (sortPlugins hello.plugins).Pairwise fun a b => a.familyId ≤ b.familyId :=
          List.pairwise_insertionSort _ hello.plugins
        have hascending := (writePlugins_ascending hle (by simp) hout).1
        exact ⟨UInt16.not_lt.mp hversions,
          (DistinctFamilies.perm (sortPlugins_perm hello.plugins)).mp hascending.distinct, hbytes.symm⟩
  · rintro ⟨hversions, hdistinct, rfl⟩
    obtain ⟨payload, hpayload⟩ := encodeHelloPayload_of_distinct hversions hdistinct
    rw [hpayload, encodeHelloPayload_ok hpayload]

/-- HELLOs with the same fields are written alike. -/
theorem encodeHelloPayload_fields {hello hello' : HelloMessage} (h : hello.fields = hello'.fields)
    (payload : Bytes) : encodeHelloPayload hello = .ok payload ↔ encodeHelloPayload hello' = .ok payload := by
  obtain ⟨hmin, hmax, hframe, hmessage, hwindow, hchannels, hrequired, hoptional, hplugins⟩ :=
    HelloFields.mk.inj h
  have hperm : hello.plugins.Perm hello'.plugins :=
    (sortPlugins_perm hello.plugins).symm.trans (hplugins ▸ sortPlugins_perm hello'.plugins)
  rw [encodeHelloPayload_iff, encodeHelloPayload_iff, DistinctFamilies.perm hperm]
  unfold helloHead
  rw [hmin, hmax, hframe, hmessage, hwindow, hchannels, hrequired, hoptional, hplugins, hperm.length_eq]

theorem writtenAsRead_iff (payload : Bytes) :
    WrittenAsRead payload ↔
      (HelloLaidOut payload → u16At payload 0 ≤ u16At payload 2 ∧ AscendingFamilies (listedPlugins payload)) := by
  constructor
  · intro h hlaid
    have hread : ReadAs payload (listedHello payload) :=
      ⟨_, decodeHelloPayload_iff.mpr ⟨hlaid, rfl⟩, rfl⟩
    obtain ⟨hversions, hdistinct, hbytes⟩ := encodeHelloPayload_iff.mp (h _ hread)
    refine ⟨hversions, ?_⟩
    have hlisted : (sortPlugins (listedPlugins payload)).flatMap descriptorBytes =
        (listedPlugins payload).flatMap descriptorBytes :=
      List.append_cancel_left (hbytes.trans hlaid.bytes.symm)
    have hwritten := readPlugins_write (sortPlugins (listedPlugins payload)) []
    have hlisted' := readPlugins_write (listedPlugins payload) []
    rw [hlisted, length_sortPlugins, hlisted'] at hwritten
    have hsame : listedPlugins payload = sortPlugins (listedPlugins payload) := by
      injection hwritten with hpair
      exact congrArg Prod.fst hpair
    rw [hsame]
    exact sortPlugins_strict hdistinct
  · rintro h hello ⟨peer, hpeer, hfields⟩
    obtain ⟨hlaid, rfl⟩ := decodeHelloPayload_iff.mp hpeer
    obtain ⟨hversions, hascending⟩ := h hlaid
    rw [← encodeHelloPayload_fields hfields]
    refine encodeHelloPayload_iff.mpr ⟨hversions, hascending.distinct, ?_⟩
    change helloHead (listedHello payload) ++ (sortPlugins (listedPlugins payload)).flatMap descriptorBytes = _
    rw [sortPlugins_of_ascending hascending]
    exact hlaid.bytes

theorem readAsWritten_iff (hello : HelloMessage) :
    ReadAsWritten hello ↔
      (hello.minMajor ≤ hello.maxMajor → DistinctFamilies hello.plugins → hello.Fits) := by
  constructor
  · intro h hversions hdistinct
    obtain ⟨payload, hpayload⟩ := encodeHelloPayload_of_distinct hversions hdistinct
    obtain ⟨peer, hpeer, hfields⟩ := h payload hpayload
    have hwire := decode_encode_hello hpayload hpeer
    have hlaid := (decodeHelloPayload_iff.mp hpeer).1
    subst hwire
    obtain ⟨_, _, hframe, hmessage, hwindow, _⟩ := HelloFields.mk.inj hfields
    have hlt : ∀ value : Nat, value % 2 ^ 32 = value → value < 2 ^ 32 := fun value h => by omega
    refine ⟨hlt _ hframe, hlt _ hmessage, hlt _ hwindow, ?_⟩
    have hcount := (u16At payload 34).toNat_lt
    have hbytes := encodeHelloPayload_ok hpayload
    unfold HelloLaidOut at hlaid
    rw [hbytes, List.length_append, length_helloHead, length_descriptors, length_sortPlugins, ← hbytes] at hlaid
    omega
  · intro h payload hpayload
    obtain ⟨hversions, hdistinct, _⟩ := encodeHelloPayload_iff.mp hpayload
    obtain ⟨hframe, hmessage, hwindow, hcount⟩ := h hversions hdistinct
    refine ⟨hello.onWire, decodeHelloPayload_written hpayload hcount, ?_⟩
    have hsorted := sortPlugins_of_ascending (sortPlugins_strict hdistinct)
    unfold HelloMessage.fields HelloMessage.onWire
    dsimp only
    rw [hsorted, Nat.mod_eq_of_lt hframe, Nat.mod_eq_of_lt hmessage, Nat.mod_eq_of_lt hwindow]

/-- The codec is exact on the payloads that keep the order of the encoder, and on the HELLOs that fit the
layout. -/
theorem hello_codec_exact_iff (payload : Bytes) (hello : HelloMessage) :
    (WrittenAsRead payload ↔
      (HelloLaidOut payload →
        u16At payload 0 ≤ u16At payload 2 ∧ AscendingFamilies (listedPlugins payload))) ∧
    (ReadAsWritten hello ↔
      (hello.minMajor ≤ hello.maxMajor → DistinctFamilies hello.plugins → hello.Fits)) :=
  ⟨writtenAsRead_iff payload, readAsWritten_iff hello⟩

/-- A limit that does not fit in 32 bits. -/
def hugeHello : HelloMessage := { limits := { maxFrame := 4294967296 } }

/-- A payload with the version range 2..1 and no plugins. -/
def invertedHello : Bytes := helloHead { minMajor := 2, maxMajor := 1 }

theorem hello_codec_not_exact : ¬ ReadAsWritten hugeHello ∧ ¬ WrittenAsRead invertedHello := by
  constructor
  · intro h
    obtain ⟨payload, hpayload⟩ := @encodeHelloPayload_of_distinct hugeHello (by decide) (by decide)
    obtain ⟨peer, hpeer, hfields⟩ := h payload hpayload
    rw [decode_encode_hello hpayload hpeer] at hfields
    exact absurd (congrArg HelloFields.maxFrame hfields) (by decide)
  · intro h
    have hlaid : HelloLaidOut invertedHello := by decide
    have hencode := h _ ⟨_, decodeHelloPayload_iff.mpr ⟨hlaid, rfl⟩, rfl⟩
    exact absurd (encodeHelloPayload_iff.mp hencode).1 (by decide)

end LatticeGateway

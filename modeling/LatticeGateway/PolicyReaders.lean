import LatticeGateway.BridgePolicy
import LatticeGateway.PolicyRoundTrip

namespace LatticeGateway

/-- How many routes the document has at least, once the open one is finished. -/
def ParseState.count (state : ParseState) : Nat :=
  state.document.routes.length + if state.inRoute then 1 else 0

theorem finishRoute_count {state state' : ParseState} (h : finishRoute state = .ok state') :
    state'.document.routes.length = state.count := by
  unfold finishRoute at h
  unfold ParseState.count
  split at h
  next hout =>
    cases h
    rw [hout]
    rfl
  next hin =>
    rw [Bool.not_eq_false] at hin
    rw [hin]
    split at h
    next => cases h
    next =>
      split at h
      next => cases h
      next =>
        cases h
        exact List.length_append

theorem beginRoute_count {state state' : ParseState} {line : Nat} (h : beginRoute state line = .ok state') :
    state'.count = state.count + 1 := by
  unfold beginRoute at h
  split at h
  next => cases h
  next finished hfinish =>
    have hcount := finishRoute_count hfinish
    cases h
    exact congrArg (· + 1) hcount

/-- A key goes into the open route, or opens one. -/
theorem setKey_ok {state next : ParseState} {key value : Bytes} {line : Nat}
    (h : setKey state key value line = .ok next) : ∃ begun entry,
      (state.inRoute = true ∧ begun = state ∨ state.inRoute = false ∧ beginRoute state line = .ok begun) ∧
      key ∉ begun.keys ∧ setField begun.current key value line = .ok entry ∧
      next = { begun with keys := key :: begun.keys, current := entry } := by
  unfold setKey at h
  split at h
  next => cases h
  next begun hbegun =>
    split at h
    next => cases h
    next hnew =>
      split at h
      next => cases h
      next entry hentry =>
        cases h
        refine ⟨begun, entry, ?_, hnew, hentry, rfl⟩
        split at hbegun
        next hin =>
          cases hbegun
          exact .inl ⟨hin, rfl⟩
        next hout => exact .inr ⟨Bool.eq_false_of_not_eq_true hout, hbegun⟩

theorem setKey_count {state next : ParseState} {key value : Bytes} {line : Nat}
    (h : setKey state key value line = .ok next) : state.count ≤ next.count := by
  obtain ⟨begun, entry, hbegun, _, _, rfl⟩ := setKey_ok h
  change state.count ≤ begun.count
  rcases hbegun with ⟨_, rfl⟩ | ⟨_, hbegin⟩
  · exact Nat.le_refl _
  · have hcount := beginRoute_count hbegin
    omega

theorem parsePolicyLine_count {state next : ParseState} {lineNo : Nat} {line : Bytes}
    (h : parsePolicyLine state lineNo line = .ok next) : state.count ≤ next.count := by
  rcases policyLine_cases state {} lineNo line with
    ⟨_, hparse, _⟩ | ⟨_, hparse, _⟩ | ⟨_, error, hparse⟩ | ⟨key, value, _, hparse, _⟩
  · rw [hparse] at h
    cases h
    exact Nat.le_refl _
  · rw [hparse] at h
    have hcount := beginRoute_count h
    omega
  · rw [hparse] at h
    cases h
  · rw [hparse] at h
    exact setKey_count h

theorem parsePolicyLines_count {parts : List Bytes} {state final : ParseState} {lineNo : Nat}
    (h : parsePolicyLines lineNo parts state = .ok final) : state.count ≤ final.count := by
  induction parts generalizing state lineNo with
  | nil =>
    cases h
    exact Nat.le_refl _
  | cons line parts ih =>
    unfold parsePolicyLines at h
    split at h
    next => cases h
    next next hnext => exact Nat.le_trans (parsePolicyLine_count hnext) (ih h)

/-- The entry under way in the library, and the policy that the tool has read from the same lines. They
part over a payload that is given as empty: the library takes it for one that is not given. -/
structure ReadAlike (blank : Prop) (state : ParseState) (policy : BridgePolicy) : Prop where
  routes : state.document.routes = []
  idle : state.inRoute = false → state = {}
  source : policy.source = state.current.source
  destination : policy.destination = state.current.destination
  familyId : policy.familyId = state.current.familyId
  payload : ¬ blank → policy.payload =
    if state.current.payload = [] then defaultPayload else state.current.payload
  blanked : blank → ascii "payload_hex" ∈ state.keys ∧ state.current.payload = [] ∧ policy.payload = []

theorem ReadAlike.start : ReadAlike False {} {} := ⟨rfl, fun _ => rfl, rfl, rfl, rfl, fun _ => rfl, nofun⟩

/-- The route that the first line of a policy opens, with or without a key in it. -/
theorem ReadAlike.begin {blank : Prop} {state begun : ParseState} {policy : BridgePolicy}
    (h : ReadAlike blank state policy) {line : Nat} (hbegin : beginRoute state line = .ok begun)
    (hone : begun.count ≤ 1) : ReadAlike blank begun policy ∧ begun.inRoute = true := by
  have hout : state.inRoute = false := by
    by_contra hin
    have hcount := beginRoute_count hbegin
    unfold ParseState.count at hcount hone
    rw [if_pos (Bool.eq_true_of_not_eq_false hin)] at hcount
    omega
  obtain rfl := h.idle hout
  cases hbegin
  exact ⟨⟨rfl, nofun, h.source, h.destination, h.familyId, h.payload, h.blanked⟩, rfl⟩

/-- A key other than the payload's is one both readers know, or the name. -/
theorem inRoute_busy {state : ParseState} (hin : state.inRoute = true) (hout : state.inRoute = false) :
    state = {} := by
  rw [hin] at hout
  cases hout

/-- A key other than the payload's leaves both payloads as they are. -/
theorem ReadAlike.set {blank : Prop} {state : ParseState} {policy policy' : BridgePolicy}
    (h : ReadAlike blank state policy) (hin : state.inRoute = true) {key value : Bytes}
    {entry : RoutePolicyEntry} (hkey : key ≠ ascii "payload_hex")
    (hpayload : entry.payload = state.current.payload) (hpolicy : policy'.payload = policy.payload)
    (hsource : policy'.source = entry.source) (hdestination : policy'.destination = entry.destination)
    (hfamily : policy'.familyId = entry.familyId) :
    ReadAlike (blank ∨ key = ascii "payload_hex" ∧ unquote value = [])
      { state with keys := key :: state.keys, current := entry } policy' := by
  refine ⟨h.routes, inRoute_busy hin, hsource, hdestination, hfamily, fun hblank => ?_, ?_⟩
  · rw [hpolicy, hpayload]
    exact h.payload fun hold => hblank (.inl hold)
  · rintro (hblank | ⟨hpayloadKey, _⟩)
    · obtain ⟨hmem, hempty, hpolicyEmpty⟩ := h.blanked hblank
      exact ⟨List.mem_cons_of_mem _ hmem, hpayload.trans hempty, hpolicy.trans hpolicyEmpty⟩
    · exact (hkey hpayloadKey).elim

theorem ReadAlike.setField {blank : Prop} {state : ParseState} {policy : BridgePolicy}
    (h : ReadAlike blank state policy) (hin : state.inRoute = true) {key value : Bytes} {line : Nat}
    {entry : RoutePolicyEntry} (hnew : key ∉ state.keys) (hname : key ≠ ascii "name")
    (hentry : setField state.current key value line = .ok entry) :
    ∃ policy', setBridgeKey policy key value = .ok policy' ∧
      ReadAlike (blank ∨ key = ascii "payload_hex" ∧ unquote value = [])
        { state with keys := key :: state.keys, current := entry } policy' := by
  unfold LatticeGateway.setField at hentry
  rw [if_neg hname] at hentry
  unfold setBridgeKey
  split at hentry
  next hkey =>
    split at hentry
    next => cases hentry
    next source hsource =>
      cases hentry
      rw [if_pos hkey, parseChannelId_of_policy hsource]
      exact ⟨_, rfl, h.set hin (by rw [hkey]; decide) rfl rfl rfl h.destination h.familyId⟩
  next hsource =>
    rw [if_neg hsource]
    split at hentry
    next hkey =>
      split at hentry
      next => cases hentry
      next destination hdestination =>
        cases hentry
        rw [if_pos hkey, parseChannelId_of_policy hdestination]
        exact ⟨_, rfl, h.set hin (by rw [hkey]; decide) rfl rfl h.source rfl h.familyId⟩
    next hdestination =>
      rw [if_neg hdestination]
      split at hentry
      next hkey =>
        split at hentry
        next => cases hentry
        next familyId hfamily =>
          cases hentry
          rw [if_pos hkey, parseDecimalU32_of_policy hfamily]
          exact ⟨_, rfl, h.set hin (by rw [hkey]; decide) rfl rfl h.source h.destination rfl⟩
      next hfamily =>
        rw [if_neg hfamily]
        split at hentry
        next hkey =>
          split at hentry
          next => cases hentry
          next payload hpayload =>
            cases hentry
            obtain ⟨hread, hempty⟩ := parseHexBytes_of_policy hpayload
            have hfresh : ¬ blank := fun hblank => hnew (hkey ▸ (h.blanked hblank).1)
            rw [if_pos hkey, hread]
            refine ⟨_, rfl, h.routes, inRoute_busy hin, h.source, h.destination, h.familyId, fun hblank => ?_, ?_⟩
            · have hsome : payload ≠ [] := fun hnil => hblank (.inr ⟨hkey, hempty.mp hnil⟩)
              exact (if_neg hsome).symm
            · rintro (hblank | ⟨_, hvalue⟩)
              · exact (hfresh hblank).elim
              · exact ⟨hkey ▸ List.mem_cons_self, hempty.mpr hvalue, hempty.mpr hvalue⟩
        next => cases hentry

theorem ReadAlike.setKey {blank : Prop} {state next : ParseState} {policy : BridgePolicy}
    (h : ReadAlike blank state policy) {key value : Bytes} {line : Nat} (hname : key ≠ ascii "name")
    (hset : setKey state key value line = .ok next) (hone : next.count ≤ 1) :
    ∃ policy', setBridgeKey policy key value = .ok policy' ∧
      ReadAlike (blank ∨ key = ascii "payload_hex" ∧ unquote value = []) next policy' := by
  obtain ⟨begun, entry, hbegun, hnew, hentry, rfl⟩ := setKey_ok hset
  rcases hbegun with ⟨hin, rfl⟩ | ⟨_, hbegin⟩
  · exact h.setField hin hnew hname hentry
  · obtain ⟨halike, hin⟩ := h.begin hbegin hone
    exact halike.setField hin hnew hname hentry

theorem ReadAlike.congr {blank blank' : Prop} {state : ParseState} {policy : BridgePolicy}
    (h : ReadAlike blank state policy) (hiff : blank' ↔ blank) : ReadAlike blank' state policy :=
  ⟨h.routes, h.idle, h.source, h.destination, h.familyId, fun hblank => h.payload (mt hiff.mpr hblank),
    fun hblank => h.blanked (hiff.mp hblank)⟩

theorem ReadAlike.line {blank : Prop} {state next : ParseState} {policy : BridgePolicy}
    (h : ReadAlike blank state policy) {lineNo : Nat} {line : Bytes} (hname : ¬ SetsName line)
    (hparse : parsePolicyLine state lineNo line = .ok next) (hone : next.count ≤ 1) :
    ∃ policy', readBridgeLine policy line = .ok policy' ∧
      ReadAlike (blank ∨ BlanksPayload line) next policy' := by
  have hquiet : setting? line = none → (blank ∨ BlanksPayload line ↔ blank) := by
    intro hnone
    refine or_iff_left ?_
    rintro ⟨value, hsome, _⟩
    rw [hnone] at hsome
    cases hsome
  rcases policyLine_cases state policy lineNo line with
    ⟨hnone, hline, hread⟩ | ⟨hnone, hline, hread⟩ | ⟨_, error, hline⟩ | ⟨key, value, hsome, hline, hread⟩
  · rw [hline] at hparse
    cases hparse
    exact ⟨policy, hread, h.congr (hquiet hnone)⟩
  · rw [hline] at hparse
    exact ⟨policy, hread, (h.begin hparse hone).1.congr (hquiet hnone)⟩
  · rw [hline] at hparse
    cases hparse
  · rw [hline] at hparse
    have hother : key ≠ ascii "name" := by
      rintro rfl
      exact hname ⟨value, hsome⟩
    obtain ⟨policy', hset, halike⟩ := h.setKey hother hparse hone
    refine ⟨policy', hread.trans hset, halike.congr (or_congr_right ?_)⟩
    unfold BlanksPayload
    rw [hsome]
    constructor
    · rintro ⟨_, hsame, hvalue⟩
      cases hsame
      exact ⟨rfl, hvalue⟩
    · rintro ⟨rfl, hvalue⟩
      exact ⟨value, rfl, hvalue⟩

theorem ReadAlike.lines {parts : List Bytes} {blank : Prop} {state final : ParseState} {policy : BridgePolicy}
    (h : ReadAlike blank state policy) {lineNo : Nat} (hnames : ∀ line ∈ parts, ¬ SetsName line)
    (hparse : parsePolicyLines lineNo parts state = .ok final) (hone : final.count ≤ 1) :
    ∃ policy', readBridgeLines parts policy = .ok policy' ∧
      ReadAlike (blank ∨ ∃ line ∈ parts, BlanksPayload line) final policy' := by
  induction parts generalizing blank state policy lineNo with
  | nil =>
    cases hparse
    exact ⟨policy, rfl, h.congr (by simp)⟩
  | cons line parts ih =>
    obtain ⟨hname, hrest⟩ := List.forall_mem_cons.mp hnames
    unfold parsePolicyLines at hparse
    split at hparse
    next => cases hparse
    next next hnext =>
      have hcount := parsePolicyLines_count hparse
      obtain ⟨policy', hread, halike⟩ := h.line hname hnext (Nat.le_trans hcount hone)
      obtain ⟨policy'', hreads, hfinal⟩ := ih halike hrest hparse
      refine ⟨policy'', ?_, hfinal.congr ?_⟩
      · unfold readBridgeLines
        rw [hread]
        exact hreads
      · simp [or_assoc]

/-- The tool stops at a name. -/
theorem readBridgeLines_unnamed {parts : List Bytes} {policy policy' : BridgePolicy}
    (h : readBridgeLines parts policy = .ok policy') : ∀ line ∈ parts, ¬ SetsName line := by
  induction parts generalizing policy with
  | nil => exact nofun
  | cons line parts ih =>
    unfold readBridgeLines at h
    split at h
    next => cases h
    next next hnext =>
      refine List.forall_mem_cons.mpr ⟨?_, ih h⟩
      rintro ⟨value, hsome⟩
      rcases policyLine_cases {} policy 0 line with
        ⟨hnone, _⟩ | ⟨hnone, _⟩ | ⟨hnone, _⟩ | ⟨key, value', hsome', _, hread⟩
      · rw [hnone] at hsome
        cases hsome
      · rw [hnone] at hsome
        cases hsome
      · rw [hnone] at hsome
        cases hsome
      · rw [hsome] at hsome'
        cases hsome'
        rw [hread] at hnext
        have hunknown : setBridgeKey policy (ascii "name") value =
            .error (bridgePolicyError "unknown bridge policy key") := by
          unfold setBridgeKey
          rw [if_neg (by decide), if_neg (by decide), if_neg (by decide), if_neg (by decide)]
        rw [hunknown] at hnext
        cases hnext

/-- What the tool should make of a policy of one route. -/
def RoutePolicyEntry.bridgePolicy (route : RoutePolicyEntry) : BridgePolicy :=
  ⟨route.source, route.destination, route.familyId, route.payload⟩

theorem ReadAlike.finish {blank : Prop} {state final : ParseState} {policy : BridgePolicy}
    (h : ReadAlike blank state policy) (hfinish : finishRoute state = .ok final) {route : RoutePolicyEntry}
    (hroutes : final.document.routes = [route]) : policy = route.bridgePolicy ↔ ¬ blank := by
  have hnil : final.document.routes = [] ∨ final.document.routes =
      [if state.current.payload = [] then { state.current with payload := defaultPayload }
        else state.current] := by
    unfold finishRoute at hfinish
    split at hfinish
    next =>
      cases hfinish
      exact .inl h.routes
    next =>
      split at hfinish
      next => cases hfinish
      next =>
        split at hfinish
        next => cases hfinish
        next =>
          cases hfinish
          exact .inr (by rw [h.routes]; rfl)
  rw [hroutes] at hnil
  rcases hnil with hnil | hroute
  · cases hnil
  · obtain ⟨hroute, _⟩ := List.cons.inj hroute
    rw [hroute]
    constructor
    · intro hsame hblank
      obtain ⟨_, hempty, hpolicy⟩ := h.blanked hblank
      rw [if_pos hempty] at hsame
      rw [hsame] at hpolicy
      cases hpolicy
    · intro hblank
      have hpayload := h.payload hblank
      have hsource := h.source
      have hdestination := h.destination
      have hfamily := h.familyId
      cases policy
      dsimp only at hpayload hsource hdestination hfamily
      rw [hpayload, hsource, hdestination, hfamily]
      unfold RoutePolicyEntry.bridgePolicy
      split <;> rfl

/-- The tool reads an accepted text of one route as the library does exactly if no line gives the route a
name and none gives it an empty payload. -/
theorem policy_readers_agree_iff (text : Bytes) (route : RoutePolicyEntry)
    (h : parseRoutePolicyText text = .ok { routes := [route] }) :
    readBridgePolicy (some text) = .ok route.bridgePolicy ↔
      ∀ line ∈ lines text, ¬ SetsName line ∧ ¬ BlanksPayload line := by
  unfold parseRoutePolicyText at h
  split at h
  next => cases h
  next state hstate =>
    split at h
    next => cases h
    next final hfinal =>
      have hroutes : final.document.routes = [route] := by
        split at h
        next => cases h
        next =>
          split at h
          next => cases h
          next => exact congrArg RoutePolicyDocument.routes (Except.ok.inj h)
      have hone : state.count ≤ 1 := by
        rw [← finishRoute_count hfinal, hroutes]
        exact Nat.le_refl _
      by_cases hnames : ∀ line ∈ lines text, ¬ SetsName line
      · obtain ⟨policy, hread, halike⟩ := ReadAlike.start.lines hnames hstate hone
        have hiff := halike.finish hfinal hroutes
        unfold readBridgePolicy
        dsimp only
        rw [hread]
        constructor
        · intro hsame line hline
          refine ⟨hnames line hline, fun hblank => ?_⟩
          exact hiff.mp (Except.ok.inj hsame) (.inr ⟨line, hline, hblank⟩)
        · intro hfine
          refine congrArg _ (hiff.mpr ?_)
          rintro (hfalse | ⟨line, hline, hblank⟩)
          · exact hfalse
          · exact (hfine line hline).2 hblank
      · constructor
        · exact fun hread => (hnames (readBridgeLines_unnamed hread)).elim
        · exact fun hfine => (hnames fun line hline => (hfine line hline).1).elim

theorem policy_readers_agree_loose :
    parseRoutePolicyText looseText = .ok { routes := [{ payload := defaultPayload }] } ∧
      ∀ line ∈ lines looseText, ¬ SetsName line ∧ ¬ BlanksPayload line := by
  have hread : parseRoutePolicyText looseText = .ok { routes := [{ payload := defaultPayload }] } := by
    decide +kernel
  exact ⟨hread, (policy_readers_agree_iff looseText _ hread).mp (by decide +kernel)⟩

/-- The three keys that a route needs, behind a line of its own. -/
def policyWith (line : Bytes) : Bytes :=
  line ++ [kNewline] ++ ascii "source=1:1" ++ [kNewline] ++ ascii "destination=2:1" ++ [kNewline] ++
    ascii "family=7" ++ [kNewline]

-- the library makes "ok" of the same empty payload
example : readBridgePolicy (some (policyWith (ascii "payload_hex="))) = .ok { payload := [] } := by
  decide +kernel

/-- The tool refuses a policy with a name. -/
theorem policy_readers_disagree :
    ¬ ∀ (text : Bytes) (route : RoutePolicyEntry), parseRoutePolicyText text = .ok { routes := [route] } →
      readBridgePolicy (some text) = .ok route.bridgePolicy := by
  intro h
  have hnamed : parseRoutePolicyText (policyWith (ascii "name=a")) =
      .ok { routes := [{ name := ascii "a", payload := defaultPayload }] } := by decide +kernel
  have hrefused : readBridgePolicy (some (policyWith (ascii "name=a"))) =
      .error (bridgePolicyError "unknown bridge policy key") := by decide +kernel
  rw [h _ _ hnamed] at hrefused
  cases hrefused

end LatticeGateway

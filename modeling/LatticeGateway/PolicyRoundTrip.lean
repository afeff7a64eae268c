import LatticeGateway.PolicyText

namespace LatticeGateway

/-- A line of a policy that gives a key its value. -/
theorem parsePolicyLine_key (state : ParseState) (lineNo : Nat) {key value : Bytes} (hkey : PlainText key)
    (hne : key ≠ []) (hvalue : Trimmed value) (hhash : kHash ∉ value) :
    parsePolicyLine state lineNo (key ++ kEquals :: value) = setKey state key value lineNo := by
  have hclear : ∀ ch ∈ key ++ kEquals :: value, decide (ch ≠ kHash) = true := by
    intro ch hch
    rw [decide_eq_true_eq]
    rcases List.mem_append.mp hch with hch | hch
    · exact (hkey ch hch).2.1
    · rcases List.mem_cons.mp hch with rfl | hch
      · decide
      · rintro rfl
        exact hhash hch
  have htrimmed : Trimmed (key ++ kEquals :: value) := by
    refine ⟨fun ch hch => ?_, fun ch hch => ?_⟩
    · rw [List.head?_append_of_ne_nil _ hne] at hch
      exact hkey.trimmed.first ch hch
    · rw [List.getLast?_append_of_ne_nil _ (List.cons_ne_nil _ _)] at hch
      cases value with
      | nil =>
        obtain rfl : kEquals = ch := by simpa using hch
        rfl
      | cons first value =>
        rw [List.getLast?_cons_cons] at hch
        exact hvalue.last ch hch
  have hroute : key ++ kEquals :: value ≠ ascii "[route]" := by
    intro heq
    have hmem : kEquals ∈ ascii "[route]" := by
      rw [← heq]
      simp
    exact absurd hmem (by decide +kernel)
  unfold parsePolicyLine
  rw [List.takeWhile_eq_self_iff.mpr hclear, trim_of_trimmed htrimmed]
  dsimp only
  rw [if_neg (by simp), if_neg hroute, splitFirst_append fun ch hch => (hkey ch hch).2.2.2.2]
  dsimp only
  rw [trim_of_trimmed hkey.trimmed, trim_of_trimmed hvalue]

theorem parsePolicyLine_route (state : ParseState) (lineNo : Nat) :
    parsePolicyLine state lineNo (ascii "[route]") = beginRoute state lineNo := by
  have hline : trim ((ascii "[route]").takeWhile (· ≠ kHash)) = ascii "[route]" := by decide +kernel
  have hne : ascii "[route]" ≠ [] := by decide
  unfold parsePolicyLine
  rw [hline]
  dsimp only
  rw [if_neg hne, if_pos rfl]

theorem setKey_new {state : ParseState} {key value : Bytes} {lineNo : Nat} {entry : RoutePolicyEntry}
    (hin : state.inRoute = true) (hnew : key ∉ state.keys)
    (hfield : setField state.current key value lineNo = .ok entry) :
    setKey state key value lineNo = .ok { state with keys := key :: state.keys, current := entry } := by
  unfold setKey
  rw [if_pos hin]
  dsimp only
  rw [if_neg hnew, hfield]

theorem setField_name (entry : RoutePolicyEntry) (value : Bytes) (lineNo : Nat) :
    setField entry (ascii "name") value lineNo = .ok { entry with name := unquote value } := by
  unfold setField
  rw [if_pos rfl]

theorem setField_source (entry : RoutePolicyEntry) {id : ChannelId} (h : id.number ≠ 0) (lineNo : Nat) :
    setField entry (ascii "source") id.str lineNo = .ok { entry with source := id } := by
  have hname : ascii "source" ≠ ascii "name" := by decide +kernel
  unfold setField
  rw [if_neg hname, if_pos rfl, parseChannelText_str lineNo h]

theorem setField_destination (entry : RoutePolicyEntry) {id : ChannelId} (h : id.number ≠ 0) (lineNo : Nat) :
    setField entry (ascii "destination") id.str lineNo = .ok { entry with destination := id } := by
  have hother : ascii "destination" ≠ ascii "name" ∧ ascii "destination" ≠ ascii "source" := by decide +kernel
  unfold setField
  rw [if_neg hother.1, if_neg hother.2, if_pos rfl, parseChannelText_str lineNo h]

theorem setField_family (entry : RoutePolicyEntry) (familyId : UInt32) (lineNo : Nat) :
    setField entry (ascii "family") (decimal familyId.toNat) lineNo = .ok { entry with familyId } := by
  have hother : ascii "family" ≠ ascii "name" ∧ ascii "family" ≠ ascii "source" ∧
      ascii "family" ≠ ascii "destination" := by decide +kernel
  unfold setField
  rw [if_neg hother.1, if_neg hother.2.1, if_neg hother.2.2, if_pos rfl, unquote_plain (decimal_plain _),
    parseU32Text_decimal]

theorem setField_payload (entry : RoutePolicyEntry) (payload : Bytes) (lineNo : Nat) :
    setField entry (ascii "payload_hex") (hex payload) lineNo = .ok { entry with payload } := by
  have hother : ascii "payload_hex" ≠ ascii "name" ∧ ascii "payload_hex" ≠ ascii "source" ∧
      ascii "payload_hex" ≠ ascii "destination" ∧ ascii "payload_hex" ≠ ascii "family" := by decide +kernel
  unfold setField
  rw [if_neg hother.1, if_neg hother.2.1, if_neg hother.2.2.1, if_neg hother.2.2.2, if_pos rfl,
    parseHexText_hex]

theorem parsePolicyLines_append {first more : List Bytes} {lineNo : Nat} {state state' : ParseState}
    (h : parsePolicyLines lineNo first state = .ok state') :
    parsePolicyLines lineNo (first ++ more) state = parsePolicyLines (lineNo + first.length) more state' := by
  induction first generalizing lineNo state with
  | nil =>
    cases h
    rfl
  | cons line first ih =>
    rw [parsePolicyLines] at h
    rw [List.cons_append, parsePolicyLines]
    rcases hnext : parsePolicyLine state lineNo line with error | next
    · rw [hnext] at h
      cases h
    · rw [hnext] at h
      dsimp only at h ⊢
      rw [ih h, List.length_cons, Nat.add_assoc, Nat.add_comm 1]

theorem parsePolicyLines_cons {line : Bytes} {rest : List Bytes} {lineNo : Nat} {state next : ParseState}
    (h : parsePolicyLine state lineNo line = .ok next) :
    parsePolicyLines lineNo (line :: rest) state = parsePolicyLines (lineNo + 1) rest next := by
  rw [parsePolicyLines, h]

def keyLine (key value : Bytes) : Bytes := key ++ kEquals :: value

def nameLines (name : Bytes) : List Bytes :=
  if name = [] then [] else [keyLine (ascii "name") (kQuote :: (name ++ [kQuote]))]

def fieldLines (route : RoutePolicyEntry) : List Bytes :=
  [keyLine (ascii "source") route.source.str, keyLine (ascii "destination") route.destination.str,
    keyLine (ascii "family") (decimal route.familyId.toNat), keyLine (ascii "payload_hex") (hex route.payload)]

/-- The lines that are written for a route. -/
def routeLines (route : RoutePolicyEntry) : List Bytes :=
  ascii "[route]" :: (nameLines route.name ++ fieldLines route)

theorem serializeRoute_eq (route : RoutePolicyEntry) :
    serializeRoute route = (routeLines route).flatMap (· ++ [kNewline]) := by
  have htag : ∀ key : String, ascii (key ++ "=") = ascii key ++ [kEquals] := by
    intro key
    simp [ascii, kEquals]
  have hname := htag "name"
  have hsource := htag "source"
  have hdestination := htag "destination"
  have hfamily := htag "family"
  have hpayload := htag "payload_hex"
  unfold serializeRoute routeLines nameLines fieldLines keyLine
  simp only [String.reduceAppend] at hname hsource hdestination hfamily hpayload
  rw [hname, hsource, hdestination, hfamily, hpayload]
  split <;> simp [List.append_assoc]

/-- What the route needs to be read back from its lines. -/
structure RoutePolicyEntry.Textual (route : RoutePolicyEntry) : Prop where
  name : kHash ∉ route.name ∧ kNewline ∉ route.name
  source : route.source.number ≠ 0
  destination : route.destination.number ≠ 0
  payload : route.payload ≠ []

/-- The state at the end of a policy with these routes. -/
def Finishes (state : ParseState) (routes : List RoutePolicyEntry) : Prop :=
  finishRoute state = .ok { document := { routes } }

/-- A route section that gives the entry by the keys listed, and perhaps by a name. -/
structure RouteSection (state : ParseState) (routes : List RoutePolicyEntry) (entry : RoutePolicyEntry)
    (keys : List Bytes) : Prop where
  inRoute : state.inRoute = true
  document : state.document = { routes }
  current : state.current = entry
  keys : ∃ named, state.keys = keys ++ named ∧ ∀ key ∈ named, key = ascii "name"

theorem RouteSection.key {state : ParseState} {routes : List RoutePolicyEntry} {entry entry' : RoutePolicyEntry}
    {keys : List Bytes} (h : RouteSection state routes entry keys) {key value : Bytes} (lineNo : Nat)
    (hkey : PlainText key ∧ key ≠ [] ∧ key ∉ keys ++ [ascii "name"]) (hvalue : Trimmed value)
    (hhash : kHash ∉ value) (hfield : setField entry key value lineNo = .ok entry') :
    ∃ next, parsePolicyLine state lineNo (keyLine key value) = .ok next ∧
      RouteSection next routes entry' (key :: keys) := by
  obtain ⟨hin, hdocument, hcurrent, named, hkeys, hnamed⟩ := h
  obtain ⟨hplain, hne, hnew⟩ := hkey
  have hfresh : key ∉ state.keys := by
    rw [hkeys]
    intro hmem
    rcases List.mem_append.mp hmem with hmem | hmem
    · exact hnew (List.mem_append_left _ hmem)
    · exact hnew (List.mem_append_right _ (by rw [hnamed key hmem]; simp))
  rw [← hcurrent] at hfield
  unfold keyLine
  rw [parsePolicyLine_key state lineNo hplain hne hvalue hhash, setKey_new hin hfresh hfield]
  exact ⟨_, rfl, hin, hdocument, rfl, named, by rw [hkeys]; rfl, hnamed⟩

theorem parse_name {state : ParseState} {routes : List RoutePolicyEntry} (h : Finishes state routes)
    {name : Bytes} (hname : kHash ∉ name) (lineNo : Nat) :
    ∃ begun, parsePolicyLines lineNo (ascii "[route]" :: nameLines name) state = .ok begun ∧
      RouteSection begun routes { name } [] := by
  have hbegin : parsePolicyLine state lineNo (ascii "[route]") =
      .ok { document := { routes }, inRoute := true, routeStartLine := lineNo } := by
    rw [parsePolicyLine_route]
    unfold beginRoute
    rw [h]
  rw [parsePolicyLines_cons hbegin]
  unfold nameLines
  split
  next hempty =>
    subst hempty
    exact ⟨_, rfl, rfl, rfl, rfl, [], rfl, by simp⟩
  next hsome =>
    have hkey : PlainText (ascii "name") := by decide +kernel
    have hquoted : kHash ∉ kQuote :: (name ++ [kQuote]) := by
      have hne : kHash ≠ kQuote := by decide
      simp [hname, hne]
    unfold keyLine
    rw [parsePolicyLines, parsePolicyLine_key _ _ hkey (by decide) (quoted_trimmed name) hquoted,
      setKey_new rfl (by simp) (setField_name _ _ _), unquote_quoted]
    exact ⟨_, rfl, rfl, rfl, rfl, [ascii "name"], rfl, by simp⟩

theorem parse_fields {state : ParseState} {routes : List RoutePolicyEntry} {route : RoutePolicyEntry}
    (h : RouteSection state routes { name := route.name } []) (hroute : route.Textual) (lineNo : Nat) :
    ∃ final, parsePolicyLines lineNo (fieldLines route) state = .ok final ∧
      RouteSection final routes route
        [ascii "payload_hex", ascii "family", ascii "destination", ascii "source"] := by
  obtain ⟨hsourceTrimmed, hsourceHash, _⟩ := str_trimmed route.source
  obtain ⟨hdestinationTrimmed, hdestinationHash, _⟩ := str_trimmed route.destination
  have hplain : ∀ {text : Bytes}, PlainText text → kHash ∉ text := fun htext hmem => (htext _ hmem).2.1 rfl
  obtain ⟨first, hfirst, hsource⟩ := h.key lineNo (by decide +kernel) hsourceTrimmed hsourceHash
    (setField_source _ hroute.source _)
  obtain ⟨second, hsecond, hdestination⟩ := hsource.key (lineNo + 1) (by decide +kernel) hdestinationTrimmed
    hdestinationHash (setField_destination _ hroute.destination _)
  obtain ⟨third, hthird, hfamily⟩ := hdestination.key (lineNo + 1 + 1) (by decide +kernel)
    (decimal_plain _).trimmed (hplain (decimal_plain _)) (setField_family _ route.familyId _)
  obtain ⟨final, hfinal, hpayload⟩ := hfamily.key (lineNo + 1 + 1 + 1) (by decide +kernel)
    (hex_plain _).trimmed (hplain (hex_plain _)) (setField_payload _ route.payload _)
  refine ⟨final, ?_, hpayload⟩
  unfold fieldLines
  rw [parsePolicyLines_cons hfirst, parsePolicyLines_cons hsecond, parsePolicyLines_cons hthird,
    parsePolicyLines_cons hfinal, parsePolicyLines]

theorem RouteSection.finishes {state : ParseState} {routes : List RoutePolicyEntry} {route : RoutePolicyEntry}
    (h : RouteSection state routes route
      [ascii "payload_hex", ascii "family", ascii "destination", ascii "source"])
    (hpayload : route.payload ≠ []) : Finishes state (routes ++ [route]) := by
  obtain ⟨hin, hdocument, hcurrent, named, hkeys, _⟩ := h
  have hrequired : ["source", "destination", "family"].find? (fun key => ascii key ∉ state.keys) = none := by
    rw [hkeys]
    simp
  unfold Finishes finishRoute
  rw [if_neg (by simp [hin]), if_neg (by simp [hkeys]), hrequired, hdocument, hcurrent]
  dsimp only
  rw [if_neg hpayload]

theorem parse_route {state : ParseState} {routes : List RoutePolicyEntry} (h : Finishes state routes)
    {route : RoutePolicyEntry} (hroute : route.Textual) (lineNo : Nat) :
    ∃ final, parsePolicyLines lineNo (routeLines route) state = .ok final ∧
      Finishes final (routes ++ [route]) := by
  obtain ⟨begun, hbegun, hstate⟩ := parse_name h hroute.name.1 lineNo
  have happend := @parsePolicyLines_append _ (fieldLines route) _ _ _ hbegun
  rw [List.cons_append] at happend
  unfold routeLines
  rw [happend]
  obtain ⟨final, hfinal, hsection⟩ := parse_fields hstate hroute (lineNo + (nameLines route.name).length + 1)
  exact ⟨final, hfinal, hsection.finishes hroute.payload⟩

theorem parse_routes {routes : List RoutePolicyEntry} (hroutes : ∀ route ∈ routes, route.Textual)
    {state : ParseState} {before : List RoutePolicyEntry} (h : Finishes state before) (lineNo : Nat) :
    ∃ final, parsePolicyLines lineNo (routes.flatMap routeLines) state = .ok final ∧
      Finishes final (before ++ routes) := by
  induction routes generalizing state before lineNo with
  | nil => exact ⟨state, rfl, by simpa using h⟩
  | cons route routes ih =>
    obtain ⟨hroute, hrest⟩ := List.forall_mem_cons.mp hroutes
    obtain ⟨next, hnext, hfinishes⟩ := parse_route h hroute lineNo
    rw [List.flatMap_cons, parsePolicyLines_append hnext, List.append_cons]
    exact ih hrest hfinishes _

theorem ValidationState.checkFamily_nil {v : ValidationState} {line : Nat} {route : RoutePolicyEntry}
    (h : (v.checkFamily line route).diagnostics = []) : v.diagnostics = [] := by
  unfold checkFamily report at h
  split at h
  next => simp at h
  next => exact h

theorem ValidationState.checkSource_nil {v : ValidationState} {line : Nat} {route : RoutePolicyEntry}
    (h : (v.checkSource line route).diagnostics = []) : v.diagnostics = [] := by
  unfold checkSource report at h
  split at h
  next => simp at h
  next => exact h

theorem ValidationState.checkName_nil {v : ValidationState} {line : Nat} {route : RoutePolicyEntry}
    (h : (v.checkName line route).diagnostics = []) : v.diagnostics = [] := by
  unfold checkName report at h
  split at h
  next => exact h
  next =>
    split at h
    next => simp at h
    next => exact h

/-- Both ends of the route are data channels. -/
def RoutePolicyEntry.DataChannels (route : RoutePolicyEntry) : Prop :=
  route.source.isControl = false ∧ route.destination.isControl = false

theorem ValidationState.checkChannels_nil {v : ValidationState} {line : Nat} {route : RoutePolicyEntry}
    (h : (v.checkChannels line route).diagnostics = []) : v.diagnostics = [] ∧ route.DataChannels := by
  unfold checkChannels report at h
  split at h
  next => simp at h
  next hdata =>
    rw [not_or, Bool.not_eq_true, Bool.not_eq_true] at hdata
    exact ⟨h, hdata⟩

/-- Diagnostics are only added, so that none at the end means that no check has failed. -/
theorem validateRoutes_nil {routes : List RoutePolicyEntry} {line : Nat} {v : ValidationState}
    (h : (validateRoutes line routes v).diagnostics = []) :
    v.diagnostics = [] ∧ ∀ route ∈ routes, route.DataChannels := by
  induction routes generalizing line v with
  | nil => exact ⟨h, by simp⟩
  | cons route routes ih =>
    obtain ⟨hchecked, hrest⟩ := ih h
    obtain ⟨hbefore, hdata⟩ := ValidationState.checkChannels_nil (ValidationState.checkFamily_nil
      (ValidationState.checkSource_nil (ValidationState.checkName_nil hchecked)))
    exact ⟨hbefore, List.forall_mem_cons.mpr ⟨hdata, hrest⟩⟩

theorem validate_ok {document : RoutePolicyDocument} (h : (validateRoutePolicy document).ok = true) :
    (validateRoutePolicy document).diagnostics = [] ∧ document.routes ≠ [] ∧
      ∀ route ∈ document.routes, route.DataChannels := by
  have hnil : (validateRoutePolicy document).diagnostics = [] := List.isEmpty_iff.mp h
  refine ⟨hnil, ?_⟩
  unfold validateRoutePolicy at hnil
  dsimp only at hnil
  split at hnil
  next => simp at hnil
  next hne => exact ⟨hne, (validateRoutes_nil hnil).2⟩

theorem routeLines_ne_newline {route : RoutePolicyEntry} (h : kNewline ∉ route.name) :
    ∀ line ∈ routeLines route, ∀ ch ∈ line, ch ≠ kNewline := by
  have hspace : isSpace kNewline = true := by decide
  have hplain : ∀ {text : Bytes}, PlainText text → kNewline ∉ text := fun htext hmem =>
    absurd (htext _ hmem).1 (by rw [hspace]; simp)
  have hother : kNewline ≠ kQuote ∧ kNewline ≠ kColon ∧ kNewline ≠ kEquals ∧
      kNewline ∉ ascii "[route]" ∧ kNewline ∉ ascii "name" ∧ kNewline ∉ ascii "source" ∧
      kNewline ∉ ascii "destination" ∧ kNewline ∉ ascii "family" ∧ kNewline ∉ ascii "payload_hex" := by
    decide +kernel
  obtain ⟨hquote, hcolon, hequals, hroute, hname, hsource, hdestination, hfamily, hpayload⟩ := hother
  have hdecimal : ∀ n, kNewline ∉ decimal n := fun n => hplain (decimal_plain n)
  have hstr : ∀ id : ChannelId, kNewline ∉ id.str := by
    intro id
    simp [ChannelId.str, hdecimal, hcolon]
  have hall : ∀ line ∈ routeLines route, kNewline ∉ line := by
    intro line hline
    unfold routeLines nameLines fieldLines keyLine at hline
    rcases List.mem_cons.mp hline with rfl | hline
    · exact hroute
    · rcases List.mem_append.mp hline with hline | hline
      · split at hline
        next => cases hline
        next =>
          rw [List.mem_singleton.mp hline]
          simp [hname, hequals, hquote, h]
      · simp only [List.mem_cons, List.not_mem_nil, or_false] at hline
        rcases hline with rfl | rfl | rfl | rfl
        · simp [hsource, hequals, hstr]
        · simp [hdestination, hequals, hstr]
        · simp [hfamily, hequals, hdecimal]
        · simp [hpayload, hequals, hplain (hex_plain _)]
  intro line hline ch hch heq
  exact hall line hline (heq ▸ hch)

theorem parse_serialized {document : RoutePolicyDocument} (hok : (validateRoutePolicy document).ok = true)
    (htextual : ∀ route ∈ document.routes, route.Textual) :
    parseRoutePolicyText (document.routes.flatMap serializeRoute) = .ok document := by
  obtain ⟨hnil, hne, _⟩ := validate_ok hok
  have htext : document.routes.flatMap serializeRoute =
      (document.routes.flatMap routeLines).flatMap (· ++ [kNewline]) := by
    rw [List.flatMap_assoc]
    exact List.flatMap_congr fun route _ => serializeRoute_eq route
  have hlines : lines (document.routes.flatMap serializeRoute) = document.routes.flatMap routeLines := by
    rw [htext]
    refine lines_joined fun line hline => ?_
    obtain ⟨route, hroute, hmem⟩ := List.mem_flatMap.mp hline
    exact routeLines_ne_newline (htextual route hroute).name.2 line hmem
  have hstart : Finishes {} [] := rfl
  obtain ⟨final, hfinal, hfinishes⟩ := parse_routes htextual hstart 1
  unfold parseRoutePolicyText
  rw [hlines, hfinal]
  dsimp only
  rw [hfinishes, List.nil_append]
  dsimp only
  rw [if_neg hne, hnil]

/-- What every entry of a policy that was read has: no name holds a comment or a newline, and number 0
comes with generation 0. -/
structure EntryRead (entry : RoutePolicyEntry) : Prop where
  name : kHash ∉ entry.name ∧ kNewline ∉ entry.name
  source : entry.source.number = 0 → entry.source.generation = 0
  destination : entry.destination.number = 0 → entry.destination.generation = 0

structure StateRead (state : ParseState) : Prop where
  current : EntryRead state.current
  routes : ∀ route ∈ state.document.routes, EntryRead route ∧ route.payload ≠ []

theorem EntryRead.start : EntryRead {} := by constructor <;> decide

theorem EntryRead.setField {entry entry' : RoutePolicyEntry} (h : EntryRead entry) {key value : Bytes}
    {lineNo : Nat} (hclear : kHash ∉ value ∧ kNewline ∉ value)
    (hset : setField entry key value lineNo = .ok entry') : EntryRead entry' := by
  unfold LatticeGateway.setField at hset
  split at hset
  next =>
    cases hset
    exact ⟨⟨fun hmem => hclear.1 (mem_of_mem_unquote hmem), fun hmem => hclear.2 (mem_of_mem_unquote hmem)⟩,
      h.source, h.destination⟩
  next =>
    split at hset
    next =>
      split at hset
      next => cases hset
      next source hsource =>
        cases hset
        exact ⟨h.name, parseChannelText_numbered hsource, h.destination⟩
    next =>
      split at hset
      next =>
        split at hset
        next => cases hset
        next destination hdestination =>
          cases hset
          exact ⟨h.name, h.source, parseChannelText_numbered hdestination⟩
      next =>
        split at hset
        next =>
          split at hset
          next => cases hset
          next =>
            cases hset
            exact ⟨h.name, h.source, h.destination⟩
        next =>
          split at hset
          next =>
            split at hset
            next => cases hset
            next =>
              cases hset
              exact ⟨h.name, h.source, h.destination⟩
          next => cases hset

theorem StateRead.finishRoute {state state' : ParseState} (h : StateRead state)
    (hfinish : finishRoute state = .ok state') : StateRead state' := by
  unfold LatticeGateway.finishRoute at hfinish
  split at hfinish
  next =>
    cases hfinish
    exact h
  next =>
    split at hfinish
    next => cases hfinish
    next =>
      split at hfinish
      next => cases hfinish
      next =>
        cases hfinish
        refine ⟨EntryRead.start, ?_⟩
        intro route hroute
        rcases List.mem_append.mp hroute with hroute | hroute
        · exact h.routes route hroute
        · rw [List.mem_singleton.mp hroute]
          split
          next => exact ⟨⟨h.current.name, h.current.source, h.current.destination⟩, by simp [defaultPayload]⟩
          next hpayload => exact ⟨h.current, hpayload⟩

theorem StateRead.beginRoute {state state' : ParseState} (h : StateRead state) {line : Nat}
    (hbegin : beginRoute state line = .ok state') : StateRead state' := by
  unfold LatticeGateway.beginRoute at hbegin
  split at hbegin
  next => cases hbegin
  next finished hfinish =>
    cases hbegin
    exact ⟨EntryRead.start, (h.finishRoute hfinish).routes⟩

theorem StateRead.setKey {state state' : ParseState} (h : StateRead state) {key value : Bytes} {line : Nat}
    (hclear : kHash ∉ value ∧ kNewline ∉ value) (hset : setKey state key value line = .ok state') :
    StateRead state' := by
  unfold LatticeGateway.setKey at hset
  split at hset
  next => cases hset
  next begun hbegun =>
    have hread : StateRead begun := by
      split at hbegun
      next =>
        cases hbegun
        exact h
      next => exact h.beginRoute hbegun
    split at hset
    next => cases hset
    next =>
      split at hset
      next => cases hset
      next entry hentry =>
        cases hset
        exact ⟨hread.current.setField hclear hentry, hread.routes⟩

theorem StateRead.line {state state' : ParseState} (h : StateRead state) {lineNo : Nat} {line : Bytes}
    (hline : kNewline ∉ line) (hparse : parsePolicyLine state lineNo line = .ok state') : StateRead state' := by
  unfold parsePolicyLine at hparse
  dsimp only at hparse
  split at hparse
  next =>
    cases hparse
    exact h
  next =>
    split at hparse
    next => exact h.beginRoute hparse
    next =>
      split at hparse
      next => cases hparse
      next key value hsplit =>
        refine h.setKey ⟨fun hmem => ?_, fun hmem => ?_⟩ hparse
        · have hbefore := mem_of_mem_trim (mem_of_mem_splitFirst hsplit (mem_of_mem_trim hmem))
          simpa using List.mem_takeWhile_imp hbefore
        · have hbefore := mem_of_mem_trim (mem_of_mem_splitFirst hsplit (mem_of_mem_trim hmem))
          exact hline ((List.takeWhile_prefix _).subset hbefore)

theorem StateRead.lines {parts : List Bytes} (hparts : ∀ line ∈ parts, kNewline ∉ line) {state state' : ParseState}
    (h : StateRead state) {lineNo : Nat} (hparse : parsePolicyLines lineNo parts state = .ok state') :
    StateRead state' := by
  induction parts generalizing state lineNo with
  | nil =>
    cases hparse
    exact h
  | cons line parts ih =>
    obtain ⟨hline, hrest⟩ := List.forall_mem_cons.mp hparts
    unfold parsePolicyLines at hparse
    split at hparse
    next => cases hparse
    next next hnext => exact ih hrest (h.line hline hnext) hparse

theorem parseRoutePolicyText_read {text : Bytes} {document : RoutePolicyDocument}
    (h : parseRoutePolicyText text = .ok document) :
    ∀ route ∈ document.routes, EntryRead route ∧ route.payload ≠ [] := by
  unfold parseRoutePolicyText at h
  split at h
  next => cases h
  next state hstate =>
    split at h
    next => cases h
    next final hfinal =>
      split at h
      next => cases h
      next =>
        split at h
        next => cases h
        next =>
          cases h
          have hstart : StateRead {} := ⟨EntryRead.start, by simp⟩
          have hread := hstart.lines (fun line hline => lines_plain hline) hstate
          exact (hread.finishRoute hfinal).routes

/-- Whatever the policy is written as is read as this policy. -/
def PolicyReadsBack (document : RoutePolicyDocument) : Prop :=
  ∀ text, serializeRoutePolicy document = .ok text → parseRoutePolicyText text = .ok document

theorem parseRoutePolicyText_valid {text : Bytes} {document : RoutePolicyDocument}
    (h : parseRoutePolicyText text = .ok document) : (validateRoutePolicy document).ok = true := by
  unfold parseRoutePolicyText at h
  split at h
  next => cases h
  next =>
    split at h
    next => cases h
    next =>
      split at h
      next => cases h
      next =>
        split at h
        next => cases h
        next hnil =>
          cases h
          exact List.isEmpty_iff.mpr hnil

/-- The routes of an accepted text can be written down as text. -/
theorem parseRoutePolicyText_textual {text : Bytes} {document : RoutePolicyDocument}
    (h : parseRoutePolicyText text = .ok document) : ∀ route ∈ document.routes, route.Textual := by
  intro route hroute
  obtain ⟨hread, hpayload⟩ := parseRoutePolicyText_read h route hroute
  obtain ⟨hsource, hdestination⟩ := (validate_ok (parseRoutePolicyText_valid h)).2.2 route hroute
  refine ⟨hread.name, fun hzero => ?_, fun hzero => ?_, hpayload⟩
  · have hgeneration := hread.source hzero
    simp [ChannelId.isControl, hzero, hgeneration] at hsource
  · have hgeneration := hread.destination hzero
    simp [ChannelId.isControl, hzero, hgeneration] at hdestination

theorem serialize_valid {document : RoutePolicyDocument} (h : (validateRoutePolicy document).ok = true) :
    serializeRoutePolicy document = .ok (document.routes.flatMap serializeRoute) := by
  unfold serializeRoutePolicy
  rw [(validate_ok h).1]

/-- A valid policy is read back exactly when no name holds a comment or a newline, no payload is empty, and
no channel has the number 0. -/
theorem policy_reads_back_iff (document : RoutePolicyDocument) :
    PolicyReadsBack document ↔
      ((validateRoutePolicy document).ok = true → ∀ route ∈ document.routes, route.Textual) := by
  constructor
  · exact fun h hok => parseRoutePolicyText_textual (h _ (serialize_valid hok))
  · intro h text htext
    unfold serializeRoutePolicy at htext
    split at htext
    next => cases htext
    next hnil =>
      cases htext
      have hok : (validateRoutePolicy document).ok = true := by simp [RoutePolicyValidation.ok, hnil]
      exact parse_serialized hok (h hok)

/-- A name that closes its own section and opens another one. -/
def smuggledName : Bytes :=
  ascii "a" ++ [kQuote, kNewline] ++ ascii "source=5:1" ++ [kNewline] ++ ascii "destination=6:1" ++
    [kNewline] ++ ascii "family=7" ++ [kNewline] ++ ascii "[route]" ++ [kNewline] ++ ascii "name=" ++ [kQuote] ++
    ascii "b"

def smuggledPolicy : RoutePolicyDocument := { routes := [{ name := smuggledName, payload := [1] }] }

theorem policy_not_read_back :
    ¬ PolicyReadsBack smuggledPolicy ∧
      ((serializeRoutePolicy smuggledPolicy).toOption.bind fun text =>
        (parseRoutePolicyText text).toOption) = some { routes := [
          { name := ascii "a", source := ⟨5, 1⟩, destination := ⟨6, 1⟩, payload := defaultPayload },
          { name := ascii "b", payload := [1] }] } := by
  have hread : ((serializeRoutePolicy smuggledPolicy).toOption.bind fun text =>
      (parseRoutePolicyText text).toOption) = some { routes := [
        { name := ascii "a", source := ⟨5, 1⟩, destination := ⟨6, 1⟩, payload := defaultPayload },
        { name := ascii "b", payload := [1] }] } := by
    decide +kernel
  refine ⟨fun h => ?_, hread⟩
  rcases hserialize : serializeRoutePolicy smuggledPolicy with error | text
  · rw [hserialize] at hread
    cases hread
  · have hback : (parseRoutePolicyText text).toOption = some smuggledPolicy := by rw [h text hserialize]; rfl
    rw [hserialize] at hread
    exact absurd (Option.some.inj (hback.symm.trans hread)) (by decide +kernel)

/-- An accepted text has a canonical form, which is read as the same policy and written as itself. -/
theorem canonical_policy {text : Bytes} {document : RoutePolicyDocument}
    (h : parseRoutePolicyText text = .ok document) : ∃ canonical,
      serializeRoutePolicy document = .ok canonical ∧ parseRoutePolicyText canonical = .ok document ∧
      (parseRoutePolicyText canonical).bind serializeRoutePolicy = .ok canonical := by
  have hvalid := parseRoutePolicyText_valid h
  have hwritten := serialize_valid hvalid
  have hread := parse_serialized hvalid (parseRoutePolicyText_textual h)
  refine ⟨_, hwritten, hread, ?_⟩
  rw [hread]
  exact hwritten

/-- No section line, a comment, spaces, quotes, leading zeros and no payload. -/
def looseText : Bytes :=
  ascii "  source = 01:1 # in" ++ [kNewline] ++ ascii "family=007" ++ [kNewline] ++ ascii "destination=" ++
    [kQuote] ++ ascii "2:001" ++ [kQuote]

theorem canonical_policy_loose : ∃ canonical,
    serializeRoutePolicy { routes := [{ payload := defaultPayload }] } = .ok canonical ∧
    parseRoutePolicyText canonical = .ok { routes := [{ payload := defaultPayload }] } ∧
    (parseRoutePolicyText canonical).bind serializeRoutePolicy = .ok canonical := by
  have hread : (parseRoutePolicyText looseText).toOption = some { routes := [{ payload := defaultPayload }] } := by
    decide +kernel
  cases hparse : parseRoutePolicyText looseText with
  | error error =>
    rw [hparse] at hread
    cases hread
  | ok document =>
    rw [hparse] at hread
    obtain rfl := Option.some.inj hread
    exact canonical_policy hparse

end LatticeGateway

import CollectorService.Replies

/-!
# The two styles of the read routes

A device's status and its latest records are read at a path with the name in it, or with the name in
the query.

* `readRoutes_agree_iff`: both styles give the same response exactly for the names that do not begin
  with `status`.
-/

namespace CollectorService.ReadRoutes

open HttpRouter

/-! ## 1. Requests -/

/-- A read request. -/
def getRequest (target body : Str) (version : ℕ) (keepAlive : Bool) : HttpRequest where
  method := .get
  target
  body
  version
  keepAlive

/-- `/devices/<name><ending>`, with the name percent encoded. -/
def devicePath (deviceName ending : Str) : Str :=
  lit "/devices/" ++ percentEncode deviceName ++ ending

/-- `<path>?device=<name>`, with the name percent encoded. -/
def deviceQuery (path deviceName : Str) : Str :=
  path ++ byte '?' :: (lit "device" ++ lit "=" ++ percentEncode deviceName)

section Targets
variable {deviceName ending path : Str}

theorem pathOnly_devicePath (hending : byte '?' ∉ ending) :
    pathOnly (devicePath deviceName ending) = devicePath deviceName ending := by
  have hname : byte '?' ∉ percentEncode deviceName := notMem_percentEncode (by decide) (by decide) _
  refine List.takeWhile_eq_self_iff.mpr fun ch hch => decide_eq_true ?_
  rintro rfl
  simp only [devicePath, List.mem_append] at hch
  rcases hch with (hch | hch) | hch
  · exact absurd hch (by decide)
  · exact hname hch
  · exact hending hch

theorem betweenPath_devicePath :
    betweenPath (devicePath deviceName ending) (lit "/devices/") ending = deviceName := by
  have hstart : lit "/devices/" <+: devicePath deviceName ending :=
    ⟨percentEncode deviceName ++ ending, (List.append_assoc ..).symm⟩
  have hsuffix : ending <:+ devicePath deviceName ending := List.suffix_append _ _
  have hlength : (devicePath deviceName ending).length = (lit "/devices/").length +
      (percentEncode deviceName).length + ending.length := by
    rw [devicePath, List.length_append, List.length_append]
  have hmiddle : ((devicePath deviceName ending).drop (lit "/devices/").length).take
      ((devicePath deviceName ending).length - (lit "/devices/").length - ending.length) =
        percentEncode deviceName := by
    rw [devicePath, List.append_assoc, List.drop_left]
    refine List.take_left' ?_
    simp only [List.length_append]
    omega
  unfold betweenPath
  rw [if_neg (by rw [hlength]; exact fun h => h.elim (· hstart) (by omega)),
    if_neg (not_not_intro hsuffix), hmiddle, urlDecode_percentEncode]

theorem contains_append {part : Str} (s t : Str) : contains (s ++ part ++ t) part = true := by
  unfold contains
  cases hafter : Search.afterFirst part (s ++ part ++ t) with
  | none => exact absurd rfl (Search.afterFirst_eq_none_iff.mp hafter s t)
  | some rest => rfl

end Targets

/-! ## 2. Names that look like a route -/

section Prefix
variable {word s t : Str} {c : UInt8}

/-- A word without the separator does not reach behind it. -/
theorem prefix_append_cons_iff (hword : c ∉ word) : word <+: s ++ c :: t ↔ word <+: s := by
  constructor
  · intro h
    rcases le_or_gt word.length s.length with hle | hlt
    · exact List.prefix_of_prefix_length_le h (List.prefix_append _ _) hle
    · have hlonger : s ++ [c] <+: word := by
        refine List.prefix_of_prefix_length_le ⟨t, by simp⟩ h ?_
        rw [List.length_append, List.length_singleton]
        omega
      exact absurd (hlonger.subset (List.mem_append_right _ List.mem_cons_self)) hword
  · exact fun h => h.trans (List.prefix_append _ _)

/-- Unreserved characters are encoded as they are. -/
theorem prefix_percentEncode_iff (hword : ∀ ch ∈ word, isUnreserved ch = true) (value : Str) :
    word <+: percentEncode value ↔ word <+: value := by
  induction word generalizing value with
  | nil => exact iff_of_true (List.nil_prefix) (List.nil_prefix)
  | cons ch word ih =>
    obtain ⟨hch, hword⟩ := List.forall_mem_cons.mp hword
    cases value with
    | nil => exact Iff.rfl
    | cons b value =>
      rw [percentEncode, List.flatMap_cons, ← percentEncode, List.cons_prefix_cons]
      unfold percentByte
      split
      · rw [List.singleton_append, List.cons_prefix_cons, ih hword]
      · next hb =>
        refine iff_of_false (fun h => ?_) fun h => hb (h.1 ▸ hch)
        rw [List.cons_append, List.cons_prefix_cons] at h
        rw [h.1] at hch
        cases hch

theorem not_prefix_of_ne {a b : UInt8} (h : a ≠ b) : ¬ a :: word <+: b :: s := fun hpre =>
  h (List.cons_prefix_cons.mp hpre).1

/-- The word `status` behind a slash, in the path of the latest records. -/
theorem contains_status_iff (deviceName : Str) :
    contains (devicePath deviceName (lit "/resources/latest")) (lit "/status") = true ↔
      lit "status" <+: deviceName := by
  have hslash : byte '/' ∉ percentEncode deviceName := notMem_percentEncode (by decide) (by decide) _
  have hpath : devicePath deviceName (lit "/resources/latest") = byte '/' :: (lit "devices" ++
      byte '/' :: (percentEncode deviceName ++ byte '/' :: (lit "resources" ++
        byte '/' :: (lit "latest" ++ [])))) := by
    simp only [devicePath, List.append_assoc]
    rfl
  have hword : lit "/status" = byte '/' :: lit "status" := rfl
  have hname : lit "status" <+: percentEncode deviceName ++ byte '/' :: (lit "resources" ++
      byte '/' :: (lit "latest" ++ [])) ↔ lit "status" <+: deviceName :=
    (prefix_append_cons_iff (by decide)).trans (prefix_percentEncode_iff (by decide) _)
  unfold contains
  rw [hpath, hword, Search.afterFirst_cons, if_neg fun h => not_prefix_of_ne (by decide) h.2,
    Search.afterFirst_append (by decide), Search.afterFirst_cons]
  split
  · next h => exact iff_of_true rfl (hname.mp h.2)
  · next h =>
    -- behind the name no segment starts with the word
    refine iff_of_false ?_ fun hstatus => h ⟨rfl, hname.mpr hstatus⟩
    rw [Search.afterFirst_append hslash, Search.afterFirst_cons,
      if_neg fun h => not_prefix_of_ne (by decide) h.2, Search.afterFirst_append (by decide),
      Search.afterFirst_cons, if_neg fun h => not_prefix_of_ne (by decide) h.2,
      Search.afterFirst_append (by decide)]
    decide

end Prefix

/-! ## 3. The routes taken -/

section Routes
variable {models : ModelRepository} {deviceName body : Str} {version : ℕ} {keepAlive : Bool}

/-- A device path is none of the fixed paths. -/
theorem devicePath_ne {ending path : Str} (hname : deviceName ≠ [])
    (hlength : path.length ≤ (lit "/devices/" ++ ending).length) :
    devicePath deviceName ending ≠ path := by
  rintro rfl
  have hencoded : percentEncode deviceName ≠ [] := fun h => hname (by
    rw [← urlDecode_percentEncode deviceName, h]
    rfl)
  have hpos := List.length_pos_iff.mpr hencoded
  simp only [devicePath, List.length_append] at hlength
  omega

/-- With a device in the path, only the substring searches of `dispatch` choose. -/
theorem dispatch_devicePath {ending : Str} (hname : deviceName ≠ [])
    (hending : byte '?' ∉ ending) (hlength : (lit "/status").length ≤ ending.length) :
    dispatch models (getRequest (devicePath deviceName ending) body version keepAlive) =
      if contains (devicePath deviceName ending) (lit "/status") then
        deviceStatusRoute (devicePath deviceName ending)
      else if contains (devicePath deviceName ending) (lit "/resources/latest") then
        deviceLatestRoute (devicePath deviceName ending)
      else pure (.notFound, .error (lit "route not found: " ++ devicePath deviceName ending)) := by
  have hstart : lit "/devices/" <+: devicePath deviceName ending :=
    ⟨percentEncode deviceName ++ ending, (List.append_assoc ..).symm⟩
  have hshort : (lit "/devices/status").length ≤ (lit "/devices/" ++ ending).length := by
    rw [List.length_append]
    exact (Nat.add_le_add_left hlength _).trans' (by decide)
  have hne {path : Str} (h : path.length ≤ (lit "/devices/status").length) :
      devicePath deviceName ending ≠ path := devicePath_ne hname (h.trans hshort)
  unfold dispatch
  simp only [getRequest, pathOnly_devicePath hending, @hne (lit "/health") (by decide),
    @hne (lit "/devices") (by decide), @hne (lit "/status") (by decide),
    @hne (lit "/devices/status") (by decide), @hne (lit "/latest") (by decide), hstart, or_false,
    and_false, if_false, true_and, reduceCtorEq, false_and]

/-- The status of the device in the path. -/
theorem dispatch_statusPath (hname : deviceName ≠ []) :
    dispatch models (getRequest (devicePath deviceName (lit "/status")) body version keepAlive) =
      deviceStatusRoute (devicePath deviceName (lit "/status")) := by
  have hcontains : contains (devicePath deviceName (lit "/status")) (lit "/status") = true := by
    simpa only [devicePath, List.append_nil] using
      contains_append (lit "/devices/" ++ percentEncode deviceName) []
  rw [dispatch_devicePath hname (by decide) le_rfl, if_pos hcontains]

/-- The search for the status comes first. -/
theorem dispatch_latestPath (hname : deviceName ≠ []) :
    dispatch models
        (getRequest (devicePath deviceName (lit "/resources/latest")) body version keepAlive) =
      if lit "status" <+: deviceName then
        deviceStatusRoute (devicePath deviceName (lit "/resources/latest"))
      else deviceLatestRoute (devicePath deviceName (lit "/resources/latest")) := by
  have hcontains : contains (devicePath deviceName (lit "/resources/latest"))
      (lit "/resources/latest") = true := by
    simpa only [devicePath, List.append_nil] using
      contains_append (lit "/devices/" ++ percentEncode deviceName) []
  rw [dispatch_devicePath hname (by decide) (by decide), if_pos hcontains]
  exact if_congr (contains_status_iff deviceName) rfl rfl

theorem dispatch_statusQuery :
    dispatch models (getRequest (deviceQuery (lit "/status") deviceName) body version keepAlive) =
      statusRoute (deviceQuery (lit "/status") deviceName) := by
  have hpath : pathOnly (deviceQuery (lit "/status") deviceName) = lit "/status" :=
    pathOnly_append (by decide) _
  unfold dispatch
  simp only [getRequest, hpath]
  rfl

theorem dispatch_latestQuery :
    dispatch models (getRequest (deviceQuery (lit "/latest") deviceName) body version keepAlive) =
      latestRoute (deviceQuery (lit "/latest") deviceName) := by
  have hpath : pathOnly (deviceQuery (lit "/latest") deviceName) = lit "/latest" :=
    pathOnly_append (by decide) _
  unfold dispatch
  simp only [getRequest, hpath]
  rfl

theorem queryParam_deviceQuery {path : Str} (hpath : byte '?' ∉ path) :
    queryParam (deviceQuery path deviceName) (lit "device") = deviceName :=
  queryParam_single hpath (by decide) deviceName

theorem deviceStatusRoute_eq (hname : deviceName ≠ []) :
    deviceStatusRoute (devicePath deviceName (lit "/status")) =
      statusRoute (deviceQuery (lit "/status") deviceName) := by
  unfold deviceStatusRoute statusRoute
  rw [betweenPath_devicePath, queryParam_deviceQuery (by decide)]
  simp only [if_neg hname]

theorem deviceLatestRoute_eq (hname : deviceName ≠ []) :
    deviceLatestRoute (devicePath deviceName (lit "/resources/latest")) =
      latestRoute (deviceQuery (lit "/latest") deviceName) := by
  unfold deviceLatestRoute latestRoute
  rw [betweenPath_devicePath, queryParam_deviceQuery (by decide)]
  simp only [if_neg hname]

/-- The path of the latest records does not end with `/status`. -/
theorem betweenPath_latest :
    betweenPath (devicePath deviceName (lit "/resources/latest")) (lit "/devices/")
      (lit "/status") = [] := by
  have hends : ¬ lit "/status" <:+ devicePath deviceName (lit "/resources/latest") := by
    intro h
    have hlatest : lit "/resources/latest" <:+ devicePath deviceName (lit "/resources/latest") :=
      List.suffix_append _ _
    exact absurd (List.suffix_of_suffix_length_le h hlatest (by decide)) (by decide)
  unfold betweenPath
  rw [if_pos hends, ite_self]

end Routes

/-! ## 4. Both styles -/

/-- The status and the body that a request is answered with. -/
def answered (models : ModelRepository) (request : HttpRequest) (p : Process) :
    Option (HttpStatus × Str) :=
  match route models request p with
  | some (.ok response, _) => some (response.status, response.body)
  | _ => none

section Styles
variable {models : ModelRepository} {request request' : HttpRequest} {p : Process}

/-- What is answered depends on what `dispatch` decides. -/
theorem answered_congr (h : dispatch models request = dispatch models request') :
    answered models request p = answered models request' p := by
  unfold answered route
  rw [← h, Session.bind_apply, Session.bind_apply]
  rcases Session.tryCatch (dispatch models request)
    (fun e => (.internalServerError, .error e)) p with _ | ⟨e | reply, p'⟩ <;> rfl

/-- A name that begins with `status` gets its latest records from the query only: its path asks for
the status of a device without a name. -/
theorem answered_latest_ne {deviceName : Str} (hname : deviceName ≠ [])
    (hstatus : lit "status" <+: deviceName) :
    answered models (getRequest (devicePath deviceName (lit "/resources/latest")) [] 11 true) idle ≠
      answered models (getRequest (deviceQuery (lit "/latest") deviceName) [] 11 true) idle := by
  have hpath : answered models
      (getRequest (devicePath deviceName (lit "/resources/latest")) [] 11 true) idle =
        some (.internalServerError, jsonError (lit "device not found: ")) := by
    unfold answered route
    rw [Session.bind_apply, dispatch_latestPath hname, if_pos hstatus]
    unfold deviceStatusRoute
    rw [betweenPath_latest]
    rfl
  have hquery : answered models
      (getRequest (deviceQuery (lit "/latest") deviceName) [] 11 true) idle =
        some (.ok, jsonSuccess (lit "[]")) := by
    unfold answered route
    rw [Session.bind_apply, dispatch_latestQuery]
    unfold latestRoute
    rw [queryParam_deviceQuery (by decide), if_neg hname]
    rfl
  rw [hpath, hquery]
  simp

/-- With the device in the path or in the query: in every state the two requests for the status get
the same status and body, and so do the two for the latest records, exactly for the names that do not
begin with `status`. -/
theorem readRoutes_agree_iff (models : ModelRepository) {deviceName : Str} (hname : deviceName ≠ []) :
    (∀ (p : Process) (body body' : Str) (version version' : ℕ) (keepAlive keepAlive' : Bool),
      answered models
          (getRequest (devicePath deviceName (lit "/status")) body version keepAlive) p =
        answered models
          (getRequest (deviceQuery (lit "/status") deviceName) body' version' keepAlive') p ∧
      answered models
          (getRequest (devicePath deviceName (lit "/resources/latest")) body version keepAlive) p =
        answered models
          (getRequest (deviceQuery (lit "/latest") deviceName) body' version' keepAlive') p) ↔
      ¬ lit "status" <+: deviceName := by
  constructor
  · intro hagree hstatus
    exact answered_latest_ne hname hstatus (hagree idle [] [] 11 11 true true).2
  · intro hstatus p body body' version version' keepAlive keepAlive'
    constructor
    · apply answered_congr
      rw [dispatch_statusPath hname, dispatch_statusQuery, deviceStatusRoute_eq hname]
    · apply answered_congr
      rw [dispatch_latestPath hname, if_neg hstatus, dispatch_latestQuery,
        deviceLatestRoute_eq hname]

/-- A name with bytes that are encoded. -/
theorem readRoutes_agree_iff_encoded : lit "A/status" ≠ [] ∧ ¬ lit "status" <+: lit "A/status" ∧
    ∀ (p : Process) (body body' : Str) (version version' : ℕ) (keepAlive keepAlive' : Bool),
      answered noModels (getRequest (lit "/devices/A%2Fstatus/status") body version keepAlive) p =
        answered noModels (getRequest (lit "/status?device=A%2Fstatus") body' version' keepAlive') p ∧
      answered noModels
          (getRequest (lit "/devices/A%2Fstatus/resources/latest") body version keepAlive) p =
        answered noModels
          (getRequest (lit "/latest?device=A%2Fstatus") body' version' keepAlive') p :=
  ⟨by decide, by decide,
    (@readRoutes_agree_iff noModels (lit "A/status") (by decide)).mpr (by decide)⟩

/-- The device `statusd` has no latest records at its path. -/
theorem statusd_not_agree :
    (answered noModels (getRequest (lit "/devices/statusd/resources/latest") [] 11 true) idle,
      answered noModels (getRequest (lit "/latest?device=statusd") [] 11 true) idle) =
    (some (.internalServerError, jsonError (lit "device not found: ")),
      some (.ok, jsonSuccess (lit "[]"))) := by
  decide +kernel

end Styles

end CollectorService.ReadRoutes

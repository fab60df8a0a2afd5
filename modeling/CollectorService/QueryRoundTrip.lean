import CollectorService.CollectionQueryBuilder
import CollectorService.CollectionResponseParser
import CollectorService.MockDriverServer
import CollectorService.ModelFiles

/-!
# Queries, the mock driver and responses

The query builder, the driver and the response parser are three text routines that know nothing of
each other. Put together they are the identity on the paths of the data points:

* `extractQueryPaths_buildQuery`: the driver reads the paths of the query.
* `extractObjectForPath_handleQuery`: the parser finds the object of each path in the response.
* `processResponse_handleQuery`: so every data point gets its record.
-/

namespace CollectorService.QueryRoundTrip

open CollectionQueryBuilder (queryPaths buildQuery)
open CollectionResponseParser
open MockDriverServer
open ModelParser (namePathOf)

/-! ## 1. Paths and plain texts -/

/-- The name of a component or of an item, as a path holds it. -/
structure PathPart (s : Str) : Prop where
  nonempty : s ≠ []
  clean : ∀ ch ∈ s, 32 ≤ ch ∧ ch ≠ byte '"' ∧ ch ≠ byte '\\' ∧ ch ≠ byte '/' ∧ ch ≠ byte ']'
  visible : ∀ ch ∈ s.getLast?, isspace ch = false

/-- The path of an item of a component. -/
def IsNamePath (path component item : Str) : Prop :=
  PathPart component ∧ PathPart item ∧ path = namePathOf component item

/-- No quotes, no backslashes and no control characters. -/
def Clean (s : Str) : Prop := ∀ ch ∈ s, 32 ≤ ch ∧ ch ≠ byte '"' ∧ ch ≠ byte '\\'

instance : DecidablePred Clean := fun s =>
  inferInstanceAs (Decidable (∀ ch ∈ s, 32 ≤ ch ∧ ch ≠ byte '"' ∧ ch ≠ byte '\\'))

namespace Clean

variable {s : Str}

theorem quote_notMem (h : Clean s) : byte '"' ∉ s := fun hmem => (h _ hmem).2.1 rfl

theorem backslash_notMem (h : Clean s) : byte '\\' ∉ s := fun hmem => (h _ hmem).2.2 rfl

theorem noControl (h : ∀ ch ∈ s, (32 : UInt8) ≤ ch) : NoControl s :=
  ⟨fun hmem => absurd (h _ hmem) (by decide), fun hmem => absurd (h _ hmem) (by decide),
    fun hmem => absurd (h _ hmem) (by decide)⟩

theorem quotedBody (h : Clean s) : quotedBody s = s :=
  Quoted.body_of_plain h.quote_notMem h.backslash_notMem

theorem escapeJson (h : Clean s) : escapeJson s = s := by
  rw [escapeJson_eq_body (noControl fun ch hch => (h ch hch).1), h.quotedBody]

theorem passes (h : Clean s) : Passes (quoted s) := by
  intro depth rest hdepth
  have hstring : PassesInString s := passesInString_of_plain fun ch hch => (h ch hch).2
  rw [quoted_eq, List.cons_append, List.append_assoc, scanObject_quote, Bool.not_false, hstring,
    List.singleton_append, scanObject_quote, Bool.not_true, Option.map_map, Option.map_map]
  refine congrArg (Option.map · _) (funext fun r => ?_)
  simp

end Clean

theorem PathPart.clean' {s : Str} (h : PathPart s) : Clean s := fun ch hch =>
  ⟨(h.clean ch hch).1, (h.clean ch hch).2.1, (h.clean ch hch).2.2.1⟩

section Paths
variable {path component item : Str}

theorem IsNamePath.clean (h : IsNamePath path component item) : Clean path := by
  obtain ⟨hcomponent, hitem, rfl⟩ := h
  intro ch hch
  simp only [namePathOf, List.mem_append] at hch
  have hslash : ∀ ch ∈ lit "/", 32 ≤ ch ∧ ch ≠ byte '"' ∧ ch ≠ byte '\\' := by decide
  rcases hch with ((hch | hch) | hch) | hch
  · exact hslash ch hch
  · exact hcomponent.clean' ch hch
  · exact hslash ch hch
  · exact hitem.clean' ch hch

theorem IsNamePath.bracket_notMem (h : IsNamePath path component item) : byte ']' ∉ path := by
  obtain ⟨hcomponent, hitem, rfl⟩ := h
  simp only [namePathOf, List.mem_append, not_or]
  exact ⟨⟨⟨by decide, fun hmem => (hcomponent.clean _ hmem).2.2.2.2 rfl⟩, by decide⟩,
    fun hmem => (hitem.clean _ hmem).2.2.2.2 rfl⟩

/-- The driver finds the item's name behind the last slash. -/
theorem IsNamePath.itemNameFromPath (h : IsNamePath path component item) :
    itemNameFromPath path = item := by
  obtain ⟨-, hitem, rfl⟩ := h
  have hno : ∀ ch ∈ item, decide (ch ≠ byte '/') = true := fun ch hch =>
    decide_eq_true (hitem.clean ch hch).2.2.2.1
  have hname : (namePathOf component item).rtakeWhile (· ≠ byte '/') = item := by
    have hreverse : (namePathOf component item).reverse =
        item.reverse ++ byte '/' :: (lit "/" ++ component).reverse := by
      simp [namePathOf, List.reverse_append]
      rfl
    rw [List.rtakeWhile, hreverse, List.takeWhile_append_of_pos]
    · rw [List.takeWhile_cons_of_neg (by simp), List.append_nil, List.reverse_reverse]
    · intro ch hch
      exact hno ch (List.mem_reverse.mp hch)
  have hslash : byte '/' ∈ namePathOf component item := by
    simp only [namePathOf, List.mem_append]
    exact .inl (.inr (by decide))
  rw [MockDriverServer.itemNameFromPath, hname, if_neg]
  rintro (hnot | hnil)
  · exact hnot hslash
  · exact hitem.nonempty hnil

/-- A path has no white space at its ends. -/
theorem IsNamePath.trim (h : IsNamePath path component item) : MockDriverServer.trim path = path := by
  obtain ⟨-, hitem, rfl⟩ := h
  have hstart : (namePathOf component item).dropWhile isspace = namePathOf component item :=
    List.dropWhile_cons_of_neg (by decide)
  rw [MockDriverServer.trim, hstart, List.rdropWhile_eq_self_iff]
  intro hne
  have hlast : (namePathOf component item).getLast hne = item.getLast hitem.nonempty :=
    List.getLast_append_of_ne_nil _ hitem.nonempty
  rw [hlast, Bool.not_eq_true]
  exact hitem.visible _ (List.getLast?_eq_some_getLast hitem.nonempty)

end Paths

/-! ## 2. The query -/

/-- The driver's loop reads a string back. -/
theorem scanValue_body (value rest : Str) :
    scanValue false (quotedBody value ++ byte '"' :: rest) = value := by
  induction value with
  | nil => rfl
  | cons ch value ih =>
    cases hmark : decide (ch = byte '"' ∨ ch = byte '\\') with
    | true =>
      rw [quotedBody, Quoted.body_cons_marked (of_decide_eq_true hmark), List.cons_append,
        List.cons_append, scanValue, if_pos rfl, scanValue, ih]
    | false =>
      have hmark := of_decide_eq_false hmark
      push Not at hmark
      rw [quotedBody, Quoted.body_cons_plain hmark.1 hmark.2, List.cons_append, scanValue,
        if_neg hmark.2, if_neg hmark.1, ih]

theorem scanPaths_string {path : Str} (h : Clean path) (current rest : Str) :
    scanPaths true false current (path ++ byte '"' :: rest) =
      MockDriverServer.trim (current ++ path) ::
        scanPaths false false (current ++ path) rest := by
  induction path generalizing current with
  | nil => simp [scanPaths, byte]
  | cons ch path ih =>
    obtain ⟨-, hquote, hescape⟩ := h ch List.mem_cons_self
    rw [List.cons_append, scanPaths, if_neg hescape, if_neg hquote,
      ih fun ch' hch' => h ch' (List.mem_cons_of_mem ch hch'), List.append_assoc]
    rfl

section Query
variable {cid : Str} {points : List DataPoint}

/-- Every data point has the path of an item. -/
def HavePaths (points : List DataPoint) : Prop :=
  ∀ point ∈ points, ∃ component item, IsNamePath point.namePath component item

theorem scanPaths_queryPaths (h : HavePaths points) (current : Str) :
    scanPaths false false current (queryPaths points) = points.map (·.namePath) := by
  induction points generalizing current with
  | nil => rfl
  | cons point rest ih =>
    obtain ⟨⟨component, item, hpath⟩, hrest⟩ := List.forall_mem_cons.mp h
    have hquoted (tail : Str) : quoted (escapeJson point.namePath) ++ tail =
        byte '"' :: (point.namePath ++ byte '"' :: tail) := by
      rw [hpath.clean.escapeJson, quoted_eq]
      simp
    cases rest with
    | nil =>
      have hone := hquoted []
      rw [List.append_nil] at hone
      rw [queryPaths, hone, scanPaths, if_pos rfl, scanPaths_string hpath.clean, List.nil_append,
        hpath.trim]
      rfl
    | cons next rest =>
      have hcons : queryPaths (point :: next :: rest) = quoted (escapeJson point.namePath) ++
          lit "," ++ queryPaths (next :: rest) := rfl
      rw [hcons, List.append_assoc, hquoted, scanPaths, if_pos rfl,
        scanPaths_string hpath.clean, List.nil_append, hpath.trim, List.map_cons]
      refine congrArg _ ?_
      have hcomma : lit "," ++ queryPaths (next :: rest) = byte ',' :: queryPaths (next :: rest) := rfl
      rw [hcomma, scanPaths, if_neg (by decide)]
      exact ih hrest _

theorem bracket_notMem_queryPaths (h : HavePaths points) : byte ']' ∉ queryPaths points := by
  induction points with
  | nil => simp [queryPaths]
  | cons point rest ih =>
    obtain ⟨⟨component, item, hpath⟩, hrest⟩ := List.forall_mem_cons.mp h
    have hquoted : byte ']' ∉ quoted (escapeJson point.namePath) := by
      rw [hpath.clean.escapeJson, quoted_eq]
      simp only [List.mem_cons, List.mem_append, List.not_mem_nil, or_false, not_or]
      exact ⟨by decide, hpath.bracket_notMem, by decide⟩
    cases rest with
    | nil => exact hquoted
    | cons next rest =>
      simp only [queryPaths, List.mem_append, not_or]
      exact ⟨⟨hquoted, by decide⟩, ih hrest⟩

/-- The query, as quoted words and the gaps between them. -/
theorem buildQuery_eq (hcid : NoControl cid) (hne : points ≠ []) : buildQuery cid points =
    .ok (lit "\x7b" ++ byte '"' :: (quotedBody (lit "cid") ++ byte '"' :: (lit ":" ++
      byte '"' :: (quotedBody cid ++ byte '"' :: (lit "," ++
        byte '"' :: (quotedBody (lit "query") ++ byte '"' :: (lit ":[" ++ queryPaths points ++
          lit "]\x7d"))))))) := by
  rw [buildQuery, if_neg hne, escapeJson_eq_body hcid]
  have hcidWord : quotedBody (lit "cid") = lit "cid" := by decide
  have hqueryWord : quotedBody (lit "query") = lit "query" := by decide
  have hopen : lit "\x7b\"cid\":\"" = lit "\x7b" ++ byte '"' :: (lit "cid" ++ byte '"' :: (lit ":" ++
      [byte '"'])) := by decide
  have hkey : lit "\",\"query\":[" = byte '"' :: (lit "," ++ byte '"' :: (lit "query" ++
      byte '"' :: lit ":[")) := by decide
  rw [hcidWord, hqueryWord, hopen, hkey]
  simp only [List.append_assoc, List.cons_append, List.nil_append]

/-- The driver reads the cid of the query. -/
theorem extractStringField_buildQuery {query : Str} (hcid : NoControl cid)
    (h : buildQuery cid points = .ok query) :
    MockDriverServer.extractStringField query (lit "cid") = cid := by
  have hne : points ≠ [] := by
    rintro rfl
    cases h
  rw [buildQuery_eq hcid hne] at h
  cases h
  have hskip : Quoted.Skips (byte '"') (lit "cid") (lit "\x7b") :=
    .gap (by decide) (by decide) (by decide)
  rw [MockDriverServer.extractStringField, quoted_eq, Quoted.afterFirst_of_skips (by decide)
    (by decide) (by decide) (by decide) hskip (lit "cid") _ (List.suffix_refl _)]
  simp only [lit, byte]
  exact scanValue_body cid _

/-- Behind the array's bracket the driver reads the paths. -/
theorem extractQueryPaths_of_afterFirst {query : Str} (gap : Str) (hpaths : HavePaths points)
    (hgap : byte '[' ∉ gap) (h : Search.afterFirst (quoted (lit "query")) query =
      some (gap ++ byte '[' :: (queryPaths points ++ lit "]\x7d"))) :
    extractQueryPaths query = points.map (·.namePath) := by
  have hskip : ∀ ch ∈ gap, decide (ch = byte '[') = false := fun ch hch =>
    decide_eq_false fun heq => hgap (heq ▸ hch)
  have hend : lit "]\x7d" = byte ']' :: lit "\x7d" := rfl
  have hmem : byte ']' ∈ byte '[' :: (queryPaths points ++ lit "]\x7d") := by simp [hend]
  have hinner : (queryPaths points ++ lit "]\x7d").takeWhile (· ≠ byte ']') = queryPaths points := by
    rw [hend, Search.takeWhile_ne (bracket_notMem_queryPaths hpaths)]
  rw [extractQueryPaths, h]
  simp only [Search.fromFirst_append hskip, Search.fromFirst, decide_true, if_true, hmem,
    List.tail_cons, hinner]
  exact scanPaths_queryPaths hpaths []

/-- The driver reads the paths of the query, whatever the cid holds. -/
theorem extractQueryPaths_buildQuery {query : Str} (hcid : NoControl cid) (hpaths : HavePaths points)
    (h : buildQuery cid points = .ok query) :
    extractQueryPaths query = points.map (·.namePath) := by
  have hne : points ≠ [] := by
    rintro rfl
    cases h
  rw [buildQuery_eq hcid hne] at h
  cases h
  have hbrace : Quoted.Skips (byte '"') (lit "query") (lit "\x7b") :=
    .gap (by decide) (by decide) (by decide)
  have hkey : Quoted.Skips (byte '"') (lit "query")
      (byte '"' :: (quotedBody (lit "cid") ++ [byte '"'])) :=
    .quoted (by decide) (by decide) (by decide) (by decide) (by decide)
  have hcolon : Quoted.Skips (byte '"') (lit "query") (lit ":") :=
    .gap (by decide) (by decide) (by decide)
  have hcomma : Quoted.Skips (byte '"') (lit "query") (lit ",") :=
    .gap (by decide) (by decide) (by decide)
  cases hends : decide (byte '"' :: lit "query" <:+ byte '"' :: cid) with
  | true =>
    -- the search stops at the cid, and the first bracket behind it is the array's all the same
    refine extractQueryPaths_of_afterFirst
      (lit "," ++ byte '"' :: (quotedBody (lit "query") ++ byte '"' :: lit ":")) hpaths
      (by decide) ?_
    have hstop := Quoted.afterFirst_of_skips (e := byte '\\') (by decide) (by decide) (by decide)
      (by decide) ((hbrace.append hkey).append hcolon) cid
      (lit "," ++ byte '"' :: (quotedBody (lit "query") ++ byte '"' :: (lit ":[" ++
        queryPaths points ++ lit "]\x7d"))) (of_decide_eq_true hends)
    rw [quoted_eq]
    refine Eq.trans (congrArg _ ?_) (hstop.trans (congrArg some ?_))
    · simp only [List.append_assoc, List.cons_append, List.nil_append]
    · have hbracket : lit ":[" = lit ":" ++ [byte '['] := rfl
      simp only [hbracket, List.append_assoc, List.cons_append, List.nil_append]
  | false =>
    have hvalue : Quoted.Skips (byte '"') (lit "query")
        (byte '"' :: (quotedBody cid ++ [byte '"'])) :=
      .quoted (by decide) (by decide) (by decide) (by decide) (of_decide_eq_false hends)
    refine extractQueryPaths_of_afterFirst (lit ":") hpaths (by decide) ?_
    have hstop := Quoted.afterFirst_of_skips (e := byte '\\') (by decide) (by decide) (by decide)
      (by decide) ((((hbrace.append hkey).append hcolon).append hvalue).append hcomma)
      (lit "query") (lit ":[" ++ queryPaths points ++ lit "]\x7d") (List.suffix_refl _)
    rw [quoted_eq]
    refine Eq.trans (congrArg _ ?_) (hstop.trans (congrArg some ?_))
    · simp only [List.append_assoc, List.cons_append, List.nil_append]
    · have hbracket : lit ":[" = lit ":" ++ [byte '['] := rfl
      simp only [hbracket, List.append_assoc, List.cons_append, List.nil_append]

end Query

/-! ## 3. The response -/

section Response
variable {timestamp : Double} {path word : Str}

/-- The fields that the driver writes for a path, between the braces of its object. -/
def fieldsText (timestamp : Double) (path : Str) : Str :=
  quoted (lit "value") ++ (lit ":[" ++ fixed (valueForPath path) ++ lit "],") ++
    quoted (lit "dev_time") ++ (lit ":" ++ fixed timestamp ++ lit ",") ++
    quoted (lit "svr_time") ++ (lit ":" ++ fixed timestamp ++ lit ",") ++
    quoted (lit "item_path") ++ lit ":" ++
      quoted (lit "/DV:mock/CP:mock/DT:" ++ itemNameFromPath path) ++ lit "," ++
    quoted (lit "item_description") ++ lit ":" ++ quoted (descriptionForPath path) ++ lit "," ++
    quoted (lit "item_name") ++ lit ":" ++ quoted (itemNameFromPath path)

/-- The object that the driver writes for a path. -/
def pathObject (timestamp : Double) (path : Str) : Str :=
  byte '\x7b' :: fieldsText timestamp path ++ [byte '\x7d']

theorem clean_descriptionForPath (h : Clean (itemNameFromPath path)) :
    Clean (descriptionForPath path) := by
  unfold descriptionForPath
  split
  · decide
  split
  · decide
  · exact h

theorem pathMember_eq (hpath : Clean path) (hname : Clean (itemNameFromPath path)) :
    pathMember timestamp path = quoted path ++ lit ":" ++ pathObject timestamp path := by
  have hkey : lit "\":\x7b" = byte '"' :: (lit ":" ++ [byte '\x7b']) := rfl
  have hvalue : lit "\"value\":[" = quoted (lit "value") ++ lit ":[" := rfl
  have hdev : lit "\"dev_time\":" = quoted (lit "dev_time") ++ lit ":" := rfl
  have hsvr : lit "\"svr_time\":" = quoted (lit "svr_time") ++ lit ":" := rfl
  have hitem : lit "\"item_path\":\"/DV:mock/CP:mock/DT:" =
    quoted (lit "item_path") ++ lit ":" ++ byte '"' :: lit "/DV:mock/CP:mock/DT:" := rfl
  have hdescription : lit "\"item_description\":\"" =
    quoted (lit "item_description") ++ lit ":" ++ [byte '"'] := rfl
  have hitemName : lit "\"item_name\":\"" = quoted (lit "item_name") ++ lit ":" ++ [byte '"'] := rfl
  have hcomma : lit "\"," = byte '"' :: lit "," := rfl
  have hquote : lit "\"" = [byte '"'] := rfl
  have hclose : lit "\x7d" = [byte '\x7d'] := rfl
  unfold pathMember pathObject fieldsText
  simp only [hpath.escapeJson, hname.escapeJson, (clean_descriptionForPath hname).escapeJson,
    hkey, hvalue, hdev, hsvr, hitem, hdescription, hitemName, hcomma, hquote, hclose, quoted_eq,
    List.append_assoc, List.cons_append, List.nil_append]

theorem notMem_fixed {x : Double} {ch : UInt8} (h : isFixedChar ch = false) : ch ∉ fixed x :=
  fun hmem => by
    rw [isFixedChar_fixed x ch hmem] at h
    cases h

theorem passes_fixed (x : Double) : Passes (fixed x) := by
  refine passes_of_plain (List.all_eq_true.mpr fun ch hch => ?_)
  have hnot {c : UInt8} (hc : isFixedChar c = false) : ch ≠ c := fun heq =>
    notMem_fixed hc (heq ▸ hch)
  simp [isPlain, hnot (c := byte '"') (by decide), hnot (c := byte '\\') (by decide),
    hnot (c := byte '\x7b') (by decide), hnot (c := byte '\x7d') (by decide)]

theorem clean_itemPath (h : Clean (itemNameFromPath path)) :
    Clean (lit "/DV:mock/CP:mock/DT:" ++ itemNameFromPath path) := by
  intro ch hch
  rcases List.mem_append.mp hch with hch | hch
  · have hlit : Clean (lit "/DV:mock/CP:mock/DT:") := by decide
    exact hlit ch hch
  · exact h ch hch

theorem passes_fieldsText (hname : Clean (itemNameFromPath path)) :
    Passes (fieldsText timestamp path) := by
  have hplain {s : Str} (h : s.all isPlain = true) : Passes s := passes_of_plain h
  have hkey {s : Str} (h : Clean s) : Passes (quoted s) := h.passes
  have hcolon : Passes (lit ":") := hplain (by decide)
  have hcomma : Passes (lit ",") := hplain (by decide)
  have hnumber (x : Double) : Passes (lit ":" ++ fixed x ++ lit ",") :=
    (hcolon.append (passes_fixed x)).append hcomma
  have harray : Passes (lit ":[" ++ fixed (valueForPath path) ++ lit "],") :=
    ((hplain (by decide)).append (passes_fixed _)).append (hplain (by decide))
  unfold fieldsText
  exact ((((((((((((((((hkey (by decide)).append harray).append (hkey (by decide))).append
    (hnumber _)).append (hkey (by decide))).append (hnumber _)).append (hkey (by decide))).append
    hcolon).append (hkey (clean_itemPath hname))).append hcomma).append (hkey (by decide))).append
    hcolon).append (hkey (clean_descriptionForPath hname))).append hcomma).append
    (hkey (by decide))).append hcolon).append (hkey hname)

/-- The parser's scan takes exactly the object of a path. -/
theorem scanObject_pathObject (hname : Clean (itemNameFromPath path)) (rest : Str) :
    scanObject 0 false false (pathObject timestamp path ++ rest) =
      some (pathObject timestamp path) :=
  scanObject_braces (passes_fieldsText hname) rest

/-! ### Searches in the response -/

/-- A word that a search may look for, and that no gap of a response starts like. -/
structure SearchWord (word : Str) : Prop where
  clean : Clean word
  nonempty : word ≠ []
  head : ∀ ch ∈ lit "\x7b:,\x7d", word.head? ≠ some ch

theorem SearchWord.skips_gap (hword : SearchWord word) {gap : Str} (hquote : byte '"' ∉ gap)
    (hhead : ∀ ch ∈ gap.head?, ch ∈ lit "\x7b:,\x7d") : Quoted.Skips (byte '"') word gap :=
  .gap hquote (fun ch hch => hword.head ch (hhead ch hch)) hword.nonempty

theorem SearchWord.skips_quoted (hword : SearchWord word) {s : Str} (hs : Clean s) (hne : s ≠ word) :
    Quoted.Skips (byte '"') word (quoted s) := by
  have hskip : Quoted.Skips (byte '"') word (byte '"' :: (quotedBody s ++ [byte '"'])) := by
    refine .quoted (by decide) hword.clean.quote_notMem hword.clean.backslash_notMem
      hword.nonempty ?_
    rw [Quoted.quote_suffix_cons]
    rintro (⟨-, heq⟩ | hsuffix)
    · exact hne heq
    · exact hs.quote_notMem (hsuffix.subset List.mem_cons_self)
  rwa [hs.quotedBody] at hskip

/-- The search ends behind the first quoted text that is the word. -/
theorem SearchWord.afterFirst (hword : SearchWord word) {text : Str}
    (htext : Quoted.Skips (byte '"') word text) (rest : Str) :
    Search.afterFirst (quoted word) (text ++ quoted word ++ rest) = some rest := by
  have hstop := Quoted.afterFirst_of_skips (e := byte '\\') (by decide) hword.clean.quote_notMem
    hword.clean.backslash_notMem hword.nonempty htext word rest (List.suffix_refl _)
  rw [quoted_eq]
  refine Eq.trans (congrArg _ ?_) hstop
  have hbody : Quoted.body (byte '"') (byte '\\') word = word := hword.clean.quotedBody
  simp only [hbody, List.append_assoc, List.cons_append, List.nil_append]

/-- The fields up to the description. -/
def fieldsBefore (timestamp : Double) (path : Str) : Str :=
  quoted (lit "value") ++ (lit ":[" ++ fixed (valueForPath path) ++ lit "],") ++
    quoted (lit "dev_time") ++ (lit ":" ++ fixed timestamp ++ lit ",") ++
    quoted (lit "svr_time") ++ (lit ":" ++ fixed timestamp ++ lit ",") ++
    quoted (lit "item_path") ++ lit ":" ++
      quoted (lit "/DV:mock/CP:mock/DT:" ++ itemNameFromPath path) ++ lit "," ++
    quoted (lit "item_description") ++ lit ":"

theorem fieldsText_eq : fieldsText timestamp path = fieldsBefore timestamp path ++
    quoted (descriptionForPath path) ++ lit "," ++ quoted (lit "item_name") ++ lit ":" ++
      quoted (itemNameFromPath path) := rfl

/-- The object of a path, from brace to brace. -/
theorem pathObject_eq : pathObject timestamp path = lit "\x7b" ++ fieldsBefore timestamp path ++
    quoted (descriptionForPath path) ++ lit "," ++ quoted (lit "item_name") ++ lit ":" ++
      quoted (itemNameFromPath path) ++ lit "\x7d" := by
  have hopen : lit "\x7b" = [byte '\x7b'] := rfl
  have hclose : lit "\x7d" = [byte '\x7d'] := rfl
  rw [pathObject, fieldsText_eq, hopen, hclose]
  simp only [List.append_assoc, List.cons_append, List.nil_append]

/-- A word is not found among the fields up to the description. -/
theorem SearchWord.skips_fieldsBefore (hword : SearchWord word)
    (hname : Clean (itemNameFromPath path))
    (hkeys : ∀ key ∈ [lit "value", lit "dev_time", lit "svr_time", lit "item_path",
      lit "item_description"], key ≠ word)
    (hitem : lit "/DV:mock/CP:mock/DT:" ++ itemNameFromPath path ≠ word) :
    Quoted.Skips (byte '"') word (fieldsBefore timestamp path) := by
  simp only [List.forall_mem_cons] at hkeys
  obtain ⟨hvalue, hdev, hsvr, hpath, hdescription, -⟩ := hkeys
  have hcolon : Quoted.Skips (byte '"') word (lit ":") := hword.skips_gap (by decide) (by decide)
  have hcomma : Quoted.Skips (byte '"') word (lit ",") := hword.skips_gap (by decide) (by decide)
  have hfixed (x : Double) : byte '"' ∉ fixed x := notMem_fixed (by decide)
  have hnumber (x : Double) : Quoted.Skips (byte '"') word (lit ":" ++ fixed x ++ lit ",") := by
    refine hword.skips_gap ?_ ?_
    · simp only [List.mem_append, not_or]
      exact ⟨⟨by decide, hfixed x⟩, by decide⟩
    · intro ch hch
      cases hch
      decide
  have harray : Quoted.Skips (byte '"') word
      (lit ":[" ++ fixed (valueForPath path) ++ lit "],") := by
    refine hword.skips_gap ?_ ?_
    · simp only [List.mem_append, not_or]
      exact ⟨⟨by decide, hfixed _⟩, by decide⟩
    · intro ch hch
      cases hch
      decide
  have hkey {key : Str} (hclean : Clean key) (hne : key ≠ word) :
      Quoted.Skips (byte '"') word (quoted key) := hword.skips_quoted hclean hne
  unfold fieldsBefore
  exact (((((((((((hkey (by decide) hvalue).append harray).append (hkey (by decide) hdev)).append
    (hnumber _)).append (hkey (by decide) hsvr)).append (hnumber _)).append
    (hkey (by decide) hpath)).append hcolon).append (hkey (clean_itemPath hname) hitem)).append
    hcomma).append (hkey (by decide) hdescription)).append hcolon

/-- The value of a path is the text of the first array of its object. -/
theorem extractArrayFieldText_pathObject :
    extractArrayFieldText (pathObject timestamp path) (lit "value") =
      lit "[" ++ fixed (valueForPath path) ++ lit "]" := by
  have hword : SearchWord (lit "value") := ⟨by decide, by decide, by decide⟩
  have hbracket : byte ']' ∉ byte '[' :: fixed (valueForPath path) := by
    simp only [List.mem_cons, not_or]
    exact ⟨by decide, notMem_fixed (by decide)⟩
  obtain ⟨rest, hobject⟩ : ∃ rest, pathObject timestamp path = lit "\x7b" ++ quoted (lit "value") ++
      (lit ":" ++ byte '[' :: (fixed (valueForPath path) ++ byte ']' :: rest)) := by
    have hopen : lit ":[" = lit ":" ++ [byte '['] := rfl
    have hclose : lit "]," = byte ']' :: lit "," := rfl
    refine ⟨?rest, ?whole⟩
    case whole =>
      unfold pathObject fieldsText
      simp only [hopen, hclose, List.append_assoc, List.cons_append, List.nil_append]
      rfl
  rw [extractArrayFieldText, hobject,
    hword.afterFirst (hword.skips_gap (by decide) (by decide))]
  simp only [Search.fromFirst_eq (show byte '[' ∉ lit ":" by decide)]
  rw [← List.cons_append, if_pos (by simp), Search.takeWhile_ne hbracket]
  rfl

/-- The item's name is read back, also where the description is the name of the field. -/
theorem extractStringField_pathObject (hname : Clean (itemNameFromPath path)) :
    CollectorService.extractStringField (pathObject timestamp path) (lit "item_name") =
      itemNameFromPath path := by
  have hword : SearchWord (lit "item_name") := ⟨by decide, by decide, by decide⟩
  have hbefore : Quoted.Skips (byte '"') (lit "item_name")
      (lit "\x7b" ++ fieldsBefore timestamp path) := by
    refine (hword.skips_gap (by decide) (by decide)).append
      (hword.skips_fieldsBefore hname (by decide) fun heq => ?_)
    have hhead : some (byte '/') = some (byte 'i') := congrArg List.head? heq
    exact absurd hhead (by decide)
  have hobject : pathObject timestamp path = lit "\x7b" ++ fieldsBefore timestamp path ++
      quoted (descriptionForPath path) ++ (lit "," ++ quoted (lit "item_name") ++ byte ':' ::
        ([] ++ byte '"' :: (quotedBody (itemNameFromPath path) ++ byte '"' :: lit "\x7d"))) := by
    rw [pathObject, fieldsText_eq, hname.quotedBody, quoted_eq (itemNameFromPath path)]
    have hcolon : lit ":" = [byte ':'] := rfl
    simp only [hcolon, List.append_assoc, List.cons_append, List.nil_append]
    rfl
  cases hsame : decide (descriptionForPath path = lit "item_name") with
  | true =>
    -- the search stops at the description; the next colon is the field's all the same
    have hstop := hword.afterFirst hbefore (lit "," ++ quoted (lit "item_name") ++ byte ':' ::
      ([] ++ byte '"' :: (quotedBody (itemNameFromPath path) ++ byte '"' :: lit "\x7d")))
    rw [of_decide_eq_true hsame] at hobject
    rw [← hobject] at hstop
    exact extractStringField_of_afterFirst _ [] _ (by decide) (by decide) hstop
  | false =>
    have hdescription := hword.skips_quoted (clean_descriptionForPath hname)
      (of_decide_eq_false hsame)
    have hcomma : Quoted.Skips (byte '"') (lit "item_name") (lit ",") :=
      hword.skips_gap (by decide) (by decide)
    have hstop := hword.afterFirst ((hbefore.append hdescription).append hcomma) (byte ':' ::
      ([] ++ byte '"' :: (quotedBody (itemNameFromPath path) ++ byte '"' :: lit "\x7d")))
    have hobject' := hobject
    simp only [← List.append_assoc] at hobject' hstop
    rw [← hobject'] at hstop
    exact extractStringField_of_afterFirst [] [] _ (by decide) (by decide) (by simpa using hstop)

/-! ### The member of a path -/

variable {component item : Str}

theorem IsNamePath.searchWord (h : IsNamePath path component item) : SearchWord path where
  clean := h.clean
  nonempty := by
    obtain ⟨-, -, rfl⟩ := h
    exact List.cons_ne_nil _ _
  head := by
    obtain ⟨-, -, rfl⟩ := h
    intro ch hch
    have hne : byte '/' ≠ ch := by
      rintro rfl
      exact absurd hch (by decide)
    exact fun heq => hne (Option.some.inj heq)

theorem IsNamePath.clean_item (h : IsNamePath path component item) :
    Clean (MockDriverServer.itemNameFromPath path) := by
  rw [h.itemNameFromPath]
  exact h.2.1.clean'

theorem IsNamePath.slash_mem (h : IsNamePath path component item) : byte '/' ∈ path := by
  obtain ⟨-, -, rfl⟩ := h
  exact List.mem_append_left _ (List.mem_append_left _ (List.mem_append_left _ (by decide)))

theorem IsNamePath.slash_notMem_item (h : IsNamePath path component item) :
    byte '/' ∉ MockDriverServer.itemNameFromPath path := by
  rw [h.itemNameFromPath]
  exact fun hmem => (h.2.1.clean _ hmem).2.2.2.1 rfl

theorem IsNamePath.slash_notMem_description (h : IsNamePath path component item) :
    byte '/' ∉ descriptionForPath path := by
  unfold descriptionForPath
  split
  · decide
  split
  · decide
  · exact h.slash_notMem_item

/-- A path has two slashes, and the driver's own item path has more. -/
theorem IsNamePath.ne_itemPath (h : IsNamePath path component item) (name : Str) :
    lit "/DV:mock/CP:mock/DT:" ++ name ≠ path := by
  obtain ⟨hcomponent, hitem, rfl⟩ := h
  have hcount {s : Str} (hs : PathPart s) : s.count (byte '/') = 0 :=
    List.count_eq_zero.mpr fun hmem => (hs.clean _ hmem).2.2.2.1 rfl
  intro heq
  have hslashes := congrArg (List.count (byte '/')) heq
  have hlit : (lit "/DV:mock/CP:mock/DT:").count (byte '/') = 3 := by decide
  have hslash : (lit "/").count (byte '/') = 1 := by decide
  simp only [namePathOf, List.count_append, hcount hcomponent, hcount hitem, hlit, hslash]
    at hslashes
  omega

/-- The members of other paths do not hold a path. -/
theorem IsNamePath.skips_pathMember {path' component' item' : Str}
    (h : IsNamePath path component item) (h' : IsNamePath path' component' item')
    (hne : path' ≠ path) : Quoted.Skips (byte '"') path (pathMember timestamp path') := by
  have hword := h.searchWord
  have hkey : ∀ key ∈ [lit "value", lit "dev_time", lit "svr_time", lit "item_path",
      lit "item_description"], key ≠ path := by
    have hno : ∀ key ∈ [lit "value", lit "dev_time", lit "svr_time", lit "item_path",
        lit "item_description"], byte '/' ∉ key := by decide
    rintro key hmem rfl
    exact hno key hmem h.slash_mem
  have hslash {s : Str} (hs : byte '/' ∉ s) : s ≠ path := fun heq => hs (heq ▸ h.slash_mem)
  have hgap {gap : Str} (hquote : byte '"' ∉ gap)
      (hhead : ∀ ch ∈ gap.head?, ch ∈ lit "\x7b:,\x7d") : Quoted.Skips (byte '"') path gap :=
    hword.skips_gap hquote hhead
  have hobject : Quoted.Skips (byte '"') path (pathObject timestamp path') := by
    rw [pathObject_eq]
    exact (((((((hgap (by decide) (by decide)).append
      (hword.skips_fieldsBefore h'.clean_item hkey (h.ne_itemPath _))).append
      (hword.skips_quoted (clean_descriptionForPath h'.clean_item)
        (hslash h'.slash_notMem_description))).append (hgap (by decide) (by decide))).append
      (hword.skips_quoted (by decide) (hslash (by decide)))).append
      (hgap (by decide) (by decide))).append
      (hword.skips_quoted h'.clean_item (hslash h'.slash_notMem_item))).append
      (hgap (by decide) (by decide))
  rw [pathMember_eq h'.clean h'.clean_item]
  exact ((hword.skips_quoted h'.clean hne).append (hgap (by decide) (by decide))).append hobject

/-- Behind texts that do not hold it, the search for a path ends at its own member. -/
theorem afterFirst_pathMembers {paths : List Str}
    (hpaths : ∀ path ∈ paths, ∃ component item, IsNamePath path component item)
    (hdistinct : paths.Nodup) (hpath : IsNamePath path component item) (hmem : path ∈ paths)
    (tail : Str) : ∀ {text : Str}, Quoted.Skips (byte '"') path text →
      ∃ rest, Search.afterFirst (quoted path) (text ++ pathMembers timestamp paths ++ tail) =
        some (lit ":" ++ pathObject timestamp path ++ rest) := by
  induction paths with
  | nil => cases hmem
  | cons first paths ih =>
    intro text htext
    obtain ⟨⟨component', item', hfirst⟩, hrest⟩ := List.forall_mem_cons.mp hpaths
    obtain ⟨hfresh, hdistinct⟩ := List.nodup_cons.mp hdistinct
    have hword := hpath.searchWord
    obtain ⟨sep, hsep, hmembers⟩ : ∃ sep, Quoted.Skips (byte '"') path sep ∧
        pathMembers timestamp (first :: paths) =
          pathMember timestamp first ++ sep ++ pathMembers timestamp paths := by
      cases paths with
      | nil => exact ⟨[], .nil, by simp [pathMembers]⟩
      | cons next paths =>
        exact ⟨lit ",", hword.skips_gap (by decide) (by decide), rfl⟩
    rw [hmembers]
    rcases List.mem_cons.mp hmem with rfl | hmem
    · refine ⟨sep ++ pathMembers timestamp paths ++ tail, ?_⟩
      have hstop := hword.afterFirst htext
        (lit ":" ++ pathObject timestamp path ++ (sep ++ pathMembers timestamp paths ++ tail))
      rw [pathMember_eq hpath.clean hpath.clean_item]
      simpa only [List.append_assoc] using hstop
    · have hne : first ≠ path := fun heq => hfresh (heq ▸ hmem)
      obtain ⟨rest, hstop⟩ := ih hrest hdistinct hmem
        ((htext.append (hpath.skips_pathMember hfirst hne)).append hsep)
      exact ⟨rest, by simpa only [List.append_assoc] using hstop⟩

/-- The response up to the members of the paths. -/
theorem handleQuery_eq {message cid : Str} (hcid : NoControl cid)
    (hread : (if MockDriverServer.extractStringField message (lit "cid") = [] then lit "mock-cid"
      else MockDriverServer.extractStringField message (lit "cid")) = cid) :
    handleQuery message timestamp = lit "\x7b" ++ quoted (lit "cid") ++ lit ":" ++
      byte '"' :: (quotedBody cid ++ [byte '"']) ++ lit "," ++ quoted (lit "machineConnected") ++
      lit ":true," ++ quoted (lit "data") ++ lit ":\x7b" ++
      pathMembers timestamp (extractQueryPaths message) ++ lit "\x7d\x7d" := by
  have hopen : lit "\x7b\"cid\":\"" = lit "\x7b" ++ quoted (lit "cid") ++ lit ":" ++ [byte '"'] := by
    decide
  have hdata : lit "\",\"machineConnected\":true,\"data\":\x7b" = byte '"' :: (lit "," ++
      quoted (lit "machineConnected") ++ lit ":true," ++ quoted (lit "data") ++ lit ":\x7b") := by
    decide
  rw [handleQuery]
  simp only [hread]
  rw [escapeJson_eq_body hcid, hopen, hdata]
  simp only [List.append_assoc, List.cons_append, List.nil_append]

/-- The search for a path passes over the start of the response, unless the cid ends with it. -/
theorem IsNamePath.skips_start (h : IsNamePath path component item) {cid : Str}
    (hsuffix : ¬ path <:+ cid) : Quoted.Skips (byte '"') path (lit "\x7b" ++ quoted (lit "cid") ++
      lit ":" ++ byte '"' :: (quotedBody cid ++ [byte '"']) ++ lit "," ++
      quoted (lit "machineConnected") ++ lit ":true," ++ quoted (lit "data") ++ lit ":\x7b") := by
  have hword := h.searchWord
  have hslash {s : Str} (hs : byte '/' ∉ s) : s ≠ path := fun heq => hs (heq ▸ h.slash_mem)
  have hgap {gap : Str} (hquote : byte '"' ∉ gap)
      (hhead : ∀ ch ∈ gap.head?, ch ∈ lit "\x7b:,\x7d") : Quoted.Skips (byte '"') path gap :=
    hword.skips_gap hquote hhead
  have hcid : Quoted.Skips (byte '"') path (byte '"' :: (quotedBody cid ++ [byte '"'])) := by
    refine .quoted (by decide) hword.clean.quote_notMem hword.clean.backslash_notMem
      hword.nonempty ?_
    rw [Quoted.quote_suffix_cons]
    rintro (⟨-, heq⟩ | hends)
    · exact hsuffix (heq ▸ List.suffix_refl _)
    · exact hsuffix ((List.suffix_cons _ _).trans hends)
  exact ((((((((hgap (by decide) (by decide)).append
    (hword.skips_quoted (by decide) (hslash (by decide)))).append
    (hgap (by decide) (by decide))).append hcid).append (hgap (by decide) (by decide))).append
    (hword.skips_quoted (by decide) (hslash (by decide)))).append
    (hgap (by decide) (by decide))).append
    (hword.skips_quoted (by decide) (hslash (by decide)))).append (hgap (by decide) (by decide))

end Response

/-! ## 4. The round trip -/

section RoundTrip
variable {cid query : Str} {points : List DataPoint} {point : DataPoint}
  {timestamp fallbackTime : Double}

/-- The parser finds the object of each path in the driver's answer to the query. -/
theorem extractObjectForPath_handleQuery (hpaths : HavePaths points)
    (hdistinct : (points.map (·.namePath)).Nodup) (hcid : NoControl cid)
    (hsuffix : ∀ point ∈ points, ¬ point.namePath <:+ cid) (hquery : buildQuery cid points = .ok query)
    (hpoint : point ∈ points) :
    extractObjectForPath (handleQuery query timestamp) point.namePath =
      pathObject timestamp point.namePath := by
  obtain ⟨component, item, hpath⟩ := hpaths point hpoint
  -- the driver puts a cid of its own in the place of an empty one, and it ends with no path either
  obtain ⟨cid', hread, hcid', hsuffix'⟩ : ∃ cid', (if cid = [] then lit "mock-cid" else cid) = cid' ∧
      NoControl cid' ∧ ¬ point.namePath <:+ cid' := by
    refine ⟨_, rfl, ?_⟩
    split
    · refine ⟨⟨by decide, by decide, by decide⟩, fun hends => ?_⟩
      have hno : byte '/' ∉ lit "mock-cid" := by decide
      exact hno (hends.subset hpath.slash_mem)
    · exact ⟨hcid, hsuffix point hpoint⟩
  rw [← extractStringField_buildQuery hcid hquery] at hread
  have hall : ∀ path ∈ points.map (·.namePath), ∃ component item,
      IsNamePath path component item := by
    intro path hmem
    obtain ⟨p, hp, rfl⟩ := List.mem_map.mp hmem
    exact hpaths p hp
  obtain ⟨rest, hstop⟩ := @afterFirst_pathMembers timestamp _ _ _ _ hall hdistinct hpath
    (List.mem_map_of_mem hpoint) (lit "\x7d\x7d") _ (hpath.skips_start hsuffix')
  rw [← extractQueryPaths_buildQuery hcid hpaths hquery, ← handleQuery_eq hcid' hread] at hstop
  have hcolon : byte '\x7b' ∉ lit ":" := by decide
  have hfrom : fromObject (handleQuery query timestamp) point.namePath =
      some (pathObject timestamp point.namePath ++ rest) := by
    rw [fromObject, hstop, Option.bind_some, List.append_assoc]
    exact Search.fromFirst_eq hcolon
  rw [extractObjectForPath, objectSlice, hfrom, Option.bind_some,
    scanObject_pathObject hpath.clean_item]
  rfl

/-- The record is for the device and the data point, with the value that the mock driver has for its
path and, when the path ends with an item, the item's name. -/
structure Answers (device : Device) (point : DataPoint) (record : ResourceRecord) : Prop where
  deviceName : record.deviceName = device.name
  namePath : record.dataItemNamePath = point.namePath
  data : record.data = lit "[" ++ fixed (valueForPath point.namePath) ++ lit "]"
  itemName : ∀ component item, IsNamePath point.namePath component item →
    record.dataItemName = item

/-- The record that the parser reads from the object of a path. -/
theorem answers_recordOf (device : Device) {component item : Str}
    (hpath : IsNamePath point.namePath component item) :
    Answers device point (recordOf device fallbackTime point
      (pathObject timestamp point.namePath)) := by
  have hdata := @extractArrayFieldText_pathObject timestamp point.namePath
  have hname := @extractStringField_pathObject timestamp point.namePath hpath.clean_item
  generalize pathObject timestamp point.namePath = object at hdata hname ⊢
  refine ⟨rfl, rfl, hdata, fun component' item' hpath' => ?_⟩
  rw [hpath'.itemNameFromPath] at hname
  simp only [recordOf, fieldOr, hname, if_neg hpath'.2.1.nonempty]

/-- Every data point gets its record from the driver's answer to the query, in order. -/
theorem processResponse_handleQuery (device : Device) (points : List DataPoint) (cid : Str)
    (timestamp fallbackTime : Double) (hne : points ≠ []) (hpaths : HavePaths points)
    (hdistinct : (points.map (·.namePath)).Nodup) (hcid : ∀ ch ∈ cid, (32 : UInt8) ≤ ch)
    (hsuffix : ∀ point ∈ points, ¬ point.namePath <:+ cid) :
    ∃ query records, buildQuery cid points = .ok query ∧
      processResponse device points (handleQuery query timestamp) fallbackTime = .ok records ∧
      List.Forall₂ (Answers device) points records := by
  have hcontrol : NoControl cid := Clean.noControl hcid
  obtain ⟨query, hquery⟩ : ∃ query, buildQuery cid points = .ok query :=
    ⟨_, buildQuery_eq hcontrol hne⟩
  refine ⟨query, points.map fun point =>
    recordOf device fallbackTime point (pathObject timestamp point.namePath), hquery, ?_, ?_⟩
  · have hrecord : ∀ point ∈ points,
        recordFor device (handleQuery query timestamp) fallbackTime point =
          some (recordOf device fallbackTime point (pathObject timestamp point.namePath)) := by
      intro point hpoint
      rw [recordFor_eq_some,
        extractObjectForPath_handleQuery hpaths hdistinct hcontrol hsuffix hquery hpoint,
        extractArrayFieldText_pathObject]
      exact ⟨List.cons_ne_nil _ _, rfl⟩
    refine processResponse_ok.mpr ⟨?_, by simpa using hne⟩
    rw [List.filterMap_congr hrecord]
    exact congrFun List.filterMap_eq_map' points
  · refine List.forall₂_map_right_iff.mpr (List.forall₂_same.mpr fun point hpoint => ?_)
    obtain ⟨component, item, hpath⟩ := hpaths point hpoint
    exact answers_recordOf device hpath

/-- Two points, of which one has the name of a field. -/
def twoPoints : List DataPoint :=
  [{ namePath := lit "/C/pressure" }, { namePath := lit "/C/item_name" }]

theorem havePaths_twoPoints : HavePaths twoPoints := by
  intro point hpoint
  have hcomponent : PathPart (lit "C") := ⟨by decide, by decide, by decide⟩
  rcases List.mem_cons.mp hpoint with rfl | hpoint
  · exact ⟨lit "C", lit "pressure", hcomponent, ⟨by decide, by decide, by decide⟩, by decide⟩
  · cases List.mem_singleton.mp hpoint
    exact ⟨lit "C", lit "item_name", hcomponent, ⟨by decide, by decide, by decide⟩, by decide⟩

theorem processResponse_handleQuery_twoPoints : ∃ query records,
    buildQuery (lit "A-\"1") twoPoints = .ok query ∧
      processResponse {} twoPoints (handleQuery query (.ofRat 1)) (.ofRat 2) = .ok records ∧
      List.Forall₂ (Answers {}) twoPoints records :=
  processResponse_handleQuery {} twoPoints (lit "A-\"1") (.ofRat 1) (.ofRat 2) (by decide)
    havePaths_twoPoints (by decide) (by decide) (by decide)

end RoundTrip

end CollectorService.QueryRoundTrip

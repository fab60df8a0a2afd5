import CollectorService.ModelFiles

/-!
# The layout of the model files

A model file has a `Device` header and a list of components, and a component has lists of data items
and of device functions. `Model.text` writes a model in the layout of the repository's files, and
the results say what `parseDataItems` makes of it:

* `parseDataItems_text`: the points that the parser returns, for every model;
* `parseDataItems_exact_iff`: they are the model's data items exactly when every component that has
  data items is read under its own name and no device function follows a list of data items.
-/

namespace CollectorService.ModelLayout

open ModelParser

/-! ## 1. Models -/

/-- The name of a component, of a data item or of a device function. -/
structure Name where
  text : Str
  nonempty : text ≠ []
  trimmed : trim text = text
  plain : ∀ ch ∈ text, ch ≠ byte '\n' ∧ ch ≠ byte '\'' ∧ ch ≠ byte '"'

/-- The value of an attribute, written as it is or between single quotes. -/
inductive Scalar where
  | plain (text : Str) (nonempty : text ≠ []) (trimmed : trim text = text)
      (oneLine : byte '\n' ∉ text) (unquoted : text.head? ≠ some (byte '\''))
  | quoted (text : Str) (oneLine : byte '\n' ∉ text) (unquoted : byte '\'' ∉ text)

namespace Scalar

def value : Scalar → Str
  | .plain text .. => text
  | .quoted text .. => text

def text : Scalar → Str
  | .plain text .. => text
  | .quoted text .. => byte '\'' :: (text ++ [byte '\''])

end Scalar

/-- The keys of the model files. -/
inductive Key where
  | infoVer | name | description | stdName | stdClass | commCapable | safeInterval
  | warranty | userManual | hotline | mailbox
  | type | readOnly | dimension | unit
  | arguments | arguDesc | returns | rtnDesc
  deriving DecidableEq

def Key.text : Key → Str
  | infoVer => lit "InfoVer"
  | name => lit "Name"
  | description => lit "Description"
  | stdName => lit "StdName"
  | stdClass => lit "StdClass"
  | commCapable => lit "CommCapable"
  | safeInterval => lit "SafeInterval"
  | warranty => lit "Warranty"
  | userManual => lit "UserManual"
  | hotline => lit "Hotline"
  | mailbox => lit "Mailbox"
  | type => lit "Type"
  | readOnly => lit "ReadOnly"
  | dimension => lit "Dimension"
  | unit => lit "Unit"
  | arguments => lit "Arguments"
  | arguDesc => lit "ArguDesc"
  | returns => lit "Returns"
  | rtnDesc => lit "RtnDesc"

structure Attribute where
  key : Key
  value : Scalar

def Attribute.text (a : Attribute) : Str := a.key.text ++ (lit ": " ++ a.value.text)

/-- A data item or a device function, with each attribute at most once. -/
structure Entry where
  name : Name
  attributes : List Attribute
  distinct : (attributes.map (·.key)).Nodup

/-- The entry's own description. -/
def Entry.description (e : Entry) : Str :=
  ((e.attributes.find? (·.key = .description)).map (·.value.value)).getD []

inductive Kind where
  | dataItem
  | devFunc
  deriving DecidableEq

def Kind.text : Kind → Str
  | dataItem => lit "DataItem:"
  | devFunc => lit "DevFunc:"

/-- A list of data items or of device functions. -/
structure Section where
  kind : Kind
  entries : List Entry

structure Component where
  name : Name
  description : Scalar
  attributes : List Attribute
  sections : List Section

structure Model where
  header : List Attribute
  properties : List Attribute
  components : List Component

/-! ## 2. The text of a model -/

def line (indent : ℕ) (content : Str) : Str := List.replicate indent (byte ' ') ++ content

def nameText (name : Name) : Str := lit "- Name: " ++ name.text

def Entry.lines (e : Entry) : List Str :=
  line 8 (nameText e.name) :: e.attributes.map fun a => line 10 a.text

def Section.lines (s : Section) : List Str :=
  line 6 s.kind.text :: s.entries.flatMap Entry.lines

def Component.lines (c : Component) : List Str :=
  line 4 (nameText c.name) ::
    (({ key := .description, value := c.description } :: c.attributes).map fun a => line 6 a.text) ++
      c.sections.flatMap Section.lines

def Model.lines (m : Model) : List Str :=
  lit "Device:" :: (m.header.map fun a => line 2 a.text) ++
    line 2 (lit "Properties:") :: (m.properties.map fun a => line 4 a.text) ++
      line 2 (lit "Component:") :: m.components.flatMap Component.lines

/-- The file: every line ends with a newline. -/
def Model.text (m : Model) : Str := m.lines.flatMap (· ++ [byte '\n'])

/-! ## 3. The points of a model -/

/-- The data point of an entry of a component. -/
def pointOf (device : Device) (component : Str) (e : Entry) : DataPoint where
  deviceId := device.id
  deviceName := device.name
  namePath := namePathOf component e.name.text
  itemPath := itemPathOf device.name component e.name.text
  itemName := e.name.text
  itemDescription := e.description

def Component.dataItems (c : Component) : List Entry :=
  (c.sections.filter (·.kind = .dataItem)).flatMap (·.entries)

/-- One point for each data item, in file order. -/
def Component.dataPoints (device : Device) (c : Component) : List DataPoint :=
  c.dataItems.map (pointOf device c.name.text)

def Model.dataPoints (device : Device) (m : Model) : List DataPoint :=
  m.components.flatMap (·.dataPoints device)

/-- The device functions that stand before the first list of data items. -/
def Component.leadingFunctions (c : Component) : List Entry :=
  (c.sections.takeWhile (·.kind = .devFunc)).flatMap (·.entries)

/-- The lists from the first list of data items on. -/
def Component.tail (c : Component) : List Section := c.sections.dropWhile (·.kind = .devFunc)

/-- The device functions that follow a list of data items. -/
def Component.trailingFunctions (c : Component) : List Entry :=
  (c.tail.filter (·.kind = .devFunc)).flatMap (·.entries)

/-- The last name at indent 4 or 8 that the parser took for a component's. -/
def Component.nameRead (c : Component) : Str :=
  (c.leadingFunctions.getLast?.map (·.name.text)).getD c.name.text

/-- The points that the parser returns for a component. -/
def Component.pointsRead (device : Device) (c : Component) : List DataPoint :=
  (c.tail.flatMap (·.entries)).map (pointOf device c.nameRead)

/-- No device function follows a list of data items, and if the component has data items then the
last device function before them, if there is one, has the component's name. -/
structure Component.ReadExactly (c : Component) : Prop where
  trailing : c.trailingFunctions = []
  named : c.dataItems ≠ [] → ∀ f ∈ c.leadingFunctions.getLast?, f.name.text = c.name.text

/-! ## 4. Trimmed text -/

theorem trim_cons_blank {ch : UInt8} (h : isBlank ch = true) (s : Str) : trim (ch :: s) = trim s := by
  simp [trim, List.dropWhile_cons_of_pos h]

theorem trim_line (indent : ℕ) (content : Str) : trim (line indent content) = trim content := by
  induction indent with
  | zero => rfl
  | succ n ih => exact (trim_cons_blank (by decide) _).trans ih

/-- A text with a visible first character and a trimmed end is trimmed. -/
theorem trim_append {ch : UInt8} {u v : Str} (hch : isBlank ch = false) (hv : v ≠ [])
    (htrim : trim v = v) : trim (ch :: (u ++ v)) = ch :: (u ++ v) := by
  have hend : v.rdropWhile isBlank = v := by
    rw [← htrim, trim]
    exact List.rdropWhile_idempotent _ _
  rw [trim, List.dropWhile_cons_of_neg (by simp [hch]), List.rdropWhile_eq_self_iff]
  intro hne
  rw [List.getLast_cons (by simp [hv]), List.getLast_append_of_ne_nil _ hv]
  exact List.rdropWhile_eq_self_iff.mp hend hv

theorem indentOf_line {ch : UInt8} (hch : ch ≠ byte ' ') (indent : ℕ) (content : Str) :
    indentOf (line indent (ch :: content)) = indent := by
  unfold indentOf line
  induction indent with
  | zero => simp [hch]
  | succ n ih => simpa [List.replicate_succ] using ih

theorem valueAfterColon_append {key : Str} (hkey : byte ':' ∉ key) (rest : Str) :
    valueAfterColon (key ++ byte ':' :: rest) =
      if 2 ≤ (trim rest).length ∧ (trim rest).head? = some (byte '\'') ∧
          (trim rest).getLast? = some (byte '\'') then (trim rest).tail.dropLast
      else trim rest := by
  have hfirst : Search.fromFirst (· = byte ':') (key ++ byte ':' :: rest) =
      some (byte ':' :: rest) := by
    rw [Search.fromFirst_append]
    · simp [Search.fromFirst]
    · intro ch hch
      simp only [decide_eq_false_iff_not]
      rintro rfl
      exact hkey hch
  simp only [valueAfterColon, hfirst, List.tail_cons]
  rfl

namespace Scalar

theorem text_ne_nil (v : Scalar) : v.text ≠ [] := by
  cases v with
  | plain text nonempty => exact nonempty
  | quoted text => simp [Scalar.text]

theorem trim_text (v : Scalar) : trim v.text = v.text := by
  cases v with
  | plain text nonempty trimmed => exact trimmed
  | quoted text => exact trim_append (by decide) (by simp) (by decide)

theorem valueAfterColon_text (v : Scalar) {key : Str} (hkey : byte ':' ∉ key) :
    valueAfterColon (key ++ (lit ": " ++ v.text)) = v.value := by
  have htrim : trim (byte ' ' :: v.text) = v.text := by
    rw [trim_cons_blank (by decide), v.trim_text]
  have hcolon : lit ": " ++ v.text = byte ':' :: byte ' ' :: v.text := rfl
  rw [hcolon, valueAfterColon_append hkey, htrim]
  cases v with
  | plain text nonempty trimmed oneLine unquoted =>
    exact if_neg fun h => unquoted h.2.1
  | quoted text oneLine unquoted =>
    have hlast : (byte '\'' :: (text ++ [byte '\''])).getLast? = some (byte '\'') :=
      List.getLast?_concat (l := byte '\'' :: text)
    simp [Scalar.text, Scalar.value, hlast]

end Scalar

theorem Name.valueAfterColon_text (name : Name) : valueAfterColon (nameText name) = name.text := by
  have htrim : trim (byte ' ' :: name.text) = name.text := by
    rw [trim_cons_blank (by decide), name.trimmed]
  have hcolon : nameText name = lit "- Name" ++ byte ':' :: byte ' ' :: name.text := rfl
  rw [hcolon, valueAfterColon_append (by decide), htrim, if_neg]
  intro h
  exact (name.plain _ (List.mem_of_mem_head? h.2.1)).2.1 rfl

/-! ## 5. The lines that the parser reads -/

theorem Attribute.trim_text (a : Attribute) : trim a.text = a.text := by
  obtain ⟨ch, u, hkey, hch⟩ : ∃ ch u, a.key.text = ch :: u ∧ isBlank ch = false := by
    cases a.key <;> exact ⟨_, _, rfl, rfl⟩
  have htext : a.text = ch :: ((u ++ lit ": ") ++ a.value.text) := by
    rw [Attribute.text, hkey, List.append_assoc]
    rfl
  rw [htext]
  exact trim_append hch a.value.text_ne_nil a.value.trim_text

theorem Attribute.valueAfterColon_text (a : Attribute) : valueAfterColon a.text = a.value.value := by
  refine a.value.valueAfterColon_text ?_
  cases a.key <;> decide

theorem trim_nameText (name : Name) : trim (nameText name) = nameText name :=
  trim_append (by decide) name.nonempty name.trimmed

variable (device : Device)

/-- An attribute is read for the description of the pending point only. -/
theorem parseLine_attribute (indent : ℕ) (a : Attribute) (s : ParseState) :
    parseLine device s (line indent a.text) =
      if s.hasCurrentPoint = true ∧ a.key = .description then
        { s with currentPoint := { s.currentPoint with itemDescription := a.value.value } }
      else s := by
  have hne : a.text ≠ [] := by cases a with | mk key value => cases key <;> exact List.cons_ne_nil _ _
  have hitem : startsWith a.text (lit "DataItem:") = false := by
    cases a with | mk key value => cases key <;> rfl
  have hname : startsWith a.text (lit "- Name:") = false := by
    cases a with | mk key value => cases key <;> rfl
  have hpath : (startsWith a.text (lit "NamePath:") || startsWith a.text (lit "namePath:") ||
      startsWith a.text (lit "Path:") || startsWith a.text (lit "path:")) = false := by
    cases a with | mk key value => cases key <;> rfl
  have hdescription : startsWith a.text (lit "Description:") = decide (a.key = .description) := by
    cases a with | mk key value => cases key <;> rfl
  have hitem' : a.text ≠ lit "DataItem:" := by
    intro h
    rw [h] at hitem
    exact absurd hitem (by decide)
  simp only [parseLine, trim_line, a.trim_text, hne, hitem', hname, hpath, hdescription,
    a.valueAfterColon_text, if_false, Bool.false_eq_true, decide_eq_true_eq]
  cases s.hasCurrentPoint <;> simp

theorem parseLine_dataItem (s : ParseState) :
    parseLine device s (line 6 Kind.dataItem.text) = { s with inDataItem := true } := rfl

theorem parseLine_devFunc (s : ParseState) : parseLine device s (line 6 Kind.devFunc.text) = s := by
  cases s with
  | mk points currentComponent currentPoint inDataItem hasCurrentPoint =>
    cases hasCurrentPoint <;> rfl

/-- A name line adds a pending point or names the component that follows. -/
theorem parseLine_name (indent : ℕ) (name : Name) (s : ParseState) :
    parseLine device s (line indent (nameText name)) =
      if s.inDataItem = true ∧ 8 ≤ indent then
        { flushPoint device s with
          currentPoint := {
            itemName := name.text
            namePath := namePathOf s.currentComponent name.text
            itemPath := itemPathOf device.name s.currentComponent name.text }
          hasCurrentPoint := true }
      else { flushPoint device s with currentComponent := name.text, inDataItem := false } := by
  have hitem : nameText name ≠ lit "DataItem:" := by
    intro h
    have hhead : some (byte '-') = some (byte 'D') := congrArg List.head? h
    exact absurd hhead (by decide)
  have hname : startsWith (nameText name) (lit "- Name:") = true := rfl
  have hindent : indentOf (line indent (nameText name)) = indent :=
    indentOf_line (by decide) indent _
  have hne : nameText name ≠ [] := List.cons_ne_nil _ _
  simp only [parseLine, trim_line, trim_nameText, hne, hitem, hname, hindent,
    name.valueAfterColon_text, if_false, if_true]

/-! ## 6. What the parser reads -/

/-- A pending point has a name, so the next name line flushes it. -/
def Settled (s : ParseState) : Prop := s.hasCurrentPoint = true → s.currentPoint.itemName ≠ []

/-- The points that are there once the pending one is flushed. -/
def collected (s : ParseState) : List DataPoint := (flushPoint device s).points

theorem flushPoint_hasCurrentPoint {s : ParseState} (hs : Settled s) :
    (flushPoint device s).hasCurrentPoint = false := by
  cases hpending : s.hasCurrentPoint with
  | false => simp [flushPoint, hpending]
  | true => simp [flushPoint, hpending, hs hpending]

theorem flushPoint_of_not_pending {s : ParseState} (hs : s.hasCurrentPoint = false) :
    flushPoint device s = s := by
  simp [flushPoint, hs]

@[simp] theorem flushPoint_currentComponent (s : ParseState) :
    (flushPoint device s).currentComponent = s.currentComponent := by
  unfold flushPoint
  split <;> rfl

@[simp] theorem flushPoint_inDataItem (s : ParseState) :
    (flushPoint device s).inDataItem = s.inDataItem := by
  unfold flushPoint
  split <;> rfl

/-- The state with the point of a data item pending. -/
def pendingItem (s : ParseState) (name description : Str) : ParseState :=
  { flushPoint device s with
    currentPoint := {
      itemName := name
      namePath := namePathOf s.currentComponent name
      itemPath := itemPathOf device.name s.currentComponent name
      itemDescription := description }
    hasCurrentPoint := true }

theorem collected_pendingItem (s : ParseState) (e : Entry) :
    collected device (pendingItem device s e.name.text e.description) =
      collected device s ++ [pointOf device s.currentComponent e] := by
  have hpath : namePathOf s.currentComponent e.name.text ≠ [] := List.cons_ne_nil _ _
  have hitem : itemPathOf device.name s.currentComponent e.name.text ≠ [] := List.cons_ne_nil _ _
  rw [collected, flushPoint]
  simp [pendingItem, collected, pointOf, e.name.nonempty, hpath, hitem]

/-- Attributes leave everything but a pending point's description unchanged. -/
theorem foldl_attributes_of_not_pending (indent : ℕ) {s : ParseState}
    (hs : s.hasCurrentPoint = false) (attributes : List Attribute) :
    (attributes.map fun a => line indent a.text).foldl (parseLine device) s = s := by
  induction attributes with
  | nil => rfl
  | cons a attributes ih =>
    rw [List.map_cons, List.foldl_cons, parseLine_attribute, if_neg (by simp [hs]), ih]

theorem foldl_attributes_of_key_ne (indent : ℕ) (s : ParseState) {attributes : List Attribute}
    (hkeys : ∀ a ∈ attributes, a.key ≠ .description) :
    (attributes.map fun a => line indent a.text).foldl (parseLine device) s = s := by
  induction attributes with
  | nil => rfl
  | cons a attributes ih =>
    rw [List.map_cons, List.foldl_cons, parseLine_attribute,
      if_neg fun h => hkeys a List.mem_cons_self h.2]
    exact ih fun b hb => hkeys b (List.mem_cons_of_mem a hb)

/-- The pending point takes the one description among the attributes. -/
theorem foldl_attributes_of_pending (indent : ℕ) (s : ParseState) (name : Str)
    {attributes : List Attribute} (distinct : (attributes.map (·.key)).Nodup) :
    (attributes.map fun a => line indent a.text).foldl (parseLine device)
        (pendingItem device s name []) =
      pendingItem device s name
        (((attributes.find? (·.key = .description)).map (·.value.value)).getD []) := by
  induction attributes with
  | nil => rfl
  | cons a attributes ih =>
    obtain ⟨hfresh, hrest⟩ := List.nodup_cons.mp distinct
    rw [List.map_cons, List.foldl_cons, parseLine_attribute]
    cases hkey : decide (a.key = .description) with
    | false =>
      have hne : a.key ≠ .description := of_decide_eq_false hkey
      rw [if_neg fun h => hne h.2, ih hrest, List.find?_cons_of_neg (by simp [hne])]
    | true =>
      have heq : a.key = .description := of_decide_eq_true hkey
      -- The key occurs once, so that no later attribute replaces this description.
      have hothers : ∀ b ∈ attributes, b.key ≠ .description := by
        intro b hb hb'
        exact hfresh (List.mem_map.mpr ⟨b, hb, hb'.trans heq.symm⟩)
      rw [if_pos ⟨rfl, heq⟩, foldl_attributes_of_key_ne device indent _ hothers,
        List.find?_cons_of_pos (by simp [heq])]
      rfl

/-- In a list of data items an entry becomes the pending point. -/
theorem foldl_entry_of_inDataItem {s : ParseState} (hs : s.inDataItem = true) (e : Entry) :
    e.lines.foldl (parseLine device) s = pendingItem device s e.name.text e.description := by
  rw [Entry.lines, List.foldl_cons, parseLine_name, if_pos ⟨hs, by decide⟩]
  exact foldl_attributes_of_pending device 10 s e.name.text e.distinct

/-- Outside a list of data items the name of an entry is taken for a component's. -/
theorem foldl_entry_of_not_inDataItem {s : ParseState} (hs : s.inDataItem = false)
    (hpending : s.hasCurrentPoint = false) (e : Entry) :
    e.lines.foldl (parseLine device) s = { s with currentComponent := e.name.text } := by
  rw [Entry.lines, List.foldl_cons, parseLine_name, if_neg (by simp [hs]),
    flushPoint_of_not_pending device hpending]
  rw [foldl_attributes_of_not_pending device 10 (by exact hpending)]
  cases s
  cases hs
  rfl

/-- From state `s` to state `s'` the parser collects `points` of one component. -/
structure Collects (s s' : ParseState) (points : List DataPoint) : Prop where
  settled : Settled s'
  inDataItem : s'.inDataItem = true
  component : s'.currentComponent = s.currentComponent
  points : collected device s' = collected device s ++ points

theorem Collects.nil {s : ParseState} (hs : Settled s) (hitems : s.inDataItem = true) :
    Collects device s s [] :=
  ⟨hs, hitems, rfl, by simp⟩

theorem Collects.append {s s₁ s₂ : ParseState} {points points' : List DataPoint}
    (h₁ : Collects device s s₁ points) (h₂ : Collects device s₁ s₂ points') :
    Collects device s s₂ (points ++ points') where
  settled := h₂.settled
  inDataItem := h₂.inDataItem
  component := h₂.component.trans h₁.component
  points := by rw [h₂.points, h₁.points, List.append_assoc]

theorem collects_entries (entries : List Entry) : ∀ {s : ParseState}, Settled s →
    s.inDataItem = true → Collects device s ((entries.flatMap Entry.lines).foldl (parseLine device) s)
      (entries.map (pointOf device s.currentComponent)) := by
  induction entries with
  | nil => exact fun hs hitems => Collects.nil device hs hitems
  | cons e entries ih =>
    intro s hs hitems
    rw [List.flatMap_cons, List.foldl_append, foldl_entry_of_inDataItem device hitems]
    have hfirst : Collects device s (pendingItem device s e.name.text e.description)
        [pointOf device s.currentComponent e] := by
      refine ⟨fun _ => e.name.nonempty, ?_, ?_, collected_pendingItem device s e⟩
      · simp [pendingItem, hitems]
      · simp [pendingItem]
    have hrest := ih hfirst.settled hfirst.inDataItem
    rw [hfirst.component] at hrest
    exact hfirst.append device hrest

/-- From the first list of data items on, every entry of either kind becomes a point. -/
theorem collects_sections (sections : List Section) : ∀ {s : ParseState}, Settled s →
    s.inDataItem = true →
    Collects device s ((sections.flatMap Section.lines).foldl (parseLine device) s)
      ((sections.flatMap (·.entries)).map (pointOf device s.currentComponent)) := by
  induction sections with
  | nil => exact fun hs hitems => Collects.nil device hs hitems
  | cons list sections ih =>
    intro s hs hitems
    have hheader : parseLine device s (line 6 list.kind.text) = s := by
      cases list.kind with
      | dataItem =>
        rw [parseLine_dataItem]
        cases s
        cases hitems
        rfl
      | devFunc => exact parseLine_devFunc device s
    rw [List.flatMap_cons, List.foldl_append, Section.lines, List.foldl_cons, hheader]
    have hfirst := collects_entries device list.entries hs hitems
    have hrest := ih hfirst.settled hfirst.inDataItem
    rw [hfirst.component] at hrest
    rw [List.flatMap_cons, List.map_append]
    exact hfirst.append device hrest

/-- Before the first list of data items the entries only rename the component. -/
theorem foldl_leading (entries : List Entry) : ∀ {s : ParseState}, s.inDataItem = false →
    s.hasCurrentPoint = false →
    (entries.flatMap Entry.lines).foldl (parseLine device) s =
      { s with currentComponent := (entries.getLast?.map (·.name.text)).getD s.currentComponent } := by
  induction entries with
  | nil => exact fun _ _ => rfl
  | cons e entries ih =>
    intro s hs hpending
    rw [List.flatMap_cons, List.foldl_append, foldl_entry_of_not_inDataItem device hs hpending]
    rw [ih (by exact hs) (by exact hpending), List.getLast?_cons]
    cases entries.getLast? <;> rfl

/-- The lists of a component, read from the state that its name line leaves. -/
theorem foldl_sections (sections : List Section) : ∀ {s : ParseState}, s.inDataItem = false →
    s.hasCurrentPoint = false →
    ∃ s', (sections.flatMap Section.lines).foldl (parseLine device) s = s' ∧ Settled s' ∧
      collected device s' = collected device s ++
        ((sections.dropWhile (·.kind = .devFunc)).flatMap (·.entries)).map (pointOf device
          ((((sections.takeWhile (·.kind = .devFunc)).flatMap (·.entries)).getLast?.map
            (·.name.text)).getD s.currentComponent)) := by
  induction sections with
  | nil =>
    intro s _ hpending
    refine ⟨s, rfl, fun h => absurd h (by simp [hpending]), by simp⟩
  | cons list sections ih =>
    intro s hs hpending
    cases hkind : list.kind with
    | devFunc =>
      rw [List.flatMap_cons, List.foldl_append, Section.lines, List.foldl_cons, hkind,
        parseLine_devFunc, foldl_leading device _ hs hpending,
        List.dropWhile_cons_of_pos (by simp [hkind]), List.takeWhile_cons_of_pos (by simp [hkind])]
      obtain ⟨s', hrun, hsettled, hpoints⟩ := ih (s := { s with
        currentComponent := (list.entries.getLast?.map (·.name.text)).getD s.currentComponent })
        hs hpending
      refine ⟨s', hrun, hsettled, hpoints.trans ?_⟩
      rw [List.flatMap_cons, List.getLast?_append]
      have hsame : collected device { s with
          currentComponent := (list.entries.getLast?.map (·.name.text)).getD s.currentComponent } =
            collected device s := by
        simp [collected, flushPoint, hpending]
      rw [hsame]
      cases ((sections.takeWhile (·.kind = .devFunc)).flatMap (·.entries)).getLast? <;> rfl
    | dataItem =>
      have hopen : ((list :: sections).flatMap Section.lines).foldl (parseLine device) s =
          ((list :: sections).flatMap Section.lines).foldl (parseLine device)
            { s with inDataItem := true } := by
        rw [List.flatMap_cons, List.foldl_append, List.foldl_append, Section.lines, hkind]
        rfl
      have hcollects := collects_sections device (list :: sections)
        (s := { s with inDataItem := true }) (fun h => absurd h (by simp [hpending])) rfl
      rw [hopen, List.dropWhile_cons_of_neg (by simp [hkind]),
        List.takeWhile_cons_of_neg (by simp [hkind])]
      refine ⟨_, rfl, hcollects.settled, hcollects.points.trans ?_⟩
      have hsame : collected device { s with inDataItem := true } = collected device s := by
        simp [collected, flushPoint, hpending]
      rw [hsame]
      rfl

/-- What the parser reads of one component, whatever it read before. -/
theorem foldl_component {s : ParseState} (hs : Settled s) (c : Component) :
    ∃ s', c.lines.foldl (parseLine device) s = s' ∧ Settled s' ∧
      collected device s' = collected device s ++ c.pointsRead device := by
  have hpending := flushPoint_hasCurrentPoint device hs
  rw [Component.lines, List.cons_append, List.foldl_cons, parseLine_name,
    if_neg (by simp), List.foldl_append, foldl_attributes_of_not_pending device 6 (by exact hpending)]
  obtain ⟨s', hrun, hsettled, hpoints⟩ := foldl_sections device c.sections
    (s := { flushPoint device s with currentComponent := c.name.text, inDataItem := false })
    rfl hpending
  refine ⟨s', hrun, hsettled, hpoints.trans ?_⟩
  have hsame : collected device { flushPoint device s with
      currentComponent := c.name.text, inDataItem := false } = collected device s := by
    simp [collected, flushPoint_of_not_pending, hpending]
  rw [hsame]
  rfl

theorem foldl_components (components : List Component) : ∀ {s : ParseState}, Settled s →
    ∃ s', (components.flatMap Component.lines).foldl (parseLine device) s = s' ∧ Settled s' ∧
      collected device s' = collected device s ++ components.flatMap (·.pointsRead device) := by
  induction components with
  | nil => exact fun {s} hs => ⟨s, rfl, hs, by simp⟩
  | cons c components ih =>
    intro s hs
    obtain ⟨s₁, hrun₁, hsettled₁, hpoints₁⟩ := foldl_component device hs c
    obtain ⟨s₂, hrun₂, hsettled₂, hpoints₂⟩ := ih hsettled₁
    refine ⟨s₂, ?_, hsettled₂, ?_⟩
    · rw [List.flatMap_cons, List.foldl_append, hrun₁, hrun₂]
    · rw [hpoints₂, hpoints₁, List.flatMap_cons, List.append_assoc]

/-! ## 7. The text of the file -/

theorem lines_flatMap {ls : List Str} (hls : ∀ l ∈ ls, byte '\n' ∉ l) :
    ModelParser.lines (ls.flatMap (· ++ [byte '\n'])) = ls := by
  have hjoin : ls.flatMap (· ++ [byte '\n']) = [byte '\n'].intercalate (ls ++ [[]]) := by
    induction ls with
    | nil => rfl
    | cons l ls ih =>
      rw [List.flatMap_cons, ih fun l hl => hls l (List.mem_cons_of_mem _ hl)]
      cases ls <;> simp [List.intercalate]
  have hsplit : (ls.flatMap (· ++ [byte '\n'])).splitOn (byte '\n') = ls ++ [[]] := by
    rw [hjoin]
    refine List.splitOn_intercalate _ ?_ (by simp)
    intro l hl
    rcases List.mem_append.mp hl with hl | hl
    · exact hls l hl
    · simp at hl
      simp [hl]
  simp [ModelParser.lines, hsplit]

theorem oneLine_text (v : Scalar) : byte '\n' ∉ v.text := by
  cases v with
  | plain text nonempty trimmed oneLine => exact oneLine
  | quoted text oneLine => simpa [Scalar.text] using ⟨by decide, oneLine, by decide⟩

theorem oneLine_attribute (indent : ℕ) (a : Attribute) : byte '\n' ∉ line indent a.text := by
  have hkey : byte '\n' ∉ a.key.text := by cases a.key <;> decide
  simp only [line, Attribute.text, List.mem_append, not_or]
  exact ⟨fun h => absurd (List.eq_of_mem_replicate h) (by decide), hkey, by decide,
    oneLine_text a.value⟩

theorem oneLine_nameText (indent : ℕ) (name : Name) : byte '\n' ∉ line indent (nameText name) := by
  simp only [line, nameText, List.mem_append, not_or]
  exact ⟨fun h => absurd (List.eq_of_mem_replicate h) (by decide), by decide,
    fun h => (name.plain _ h).1 rfl⟩

theorem Entry.oneLine (e : Entry) : ∀ l ∈ e.lines, byte '\n' ∉ l := by
  intro l hl
  rcases List.mem_cons.mp hl with rfl | hl
  · exact oneLine_nameText 8 e.name
  · obtain ⟨a, _, rfl⟩ := List.mem_map.mp hl
    exact oneLine_attribute 10 a

theorem Section.oneLine (list : Section) : ∀ l ∈ list.lines, byte '\n' ∉ l := by
  intro l hl
  rcases List.mem_cons.mp hl with rfl | hl
  · cases list.kind <;> decide
  · obtain ⟨e, _, hl⟩ := List.mem_flatMap.mp hl
    exact e.oneLine l hl

theorem Component.oneLine (c : Component) : ∀ l ∈ c.lines, byte '\n' ∉ l := by
  intro l hl
  rcases List.mem_append.mp hl with hl | hl
  · rcases List.mem_cons.mp hl with rfl | hl
    · exact oneLine_nameText 4 c.name
    · obtain ⟨a, _, rfl⟩ := List.mem_map.mp hl
      exact oneLine_attribute 6 a
  · obtain ⟨list, _, hl⟩ := List.mem_flatMap.mp hl
    exact list.oneLine l hl

theorem Model.oneLine (m : Model) : ∀ l ∈ m.lines, byte '\n' ∉ l := by
  intro l hl
  simp only [Model.lines, List.mem_append, List.mem_cons, List.mem_map, List.mem_flatMap] at hl
  rcases hl with ((rfl | ⟨a, _, rfl⟩) | (rfl | ⟨a, _, rfl⟩)) | (rfl | ⟨c, _, hl⟩)
  · decide
  · exact oneLine_attribute 2 a
  · decide
  · exact oneLine_attribute 4 a
  · decide
  · exact c.oneLine l hl

/-- A header line is read for nothing. -/
theorem foldl_header (m : Model) :
    m.lines.foldl (parseLine device) {} =
      (m.components.flatMap Component.lines).foldl (parseLine device) {} := by
  have hdevice : parseLine device {} (lit "Device:") = {} := rfl
  have hproperties : parseLine device {} (line 2 (lit "Properties:")) = {} := rfl
  have hcomponent : parseLine device {} (line 2 (lit "Component:")) = {} := rfl
  have hattributes (indent : ℕ) (attributes : List Attribute) :
      (attributes.map fun a => line indent a.text).foldl (parseLine device) {} = {} :=
    foldl_attributes_of_not_pending device indent rfl attributes
  simp only [Model.lines, List.foldl_append, List.foldl_cons, hdevice, hproperties, hcomponent,
    hattributes]

/-- The points that the parser returns for a model. -/
theorem parseDataItems_text (m : Model) :
    parseDataItems device m.text = m.components.flatMap (·.pointsRead device) := by
  obtain ⟨s, hrun, _, hpoints⟩ := foldl_components device m.components
    (s := {}) (fun h => absurd h (by decide))
  rw [parseDataItems, Model.text, lines_flatMap m.oneLine, foldl_header, hrun]
  exact hpoints

/-! ## 8. When the points are the data items -/

theorem flatMap_entries_of_kind (sections : List Section) :
    (sections.flatMap (·.entries)).length =
        ((sections.filter (·.kind = .dataItem)).flatMap (·.entries)).length +
          ((sections.filter (·.kind = .devFunc)).flatMap (·.entries)).length ∧
      ((sections.filter (·.kind = .devFunc)).flatMap (·.entries) = [] →
        sections.flatMap (·.entries) =
          (sections.filter (·.kind = .dataItem)).flatMap (·.entries)) := by
  induction sections with
  | nil => exact ⟨rfl, fun _ => rfl⟩
  | cons list sections ih =>
    obtain ⟨hlength, hempty⟩ := ih
    cases hkind : list.kind with
    | dataItem =>
      refine ⟨by simp [hkind, hlength]; omega, fun h => ?_⟩
      simp only [hkind, List.filter_cons, reduceCtorEq, decide_false, decide_true, if_true,
        Bool.false_eq_true, if_false, List.flatMap_cons] at h ⊢
      rw [hempty h]
    | devFunc =>
      refine ⟨by simp [hkind, hlength]; omega, fun h => ?_⟩
      simp only [hkind, List.filter_cons, reduceCtorEq, decide_false, decide_true, if_true,
        Bool.false_eq_true, if_false, List.flatMap_cons, List.append_eq_nil_iff] at h ⊢
      rw [h.1, hempty h.2, List.nil_append]

namespace Component

/-- The data items all stand in the lists from the first list of data items on. -/
theorem dataItems_eq (c : Component) :
    c.dataItems = (c.tail.filter (·.kind = .dataItem)).flatMap (·.entries) := by
  have hlead : (c.sections.takeWhile (·.kind = .devFunc)).filter (·.kind = .dataItem) = [] := by
    refine List.filter_eq_nil_iff.mpr fun list hlist => ?_
    have hkind := List.mem_takeWhile_imp (p := fun list : Section => list.kind = .devFunc) hlist
    simp [of_decide_eq_true hkind]
  have hsections : c.sections = c.sections.takeWhile (·.kind = .devFunc) ++ c.tail :=
    (List.takeWhile_append_dropWhile ..).symm
  rw [dataItems, hsections, List.filter_append, hlead, List.nil_append]

theorem length_dataPoints_le (c : Component) :
    (c.dataPoints device).length ≤ (c.pointsRead device).length := by
  simp only [dataPoints, pointsRead, List.length_map, dataItems_eq,
    (flatMap_entries_of_kind c.tail).1]
  exact Nat.le_add_right _ _

theorem nameRead_eq_iff (c : Component) :
    c.nameRead = c.name.text ↔ ∀ f ∈ c.leadingFunctions.getLast?, f.name.text = c.name.text := by
  unfold nameRead
  cases c.leadingFunctions.getLast? <;> simp

theorem pointOf_component_inj {component component' : Str} {e : Entry} :
    pointOf device component e = pointOf device component' e ↔ component = component' := by
  constructor
  · intro h
    have hpath : namePathOf component e.name.text = namePathOf component' e.name.text :=
      congrArg DataPoint.namePath h
    simpa [namePathOf] using hpath
  · intro h
    rw [h]

/-- A component is read as it is exactly when no function is read as a data item and the data items
are read under the component's own name. -/
theorem pointsRead_eq_iff (c : Component) :
    c.pointsRead device = c.dataPoints device ↔ c.ReadExactly := by
  obtain ⟨hlength, hempty⟩ := flatMap_entries_of_kind c.tail
  constructor
  · intro h
    have htrailing : c.trailingFunctions = [] := by
      have hpoints := congrArg List.length h
      simp only [pointsRead, dataPoints, List.length_map, dataItems_eq, hlength] at hpoints
      exact List.eq_nil_of_length_eq_zero (Nat.add_eq_left.mp hpoints)
    refine ⟨htrailing, fun hitems => (nameRead_eq_iff c).mp ?_⟩
    obtain ⟨e, he⟩ := List.exists_mem_of_ne_nil _ hitems
    rw [pointsRead, hempty htrailing, ← dataItems_eq, dataPoints] at h
    exact (pointOf_component_inj device).mp (List.map_inj_left.mp h e he)
  · rintro ⟨htrailing, hnamed⟩
    rw [pointsRead, hempty htrailing, ← dataItems_eq, dataPoints]
    refine List.map_inj_left.mpr fun e he => ?_
    rw [(nameRead_eq_iff c).mpr (hnamed (List.ne_nil_of_mem he))]

end Component

theorem length_flatMap_le {f g : Component → List DataPoint}
    (hlength : ∀ c, (g c).length ≤ (f c).length) (components : List Component) :
    (components.flatMap g).length ≤ (components.flatMap f).length := by
  induction components with
  | nil => exact le_rfl
  | cons c components ih =>
    simp only [List.flatMap_cons, List.length_append]
    exact Nat.add_le_add (hlength c) ih

/-- Where one list of parts is never shorter than the other, the whole lists agree only if all the
parts do. -/
theorem flatMap_eq_iff {f g : Component → List DataPoint}
    (hlength : ∀ c, (g c).length ≤ (f c).length) (components : List Component) :
    components.flatMap f = components.flatMap g ↔ ∀ c ∈ components, f c = g c := by
  induction components with
  | nil => simp
  | cons c components ih =>
    have hrest := length_flatMap_le hlength components
    rw [List.flatMap_cons, List.flatMap_cons, List.forall_mem_cons, ← ih]
    constructor
    · intro h
      have hsum := congrArg List.length h
      simp only [List.length_append] at hsum
      have hfirst := hlength c
      exact List.append_inj h (by omega)
    · rintro ⟨hfirst, htail⟩
      rw [hfirst, htail]

/-- The parser returns exactly the data items of a model if and only if every component is read as
it is. -/
theorem parseDataItems_exact_iff (m : Model) :
    parseDataItems device m.text = m.dataPoints device ↔ ∀ c ∈ m.components, c.ReadExactly := by
  rw [parseDataItems_text, Model.dataPoints, flatMap_eq_iff fun c => c.length_dataPoints_le device]
  simp only [Component.pointsRead_eq_iff]

/-- A component with a list of data items and a list of device functions, as `M2.yaml` has it. -/
def powerInfo : Model where
  header := []
  properties := []
  components := [{
    name := ⟨lit "PowerInfo", by decide, by decide, by decide⟩
    description := .quoted (lit "power") (by decide) (by decide)
    attributes := []
    sections := [
      { kind := .dataItem
        entries := [⟨⟨lit "PowerIn", by decide, by decide, by decide⟩, [], by decide⟩] },
      { kind := .devFunc
        entries := [⟨⟨lit "GetError", by decide, by decide, by decide⟩, [], by decide⟩] }] }]

/-- The function that follows the data items becomes a data point. -/
theorem parseDataItems_powerInfo_not_exact :
    ¬ ∀ (device : Device) (m : Model), parseDataItems device m.text = m.dataPoints device := by
  intro h
  have hpoints := h {} powerInfo
  rw [parseDataItems_text] at hpoints
  exact absurd (congrArg List.length hpoints) (by decide)

end CollectorService.ModelLayout

import CollectorService.Database
import CollectorService.LexicalPath
import CollectorService.ModelFiles

/-!
# Where model files are read from

`loadModelText` pastes the strings of a client into file names and appends these to the model
directory. Nothing keeps a name from being absolute, or from leading out of the directory.

* `openedFile`: the file that a call opens; `loadModelText_eq_ok` says that it reads no other.
* `opensInside_iff`: the strings with which no configuration opens a file outside its directories.
-/

namespace CollectorService

open LexicalPath (Stays normal)

/-! ## 1. Paths -/

/-- A part of a path that leads somewhere. -/
def leads (part : Str) : Bool := part ≠ [] ∧ part ≠ lit "."

/-- The parts of a path, as they stand. -/
def pathParts (path : Str) : List Str := (path.splitOn (byte '/')).filter leads

def isAbsolute (path : Str) : Bool := path.head? = some (byte '/')

/-- The parts of the normalized path. -/
def normalParts (path : Str) : List Str := normal (lit "..") (isAbsolute path) (pathParts path)

/-- The normalized path begins with the normalized directory, and goes on below it. -/
def Inside (directory path : Str) : Prop :=
  isAbsolute path = isAbsolute directory ∧
    ∃ rest, lit ".." ∉ rest ∧ normalParts path = normalParts directory ++ rest

/-- A path that never leads above its start: it is relative, and of the parts before its last one none
goes above it. -/
def StaysBelow (name : Str) : Prop :=
  isAbsolute name = false ∧
    Stays (lit "..") 0 ((name.splitOn (byte '/')).dropLast.filter leads)

section Paths
variable {directory name suffix : Str}

theorem pathParts_append (a b : Str) : pathParts (a ++ byte '/' :: b) = pathParts a ++ pathParts b := by
  rw [pathParts, List.splitOn_append_cons_self, List.filter_append]
  rfl

/-- A relative name is appended to the directory. -/
theorem joinPath_relative (h : isAbsolute name = false) (directory : Str) :
    isAbsolute (joinPath directory name) = isAbsolute directory ∧
      pathParts (joinPath directory name) = pathParts directory ++ pathParts name := by
  have hname : name.head? ≠ some (byte '/') := of_decide_eq_false h
  unfold joinPath
  rcases List.eq_nil_or_concat' directory with rfl | ⟨front, ch, rfl⟩
  · rw [if_pos (.inr rfl)]
    exact ⟨h, rfl⟩
  · have hne : front ++ [ch] ≠ [] := List.append_ne_nil_of_right_ne_nil _ (List.cons_ne_nil _ _)
    rw [if_neg (not_or.mpr ⟨hname, hne⟩)]
    have hhead (rest : Str) : isAbsolute (front ++ [ch] ++ rest) = isAbsolute (front ++ [ch]) := by
      rw [isAbsolute, isAbsolute, List.head?_append_of_ne_nil _ hne]
    split
    · next hlast =>
      -- the directory has its separator already
      obtain rfl : ch = byte '/' := by simpa using hlast
      refine ⟨hhead name, ?_⟩
      have hslash : pathParts (front ++ [byte '/']) = pathParts front ++ pathParts [] :=
        pathParts_append front []
      rw [hslash, List.append_assoc, List.singleton_append, pathParts_append]
      simp [pathParts, leads]
    · exact ⟨hhead _, pathParts_append _ name⟩

theorem joinPath_absolute (h : isAbsolute name = true) (directory : Str) :
    joinPath directory name = name := if_pos (.inl (of_decide_eq_true h))

/-- A suffix without a separator goes to the last part. -/
theorem splitOn_suffix (hsuffix : byte '/' ∉ suffix) (name : Str) :
    ∃ parts last, name.splitOn (byte '/') = parts ++ [last] ∧
      (name ++ suffix).splitOn (byte '/') = parts ++ [last ++ suffix] := by
  induction hlength : name.length using Nat.strongRecOn generalizing name with
  | _ length ih =>
    by_cases hmem : byte '/' ∈ name
    · -- the suffix goes to what is behind the first separator
      obtain ⟨part, rest, rfl, -⟩ := List.eq_append_cons_of_mem hmem
      have hshorter : rest.length < length := by
        rw [← hlength, List.length_append, List.length_cons]
        omega
      obtain ⟨parts, last, hsplit, hsplit'⟩ := ih _ hshorter rest rfl
      refine ⟨part.splitOn (byte '/') ++ parts, last, ?_, ?_⟩
      · rw [List.splitOn_append_cons_self, hsplit, List.append_assoc]
      · rw [List.append_assoc, List.cons_append, List.splitOn_append_cons_self, hsplit',
          List.append_assoc]
    · have hboth : byte '/' ∉ name ++ suffix := fun h =>
        (List.mem_append.mp h).elim hmem hsuffix
      exact ⟨[], name, List.splitOn_eq_singleton hmem, List.splitOn_eq_singleton hboth⟩

/-- With a suffix such as `.yaml` the last part goes nowhere, so only the others count. -/
theorem staysBelow_suffix (hsuffix : byte '/' ∉ suffix) (hlong : 3 ≤ suffix.length) (name : Str)
    (hne : name ≠ []) : StaysBelow name ↔
      isAbsolute (name ++ suffix) = false ∧ Stays (lit "..") 0 (pathParts (name ++ suffix)) := by
  obtain ⟨parts, last, hsplit, hsplit'⟩ := splitOn_suffix hsuffix name
  have hlength : 3 ≤ (last ++ suffix).length := by
    rw [List.length_append]
    omega
  have hshort (part : Str) (hpart : part.length < 3) : last ++ suffix ≠ part := by
    rintro rfl
    omega
  have hhead : isAbsolute (name ++ suffix) = isAbsolute name := by
    rw [isAbsolute, isAbsolute, List.head?_append_of_ne_nil _ hne]
  have hparts : pathParts (name ++ suffix) =
      parts.filter leads ++ [last ++ suffix] := by
    have hleads : leads (last ++ suffix) = true :=
      decide_eq_true ⟨hshort [] (by decide), hshort (lit ".") (by decide)⟩
    rw [pathParts, hsplit', List.filter_append, List.filter_cons_of_pos hleads, List.filter_nil]
  rw [StaysBelow, hsplit, List.dropLast_concat, hhead, hparts,
    LexicalPath.stays_concat (hshort (lit "..") (by decide))]

/-- A name that stays below extends every directory. -/
theorem inside_joinPath (hrelative : isAbsolute name = false)
    (hstays : Stays (lit "..") 0 (pathParts name)) (directory : Str) :
    Inside directory (joinPath directory name) := by
  obtain ⟨habsolute, hparts⟩ := joinPath_relative hrelative directory
  refine ⟨habsolute, ?_⟩
  rw [normalParts, habsolute, hparts]
  exact LexicalPath.normal_append_of_stays hstays _

/-- A directory that is not named in a path. -/
def unnamed (name : Str) : Str := List.replicate (name.length + 3) (byte 'd')

theorem length_unnamed (name : Str) : (unnamed name).length = name.length + 3 :=
  List.length_replicate

theorem unnamed_ne {name part : Str} (h : part.length < 3) : unnamed name ≠ part := by
  rintro rfl
  rw [length_unnamed] at h
  omega

theorem pathParts_unnamed (name : Str) : pathParts (unnamed name) = [unnamed name] := by
  have hslash : byte '/' ∉ unnamed name := fun h =>
    absurd (List.eq_of_mem_replicate h) (by decide)
  have hleads : leads (unnamed name) = true :=
    decide_eq_true ⟨unnamed_ne (by decide), unnamed_ne (by decide)⟩
  rw [pathParts, List.splitOn_eq_singleton hslash, List.filter_cons_of_pos hleads, List.filter_nil]

theorem normalParts_unnamed (name : Str) : normalParts (unnamed name) = [unnamed name] := by
  rw [normalParts, pathParts_unnamed, LexicalPath.normal, List.foldl_cons,
    LexicalPath.enter_of_ne (unnamed_ne (by decide)), List.foldl_nil, List.reverse_singleton]

theorem length_le_of_mem_splitOn {part : Str} (h : part ∈ name.splitOn (byte '/')) :
    part.length ≤ name.length := by
  induction hlength : name.length using Nat.strongRecOn generalizing name with
  | _ length ih =>
    by_cases hmem : byte '/' ∈ name
    · obtain ⟨first, rest, rfl, hfirst⟩ := List.eq_append_cons_of_mem hmem
      rw [List.length_append, List.length_cons] at hlength
      rw [List.splitOn_append_cons_self_of_not_mem hfirst, List.mem_cons] at h
      rcases h with rfl | h
      · omega
      · have hle := ih rest.length (by omega) h rfl
        omega
    · rw [List.splitOn_eq_singleton hmem, List.mem_singleton] at h
      rw [h, hlength]

theorem unnamed_notMem (name : Str) : unnamed name ∉ pathParts name := by
  intro h
  have hle := length_le_of_mem_splitOn (List.mem_filter.mp h).1
  rw [length_unnamed] at hle
  omega

/-- Any other name leads out of a directory that it does not name. -/
theorem not_inside_unnamed
    (h : ¬ (isAbsolute name = false ∧ Stays (lit "..") 0 (pathParts name))) :
    ¬ Inside (unnamed name) (joinPath (unnamed name) name) := by
  have hrelative : isAbsolute (unnamed name) = false := rfl
  rintro ⟨habsolute, rest, -, hparts⟩
  rw [hrelative] at habsolute
  cases hname : isAbsolute name with
  | true =>
    rw [joinPath_absolute hname, hname] at habsolute
    cases habsolute
  | false =>
    have hnot : ¬ Stays (lit "..") 0 (pathParts name) := fun hstays => h ⟨hname, hstays⟩
    have hout : unnamed name ∉ normal (lit "..") false (unnamed name :: pathParts name) :=
      LexicalPath.notMem_normal_of_not_stays (unnamed_ne (by decide)) (unnamed_notMem name) hnot
    refine hout ?_
    rw [normalParts, habsolute, (joinPath_relative hname _).2, pathParts_unnamed,
      normalParts_unnamed] at hparts
    rw [← List.singleton_append, hparts]
    exact List.mem_append_left _ List.mem_cons_self

end Paths

/-! ## 2. The file that a call opens -/

namespace ModelRepository
variable (repository : ModelRepository)

/-- The first candidate that exists, if it can be opened. -/
def firstOpened : List Str → Option Str
  | [] => none
  | path :: rest =>
    match repository.fileExists path with
    | .ok true => if (repository.contents path).isSome then some path else none
    | .ok false => firstOpened rest
    | .error _ => none

/-- The file that `loadModelText` opens. -/
def openedFile (model modelVersion : Str) : Option Str :=
  if model = [] ∨ hasDataItemText model = true then none
  else repository.firstOpened (repository.candidates model modelVersion)

theorem loadFirst_eq_ok {model text : Str} (paths : List Str) :
    repository.loadFirst model paths = .ok text ↔
      ∃ path, repository.firstOpened paths = some path ∧ repository.contents path = some text := by
  induction paths with
  | nil => simp [loadFirst, firstOpened]
  | cons path rest ih =>
    rw [loadFirst, firstOpened]
    cases hexists : repository.fileExists path with
    | error e => simp [bind, Except.bind]
    | ok found =>
      cases found with
      | false => simpa [bind, Except.bind] using ih
      | true => cases hcontents : repository.contents path <;>
          simp [bind, Except.bind, loadFile, hcontents]

/-- The text of a model is written in the model itself, or it is what the opened file contains. -/
theorem loadModelText_eq_ok (model modelVersion text : Str) :
    repository.loadModelText model modelVersion = .ok text ↔
      (model ≠ [] ∧ hasDataItemText model = true ∧ text = model) ∨
        ∃ path, repository.openedFile model modelVersion = some path ∧
          repository.contents path = some text := by
  rw [loadModelText, openedFile]
  by_cases hempty : model = []
  · simp [hempty]
  · cases htext : hasDataItemText model with
    | true => simp [hempty, eq_comm]
    | false => simp [hempty, loadFirst_eq_ok]

/-- The file names without their suffix. -/
def stems (model modelVersion : Str) : List Str :=
  (if modelVersion ≠ [] then [model ++ lit "-" ++ modelVersion] else []) ++ [model]

theorem mem_candidates {path model modelVersion : Str} :
    path ∈ repository.candidates model modelVersion ↔
      (∃ stem ∈ stems model modelVersion, ∃ suffix ∈ [lit ".yaml", lit ".yml", lit ".txt"],
        path = joinPath repository.modelDirectory (stem ++ suffix)) ∨
      model = lit "M1" ∧ path = joinPath repository.fallbackDirectory (lit "model.txt") := by
  unfold candidates stems
  by_cases hversion : modelVersion = [] <;> by_cases hmodel : model = lit "M1" <;>
    simp [hversion, hmodel, or_assoc]

theorem firstOpened_mem {path : Str} {paths : List Str}
    (h : repository.firstOpened paths = some path) : path ∈ paths := by
  induction paths with
  | nil => cases h
  | cons first rest ih =>
    unfold firstOpened at h
    split at h
    · split at h
      · cases h
        exact List.mem_cons_self
      · cases h
    · exact List.mem_cons_of_mem _ (ih h)
    · cases h

/-- Where there is one file only, it is opened if it is a candidate. -/
theorem firstOpened_only {path : Str} {paths : List Str} (hmem : path ∈ paths)
    (hexists : ∀ p, repository.fileExists p = .ok (p = path))
    (hcontents : (repository.contents path).isSome = true) :
    repository.firstOpened paths = some path := by
  induction paths with
  | nil => cases hmem
  | cons first rest ih =>
    rw [firstOpened, hexists]
    by_cases hfirst : first = path
    · subst hfirst
      simp [hcontents]
    · have hrest := (List.mem_cons.mp hmem).resolve_left (Ne.symm hfirst)
      simpa [hfirst] using ih hrest

theorem staysBelow_stems {model modelVersion : Str} :
    (∀ stem ∈ stems model modelVersion, StaysBelow stem) ↔
      StaysBelow model ∧ (modelVersion ≠ [] → StaysBelow (model ++ lit "-" ++ modelVersion)) := by
  by_cases hversion : modelVersion = []
  · simp [stems, hversion]
  · simp [stems, hversion, and_comm]

theorem stem_ne_nil {model modelVersion stem : Str} (hmodel : model ≠ [])
    (h : stem ∈ stems model modelVersion) : stem ≠ [] := by
  rcases List.mem_append.mp h with h | h
  · split at h
    · rw [List.mem_singleton.mp h, List.append_assoc]
      exact List.append_ne_nil_of_left_ne_nil hmodel _
    · cases h
  · rwa [List.mem_singleton.mp h]

/-- A repository in a directory that the name does not mention, and the one file that the name leads
to from there. -/
def onlyFile (name : Str) : ModelRepository where
  modelDirectory := unnamed name
  fallbackDirectory := unnamed name
  fileExists path := .ok (path = joinPath (unnamed name) name)
  contents _ := some []

/-- A client that sends a model and a version has a file opened only inside the configured
directories, whatever these are and whichever files there are, exactly when the two strings make no
file name that is absolute or leads out of a directory. -/
theorem opensInside_iff (model modelVersion : SqlText) :
    (∀ (repository : ModelRepository) (path : Str),
      repository.openedFile model.bytes modelVersion.bytes = some path →
        Inside repository.modelDirectory path ∨ Inside repository.fallbackDirectory path) ↔
    model.bytes = [] ∨ hasDataItemText model.bytes = true ∨
      StaysBelow model.bytes ∧
        (modelVersion.bytes ≠ [] → StaysBelow (model.bytes ++ lit "-" ++ modelVersion.bytes)) := by
  by_cases htext : model.bytes = [] ∨ hasDataItemText model.bytes = true
  · refine iff_of_true (fun repository path hopened => ?_) (or_assoc.mp (.inl htext))
    rw [openedFile, if_pos htext] at hopened
    cases hopened
  · obtain ⟨hempty, hplain⟩ := not_or.mp htext
    have hopens (repository : ModelRepository) : repository.openedFile model.bytes modelVersion.bytes =
        repository.firstOpened (repository.candidates model.bytes modelVersion.bytes) := if_neg htext
    rw [or_iff_right hempty, or_iff_right hplain, ← staysBelow_stems]
    constructor
    · intro hinside stem hstem
      by_contra hleaves
      rw [@staysBelow_suffix (lit ".yaml") (by decide) (by decide) stem
        (stem_ne_nil hempty hstem)] at hleaves
      -- the file exists that the name leads to from a directory that it does not mention
      let repository := onlyFile (stem ++ lit ".yaml")
      have hcandidate : joinPath (unnamed (stem ++ lit ".yaml")) (stem ++ lit ".yaml") ∈
          repository.candidates model.bytes modelVersion.bytes :=
        (mem_candidates repository).mpr (.inl ⟨stem, hstem, lit ".yaml", by simp, rfl⟩)
      have hopened := (hopens repository).trans
        (repository.firstOpened_only hcandidate (fun _ => rfl) rfl)
      exact (hinside repository _ hopened).elim (not_inside_unnamed hleaves)
        (not_inside_unnamed hleaves)
    · intro hstays repository path hopened
      rw [hopens] at hopened
      rcases (mem_candidates repository).mp (repository.firstOpened_mem hopened) with
        ⟨stem, hstem, suffix, hsuffix, rfl⟩ | ⟨-, rfl⟩
      · have hne := stem_ne_nil hempty hstem
        obtain ⟨hrelative, hparts⟩ : isAbsolute (stem ++ suffix) = false ∧
            Stays (lit "..") 0 (pathParts (stem ++ suffix)) := by
          simp only [List.mem_cons, List.not_mem_nil, or_false] at hsuffix
          rcases hsuffix with rfl | rfl | rfl
          all_goals exact (staysBelow_suffix (by decide) (by decide) stem hne).mp (hstays stem hstem)
        exact .inl (inside_joinPath hrelative hparts _)
      · -- the name of the fallback file is the code's own
        exact .inr (inside_joinPath (by decide) (by decide) _)

/-- A file outside the directories of the service. -/
def secrets : ModelRepository where
  fileExists path := .ok (path = lit "config/models/../../secrets.yaml")
  contents _ := some (lit "password: x")

/-- The model `../../secrets` opens `secrets.yaml` in the working directory. -/
theorem openedFile_secrets :
    secrets.openedFile (bindText (lit "../../secrets")).bytes (bindText []).bytes =
        some (lit "config/models/../../secrets.yaml") ∧
      ¬ (Inside secrets.modelDirectory (lit "config/models/../../secrets.yaml") ∨
        Inside secrets.fallbackDirectory (lit "config/models/../../secrets.yaml")) := by
  refine ⟨by decide +kernel, ?_⟩
  have hparts : normalParts (lit "config/models/../../secrets.yaml") = [lit "secrets.yaml"] := by
    decide +kernel
  rintro (⟨-, rest, -, hinside⟩ | ⟨-, rest, -, hinside⟩)
  · have hdirectory : normalParts secrets.modelDirectory = [lit "config", lit "models"] := by
      decide +kernel
    rw [hparts, hdirectory] at hinside
    simp at hinside
  · have hdirectory : normalParts secrets.fallbackDirectory = [lit "config"] := by decide +kernel
    rw [hparts, hdirectory] at hinside
    exact absurd (List.cons.inj hinside).1 (by decide)

end ModelRepository

end CollectorService

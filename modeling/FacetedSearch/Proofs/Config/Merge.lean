import FacetedSearch.Config.Merge
import FacetedSearch.Proofs.Config.File
import Mathlib.Data.List.Basic
import Mathlib.Data.String.Basic

/-!
# The closest file wins

Merging reads the names in the files in a fixed order and stops at the first one that is no
category. When all of them are categories, everything in the deployment is what the closest file
that says anything about it says: each compiler setting on its own, the fields of each category on
their own, and the omitted categories as a whole. The settings are overwritten from the farthest
file to the closest one, and the fields are inserted from the closest file to the farthest; both
ways the closest file decides, and a file that is farther away never changes that.
-/

namespace FacetedSearch

/-! ## Names of categories -/

namespace Category

/-- The names of a category in settings files, the one that takes precedence first. -/
def names (c : Category) : List String :=
  if c = geohashes then [geohashAlias, c.name] else [c.name]

theorem ofName?_eq_some_iff {name : String} {c : Category} :
    ofName? name = some c ↔ name ∈ c.names := by
  constructor
  · intro h
    unfold ofName? at h
    split at h
    · rename_i halias
      obtain rfl := Option.some.inj h
      exact halias ▸ List.mem_cons_self
    · have hname : c.name = name := by simpa using List.find?_some h
      rw [← hname, names]
      split <;> simp
  · intro h
    unfold names at h
    split at h
    · rename_i hc
      subst hc
      rcases List.mem_cons.mp h with rfl | hname
      · exact ofName?_geohashAlias
      · rw [List.mem_singleton.mp hname, ofName?_name]
    · rw [List.mem_singleton.mp h, ofName?_name]

end Category

namespace Config

open Category

/-! ## Names in files -/

/-- A name in a section of a file, where the name of a category belongs. -/
structure Mention where
  path : String
  sectionName : String
  name : String

namespace Mention

/-- The name is that of a category. -/
def Known (m : Mention) : Prop :=
  ∃ c : Category, m.name ∈ c.names

theorem known_iff {m : Mention} : m.Known ↔ (ofName? m.name).isSome = true := by
  simp only [Known, Option.isSome_iff_exists, ofName?_eq_some_iff]

instance (m : Mention) : Decidable m.Known :=
  decidable_of_iff _ known_iff.symm

/-- The error of a name that is no category. -/
def error (m : Mention) : ConfigError :=
  .unknownCategory m.path m.sectionName m.name

end Mention

/-- The names in a section of fields, file by file. -/
def fieldMentions (sectionName : String) (get : File → Option FieldSection)
    (sources : List Source) : List Mention :=
  sources.flatMap fun s =>
    ((get s.file).getD []).map fun (name, _) => { path := s.path, sectionName, name }

/-- The names in the first list of omitted categories. -/
def omittedMentions (sources : List Source) : List Mention :=
  match firstOmitted? sources with
  | some (path, names) =>
    names.map fun name => { path, sectionName := "deployment", name }
  | none => []

/-- Every name that has to be that of a category, in the order in which they are read. -/
def mentions (sources : List Source) : List Mention :=
  fieldMentions "fields" (·.fields) sources ++ fieldMentions "facets" (·.facets) sources ++
    omittedMentions sources

/-- A value that is there when every name is that of a category; otherwise the error of the first
name that is not. -/
def whenKnown {α : Type} (ms : List Mention) (a : α) : Except ConfigError α :=
  match ms.find? fun m => ¬ m.Known with
  | some m => .error m.error
  | none => .ok a

section WhenKnown

variable {α β : Type} {ms ns : List Mention} {m : Mention} {a : α}

@[simp] theorem whenKnown_nil (a : α) : whenKnown [] a = .ok a := rfl

theorem whenKnown_cons_of_known (h : m.Known) : whenKnown (m :: ms) a = whenKnown ms a := by
  simp [whenKnown, h]

theorem whenKnown_cons_of_not_known (h : ¬ m.Known) : whenKnown (m :: ms) a = .error m.error := by
  simp [whenKnown, h]

/-- Reading more names after some names is reading them all. -/
theorem whenKnown_bind {b : β} {next : α → Except ConfigError β} (h : next a = whenKnown ns b) :
    (whenKnown ms a >>= next) = whenKnown (ms ++ ns) b := by
  induction ms with
  | nil => exact h
  | cons m ms ih =>
      by_cases hm : m.Known
      · rw [List.cons_append, whenKnown_cons_of_known hm, whenKnown_cons_of_known hm, ih]
      · rw [List.cons_append, whenKnown_cons_of_not_known hm, whenKnown_cons_of_not_known hm]
        rfl

theorem whenKnown_bind_pure (ms : List Mention) (a : α) (f : α → β) :
    (whenKnown ms a >>= fun a => pure (f a)) = whenKnown ms (f a) := by
  rw [whenKnown, whenKnown]
  split <;> rfl

theorem whenKnown_eq_ok {b : α} : whenKnown ms a = .ok b ↔ (∀ m ∈ ms, m.Known) ∧ a = b := by
  induction ms with
  | nil => simp
  | cons m ms ih =>
      by_cases h : m.Known
      · simp [whenKnown_cons_of_known h, ih, h]
      · simp [whenKnown_cons_of_not_known h, h]

/-- The error is that of the first name that is no category. -/
theorem whenKnown_eq_error {e : ConfigError} :
    whenKnown ms a = .error e ↔
      ∃ before m after, ms = before ++ m :: after ∧ (∀ n ∈ before, n.Known) ∧ ¬ m.Known ∧
        e = m.error := by
  rw [whenKnown]
  cases hfirst : ms.find? fun m => ¬ m.Known with
  | none =>
      have hall : ∀ m ∈ ms, m.Known := by simpa using hfirst
      refine iff_of_false (by simp) ?_
      rintro ⟨before, m, after, rfl, -, hm, -⟩
      exact hm (hall m (by simp))
  | some m =>
      obtain ⟨hm, before, after, rfl, hbefore⟩ := List.find?_eq_some_iff_append.mp hfirst
      have hm : ¬ m.Known := by simpa using hm
      have hbefore : ∀ n ∈ before, n.Known := by simpa using hbefore
      rw [Except.error.injEq]
      constructor
      · rintro rfl
        exact ⟨before, m, after, rfl, hbefore, hm, rfl⟩
      · rintro ⟨before', m', after', hsplit, hbefore', hm', rfl⟩
        have hfirst' : (before' ++ m' :: after').find? (fun m => ¬ m.Known) = some m' := by
          rw [List.find?_append, List.find?_eq_none.mpr (by simpa using hbefore')]
          simp [hm']
        rw [← hsplit, hfirst] at hfirst'
        rw [Option.some.inj hfirst']

end WhenKnown

/-! ## Reading the names -/

/-- The entries of a section whose names are categories, by category. -/
def knownEntries (entries : FieldSection) : List (Category × List String) :=
  entries.filterMap fun (name, fields) => (ofName? name).map (·, fields)

theorem knownEntries_cons_of_known {name : String} {c : Category} (h : ofName? name = some c)
    (fields : List String) (rest : FieldSection) :
    knownEntries ((name, fields) :: rest) = (c, fields) :: knownEntries rest := by
  simp [knownEntries, h]

theorem knownEntries_cons_of_unknown {name : String} (h : ofName? name = none)
    (fields : List String) (rest : FieldSection) :
    knownEntries ((name, fields) :: rest) = knownEntries rest := by
  simp [knownEntries, h]

theorem categoryIn_of_known {path sectionName name : String} {c : Category}
    (h : ofName? name = some c) : categoryIn path sectionName name = .ok c := by
  rw [categoryIn, h]

theorem categoryIn_of_unknown {path sectionName name : String} (h : ofName? name = none) :
    categoryIn path sectionName name = .error (Mention.error ⟨path, sectionName, name⟩) := by
  rw [categoryIn, h]
  rfl

theorem mapM_categoryIn (path sectionName : String) (names : List String) :
    names.mapM (categoryIn path sectionName) =
      whenKnown (names.map fun name => ⟨path, sectionName, name⟩) (names.filterMap ofName?) := by
  induction names with
  | nil => rfl
  | cons name rest ih =>
      rw [List.mapM_cons, List.map_cons, ih]
      cases hread : ofName? name with
      | none =>
          rw [categoryIn_of_unknown hread,
            whenKnown_cons_of_not_known (by simp [Mention.known_iff, hread])]
          rfl
      | some c =>
          rw [categoryIn_of_known hread,
            whenKnown_cons_of_known (by simp [Mention.known_iff, hread]),
            List.filterMap_cons_some hread]
          exact whenKnown_bind_pure _ _ (c :: ·)

/-- Insert entries one after another; what a category has already stays. -/
def insertNew (t : Category.Table (List String)) (entries : List (Category × List String)) :
    Category.Table (List String) :=
  entries.foldl (fun t (c, fields) => t.insertIfNew c fields) t

/-- Adding the entries of a section reads their names and inserts what they give. -/
theorem foldlM_addFields (path sectionName : String) (t : Category.Table (List String))
    (entries : FieldSection) :
    entries.foldlM (addFields path sectionName) t =
      whenKnown (entries.map fun (name, _) => ⟨path, sectionName, name⟩)
        (insertNew t (knownEntries entries)) := by
  induction entries generalizing t with
  | nil => rfl
  | cons entry rest ih =>
      obtain ⟨name, fields⟩ := entry
      rw [List.foldlM_cons, List.map_cons, addFields]
      cases hread : ofName? name with
      | none =>
          rw [categoryIn_of_unknown hread,
            whenKnown_cons_of_not_known (by simp [Mention.known_iff, hread])]
          rfl
      | some c =>
          rw [categoryIn_of_known hread,
            whenKnown_cons_of_known (by simp [Mention.known_iff, hread]),
            knownEntries_cons_of_known hread]
          exact ih (t.insertIfNew c fields)

/-- The fields of each category: those of the first file that names it. -/
def closestFields (get : File → Option FieldSection) (sources : List Source) :
    Category.Table (List String) :=
  insertNew .empty (sources.flatMap fun s => knownEntries ((get s.file).getD []))

theorem mergeFields_eq (sectionName : String) (get : File → Option FieldSection)
    (sources : List Source) :
    mergeFields sectionName get sources =
      whenKnown (fieldMentions sectionName get sources) (closestFields get sources) := by
  rw [mergeFields, closestFields]
  generalize Table.empty = t
  induction sources generalizing t with
  | nil => rfl
  | cons s rest ih =>
      rw [List.foldlM_cons, foldlM_addFields]
      apply whenKnown_bind
      rw [ih, List.flatMap_cons, insertNew, insertNew, insertNew, List.foldl_append]
      rfl

theorem mergeOmitted_eq (sources : List Source) :
    mergeOmitted sources =
      whenKnown (omittedMentions sources)
        ((((firstOmitted? sources).map (·.2)).getD []).filterMap ofName?) := by
  rw [mergeOmitted, omittedMentions]
  cases firstOmitted? sources with
  | none => rfl
  | some found => exact mapM_categoryIn found.1 "deployment" found.2

/-- What files with known names make together. -/
def merged (sources : List Source) : Deployment where
  settings := mergeSettings sources
  fields := closestFields (·.fields) sources
  facets := closestFields (·.facets) sources
  omitted := (((firstOmitted? sources).map (·.2)).getD []).filterMap ofName?
  root := sources.head?.bind fun s => parentPath? s.path
  files := sources.map (·.path)

/-- Merging files yields a deployment when every name is that of a category, and otherwise the
error of the first name that is not. -/
theorem merge_eq (sources : List Source) :
    merge sources = whenKnown (mentions sources) (merged sources) := by
  rw [merge, mergeFields_eq, mergeFields_eq, mergeOmitted_eq, mentions, List.append_assoc]
  apply whenKnown_bind
  apply whenKnown_bind
  exact whenKnown_bind_pure _ _ _

/-! ## The fields of a category -/

/-- What a section says about a category, under the first of its names that the section has. -/
def fieldsOf? (c : Category) (entries : FieldSection) : Option (List String) :=
  c.names.findSome? fun name => entries.lookup name

theorem findSome?_congr {α β : Type} {xs : List α} {f g : α → Option β}
    (h : ∀ x ∈ xs, f x = g x) : xs.findSome? f = xs.findSome? g := by
  induction xs with
  | nil => rfl
  | cons x xs ih =>
      obtain ⟨hx, hxs⟩ := List.forall_mem_cons.mp h
      rw [List.findSome?_cons, List.findSome?_cons, hx, ih hxs]

theorem lookup_cons_of_ne {name other : String} (h : other ≠ name) (fields : List String)
    (rest : FieldSection) :
    List.lookup other ((name, fields) :: rest) = rest.lookup other := by
  rw [List.lookup_cons, beq_eq_false_iff_ne.mpr h]

/-- An entry that stands first under a name of a category decides about it: a name that takes
precedence would stand in front of it. -/
theorem fieldsOf?_cons_of_mem {c : Category} {name : String} {fields : List String}
    {rest : FieldSection} (h : name ∈ c.names) (ordered : IsOrdered ((name, fields) :: rest)) :
    fieldsOf? c ((name, fields) :: rest) = some fields := by
  unfold Category.names at h
  rw [fieldsOf?, Category.names]
  split at h
  · rename_i hc
    subst hc
    rw [if_pos rfl]
    rcases List.mem_cons.mp h with rfl | hname
    · rw [List.findSome?_cons, List.lookup_cons_self]
    · obtain rfl := List.mem_singleton.mp hname
      have hnone : rest.lookup geohashAlias = none := by
        rw [List.lookup_eq_none_iff]
        intro entry hentry
        have hbefore : geohashAlias < entry.1 :=
          lt_trans (show geohashAlias < geohashes.name by decide)
            ((List.pairwise_cons.mp ordered).1 entry hentry)
        simpa using hbefore.ne
      rw [List.findSome?_cons, lookup_cons_of_ne (by decide), hnone, List.findSome?_cons,
        List.lookup_cons_self]
  · rename_i hc
    rw [if_neg hc, List.mem_singleton.mp h, List.findSome?_cons, List.lookup_cons_self]

theorem fieldsOf?_cons_of_not_mem {c : Category} {name : String} (fields : List String)
    (rest : FieldSection) (h : name ∉ c.names) :
    fieldsOf? c ((name, fields) :: rest) = fieldsOf? c rest := by
  apply findSome?_congr
  intro other hother
  exact lookup_cons_of_ne (ne_of_mem_of_not_mem hother h) fields rest

theorem lookup_knownEntries {entries : FieldSection} (ordered : IsOrdered entries)
    (c : Category) : (knownEntries entries).lookup c = fieldsOf? c entries := by
  induction entries with
  | nil => exact (List.findSome?_eq_none_iff.mpr fun _ _ => rfl).symm
  | cons entry rest ih =>
      obtain ⟨name, fields⟩ := entry
      have hrest := ih (List.pairwise_cons.mp ordered).2
      by_cases hname : name ∈ c.names
      · rw [knownEntries_cons_of_known (ofName?_eq_some_iff.mpr hname), List.lookup_cons_self,
          fieldsOf?_cons_of_mem hname ordered]
      · rw [fieldsOf?_cons_of_not_mem fields rest hname, ← hrest]
        cases hread : ofName? name with
        | none => rw [knownEntries_cons_of_unknown hread]
        | some d =>
            have hd : c ≠ d := by
              rintro rfl
              exact hname (ofName?_eq_some_iff.mp hread)
            rw [knownEntries_cons_of_known hread, List.lookup_cons, beq_eq_false_iff_ne.mpr hd]

theorem get?_insertNew (t : Category.Table (List String))
    (entries : List (Category × List String)) (c : Category) :
    (insertNew t entries).get? c = (t.get? c).or (entries.lookup c) := by
  rw [insertNew]
  induction entries generalizing t with
  | nil => simp
  | cons entry rest ih =>
      obtain ⟨d, fields⟩ := entry
      have hnew : (t.insertIfNew d fields).get? c =
          (t.get? c).or (if c = d then some fields else none) := by
        unfold Table.insertIfNew Table.contains
        by_cases hd : c = d
        · subst hd
          cases hget : t.get? c <;> simp [hget]
        · cases t.get? d <;> simp [Table.get?_insert, hd]
      rw [List.foldl_cons, ih, hnew, Option.or_assoc, List.lookup_cons]
      by_cases hd : c = d
      · simp [hd]
      · simp [hd, beq_eq_false_iff_ne.mpr hd]

theorem lookup_flatMap (sources : List Source)
    (entries : Source → List (Category × List String)) (c : Category) :
    (sources.flatMap entries).lookup c = sources.findSome? fun s => (entries s).lookup c := by
  induction sources with
  | nil => rfl
  | cons s rest ih =>
      rw [List.flatMap_cons, List.lookup_append, ih, List.findSome?_cons]
      cases (entries s).lookup c <;> rfl

/-- The fields of a category are those of the first file that says anything about it. -/
theorem get?_closestFields {get : File → Option FieldSection} {sources : List Source}
    (ordered : ∀ s ∈ sources, ∀ entries, get s.file = some entries → IsOrdered entries)
    (c : Category) :
    (closestFields get sources).get? c =
      sources.findSome? fun s => (get s.file).bind (fieldsOf? c) := by
  rw [closestFields, get?_insertNew, Table.get?_empty, Option.none_or, lookup_flatMap]
  apply findSome?_congr
  intro s hs
  cases hget : get s.file with
  | none => simp [knownEntries]
  | some entries =>
      simpa [hget] using lookup_knownEntries (ordered s hs entries hget) c

/-! ## The closest file -/

section Closest

variable {α : Type}

/-- What the closest file that gives a value says, when there is such a file. -/
def Closest (get : File → Option α) (sources : List Source) : Option α → Prop
  | some a => ∃ before s after, sources = before ++ s :: after ∧
      (∀ t ∈ before, get t.file = none) ∧ get s.file = some a
  | none => ∀ s ∈ sources, get s.file = none

theorem closest_findSome? (get : File → Option α) (sources : List Source) :
    Closest get sources (sources.findSome? fun s => get s.file) := by
  cases hfound : sources.findSome? fun s => get s.file with
  | none => exact List.findSome?_eq_none_iff.mp hfound
  | some a =>
      obtain ⟨before, s, after, hsplit, hs, hbefore⟩ := List.findSome?_eq_some_iff.mp hfound
      exact ⟨before, s, after, hsplit, hbefore, hs⟩

end Closest

/-- A compiler setting: how a file gives it, and where the settings hold it. -/
inductive IsSetting : {α : Type} → (CompilerSection → Option α) → (Settings → α) → Prop where
  | disableQueryPosts : IsSetting (·.disableQueryPosts) (·.disableQueryPosts)
  | spatialEnabled : IsSetting (·.spatialEnabled) (·.spatialEnabled)
  | encoding : IsSetting (·.encoding) (·.encoding)
  | geohashQueryLimit : IsSetting (·.geohashQueryLimit) (·.geohashQueryLimit)
  | urlLengthLimit : IsSetting (·.urlLengthLimit) (·.urlLengthLimit)

/-- The closest file overwrites what the files behind it have made. -/
theorem mergeSettings_cons (s : Source) (rest : List Source) :
    mergeSettings (s :: rest) = overwriteFrom (mergeSettings rest) s := by
  rw [mergeSettings, List.reverse_cons, List.foldl_append]
  rfl

namespace IsSetting

variable {α : Type} {given : CompilerSection → Option α} {value : Settings → α}

/-- A section overwrites exactly the settings that it gives. -/
theorem value_overwrite (h : IsSetting given value) (compiler : CompilerSection)
    (settings : Settings) :
    value (compiler.overwrite settings) = (given compiler).getD (value settings) := by
  cases h <;> rfl

/-- A file overwrites a setting when it has a section that gives it. -/
theorem value_overwriteFrom (h : IsSetting given value) (settings : Settings) (s : Source) :
    value (overwriteFrom settings s) = (s.file.compiler.bind given).getD (value settings) := by
  rw [overwriteFrom]
  cases s.file.compiler with
  | none => rfl
  | some compiler => exact h.value_overwrite compiler settings

/-- Of all the files that overwrite a setting, the closest one is left. -/
theorem value_mergeSettings (h : IsSetting given value) (sources : List Source) :
    value (mergeSettings sources) =
      (sources.findSome? fun s => s.file.compiler.bind given).getD (value {}) := by
  induction sources with
  | nil => rfl
  | cons s rest ih =>
      rw [mergeSettings_cons, h.value_overwriteFrom, ih, List.findSome?_cons]
      cases s.file.compiler.bind given <;> rfl

end IsSetting

/-- A deployment in which everything comes from the closest file that says anything about it. -/
structure IsMerged (sources : List Source) (d : Deployment) : Prop where
  /-- A compiler setting that no file gives has its default. -/
  settings : ∀ {α : Type} {given : CompilerSection → Option α} {value : Settings → α},
    IsSetting given value → ∃ found, Closest (·.compiler.bind given) sources found ∧
      value d.settings = found.getD (value {})
  fields : ∀ c, Closest (·.fields.bind (fieldsOf? c)) sources (d.fields.get? c)
  facets : ∀ c, Closest (·.facets.bind (fieldsOf? c)) sources (d.facets.get? c)
  /-- No category is omitted when no file has a list. -/
  omitted : ∃ found, Closest (fun f => f.deployment.bind (·.omitted)) sources found ∧
    List.Forall₂ (fun name c => name ∈ c.names) (found.getD []) d.omitted

/-- A deployment says the same as another one about everything that some files say anything
about. -/
structure Keeps (sources : List Source) (old new : Deployment) : Prop where
  settings : ∀ {α : Type} {given : CompilerSection → Option α} {value : Settings → α},
    IsSetting given value → (∃ s ∈ sources, s.file.compiler.bind given ≠ none) →
      value new.settings = value old.settings
  fields : ∀ c, (∃ s ∈ sources, s.file.fields.bind (fieldsOf? c) ≠ none) →
    new.fields.get? c = old.fields.get? c
  facets : ∀ c, (∃ s ∈ sources, s.file.facets.bind (fieldsOf? c) ≠ none) →
    new.facets.get? c = old.facets.get? c
  omitted : (∃ s ∈ sources, s.file.deployment.bind (·.omitted) ≠ none) →
    new.omitted = old.omitted

theorem map_firstOmitted? (sources : List Source) :
    (firstOmitted? sources).map (·.2) =
      sources.findSome? fun s => s.file.deployment.bind (·.omitted) := by
  induction sources with
  | nil => rfl
  | cons s rest ih =>
      rw [firstOmitted?, List.findSome?_cons, List.findSome?_cons, ← ih]
      cases s.file.deployment.bind (·.omitted) <;> rfl

/-- Names that are all known are read one by one. -/
theorem forall₂_filterMap_ofName? {names : List String}
    (known : ∀ name ∈ names, ∃ c : Category, name ∈ c.names) :
    List.Forall₂ (fun name (c : Category) => name ∈ c.names) names
      (names.filterMap ofName?) := by
  induction names with
  | nil => exact .nil
  | cons name rest ih =>
      obtain ⟨⟨c, hname⟩, hrest⟩ := List.forall_mem_cons.mp known
      rw [List.filterMap_cons_some (ofName?_eq_some_iff.mpr hname)]
      exact .cons hname (ih hrest)

/-- Files that have no unknown name where one is read are merged. -/
theorem isMerged_of_merge {sources : List Source} {d : Deployment}
    (ordered : ∀ s ∈ sources, s.file.Ordered) (h : merge sources = .ok d) :
    IsMerged sources d := by
  rw [merge_eq, whenKnown_eq_ok] at h
  obtain ⟨known, rfl⟩ := h
  refine ⟨?_, ?_, ?_, ?_⟩
  · intro α given value hsetting
    exact ⟨_, closest_findSome? _ sources, hsetting.value_mergeSettings sources⟩
  · intro c
    rw [merged, get?_closestFields fun s hs => (ordered s hs).fields]
    exact closest_findSome? (·.fields.bind (fieldsOf? c)) sources
  · intro c
    rw [merged, get?_closestFields fun s hs => (ordered s hs).facets]
    exact closest_findSome? (·.facets.bind (fieldsOf? c)) sources
  · refine ⟨_, closest_findSome? _ sources, ?_⟩
    rw [← map_firstOmitted?, merged]
    apply forall₂_filterMap_ofName?
    intro name hname
    cases hfirst : firstOmitted? sources with
    | none => simp [hfirst] at hname
    | some found =>
        have hmem : name ∈ found.2 := by simpa [hfirst] using hname
        have hmention : (⟨found.1, "deployment", name⟩ : Mention) ∈ mentions sources := by
          rw [mentions, omittedMentions, hfirst]
          exact List.mem_append_right _ (List.mem_map_of_mem hmem)
        exact known _ hmention

/-! ## Files farther away -/

theorem findSome?_append_of_exists {α β : Type} {xs : List α} {f : α → Option β} (ys : List α)
    (h : ∃ x ∈ xs, f x ≠ none) : (xs ++ ys).findSome? f = xs.findSome? f := by
  rw [List.findSome?_append]
  cases hfound : xs.findSome? f with
  | some b => rfl
  | none =>
      obtain ⟨x, hx, hne⟩ := h
      exact absurd (List.findSome?_eq_none_iff.mp hfound x hx) hne

/-- More files only add names to be read. -/
theorem mentions_subset_append (earlier later : List Source) :
    mentions earlier ⊆ mentions (earlier ++ later) := by
  have hfields : ∀ sectionName get,
      fieldMentions sectionName get earlier ⊆ fieldMentions sectionName get (earlier ++ later) := by
    intro sectionName get
    rw [fieldMentions, fieldMentions, List.flatMap_append]
    exact List.subset_append_left _ _
  have homitted : omittedMentions earlier ⊆ omittedMentions (earlier ++ later) := by
    rw [omittedMentions, omittedMentions, firstOmitted?, firstOmitted?, List.findSome?_append]
    cases earlier.findSome? fun s => (s.file.deployment.bind (·.omitted)).map (s.path, ·) with
    | none => exact List.nil_subset _
    | some found => exact List.Subset.refl _
  intro m hm
  rw [mentions, List.mem_append, List.mem_append] at hm ⊢
  exact hm.imp (Or.imp (fun h => hfields _ _ h) fun h => hfields _ _ h) fun h => homitted h

/-- Files that are farther away keep what closer ones say about anything. -/
theorem keeps_of_merge_append {earlier later : List Source} {d : Deployment}
    (ordered : ∀ s ∈ earlier ++ later, s.file.Ordered)
    (h : merge (earlier ++ later) = .ok d) :
    ∃ old, merge earlier = .ok old ∧ Keeps earlier old d := by
  rw [merge_eq, whenKnown_eq_ok] at h
  obtain ⟨known, rfl⟩ := h
  have hearlier : ∀ s ∈ earlier, s.file.Ordered :=
    fun s hs => ordered s (List.mem_append_left _ hs)
  refine ⟨merged earlier, ?_, ?_⟩
  · rw [merge_eq, whenKnown_eq_ok]
    exact ⟨fun m hm => known m (mentions_subset_append earlier later hm), rfl⟩
  · refine ⟨?_, ?_, ?_, ?_⟩
    · intro α given value hsetting hgiven
      rw [merged, merged, hsetting.value_mergeSettings, hsetting.value_mergeSettings,
        findSome?_append_of_exists later hgiven]
    · intro c hgiven
      rw [merged, merged, get?_closestFields fun s hs => (ordered s hs).fields,
        get?_closestFields fun s hs => (hearlier s hs).fields,
        findSome?_append_of_exists later hgiven]
    · intro c hgiven
      rw [merged, merged, get?_closestFields fun s hs => (ordered s hs).facets,
        get?_closestFields fun s hs => (hearlier s hs).facets,
        findSome?_append_of_exists later hgiven]
    · intro hgiven
      rw [merged, merged, map_firstOmitted?, map_firstOmitted?,
        findSome?_append_of_exists later hgiven]

/-- Merging fails exactly when a name that is read is no category, with the error of the first such
name: the fields of all files come first, then their facets, then the list of omitted categories
that is taken. Otherwise the closest file that says anything about something decides about it, and
files that are farther away never change that. -/
theorem merge_closest_wins {sources : List Source}
    (ordered : ∀ s ∈ sources, s.file.Ordered) :
    (∀ e, merge sources = .error e ↔
      ∃ before m after, mentions sources = before ++ m :: after ∧ (∀ n ∈ before, n.Known) ∧
        ¬ m.Known ∧ e = m.error) ∧
    ((∀ m ∈ mentions sources, m.Known) → ∃ d, merge sources = .ok d ∧ IsMerged sources d) ∧
    (∀ earlier later d, sources = earlier ++ later → merge sources = .ok d →
      ∃ old, merge earlier = .ok old ∧ Keeps earlier old d) := by
  refine ⟨?_, ?_, ?_⟩
  · intro e
    rw [merge_eq, whenKnown_eq_error]
  · intro known
    have hmerge : merge sources = .ok (merged sources) := by
      rw [merge_eq, whenKnown_eq_ok]
      exact ⟨known, rfl⟩
    exact ⟨merged sources, hmerge, isMerged_of_merge ordered hmerge⟩
  · rintro earlier later d rfl hmerge
    exact keeps_of_merge_append ordered hmerge

/-- The settings of a directory; the alias in its fields takes precedence. -/
def closeFile : Source where
  path := "/data/maps/.sift.toml"
  file := {
    compiler := some { encoding := some .raw }
    fields := some [("geohash", ["near"]), ("geohashes", ["shadowed"])]
    deployment := some { omitted := some [] } }

/-- Settings farther away; the name in the list that is not taken is no category. -/
def farFile : Source where
  path := "/data/.sift.toml"
  file := {
    compiler := some { encoding := some .url, urlLengthLimit := some 4000 }
    fields := some [("creator", ["origin"]), ("geohashes", ["far"])]
    deployment := some { omitted := some ["no category"] } }

/-- Settings with an unknown name among the facets, and another one in a list that comes later. -/
def misspelledFile : Source where
  path := "/.sift.toml"
  file := { facets := some [("creator", ["origin"]), ("creatr", [])] }

theorem merge_closest_wins_three_files :
    (∀ s ∈ [closeFile, farFile], s.file.Ordered) ∧
      (∃ d, merge [closeFile, farFile] = .ok d ∧ IsMerged [closeFile, farFile] d ∧
        d.settings.encoding = .raw ∧ d.settings.urlLengthLimit = 4000 ∧
        d.fields.get? geohashes = some ["near"] ∧ d.fields.get? creator = some ["origin"] ∧
        d.omitted = []) ∧
      merge [closeFile, farFile, misspelledFile] =
        .error (.unknownCategory "/.sift.toml" "facets" "creatr") := by
  have ordered : ∀ s ∈ [closeFile, farFile, misspelledFile], s.file.Ordered := by decide
  have two : ∀ s ∈ [closeFile, farFile], s.file.Ordered := by
    intro s hs
    exact ordered s (List.mem_append_left [misspelledFile] hs)
  have known : ∀ m ∈ mentions [closeFile, farFile], m.Known := by decide
  obtain ⟨d, hmerge, hmerged⟩ := (merge_closest_wins two).2.1 known
  refine ⟨two, ⟨d, hmerge, hmerged, ?_⟩, ?_⟩
  · rw [merge_eq, whenKnown_eq_ok] at hmerge
    obtain ⟨-, rfl⟩ := hmerge
    exact ⟨rfl, rfl, rfl, rfl, rfl⟩
  · rw [(merge_closest_wins ordered).1]
    exact ⟨(mentions [closeFile, farFile, misspelledFile]).take 5,
      ⟨"/.sift.toml", "facets", "creatr"⟩, [], rfl, by decide, by decide, rfl⟩

end Config

end FacetedSearch

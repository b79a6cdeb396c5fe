import FacetedSearch.Config.File
import FacetedSearch.Proofs.Toml.Distinct
import Mathlib.Data.String.Basic

/-!
# Sections in order

Every section of fields of a settings file that is read stands in ascending order of its names, and
each name stands there once: the text gives no name twice, and reading sorts by name.
-/

namespace FacetedSearch.Config

open Toml

/-- The entries of a section in ascending order of their names, each name once. -/
def IsOrdered (entries : FieldSection) : Prop :=
  entries.Pairwise fun a b => a.1 < b.1

instance (entries : FieldSection) : Decidable (IsOrdered entries) :=
  inferInstanceAs (Decidable (List.Pairwise _ entries))

/-- A file whose sections of fields are in order, as those of a file that was read are. -/
structure File.Ordered (file : File) : Prop where
  fields : ∀ entries, file.fields = some entries → IsOrdered entries
  facets : ∀ entries, file.facets = some entries → IsOrdered entries

theorem File.ordered_iff {file : File} :
    file.Ordered ↔ IsOrdered (file.fields.getD []) ∧ IsOrdered (file.facets.getD []) := by
  have hsection : ∀ given : Option FieldSection,
      (∀ entries, given = some entries → IsOrdered entries) ↔ IsOrdered (given.getD []) := by
    rintro (_ | entries)
    · simp [IsOrdered]
    · simp
  rw [← hsection, ← hsection]
  exact ⟨fun h => ⟨h.fields, h.facets⟩, fun h => ⟨h.1, h.2⟩⟩

instance (file : File) : Decidable file.Ordered :=
  decidable_of_iff _ File.ordered_iff.symm

/-! ## Sorting by name -/

theorem precedes_trans (a b c : String) (hab : Text.precedes a b = true)
    (hbc : Text.precedes b c = true) : Text.precedes a c = true := by
  simp only [Text.precedes, decide_eq_true_eq] at *
  exact le_trans hab hbc

theorem precedes_total (a b : String) : (Text.precedes a b || Text.precedes b a) = true := by
  simp only [Text.precedes, Bool.or_eq_true, decide_eq_true_eq]
  exact le_total a b

theorem perm_sortByName {α : Type} (entries : List (String × α)) :
    (sortByName entries).Perm entries :=
  List.mergeSort_perm entries _

/-- Entries under distinct names are sorted into ascending order. -/
theorem pairwise_sortByName {α : Type} {entries : List (String × α)}
    (distinct : Distinct entries) :
    (sortByName entries).Pairwise fun a b => a.1 < b.1 := by
  have hsorted : (sortByName entries).Pairwise fun a b => Text.precedes a.1 b.1 = true := by
    apply List.pairwise_mergeSort
    · exact fun a b c => precedes_trans a.1 b.1 c.1
    · exact fun a b => precedes_total a.1 b.1
  have hne : (sortByName entries).Pairwise fun a b => a.1 ≠ b.1 := by
    have hperm := (perm_sortByName entries).map fun entry => entry.1
    rw [← List.pairwise_map]
    exact hperm.nodup_iff.mpr distinct
  apply (hsorted.and hne).imp
  rintro a b ⟨hle, hne⟩
  exact lt_of_le_of_ne (of_decide_eq_true hle) hne

theorem sortByName_of_pairwise {α : Type} {entries : List (String × α)}
    (ordered : entries.Pairwise fun a b => a.1 < b.1) : sortByName entries = entries := by
  apply List.mergeSort_of_pairwise
  apply ordered.imp
  intro a b hlt
  exact decide_eq_true (le_of_lt hlt)

/-! ## Reading -/

theorem bind_eq_ok {ε α β : Type} {x : Except ε α} {next : α → Except ε β} {b : β} :
    (x >>= next) = .ok b ↔ ∃ a, x = .ok a ∧ next a = .ok b := by
  cases x <;> simp [bind, Except.bind]

theorem map_eq_ok {ε α β : Type} {x : Except ε α} {f : α → β} {b : β} :
    x.map f = .ok b ↔ ∃ a, x = .ok a ∧ f a = b := by
  cases x <;> simp [Except.map]

theorem names_of_mapM {entries : List (String × Value)} {fields : FieldSection}
    (h : (entries.mapM fun (name, value) => (readTexts value).map (name, ·)) = .ok fields) :
    fields.map (·.1) = entries.map (·.1) := by
  induction entries generalizing fields with
  | nil =>
      obtain rfl := Except.ok.inj h
      rfl
  | cons entry entries ih =>
      rw [List.mapM_cons, bind_eq_ok] at h
      obtain ⟨first, hfirst, h⟩ := h
      obtain ⟨rest, hrest, h⟩ := bind_eq_ok.mp h
      obtain rfl := Except.ok.inj h
      obtain ⟨texts, -, rfl⟩ := map_eq_ok.mp hfirst
      rw [List.map_cons, List.map_cons, ih hrest]

theorem distinct_of_tableEntries? {v : Value} (distinct : v.HasDistinctNames)
    {entries : List (String × Value)} (h : tableEntries? v = some entries) : Distinct entries := by
  unfold tableEntries? at h
  split at h
  · obtain rfl := Option.some.inj h
    exact distinct _ rfl
  · obtain rfl := Option.some.inj h
    exact distinct_singleton _
  · cases h

theorem isOrdered_of_readFields {v : Value} (distinct : v.HasDistinctNames)
    {fields : FieldSection} (h : readFields v = .ok fields) : IsOrdered fields := by
  unfold readFields at h
  split at h
  · rename_i entries htable
    have hsorted := pairwise_sortByName (distinct_of_tableEntries? distinct htable)
    rw [← List.pairwise_map, ← names_of_mapM h, List.pairwise_map] at hsorted
    exact hsorted
  · cases h

theorem isOrdered_of_optional {entries : List (String × Value)}
    (distinct : ∀ entry ∈ entries, entry.2.HasDistinctNames) {name : String}
    {given : Option FieldSection}
    (h : optional readFields (valueOf? name entries) = .ok given) {fields : FieldSection}
    (hgiven : given = some fields) : IsOrdered fields := by
  subst hgiven
  cases hvalue : valueOf? name entries with
  | none =>
      rw [hvalue] at h
      cases h
  | some v =>
      rw [hvalue] at h
      obtain ⟨read, hread, heq⟩ := map_eq_ok.mp h
      obtain rfl := Option.some.inj heq
      exact isOrdered_of_readFields (distinct _ (mem_of_lookup hvalue)) hread

/-- The sections of fields of a file that is read are in order. -/
theorem ordered_of_parse {text : String} {file : File} (h : File.parse text = .ok file) :
    file.Ordered := by
  unfold File.parse at h
  split at h
  · rename_i entries hentries
    have distinct := (parse?_distinct hentries).2
    obtain ⟨root, -, h⟩ := bind_eq_ok.mp h
    obtain ⟨compiler, -, h⟩ := bind_eq_ok.mp h
    obtain ⟨fields, hfields, h⟩ := bind_eq_ok.mp h
    obtain ⟨facets, hfacets, h⟩ := bind_eq_ok.mp h
    obtain ⟨deployment, -, h⟩ := bind_eq_ok.mp h
    obtain rfl := Except.ok.inj h
    exact ⟨fun _ => isOrdered_of_optional distinct hfields,
      fun _ => isOrdered_of_optional distinct hfacets⟩
  · cases h

end FacetedSearch.Config

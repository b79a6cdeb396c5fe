import FacetedSearch.Proofs.Query.Reads
import FacetedSearch.State.Session

/-!
# Settings that no query reads

A session keeps more than filters: how the results are sorted, which fields come back with them,
how fine the map is and where its edges are. None of this reaches a query. Sessions that differ in
nothing else have the same query in every scope, that of such a category included, and every other
category does reach some query.
-/

namespace FacetedSearch.Query

open Category

/-- The categories that no query reads. -/
def unread : List Category :=
  [semAnnotations, seriesId, provFields, sortOrder, sortByReads, geohashLevel, east, west, north,
    south]

/-- The categories that queries are compiled from: those with clauses, the years, and the map
filter. -/
def readByQueries : List Category :=
  leading ++ trailing ++ [yearMin, yearMax, useGeohash, geohashes, geohashGroups]

theorem mem_unread_iff (c : Category) : c ∈ unread ↔ c ∉ readByQueries := by
  cases c <;> decide

theorem mem_readByQueries_of_mem_readBy {c d : Category} (hc : c ∈ leading ++ trailing)
    (hd : d ∈ readBy c) : d ∈ readByQueries := by
  have hall : ∀ c ∈ leading ++ trailing, ∀ d ∈ readBy c, d ∈ readByQueries := by
    decide
  exact hall c hc d hd

/-- Two queries that agree in everything that is read: over the same defaults, the slots of these
categories are the same. -/
structure SameReads (q r : Source) : Prop where
  defaults : q.state.defaults = r.state.defaults
  catalog : q.catalog = r.catalog
  settings : q.settings = r.settings
  scope : q.scope = r.scope
  slots : ∀ c ∈ readByQueries, q.state.get? c = r.state.get? c

namespace SameReads

variable {q r : Source} (same : SameReads q r)

include same

theorem wants_eq {c : Category} (hc : c ∈ readByQueries) : q.wants c = r.wants c :=
  Source.wants_congr same.defaults same.scope (same.slots c hc)

theorem contribution_eq {c : Category} (hc : c ∈ leading ++ trailing) :
    q.contribution c = r.contribution c := by
  have hslots : ∀ d ∈ readBy c, q.state.get? d = r.state.get? d :=
    fun d hd => same.slots d (mem_readByQueries_of_mem_readBy hc hd)
  have hwants : q.wants c = r.wants c :=
    same.wants_eq (mem_readByQueries_of_mem_readBy hc (mem_readBy_self c))
  exact Source.contribution_congr same.catalog (by rw [same.settings]) hwants fun _ => hslots

theorem groups_eq : q.state.groups = r.state.groups := by
  rw [State.groups, State.groups, same.slots geohashGroups (by decide)]

theorem wantsMap_eq : q.wantsMap = r.wantsMap := by
  have hwants : q.wants geohashes = r.wants geohashes := same.wants_eq (by decide)
  have hflag : q.state.flag useGeohash = r.state.flag useGeohash := by
    rw [State.flag, State.flag, same.slots useGeohash (by decide)]
  rw [Source.wantsMap, Source.wantsMap, State.hasGroups, State.hasGroups, same.settings, hwants,
    hflag, same.groups_eq]

theorem compile_eq : compile q = compile r :=
  compile_congr same.settings (fun _ hc => same.contribution_eq hc) same.wantsMap_eq
    fun _ => same.groups_eq

end SameReads

/-! ## Every other category is read -/

/-- A session with a year range that applies, and a cell in view. -/
def datedMap : State :=
  (State.new (.forYear 2024)).run [.setFlag .pubYear true, .setGeohashes [.plain "9q"]]

/-- A slot that changes the query of `datedMap`, for each category that is read. -/
def tellingSlot : Category → Slot
  | yearMin | yearMax => .number (Defaults.wholeNumber 2000)
  | pubYear | useGeohash => .flag false
  | dataYear => .flag true
  | geohashes => .values []
  | geohashGroups => .groups []
  | exclude => .exclusions [⟨"formatId", "image"⟩]
  | _ => .values [.plain "salmon"]

theorem compile_put_tellingSlot_ne {c : Category} (h : c ∉ unread) :
    compile { state := datedMap.put c (tellingSlot c), catalog := .standard, settings := {} } ≠
      compile { state := datedMap, catalog := .standard, settings := {} } := by
  have hall : ∀ c ∈ Category.all, c ∉ unread →
      compile { state := datedMap.put c (tellingSlot c), catalog := .standard, settings := {} } ≠
        compile { state := datedMap, catalog := .standard, settings := {} } := by
    decide +kernel
  exact hall c (mem_all c) h

/-- Some categories are all among the unread ones exactly when any two sessions over the same
defaults that differ in nothing but their slots have the same query: the same text, cut or not, for
every catalog and all settings, and in every scope. -/
theorem compile_ignores_iff (free : List Category) :
    free ⊆ unread ↔
      ∀ s t : State, s.defaults = t.defaults → (∀ c ∉ free, s.get? c = t.get? c) →
        ∀ (catalog : Catalog) (settings : Settings) (scope : Option Category),
          compile { state := s, catalog, settings, scope } =
            compile { state := t, catalog, settings, scope } := by
  constructor
  · intro hfree s t defaults slots catalog settings scope
    have hslots : ∀ c ∈ readByQueries, s.get? c = t.get? c := fun c hc =>
      slots c fun hmem => (mem_unread_iff c).mp (hfree hmem) hc
    exact SameReads.compile_eq ⟨defaults, rfl, rfl, rfl, hslots⟩
  · intro ignored c hc
    by_contra hread
    have hothers : ∀ d ∉ free, (datedMap.put c (tellingSlot c)).get? d = datedMap.get? d := by
      intro d hd
      rw [State.get?_put, if_neg]
      rintro rfl
      exact hd hc
    exact compile_put_tellingSlot_ne hread
      (ignored _ datedMap (State.defaults_put _ _ _) hothers .standard {} none)

/-- `datedMap` with the map moved to the north, and with another order of the results. -/
def movedMap : State :=
  datedMap.run
    [.set north (.number (Defaults.wholeNumber 70)), .set sortOrder (.text "title+asc")]

theorem compile_ignores_iff_movedMap :
    movedMap.currentFilters = [pubYear, north, geohashes, geohashGroups] ∧
      datedMap.currentFilters = [pubYear, geohashes, geohashGroups] ∧
      ∀ scope : Option Category,
        compile { state := movedMap, catalog := .standard, settings := {}, scope } =
          compile { state := datedMap, catalog := .standard, settings := {}, scope } := by
  have hslots : ∀ c ∉ unread, movedMap.get? c = datedMap.get? c := by
    have hall : ∀ c ∈ Category.all, c ∉ unread → movedMap.get? c = datedMap.get? c := by
      decide +kernel
    exact fun c hc => hall c (mem_all c) hc
  refine ⟨by decide +kernel, by decide +kernel, ?_⟩
  exact (compile_ignores_iff unread).mp (List.Subset.refl _) movedMap datedMap rfl hslots
    .standard {}

end FacetedSearch.Query

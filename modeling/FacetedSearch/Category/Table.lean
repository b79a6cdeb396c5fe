import FacetedSearch.Category

/-!
# Tables over categories

A table holds a value for some of the categories. Two tables with the same value in every category
are the same table, and the categories of a table are listed in their order.
-/

namespace FacetedSearch.Category

/-- A value for some of the categories. -/
@[ext] structure Table (α : Type) where
  /-- The value of a category, when it has one. -/
  get? : Category → Option α

namespace Table

variable {α β : Type}

/-- The table without values. -/
def empty : Table α where
  get? _ := none

/-- Set the value of one category. -/
def insert (t : Table α) (c : Category) (a : α) : Table α where
  get? d := if d = c then some a else t.get? d

/-- Take the value of one category away. -/
def erase (t : Table α) (c : Category) : Table α where
  get? d := if d = c then none else t.get? d

/-- The table has a value for the category. -/
def contains (t : Table α) (c : Category) : Bool :=
  (t.get? c).isSome

/-- The categories with a value, in order. -/
def categories (t : Table α) : List Category :=
  all.filter t.contains

/-- The categories with their values, in order. -/
def entries (t : Table α) : List (Category × α) :=
  all.filterMap fun c => (t.get? c).map (c, ·)

/-- The table of a list of entries; a later entry replaces an earlier one of its category. -/
def ofList (entries : List (Category × α)) : Table α :=
  entries.foldl (fun t (c, a) => t.insert c a) empty

/-- Insert each entry, one after another. -/
def insertAll (t : Table α) (entries : List (Category × α)) : Table α :=
  entries.foldl (fun t (c, a) => t.insert c a) t

/-- Keep the value a category has, and give it one if it has none. -/
def insertIfNew (t : Table α) (c : Category) (a : α) : Table α :=
  if t.contains c then t else t.insert c a

@[simp] theorem get?_empty (c : Category) : (empty : Table α).get? c = none := rfl

theorem get?_insert (t : Table α) (c d : Category) (a : α) :
    (t.insert c a).get? d = if d = c then some a else t.get? d := rfl

@[simp] theorem get?_insert_self (t : Table α) (c : Category) (a : α) :
    (t.insert c a).get? c = some a := by
  simp [insert]

theorem get?_erase (t : Table α) (c d : Category) :
    (t.erase c).get? d = if d = c then none else t.get? d := rfl

theorem mem_categories {t : Table α} {c : Category} :
    c ∈ t.categories ↔ (t.get? c).isSome := by
  simp [categories, contains, mem_all]

end Table

end FacetedSearch.Category

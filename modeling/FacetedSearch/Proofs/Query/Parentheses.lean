import FacetedSearch.Proofs.Clause.Value
import FacetedSearch.Proofs.Geohash.Grouping
import FacetedSearch.Proofs.Text.Parentheses
import FacetedSearch.Query

/-!
# Parentheses of a query in a URL

A value in a URL is inert: whatever it held, each parenthesis left in it stands behind a backslash,
and it has no other backslashes. So the parentheses of a query are those of its clauses, which open
and close them around several members. Names of fields and cells go into a query as they are; as
long as they hold no parentheses and no backslashes, every query is well parenthesized, and a map
clause that is cut as well.
-/

namespace FacetedSearch

open Text

/-! ## Values -/

namespace Clause

/-- Escaping puts a backslash in front of every parenthesis. -/
theorem inert_escapeChars {s : List Char} (h : '\\' ∉ s) : Inert (escapeChars s) := by
  rw [escapeChars_eq_guardAll]
  induction s with
  | nil => exact Inert.nil
  | cons c s ih =>
      rw [List.mem_cons, not_or] at h
      rw [guardAll]
      split
      · exact (ih h.2).escaped c
      · rename_i hfree
        have hparenthesis : ∀ d, [d] ∈ syntaxSpellings → c ≠ d := by
          rintro d hd rfl
          exact hfree ⟨[c], hd, List.prefix_append [c] s⟩
        refine (ih h.2).plain ⟨hparenthesis '(' (by decide), hparenthesis ')' (by decide), ?_⟩
        exact fun hc => h.1 hc.symm

theorem inert_encodeEscaped_url (v : String) : Inert (Encoding.url.encodeEscaped v).toList := by
  rw [Encoding.encodeEscaped, Encoding.encode, toList_escape, toList_percentEncode]
  exact inert_escapeChars (Encoding.backslash_not_mem_percentChars v.toList)

section Options

variable {options : ClauseOptions} (url : options.encoding = .url)

include url

theorem inert_formatValue {value term : String} (h : formatValue options value = some term) :
    Inert term.toList := by
  obtain ⟨-, rfl⟩ := formatValue_eq_some.mp h
  have hframe : PlainText (frame options (trim value)) := by
    unfold frame
    rw [url]
    split
    · decide
    · split <;> decide
  rw [url, String.toList_append, String.toList_append]
  exact (hframe.inert.append (inert_encodeEscaped_url (trim value))).append hframe.inert

theorem closed_of_mem_formatValues {values : List FilterValue} :
    ∀ term ∈ formatValues options values, ClosedText term := by
  intro term hterm
  obtain ⟨value, -, hformat⟩ := List.mem_filterMap.mp hterm
  exact (inert_formatValue url hformat).closed

end Options

/-! ## Clauses -/

theorem closed_separator (operator : Operator) : ClosedText operator.separator := by
  cases operator <;> exact PlainText.closed (by decide)

theorem separator_ne_empty (operator : Operator) : operator.separator ≠ "" := by
  cases operator <;> decide

theorem closed_group (operator : Operator) {members : List String}
    (h : ∀ m ∈ members, ClosedText m) : ClosedText (group operator members) := by
  rcases members with _ | ⟨first, _ | ⟨second, rest⟩⟩
  · exact ClosedText.empty
  · exact h first List.mem_cons_self
  · exact (closed_separator operator).several (separator_ne_empty operator) h

theorem closed_field {field value : String} (hfield : PlainText field) (hvalue : ClosedText value) :
    ClosedText (field ++ ":" ++ value) :=
  (hfield.closed.append (PlainText.closed (by decide))).append hvalue

theorem closed_qualified {field value : String} (hfield : PlainText field)
    (hvalue : ClosedText value) : ClosedText (qualified field value) := by
  rw [qualified]
  split
  · exact ClosedText.empty
  · exact closed_field hfield hvalue

theorem closed_oneField {options : ClauseOptions} (url : options.encoding = .url) {field : String}
    (hfield : PlainText field) (values : List FilterValue) :
    ClosedText (oneField options field values) :=
  closed_qualified hfield (closed_group _ (closed_of_mem_formatValues url))

/-- The clauses of several fields make up a group. -/
theorem closed_manyFields {options : ClauseOptions} (url : options.encoding = .url)
    {first second : String} {rest : List String}
    (hfields : ∀ field ∈ first :: second :: rest, PlainText field) (values : List FilterValue) :
    ClosedText (manyFields options (first :: second :: rest) values) := by
  have hencoding : (manyFieldOptions (first :: second :: rest) options).encoding = .url := by
    rw [manyFieldOptions]
    split <;> exact url
  have hvalue : ClosedText (group .or
      (formatValues (manyFieldOptions (first :: second :: rest) options) values)) :=
    closed_group _ (closed_of_mem_formatValues hencoding)
  unfold manyFields
  dsimp only
  split
  · exact ClosedText.empty
  · have hclauses := List.forall_mem_map.mpr fun field hfield =>
      closed_qualified (hfields field hfield) hvalue
    exact (closed_separator _).several (separator_ne_empty _) hclauses

theorem closed_ofFields {options : ClauseOptions} (url : options.encoding = .url)
    {fields : List String} (hfields : ∀ field ∈ fields, PlainText field)
    (values : List FilterValue) : ClosedText (ofFields options fields values) := by
  rcases fields with _ | ⟨first, _ | ⟨second, rest⟩⟩
  · exact ClosedText.empty
  · exact closed_oneField url (hfields first List.mem_cons_self) values
  · exact closed_manyFields url hfields values

end Clause

/-! ## Numbers -/

namespace Decimal

theorem isPlain_of_isDigit {c : Char} (h : c.isDigit = true) : IsPlain c := by
  refine ⟨?_, ?_, ?_⟩ <;> rintro rfl <;> exact absurd h (by decide)

theorem plainText_toString (n : Nat) : PlainText (toString n) := by
  intro c hc
  have hdigit : c ∈ Nat.toDigits 10 n := by simpa using hc
  exact isPlain_of_isDigit (Nat.isDigit_of_mem_toDigits (by decide) (by decide) hdigit)

theorem plainText_zeros (n : Nat) : PlainText (zeros n) := by
  apply plainText_ofList
  intro c hc
  rw [List.eq_of_mem_replicate hc]
  decide

theorem plainText_positionalText (wholePoint : Bool) {digits : List Char}
    (h : ∀ c ∈ digits, IsPlain c) (k : Int) :
    PlainText (positionalText wholePoint digits k) := by
  have htake : ∀ n, PlainText (String.ofList (digits.take n)) := fun n =>
    plainText_ofList fun c hc => h c (List.mem_of_mem_take hc)
  have hdrop : ∀ n, PlainText (String.ofList (digits.drop n)) := fun n =>
    plainText_ofList fun c hc => h c (List.mem_of_mem_drop hc)
  have hdigits : PlainText (String.ofList digits) := plainText_ofList h
  have hpoint : PlainText (if wholePoint then ".0" else "") := by
    cases wholePoint <;> decide
  unfold positionalText
  dsimp only
  split
  · exact (PlainText.append (by decide) (plainText_zeros _)).append hdigits
  · split
    · exact (hdigits.append (plainText_zeros _)).append hpoint
    · exact ((htake _).append (by decide)).append (hdrop _)

/-- A number in a query is written without parentheses. -/
theorem plainText_toText (x : Binary64) : PlainText x.toText := by
  cases x with
  | finite x =>
      have hsign : PlainText (if x.negative then "-" else "") := by
        cases x.negative <;> decide
      refine PlainText.append hsign ?_
      simp only [Layout.plain, Bool.or_true, if_true]
      exact plainText_positionalText false (plainText_toString _) _
  | infinite negative => cases negative <;> decide
  | notANumber => decide

end Decimal

/-! ## The map clause -/

namespace Geohash

/-- The text holds ASCII letters and digits only. -/
def IsAlphanumeric (text : String) : Prop :=
  ∀ c ∈ text.toList, isAsciiDigit c = true ∨ isAsciiLetter c = true

instance (text : String) : Decidable (IsAlphanumeric text) :=
  List.decidableBAll _ text.toList

theorem IsAlphanumeric.plainText {text : String} (h : IsAlphanumeric text) : PlainText text := by
  intro c hc
  have hmark : ∀ d, isAsciiDigit d = false → isAsciiLetter d = false → c ≠ d := by
    rintro d hdigit hletter rfl
    rcases h c hc with hc | hc
    · simp [hdigit] at hc
    · simp [hletter] at hc
  exact ⟨hmark '(' (by decide) (by decide), hmark ')' (by decide) (by decide),
    hmark '\\' (by decide) (by decide)⟩

theorem IsAlphanumeric.parentCell {cell : String} (h : IsAlphanumeric cell) :
    IsAlphanumeric (parentCell cell) := by
  intro c hc
  rw [Geohash.parentCell, String.toList_ofList] at hc
  exact h c (List.dropLast_subset _ hc)

/-- What is asked for of a group is made of its cells. -/
theorem isAlphanumeric_of_mem_target {g : Group} (h : ∀ cell ∈ g.cells, IsAlphanumeric cell)
    {cell : String} (hcell : cell ∈ g.target.cells) : IsAlphanumeric cell := by
  rw [Group.target] at hcell
  split at hcell
  · rename_i parent hparent
    rw [Group.parent?] at hparent
    split at hparent
    · obtain ⟨first, hfirst, rfl⟩ := Option.map_eq_some_iff.mp hparent
      rw [List.mem_singleton.mp hcell]
      exact (h first (List.mem_of_head? hfirst)).parentCell
    · cases hparent
  · exact h cell hcell

theorem closed_separator : ClosedText separator :=
  PlainText.closed (by decide)

theorem plainText_header (l : LevelCells) : PlainText l.header :=
  (PlainText.append (by decide) (Decimal.plainText_toString l.level)).append (by decide)

theorem closed_render {l : LevelCells} (filled : l.cells ≠ [])
    (h : ∀ cell ∈ l.cells, PlainText cell) : ClosedText l.render := by
  have hcells : ∀ cell ∈ l.cells, ClosedText cell := fun cell hcell => (h cell hcell).closed
  have hheader := (plainText_header l).closed
  rw [LevelCells.render]
  split
  · rename_i only honly
    exact hheader.append (hcells only (honly ▸ List.mem_cons_self))
  · rename_i hseveral
    rcases hlist : l.cells with _ | ⟨first, _ | ⟨second, rest⟩⟩
    · exact absurd hlist filled
    · exact absurd hlist (hseveral first)
    · rw [hlist] at hcells
      have hgroup := hheader.append (closed_separator.several (by decide) hcells)
      simpa only [String.append_assoc] using hgroup

theorem closed_renderLevels {levels : List LevelCells} (filled : ∀ l ∈ levels, l.cells ≠ [])
    (h : ∀ l ∈ levels, ∀ cell ∈ l.cells, PlainText cell) : ClosedText (renderLevels levels) := by
  have hlevels : ∀ l ∈ levels, ClosedText l.render :=
    fun l hl => closed_render (filled l hl) (h l hl)
  rcases levels with _ | ⟨first, _ | ⟨second, rest⟩⟩
  · exact ClosedText.empty
  · exact hlevels first List.mem_cons_self
  · exact closed_separator.several (by decide) (List.forall_mem_map.mpr hlevels)

/-- A map clause is closed wherever it is cut: a level left without a cell is left out. -/
theorem closed_mapClause {groups : List Group}
    (h : ∀ g ∈ groups, ∀ cell ∈ g.cells, IsAlphanumeric cell) (budget : Option Budget) :
    ClosedText (mapClause groups budget).text := by
  rw [mapClause_eq]
  apply closed_renderLevels
  · rw [budgetedLevels_eq]
    exact takeLevels_filled budget _ 0 (queryLevels groups)
  · intro l hl cell hcell
    have htaken := mem_levelCells_of_mem hl hcell
    rw [budgetedLevels_eq] at htaken
    have hasked := (levelCells_takeLevels_isPrefix budget _ 0 (queryLevels groups)).subset htaken
    obtain ⟨g, hg, -, htarget⟩ := mem_levelCells_queryLevels.mp hasked
    exact (isAlphanumeric_of_mem_target (h g hg) htarget).plainText

end Geohash

/-! ## Queries -/

namespace Query

open Category

/-- The names that go into a query as they are hold no parentheses and no backslashes. -/
structure Source.PlainNames (q : Source) : Prop where
  fields : ∀ c fields, q.catalog.fields.get? c = some fields → ∀ field ∈ fields, PlainText field
  exclusions : ∀ e ∈ q.state.exclusions, PlainText e.field
  /-- The map clause is written from the groups, whatever cells they come from. -/
  cells : ∀ g ∈ q.state.groups, ∀ cell ∈ g.cells, Geohash.IsAlphanumeric cell

namespace Source

variable {q : Source}

/-- Where the groups follow the cells, only the cells count. -/
theorem isAlphanumeric_of_grouped (grouped : q.state.groups = Geohash.groupCells q.state.cells)
    (h : ∀ cell ∈ q.state.cells, Geohash.IsAlphanumeric cell) :
    ∀ g ∈ q.state.groups, ∀ cell ∈ g.cells, Geohash.IsAlphanumeric cell := by
  rw [grouped]
  exact fun g hg cell hcell => h cell (Geohash.mem_of_mem_groupCells hg hcell)

theorem plainText_name (c : Category) : PlainText c.name := by
  cases c <;> decide

theorem PlainNames.fieldsOf (h : q.PlainNames) (c : Category) :
    ∀ field ∈ q.catalog.fieldsOf c, PlainText field := by
  rw [Catalog.fieldsOf]
  split
  · rename_i hfields
    exact h.fields c _ hfields
  · rw [List.forall_mem_singleton]
    exact plainText_name c

theorem PlainNames.fieldOf (h : q.PlainNames) (c : Category) :
    PlainText (q.catalog.fieldOf c) := by
  rw [Catalog.fieldOf]
  split
  · rename_i hfields
    exact h.fields c _ hfields _ List.mem_cons_self
  · exact plainText_name c

theorem plainText_years {first last : String} (h : q.years? = some (first, last)) :
    PlainText first ∧ PlainText last := by
  simp only [years?, Option.bind_eq_bind, Option.bind_eq_some_iff, Option.pure_def,
    Option.some.injEq, Prod.mk.injEq] at h
  obtain ⟨x, -, y, -, rfl, rfl⟩ := h
  exact ⟨Decimal.plainText_toText x, Decimal.plainText_toText y⟩

theorem plainText_yearRange {first last : String} (hfirst : PlainText first)
    (hlast : PlainText last) : PlainText (yearRange first last) :=
  ((((PlainText.append (by decide) hfirst).append (by decide)).append hlast).append (by decide))

theorem PlainNames.coverageFields (h : q.PlainNames) :
    PlainText (Query.coverageFields (q.catalog.fieldsOf dataYear)).1 ∧
      PlainText (Query.coverageFields (q.catalog.fieldsOf dataYear)).2 := by
  have hfields := h.fieldsOf dataYear
  unfold Query.coverageFields
  split
  · rename_i heq
    rw [heq] at hfields
    exact ⟨hfields _ (by simp), hfields _ (by simp)⟩
  · decide

section Clauses

variable (names : q.PlainNames) (url : q.settings.encoding = .url)

include names url

theorem closed_annotationClause : ClosedText q.annotationClause :=
  Clause.closed_oneField url (names.fieldOf _) _

theorem closed_identifierClause : ClosedText q.identifierClause := by
  unfold identifierClause
  split
  · exact Clause.closed_ofFields url (names.fieldsOf _) _
  · dsimp only
    split
    · exact ClosedText.empty
    · rw [url]
      exact (((names.fieldOf _).append (by decide)).closed.append
        (Clause.inert_encodeEscaped_url _).closed).append (PlainText.closed (by decide))
  · exact ClosedText.empty

theorem closed_presenceClause (c : Category) : ClosedText (q.presenceClause c) := by
  unfold presenceClause
  split
  · exact Clause.closed_oneField url (names.fieldOf c) _
  · exact ((names.fieldOf c).append (by decide)).closed
  · exact ClosedText.empty

theorem closed_anyFieldClause (c : Category) : ClosedText (q.anyFieldClause c) :=
  Clause.closed_ofFields url (names.fieldsOf c) _

theorem closed_taxonClause : ClosedText q.taxonClause := by
  apply ClosedText.join
  rw [List.forall_mem_map]
  exact fun term _ => Clause.closed_ofFields url (names.fieldsOf taxon) [term]

omit url in
theorem closed_pubYearClause : ClosedText q.pubYearClause := by
  unfold pubYearClause
  split
  · rename_i first last hyears
    obtain ⟨hfirst, hlast⟩ := plainText_years hyears
    have hrange := (plainText_yearRange hfirst hlast).closed
    split
    · apply Clause.closed_group
      rw [List.forall_mem_map]
      exact fun field hfield => Clause.closed_field (names.fieldsOf pubYear field hfield) hrange
    · exact ClosedText.empty
  · exact ClosedText.empty

omit url in
theorem closed_dataYearClause : ClosedText q.dataYearClause := by
  unfold dataYearClause
  split
  · rename_i first last hyears
    obtain ⟨hfirst, hlast⟩ := plainText_years hyears
    obtain ⟨hbegin, hend⟩ := names.coverageFields
    split
    · have hfrom : PlainText ((coverageFields (q.catalog.fieldsOf dataYear)).1 ++ ":[" ++ first ++
          "-01-01T00:00:00Z TO *] AND ") :=
        ((hbegin.append (by decide)).append hfirst).append (by decide)
      have huntil : PlainText ((coverageFields (q.catalog.fieldsOf dataYear)).2 ++ ":[* TO " ++
          last ++ "-12-31T00:00:00Z]") :=
        ((hend.append (by decide)).append hlast).append (by decide)
      simpa only [String.append_assoc] using (hfrom.append huntil).closed
    · exact ClosedText.empty
  · exact ClosedText.empty

theorem closed_dataSourceClause : ClosedText q.dataSourceClause :=
  Clause.closed_oneField url (names.fieldOf _) _

theorem closed_excludeClauses : ∀ clause ∈ q.excludeClauses, ClosedText clause := by
  intro clause hclause
  obtain ⟨e, he, hformat⟩ := List.mem_filterMap.mp hclause
  obtain ⟨value, hvalue, rfl⟩ := Option.map_eq_some_iff.mp hformat
  exact Clause.closed_field (PlainText.append (by decide) (names.exclusions e he))
    (Clause.inert_formatValue url hvalue).closed

omit names in
theorem closed_criteriaClauses : ∀ clause ∈ q.criteriaClauses, ClosedText clause := by
  unfold criteriaClauses
  rw [List.forall_mem_map, url]
  exact fun value _ => (Clause.inert_encodeEscaped_url value).closed

omit names in
theorem closed_fullTextClauses : ∀ clause ∈ q.fullTextClauses, ClosedText clause :=
  Clause.closed_of_mem_formatValues url

theorem closed_eachValueClauses (c : Category) :
    ∀ clause ∈ q.eachValueClauses c, ClosedText clause := by
  unfold eachValueClauses
  rw [List.forall_mem_map]
  exact fun value hvalue =>
    Clause.closed_field (names.fieldOf c) (Clause.closed_of_mem_formatValues url value hvalue)

theorem closed_allValuesClause (c : Category) : ClosedText (q.allValuesClause c) := by
  unfold allValuesClause
  split
  · exact Clause.closed_ofFields url (names.fieldsOf c) _
  · split
    · rename_i hvalue
      exact Clause.closed_field (names.fieldOf c) (Clause.inert_formatValue url hvalue).closed
    · exact ClosedText.empty
  · exact ClosedText.empty

/-- Every clause of every category is closed. -/
theorem closed_clausesOf (c : Category) : ∀ clause ∈ q.clausesOf c, ClosedText clause := by
  cases c
  case annotations => exact List.forall_mem_singleton.mpr (closed_annotationClause names url)
  case identifier => exact List.forall_mem_singleton.mpr (closed_identifierClause names url)
  case resourceMap | documents =>
    exact List.forall_mem_singleton.mpr (closed_presenceClause names url _)
  case username | idOnly =>
    exact List.forall_mem_singleton.mpr (closed_anyFieldClause names url _)
  case taxon => exact List.forall_mem_singleton.mpr (closed_taxonClause names url)
  case pubYear => exact List.forall_mem_singleton.mpr (closed_pubYearClause names)
  case dataYear => exact List.forall_mem_singleton.mpr (closed_dataYearClause names)
  case dataSource => exact List.forall_mem_singleton.mpr (closed_dataSourceClause names url)
  case exclude => exact closed_excludeClauses names url
  case additionalCriteria => exact closed_criteriaClauses url
  case fullText => exact closed_fullTextClauses url
  case dataAttribute | formatType | rightsHolder | submitter =>
    exact closed_eachValueClauses names url _
  case spatial | creator =>
    exact List.forall_mem_singleton.mpr (closed_allValuesClause names url _)
  all_goals exact List.forall_mem_nil _

theorem closed_contribution (c : Category) : ∀ clause ∈ q.contribution c, ClosedText clause := by
  rw [contribution]
  split
  · exact fun clause hclause => closed_clausesOf names url c clause (List.mem_of_mem_filter hclause)
  · exact List.forall_mem_nil _

theorem closed_clauses : ∀ clause ∈ q.clauses, ClosedText clause := by
  intro clause hclause
  rw [clauses, List.mem_append, List.mem_append] at hclause
  rcases hclause with (hleading | hmap) | htrailing
  · obtain ⟨c, -, hc⟩ := List.mem_flatMap.mp hleading
    exact closed_contribution names url c clause hc
  · rw [List.mem_singleton.mp (List.mem_of_mem_filter hmap), mapClause]
    split
    · exact Geohash.closed_mapClause names.cells _
    · exact ClosedText.empty
  · obtain ⟨c, -, hc⟩ := List.mem_flatMap.mp htrailing
    exact closed_contribution names url c clause hc

end Clauses

end Source

/-- Where names are plain, every query in a URL is well parenthesized, whatever its scope and
however its map filter is cut, and no value has a step of its own in it. -/
theorem wellParenthesized_compile {q : Source} (names : q.PlainNames)
    (url : q.settings.encoding = .url) :
    WellParenthesized (compile q).text ∧
      (∀ value, ∀ step ∈ steps false (Encoding.url.encodeEscaped value).toList, step = none) ∧
      ∀ options value term, options.encoding = .url →
        Clause.formatValue options value = some term →
          ∀ step ∈ steps false term.toList, step = none := by
  have hinert : ∀ s : List Char, Inert s → ∀ step ∈ steps false s, step = none := by
    intro s hs step hstep
    rw [hs.steps_eq] at hstep
    exact List.eq_of_mem_replicate hstep
  refine ⟨?_, ?_, ?_⟩
  · have hseparator : ClosedText separator := PlainText.closed (by decide)
    exact (hseparator.intercalate (Source.closed_clauses names url)).wellParenthesized
  · intro value
    exact hinert _ (Clause.inert_encodeEscaped_url value)
  · intro options value term hurl hformat
    exact hinert _ (Clause.inert_formatValue hurl hformat)

/-- The fields of the standard index are plain. -/
theorem plainText_standard_fields (c : Category) (fields : List String)
    (h : Catalog.standard.fields.get? c = some fields) : ∀ field ∈ fields, PlainText field := by
  have hall : ∀ c ∈ Category.all, ∀ field ∈ (Catalog.standard.fields.get? c).getD [],
      PlainText field := by
    decide +kernel
  have hfields := hall c (mem_all c)
  rwa [h] at hfields

/-- A term that tries to open and close groups, in front of a map filter that is cut. -/
def hostileTerm : Source where
  state := (((State.new (.forYear 2024)).put fullText (.values [.plain "a)(\\"])).put geohashes
    (.values [.plain "9q8yy", .plain "9q8yz", .plain "9q8z0"])).regroup
  catalog := .standard
  settings := { disableQueryPosts := true, geohashQueryLimit := 30 }

theorem wellParenthesized_compile_hostileTerm :
    hostileTerm.PlainNames ∧ hostileTerm.settings.encoding = .url ∧
      compile hostileTerm =
        { text := "a\\)\\(%5C AND geohash_5:(9q8yy OR 9q8yz)", truncated := true } ∧
      WellParenthesized (compile hostileTerm).text := by
  have names : hostileTerm.PlainNames := {
    fields := plainText_standard_fields
    exclusions := by decide +kernel
    cells := Source.isAlphanumeric_of_grouped (by decide +kernel) (by decide +kernel) }
  exact ⟨names, rfl, by decide +kernel, (wellParenthesized_compile names rfl).1⟩

end Query

end FacetedSearch

import FacetedSearch.Proofs.Clause.Formula
import FacetedSearch.Proofs.Query.Scope
import FacetedSearch.Proofs.Text.Join
import Mathlib.Data.List.DropRight

/-!
# Taxonomic terms side by side

The terms of the taxon filter stand next to each other without an operator, so each of them has to
set itself apart. Over several ranks a term is a group in parentheses, and every rank stands behind
the opening one or behind the blank of an operator. Over a single rank a term has no parentheses:
the rank of a second term then stands right behind the first term, and the two run together.
-/

namespace FacetedSearch.Query

open Category Clause

/-! ## Colons behind fields -/

/-- A text that ends where a name can start: it is empty or ends in an opening parenthesis or in a
blank. -/
def EndsOpen (text : List Char) : Prop :=
  ∀ c ∈ text.getLast?, c = '(' ∨ c = ' '

/-- A text ends in one of the fields: its last run of name characters is the field, and the run
stands where a name can start. -/
structure EndsInField (inName : Char → Bool) (fields : List String) (text : List Char) : Prop where
  run : ∃ field ∈ fields, text.rtakeWhile inName = field.toList
  apart : EndsOpen (text.rdropWhile inName)

/-- Every colon of a text stands behind one of the fields. What is in front of the text counts as
well. -/
def ColonsBehindFields (inName : Char → Bool) (fields : List String) (front text : List Char) :
    Prop :=
  ∀ before after, text = before ++ ':' :: after → EndsInField inName fields (front ++ before)

/-- The marks around names are no characters of names. -/
structure SetsNamesApart (inName : Char → Bool) : Prop where
  opening : inName '(' = false
  blank : inName ' ' = false
  colon : inName ':' = false

section Colons

variable {inName : Char → Bool} {fields : List String} {front s t : List Char}

theorem colonsBehindFields_of_not_mem (h : ':' ∉ s) : ColonsBehindFields inName fields front s := by
  rintro before after rfl
  exact absurd (List.mem_append_right before List.mem_cons_self) h

theorem ColonsBehindFields.append (hs : ColonsBehindFields inName fields front s)
    (ht : ColonsBehindFields inName fields (front ++ s) t) :
    ColonsBehindFields inName fields front (s ++ t) := by
  intro before after hsplit
  rcases List.append_eq_append_iff.mp hsplit with ⟨mid, rfl, hmid⟩ | ⟨mid, rfl, hmid⟩
  · rw [← List.append_assoc]
    exact ht mid after hmid
  · cases mid with
    | nil =>
        rw [List.nil_append] at hmid
        have hstart := ht [] after (by rw [List.nil_append, hmid])
        simpa using hstart
    | cons c mid =>
        obtain ⟨rfl, -⟩ := List.cons.inj hmid
        exact hs before mid rfl

/-- Texts that keep to the fields wherever they stand do so side by side. -/
theorem ColonsBehindFields.join {texts : List String}
    (h : ∀ text ∈ texts, ∀ front, ColonsBehindFields inName fields front text.toList)
    (front : List Char) : ColonsBehindFields inName fields front (String.join texts).toList := by
  induction texts generalizing front with
  | nil => exact colonsBehindFields_of_not_mem (by simp)
  | cons text texts ih =>
      rw [List.forall_mem_cons] at h
      rw [String.join_cons, String.toList_append]
      exact (h.1 front).append (ih h.2 _)

/-- Behind a text that ends otherwise, a run of name characters is the last run. -/
theorem rdropWhile_append_name (hname : ∀ c ∈ s, inName c = true)
    (hfront : ∀ c ∈ front.getLast?, inName c = false) :
    (front ++ s).rdropWhile inName = front ∧ (front ++ s).rtakeWhile inName = s := by
  have hreverse : ∀ c ∈ s.reverse, inName c = true := fun c hc => hname c (List.mem_reverse.mp hc)
  rw [List.rdropWhile, List.rtakeWhile, List.reverse_append,
    List.dropWhile_append_of_pos hreverse, List.takeWhile_append_of_pos hreverse]
  rw [← List.head?_reverse] at hfront
  cases hlist : front.reverse with
  | nil => simp_all
  | cons c rest =>
      have hc : inName c = false := hfront c (by rw [hlist]; rfl)
      rw [List.dropWhile_cons_of_neg (by simp [hc]), List.takeWhile_cons_of_neg (by simp [hc]),
        ← hlist]
      simp

variable (apart : SetsNamesApart inName) (names : ∀ field ∈ fields, ∀ c ∈ field.toList,
  inName c = true)

include apart names

theorem colon_not_mem_field {field : String} (hfield : field ∈ fields) : ':' ∉ field.toList := by
  intro hcolon
  have hname := names field hfield ':' hcolon
  rw [apart.colon] at hname
  exact Bool.false_ne_true hname

/-- Where a name can start, a field with a term behind it keeps to the fields. -/
theorem colonsBehindFields_field {field term : String} (hfield : field ∈ fields)
    (hterm : ':' ∉ term.toList) (hfront : EndsOpen front) :
    ColonsBehindFields inName fields front (field ++ ":" ++ term).toList := by
  intro before after hsplit
  have hbefore : field.toList = before := by
    rw [String.toList_append, String.toList_append, List.append_assoc] at hsplit
    exact ((List.append_cons_inj_of_notMem (colon_not_mem_field apart names hfield) hterm).mp
      hsplit).1
  have hstop : ∀ c ∈ front.getLast?, inName c = false := by
    intro c hc
    rcases hfront c hc with rfl | rfl
    · exact apart.opening
    · exact apart.blank
  obtain ⟨hdrop, htake⟩ := rdropWhile_append_name (names field hfield) hstop
  rw [← hbefore]
  exact ⟨⟨field, hfield, htake⟩, by rwa [hdrop]⟩

/-- Behind an opening parenthesis or an operator a field keeps to the fields wherever it stands. -/
theorem colonsBehindFields_opened {field term opening : String} (hfield : field ∈ fields)
    (hterm : ':' ∉ term.toList) (hopening : opening = "(" ∨ opening = " OR ")
    (front : List Char) :
    ColonsBehindFields inName fields front (opening ++ (field ++ ":" ++ term)).toList := by
  have hplain : ':' ∉ opening.toList := by
    rcases hopening with rfl | rfl <;> decide
  have hopen : EndsOpen (front ++ opening.toList) := by
    rcases hopening with rfl | rfl <;> simp [EndsOpen]
  rw [String.toList_append]
  exact (colonsBehindFields_of_not_mem hplain).append
    (colonsBehindFields_field apart names hfield hterm hopen)

end Colons

/-! ## The clause of a term -/

/-- The clause of one written term. -/
def termClause (fields : List String) (term : String) : String :=
  group .or (fields.map (· ++ ":" ++ term))

/-- The clause of a term over several fields, in pieces with one field each. -/
theorem termClause_of_several (first second : String) (rest : List String) (term : String) :
    termClause (first :: second :: rest) term =
      String.join (("(" ++ (first ++ ":" ++ term)) ::
        ((second :: rest).map fun field => " OR " ++ (field ++ ":" ++ term)) ++ [")"]) := by
  have hgroup : termClause (first :: second :: rest) term =
      "(" ++ " OR ".intercalate ((first :: second :: rest).map (· ++ ":" ++ term)) ++ ")" := rfl
  rw [hgroup, List.map_cons, Text.intercalate_cons, List.map_map]
  simp [String.append_assoc, Function.comp_def]

section Terms

variable {inName : Char → Bool} {fields : List String} {term : String}
  (apart : SetsNamesApart inName)
  (names : ∀ field ∈ fields, ∀ c ∈ field.toList, inName c = true) (hterm : ':' ∉ term.toList)

include apart names hterm

/-- Over several fields the clause of a term keeps to the fields wherever it stands. -/
theorem colonsBehindFields_termClause (several : 2 ≤ fields.length) (front : List Char) :
    ColonsBehindFields inName fields front (termClause fields term).toList := by
  rcases fields with _ | ⟨first, _ | ⟨second, rest⟩⟩
  · simp at several
  · simp at several
  · rw [termClause_of_several]
    apply ColonsBehindFields.join
    rw [List.forall_mem_append, List.forall_mem_cons, List.forall_mem_map,
      List.forall_mem_singleton]
    refine ⟨⟨?_, ?_⟩, ?_⟩
    · exact colonsBehindFields_opened apart names List.mem_cons_self hterm (Or.inl rfl)
    · exact fun field hfield => colonsBehindFields_opened apart names
        (List.mem_cons_of_mem first hfield) hterm (Or.inr rfl)
    · exact fun front => colonsBehindFields_of_not_mem (by decide)

theorem count_colon_field {field opening : String} (hfield : field ∈ fields)
    (hopening : ':' ∉ opening.toList) :
    (opening ++ (field ++ ":" ++ term)).toList.count ':' = 1 := by
  simp only [String.toList_append, List.count_append, List.count_eq_zero.mpr hopening,
    List.count_eq_zero.mpr (colon_not_mem_field apart names hfield),
    List.count_eq_zero.mpr hterm]
  rfl

/-- The clause of a term has a colon for each field. -/
theorem count_colon_termClause : (termClause fields term).toList.count ':' = fields.length := by
  rcases fields with _ | ⟨first, _ | ⟨second, rest⟩⟩
  · rfl
  · have hcount : ("" ++ (first ++ ":" ++ term)).toList.count ':' = 1 :=
      count_colon_field apart names hterm List.mem_cons_self (by decide)
    rwa [String.empty_append] at hcount
  · have hpieces : ∀ piece ∈ ("(" ++ (first ++ ":" ++ term)) ::
        ((second :: rest).map fun field => " OR " ++ (field ++ ":" ++ term)),
        piece.toList.count ':' = 1 := by
      rw [List.forall_mem_cons, List.forall_mem_map]
      refine ⟨count_colon_field apart names hterm List.mem_cons_self (by decide), ?_⟩
      intro field hfield
      exact count_colon_field apart names hterm (List.mem_cons_of_mem first hfield) (by decide)
    rw [termClause_of_several, String.join_append, String.toList_append, List.count_append,
      Text.count_join hpieces]
    simp

end Terms

/-! ## Terms in a row -/

section Row

variable {inName : Char → Bool} {fields : List String} {terms : List String}

/-- A second term over a single field stands right behind the first one. -/
theorem not_colonsBehindFields_of_two {field first second : String} {rest : List String}
    (hfirst : ∀ front, ¬ EndsOpen (front ++ first.toList)) :
    ¬ ColonsBehindFields inName [field] []
      (String.join ((first :: second :: rest).map (termClause [field]))).toList := by
  intro h
  have hclause : ∀ term, termClause [field] term = field ++ ":" ++ term := fun _ => rfl
  obtain ⟨⟨name, hname, hrun⟩, hopen⟩ :=
    h ((field ++ ":" ++ first).toList ++ field.toList)
      (second ++ String.join (rest.map (termClause [field]))).toList (by simp [hclause])
  rw [List.mem_singleton.mp hname, List.nil_append] at hrun
  rw [List.nil_append] at hopen
  have hdrop : ((field ++ ":" ++ first).toList ++ field.toList).rdropWhile inName =
      (field ++ ":" ++ first).toList := by
    have hsplit : ((field ++ ":" ++ first).toList ++ field.toList).rdropWhile inName ++
        ((field ++ ":" ++ first).toList ++ field.toList).rtakeWhile inName =
          (field ++ ":" ++ first).toList ++ field.toList :=
      List.rdropWhile_append_rtakeWhile
    rw [hrun] at hsplit
    exact List.append_cancel_right hsplit
  rw [hdrop, String.toList_append] at hopen
  exact hfirst _ hopen

/-- Terms in a row keep to the fields exactly when there are several fields or no second term. -/
theorem colonsBehindFields_terms_iff (apart : SetsNamesApart inName)
    (names : ∀ field ∈ fields, ∀ c ∈ field.toList, inName c = true) (named : fields ≠ [])
    (hcolon : ∀ term ∈ terms, ':' ∉ term.toList)
    (hopen : ∀ term ∈ terms, ∀ front, ¬ EndsOpen (front ++ term.toList)) :
    ColonsBehindFields inName fields [] (String.join (terms.map (termClause fields))).toList ↔
      2 ≤ fields.length ∨ terms.length ≤ 1 := by
  by_cases several : 2 ≤ fields.length
  · refine iff_of_true (ColonsBehindFields.join ?_ []) (Or.inl several)
    rw [List.forall_mem_map]
    exact fun term hterm front =>
      colonsBehindFields_termClause apart names (hcolon term hterm) several front
  · have hone : fields.length = 1 := by
      have hpositive := List.length_pos_of_ne_nil named
      omega
    obtain ⟨field, rfl⟩ := List.length_eq_one_iff.mp hone
    rw [or_iff_right several]
    rcases terms with _ | ⟨first, _ | ⟨second, rest⟩⟩
    · exact iff_of_true (colonsBehindFields_of_not_mem (by simp)) (by simp)
    · refine iff_of_true ?_ (Nat.le_refl 1)
      have hclause : String.join ([first].map (termClause [field])) = field ++ ":" ++ first := by
        simp [termClause, group]
      rw [hclause]
      exact colonsBehindFields_field apart names List.mem_cons_self
        (hcolon first List.mem_cons_self) (by simp [EndsOpen])
    · refine iff_of_false (not_colonsBehindFields_of_two (hopen first List.mem_cons_self)) ?_
      simp

end Row

/-! ## The taxon filter -/

section Written

variable {options : ClauseOptions} {value term : String} (url : options.encoding = .url)
  (subtext : options.subtext = true) (h : formatValue options value = some term)

include url h

theorem colon_not_mem_term : ':' ∉ term.toList :=
  not_mem_of_formatValue url h (by decide) (by decide) (by decide)

include subtext

/-- A term ends in a wildcard or in a quote mark, behind which no name can start. -/
theorem not_endsOpen_term (front : List Char) : ¬ EndsOpen (front ++ term.toList) := by
  obtain ⟨-, rfl⟩ := formatValue_eq_some.mp h
  have hframe : ∃ c, (frame options (Text.trim value)).toList.getLast? = some c ∧
      c ≠ '(' ∧ c ≠ ' ' := by
    unfold frame
    rw [url, subtext, if_pos rfl]
    split
    · exact ⟨'2', rfl, by decide, by decide⟩
    · exact ⟨'*', rfl, by decide, by decide⟩
  obtain ⟨c, hlast, hopening, hblank⟩ := hframe
  rw [EndsOpen, String.toList_append, ← List.append_assoc, List.getLast?_append, hlast]
  simp [hopening, hblank]

end Written

namespace Source

variable (q : Source)

/-- The terms of the taxon filter as they are written. -/
def taxonTerms : List String :=
  termsOver { q.options with subtext := true } (q.catalog.fieldsOf taxon) (q.state.values taxon)

theorem taxonClause_eq_join :
    q.taxonClause = String.join (q.taxonTerms.map (termClause (q.catalog.fieldsOf taxon))) :=
  join_ofFields_each _ _ _

/-- Every term that is not blank is written. -/
theorem length_taxonTerms :
    q.taxonTerms.length = (q.state.values taxon).countP fun v => Text.trim v.text ≠ "" := by
  rw [taxonTerms, termsOver, formatValues, List.length_filterMap_eq_countP]
  apply List.countP_congr
  intro v _
  rw [Option.isSome_iff_ne_none, Ne, formatValue_eq_none, decide_eq_true_iff]

/-- In its own scope a taxon filter that does not contribute holds no terms. -/
theorem values_taxon_of_not_wants (available : q.state.isAvailable taxon = true)
    (h : { q with scope := some taxon }.wants taxon = false) : q.state.values taxon = [] := by
  have hempty : (q.state.get? taxon).any (!·.isEmpty) = false := by
    simpa [wants, available] using h
  unfold State.values
  split
  · rename_i vs hheld
    simpa [hheld, Slot.isEmpty] using hempty
  · rfl

/-- In its own scope the taxon filter is the whole query, where it is available. -/
theorem text_compile_taxon (available : q.state.isAvailable taxon = true) :
    (compile { q with scope := some taxon }).text = q.taxonClause := by
  have hscope : taxon ∈ clauseOrder := by
    decide
  rw [compile, q.clauses_own_scope hscope, part_of_ne (by decide), contribution]
  cases hwants : { q with scope := some taxon }.wants taxon with
  | false =>
      have hclause : q.taxonClause = "" := by
        rw [taxonClause, q.values_taxon_of_not_wants available hwants]
        rfl
      rw [hclause]
      rfl
  | true =>
      have hclauses : { q with scope := some taxon }.clausesOf taxon = [q.taxonClause] := rfl
      rw [if_pos rfl, hclauses]
      by_cases hclause : q.taxonClause = ""
      · simp [hclause]
      · simp [hclause]

end Source

/-- In a URL the query of the taxon filter has one colon for each term that is not blank and each
rank. The terms keep apart, so that each colon stands behind a rank that stands at the start, behind
a parenthesis or behind a blank, exactly when there are several ranks or no second term. -/
theorem taxon_terms_keep_apart_iff {inName : Char → Bool} {q : Source}
    (apart : SetsNamesApart inName) (available : q.state.isAvailable taxon = true)
    (url : q.settings.encoding = .url)
    (names : ∀ field ∈ q.catalog.fieldsOf taxon, ∀ c ∈ field.toList, inName c = true) :
    let fields := q.catalog.fieldsOf taxon
    let filled := (q.state.values taxon).countP fun v => Text.trim v.text ≠ ""
    let text := (compile { q with scope := some taxon }).text.toList
    text.count ':' = filled * fields.length ∧
      (ColonsBehindFields inName fields [] text ↔ 2 ≤ fields.length ∨ filled ≤ 1) := by
  intro fields filled text
  have hwritten : ∀ term ∈ q.taxonTerms, ':' ∉ term.toList ∧
      ∀ front, ¬ EndsOpen (front ++ term.toList) := by
    intro term hterm
    obtain ⟨v, -, hformat⟩ := List.mem_filterMap.mp hterm
    obtain ⟨quotes, hoptions⟩ := exists_optionsOver_eq { q.options with subtext := true } fields
    rw [hoptions] at hformat
    refine ⟨colon_not_mem_term ?_ hformat, not_endsOpen_term ?_ rfl hformat⟩
    · exact url
    · exact url
  have htext : text = (String.join (q.taxonTerms.map (termClause fields))).toList := by
    rw [← q.taxonClause_eq_join, ← q.text_compile_taxon available]
  have hfilled : filled = q.taxonTerms.length := q.length_taxonTerms.symm
  rw [htext, hfilled]
  refine ⟨?_, ?_⟩
  · have hcount : ∀ clause ∈ q.taxonTerms.map (termClause fields),
        clause.toList.count ':' = fields.length :=
      List.forall_mem_map.mpr fun term hterm =>
        count_colon_termClause apart names (hwritten term hterm).1
    rw [Text.count_join hcount, List.length_map]
  · exact colonsBehindFields_terms_iff apart names (q.catalog.fieldsOf_ne_nil taxon)
      (fun term hterm => (hwritten term hterm).1) fun term hterm => (hwritten term hterm).2

theorem setsNamesApart_isAlphanum : SetsNamesApart Char.isAlphanum where
  opening := by decide
  blank := by decide
  colon := by decide

/-- Two terms and a blank one over the seven ranks of the standard index. -/
def pineAndOak : Source where
  state := (State.new (.forYear 2024)).put taxon
    (.values [.plain "Pinus", .plain " ", .plain "Quercus robur"])
  catalog := .standard
  settings := {}

theorem taxon_terms_keep_apart_pineAndOak :
    let text := (compile { pineAndOak with scope := some taxon }).text.toList
    pineAndOak.state.isAvailable taxon = true ∧ pineAndOak.settings.encoding = .url ∧
      text.count ':' = 14 ∧ ColonsBehindFields Char.isAlphanum Catalog.taxonRanks [] text := by
  have available : pineAndOak.state.isAvailable taxon = true := by
    decide
  have names : ∀ field ∈ pineAndOak.catalog.fieldsOf taxon, ∀ c ∈ field.toList,
      Char.isAlphanum c = true := by
    have hall : (pineAndOak.catalog.fieldsOf taxon).all (·.toList.all Char.isAlphanum) = true := by
      decide
    intro field hfield
    exact List.all_eq_true.mp (List.all_eq_true.mp hall field hfield)
  obtain ⟨hcount, hiff⟩ :=
    taxon_terms_keep_apart_iff setsNamesApart_isAlphanum available rfl names
  exact ⟨available, rfl, hcount.trans (by decide +kernel), hiff.mpr (Or.inl (by decide))⟩

/-- Two terms where the deployment has one rank only. -/
def oneRank : Source where
  state := (State.new (.forYear 2024)).put taxon (.values [.plain "Pinus", .plain "Quercus"])
  catalog := Catalog.standard.setFields taxon ["kingdom"]
  settings := {}

/-- Over one rank the second term starts right behind the wildcard of the first. -/
theorem terms_of_one_rank_run_together :
    (compile { oneRank with scope := some taxon }).text = "kingdom:*Pinus*kingdom:*Quercus*" ∧
      ¬ ColonsBehindFields Char.isAlphanum ["kingdom"] []
        (compile { oneRank with scope := some taxon }).text.toList := by
  have htext : (compile { oneRank with scope := some taxon }).text =
      "kingdom:*Pinus*kingdom:*Quercus*" := by
    decide +kernel
  refine ⟨htext, ?_⟩
  rw [htext]
  intro h
  have hends := h "kingdom:*Pinus*kingdom".toList "*Quercus*".toList rfl
  exact absurd (hends.apart '*' (by decide)) (by decide)

end FacetedSearch.Query

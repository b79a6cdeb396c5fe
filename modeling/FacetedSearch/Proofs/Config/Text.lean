import FacetedSearch.Config.Text
import FacetedSearch.Proofs.Config.Merge
import FacetedSearch.Proofs.Toml.Reader

/-!
# Reading the effective settings back

The text of a configuration is a settings file, and a deployment that has only this file is the
configuration again. The text holds four plain sections. Each value in them is read back, so the
file says all that the configuration says, and merging a single file takes what it says.
-/

namespace FacetedSearch.Config

open Category Toml

/-! ## Values -/

/-- A list of texts as a value. -/
def textsValue (items : List String) : Value :=
  .array (items.map .string)

theorem reads_booleanText (b : Bool) : Reads (booleanText b).toList (.boolean b) := by
  cases b
  all_goals exact reads_bare (by decide) (by decide) rfl

theorem reads_toString {n : Nat} (fits : n < Nat.pow 2 64) :
    Reads (toString n).toList (.integer n) := by
  have hdigits : (toString n).toList = Nat.toDigits 10 n := by
    rw [Nat.toString_eq_ofList_toDigits, String.toList_ofList]
  rw [hdigits]
  apply reads_bare Nat.toDigits_ne_nil
  · exact List.all_eq_true.mpr fun c hc => isBareChar_of_mem_toDigits hc
  · exact bareValue?_toDigits (Nat.lt_trans fits (by decide))

/-- An item of an array that goes over several lines. -/
def itemLine (item : String) : List Char :=
  ' ' :: ' ' :: ' ' :: ' ' :: ((writeString item).toList ++ [',', '\n'])

/-- Items on lines of their own are read one after another. -/
theorem readItems?_lines (items : List String) (fuel depth : Nat) (rest : List Char)
    (hfuel : (items.flatMap itemLine).length ≤ fuel) :
    ∃ after, skipTrivia? false (items.flatMap itemLine ++ ']' :: rest) = some after ∧
      readItems? (fuel + 1) depth after = some (items.map .string, rest) := by
  induction items generalizing fuel with
  | nil =>
      exact ⟨']' :: rest, skipTrivia?_of_opensToken (by decide) rest,
        readItems?_nil fuel depth rest⟩
  | cons item items ih =>
      rw [List.flatMap_cons, List.length_append, itemLine, List.length_cons] at hfuel
      obtain ⟨fuel, rfl⟩ : ∃ f, fuel = f + 1 := Nat.exists_eq_add_one_of_ne_zero (by omega)
      obtain ⟨after, hskip, hitems⟩ := ih fuel (by omega)
      have hline : (item :: items).flatMap itemLine ++ ']' :: rest =
          ' ' :: ' ' :: ' ' :: ' ' :: ((writeString item).toList ++
            ',' :: '\n' :: (items.flatMap itemLine ++ ']' :: rest)) := by
        simp [itemLine]
      have ends : EndsString (',' :: '\n' :: (items.flatMap itemLine ++ ']' :: rest)) :=
        (EndsValue.cons (by decide) _).endsString
      rw [hline, skipTrivia?_space, skipTrivia?_space, skipTrivia?_space, skipTrivia?_space,
        skipTrivia?_writeString]
      refine ⟨_, rfl, ?_⟩
      exact readItems?_next (readValue?_writeString item fuel depth ends)
        (head?_writeString_append item _) hskip hitems

theorem toList_arrayText_lines (first second : String) (items : List String) :
    (arrayText (first :: second :: items)).toList =
      '[' :: '\n' :: ((first :: second :: items).flatMap itemLine ++ [']']) := by
  have hitem : ∀ item, ("    " ++ writeString item ++ ",\n").toList = itemLine item := by
    intro item
    simp [itemLine]
  simp [arrayText, String.toList_join, List.flatMap_map, hitem]

theorem reads_arrayText (items : List String) :
    Reads (arrayText items).toList (textsValue items) := by
  match items with
  | [] =>
      refine ⟨⟨'[', [']'], rfl, by decide⟩, ?_⟩
      intro fuel depth rest hfuel _
      obtain ⟨fuel, rfl⟩ : ∃ f, fuel = f + 1 :=
        Nat.exists_eq_add_one_of_ne_zero (Nat.ne_of_gt (Nat.lt_of_lt_of_le (by decide) hfuel))
      exact readValue?_array (skipTrivia?_of_opensToken (by decide) rest)
        (readItems?_nil fuel depth rest)
  | [only] =>
      have hwritten : (arrayText [only]).toList = '[' :: ((writeString only).toList ++ [']']) := by
        simp [arrayText]
      rw [hwritten]
      refine ⟨⟨'[', _, rfl, by decide⟩, ?_⟩
      intro fuel depth rest hfuel _
      rw [List.length_cons, List.length_append, List.length_singleton] at hfuel
      obtain ⟨fuel, rfl⟩ : ∃ f, fuel = f + 2 := Nat.exists_eq_add_of_le' (by omega)
      have ends : EndsString (']' :: rest) := (EndsValue.cons (by decide) rest).endsString
      rw [List.cons_append, List.append_assoc, List.singleton_append]
      apply readValue?_array (skipTrivia?_writeString only (']' :: rest))
      exact readItems?_last (readValue?_writeString only fuel depth ends)
        (head?_writeString_append only _)
  | first :: second :: items =>
      rw [toList_arrayText_lines]
      refine ⟨⟨'[', _, rfl, by decide⟩, ?_⟩
      intro fuel depth rest hfuel _
      rw [List.length_cons, List.length_cons, List.length_append] at hfuel
      obtain ⟨fuel, rfl⟩ : ∃ f, fuel = f + 1 := Nat.exists_eq_add_of_le' (by omega)
      obtain ⟨after, hskip, hitems⟩ :=
        readItems?_lines (first :: second :: items) fuel depth rest (by omega)
      rw [List.cons_append, List.cons_append, List.append_assoc, List.singleton_append]
      exact readValue?_array hskip hitems

/-! ## Sections -/

theorem holds_headerLine (name : String) (hname : IsBareName name) :
    Holds (headerLine name).toList [.header (.single name)] := by
  have hline : (headerLine name).toList = '[' :: (name.toList ++ [']']) ++ '\n' :: [] := by
    simp [headerLine]
  rw [hline]
  exact .line (isLine_header hname) .nil

theorem holds_entryLine (name : String) (hname : IsBareName name) {value : String} {v : Value}
    (hvalue : Reads value.toList v) :
    Holds (entryLine name value).toList [.assign (.single name v)] := by
  have hline : (entryLine name value).toList =
      name.toList ++ ' ' :: '=' :: ' ' :: value.toList ++ '\n' :: [] := by
    simp [entryLine]
  rw [hline]
  exact .line (isLine_assign hname hvalue) .nil

/-- The values of compiler settings, by name. -/
def compilerValues (s : Settings) : List (String × Value) :=
  [("disable_query_posts", .boolean s.disableQueryPosts),
    ("spatial_enabled", .boolean s.spatialEnabled),
    ("encoding", .string s.encoding.name),
    ("geohash_query_limit", .integer s.geohashQueryLimit),
    ("url_length_limit", .integer s.urlLengthLimit)]

/-- The values of fields, by name. -/
def fieldValues (entries : FieldSection) : List (String × Value) :=
  entries.map fun (name, fields) => (name, textsValue fields)

/-- The limits of the settings fit in 64 bits. -/
structure FitsLimits (s : Settings) : Prop where
  geohashQueryLimit : s.geohashQueryLimit < Nat.pow 2 64
  urlLengthLimit : s.urlLengthLimit < Nat.pow 2 64

theorem holds_compilerText {s : Settings} (fits : FitsLimits s) :
    Holds (compilerText s).toList (sectionLines "compiler" (compilerValues s)) := by
  have header := holds_headerLine "compiler" (by decide)
  have posts := holds_entryLine "disable_query_posts" (by decide)
    (reads_booleanText s.disableQueryPosts)
  have spatial := holds_entryLine "spatial_enabled" (by decide)
    (reads_booleanText s.spatialEnabled)
  have encoding := holds_entryLine "encoding" (by decide) (reads_writeString s.encoding.name)
  have geohashLimit := holds_entryLine "geohash_query_limit" (by decide)
    (reads_toString fits.geohashQueryLimit)
  have urlLimit := holds_entryLine "url_length_limit" (by decide)
    (reads_toString fits.urlLengthLimit)
  simp only [compilerText, String.toList_append]
  exact ((((header.append posts).append spatial).append encoding).append
    geohashLimit).append urlLimit

theorem isBareName_name (c : Category) : IsBareName c.name := by
  cases c <;> decide

theorem holds_fieldsText {sectionName : String} (hsection : IsBareName sectionName)
    {entries : FieldSection} (hnames : ∀ entry ∈ entries, IsBareName entry.1) :
    Holds (headerLine sectionName ++
        String.join (entries.map fun (name, fields) => entryLine name (arrayText fields))).toList
      (sectionLines sectionName (fieldValues entries)) := by
  have hentries : Holds
      (entries.flatMap fun entry => (entryLine entry.1 (arrayText entry.2)).toList)
      (entries.map fun entry => .assign (.single entry.1 (textsValue entry.2))) := by
    apply Holds.flatMap
    intro entry hentry
    exact holds_entryLine entry.1 (hnames entry hentry) (reads_arrayText entry.2)
  have hlines : sectionLines sectionName (fieldValues entries) =
      [.header (.single sectionName)] ++
        entries.map fun entry => .assign (.single entry.1 (textsValue entry.2)) := by
    simp only [sectionLines, fieldValues, List.map_map, Function.comp_def, List.singleton_append]
  rw [String.toList_append, String.toList_join, List.flatMap_map, hlines]
  exact (holds_headerLine sectionName hsection).append hentries

/-! ## Fields by name -/

theorem mem_namedEntries {t : Category.Table (List String)} {name : String}
    {fields : List String} :
    (name, fields) ∈ namedEntries t ↔ ∃ c, t.get? c = some fields ∧ c.name = name := by
  rw [namedEntries, (perm_sortByName _).mem_iff, Table.entries, List.map_filterMap]
  simp [List.mem_filterMap, mem_all]

/-- No two categories have the same name. -/
theorem isOrdered_namedEntries (t : Category.Table (List String)) :
    IsOrdered (namedEntries t) := by
  apply pairwise_sortByName
  rw [Distinct, List.map_map, Table.entries, List.Nodup, List.pairwise_map, List.pairwise_filterMap]
  apply all_nodup.imp
  intro c d hne a ha b hb
  obtain ⟨_, -, rfl⟩ := Option.map_eq_some_iff.mp ha
  obtain ⟨_, -, rfl⟩ := Option.map_eq_some_iff.mp hb
  simpa using hne

theorem lookup_of_mem {entries : FieldSection} (ordered : IsOrdered entries) {name : String}
    {fields : List String} (h : (name, fields) ∈ entries) : entries.lookup name = some fields := by
  induction entries with
  | nil => exact absurd h List.not_mem_nil
  | cons entry rest ih =>
      obtain ⟨first, other⟩ := entry
      obtain ⟨hfirst, hrest⟩ := List.pairwise_cons.mp ordered
      rcases List.mem_cons.mp h with heq | hmem
      · obtain ⟨rfl, rfl⟩ := Prod.mk.inj heq
        exact List.lookup_cons_self
      · rw [lookup_cons_of_ne (ne_of_gt (hfirst _ hmem))]
        exact ih hrest hmem

theorem lookup_namedEntries (t : Category.Table (List String)) (c : Category) :
    (namedEntries t).lookup c.name = t.get? c := by
  cases hget : t.get? c with
  | some fields =>
      exact lookup_of_mem (isOrdered_namedEntries t) (mem_namedEntries.mpr ⟨c, hget, rfl⟩)
  | none =>
      apply lookup_eq_none_iff.mpr
      intro hmem
      obtain ⟨⟨name, fields⟩, hentry, hname⟩ := List.mem_map.mp hmem
      obtain ⟨d, hd, hdname⟩ := mem_namedEntries.mp hentry
      obtain rfl := name_inj.mp (hdname.trans hname)
      rw [hget] at hd
      exact absurd hd (by simp)

theorem name_ne_geohashAlias (c : Category) : c.name ≠ geohashAlias := by
  cases c <;> decide

/-- A category goes by its own name in the text, also the one that has another name. -/
theorem fieldsOf?_namedEntries (t : Category.Table (List String)) (c : Category) :
    fieldsOf? c (namedEntries t) = t.get? c := by
  have halias : (namedEntries t).lookup geohashAlias = none := by
    apply lookup_eq_none_iff.mpr
    intro hmem
    obtain ⟨⟨name, fields⟩, hentry, hname⟩ := List.mem_map.mp hmem
    obtain ⟨d, -, hdname⟩ := mem_namedEntries.mp hentry
    exact name_ne_geohashAlias d (hdname.trans hname)
  rw [fieldsOf?, Category.names]
  split
  · rename_i hc
    rw [List.findSome?_cons, halias, List.findSome?_cons, lookup_namedEntries]
    cases t.get? c <;> rfl
  · rw [List.findSome?_cons, lookup_namedEntries]
    cases t.get? c <;> rfl

/-! ## The file -/

/-- The sections of the text of a configuration. -/
def Deployment.tables (d : Deployment) : List (String × List (String × Value)) :=
  [("compiler", compilerValues d.settings),
    ("fields", fieldValues (namedEntries d.fields)),
    ("facets", fieldValues (namedEntries d.facets)),
    ("deployment", [("omit", textsValue (d.omitted.map (·.name)))])]

theorem holds_fieldsText_namedEntries (sectionName : String) (hsection : IsBareName sectionName)
    (t : Category.Table (List String)) :
    Holds (fieldsText sectionName t).toList
      (sectionLines sectionName (fieldValues (namedEntries t))) := by
  apply holds_fieldsText hsection
  rintro ⟨name, fields⟩ hentry
  obtain ⟨c, -, rfl⟩ := mem_namedEntries.mp hentry
  exact isBareName_name c

theorem holds_text {d : Deployment} (fits : FitsLimits d.settings) :
    Holds d.text.toList
      (d.tables.flatMap fun (name, entries) => sectionLines name entries) := by
  have compiler := holds_compilerText fits
  have fields := holds_fieldsText_namedEntries "fields" (by decide) d.fields
  have facets := holds_fieldsText_namedEntries "facets" (by decide) d.facets
  have header := holds_headerLine "deployment" (by decide)
  have omitted := holds_entryLine "omit" (by decide) (reads_arrayText (d.omitted.map (·.name)))
  have hsections : (d.tables.flatMap fun (name, entries) => sectionLines name entries) =
      sectionLines "compiler" (compilerValues d.settings) ++
        (sectionLines "fields" (fieldValues (namedEntries d.fields)) ++
          (sectionLines "facets" (fieldValues (namedEntries d.facets)) ++
            ([.header (.single "deployment")] ++
              [.assign (.single "omit" (textsValue (d.omitted.map (·.name))))]))) := rfl
  rw [hsections]
  simp only [Deployment.text, String.toList_append, List.append_assoc]
  exact compiler.append (.blank (fields.append (.blank (facets.append (.blank
    (header.append omitted))))))

theorem distinct_compilerValues (s : Settings) : Distinct (compilerValues s) := by
  have hnames : (compilerValues s).map (·.1) = compilerNames := rfl
  rw [Distinct, hnames]
  decide

theorem distinct_fieldValues {entries : FieldSection} (ordered : IsOrdered entries) :
    Distinct (fieldValues entries) := by
  rw [Distinct, fieldValues, List.map_map, List.Nodup, List.pairwise_map]
  apply ordered.imp
  intro a b hlt
  exact ne_of_lt hlt

/-- The text of a configuration as a document. -/
def Deployment.document (d : Deployment) : List (String × Value) :=
  d.tables.map fun (name, entries) => (name, .table entries)

theorem parse?_text {d : Deployment} (fits : FitsLimits d.settings) :
    Toml.parse? d.text = some d.document := by
  have unmarked : d.text.toList.head? ≠ some '\ufeff' := by
    simp [Deployment.text, compilerText, headerLine]
  have distinct : Distinct d.tables := by
    have hnames : d.tables.map (·.1) = ["compiler", "fields", "facets", "deployment"] := rfl
    rw [Distinct, hnames]
    decide
  have distinctEntries : ∀ table ∈ d.tables, Distinct table.2 := by
    simp only [Deployment.tables, List.forall_mem_cons]
    exact ⟨distinct_compilerValues d.settings,
      distinct_fieldValues (isOrdered_namedEntries d.fields),
      distinct_fieldValues (isOrdered_namedEntries d.facets), distinct_singleton _,
      fun _ h => absurd h List.not_mem_nil⟩
  rw [Toml.parse?, statements?_eq (holds_text fits) unmarked]
  exact document?_sectionLines distinct distinctEntries

/-- What the text of a configuration says as a settings file. -/
def Deployment.file (d : Deployment) : File where
  compiler := some {
    disableQueryPosts := some d.settings.disableQueryPosts
    spatialEnabled := some d.settings.spatialEnabled
    encoding := some d.settings.encoding
    geohashQueryLimit := some d.settings.geohashQueryLimit
    urlLengthLimit := some d.settings.urlLengthLimit }
  fields := some (namedEntries d.fields)
  facets := some (namedEntries d.facets)
  deployment := some { omitted := some (d.omitted.map (·.name)) }

/-- What is written item by item is read item by item. -/
theorem mapM_map_ok {α β ε : Type} {write : α → β} {read : β → Except ε α}
    (h : ∀ a, read (write a) = .ok a) (items : List α) :
    (items.map write).mapM read = .ok items := by
  induction items with
  | nil => rfl
  | cons a items ih =>
      rw [List.map_cons, List.mapM_cons, h, ih]
      rfl

theorem readTexts_textsValue (items : List String) : readTexts (textsValue items) = .ok items := by
  have hread : ∀ item, readText (.string item) = .ok item := fun _ => rfl
  exact mapM_map_ok hread items

theorem readLimit_integer {n : Nat} (fits : n < Nat.pow 2 64) : readLimit (.integer n) = .ok n := by
  have hrange : 0 ≤ (n : Int) ∧ (n : Int).toNat < Nat.pow 2 64 :=
    ⟨Int.natCast_nonneg n, fits⟩
  rw [readLimit, Value.asUnsigned?, if_pos hrange]
  rfl

theorem readCompiler_compilerValues {s : Settings} (fits : FitsLimits s) :
    readCompiler (.table (compilerValues s)) = .ok {
      disableQueryPosts := some s.disableQueryPosts
      spatialEnabled := some s.spatialEnabled
      encoding := some s.encoding
      geohashQueryLimit := some s.geohashQueryLimit
      urlLengthLimit := some s.urlLengthLimit } := by
  have hencoding : readEncoding (.string s.encoding.name) = .ok s.encoding := by
    rw [readEncoding, Encoding.ofName?_name]
    rfl
  have hvalues : namedValue? compilerNames (.table (compilerValues s)) =
      .ok fun name => valueOf? name (compilerValues s) := rfl
  have hposts : optional readBoolean (valueOf? "disable_query_posts" (compilerValues s)) =
      .ok (some s.disableQueryPosts) := rfl
  have hspatial : optional readBoolean (valueOf? "spatial_enabled" (compilerValues s)) =
      .ok (some s.spatialEnabled) := rfl
  have hencoding : optional readEncoding (valueOf? "encoding" (compilerValues s)) =
      .ok (some s.encoding) := congrArg (Except.map some) hencoding
  have hgeohash : optional readLimit (valueOf? "geohash_query_limit" (compilerValues s)) =
      .ok (some s.geohashQueryLimit) :=
    congrArg (Except.map some) (readLimit_integer fits.geohashQueryLimit)
  have hurl : optional readLimit (valueOf? "url_length_limit" (compilerValues s)) =
      .ok (some s.urlLengthLimit) :=
    congrArg (Except.map some) (readLimit_integer fits.urlLengthLimit)
  rw [readCompiler, hvalues]
  simp only [bind, Except.bind, hposts, hspatial, hencoding, hgeohash, hurl]
  rfl

theorem readFields_fieldValues {entries : FieldSection} (ordered : IsOrdered entries) :
    readFields (.table (fieldValues entries)) = .ok entries := by
  have hsorted : sortByName (fieldValues entries) = fieldValues entries := by
    apply sortByName_of_pairwise
    rw [fieldValues, List.pairwise_map]
    exact ordered
  have hread : ∀ entry : String × List String,
      (readTexts (textsValue entry.2)).map (entry.1, ·) = .ok entry := by
    intro entry
    exact congrArg (Except.map (entry.1, ·)) (readTexts_textsValue entry.2)
  rw [readFields, tableEntries?]
  dsimp only
  rw [hsorted]
  exact mapM_map_ok hread entries

theorem readDeployment_omit (names : List String) :
    readDeployment (.table [("omit", textsValue names)]) = .ok { omitted := some names } := by
  have hvalues : namedValue? ["omit"] (.table [("omit", textsValue names)]) =
      .ok fun name => valueOf? name [("omit", textsValue names)] := rfl
  have homit : optional readTexts (valueOf? "omit" [("omit", textsValue names)]) =
      .ok (some names) := congrArg (Except.map some) (readTexts_textsValue names)
  rw [readDeployment, hvalues]
  simp only [bind, Except.bind, homit]
  rfl

theorem ofEntries_document {d : Deployment} (fits : FitsLimits d.settings) :
    File.ofEntries d.document = .ok d.file := by
  have hroot : optional readBoolean (valueOf? "root" d.document) = .ok none := rfl
  have hcompiler : optional readCompiler (valueOf? "compiler" d.document) =
      .ok d.file.compiler :=
    congrArg (Except.map some) (readCompiler_compilerValues fits)
  have hfields : optional readFields (valueOf? "fields" d.document) = .ok d.file.fields :=
    congrArg (Except.map some) (readFields_fieldValues (isOrdered_namedEntries d.fields))
  have hfacets : optional readFields (valueOf? "facets" d.document) = .ok d.file.facets :=
    congrArg (Except.map some) (readFields_fieldValues (isOrdered_namedEntries d.facets))
  have hdeployment : optional readDeployment (valueOf? "deployment" d.document) =
      .ok d.file.deployment :=
    congrArg (Except.map some) (readDeployment_omit (d.omitted.map Category.name))
  rw [File.ofEntries]
  simp only [bind, Except.bind, hroot, hcompiler, hfields, hfacets, hdeployment]
  rfl

/-- The text of a configuration is a settings file, and says what the configuration says. -/
theorem parse_text {d : Deployment} (fits : FitsLimits d.settings) :
    File.parse d.text = .ok d.file := by
  rw [File.parse, parse?_text fits]
  exact ofEntries_document fits

/-! ## The deployment -/

theorem name_known (path sectionName : String) (c : Category) :
    (⟨path, sectionName, c.name⟩ : Mention).Known :=
  ⟨c, ofName?_eq_some_iff.mp (ofName?_name c)⟩

theorem known_of_mem_fieldMentions {sectionName : String} {get : File → Option FieldSection}
    {s : Source} {t : Category.Table (List String)} (h : get s.file = some (namedEntries t))
    {m : Mention} (hm : m ∈ fieldMentions sectionName get [s]) : m.Known := by
  rw [fieldMentions, List.flatMap_singleton, h] at hm
  obtain ⟨⟨name, fields⟩, hentry, rfl⟩ := List.mem_map.mp hm
  obtain ⟨c, -, rfl⟩ := mem_namedEntries.mp hentry
  exact name_known s.path sectionName c

/-- Every name in the text is that of a category. -/
theorem known_of_mem_mentions {d : Deployment} {path : String} {m : Mention}
    (h : m ∈ mentions [{ path, file := d.file }]) : m.Known := by
  have homitted : omittedMentions [{ path, file := d.file }] =
      (d.omitted.map Category.name).map fun name => ⟨path, "deployment", name⟩ := rfl
  rw [mentions, homitted, List.mem_append, List.mem_append] at h
  rcases h with (hfields | hfacets) | hname
  · exact known_of_mem_fieldMentions rfl hfields
  · exact known_of_mem_fieldMentions rfl hfacets
  · obtain ⟨name, hmem, rfl⟩ := List.mem_map.mp hname
    obtain ⟨c, -, rfl⟩ := List.mem_map.mp hmem
    exact name_known path "deployment" c

theorem closestFields_single {get : File → Option FieldSection} {s : Source}
    {t : Category.Table (List String)} (h : get s.file = some (namedEntries t)) :
    closestFields get [s] = t := by
  have ordered : ∀ s' ∈ [s], ∀ entries, get s'.file = some entries → IsOrdered entries := by
    intro s' hs' entries hentries
    obtain rfl := List.mem_singleton.mp hs'
    obtain rfl := Option.some.inj (h.symm.trans hentries)
    exact isOrdered_namedEntries t
  apply Category.Table.ext
  funext c
  rw [get?_closestFields ordered, List.findSome?_singleton, h]
  exact fieldsOf?_namedEntries t c

theorem merged_file (d : Deployment) (path : String) :
    merged [{ path, file := d.file }] = { d with root := parentPath? path, files := [path] } := by
  have hfields : closestFields (·.fields) [{ path, file := d.file }] = d.fields :=
    closestFields_single rfl
  have hfacets : closestFields (·.facets) [{ path, file := d.file }] = d.facets :=
    closestFields_single rfl
  have hsettings : mergeSettings [{ path, file := d.file }] = d.settings := rfl
  have homitted : (d.omitted.map Category.name).filterMap ofName? = d.omitted := by
    rw [List.filterMap_map]
    simp
  have hfirst : (((firstOmitted? [{ path, file := d.file }]).map (·.2)).getD []).filterMap ofName? =
      d.omitted := homitted
  rw [merged, hfields, hfacets, hsettings, hfirst]
  rfl

/-- A deployment with this file alone is the configuration again. -/
theorem merge_file (d : Deployment) (path : String) :
    merge [{ path, file := d.file }] =
      .ok { d with root := parentPath? path, files := [path] } := by
  rw [merge_eq, whenKnown_eq_ok]
  exact ⟨fun m hm => known_of_mem_mentions hm, merged_file d path⟩

/-- The effective settings come back. The text of a configuration is a settings file, and the
deployment that this file describes on its own has the same settings, the same fields and facets of
every category and the same omitted categories in the same order. -/
theorem text_comes_back {d : Deployment} (fits : FitsLimits d.settings) (path : String) :
    ∃ file, File.parse d.text = .ok file ∧
      merge [{ path, file }] = .ok { d with root := parentPath? path, files := [path] } :=
  ⟨d.file, parse_text fits, merge_file d path⟩

/-- A configuration that needs every form of string, with empty lists and the largest limit. -/
def hardToWrite : Deployment where
  settings := { disableQueryPosts := true, encoding := .raw, geohashQueryLimit := Nat.pow 2 64 - 1 }
  fields := (Category.Table.empty.insert creator ["it's", "say \"hi\"", "both ' and \""]).insert
    geohashes []
  facets := Category.Table.empty.insert annotations
    ["", "\x01\x7f", "two\nlines", "\n\"\"\"\n'''\\"]
  omitted := [taxon, geohashes, taxon]

theorem text_comes_back_hardToWrite :
    FitsLimits hardToWrite.settings ∧ ∃ file d, File.parse hardToWrite.text = .ok file ∧
      merge [{ path := "/data/.sift.toml", file }] = .ok d ∧
        d.settings.geohashQueryLimit = 18446744073709551615 ∧
        d.fields.get? geohashes = some [] ∧
        d.facets.get? annotations =
          some ["", "\x01\x7f", "two\nlines", "\n\"\"\"\n'''\\"] ∧
        d.omitted = [taxon, geohashes, taxon] := by
  have fits : FitsLimits hardToWrite.settings := ⟨by decide, by decide⟩
  obtain ⟨file, hparse, hmerge⟩ := text_comes_back fits "/data/.sift.toml"
  exact ⟨fits, file, _, hparse, hmerge, rfl, rfl, rfl, rfl⟩

end FacetedSearch.Config

import CqlGateway.Proofs.Catalog.IndexDrop
import CqlGateway.Proofs.Text.Case
import Mathlib.Data.List.Find

/-!
# Source quotes in table definitions

A name can come in backticks, double quotes or brackets. Where a name is written, its quotes are
taken away. Where the columns of a key are looked up, the quotes of the listed names are taken away,
but those of the declared columns are not. So a column that is declared in quotes is never found,
neither by a listed name nor as the column `id` that makes up for a missing key.

Main statement: `CreateTable.sameOutcome_requoted_iff`.
-/

namespace CqlGateway

variable {key key' : List String} {r : Rejection}

/-! ### Names in quotes -/

namespace Cql

variable {name' : String}

/-- The marks that names are quoted with. -/
def isQuoteMark (c : Char) : Bool :=
  c = '\x60' || c = '"' || c = '[' || c = ']'

/-- A name that is there, with no quotes or brackets in it and no blanks at its ends. -/
def isClean (name : String) : Bool :=
  Text.startsSolid name.toList && Text.endsSolid name.toList
    && name.toList.all fun c => !isQuoteMark c

/-- The ways in which a name can be written in its source. -/
inductive Quoting where
  | bare
  | backticks
  | doubleQuotes
  | brackets
  deriving DecidableEq, Repr

namespace Quoting

/-- The marks around a name. -/
def marks? : Quoting → Option (Char × Char)
  | .bare => none
  | .backticks => some ('\x60', '\x60')
  | .doubleQuotes => some ('"', '"')
  | .brackets => some ('[', ']')

/-- A name as it is written in its source. -/
def write (q : Quoting) (name : String) : String :=
  match q.marks? with
  | none => name
  | some (first, last) => String.ofList (first :: name.toList ++ [last])

theorem closingQuote?_of_marks? {q : Quoting} {first last : Char}
    (h : q.marks? = some (first, last)) :
  closingQuote? first = some last ∧ isQuoteMark first = true ∧ isQuoteMark last = true
  := by
  cases q <;> cases h <;> decide

end Quoting

theorem isBlank_of_isQuoteMark {c : Char} (h : isQuoteMark c = true) :
  Text.isBlank c = false
  := by
  simp only [isQuoteMark, Bool.or_eq_true, decide_eq_true_eq] at h
  rcases h with ((rfl | rfl) | rfl) | rfl <;> decide

theorem closingQuote?_of_not_isQuoteMark {c : Char} (h : isQuoteMark c = false) :
  closingQuote? c = none
  := by
  simp only [isQuoteMark, Bool.or_eq_false_iff, decide_eq_false_iff_not] at h
  simp [closingQuote?, h]

theorem unquote_of_isClean {name : String} (h : isClean name = true) :
  unquote name = name
  := by
  simp only [isClean, Bool.and_eq_true, List.all_eq_true, Bool.not_eq_true'] at h
  obtain ⟨⟨hstart, hend⟩, hmarks⟩ := h
  have hkeep : unquoteChars name.toList = name.toList := by
    unfold unquoteChars
    split
    next c d cs hname =>
      have hc := closingQuote?_of_not_isQuoteMark (hmarks c (by simp [hname]))
      rw [hc, List.getLast?_eq_some_getLast (List.cons_ne_nil d cs),
        if_neg (Option.some_ne_none _).symm]
    next => rfl
  rw [unquote, Text.trimChars_of_solid hstart hend, hkeep, String.ofList_toList]

theorem unquote_ofList_marks {first last : Char} (hclosing : closingQuote? first = some last)
    (hfirst : Text.isBlank first = false) (hlast : Text.isBlank last = false) (cs : List Char) :
  unquote (String.ofList (first :: cs ++ [last])) = String.ofList cs
  := by
  have hsolid : Text.trimChars (first :: cs ++ [last]) = first :: cs ++ [last] := by
    apply Text.trimChars_of_solid
    · simp [Text.startsSolid, hfirst]
    · exact Text.endsSolid_append (by simp [Text.endsSolid, hlast]) _
  have hstrip : unquoteChars (first :: cs ++ [last]) = cs := by
    cases cs with
    | nil => simp [unquoteChars, hclosing]
    | cons c cs =>
      rw [List.cons_append, List.cons_append, unquoteChars, ← List.cons_append,
        List.getLast?_concat, if_pos hclosing, List.dropLast_concat]
  rw [unquote, String.toList_ofList, hsolid, hstrip]

theorem unquote_write {name : String} (h : isClean name = true) (q : Quoting) :
  unquote (q.write name) = name
  := by
  unfold Quoting.write
  split
  next => exact unquote_of_isClean h
  next first last hmarks =>
    obtain ⟨hclosing, hfirst, hlast⟩ := Quoting.closingQuote?_of_marks? hmarks
    rw [unquote_ofList_marks hclosing (isBlank_of_isQuoteMark hfirst)
      (isBlank_of_isQuoteMark hlast), String.ofList_toList]

/-! ### Names up to letter case -/

theorem toNat_lt_of_isQuoteMark {c : Char} (h : isQuoteMark c = true) :
  c.toNat < 97
  := by
  simp only [isQuoteMark, Bool.or_eq_true, decide_eq_true_eq] at h
  rcases h with ((rfl | rfl) | rfl) | rfl <;> decide

theorem isQuoteMark_ofNat {m : Nat} (hm : 97 ≤ m) :
  isQuoteMark (Char.ofNat m) = false
  := by
  by_cases hvalid : m.isValidChar
  · rw [← Bool.not_eq_true]
    intro h
    have hlt := toNat_lt_of_isQuoteMark h
    rw [Text.toNat_ofNat hvalid] at hlt
    omega
  · have hnull : Char.ofNat m = '\x00' := dif_neg hvalid
    rw [hnull]
    rfl

/-- Letter case neither makes nor removes quotes. -/
theorem isQuoteMark_foldChar (c : Char) :
  isQuoteMark (Text.foldChar c) = isQuoteMark c
  := by
  have hascii : ∀ n < 128, isQuoteMark (Char.ofNat n).toLower = isQuoteMark (Char.ofNat n) := by
    decide
  -- Beyond ASCII, no run leads below the small letters, so none leads to a quote.
  have hruns : (Text.foldRuns.all fun r => decide (97 ≤ (r.first : Int) + r.distance)) = true := by
    decide
  unfold Text.foldChar
  split
  next hc =>
    have h := hascii c.toNat hc
    rwa [Char.ofNat_toNat] at h
  next hc =>
    have hno : isQuoteMark c = false := by
      rw [← Bool.not_eq_true]
      intro h
      have hlt := toNat_lt_of_isQuoteMark h
      omega
    unfold Text.moveBy
    split
    next m hm =>
      obtain ⟨r, hr, htarget⟩ := List.exists_of_findSome?_eq_some hm
      have hlow := of_decide_eq_true (List.all_eq_true.mp hruns r hr)
      unfold Text.CaseRun.target? at htarget
      split at htarget
      next hn =>
        cases htarget
        rw [hno, isQuoteMark_ofNat]
        omega
      next => cases htarget
    next => rfl

/-- What is found by a clean name has no quotes. -/
theorem write_eq_of_equalFold {name key : String} (hkey : isClean key = true) {q : Quoting}
    (h : Text.equalFold (q.write name) key = true) :
  q.write name = name
  := by
  unfold Quoting.write at h ⊢
  split at h
  next => rfl
  next first last hmarks =>
    -- The first mark would be one of the letters of the key, up to their case.
    obtain ⟨-, hfirst, -⟩ := Quoting.closingQuote?_of_marks? hmarks
    simp only [isClean, Bool.and_eq_true, List.all_eq_true, Bool.not_eq_true'] at hkey
    rw [Text.equalFold, beq_iff_eq] at h
    have hchars := congrArg String.toList h
    simp only [Text.fold, String.toList_ofList, List.cons_append, List.map_cons] at hchars
    have hmem : Text.foldChar first ∈ key.toList.map Text.foldChar := by
      rw [← hchars]
      exact List.mem_cons_self
    obtain ⟨c, hc, hfold⟩ := List.mem_map.mp hmem
    have hmark := isQuoteMark_foldChar first
    rw [← hfold, isQuoteMark_foldChar, hkey.2 c hc, hfirst] at hmark
    cases hmark

/-- The second name is the first one as it can be written in a source. -/
def IsRequoted (name name' : String) : Prop :=
  ∃ q : Quoting, name' = q.write name

theorem IsRequoted.unquote_eq {name : String} (h : IsRequoted name name')
    (hname : isClean name = true) :
  unquote name' = unquote name
  := by
  obtain ⟨q, rfl⟩ := h
  rw [unquote_write hname, unquote_of_isClean hname]

theorem IsRequoted.quoteIdentifier_eq {name : String} (h : IsRequoted name name')
    (hname : isClean name = true) :
  quoteIdentifier name' = quoteIdentifier name
  := by
  rw [quoteIdentifier, quoteIdentifier, h.unquote_eq hname]

theorem IsRequoted.ne_empty {name : String} (h : IsRequoted name name')
    (hname : isClean name = true) :
  name' ≠ ""
  := by
  rintro rfl
  have hunquote := h.unquote_eq hname
  rw [unquote_of_isClean hname] at hunquote
  subst hunquote
  revert hname
  decide

end Cql

/-! ### Lists side by side -/

theorem map_eq_map_of_forall₂ {α β γ : Type} {R : α → β → Prop} {as : List α} {bs : List β}
    {f : α → γ} {g : β → γ} (h : List.Forall₂ R as bs) (hfg : ∀ a b, R a b → f a = g b) :
  as.map f = bs.map g
  := by
  induction h with
  | nil => rfl
  | cons hab _ ih => rw [List.map_cons, List.map_cons, hfg _ _ hab, ih]

theorem isEmpty_eq_of_forall₂ {α β : Type} {R : α → β → Prop} {as : List α} {bs : List β}
    (h : List.Forall₂ R as bs) :
  as.isEmpty = bs.isEmpty
  := by
  cases h <;> rfl

/-- No list of values is found if one is missing. -/
theorem map_ne_map_some {α β : Type} {f : α → Option β} {as : List α} {a : α} (ha : a ∈ as)
    (hnone : f a = none) (bs : List β) :
  as.map f ≠ bs.map some
  := by
  intro h
  have hmem : f a ∈ bs.map some := by
    rw [← h]
    exact List.mem_map_of_mem ha
  rw [hnone] at hmem
  obtain ⟨b, -, hsome⟩ := List.mem_map.mp hmem
  cases hsome

/-! ### Keys in texts -/

/-- Names that have the same text as a key are the same but for their quotes. -/
theorem Definition.unquote_of_key_eq (hkey : key ≠ []) (hkey' : key' ≠ [])
    (h : "PRIMARY KEY (" ++ Cql.quoteIdentifiers key ++ ")"
      = "PRIMARY KEY (" ++ Cql.quoteIdentifiers key' ++ ")") :
  key.map Cql.unquote = key'.map Cql.unquote
  := by
  have hne {names : List String} (hnames : names ≠ []) : nameLexemes names ≠ [] := by
    simpa [nameLexemes] using hnames
  have hlexemes : keyLexemes key = keyLexemes key' := by
    rw [← (lexesTo_key key).all_eq, h, (lexesTo_key key').all_eq]
  simp only [keyLexemes, List.append_cancel_left_eq, List.append_cancel_right_eq] at hlexemes
  have hparts := congrArg parts hlexemes
  rw [parts_intercalate (hne hkey) passes_nameLexemes,
    parts_intercalate (hne hkey') passes_nameLexemes] at hparts
  have hinjective : Function.Injective fun name => [Cql.Lexeme.ofBare name] := by
    intro a b hab
    exact Cql.Lexeme.ofBare_injective (List.head_eq_of_cons_eq hab)
  apply List.map_injective_iff.mpr hinjective
  rw [List.map_map, List.map_map]
  exact hparts

/-- The last of some lines can be told from their text. -/
theorem last_eq_of_intercalate_eq {sep a b : String} {lines : List String}
    (h : String.intercalate sep (lines ++ [a]) = String.intercalate sep (lines ++ [b])) :
  a = b
  := by
  induction lines with
  | nil => simpa using h
  | cons line lines ih =>
    have hne (c : String) : lines ++ [c] ≠ [] := by simp
    rw [List.cons_append, List.cons_append, String.intercalate_cons_of_ne_nil (hne a),
      String.intercalate_cons_of_ne_nil (hne b), String.append_right_inj] at h
    exact ih h

/-! ### Drafts that are turned down -/

namespace Draft

variable {α β : Type}

theorem exists_error_of_each {f : α → Draft β} {as : List α} (h : each f as = .error r) :
  ∃ a ∈ as, f a = .error r
  := by
  induction as with
  | nil => cases h
  | cons a as ih =>
    rcases bind_eq_error.mp h with ha | ⟨b, -, hrest⟩
    · exact ⟨a, List.mem_cons_self, ha⟩
    · rcases bind_eq_error.mp hrest with has | ⟨bs, -, hlast⟩
      · obtain ⟨a', ha', hf⟩ := ih has
        exact ⟨a', List.mem_cons_of_mem a ha', hf⟩
      · cases hlast

theorem error_of_rejectIf {condition : Bool} {r' : Rejection}
    (h : rejectIf condition r = .error r') :
  condition = true ∧ r = r'
  := by
  cases condition with
  | true =>
    cases h
    exact ⟨rfl, rfl⟩
  | false => cases h

end Draft

/-! ### The key of a new table -/

namespace CreateTable

/-- The names by which the columns of the key are looked up: those that are listed, or `id` if no
column is marked either. -/
def soughtNames (s : CreateTable) : List String :=
  if s.primaryKey.isEmpty then
    if ((s.columns.getD []).filter (·.primaryKey)).isEmpty then ["id"] else []
  else
    s.primaryKey.map Cql.unquote

/-- The declared name that is found by another one. -/
def found? (s : CreateTable) (name : String) : Option String :=
  (Column.find? (s.columns.getD []) name).map Column.name

/-- The names of the columns that are marked as key columns. -/
def markedNames (s : CreateTable) : List String :=
  ((s.columns.getD []).filter (·.primaryKey)).map (·.name)

theorem yields_keyColumn (s : CreateTable) (k name : String) :
  (keyColumn s.table (s.columns.getD []) k).Yields name ↔ s.found? (Cql.unquote k) = some name
  := by
  unfold keyColumn found?
  split
  next c hfind => simp [hfind, eq_comm]
  next hfind => simp [hfind]

/-- The key of a table has the marked columns, or the columns that are found by the names sought. -/
theorem yields_key (s : CreateTable) (key : List String) :
  (s.key (s.columns.getD [])).Yields key
    ↔ if s.soughtNames = [] then key = s.markedNames
      else s.soughtNames.map s.found? = key.map some
  := by
  have hlookup (names : List String) :
      List.Forall₂ (fun k name => s.found? k = some name) names key
        ↔ names.map s.found? = key.map some := by
    rw [← List.forall₂_eq_eq_eq, List.forall₂_map_left_iff, List.forall₂_map_right_iff]
  unfold CreateTable.key soughtNames
  cases hlisted : s.primaryKey.isEmpty with
  | false =>
    have hne : s.primaryKey ≠ [] := by simpa using hlisted
    simp only [Bool.not_false, if_true, Bool.false_eq_true, if_false, List.map_eq_nil_iff, hne,
      Draft.yields_each, yields_keyColumn, ← hlookup, List.forall₂_map_left_iff]
  | true =>
    simp only [Bool.not_true, Bool.false_eq_true, if_false, if_true]
    cases hmarked : (s.columns.getD []).filter (·.primaryKey) with
    | nil =>
      simp only [List.map_nil, List.isEmpty_nil, if_true, List.cons_ne_nil, if_false, ← hlookup,
        List.forall₂_cons_left_iff, List.forall₂_nil_left_iff, found?]
      split
      next c hfind => simp [hfind]
      next hfind => simp [hfind]
    | cons c cs => simp [markedNames, hmarked]

/-- The text that creates a table with the given key. -/
def textWith (s : CreateTable) (key : List String) : String :=
  "CREATE TABLE " ++ optionalText s.ifNotExists "IF NOT EXISTS " ++ s.table.cql ++ " (\n  "
    ++ String.intercalate ",\n  " ((s.columns.getD []).map Column.declaration
      ++ ["PRIMARY KEY (" ++ Cql.quoteIdentifiers key ++ ")"]) ++ "\n)"

theorem yields_cql (s : CreateTable) (text : String) :
  s.cql.Yields text
    ↔ s.table.name ≠ "" ∧ s.columns.getD [] ≠ []
      ∧ ∃ key, (s.key (s.columns.getD [])).Yields key ∧ text = s.textWith key
  := by
  have hyields : (Draft.each Column.cql (s.columns.getD [])).Yields
      ((s.columns.getD []).map Column.declaration) := by
    rw [Draft.yields_each, List.forall₂_map_right_iff, List.forall₂_same]
    intro c _
    exact (c.yields_cql _).mpr rfl
  have hparts (parts : List String) : (Draft.each Column.cql (s.columns.getD [])).Yields parts
      ↔ parts = (s.columns.getD []).map Column.declaration :=
    ⟨fun h => h.unique hyields, fun h => h ▸ hyields⟩
  simp only [CreateTable.cql, Draft.yields_bind, Draft.yields_rejectIf, Draft.yields_pure, hparts,
    decide_eq_false_iff_not, List.isEmpty_eq_false_iff]
  constructor
  · rintro ⟨-, hname, -, hcolumns, key, hkey, -, rfl, rfl⟩
    exact ⟨hname, hcolumns, key, hkey, rfl⟩
  · rintro ⟨hname, hcolumns, key, hkey, rfl⟩
    exact ⟨(), hname, (), hcolumns, key, hkey, _, rfl, rfl⟩

theorem textWith_congr (s : CreateTable) (h : key.map Cql.unquote = key'.map Cql.unquote) :
  s.textWith key = s.textWith key'
  := by
  have hquote (names : List String) :
      names.map Cql.quoteIdentifier = (names.map Cql.unquote).map Cql.quoteBare := by
    rw [List.map_map]
    apply List.map_congr_left
    intro name _
    rw [Function.comp_apply, Cql.quoteIdentifier]
  have hnames : Cql.quoteIdentifiers key = Cql.quoteIdentifiers key' := by
    rw [Cql.quoteIdentifiers, Cql.quoteIdentifiers, hquote, hquote, h]
  unfold textWith
  rw [hnames]

/-- Keys that make the same text have the same names but for quotes. -/
theorem unquote_of_textWith_eq (s : CreateTable) (hkey : key ≠ []) (hkey' : key' ≠ [])
    (h : s.textWith key = s.textWith key') :
  key.map Cql.unquote = key'.map Cql.unquote
  := by
  have hlines := (String.append_right_inj _).mp ((String.append_left_inj "\n)").mp h)
  exact Definition.unquote_of_key_eq hkey hkey' (last_eq_of_intercalate_eq hlines)

/-- The category under which a table is turned down. -/
def faultCategory (s : CreateTable) : Category :=
  if s.primaryKey.isEmpty || (s.columns.getD []).isEmpty then .missingRequiredClause
  else .invalidStatement

theorem category_of_key {s : CreateTable} {columns : List Column} (h : s.key columns = .error r) :
  r.category = if s.primaryKey.isEmpty then .missingRequiredClause else .invalidStatement
  := by
  unfold CreateTable.key at h
  cases hlisted : s.primaryKey.isEmpty with
  | false =>
    rw [hlisted] at h
    obtain ⟨k, -, hk⟩ := Draft.exists_error_of_each h
    unfold keyColumn at hk
    split at hk
    next => cases hk
    next =>
      cases hk
      simp only [Bool.false_eq_true, if_false, Rejection.category]
  | true =>
    rw [hlisted] at h
    simp only [Bool.not_true, Bool.false_eq_true, if_false] at h
    split at h
    next =>
      split at h
      next => cases h
      next =>
        cases h
        simp only [if_true, Rejection.category]
    next => cases h

/-- A table that has a name is turned down under one category. -/
theorem category_of_cql {s : CreateTable} (hname : s.table.name ≠ "") (h : s.cql = .error r) :
  r.category = s.faultCategory
  := by
  unfold CreateTable.cql at h
  rcases Draft.bind_eq_error.mp h with h | ⟨-, -, h⟩
  · exact absurd (of_decide_eq_true (Draft.error_of_rejectIf h).1) hname
  rcases Draft.bind_eq_error.mp h with h | ⟨u, hcolumns, h⟩
  · obtain ⟨hempty, rfl⟩ := Draft.error_of_rejectIf h
    simp only [faultCategory, hempty, Bool.or_true, if_true, Rejection.category]
  rw [Draft.yields_rejectIf] at hcolumns
  rcases Draft.bind_eq_error.mp h with h | ⟨key, -, h⟩
  · rw [faultCategory, hcolumns, Bool.or_false, category_of_key h]
  rcases Draft.bind_eq_error.mp h with h | ⟨parts, -, h⟩
  · obtain ⟨c, -, hc⟩ := Draft.exists_error_of_each h
    obtain ⟨ws, hok⟩ := (c.yields_cql _).mpr rfl
    cases hc.symm.trans hok
  · cases h

end CreateTable

/-! ### Outcomes -/

/-- Two outcomes come to the same: the same text, or a failure of the same category. -/
def SameOutcome : Except Failure Rendering → Except Failure Rendering → Prop
  | .ok r, .ok r' => r.text = r'.text
  | .error f, .error f' => f.category = f'.category
  | _, _ => False

instance : (o o' : Except Failure Rendering) → Decidable (SameOutcome o o')
  | .ok r, .ok r' => inferInstanceAs (Decidable (r.text = r'.text))
  | .error f, .error f' => inferInstanceAs (Decidable (f.category = f'.category))
  | .ok _, .error _ => isFalse id
  | .error _, .ok _ => isFalse id

namespace CreateTable

variable {s s' : CreateTable}

/-- Tables that are turned down under the same category come to the same if they have the same
texts. -/
theorem sameOutcome_iff_yields (options : RenderingOptions) (hname : s.table.name ≠ "")
    (hname' : s'.table.name ≠ "") (hfault : s.faultCategory = s'.faultCategory) :
  SameOutcome ((Statement.createTable s).render options) ((Statement.createTable s').render options)
    ↔ ∀ text, s.cql.Yields text ↔ s'.cql.Yields text
  := by
  have hno {d : Draft String} {r : Rejection} (hd : d = .error r) (text : String) :
      ¬ d.Yields text := by
    rintro ⟨ws, hok⟩
    cases hd.symm.trans hok
  rcases @Statement.render_of_draft options (.createTable s) _ rfl with
    ⟨r, hr, hrender⟩ | ⟨text, ws, hok, -, hrender⟩
  all_goals
    rcases @Statement.render_of_draft options (.createTable s') _ rfl with
      ⟨r', hr', hrender'⟩ | ⟨text', ws', hok', -, hrender'⟩
  all_goals rw [hrender, hrender']
  · have hsame : r.failure.category = r'.failure.category := by
      rw [r.category_failure, r'.category_failure, category_of_cql hname hr,
        category_of_cql hname' hr', hfault]
    exact iff_of_true hsame fun text => iff_of_false (hno hr text) (hno hr' text)
  · exact iff_of_false id fun h => hno hr text' ((h text').mpr ⟨ws', hok'⟩)
  · exact iff_of_false id fun h => hno hr' text ((h text).mp ⟨ws, hok⟩)
  · have hyields : s.cql.Yields text := ⟨ws, hok⟩
    have hyields' : s'.cql.Yields text' := ⟨ws', hok'⟩
    constructor
    · rintro (rfl : text = text') other
      constructor
      · intro h
        rwa [h.unique hyields]
      · intro h
        rwa [h.unique hyields']
    · intro h
      exact ((h text).mp hyields).unique hyields'

end CreateTable

/-! ### Quotes around names -/

/-- The second column is the first one, its name as it can be written in a source. -/
def Column.IsRequoted (c c' : Column) : Prop :=
  ∃ q : Cql.Quoting, c' = { c with name := q.write c.name }

theorem Column.IsRequoted.name {c c' : Column} (h : c.IsRequoted c') :
  Cql.IsRequoted c.name c'.name
  := by
  obtain ⟨q, rfl⟩ := h
  exact ⟨q, rfl⟩

theorem Column.IsRequoted.declaration_eq {c c' : Column} (h : c.IsRequoted c')
    (hc : Cql.isClean c.name = true) :
  c'.declaration = c.declaration
  := by
  have hname := h.name.quoteIdentifier_eq hc
  obtain ⟨q, rfl⟩ := h
  rw [Column.declaration, hname]
  rfl

namespace CreateTable

variable {k : String}

/-- The names of a table, of its columns and of its key are there, without quotes or brackets, and
without blanks at their ends. -/
structure HasCleanNames (s : CreateTable) : Prop where
  table : Cql.isClean s.table.name = true
  columns : ∀ c ∈ s.columns.getD [], Cql.isClean c.name = true
  primaryKey : ∀ k ∈ s.primaryKey, Cql.isClean k = true

/-- The second statement is the first one, each of its names as it can be written in a source. -/
structure IsRequoted (s s' : CreateTable) : Prop where
  keyspace : s'.table.keyspace = s.table.keyspace
    ∨ Cql.isClean s.table.keyspace = true ∧ Cql.IsRequoted s.table.keyspace s'.table.keyspace
  table : Cql.IsRequoted s.table.name s'.table.name
  ifNotExists : s'.ifNotExists = s.ifNotExists
  columns : List.Forall₂ Column.IsRequoted (s.columns.getD []) (s'.columns.getD [])
  primaryKey : List.Forall₂ Cql.IsRequoted s.primaryKey s'.primaryKey

/-- The columns that are declared without quotes. -/
def bareColumns (s : CreateTable) : List Column :=
  (s.columns.getD []).filter fun c => Cql.unquote c.name = c.name

/-- The declared name without quotes that is found by another one. -/
def foundBare? (s : CreateTable) (name : String) : Option String :=
  (Column.find? s.bareColumns name).map Column.name

variable {s s' : CreateTable}

theorem HasCleanNames.sought (hs : s.HasCleanNames) :
  ∀ k ∈ s.soughtNames, Cql.isClean k = true
  := by
  intro k hk
  unfold soughtNames at hk
  split at hk
  next =>
    split at hk
    next =>
      rw [List.mem_singleton.mp hk]
      decide
    next => cases hk
  next =>
    obtain ⟨listed, hlisted, rfl⟩ := List.mem_map.mp hk
    rw [Cql.unquote_of_isClean (hs.primaryKey listed hlisted)]
    exact hs.primaryKey listed hlisted

/-- Names that are found are declared, so they have no quotes. -/
theorem HasCleanNames.unquote_of_found? (hs : s.HasCleanNames) {name : String}
    (h : s.found? k = some name) :
  Cql.unquote name = name
  := by
  obtain ⟨c, hfind, rfl⟩ := Option.map_eq_some_iff.mp h
  exact Cql.unquote_of_isClean (hs.columns c (List.mem_of_find?_eq_some hfind))

theorem unquote_of_foundBare? {name : String} (h : s.foundBare? k = some name) :
  Cql.unquote name = name
  := by
  obtain ⟨c, hfind, rfl⟩ := Option.map_eq_some_iff.mp h
  have hc := List.mem_of_find?_eq_some hfind
  exact of_decide_eq_true (List.mem_filter.mp hc).2

namespace IsRequoted

theorem table_cql_eq (h : s.IsRequoted s') (hs : s.HasCleanNames) :
  s'.table.cql = s.table.cql
  := by
  unfold TableName.cql
  rw [h.table.quoteIdentifier_eq hs.table]
  rcases h.keyspace with heq | ⟨hclean, hrequoted⟩
  · rw [heq]
  · have hne : s.table.keyspace ≠ "" := Cql.IsRequoted.ne_empty ⟨.bare, rfl⟩ hclean
    rw [if_neg (hrequoted.ne_empty hclean), if_neg hne, hrequoted.quoteIdentifier_eq hclean]

/-- The columns side by side, with the clean names of the first ones. -/
theorem clean_columns (h : s.IsRequoted s') (hs : s.HasCleanNames) :
  List.Forall₂ (fun c c' => Cql.isClean c.name = true ∧ c.IsRequoted c') (s.columns.getD [])
    (s'.columns.getD [])
  := (List.forall₂_and_left _ _).mpr ⟨hs.columns, h.columns⟩

theorem marked_columns (h : s.IsRequoted s') (hs : s.HasCleanNames) :
  List.Forall₂ (fun c c' => Cql.isClean c.name = true ∧ c.IsRequoted c')
    ((s.columns.getD []).filter (·.primaryKey)) ((s'.columns.getD []).filter (·.primaryKey))
  := by
  apply List.rel_filter _ (h.clean_columns hs)
  rintro c c' ⟨-, q, rfl⟩
  rfl

theorem textWith_eq (h : s.IsRequoted s') (hs : s.HasCleanNames) (key : List String) :
  s'.textWith key = s.textWith key
  := by
  have hdeclarations := map_eq_map_of_forall₂ (h.clean_columns hs)
    fun c c' hc => (hc.2.declaration_eq hc.1).symm
  unfold textWith
  rw [h.ifNotExists, h.table_cql_eq hs, hdeclarations]

theorem soughtNames_eq (h : s.IsRequoted s') (hs : s.HasCleanNames) :
  s'.soughtNames = s.soughtNames
  := by
  have hlisted := (List.forall₂_and_left _ _).mpr ⟨hs.primaryKey, h.primaryKey⟩
  have hnames := map_eq_map_of_forall₂ hlisted fun k k' hk => (hk.2.unquote_eq hk.1).symm
  unfold soughtNames
  rw [hnames, isEmpty_eq_of_forall₂ h.primaryKey, isEmpty_eq_of_forall₂ (h.marked_columns hs)]

theorem unquote_markedNames (h : s.IsRequoted s') (hs : s.HasCleanNames) :
  s'.markedNames.map Cql.unquote = s.markedNames.map Cql.unquote
  := by
  have hnames := map_eq_map_of_forall₂ (h.marked_columns hs)
    fun c c' hc => (hc.2.name.unquote_eq hc.1).symm
  rw [markedNames, markedNames, List.map_map, List.map_map]
  exact hnames.symm

/-- A column that is found by a clean name is declared without quotes. -/
theorem exists_declared (h : s.IsRequoted s') (hk : Cql.isClean k = true) {c' : Column}
    (hc' : c' ∈ s'.columns.getD []) (hfold : Text.equalFold c'.name k = true) :
  ∃ c ∈ s.columns.getD [], c'.name = c.name
  := by
  obtain ⟨c, hc, q, rfl⟩ := (exists_of_forall₂ h.columns).2 c' hc'
  exact ⟨c, hc, Cql.write_eq_of_equalFold hk hfold⟩

theorem found?_eq (h : s.IsRequoted s') (hs : s.HasCleanNames) (hk : Cql.isClean k = true) :
  s'.found? k = s'.foundBare? k
  := by
  have hfind : Column.find? (s'.columns.getD []) k = Column.find? s'.bareColumns k := by
    rw [bareColumns, Column.find?, Column.find?, List.find?_filter]
    apply List.find?_congr
    intro c' hc'
    rw [Bool.eq_iff_iff, decide_eq_true_eq, decide_eq_true_eq]
    constructor
    · intro hfold
      obtain ⟨c, hc, hname⟩ := h.exists_declared hk hc' hfold
      refine ⟨?_, hfold⟩
      rw [hname, Cql.unquote_of_isClean (hs.columns c hc)]
    · exact And.right
  rw [found?, foundBare?, hfind]

/-- What is not found among clean names is not found among those without quotes. -/
theorem foundBare?_eq_none (h : s.IsRequoted s') (hk : Cql.isClean k = true)
    (hnone : s.found? k = none) :
  s'.foundBare? k = none
  := by
  rw [found?, Option.map_eq_none_iff, Column.find?, List.find?_eq_none] at hnone
  rw [foundBare?, Option.map_eq_none_iff, Column.find?, List.find?_eq_none]
  intro c' hc' hfold
  obtain ⟨c, hc, hname⟩ := h.exists_declared hk (List.mem_of_mem_filter hc') hfold
  apply hnone c hc
  rwa [← hname]

theorem faultCategory_eq (h : s.IsRequoted s') :
  s.faultCategory = s'.faultCategory
  := by
  rw [faultCategory, faultCategory, isEmpty_eq_of_forall₂ h.primaryKey,
    isEmpty_eq_of_forall₂ h.columns]

end IsRequoted

/-- A statement has a text with the key that is found by the names sought, if any are. -/
theorem yields_cql_of_sought (hname : s.table.name ≠ "") (hsought : s.soughtNames ≠ [])
    (text : String) :
  s.cql.Yields text
    ↔ ∃ key, s.soughtNames.map s.found? = key.map some ∧ text = s.textWith key
  := by
  have hcolumns {key : List String} (hkey : s.soughtNames.map s.found? = key.map some) :
      s.columns.getD [] ≠ [] := by
    intro hnone
    obtain ⟨k, hk⟩ := List.exists_mem_of_ne_nil _ hsought
    have hfind : s.found? k = none := by rw [found?, hnone]; rfl
    exact map_ne_map_some hk hfind key hkey
  simp only [yields_cql, yields_key, if_neg hsought]
  constructor
  · rintro ⟨-, -, key, hkey, rfl⟩
    exact ⟨key, hkey, rfl⟩
  · rintro ⟨key, hkey, rfl⟩
    exact ⟨hname, hcolumns hkey, key, hkey, rfl⟩

/-- With marked columns as the key, quotes do not matter. -/
theorem IsRequoted.yields_cql_of_marked (h : s.IsRequoted s') (hs : s.HasCleanNames)
    (hsought : s.soughtNames = []) (text : String) :
  s.cql.Yields text ↔ s'.cql.Yields text
  := by
  have hsought' : s'.soughtNames = [] := (h.soughtNames_eq hs).trans hsought
  have hname : s.table.name ≠ "" := Cql.IsRequoted.ne_empty ⟨.bare, rfl⟩ hs.table
  have hname' : s'.table.name ≠ "" := h.table.ne_empty hs.table
  have hcolumns : s.columns.getD [] ≠ [] ↔ s'.columns.getD [] ≠ [] := by
    rw [← List.isEmpty_eq_false_iff, ← List.isEmpty_eq_false_iff, isEmpty_eq_of_forall₂ h.columns]
  have htext : s'.textWith s'.markedNames = s.textWith s.markedNames :=
    (h.textWith_eq hs _).trans (s.textWith_congr (h.unquote_markedNames hs))
  simp only [yields_cql, yields_key, hsought, hsought', if_true, exists_eq_left, htext, hcolumns,
    ne_eq, hname, hname', not_false_eq_true]

/-- Two ways to find names lead to the same texts if and only if one of the names is not found, or
each is found in the same way. -/
theorem forall_found_iff {f g : String → Option String} {names : List String}
    {textOf : List String → String} (hnone : ∀ k ∈ names, f k = none → g k = none)
    (hinj : ∀ key key', names.map f = key.map some → names.map g = key'.map some →
      textOf key = textOf key' → key = key') :
  (∀ text, (∃ key, names.map f = key.map some ∧ text = textOf key)
      ↔ ∃ key, names.map g = key.map some ∧ text = textOf key)
    ↔ (∃ k ∈ names, f k = none) ∨ ∀ k ∈ names, g k = f k
  := by
  constructor
  · intro h
    by_cases hfound : ∃ k ∈ names, f k = none
    · exact .inl hfound
    right
    push Not at hfound
    have hkey : names.map f = (names.map fun k => (f k).getD "").map some := by
      rw [List.map_map]
      apply List.map_congr_left
      intro k hk
      obtain ⟨name, hname⟩ := Option.ne_none_iff_exists'.mp (hfound k hk)
      simp [hname]
    obtain ⟨key', hkey', htext⟩ := (h _).mp ⟨_, hkey, rfl⟩
    have hsame := hinj _ _ hkey hkey' htext
    apply List.map_inj_left.mp
    rw [hkey', hkey, hsame]
  · rintro (⟨k, hk, hfind⟩ | hsame) text
    · apply iff_of_false
      · rintro ⟨key, hkey, -⟩
        exact map_ne_map_some hk hfind key hkey
      · rintro ⟨key, hkey, -⟩
        exact map_ne_map_some hk (hnone k hk hfind) key hkey
    · rw [List.map_congr_left hsame]

theorem unquote_key {find : String → Option String} {names : List String}
    (hkey : names.map find = key.map some)
    (hfind : ∀ k name, find k = some name → Cql.unquote name = name) :
  key.map Cql.unquote = key
  := by
  have hnames : ∀ name ∈ key, Cql.unquote name = id name := by
    intro name hname
    have hmem : some name ∈ names.map find := by
      rw [hkey]
      exact List.mem_map_of_mem hname
    obtain ⟨k, -, hk⟩ := List.mem_map.mp hmem
    exact hfind k name hk
  rw [List.map_congr_left hnames, List.map_id]

/-- Statements that only differ in the quotes of their names come to the same if and only if a name
that is sought is not declared, or each is found among the columns without quotes as it is found
among all. -/
theorem sameOutcome_requoted_iff (options : RenderingOptions) (hs : s.HasCleanNames)
    (h : s.IsRequoted s') :
  SameOutcome ((Statement.createTable s).render options) ((Statement.createTable s').render options)
    ↔ (∃ k ∈ s.soughtNames, s.found? k = none) ∨ ∀ k ∈ s.soughtNames, s'.foundBare? k = s.found? k
  := by
  have hname : s.table.name ≠ "" := Cql.IsRequoted.ne_empty ⟨.bare, rfl⟩ hs.table
  have hname' : s'.table.name ≠ "" := h.table.ne_empty hs.table
  rw [sameOutcome_iff_yields options hname hname' h.faultCategory_eq]
  by_cases hsought : s.soughtNames = []
  · apply iff_of_true
    · exact h.yields_cql_of_marked hs hsought
    · right
      rw [hsought]
      exact List.forall_mem_nil _
  · have hsought' : s'.soughtNames ≠ [] := by rwa [h.soughtNames_eq hs]
    have hfound : s.soughtNames.map s'.found? = s.soughtNames.map s'.foundBare? :=
      List.map_congr_left fun k hk => h.found?_eq hs (hs.sought k hk)
    simp only [yields_cql_of_sought hname hsought, yields_cql_of_sought hname' hsought',
      h.soughtNames_eq hs, hfound, h.textWith_eq hs]
    apply forall_found_iff
    · intro k hk
      exact h.foundBare?_eq_none (hs.sought k hk)
    · intro key key' hkey hkey' htext
      have hne {find : String → Option String} {names : List String}
          (hnames : s.soughtNames.map find = names.map some) : names ≠ [] := by
        rintro rfl
        exact hsought (List.map_eq_nil_iff.mp hnames)
      have hunquoted := s.unquote_of_textWith_eq (hne hkey) (hne hkey') htext
      rwa [unquote_key hkey fun k name => hs.unquote_of_found?,
        unquote_key hkey' fun k name => unquote_of_foundBare?] at hunquoted

/-- A table whose key lists two columns in other cases of letters. -/
def members : CreateTable where
  table := ⟨"club", "members"⟩
  columns := some [{ name := "id", sourceType := "int" }, { name := "Mail", sourceType := "text" },
    { name := "born", sourceType := "date" }]
  primaryKey := ["ID", "mail"]

/-- The table with quotes around all names but those of the two columns. -/
def quotedMembers : CreateTable where
  table := ⟨"[club]", "\x60members\x60"⟩
  columns := some [{ name := "id", sourceType := "int" }, { name := "Mail", sourceType := "text" },
    { name := "\"born\"", sourceType := "date" }]
  primaryKey := ["[ID]", "\"mail\""]

theorem sameOutcome_quotedMembers :
  members.HasCleanNames ∧ members.IsRequoted quotedMembers
    ∧ SameOutcome ((Statement.createTable members).render {})
      ((Statement.createTable quotedMembers).render {})
  := by
  have hclean : members.HasCleanNames := ⟨by decide, by decide, by decide⟩
  have hrequoted : members.IsRequoted quotedMembers := by
    refine ⟨.inr ⟨by decide, .brackets, rfl⟩, ⟨.backticks, rfl⟩, rfl, ?_, ?_⟩
    · exact .cons ⟨.bare, rfl⟩ (.cons ⟨.bare, rfl⟩ (.cons ⟨.doubleQuotes, rfl⟩ .nil))
    · exact .cons ⟨.brackets, rfl⟩ (.cons ⟨.doubleQuotes, rfl⟩ .nil)
  refine ⟨hclean, hrequoted, (sameOutcome_requoted_iff {} hclean hrequoted).mpr (.inr ?_)⟩
  decide

/-- A table with a column that is declared in backticks and listed without. -/
def quotedNotes : CreateTable where
  table := ⟨"", "t"⟩
  columns := some [{ name := "\x60id\x60", sourceType := "int" }]
  primaryKey := ["id"]

/-- The table without the backticks. -/
def bareNotes : CreateTable :=
  { quotedNotes with columns := some [{ name := "id", sourceType := "int" }] }

/-- The table is created without the backticks, and turned down with them. -/
theorem render_quotedNotes :
  bareNotes.HasCleanNames ∧ bareNotes.IsRequoted quotedNotes
    ∧ (Statement.createTable bareNotes).render {}
      = .ok { text := "CREATE TABLE t (\n  id int,\n  PRIMARY KEY (id)\n)" }
    ∧ ¬ SameOutcome ((Statement.createTable bareNotes).render {})
      ((Statement.createTable quotedNotes).render {})
  := by
  refine ⟨⟨by decide, by decide, by decide⟩, ?_, by decide, by decide⟩
  exact ⟨.inl rfl, ⟨.bare, rfl⟩, rfl, .cons ⟨.backticks, rfl⟩ .nil, .cons ⟨.bare, rfl⟩ .nil⟩

end CreateTable

end CqlGateway

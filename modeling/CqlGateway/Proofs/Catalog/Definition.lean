import CqlGateway.Proofs.Cql.Lexeme
import CqlGateway.Proofs.Cql.Parts

/-!
# Definitions

What the statements of a script define: tables, columns and indexes that are to be created or
dropped. A definition is read from the text of a statement, so that it says what the store is told
and not what was meant. Tables and indexes are created unless they exist and dropped if they exist.

Main statements: the texts that the gateway writes for tables, indexes and alterations are read as
the definitions that they stand for.
-/

namespace CqlGateway

open Cql (Lexeme ColumnType)

variable {lss : List (List Lexeme)} {ls : List Lexeme} {texts : List String} {name : String}

/-- What a statement of a script tells the store to do. -/
inductive Definition where
  | createKeyspace
  | createTable (table : TableName) (columns : List (String × ColumnType)) (key : List String)
  | dropTable (table : TableName)
  | addColumns (table : TableName) (columns : List (String × ColumnType))
  | dropColumns (table : TableName) (columns : List String)
  | createIndex (name : String) (table : TableName) (column : String)
  | dropIndex (name : TableName)
  deriving DecidableEq, Repr

/-! ### Names -/

/-- The name that the store has for what is written with the given one. -/
def Cql.storedName (name : String) : String :=
  if isBare (unquote name) then Text.lower (unquote name) else unquote name

/-- Whether a name is plain and in small letters. -/
def Cql.isLowerName (name : String) : Bool :=
  isPlain name.toList && name.toList.all fun c => !c.isUpper

theorem Cql.toNat_lt_of_isNameChar {c : Char} (hc : isNameChar c = true) :
  c.toNat < 128
  := by
  have hcode := code_of_isNameChar hc
  omega

theorem Cql.toLower_of_not_isUpper {c : Char} (hc : c.isUpper = false) :
  c.toLower = c
  := by
  apply dif_neg
  exact of_decide_eq_false hc

/-- Case maps leave the characters of a plain name in small letters as they are. -/
theorem Cql.map_of_isLowerName (h : isLowerName name = true) {f : Char → Char}
    (hf : ∀ c, c.toNat < 128 → f c = c.toLower) :
  name.toList.map f = name.toList
  := by
  rw [isLowerName, Bool.and_eq_true, List.all_eq_true] at h
  have hself : ∀ c ∈ name.toList, f c = id c := by
    intro c hc
    have hname := List.all_eq_true.mp (nameChars_of_isPlain h.1) c hc
    rw [hf c (toNat_lt_of_isNameChar hname), toLower_of_not_isUpper (by simpa using h.2 c hc), id]
  rw [List.map_congr_left hself, List.map_id]

theorem Cql.lower_of_isLowerName (h : isLowerName name = true) :
  Text.lower name = name
  := by
  have hmap : name.toList.map Text.lowerChar = name.toList :=
    map_of_isLowerName h fun c hc => if_pos hc
  rw [Text.lower, hmap, String.ofList_toList]

theorem Cql.fold_of_isLowerName (h : isLowerName name = true) :
  Text.fold name = name
  := by
  have hmap : name.toList.map Text.foldChar = name.toList :=
    map_of_isLowerName h fun c hc => if_pos hc
  rw [Text.fold, hmap, String.ofList_toList]

theorem Cql.unquote_of_isPlain (h : isPlain name.toList = true) :
  unquote name = name
  := by
  have hchars := nameChars_of_isPlain h
  cases hname : name.toList with
  | nil =>
    rw [hname] at h
    cases h
  | cons c cs =>
    have hsolid : Text.trimChars (c :: cs) = c :: cs := by
      rw [hname] at hchars
      apply Text.trimChars_of_solid _ (endsSolid_of_nameChars hchars (List.cons_ne_nil _ _))
      rw [List.all_cons, Bool.and_eq_true] at hchars
      simp [Text.startsSolid, isBlank_of_isNameChar hchars.1]
    have hquote : closingQuote? c = none := by
      rw [hname, List.all_cons, Bool.and_eq_true] at hchars
      have hne : ∀ d : Char, isNameChar d = false → c ≠ d := by
        rintro d hd rfl
        rw [hd] at hchars
        cases hchars.1
      simp [closingQuote?, hne '\x60' (by decide), hne '"' (by decide), hne '[' (by decide)]
    have hunquoted : unquoteChars (c :: cs) = c :: cs := by
      cases cs with
      | nil => rfl
      | cons d ds =>
        rw [unquoteChars, hquote, List.getLast?_eq_some_getLast (List.cons_ne_nil d ds),
          if_neg (Option.some_ne_none _).symm]
    rw [unquote, hname, hsolid, hunquoted, ← hname, String.ofList_toList]

theorem Cql.storedName_of_isLowerName (h : isLowerName name = true) :
  storedName name = name
  := by
  have hplain := h
  rw [isLowerName, Bool.and_eq_true] at hplain
  rw [storedName, unquote_of_isPlain hplain.1, lower_of_isLowerName h, ite_self]

/-- The lexeme of a name. -/
def Cql.Lexeme.ofName (name : String) : Lexeme :=
  Lexeme.ofBare (unquote name)

theorem Cql.Lexeme.lexesTo_quoteIdentifier (name : String) :
  Lexeme.LexesTo (quoteIdentifier name).toList [Lexeme.ofName name]
  := lexesTo_quoteBare _

@[simp]
theorem Cql.Lexeme.identifier?_ofName (name : String) :
  (Lexeme.ofName name).identifier? = some (storedName name)
  := identifier?_ofBare _

theorem Cql.Lexeme.ofName_ne_mark (name : String) (c : Char) :
  Lexeme.ofName name ≠ .mark c
  := by
  unfold ofName ofBare
  split <;> simp

open Cql.Lexeme (LexesTo Separates lexesTo_intercalate lexesTo_quoteIdentifier ofName ofName_ne_mark)

namespace TableName

/-- The name that the store has for a table. -/
def stored (t : TableName) : TableName where
  keyspace := if t.keyspace = "" then "" else Cql.storedName t.keyspace
  name := Cql.storedName t.name

/-- The lexemes of the name of a table. -/
def lexemes (t : TableName) : List Lexeme :=
  if t.keyspace = "" then [ofName t.name]
  else [ofName t.keyspace] ++ ([.mark '.'] ++ [ofName t.name])

/-- The name that lexemes start with, and the lexemes behind it. -/
def read? : List Lexeme → Option (TableName × List Lexeme)
  | keyspace :: .mark '.' :: name :: rest => do
    return (⟨← keyspace.identifier?, ← name.identifier?⟩, rest)
  | name :: rest => do return (⟨"", ← name.identifier?⟩, rest)
  | [] => none

theorem lexesTo_cql (t : TableName) :
  LexesTo t.cql.toList t.lexemes
  := by
  unfold cql lexemes
  split
  next => apply lexesTo_quoteIdentifier
  next =>
    rw [String.toList_append, String.toList_append, List.append_assoc]
    have hdot : Separates ".".toList [.mark '.'] := ⟨fun _ => rfl, fun _ => rfl⟩
    exact (lexesTo_quoteIdentifier _).join hdot (lexesTo_quoteIdentifier _)

theorem read?_lexemes (t : TableName) (rest : List Lexeme)
    (hrest : rest.head? ≠ some (.mark '.')) :
  read? (t.lexemes ++ rest) = some (t.stored, rest)
  := by
  unfold lexemes stored
  split
  next hkeyspace =>
    rw [List.cons_append, List.nil_append, read?]
    · simp
    · rintro name ls rfl
      apply hrest rfl
  next => simp [read?]

end TableName

variable {ds : List Definition}

namespace Definition

/-! ### Reading -/

/-- What stands behind some keywords. -/
def after? : List String → List Lexeme → Option (List Lexeme)
  | [], ls => some ls
  | keyword :: keywords, .word w :: ls => if w = keyword then after? keywords ls else none
  | _ :: _, _ => none

/-- What stands between parentheses. -/
def group? : List Lexeme → Option (List Lexeme)
  | .mark '(' :: ls => if ls.getLast? = some (.mark ')') then some ls.dropLast else none
  | _ => none

/-- The parts between commas outside parentheses, given how many parentheses are open and what was
read of a part so far, reversed. -/
def partsFrom (depth : Nat) (part : List Lexeme) : List Lexeme → List (List Lexeme)
  | [] => [part.reverse]
  | .mark c :: ls =>
    if c = ',' ∧ depth = 0 then part.reverse :: partsFrom 0 [] ls
    else if c = '(' then partsFrom (depth + 1) (.mark c :: part) ls
    else if c = ')' then partsFrom (depth - 1) (.mark c :: part) ls
    else partsFrom depth (.mark c :: part) ls
  | l :: ls => partsFrom depth (l :: part) ls

/-- The parts of a list. -/
def parts (ls : List Lexeme) : List (List Lexeme) :=
  partsFrom 0 [] ls

/-- The parts of a list in parentheses, or the only part, which stands bare. -/
def grouped (ls : List Lexeme) : List (List Lexeme) :=
  match group? ls with
  | some inner => parts inner
  | none => [ls]

/-- The column that is declared. -/
def column? : List Lexeme → Option (String × ColumnType)
  | name :: ls =>
    match name.identifier?, ColumnType.read? ls with
    | some name, some (type, []) => some (name, type)
    | _, _ => none
  | [] => none

/-- The name that stands alone. -/
def name? : List Lexeme → Option String
  | [name] => name.identifier?
  | _ => none

/-- The columns and the key of a table; the key is declared last. -/
def body? (parts : List (List Lexeme)) : Option (List (String × ColumnType) × List String) := do
  let key ← after? ["PRIMARY", "KEY"] (← parts.getLast?)
  return (← parts.dropLast.mapM column?, ← (Definition.parts (← group? key)).mapM name?)

/-- What creates a table. -/
def readTable? (ls : List Lexeme) : Option Definition := do
  let (table, rest) ← TableName.read? ls
  let (columns, key) ← body? (parts (← group? rest))
  return .createTable table columns key

/-- What creates an index. -/
def readIndex? : List Lexeme → Option Definition
  | name :: ls => do
    let (table, rest) ← TableName.read? (← after? ["ON"] ls)
    return .createIndex (← name.identifier?) table (← name? (← group? rest))
  | [] => none

/-- What drops something. -/
def readDrop? (drop : TableName → Definition) (ls : List Lexeme) : Option Definition := do
  let (name, []) ← TableName.read? ls | none
  return drop name

/-- What alters a table. -/
def readAlteration? (ls : List Lexeme) : Option Definition := do
  let (table, rest) ← TableName.read? ls
  match after? ["ADD"] rest with
  | some added => return .addColumns table (← (grouped added).mapM column?)
  | none => return .dropColumns table (← (grouped (← after? ["DROP"] rest)).mapM name?)

/-- The definition that lexemes make. -/
def read? (ls : List Lexeme) : Option Definition :=
  (after? ["CREATE", "TABLE", "IF", "NOT", "EXISTS"] ls).bind readTable?
    <|> (after? ["CREATE", "INDEX", "IF", "NOT", "EXISTS"] ls).bind readIndex?
    <|> (after? ["DROP", "TABLE", "IF", "EXISTS"] ls).bind (readDrop? .dropTable)
    <|> (after? ["DROP", "INDEX", "IF", "EXISTS"] ls).bind (readDrop? .dropIndex)
    <|> (after? ["ALTER", "TABLE"] ls).bind readAlteration?

/-- The definitions that a text makes, one for each statement. The replication of a keyspace is
left aside. -/
def ofText? (text : String) : Option (List Definition) :=
  let ls := Lexeme.all text.toList
  if (after? ["CREATE", "KEYSPACE"] ls).isSome then some [.createKeyspace]
  else ((ls.splitOn (.mark ';')).filter (· ≠ [])).mapM read?

/-- The definitions that the statements of a script make. -/
def ofScript? (statements : List String) : Option (List Definition) :=
  (statements.mapM ofText?).map List.flatten

theorem ofScript?_append {as bs : List String} {es : List Definition} (has : ofScript? as = some ds)
    (hbs : ofScript? bs = some es) :
  ofScript? (as ++ bs) = some (ds ++ es)
  := by
  rw [ofScript?, Option.map_eq_some_iff] at has hbs ⊢
  obtain ⟨dss, hdss, rfl⟩ := has
  obtain ⟨ess, hess, rfl⟩ := hbs
  refine ⟨dss ++ ess, ?_, List.flatten_append⟩
  rw [List.mapM_append, hdss, hess]
  rfl

/-! ### Lists in parentheses -/

/-- Whether lexemes are passed over as they stand when a list is taken apart. -/
def Passes (ls : List Lexeme) : Prop :=
  ∀ depth part rest, partsFrom depth part (ls ++ rest) = partsFrom depth (ls.reverse ++ part) rest

/-- Whether lexemes are passed over inside parentheses. -/
def PassesInside (ls : List Lexeme) : Prop :=
  ∀ depth part rest,
    partsFrom (depth + 1) part (ls ++ rest) = partsFrom (depth + 1) (ls.reverse ++ part) rest

theorem Passes.inside (h : Passes ls) :
  PassesInside ls
  := fun depth => h (depth + 1)

theorem Passes.append {ms : List Lexeme} (hls : Passes ls) (hms : Passes ms) :
  Passes (ls ++ ms)
  := by
  intro depth part rest
  rw [List.append_assoc, hls, hms, List.reverse_append, List.append_assoc]

theorem PassesInside.append {ms : List Lexeme} (hls : PassesInside ls) (hms : PassesInside ms) :
  PassesInside (ls ++ ms)
  := by
  intro depth part rest
  rw [List.append_assoc, hls, hms, List.reverse_append, List.append_assoc]

theorem passesInside_comma :
  PassesInside [.mark ',']
  := by
  intro depth part rest
  simp [partsFrom]

theorem PassesInside.group (h : PassesInside ls) :
  Passes ([Lexeme.mark '('] ++ (ls ++ [Lexeme.mark ')']))
  := by
  intro depth part rest
  simp [partsFrom, h depth]

/-- A lexeme that has no part in the structure of a list. -/
def isInert (l : Lexeme) : Bool :=
  l ≠ .mark ',' && l ≠ .mark '(' && l ≠ .mark ')'

theorem passes_of_isInert (h : ls.all isInert = true) :
  Passes ls
  := by
  induction ls with
  | nil =>
    intro depth part rest
    rfl
  | cons l ls ih =>
    rw [List.all_cons, Bool.and_eq_true] at h
    intro depth part rest
    rw [List.reverse_cons, List.append_assoc, ← ih h.2 depth ([l] ++ part) rest]
    cases l with
    | mark c =>
      have hc := h.1
      simp only [isInert, Bool.and_eq_true, decide_eq_true_eq, ne_eq, Lexeme.mark.injEq] at hc
      simp [partsFrom, hc]
    | word w => rfl
    | name n => rfl
    | unclosed => rfl

theorem parts_intercalate (hne : lss ≠ []) (h : ∀ ls ∈ lss, Passes ls) :
  parts ([.mark ','].intercalate lss) = lss
  := by
  unfold parts
  induction lss with
  | nil => cases hne rfl
  | cons ls lss ih =>
    rw [List.forall_mem_cons] at h
    cases lss with
    | nil =>
      have hlast := h.1 0 [] []
      simpa [partsFrom] using hlast
    | cons ms lss =>
      rw [List.intercalate_cons_cons, List.append_assoc, h.1, List.append_nil,
        List.cons_append, List.nil_append, partsFrom, if_pos ⟨rfl, rfl⟩, List.reverse_reverse,
        ih (List.cons_ne_nil _ _) h.2]

theorem passesInside_intercalate (h : ∀ ls ∈ lss, Passes ls) :
  PassesInside ([.mark ','].intercalate lss)
  := by
  induction lss with
  | nil =>
    intro depth part rest
    rfl
  | cons ls lss ih =>
    rw [List.forall_mem_cons] at h
    cases lss with
    | nil => simpa using h.1.inside
    | cons ms lss =>
      rw [List.intercalate_cons_cons]
      exact (h.1.inside.append passesInside_comma).append (ih h.2)

theorem group?_group (ls : List Lexeme) :
  group? ([Lexeme.mark '('] ++ (ls ++ [Lexeme.mark ')'])) = some ls
  := by
  simp [group?]

/-- The lexemes of one part that stands bare or of several in parentheses. -/
def groupLexemes : List (List Lexeme) → List Lexeme
  | [ls] => ls
  | lss => [.mark '('] ++ ([.mark ','].intercalate lss ++ [.mark ')'])

theorem lexesTo_groupCql
    (h : List.Forall₂ (fun text ls => LexesTo text.toList ls) texts lss) :
  LexesTo (groupCql texts).toList (groupLexemes lss)
  := by
  have hcomma : Separates ", ".toList [.mark ','] := ⟨fun _ => rfl, fun _ => rfl⟩
  have hclose : Separates ")".toList [.mark ')'] := ⟨fun _ => rfl, fun _ => rfl⟩
  have hgroup := LexesTo.before "(".toList [.mark '('] (fun _ => rfl)
    ((lexesTo_intercalate hcomma h).behind hclose)
  rw [← String.toList_append, ← String.toList_append, ← String.append_assoc] at hgroup
  match h with
  | .nil => exact hgroup
  | .cons hhead .nil => exact hhead
  | .cons _ (.cons _ _) => exact hgroup

/-- One part is found bare, several in parentheses. -/
theorem grouped_groupLexemes (hne : lss ≠ []) (h : ∀ ls ∈ lss, Passes ls)
    (hbare : ∀ ls ∈ lss, ls.head? ≠ some (.mark '(')) :
  grouped (groupLexemes lss) = lss
  := by
  match lss with
  | [] => cases hne rfl
  | [ls] =>
    have hgroup : group? ls = none := by
      unfold group?
      split
      · cases hbare _ (List.mem_singleton_self _) rfl
      · rfl
    rw [groupLexemes, grouped, hgroup]
  | ls :: ms :: lss => simp only [groupLexemes, grouped, group?_group, parts_intercalate hne h]

/-! ### Columns and names -/

theorem isInert_ofName (name : String) :
  isInert (ofName name) = true
  := by
  simp [isInert, ofName_ne_mark]

theorem isInert_type (t : ColumnType) :
  t.lexemes.all isInert = true
  := by
  induction t with
  | scalar type => rfl
  | list element ih => simp [ColumnType.lexemes, ih, isInert]

end Definition

namespace Column

/-- The type of a column in the store. -/
def storedType (c : Column) : ColumnType :=
  (ColumnType.ofSource c.sourceType).1

/-- A column as the store has it. -/
def stored (c : Column) : String × ColumnType :=
  (Cql.storedName c.name, c.storedType)

/-- The declaration of a column. -/
def declaration (c : Column) : String :=
  Cql.quoteIdentifier c.name ++ " " ++ c.storedType.cql

/-- The lexemes of the declaration of a column. -/
def lexemes (c : Column) : List Lexeme :=
  [ofName c.name] ++ c.storedType.lexemes

theorem yields_cql (c : Column) (text : String) :
  c.cql.Yields text ↔ text = c.declaration
  := by
  simp [Column.cql, declaration, storedType]

theorem lexesTo_declaration (c : Column) :
  LexesTo c.declaration.toList c.lexemes
  := by
  rw [declaration, lexemes, String.toList_append, String.toList_append, List.append_assoc]
  have hblank : Separates " ".toList [] := ⟨fun _ => rfl, fun _ => rfl⟩
  have h := (lexesTo_quoteIdentifier c.name).join hblank c.storedType.lexesTo_cql
  rwa [List.nil_append] at h

theorem passes_lexemes (c : Column) :
  Definition.Passes c.lexemes
  := by
  apply Definition.passes_of_isInert
  simp [lexemes, Definition.isInert_ofName, Definition.isInert_type]

theorem column?_lexemes (c : Column) :
  Definition.column? c.lexemes = some c.stored
  := by
  have hread := c.storedType.read?_lexemes [] (by simp)
  rw [List.append_nil] at hread
  simp [lexemes, Definition.column?, hread, stored]

end Column

namespace Definition

theorem mapM_eq_some_map {α β γ : Type} {f : β → Option γ} {g : α → β} {h : α → γ}
    (hfg : ∀ a, f (g a) = some (h a)) (as : List α) :
  (as.map g).mapM f = some (as.map h)
  := by
  induction as with
  | nil => rfl
  | cons a as ih => simp [List.mapM_cons, hfg, ih]

/-- The lexemes of names, each alone. -/
def nameLexemes (names : List String) : List (List Lexeme) :=
  names.map fun name => [ofName name]

theorem passes_nameLexemes {names : List String} :
  ∀ ls ∈ nameLexemes names, Passes ls
  := by
  rintro ls hls
  obtain ⟨name, -, rfl⟩ := List.mem_map.mp hls
  apply passes_of_isInert
  simp [isInert_ofName]

theorem lexesTo_names (names : List String) :
  List.Forall₂ (fun text ls => LexesTo text.toList ls) (names.map Cql.quoteIdentifier)
    (nameLexemes names)
  := by
  rw [nameLexemes, List.forall₂_map_left_iff, List.forall₂_map_right_iff, List.forall₂_same]
  intro name _
  apply lexesTo_quoteIdentifier

theorem mapM_name? (names : List String) :
  (nameLexemes names).mapM name? = some (names.map Cql.storedName)
  := by
  apply mapM_eq_some_map
  intro name
  rw [name?, Lexeme.identifier?_ofName]

/-- The lexemes of the declarations of columns. -/
def columnLexemes (columns : List Column) : List (List Lexeme) :=
  columns.map Column.lexemes

theorem lexesTo_declarations (columns : List Column) :
  List.Forall₂ (fun text ls => LexesTo text.toList ls) (columns.map Column.declaration)
    (columnLexemes columns)
  := by
  rw [columnLexemes, List.forall₂_map_left_iff, List.forall₂_map_right_iff, List.forall₂_same]
  intro c _
  apply c.lexesTo_declaration

theorem passes_columnLexemes {columns : List Column} :
  ∀ ls ∈ columnLexemes columns, Passes ls
  := by
  rintro ls hls
  obtain ⟨c, -, rfl⟩ := List.mem_map.mp hls
  apply c.passes_lexemes

theorem mapM_column? (columns : List Column) :
  (columnLexemes columns).mapM column? = some (columns.map Column.stored)
  := mapM_eq_some_map Column.column?_lexemes columns

/-! ### Single statements -/

/-- Whether a text is a statement that is read as the given value. -/
def SpellsBy {α : Type} (read : List Lexeme → Option α) (text : String) (a : α) : Prop :=
  ∃ ls, LexesTo text.toList ls ∧ .mark ';' ∉ ls ∧ read ls = some a

/-- Whether a text is a statement that makes the given definition. -/
def Spells (text : String) (d : Definition) : Prop :=
  SpellsBy read? text d

theorem not_mem_ofName (name : String) (c : Char) :
  .mark c ∉ [ofName name]
  := by
  rw [List.mem_singleton]
  exact (ofName_ne_mark name c).symm

theorem not_mem_tableName (t : TableName) :
  .mark ';' ∉ t.lexemes
  := by
  unfold TableName.lexemes
  split
  · apply not_mem_ofName
  · simp [(ofName_ne_mark _ _).symm]

theorem not_mem_type (t : ColumnType) :
  .mark ';' ∉ t.lexemes
  := by
  induction t with
  | scalar type => simp [ColumnType.lexemes]
  | list element ih => simp [ColumnType.lexemes, ih]

theorem not_mem_column (c : Column) :
  .mark ';' ∉ c.lexemes
  := by
  simp [Column.lexemes, (ofName_ne_mark _ _).symm, not_mem_type]

theorem not_mem_comma :
  Lexeme.mark ';' ∉ [Lexeme.mark ',']
  := by
  simp

theorem not_mem_intercalate {l : Lexeme} {separators : List Lexeme} (hl : l ∉ separators)
    (h : ∀ ls ∈ lss, l ∉ ls) :
  l ∉ separators.intercalate lss
  := by
  induction lss with
  | nil => simp
  | cons ls lss ih =>
    rw [List.forall_mem_cons] at h
    cases lss with
    | nil => simpa using h.1
    | cons ms lss => simp [List.intercalate_cons_cons, h.1, hl, ih h.2]

theorem not_mem_groupLexemes (h : ∀ ls ∈ lss, .mark ';' ∉ ls) :
  .mark ';' ∉ groupLexemes lss
  := by
  unfold groupLexemes
  split
  · apply h _ (List.mem_singleton_self _)
  · simp [not_mem_intercalate not_mem_comma h]

theorem not_mem_nameLexemes (names : List String) :
  ∀ ls ∈ nameLexemes names, .mark ';' ∉ ls
  := by
  rintro ls hls
  obtain ⟨name, -, rfl⟩ := List.mem_map.mp hls
  apply not_mem_ofName

theorem not_mem_columnLexemes (columns : List Column) :
  ∀ ls ∈ columnLexemes columns, .mark ';' ∉ ls
  := by
  rintro ls hls
  obtain ⟨c, -, rfl⟩ := List.mem_map.mp hls
  apply not_mem_column

theorem spells_dropTable (t : TableName) :
  Spells ("DROP TABLE IF EXISTS " ++ t.cql) (.dropTable t.stored)
  := by
  refine ⟨[Lexeme.word "DROP", .word "TABLE", .word "IF", .word "EXISTS"] ++ t.lexemes, ?_, ?_, ?_⟩
  · rw [String.toList_append]
    exact LexesTo.before _ _ (fun _ => rfl) t.lexesTo_cql
  · simp [not_mem_tableName]
  · have hread := t.read?_lexemes [] (by simp)
    rw [List.append_nil] at hread
    simp [read?, after?, readDrop?, hread]

theorem spells_dropIndex (t : TableName) :
  Spells ("DROP INDEX IF EXISTS " ++ t.cql) (.dropIndex t.stored)
  := by
  refine ⟨[Lexeme.word "DROP", .word "INDEX", .word "IF", .word "EXISTS"] ++ t.lexemes, ?_, ?_, ?_⟩
  · rw [String.toList_append]
    exact LexesTo.before _ _ (fun _ => rfl) t.lexesTo_cql
  · simp [not_mem_tableName]
  · have hread := t.read?_lexemes [] (by simp)
    rw [List.append_nil] at hread
    simp [read?, after?, readDrop?, hread]

theorem spells_createIndex (name column : String) (t : TableName) :
  Spells
    ("CREATE INDEX IF NOT EXISTS " ++ (Cql.quoteIdentifier name ++ " ") ++ "ON " ++ t.cql ++ " ("
      ++ Cql.quoteIdentifier column ++ ")")
    (.createIndex (Cql.storedName name) t.stored (Cql.storedName column))
  := by
  let columnGroup : List Lexeme := [Lexeme.mark '('] ++ ([ofName column] ++ [Lexeme.mark ')'])
  refine ⟨[Lexeme.word "CREATE", .word "INDEX", .word "IF", .word "NOT", .word "EXISTS"]
    ++ ([ofName name] ++ ([Lexeme.word "ON"] ++ (t.lexemes ++ columnGroup))), ?_, ?_, ?_⟩
  · have hclose : Separates ")".toList [Lexeme.mark ')'] := ⟨fun _ => rfl, fun _ => rfl⟩
    have hopen : Separates " (".toList [Lexeme.mark '('] := ⟨fun _ => rfl, fun _ => rfl⟩
    have hon : Separates " ON ".toList [Lexeme.word "ON"] := ⟨fun _ => rfl, fun _ => rfl⟩
    have htable := t.lexesTo_cql.join hopen ((lexesTo_quoteIdentifier column).behind hclose)
    have hall := LexesTo.before "CREATE INDEX IF NOT EXISTS ".toList
      [Lexeme.word "CREATE", .word "INDEX", .word "IF", .word "NOT", .word "EXISTS"]
      (fun rest => by rw [String.toList_ofList]; rfl) ((lexesTo_quoteIdentifier name).join hon htable)
    have hblank : " ON " = " " ++ "ON " := rfl
    rw [hblank] at hall
    simpa only [String.toList_append, List.append_assoc] using hall
  · simp [columnGroup, not_mem_tableName, (ofName_ne_mark _ _).symm]
  · have hread := t.read?_lexemes columnGroup (by simp [columnGroup])
    have hgroup : group? columnGroup = some [ofName column] := group?_group _
    simp [read?, after?, readIndex?, hread, hgroup, name?]

/-- The lexemes of the declaration of a key. -/
def keyLexemes (names : List String) : List Lexeme :=
  [Lexeme.word "PRIMARY", .word "KEY"]
    ++ ([Lexeme.mark '(']
      ++ ([Lexeme.mark ','].intercalate (nameLexemes names) ++ [Lexeme.mark ')']))

theorem lexesTo_key (names : List String) :
  LexesTo ("PRIMARY KEY (" ++ Cql.quoteIdentifiers names ++ ")").toList (keyLexemes names)
  := by
  have hcomma : Separates ", ".toList [Lexeme.mark ','] := ⟨fun _ => rfl, fun _ => rfl⟩
  have hclose : Separates ")".toList [Lexeme.mark ')'] := ⟨fun _ => rfl, fun _ => rfl⟩
  have h := LexesTo.before "PRIMARY KEY (".toList
    ([Lexeme.word "PRIMARY", .word "KEY"] ++ [Lexeme.mark '(']) (fun _ => rfl)
    ((lexesTo_intercalate hcomma (lexesTo_names names)).behind hclose)
  simpa only [keyLexemes, Cql.quoteIdentifiers, String.toList_append, List.append_assoc] using h

theorem passes_keyLexemes (names : List String) :
  Passes (keyLexemes names)
  := by
  apply Passes.append
  · apply passes_of_isInert rfl
  · exact (passesInside_intercalate passes_nameLexemes).group

theorem not_mem_keyLexemes (names : List String) :
  .mark ';' ∉ keyLexemes names
  := by
  simp [keyLexemes, not_mem_intercalate not_mem_comma (not_mem_nameLexemes names)]

theorem body?_lexemes (columns : List Column) {key : List String} (hkey : key ≠ []) :
  body? (columnLexemes columns ++ [keyLexemes key])
    = some (columns.map Column.stored, key.map Cql.storedName)
  := by
  have hnames : nameLexemes key ≠ [] := by simpa [nameLexemes] using hkey
  have hafter : after? ["PRIMARY", "KEY"] (keyLexemes key)
      = some ([Lexeme.mark '(']
        ++ ([Lexeme.mark ','].intercalate (nameLexemes key) ++ [Lexeme.mark ')'])) := rfl
  simp only [body?, List.getLast?_append_of_ne_nil _ (List.cons_ne_nil _ _),
    List.getLast?_singleton, List.dropLast_concat, Option.bind_eq_bind, Option.bind_some, hafter,
    group?_group, mapM_column?, parts_intercalate hnames passes_nameLexemes, mapM_name?]
  rfl

theorem spells_createTable (t : TableName) (columns : List Column) {key : List String}
    (hkey : key ≠ []) :
  Spells
    ("CREATE TABLE IF NOT EXISTS " ++ t.cql ++ " (\n  "
      ++ String.intercalate ",\n  "
          (columns.map Column.declaration ++ ["PRIMARY KEY (" ++ Cql.quoteIdentifiers key ++ ")"])
      ++ "\n)")
    (.createTable t.stored (columns.map Column.stored) (key.map Cql.storedName))
  := by
  let inner : List Lexeme := [.mark ','].intercalate (columnLexemes columns ++ [keyLexemes key])
  refine ⟨[Lexeme.word "CREATE", .word "TABLE", .word "IF", .word "NOT", .word "EXISTS"]
    ++ (t.lexemes ++ ([Lexeme.mark '('] ++ (inner ++ [Lexeme.mark ')']))), ?_, ?_, ?_⟩
  · have hline : Separates ",\n  ".toList [Lexeme.mark ','] := ⟨fun _ => rfl, fun _ => rfl⟩
    have hopen : Separates " (\n  ".toList [Lexeme.mark '('] := ⟨fun _ => rfl, fun _ => rfl⟩
    have hclose : Separates "\n)".toList [Lexeme.mark ')'] := ⟨fun _ => rfl, fun _ => rfl⟩
    have hbody := lexesTo_intercalate hline
      (List.rel_append (lexesTo_declarations columns) (.cons (lexesTo_key key) .nil))
    have hall := LexesTo.before "CREATE TABLE IF NOT EXISTS ".toList
      [Lexeme.word "CREATE", .word "TABLE", .word "IF", .word "NOT", .word "EXISTS"]
      (fun rest => by rw [String.toList_ofList]; rfl)
      (t.lexesTo_cql.join hopen (hbody.behind hclose))
    simpa only [String.toList_append, List.append_assoc] using hall
  · have hparts : ∀ ls ∈ columnLexemes columns ++ [keyLexemes key], Lexeme.mark ';' ∉ ls := by
      rw [List.forall_mem_append, List.forall_mem_singleton]
      exact ⟨not_mem_columnLexemes columns, not_mem_keyLexemes key⟩
    simp [inner, not_mem_tableName, not_mem_intercalate not_mem_comma hparts]
  · have hread := t.read?_lexemes ([Lexeme.mark '('] ++ (inner ++ [Lexeme.mark ')'])) (by simp)
    have hparts : parts inner = columnLexemes columns ++ [keyLexemes key] := by
      apply parts_intercalate (by simp)
      rw [List.forall_mem_append, List.forall_mem_singleton]
      exact ⟨passes_columnLexemes, passes_keyLexemes key⟩
    have htable : readTable? (t.lexemes ++ ([Lexeme.mark '('] ++ (inner ++ [Lexeme.mark ')'])))
        = some (.createTable t.stored (columns.map Column.stored) (key.map Cql.storedName)) := by
      simp only [readTable?, hread, Option.bind_eq_bind, Option.bind_some, group?_group, hparts,
        body?_lexemes columns hkey]
      rfl
    have hstart (ls : List Lexeme) :
        read? ([Lexeme.word "CREATE", .word "TABLE", .word "IF", .word "NOT", .word "EXISTS"] ++ ls)
          = readTable? ls := by
      simp [read?, after?]
    rw [hstart, htable]

/-! ### Alterations -/

/-- A statement that alters a table is its name with a keyword and what belongs to it behind. -/
theorem spellsBy_alteration {α : Type} {read : List Lexeme → Option α} {a : α} (t : TableName)
    {keyword word text : String} (hkeyword : Separates keyword.toList [Lexeme.word word])
    (hlexes : LexesTo text.toList ls) (hmark : .mark ';' ∉ ls)
    (hread : TableName.read? (t.lexemes ++ .word word :: ls) = some (t.stored, .word word :: ls) →
      read (.word "ALTER" :: .word "TABLE" :: (t.lexemes ++ .word word :: ls)) = some a) :
  SpellsBy read ("ALTER TABLE " ++ t.cql ++ keyword ++ text) a
  := by
  refine ⟨[Lexeme.word "ALTER", .word "TABLE"] ++ (t.lexemes ++ ([Lexeme.word word] ++ ls)),
    ?_, ?_, ?_⟩
  · have hall := LexesTo.before "ALTER TABLE ".toList [Lexeme.word "ALTER", .word "TABLE"]
      (fun _ => rfl) (t.lexesTo_cql.join hkeyword hlexes)
    simpa only [String.toList_append, List.append_assoc] using hall
  · simp [not_mem_tableName, hmark]
  · apply hread (t.read?_lexemes _ (by simp))

theorem spells_addColumns (t : TableName) {columns : List Column} (hne : columns ≠ []) :
  Spells ("ALTER TABLE " ++ t.cql ++ " ADD " ++ groupCql (columns.map Column.declaration))
    (.addColumns t.stored (columns.map Column.stored))
  := by
  have hadd : Separates " ADD ".toList [.word "ADD"] := ⟨fun _ => rfl, fun _ => rfl⟩
  apply spellsBy_alteration t hadd (lexesTo_groupCql (lexesTo_declarations columns))
    (not_mem_groupLexemes (not_mem_columnLexemes columns))
  intro hread
  have hgrouped : grouped (groupLexemes (columnLexemes columns)) = columnLexemes columns := by
    apply grouped_groupLexemes (by simpa [columnLexemes] using hne) passes_columnLexemes
    rintro ls hls
    obtain ⟨c, -, rfl⟩ := List.mem_map.mp hls
    simp [Column.lexemes, ofName_ne_mark]
  simp [read?, after?, readAlteration?, hread, hgrouped, mapM_column?]

theorem spells_dropColumns (t : TableName) {names : List String} (hne : names ≠ []) :
  Spells ("ALTER TABLE " ++ t.cql ++ " DROP " ++ groupCql (names.map Cql.quoteIdentifier))
    (.dropColumns t.stored (names.map Cql.storedName))
  := by
  have hdrop : Separates " DROP ".toList [.word "DROP"] := ⟨fun _ => rfl, fun _ => rfl⟩
  apply spellsBy_alteration t hdrop (lexesTo_groupCql (lexesTo_names names))
    (not_mem_groupLexemes (not_mem_nameLexemes names))
  intro hread
  have hgrouped : grouped (groupLexemes (nameLexemes names)) = nameLexemes names := by
    apply grouped_groupLexemes (by simpa [nameLexemes] using hne) passes_nameLexemes
    rintro ls hls
    obtain ⟨name, -, rfl⟩ := List.mem_map.mp hls
    simp [ofName_ne_mark]
  simp [read?, after?, readAlteration?, hread, hgrouped, mapM_name?]

/-! ### Sequences of statements -/

/-- A statement that makes one of these definitions is none that creates a keyspace. -/
theorem after?_of_read? {d : Definition} (h : read? ls = some d) (rest : List Lexeme) :
  after? ["CREATE", "KEYSPACE"] (ls ++ rest) = none
  := by
  match ls with
  | [] => cases h
  | [l] =>
    cases l <;> simp [read?, after?] at h
  | l :: m :: ls =>
    by_contra hsome
    cases l with
    | word w =>
      cases m with
      | word v =>
        have hwords : w = "CREATE" ∧ v = "KEYSPACE" := by
          simpa [after?] using hsome
        obtain ⟨rfl, rfl⟩ := hwords
        simp [read?, after?] at h
      | _ => simp [after?] at hsome
    | _ => simp [after?] at hsome

/-- The mark that ends the last statement stands before an empty one. -/
theorem intercalate_concat_nil (hne : lss ≠ []) (l : Lexeme) :
  [l].intercalate (lss ++ [[]]) = [l].intercalate lss ++ [l]
  := by
  induction lss with
  | nil => cases hne rfl
  | cons ls lss ih =>
    cases lss with
    | nil => simp [List.intercalate_cons_cons]
    | cons ms lss =>
      rw [List.cons_append, List.cons_append, List.intercalate_cons_cons,
        List.intercalate_cons_cons, ← List.cons_append, ih (List.cons_ne_nil _ _),
        List.append_assoc, List.append_assoc, List.append_assoc]

theorem exists_lexemes {α : Type} {read : List Lexeme → Option α} (hnil : read [] = none)
    {as : List α} (h : List.Forall₂ (SpellsBy read) texts as) :
  ∃ lss, List.Forall₂ (fun text ls => LexesTo text.toList ls) texts lss
    ∧ (∀ ls ∈ lss, .mark ';' ∉ ls ∧ ls ≠ []) ∧ lss.mapM read = some as
  := by
  induction h with
  | nil => exact ⟨[], .nil, by simp, rfl⟩
  | cons hhead _ ih =>
    obtain ⟨ls, hlexes, hmark, hread⟩ := hhead
    obtain ⟨lss, hall, hmarks, hreads⟩ := ih
    have hne : ls ≠ [] := by
      rintro rfl
      cases hnil.symm.trans hread
    refine ⟨ls :: lss, .cons hlexes hall, ?_, ?_⟩
    · rw [List.forall_mem_cons]
      exact ⟨⟨hmark, hne⟩, hmarks⟩
    · rw [List.mapM_cons, hread, hreads]
      rfl

/-- The parts between marks are the statements, and perhaps an empty one at the end. -/
theorem filter_splitOn_intercalate (tail : List (List Lexeme)) (htail : ∀ ls ∈ tail, ls = [])
    (hne : lss ≠ []) (hmarks : ∀ ls ∈ lss, .mark ';' ∉ ls ∧ ls ≠ []) :
  (([Lexeme.mark ';'].intercalate (lss ++ tail)).splitOn (.mark ';')).filter (· ≠ []) = lss
  := by
  have hsplit : ([Lexeme.mark ';'].intercalate (lss ++ tail)).splitOn (.mark ';')
      = lss ++ tail := by
    apply List.splitOn_intercalate _ _ (by simp [hne])
    intro ls hls
    rcases List.mem_append.mp hls with hls | hls
    · exact (hmarks ls hls).1
    · rw [htail ls hls]
      simp
  have hkept : lss.filter (· ≠ []) = lss := by
    rw [List.filter_eq_self]
    intro ls hls
    simpa using (hmarks ls hls).2
  have hdropped : tail.filter (· ≠ []) = [] := by
    rw [List.filter_eq_nil_iff]
    intro ls hls
    simpa using htail ls hls
  rw [hsplit, List.filter_append, hkept, hdropped, List.append_nil]

/-- The lexemes of a sequence are those of its statements with marks between them. -/
theorem all_sequenceCql (h : List.Forall₂ (fun text ls => LexesTo text.toList ls) texts lss)
    (hne : texts ≠ []) :
  ∃ tail : List (List Lexeme), (∀ ls ∈ tail, ls = [])
    ∧ Lexeme.all (sequenceCql texts).toList = [Lexeme.mark ';'].intercalate (lss ++ tail)
  := by
  have hlss : lss ≠ [] := by
    rintro rfl
    cases h
    cases hne rfl
  have hend : Separates ";\n".toList [.mark ';'] := ⟨fun _ => rfl, fun _ => rfl⟩
  have hlast : Separates ";".toList [.mark ';'] := ⟨fun _ => rfl, fun _ => rfl⟩
  have hsequence := ((lexesTo_intercalate hend h).behind hlast).all_eq
  rw [← intercalate_concat_nil hlss, ← String.toList_append] at hsequence
  match h with
  | .nil => cases hne rfl
  | .cons hhead .nil =>
    refine ⟨[], by simp, ?_⟩
    rw [sequenceCql, hhead.all_eq]
    simp
  | .cons _ (.cons _ _) => exact ⟨[[]], by simp, hsequence⟩

theorem ofText?_of_lexemes {text : String} (tail : List (List Lexeme))
    (htail : ∀ ls ∈ tail, ls = [])
    (hall : Lexeme.all text.toList = [Lexeme.mark ';'].intercalate (lss ++ tail)) (hne : lss ≠ [])
    (hmarks : ∀ ls ∈ lss, .mark ';' ∉ ls ∧ ls ≠ []) (hreads : lss.mapM read? = some ds) :
  ofText? text = some ds
  := by
  have hkeyspace : after? ["CREATE", "KEYSPACE"] (Lexeme.all text.toList) = none := by
    rw [hall]
    obtain ⟨ls, lss, rfl⟩ := List.exists_cons_of_ne_nil hne
    obtain ⟨d, hd⟩ : ∃ d, read? ls = some d := by
      cases hread : read? ls with
      | none => simp [List.mapM_cons, hread] at hreads
      | some d => exact ⟨d, rfl⟩
    cases hrest : lss ++ tail with
    | nil =>
      have h := after?_of_read? hd []
      rw [List.append_nil] at h
      simpa [hrest] using h
    | cons ms mss =>
      rw [List.cons_append, hrest, List.intercalate_cons_cons, List.append_assoc]
      apply after?_of_read? hd
  simp only [ofText?, hkeyspace, Option.isSome_none, Bool.false_eq_true, if_false]
  rw [hall, filter_splitOn_intercalate tail htail hne hmarks, hreads]

theorem ofText?_sequenceCql (h : List.Forall₂ Spells texts ds) (hne : texts ≠ []) :
  ofText? (sequenceCql texts) = some ds
  := by
  obtain ⟨lss, hlexes, hmarks, hreads⟩ := exists_lexemes rfl h
  have hlss : lss ≠ [] := by
    rintro rfl
    cases hlexes
    cases hne rfl
  obtain ⟨tail, htail, hall⟩ := all_sequenceCql hlexes hne
  apply ofText?_of_lexemes tail htail hall hlss hmarks hreads

theorem ofText?_of_spells {text : String} {d : Definition} (h : Spells text d) :
  ofText? text = some [d]
  := by
  have hone := ofText?_sequenceCql (.cons h .nil) (List.cons_ne_nil _ _)
  rwa [sequenceCql] at hone

theorem ofText?_createKeyspace (rest : String) :
  ofText? ("CREATE KEYSPACE " ++ rest) = some [.createKeyspace]
  := by
  rw [ofText?, String.toList_append]
  rfl

end Definition

end CqlGateway

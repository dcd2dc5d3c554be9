import CqlGateway.Cql.Engine
import CqlGateway.Proofs.Text.Case

/-!
# Commands and the statements they stand for

A command that is understood as it is can be put into CQL at once, or be taken as a statement and
be rendered as one. Both come to the same text, since a statement is normalized when the command is
read and once more when it is rendered, and the second time changes nothing.

There is one exception. A command that shows the columns of a table is not normalized when it is
read. If the table is called by one of the words for the list of keyspaces, without a keyspace
before it, the command alone describes the table and the rendering lists the keyspaces.
-/

namespace CqlGateway

variable {cs rest : List Char} {words : List String}

/-! ### Normalized statements -/

namespace Describe

theorem normalize_cases (d : Describe) :
  d.normalize = allKeyspaces ∨ d.normalize = allTables ∨ d.normalize = d
  := by
  unfold normalize
  split
  · exact .inl rfl
  · split
    · split
      · exact .inl rfl
      · split
        · exact .inr (.inl rfl)
        · exact .inr (.inr rfl)
    · exact .inr (.inr rfl)

@[simp]
theorem normalize_normalize (d : Describe) :
  d.normalize.normalize = d.normalize
  := by
  rcases d.normalize_cases with h | h | h
  · rw [h]
    rfl
  · rw [h]
    rfl
  · rw [h, h]

theorem cql_ne_empty (d : Describe) :
  d.cql ≠ ""
  := by
  unfold cql
  split
  · decide
  · split
    · decide
    · simp [String.append_eq_empty_iff]

theorem render_describe (options : RenderingOptions) (d : Describe) :
  (Statement.describe d).render options = .ok ⟨d.normalize.cql, []⟩
  := by
  have hne := d.normalize.cql_ne_empty
  cases hlists : d.normalize.listsKeyspaces with
  | true =>
    have hall : d.normalize = allKeyspaces := by
      rw [← normalize_normalize, normalize, if_pos hlists]
    rw [Statement.render, Statement.normalize, hall]
    rfl
  | false =>
    have hdraft : Family.draft? options .table (.describe d.normalize)
        = some (pure d.normalize.cql) := by
      simp [Family.draft?, hlists]
    have hfamily : (Statement.describe d.normalize).family = .table := by
      simp [Statement.family, hlists]
    simp [Statement.render, Statement.normalize, Statement.renderNormalized, hfamily,
      Family.render, hdraft, Draft.rendering, pure, Draft.pure, distinctTexts, hne]

end Describe

/-! ### Names in commands -/

namespace Text

theorem isBlank_of_isWordStart {c : Char} (h : isWordStart c = true) :
  isBlank c = false
  := by
  by_contra hblank
  have hcode := mem_blankCodes_of_isBlank (Bool.not_eq_false _ ▸ hblank)
  have hnone : blankCodes.all (fun n => !isWordStart (Char.ofNat n)) = true := by decide
  have hstart := List.all_eq_true.mp hnone _ hcode
  rw [Char.ofNat_toNat, h] at hstart
  cases hstart

theorem closingQuote?_of_isWordStart {c : Char} (h : isWordStart c = true) :
  Cql.closingQuote? c = none
  := by
  have hne : ∀ d : Char, isWordStart d = false → c ≠ d := by
    rintro d hd rfl
    rw [hd] at h
    cases h
  simp [Cql.closingQuote?, hne '\x60' (by decide), hne '"' (by decide), hne '[' (by decide)]

theorem exists_of_closedBy? {close : Char} {inside : List Char}
    (h : closedBy? close cs = some (inside, rest)) :
  inside ≠ []
  := by
  unfold closedBy? at h
  split at h
  · cases h
  · cases h
  · cases h
    assumption

end Text

namespace Cql

theorem isBlank_of_closingQuote? {first last : Char} (h : closingQuote? first = some last) :
  Text.isBlank first = false ∧ Text.isBlank last = false
  := by
  unfold closingQuote? at h
  split at h
  next hquote =>
    cases h
    rw [Bool.or_eq_true, decide_eq_true_eq, decide_eq_true_eq] at hquote
    rcases hquote with rfl | rfl <;> decide
  next =>
    split at h
    next hbracket =>
      cases h
      subst hbracket
      decide
    next => cases h

theorem unquote_ne_empty_of_quoted {first last : Char} (hquote : closingQuote? first = some last)
    (hcs : cs ≠ []) :
  unquote (String.ofList (first :: cs ++ [last])) ≠ ""
  := by
  obtain ⟨hfirst, hlast⟩ := isBlank_of_closingQuote? hquote
  have hsolid : Text.trimChars (first :: cs ++ [last]) = first :: cs ++ [last] := by
    apply Text.trimChars_of_solid
    · simp [Text.startsSolid, hfirst]
    · apply Text.endsSolid_append
      simp [Text.endsSolid, hlast]
  obtain ⟨c, cs, rfl⟩ := List.exists_cons_of_ne_nil hcs
  have hinside : unquoteChars (first :: c :: (cs ++ [last])) = c :: cs := by
    have hend : (c :: (cs ++ [last])).getLast? = some last := by
      rw [← List.cons_append, List.getLast?_concat]
    rw [unquoteChars, hend, if_pos hquote, ← List.cons_append, List.dropLast_concat]
  rw [unquote, String.toList_ofList, hsolid, List.cons_append, List.cons_append, hinside]
  simp

theorem unquote_ne_empty_of_word {c : Char} (hc : Text.isWordStart c = true) :
  unquote (String.ofList (c :: cs)) ≠ ""
  := by
  have hblank := Text.isBlank_of_isWordStart hc
  obtain ⟨rest, hrest⟩ : [c] <+: Text.trimBack ([c] ++ cs) := by
    apply Text.prefix_trimBack_append
    simp [Text.endsSolid, hblank]
  have htrim : Text.trimChars (c :: cs) = c :: rest := by
    rw [Text.trimChars, Text.trimFront_of_startsSolid (by simp [Text.startsSolid, hblank])]
    exact hrest.symm
  rw [unquote, String.toList_ofList, htrim]
  cases rest with
  | nil => simp [unquoteChars]
  | cons d rest => simp [unquoteChars, Text.closingQuote?_of_isWordStart hc, List.getLast?_cons]

theorem unquote_ne_empty_of_name? {first : List Char} (h : Text.name? cs = some (first, rest)) :
  unquote (String.ofList first) ≠ ""
  := by
  unfold Text.name? at h
  split at h
  · obtain ⟨⟨inside, rest'⟩, hclosed, heq⟩ := Option.map_eq_some_iff.mp h
    cases heq
    exact unquote_ne_empty_of_quoted rfl (Text.exists_of_closedBy? hclosed)
  · obtain ⟨⟨inside, rest'⟩, hclosed, heq⟩ := Option.map_eq_some_iff.mp h
    cases heq
    exact unquote_ne_empty_of_quoted rfl (Text.exists_of_closedBy? hclosed)
  · obtain ⟨⟨inside, rest'⟩, hclosed, heq⟩ := Option.map_eq_some_iff.mp h
    cases heq
    exact unquote_ne_empty_of_quoted rfl (Text.exists_of_closedBy? hclosed)
  · unfold Text.plainWord? at h
    split at h
    · cases h
    · split at h
      · cases h
        apply unquote_ne_empty_of_word
        assumption
      · cases h

end Cql

namespace Command

theorem name_ne_empty_of_tableName? {table : TableName} (h : tableName? cs = some table) :
  table.name ≠ ""
  := by
  unfold tableName? at h
  obtain ⟨⟨first, rest⟩, hfirst, h⟩ := Option.bind_eq_some_iff.mp h
  dsimp only at h
  split at h
  · obtain ⟨⟨second, rest'⟩, hsecond, h⟩ := Option.bind_eq_some_iff.mp h
    dsimp only at h
    split at h
    · cases h
      exact Cql.unquote_ne_empty_of_name? hsecond
    · cases h
  · split at h
    · cases h
      exact Cql.unquote_ne_empty_of_name? hfirst
    · cases h

end Command

/-! ### Commands that do not overlap -/

namespace Text

/-- The first character of a text, up to case. -/
def initial? (cs : List Char) : Option Char :=
  cs.head?.map foldChar

theorem initial?_of_keyword? {k : Char} {ks : List Char} (h : keyword? (k :: ks) cs = some rest) :
  initial? cs = some k
  := by
  cases cs with
  | nil => cases h
  | cons c cs =>
    rw [keyword?] at h
    split at h
    next hc => simp [initial?, hc]
    next => cases h

/-- A text that begins with one of some words has the first character of one of them. -/
theorem initial?_of_exists_keyword? (hwords : "" ∉ words)
    (h : ∃ w ∈ words, (keyword? w.toList cs).isSome = true) :
  initial? cs ∈ words.map (·.toList.head?)
  := by
  obtain ⟨w, hw, hsome⟩ := h
  obtain ⟨rest, hrest⟩ := Option.isSome_iff_exists.mp hsome
  cases hchars : w.toList with
  | nil =>
    cases hwords (String.toList_eq_nil_iff.mp hchars ▸ hw)
  | cons k ks =>
    rw [hchars] at hrest
    rw [initial?_of_keyword? hrest, List.mem_map]
    exact ⟨w, hw, by rw [hchars]; rfl⟩

theorem initial?_of_wordAndGap? (hwords : "" ∉ words) (h : wordAndGap? words cs = some rest) :
  initial? cs ∈ words.map (·.toList.head?)
  := by
  apply initial?_of_exists_keyword? hwords
  obtain ⟨w, hw, hrest⟩ := List.exists_of_findSome?_eq_some h
  obtain ⟨rest', hrest', -⟩ := Option.bind_eq_some_iff.mp hrest
  exact ⟨w, hw, Option.isSome_iff_exists.mpr ⟨rest', hrest'⟩⟩

/-- A word that may stand in front of a text stands there, or the text is left as it is. -/
theorem initial?_or_optionalWord_eq (word : String) (hword : word ≠ "") (cs : List Char) :
  initial? cs = word.toList.head? ∨ optionalWord word cs = cs
  := by
  unfold optionalWord
  cases hgap : wordAndGap? [word] cs with
  | none => exact .inr rfl
  | some rest =>
    left
    simpa using initial?_of_wordAndGap? (by simpa using hword.symm) hgap

end Text

namespace Command

theorem initial?_of_isLastWord (hwords : "" ∉ words) (h : isLastWord words cs = true) :
  Text.initial? cs ∈ words.map (·.toList.head?)
  := by
  apply Text.initial?_of_exists_keyword? hwords
  obtain ⟨w, hw, hend⟩ := List.any_eq_true.mp h
  refine ⟨w, hw, ?_⟩
  cases hkeyword : Text.keyword? w.toList cs with
  | none => simp [hkeyword] at hend
  | some rest => rfl

/-- A text whose first character is that of none of some words is none of them. -/
theorem initial?_ne_of_isLastWord {initials : List (Option Char)} (h : isLastWord words cs = true)
    (hinitial : Text.initial? cs ∈ initials) (hwords : "" ∉ words)
    (hne : initials.all (fun k => !(words.map (·.toList.head?)).contains k) = true) :
  False
  := by
  have hword := initial?_of_isLastWord hwords h
  have hnot := List.all_eq_true.mp hne _ hinitial
  simp [hword] at hnot

/-- A command that shows columns lists neither keyspaces nor tables and describes no table. -/
theorem others_of_shownTable? {table : TableName} (h : shownTable? cs = some table) :
  listsKeyspaces cs = false ∧ listsTables cs = false ∧ describedTable? cs = none
  := by
  obtain ⟨rest, hshow, h⟩ := Option.bind_eq_some_iff.mp h
  obtain ⟨rest', hcolumns, -⟩ := Option.bind_eq_some_iff.mp h
  have hlist : Text.wordAndGap? listWords cs = some rest := by
    rw [Text.wordAndGap?, List.findSome?_singleton] at hshow
    rw [Text.wordAndGap?, listWords, List.findSome?_cons, hshow]
  have hinner : Text.initial? (Text.optionalWord "full" rest) ∈ [some 'c', some 'f'] :=
    Text.initial?_of_wordAndGap? (by decide) hcolumns
  have hinitial : Text.initial? rest ∈ [some 'c', some 'f'] := by
    rcases Text.initial?_or_optionalWord_eq "full" (by decide) rest with hfull | hfull
    · rw [hfull]
      decide
    · rwa [hfull] at hinner
  refine ⟨?_, ?_, ?_⟩
  · by_contra hlists
    rw [Bool.not_eq_false, listsKeyspaces, hlist] at hlists
    rcases Text.initial?_or_optionalWord_eq "table" (by decide) rest with htable | htable
    · rw [htable] at hinitial
      exact absurd hinitial (by decide)
    · dsimp only at hlists
      rw [htable] at hlists
      exact initial?_ne_of_isLastWord hlists hinitial (by decide) (by decide)
  · by_contra hlists
    rw [Bool.not_eq_false, listsTables, hlist] at hlists
    exact initial?_ne_of_isLastWord hlists hinner (by decide) (by decide)
  · cases hdescribe : Text.wordAndGap? ["describe", "desc"] cs with
    | none =>
      rw [describedTable?, hdescribe]
      rfl
    | some named =>
      have hs : Text.initial? cs ∈ [some 's'] := Text.initial?_of_wordAndGap? (by decide) hshow
      have hd : Text.initial? cs ∈ [some 'd', some 'd'] :=
        Text.initial?_of_wordAndGap? (by decide) hdescribe
      rw [List.mem_singleton.mp hs] at hd
      exact absurd hd (by decide)

/-- Whether a command shows the columns of a table that is called, without a keyspace, by one of the
words for the list of keyspaces. -/
def showsReserved (text : String) : Bool :=
  (shownTable? (text.toList.dropWhile Text.isGap)).any fun table =>
    table.keyspace = "" && Describe.keyspaceWords.contains (Text.lower (Cql.unquote table.name))

/-- The statement that a command stands for is normalized, unless the command shows the columns of a
table with a reserved name. -/
theorem normalize_describe? {text : String} {d : Describe} (h : describe? text = some d) :
  d.normalize = if showsReserved text then Describe.allKeyspaces else d
  := by
  unfold showsReserved
  unfold describe? at h
  dsimp only at h
  generalize text.toList.dropWhile Text.isGap = cs at h ⊢
  cases hshown : shownTable? cs with
  | none =>
    rw [hshown] at h
    split at h
    · cases h
      rfl
    · split at h
      · cases h
        rfl
      · split at h
        · cases h
          apply Describe.normalize_normalize
        · cases h
  | some table =>
    obtain ⟨hkeyspaces, htables, hdescribed⟩ := others_of_shownTable? hshown
    rw [hkeyspaces, htables, hdescribed, hshown] at h
    cases h
    have hname : table.name ≠ "" := by
      obtain ⟨_, -, hrest⟩ := Option.bind_eq_some_iff.mp hshown
      obtain ⟨_, -, hrest⟩ := Option.bind_eq_some_iff.mp hrest
      obtain ⟨_, -, hrest⟩ := Option.bind_eq_some_iff.mp hrest
      exact name_ne_empty_of_tableName? hrest
    simp [Describe.normalize, Describe.listsKeyspaces, hname]

end Command

/-- A command that is understood as it is comes to the same text on its own and as a statement,
whatever the parser, unless it shows the columns of a table with a reserved name; then the statement
lists the keyspaces. Any other text is left to the parser. -/
theorem Attempt.ofText_command (options : RenderingOptions) (parser? : Option StatementParser)
    (text : String) :
  (∀ out, Command.cql? text = some out →
      ∃ a, Attempt.ofText options parser? text = .ok a
        ∧ a.outcome
          = .ok ⟨if Command.showsReserved text then "DESCRIBE KEYSPACES" else out, []⟩)
    ∧ (Command.cql? text = none →
      Attempt.ofText options parser? text = Attempt.ofParser options parser? text)
  := by
  constructor
  · intro out hout
    obtain ⟨d, hd, rfl⟩ := Option.map_eq_some_iff.mp hout
    refine ⟨.ofStatement options (.describe d), by rw [ofText, hd], ?_⟩
    change (Statement.describe d).render options = _
    rw [Describe.render_describe, Command.normalize_describe? hd]
    split <;> rfl
  · intro hnone
    rw [ofText, Option.map_eq_none_iff.mp hnone]

theorem Attempt.ofText_command_show :
  Command.cql? "show FIELDS from [my ks].\x60T\x60 ;" = some "DESCRIBE TABLE \"my ks\".T"
    ∧ Command.showsReserved "show FIELDS from [my ks].\x60T\x60 ;" = false
    ∧ (∃ a, Attempt.ofText {} none "show FIELDS from [my ks].\x60T\x60 ;" = .ok a
      ∧ a.outcome = .ok ⟨"DESCRIBE TABLE \"my ks\".T", []⟩)
    ∧ Command.cql? "SHOW INDEX FROM t" = none
    ∧ Attempt.ofText {} none "SHOW INDEX FROM t" = Attempt.ofParser {} none "SHOW INDEX FROM t"
  := by
  have hcql : Command.cql? "show FIELDS from [my ks].\x60T\x60 ;"
      = some "DESCRIBE TABLE \"my ks\".T" := by
    decide
  have hreserved : Command.showsReserved "show FIELDS from [my ks].\x60T\x60 ;" = false := by
    decide
  have hnone : Command.cql? "SHOW INDEX FROM t" = none := by
    decide
  obtain ⟨a, ha, houtcome⟩ := (Attempt.ofText_command {} none _).1 _ hcql
  rw [hreserved] at houtcome
  exact ⟨hcql, hreserved, ⟨a, ha, houtcome⟩, hnone, (Attempt.ofText_command {} none _).2 hnone⟩

/-- The columns of a table called `keyspaces` are described by the command and listed as keyspaces
by its rendering. -/
theorem Attempt.ofText_showKeyspaces :
  Command.cql? "SHOW COLUMNS FROM keyspaces" = some "DESCRIBE TABLE keyspaces"
    ∧ ∃ a, Attempt.ofText {} none "SHOW COLUMNS FROM keyspaces" = .ok a
      ∧ a.outcome = .ok ⟨"DESCRIBE KEYSPACES", []⟩
  := by
  have hd : Command.describe? "SHOW COLUMNS FROM keyspaces"
      = some { object := "table", table := ⟨"", "keyspaces"⟩ } := rfl
  refine ⟨by rw [Command.cql?, hd]; decide, _, by rw [Attempt.ofText, hd], ?_⟩
  apply (Describe.render_describe {} { object := "table", table := ⟨"", "keyspaces"⟩ }).trans
  decide

end CqlGateway

import CqlGateway.Execution.Session
import CqlGateway.Proofs.Catalog.Definition

/-!
# Keyspaces that statements name

The gateway writes the name of a keyspace into a statement. The hook that watches for keyspaces
reads it from there, and so does a session that is told to change its keyspace, each by rules of
its own for quotes, words and gaps.

Main statement: they all mean the same keyspace, the one under which the store has the name. Two
things carry it. A name in front of a text that cannot extend it is read as it was written, and a
name that stands bare is never taken for the guard `IF`, which is a reserved word.
-/

namespace CqlGateway

open Execution
open Cql (doubled isBare isNameChar isPlain quoteIdentifier storedName unquote)
open Text (foldChar isGap isWordChar keyword? upperChar wordAndGap?)

variable {c : Char}

/-! ### Characters of plain words -/

/-- What holds of the first 128 characters holds of every character of an identifier. -/
theorem Cql.forall_isNameChar {p : Char → Prop}
    (h : ∀ n < 128, isNameChar (Char.ofNat n) = true → p (Char.ofNat n))
    (hc : isNameChar c = true) :
  p c
  := by
  have hp := h c.toNat (toNat_lt_of_isNameChar hc)
  rw [Char.ofNat_toNat] at hp
  exact hp hc

theorem Text.isWordStart_of_isNameStart (hc : Cql.isNameStart c = true) :
  isWordStart c = true
  := by
  have hname : isNameChar c = true := by
    simp only [Cql.isNameStart, isNameChar, Char.isAlphanum, Bool.or_eq_true] at hc ⊢
    exact hc.imp_left .inl
  exact Cql.forall_isNameChar (p := fun c => Cql.isNameStart c = true → isWordStart c = true)
    (by decide) hname hc

theorem Text.isWordChar_of_isNameChar (hc : isNameChar c = true) :
  isWordChar c = true
  := Cql.forall_isNameChar (p := fun c => isWordChar c = true) (by decide) hc

theorem Text.isGap_of_isNameChar (hc : isNameChar c = true) :
  isGap c = false
  := Cql.forall_isNameChar (p := fun c => isGap c = false) (by decide) hc

theorem Text.upperChar_foldChar (hc : isNameChar c = true) :
  upperChar (foldChar c) = upperChar c
  := Cql.forall_isNameChar (p := fun c => upperChar (foldChar c) = upperChar c) (by decide) hc

theorem optionalText_true (text : String) :
  optionalText true text = text
  := rfl

theorem optionalText_false (text : String) :
  optionalText false text = ""
  := rfl

/-! ### Names in front of a text -/

namespace Execution

variable {cs rest : List Char} {name : String}

/-- Whether a text cannot extend a name that stands before it. -/
def endsName (cs : List Char) : Bool :=
  cs.head?.all fun c => !Text.isWordChar c && c ≠ '"'

theorem plainWord?_append (hcs : isPlain cs = true) (hrest : endsName rest = true) :
  Text.plainWord? (cs ++ rest) = some (cs, rest)
  := by
  have hends : rest.takeWhile isWordChar = [] ∧ rest.dropWhile isWordChar = rest := by
    cases rest with
    | nil => exact ⟨rfl, rfl⟩
    | cons c rest =>
      simp only [endsName, List.head?_cons, Option.all_some, Bool.and_eq_true,
        Bool.not_eq_true'] at hrest
      simp [hrest.1]
  cases cs with
  | nil => cases hcs
  | cons c cs =>
    rw [isPlain, Bool.and_eq_true, List.all_eq_true] at hcs
    have hword : ∀ d ∈ cs, isWordChar d = true := fun d hd =>
      Text.isWordChar_of_isNameChar (hcs.2 d hd)
    rw [List.cons_append, Text.plainWord?, if_pos (Text.isWordStart_of_isNameStart hcs.1),
      List.takeWhile_append_of_pos hword, List.dropWhile_append_of_pos hword, hends.1, hends.2,
      List.append_nil]

/-- A quoted name ends at the quote that stands before a text that cannot extend it. -/
theorem quotedNameAndRest?_doubled (cs : List Char) (hrest : endsName rest = true) :
  quotedNameAndRest? (doubled '"' cs ++ '"' :: rest) = some (cs, rest)
  := by
  induction cs with
  | nil =>
    cases rest with
    | nil => rfl
    | cons c rest =>
      simp only [endsName, List.head?_cons, Option.all_some, Bool.and_eq_true,
        decide_eq_true_eq] at hrest
      simp [doubled, quotedNameAndRest?, hrest.2]
  | cons c cs ih =>
    rw [doubled, List.flatMap_cons, ← doubled, List.append_assoc]
    by_cases hc : c = '"'
    · subst hc
      rw [if_pos rfl, List.cons_append, List.singleton_append, quotedNameAndRest?, ih]
      rfl
    · simp [quotedNameAndRest?, hc, ih]

theorem keyspaceAndRest?_doubled (hcs : cs ≠ []) (hrest : endsName rest = true) :
  keyspaceAndRest? ('"' :: (doubled '"' cs ++ '"' :: rest)) = some (String.ofList cs, rest)
  := by
  rw [keyspaceAndRest?, quotedNameAndRest?_doubled cs hrest]
  cases cs with
  | nil => cases hcs rfl
  | cons c cs => rfl

theorem keyspaceAndRest?_plain (hcs : isPlain cs = true) (hrest : endsName rest = true) :
  keyspaceAndRest? (cs ++ rest) = some (Text.lower (String.ofList cs), rest)
  := by
  have hword := plainWord?_append hcs hrest
  rw [keyspaceAndRest?, hword, Option.map_some]
  -- a quote does not start a plain word
  intro cs' hquote
  rw [hquote] at hword
  cases hword

/-! ### Names as they are written -/

theorem toList_quoteIdentifier (name : String) :
  isBare (unquote name) = true
      ∧ (quoteIdentifier name).toList = (unquote name).toList
    ∨ isBare (unquote name) = false
      ∧ (quoteIdentifier name).toList
        = '"' :: (doubled '"' (unquote name).toList ++ ['"'])
  := by
  unfold quoteIdentifier Cql.quoteBare
  split
  next hbare => exact .inl ⟨hbare, rfl⟩
  next hbare =>
    refine .inr ⟨by simpa using hbare, ?_⟩
    rw [String.toList_ofList, List.cons_append]

/-- A name that stands before a text that cannot extend it is read as the store has it. -/
theorem keyspaceAndRest?_quoteIdentifier (hname : unquote name ≠ "")
    (hrest : endsName rest = true) :
  keyspaceAndRest? ((quoteIdentifier name).toList ++ rest) = some (storedName name, rest)
  := by
  rcases toList_quoteIdentifier name with ⟨hbare, hlist⟩ | ⟨hbare, hlist⟩
  · have hplain : isPlain (unquote name).toList = true := by
      rw [isBare, Bool.and_eq_true] at hbare
      exact hbare.1
    rw [hlist, keyspaceAndRest?_plain hplain hrest, storedName, if_pos hbare,
      String.ofList_toList]
  · have hne : (unquote name).toList ≠ [] := by simpa using hname
    rw [hlist, List.cons_append, List.append_assoc, List.singleton_append,
      keyspaceAndRest?_doubled hne hrest, storedName, if_neg (by simp [hbare]),
      String.ofList_toList]

/-! ### The two readers of names -/

/-- Where a quoted name is closed, its units are its characters. -/
theorem quotedUnits_of_quotedNameAndRest? {name : List Char}
    (h : quotedNameAndRest? cs = some (name, rest)) (units : List Char) :
  quotedUnits units cs = (name.reverse ++ units, true)
  := by
  fun_induction quotedNameAndRest? cs generalizing name units with
  | case1 cs ih =>
    obtain ⟨⟨name', rest'⟩, hread, heq⟩ := Option.map_eq_some_iff.mp h
    cases heq
    rw [quotedUnits, ih hread, List.reverse_cons, List.append_assoc]
    rfl
  | case2 cs hcs =>
    cases h
    rw [quotedUnits]
    · rfl
    · exact hcs
  | case3 c cs _ _ ih =>
    obtain ⟨⟨name', rest'⟩, hread, heq⟩ := Option.map_eq_some_iff.mp h
    cases heq
    rw [List.reverse_cons, List.append_assoc, List.singleton_append, ← ih hread]
    simp [quotedUnits]
  | case4 => cases h

/-- Where a session reads a keyspace, the hook reads the same. -/
theorem keyspaceName?_of_keyspaceAndRest? {keyspace : String}
    (h : keyspaceAndRest? cs = some (keyspace, rest)) :
  keyspaceName? cs = some keyspace
  := by
  unfold keyspaceAndRest? at h
  split at h
  next cs =>
    split at h
    next => cases h
    next name _ hne hread =>
      cases h
      have hunits : name ≠ [] := fun hname => hne hname
      rw [keyspaceName?, quotedName?, quotedUnits_of_quotedNameAndRest? hread]
      simp [hunits]
    next => cases h
  next hcs =>
    obtain ⟨⟨word, rest'⟩, hword, heq⟩ := Option.map_eq_some_iff.mp h
    cases heq
    rw [keyspaceName?, hword]
    · rfl
    · exact hcs

/-! ### The guard of a name -/

/-- A keyword is read from characters that are its letters up to case. -/
theorem exists_of_keyword? {ks : List Char} (h : keyword? ks cs = some rest) :
  ∃ word, cs = word ++ rest ∧ word.map foldChar = ks
  := by
  induction ks generalizing cs with
  | nil =>
    cases h
    exact ⟨[], rfl, rfl⟩
  | cons k ks ih =>
    cases cs with
    | nil => cases h
    | cons c cs =>
      rw [keyword?] at h
      split at h
      next hc =>
        obtain ⟨word, rfl, hword⟩ := ih h
        exact ⟨c :: word, rfl, by rw [List.map_cons, hc, hword]⟩
      next => cases h

theorem exists_of_wordAndGap? {k : String} (h : wordAndGap? [k] cs = some rest) :
  ∃ word gap tail, cs = word ++ gap :: tail ∧ word.map foldChar = k.toList
    ∧ isGap gap = true
  := by
  rw [wordAndGap?, List.findSome?_singleton] at h
  obtain ⟨behind, hkeyword, hbehind⟩ := Option.bind_eq_some_iff.mp h
  obtain ⟨word, rfl, hword⟩ := exists_of_keyword? hkeyword
  split at hbehind
  next gap tail =>
    split at hbehind
    next hgap => exact ⟨word, gap, tail, rfl, hword, hgap⟩
    next => cases hbehind
  next => cases hbehind

/-- The guard of a name is a reserved word. -/
theorem isReserved_of_fold (hname : name.toList.all isNameChar = true)
    (h : name.toList.map foldChar = "if".toList) :
  Cql.isReserved name = true
  := by
  have hupper : name.toList.map upperChar = ['I', 'F'] := by
    calc name.toList.map upperChar
      _ = (name.toList.map foldChar).map upperChar := by
        rw [List.map_map]
        apply List.map_congr_left
        intro c hc
        exact (Text.upperChar_foldChar (List.all_eq_true.mp hname c hc)).symm
      _ = ['I', 'F'] := by
        rw [h]
        rfl
  rw [Cql.isReserved, Text.upper, hupper]
  decide

/-- A bare name is not taken for the guard that a name can have. -/
theorem wordAndGap?_of_isBare (hbare : isBare name = true) (hrest : endsName rest = true) :
  wordAndGap? ["if"] (name.toList ++ rest) = none
  := by
  rw [isBare, Bool.and_eq_true, Bool.not_eq_true'] at hbare
  have hchars := Cql.nameChars_of_isPlain hbare.1
  rw [Option.eq_none_iff_forall_ne_some]
  intro behind h
  obtain ⟨word, gap, tail, heq, hword, hgap⟩ := exists_of_wordAndGap? h
  -- the guard would have to be the name itself: a name holds no gap, and what follows it no letter
  have hself : name.toList = word := by
    rcases List.append_eq_append_iff.mp heq with ⟨more, rfl, hmore⟩ | ⟨more, hname, hmore⟩
    · cases more with
      | nil => rw [List.append_nil]
      | cons c more =>
        have hletter : (foldChar c).isAlpha = true := by
          have hletters : "if".toList.all Char.isAlpha = true := by decide
          apply List.all_eq_true.mp hletters
          rw [← hword]
          apply List.mem_map_of_mem
          simp
        rw [hmore] at hrest
        simp [endsName, isWordChar, Text.isPlainLetter, hletter] at hrest
    · cases more with
      | nil => rw [hname, List.append_nil]
      | cons c more =>
        have hc : c = gap := by
          injection hmore with hc
          exact hc.symm
        have hmem : c ∈ name.toList := by
          rw [hname]
          simp
        rw [← hc, Text.isGap_of_isNameChar (List.all_eq_true.mp hchars c hmem)] at hgap
        cases hgap
  rw [isReserved_of_fold hchars (hself ▸ hword)] at hbare
  cases hbare.2

/-- A name is not taken for the guard that a name can have. -/
theorem wordAndGap?_quoteIdentifier (name : String) (hrest : endsName rest = true) :
  wordAndGap? ["if"] ((quoteIdentifier name).toList ++ rest) = none
  := by
  rcases toList_quoteIdentifier name with ⟨hbare, hlist⟩ | ⟨-, hlist⟩
  · rw [hlist]
    apply wordAndGap?_of_isBare hbare hrest
  · rw [hlist]
    rfl

/-! ### Keyspaces of statements -/

theorem dropWhile_quoteIdentifier (name : String) (rest : List Char) :
  ((quoteIdentifier name).toList ++ rest).dropWhile isGap
    = (quoteIdentifier name).toList ++ rest
  := by
  rcases toList_quoteIdentifier name with ⟨hbare, hlist⟩ | ⟨-, hlist⟩
  · rw [hlist]
    rw [isBare, Bool.and_eq_true] at hbare
    have hchars := Cql.nameChars_of_isPlain hbare.1
    cases hname : (unquote name).toList with
    | nil =>
      rw [hname] at hbare
      cases hbare.1
    | cons c cs =>
      rw [hname, List.all_cons, Bool.and_eq_true] at hchars
      rw [List.cons_append, List.dropWhile_cons_of_neg]
      simp [Text.isGap_of_isNameChar hchars.1]
  · rw [hlist]
    rfl

/-- A name is read behind its guard if it has one, and as it stands otherwise. -/
theorem guardedName?_quoteIdentifier {ws : List String} {guard : String}
    (hguard : ∀ cs, words? ("if" :: ws) (guard.toList ++ cs) = some (cs.dropWhile isGap))
    (guarded : Bool) (hname : unquote name ≠ "") (hrest : endsName rest = true) :
  guardedName? ("if" :: ws)
      ((optionalText guarded guard).toList ++ ((quoteIdentifier name).toList ++ rest))
    = some (storedName name)
  := by
  have hread := keyspaceName?_of_keyspaceAndRest? (keyspaceAndRest?_quoteIdentifier hname hrest)
  cases guarded with
  | false =>
    have hwords : words? ("if" :: ws) ((quoteIdentifier name).toList ++ rest) = none := by
      rw [words?, wordAndGap?_quoteIdentifier name hrest, Option.bind_none]
    rw [optionalText_false, String.toList_empty, List.nil_append, guardedName?,
      hwords, Option.bind_none, Option.none_or, hread]
  | true =>
    rw [optionalText_true, guardedName?, hguard, dropWhile_quoteIdentifier,
      Option.bind_some, hread, Option.some_or]

theorem endsName_nil :
  endsName [] = true
  := rfl

theorem endsName_space (cs : List Char) :
  endsName (' ' :: cs) = true
  := by
  have hspace : isWordChar ' ' = false := by decide
  simp [endsName, hspace]

theorem dropWhile_guarded {guard : String}
    (hguard : ∀ cs, (guard.toList ++ cs).dropWhile isGap = guard.toList ++ cs)
    (guarded : Bool) (name : String) (rest : List Char) :
  ((optionalText guarded guard).toList
      ++ ((quoteIdentifier name).toList ++ rest)).dropWhile isGap
    = (optionalText guarded guard).toList ++ ((quoteIdentifier name).toList ++ rest)
  := by
  cases guarded with
  | false =>
    rw [optionalText_false, String.toList_empty, List.nil_append]
    apply dropWhile_quoteIdentifier
  | true =>
    rw [optionalText_true]
    apply hguard

theorem createdKeyspace?_create (guarded : Bool) (hname : unquote name ≠ "")
    (hrest : endsName rest = true) :
  createdKeyspace? ("CREATE KEYSPACE ".toList ++ ((optionalText guarded "IF NOT EXISTS ").toList
      ++ ((quoteIdentifier name).toList ++ rest)))
    = some (storedName name)
  := by
  have hwords (ds : List Char) : words? ["create", "keyspace"] ("CREATE KEYSPACE ".toList ++ ds)
      = some (ds.dropWhile isGap) := rfl
  rw [createdKeyspace?, hwords, dropWhile_guarded (fun _ => rfl), Option.bind_some]
  apply guardedName?_quoteIdentifier (fun _ => rfl) guarded hname hrest

theorem droppedKeyspace?_drop (guarded : Bool) (hname : unquote name ≠ "")
    (hrest : endsName rest = true) :
  droppedKeyspace? ("DROP KEYSPACE ".toList ++ ((optionalText guarded "IF EXISTS ").toList
      ++ ((quoteIdentifier name).toList ++ rest)))
    = some (storedName name)
  := by
  have hwords (ds : List Char) : words? ["drop", "keyspace"] ("DROP KEYSPACE ".toList ++ ds)
      = some (ds.dropWhile isGap) := rfl
  rw [droppedKeyspace?, hwords, dropWhile_guarded (fun _ => rfl), Option.bind_some]
  apply guardedName?_quoteIdentifier (fun _ => rfl) guarded hname hrest

theorem keyspaceChange?_create (guarded : Bool) (hname : unquote name ≠ "")
    (replication : String) :
  keyspaceChange? ("CREATE KEYSPACE " ++ optionalText guarded "IF NOT EXISTS "
      ++ quoteIdentifier name ++ " WITH replication = " ++ replication)
    = some ⟨.add, storedName name⟩
  := by
  have hcreated := createdKeyspace?_create guarded hname
    (endsName_space ("WITH replication = ".toList ++ replication.toList))
  have hstart (ds : List Char) : ("CREATE KEYSPACE ".toList ++ ds).dropWhile isGap
      = "CREATE KEYSPACE ".toList ++ ds := rfl
  have hspace : " WITH replication = ".toList = ' ' :: "WITH replication = ".toList := rfl
  simp only [keyspaceChange?, String.toList_append, List.append_assoc, hstart, hspace,
    List.cons_append, hcreated]

theorem keyspaceChange?_drop (guarded : Bool) (hname : unquote name ≠ "") :
  keyspaceChange? ("DROP KEYSPACE " ++ optionalText guarded "IF EXISTS "
      ++ quoteIdentifier name)
    = some ⟨.remove, storedName name⟩
  := by
  have hdropped := droppedKeyspace?_drop guarded hname endsName_nil
  rw [List.append_nil] at hdropped
  have hstart (ds : List Char) : ("DROP KEYSPACE ".toList ++ ds).dropWhile isGap
      = "DROP KEYSPACE ".toList ++ ds := rfl
  have hcreated (ds : List Char) : createdKeyspace? ("DROP KEYSPACE ".toList ++ ds) = none := rfl
  simp only [keyspaceChange?, String.toList_append, List.append_assoc, hstart, hcreated, hdropped,
    Option.map_some]

theorem usedKeyspace?_use (hname : unquote name ≠ "") :
  usedKeyspace? ("USE " ++ quoteIdentifier name) = some (storedName name)
  := by
  have hread := keyspaceAndRest?_quoteIdentifier hname endsName_nil
  have hwords (ds : List Char) :
      wordAndGap? ["use"] (("USE ".toList ++ ds).dropWhile isGap)
        = some (ds.dropWhile isGap) := rfl
  have hgap := dropWhile_quoteIdentifier name []
  rw [List.append_nil] at hread hgap
  rw [usedKeyspace?, String.toList_append, hwords, hgap]
  simp [hread, Text.atCommandEnd]

end Execution

/-! ### Renderings -/

theorem CreateKeyspace.rendersAs {s : CreateKeyspace} (hname : s.name ≠ "")
    (options : RenderingOptions) :
  (Statement.createKeyspace s).RendersAs options
    ("CREATE KEYSPACE " ++ optionalText s.ifNotExists "IF NOT EXISTS "
      ++ quoteIdentifier s.name ++ " WITH replication = " ++ options.replication.cql)
  := by
  apply Statement.rendersAs_of_yields rfl
  · simp [CreateKeyspace.cql, warnOptions, hname]
  · simp

theorem DropKeyspace.rendersAs {s : DropKeyspace} (hname : s.name ≠ "")
    (options : RenderingOptions) :
  (Statement.dropKeyspace s).RendersAs options
    ("DROP KEYSPACE " ++ optionalText s.ifExists "IF EXISTS " ++ quoteIdentifier s.name)
  := by
  apply Statement.rendersAs_of_yields rfl
  · simp [DropKeyspace.cql, hname]
  · simp

theorem Use.rendersAs {s : Use} (hname : s.keyspace ≠ "") (options : RenderingOptions) :
  (Statement.use s).RendersAs options ("USE " ++ quoteIdentifier s.keyspace)
  := by
  apply Statement.rendersAs_of_yields rfl
  · simp [Use.cql, hname]
  · simp

/-- The statements that create, drop or choose a keyspace are written so that the keyspace that is
reported as added or removed, and the one that a session changes to, is the one under which the
store has the name, whatever quotes, words and gaps the name holds. -/
theorem keyspace_of_rendering {name : String} (hname : unquote name ≠ "")
    (options : RenderingOptions) :
  (∀ s : CreateKeyspace, s.name = name → ∃ r, (Statement.createKeyspace s).render options = .ok r
      ∧ keyspaceChange? r.text = some ⟨.add, storedName name⟩)
    ∧ (∀ s : DropKeyspace, s.name = name → ∃ r, (Statement.dropKeyspace s).render options = .ok r
      ∧ keyspaceChange? r.text = some ⟨.remove, storedName name⟩)
    ∧ ∀ s : Use, s.keyspace = name → ∃ r, (Statement.use s).render options = .ok r
      ∧ usedKeyspace? r.text = some (storedName name)
  := by
  have hne : name ≠ "" := by
    rintro rfl
    exact hname rfl
  refine ⟨?_, ?_, ?_⟩
  · rintro s rfl
    obtain ⟨r, hr, htext⟩ := CreateKeyspace.rendersAs hne options
    exact ⟨r, hr, htext ▸ keyspaceChange?_create s.ifNotExists hname _⟩
  · rintro s rfl
    obtain ⟨r, hr, htext⟩ := DropKeyspace.rendersAs hne options
    exact ⟨r, hr, htext ▸ keyspaceChange?_drop s.ifExists hname⟩
  · rintro s rfl
    obtain ⟨r, hr, htext⟩ := Use.rendersAs hne options
    exact ⟨r, hr, htext ▸ usedKeyspace?_use hname⟩

/-- A name that spells a guard, with a quote in it, in the brackets of another dialect. -/
theorem keyspace_of_rendering_guard :
  unquote "[IF \"exists]" ≠ ""
    ∧ ∃ r, (Statement.dropKeyspace ⟨"[IF \"exists]", true⟩).render {} = .ok r
      ∧ keyspaceChange? r.text = some ⟨.remove, "IF \"exists"⟩
  := by
  have hname : unquote "[IF \"exists]" ≠ "" := by decide
  exact ⟨hname, (keyspace_of_rendering hname {}).2.1 ⟨"[IF \"exists]", true⟩ rfl⟩

end CqlGateway

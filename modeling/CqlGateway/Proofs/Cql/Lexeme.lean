import CqlGateway.Cql.ColumnType
import CqlGateway.Proofs.Cql.Phrase

/-!
# Lexemes of CQL

The words, quoted names and marks that a text of CQL consists of. A bare name is a word of
letters, digits and underscores, in which the case of letters does not matter; a name in double
quotes stands for itself.

What the gateway writes falls into lexemes part by part: a part is taken apart in front of any rest
that cannot extend its last word.
-/

namespace CqlGateway.Cql

/-- The units that a statement is read by. -/
inductive Lexeme where
  | word (text : String)
  | name (text : String)
  | mark (c : Char)
  /-- A quoted name that does not end. -/
  | unclosed
  deriving DecidableEq, Repr

/-- Where a text is being taken apart: in or between words, or inside a quoted name. What was read
of the word or name so far is reversed. -/
inductive Lexing where
  | outside (letters : List Char)
  | inside (letters : List Char)

namespace Lexeme

/-- The word that has ended, if there is one, before other lexemes. -/
def ending (letters : List Char) (rest : List Lexeme) : List Lexeme :=
  if letters = [] then rest else .word (String.ofList letters.reverse) :: rest

/-- The lexemes of the rest of a text. -/
def scan : Lexing → List Char → List Lexeme
  | .outside letters, [] => ending letters []
  | .outside letters, c :: cs =>
    if isNameChar c then scan (.outside (c :: letters)) cs
    else ending letters
      (if Text.isBlank c then scan (.outside []) cs
      else if c = '"' then scan (.inside []) cs
      else .mark c :: scan (.outside []) cs)
  | .inside _, [] => [.unclosed]
  | .inside letters, '"' :: '"' :: cs => scan (.inside ('"' :: letters)) cs
  | .inside letters, '"' :: cs => .name (String.ofList letters.reverse) :: scan (.outside []) cs
  | .inside letters, c :: cs => scan (.inside (c :: letters)) cs

/-- The lexemes of a text. -/
def all (cs : List Char) : List Lexeme :=
  scan (.outside []) cs

/-- The name that a lexeme stands for, if it can be one. -/
def identifier? : Lexeme → Option String
  | .word w => if isReserved w then none else some (Text.lower w)
  | .name n => some n
  | _ => none

/-- The lexeme of a name without quotes. -/
def ofBare (name : String) : Lexeme :=
  if isBare name then .word name else .name name

/-! ### Parts of a text -/

/-- Whether a text cannot extend a word or a quoted name that stands before it. -/
def breaks (cs : List Char) : Bool :=
  cs.head?.all fun c => !isNameChar c && c ≠ '"'

/-- Whether a text falls into the given lexemes in front of any rest that breaks off. -/
def LexesTo (cs : List Char) (ls : List Lexeme) : Prop :=
  ∀ rest, breaks rest = true → all (cs ++ rest) = ls ++ all rest

theorem LexesTo.all_eq {cs : List Char} {ls : List Lexeme} (h : LexesTo cs ls) :
  all cs = ls
  := by
  have hall := h [] rfl
  rwa [List.append_nil, show all [] = [] from rfl, List.append_nil] at hall

/-- A text that falls into the given lexemes whatever comes behind it, and that breaks off what
stands before it. -/
structure Separates (sep : List Char) (ls : List Lexeme) : Prop where
  all_append : ∀ rest, all (sep ++ rest) = ls ++ all rest
  breaks_append : ∀ rest, breaks (sep ++ rest) = true

/-- In front of a part stands one that falls into lexemes whatever comes behind it. -/
theorem LexesTo.before
    (cs : List Char) (ls : List Lexeme) (hcs : ∀ rest, all (cs ++ rest) = ls ++ all rest)
    {ds : List Char} {ms : List Lexeme} (hds : LexesTo ds ms) :
  LexesTo (cs ++ ds) (ls ++ ms)
  := by
  intro rest hrest
  rw [List.append_assoc, hcs, hds rest hrest, List.append_assoc]

theorem LexesTo.join
    {cs sep ds : List Char} {ls ms ns : List Lexeme} (hcs : LexesTo cs ls) (hsep : Separates sep ms)
    (hds : LexesTo ds ns) :
  LexesTo (cs ++ (sep ++ ds)) (ls ++ (ms ++ ns))
  := by
  intro rest hrest
  rw [List.append_assoc, List.append_assoc, hcs _ (hsep.breaks_append _), hsep.all_append,
    hds rest hrest, List.append_assoc, List.append_assoc]

theorem LexesTo.behind
    {cs sep : List Char} {ls ms : List Lexeme} (hcs : LexesTo cs ls) (hsep : Separates sep ms) :
  LexesTo (cs ++ sep) (ls ++ ms)
  := by
  intro rest _
  rw [List.append_assoc, hcs _ (hsep.breaks_append _), hsep.all_append, List.append_assoc]

/-! ### Words and names -/

theorem scan_word {cs : List Char} (hcs : cs.all isNameChar = true) (letters rest : List Char) :
  scan (.outside letters) (cs ++ rest) = scan (.outside (cs.reverse ++ letters)) rest
  := by
  induction cs generalizing letters with
  | nil => rfl
  | cons c cs ih =>
    rw [List.all_cons, Bool.and_eq_true] at hcs
    rw [List.cons_append, scan, if_pos hcs.1, ih hcs.2, List.reverse_cons, List.append_assoc]
    rfl

theorem scan_outside_of_breaks {letters rest : List Char} (hletters : letters ≠ [])
    (hrest : breaks rest = true) :
  scan (.outside letters) rest = .word (String.ofList letters.reverse) :: all rest
  := by
  cases rest with
  | nil => simp [all, scan, ending, hletters]
  | cons c cs =>
    have hc : isNameChar c = false := by
      simp only [breaks, List.head?_cons, Option.all_some, Bool.and_eq_true,
        Bool.not_eq_true'] at hrest
      exact hrest.1
    simp [all, scan, ending, hletters, hc]

theorem lexesTo_word {s : String} (hs : s.toList.all isNameChar = true) (hne : s.toList ≠ []) :
  LexesTo s.toList [.word s]
  := by
  intro rest hrest
  rw [all, scan_word hs, List.append_nil,
    scan_outside_of_breaks (by simpa using hne) hrest, List.reverse_reverse, String.ofList_toList]
  rfl

theorem scan_doubled (cs letters rest : List Char) :
  scan (.inside letters) (doubled '"' cs ++ rest) = scan (.inside (cs.reverse ++ letters)) rest
  := by
  induction cs generalizing letters with
  | nil => rfl
  | cons c cs ih =>
    rw [doubled, List.flatMap_cons, ← doubled, List.append_assoc, List.reverse_cons,
      List.append_assoc, List.cons_append, List.nil_append, ← ih]
    by_cases hc : c = '"'
    · subst hc
      rfl
    · simp [scan, hc]

/-- A quoted name ends where the text breaks off behind its quote. -/
theorem scan_inside_of_breaks {rest : List Char} (letters : List Char)
    (hrest : breaks rest = true) :
  scan (.inside letters) ('"' :: rest) = .name (String.ofList letters.reverse) :: all rest
  := by
  cases rest with
  | nil => rfl
  | cons c cs =>
    have hc : c ≠ '"' := by
      simp only [breaks, List.head?_cons, Option.all_some, Bool.and_eq_true,
        decide_eq_true_eq] at hrest
      exact hrest.2
    simp [scan, all, hc]

theorem lexesTo_quoteBare (name : String) :
  LexesTo (quoteBare name).toList [ofBare name]
  := by
  unfold quoteBare ofBare
  split
  next hbare =>
    rw [isBare, Bool.and_eq_true] at hbare
    apply lexesTo_word (nameChars_of_isPlain hbare.1)
    intro hnil
    rw [hnil] at hbare
    cases hbare.1
  next =>
    intro rest hrest
    rw [String.toList_ofList, List.cons_append, List.cons_append, List.append_assoc, all,
      show ∀ ds, scan (.outside []) ('"' :: ds) = scan (.inside []) ds from fun _ => rfl,
      scan_doubled, List.append_nil, List.cons_append, List.nil_append,
      scan_inside_of_breaks _ hrest, List.reverse_reverse, String.ofList_toList]
    rfl

/-- What the lexeme of a name stands for is the name, in small letters if it is bare. -/
theorem identifier?_ofBare (name : String) :
  (ofBare name).identifier? = some (if isBare name then Text.lower name else name)
  := by
  unfold ofBare
  split
  next hbare =>
    rw [isBare, Bool.and_eq_true, Bool.not_eq_true'] at hbare
    simp [identifier?, hbare.2]
  next => rfl

/-! ### Lists -/

/-- Parts with separators between them fall into the lexemes of the parts with those of the
separator between them. -/
theorem lexesTo_intercalate
    {sep : String} {separators : List Lexeme} (hsep : Separates sep.toList separators)
    {parts : List String} {lss : List (List Lexeme)}
    (h : List.Forall₂ (fun p ls => LexesTo p.toList ls) parts lss) :
  LexesTo (String.intercalate sep parts).toList (separators.intercalate lss)
  := by
  induction h with
  | nil =>
    intro rest _
    rfl
  | cons hhead htail ih =>
    rename_i p ls ps mss
    cases htail with
    | nil => simpa using hhead
    | cons hnext hrest =>
      rename_i q ms qs nss
      rw [String.intercalate_cons_cons, List.intercalate_cons_cons, String.toList_append,
        String.toList_append, List.append_assoc, List.append_assoc]
      exact hhead.join hsep ih

/-! ### Types -/

end Lexeme

namespace ScalarType

/-- All types that hold a single value. -/
def all : List ScalarType :=
  [.tinyint, .smallint, .int, .bigint, .varint, .decimal, .float, .double, .text, .boolean, .date,
   .time, .timestamp, .duration, .blob, .uuid, .timeuuid, .inet]

/-- The type of the given name. -/
def ofName? (name : String) : Option ScalarType :=
  all.find? (·.name = name)

@[simp]
theorem ofName?_name (t : ScalarType) :
  ofName? t.name = some t
  := by
  cases t <;> rfl

theorem nameChars_name (t : ScalarType) :
  t.name.toList.all isNameChar = true ∧ t.name.toList ≠ []
  := by
  cases t <;> exact ⟨rfl, by simp [name]⟩

end ScalarType

namespace ColumnType

/-- The lexemes of a type. -/
def lexemes : ColumnType → List Lexeme
  | .scalar type => [.word type.name]
  | .list element => [.word "list", .mark '<'] ++ (element.lexemes ++ [.mark '>'])

/-- The type that lexemes start with, and the lexemes behind it. -/
def read? : List Lexeme → Option (ColumnType × List Lexeme)
  | .word w :: .mark '<' :: rest =>
    if w = "list" then
      match read? rest with
      | some (element, .mark '>' :: rest) => some (.list element, rest)
      | _ => none
    else none
  | .word w :: rest => (ScalarType.ofName? w).map fun type => (.scalar type, rest)
  | _ => none

theorem lexesTo_cql (t : ColumnType) :
  Lexeme.LexesTo t.cql.toList t.lexemes
  := by
  induction t with
  | scalar type => exact Lexeme.lexesTo_word type.nameChars_name.1 type.nameChars_name.2
  | list element ih =>
    have hclose : Lexeme.Separates ">".toList [.mark '>'] := ⟨fun _ => rfl, fun _ => rfl⟩
    rw [cql, lexemes, String.toList_append, String.toList_append, List.append_assoc]
    exact Lexeme.LexesTo.before _ _ (fun _ => rfl) (ih.behind hclose)

theorem read?_lexemes (t : ColumnType) (rest : List Lexeme)
    (hrest : rest.head? ≠ some (.mark '<')) :
  read? (t.lexemes ++ rest) = some (t, rest)
  := by
  induction t generalizing rest with
  | scalar type =>
    rw [lexemes, List.cons_append, List.nil_append, read?, ScalarType.ofName?_name]
    · rfl
    · rintro ls rfl
      apply hrest rfl
  | list element ih =>
    have hread := ih (.mark '>' :: rest) (by simp)
    simp [lexemes, read?, hread]

end ColumnType

end CqlGateway.Cql

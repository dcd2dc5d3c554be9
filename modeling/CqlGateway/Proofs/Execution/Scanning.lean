import CqlGateway.Execution.Statements
import Mathlib.Data.List.Basic

/-!
# Scanning a text

Splitting a text into statements looks one character ahead: a dash may begin a comment, and a
quote inside a text literal may be the first of two. A mark says what is known of a position once
the characters before it have been read, so that the scan becomes a walk over marks that takes one
character at a time. A walk over a text is then a walk over its parts, one after the other.

A text is closed if a walk over it meets no terminator and ends outside of literals, quoted names
and comments. Whether it may hold comments is a parameter: without them, splitting keeps every
character of a closed text; with them, a closed text still gives a single piece.
-/

namespace CqlGateway.Execution

variable {cs ds : List Char} {comments : Bool} {c : Char}

/-- What is known of a position in a text. -/
inductive Mark where
  | plain
  /-- Behind a dash that may begin a comment. -/
  | dash
  /-- Behind a slash that may begin a comment. -/
  | slash
  /-- Inside a text literal. -/
  | literal
  /-- Behind a quote that ends a text literal or is the first of two. -/
  | quote
  /-- Inside a quoted name. -/
  | name
  | comment
  deriving DecidableEq, Repr

namespace Mark

/-- The mark behind a character that is read outside of everything. -/
def opening (c : Char) : Mark :=
  if c = '-' then .dash
  else if c = '/' then .slash
  else if c = '\x27' then .literal
  else if c = '"' then .name
  else .plain

/-- The mark behind one more character. -/
def next : Mark → Char → Mark
  | .plain, c => opening c
  | .dash, c => if c = '-' then .comment else opening c
  | .slash, c => if c = '/' then .comment else opening c
  | .literal, c => if c = '\x27' then .quote else .literal
  | .quote, c => if c = '\x27' then .literal else opening c
  | .name, c => if c = '"' then .plain else .name
  | .comment, c => if c = '\n' then .plain else .comment

/-- Whether a position is outside of literals, quoted names and comments. -/
def isOutside : Mark → Bool
  | .plain | .dash | .slash | .quote => true
  | .literal | .name | .comment => false

/-- Whether a character ends a statement. -/
def ends (p : Mark) (c : Char) : Bool :=
  p.isOutside && c = ';'

/-- The place of a position whose last character is left to be read. -/
def place : Mark → Place
  | .plain | .dash | .slash => .plain
  | .literal | .quote => .literal
  | .name => .quotedName
  | .comment => .comment

/-- The character that is left to be read, if its meaning depends on the next one. -/
def pending : Mark → List Char
  | .dash => ['-']
  | .slash => ['/']
  | .quote => ['\x27']
  | _ => []

/-- What a statement keeps of a character that is read outside of everything. -/
def keptOpening (c : Char) : List Char :=
  if c = '-' ∨ c = '/' then [] else [c]

/-- What a statement keeps once one more character has been read. -/
def kept : Mark → Char → List Char
  | .plain, c => keptOpening c
  | .dash, c => if c = '-' then [] else '-' :: keptOpening c
  | .slash, c => if c = '/' then [] else '/' :: keptOpening c
  | .literal, c => if c = '\x27' then [] else [c]
  | .quote, c => if c = '\x27' then ['\x27', '\x27'] else '\x27' :: keptOpening c
  | .name, c => [c]
  | .comment, c => if c = '\n' then [c] else []

/-- The mark behind one more character that does not end a statement. The flag says whether it may
begin a comment. -/
def next? (comments : Bool) (p : Mark) (c : Char) : Option Mark :=
  if p.ends c || (!comments && p.next c = .comment) then none else some (p.next c)

end Mark

/-- The mark behind characters none of which ends a statement. -/
def walk (comments : Bool) (p : Mark) (cs : List Char) : Option Mark :=
  cs.foldlM (Mark.next? comments) p

/-- Whether a text holds no terminator and ends outside of everything. -/
def Closed (comments : Bool) (cs : List Char) : Prop :=
  ∃ q, walk comments .plain cs = some q ∧ q.isOutside = true

/-! ### One character -/

attribute [local simp] pieces Mark.place Mark.pending

/-- Splitting reads a plain character that neither ends nor opens anything. -/
theorem pieces_opening (hend : c ≠ ';') (acc rest : List Char) :
  pieces .plain acc (c :: rest)
    = pieces (Mark.opening c).place ((Mark.keptOpening c).reverse ++ acc)
        ((Mark.opening c).pending ++ rest)
  := by
  unfold Mark.opening Mark.keptOpening
  by_cases hdash : c = '-'
  · subst hdash
    rfl
  by_cases hslash : c = '/'
  · subst hslash
    rfl
  by_cases hquote : c = '\x27'
  · subst hquote
    rfl
  by_cases hname : c = '"'
  · subst hname
    rfl
  simp [*]

variable {p : Mark}

/-- Splitting reads one character: the statement keeps what the mark says, and the reading goes on
from the next mark. -/
theorem pieces_next (hend : p.ends c = false) (acc rest : List Char) :
  pieces p.place acc (p.pending ++ c :: rest)
    = pieces (p.next c).place ((p.kept c).reverse ++ acc) ((p.next c).pending ++ rest)
  := by
  have opening {q : Mark} (hout : q.isOutside = true) (hq : q.ends c = false) : c ≠ ';' := by
    simpa [Mark.ends, hout] using hq
  cases p with
  | plain => apply pieces_opening (opening rfl hend)
  | dash =>
    by_cases hdash : c = '-'
    · subst hdash
      rfl
    · have h := pieces_opening (opening rfl hend) ('-' :: acc) rest
      simpa [Mark.next, Mark.kept, hdash] using h
  | slash =>
    by_cases hslash : c = '/'
    · subst hslash
      rfl
    · have h := pieces_opening (opening rfl hend) ('/' :: acc) rest
      simpa [Mark.next, Mark.kept, hslash] using h
  | literal =>
    by_cases hquote : c = '\x27'
    · subst hquote
      rfl
    · simp [Mark.next, Mark.kept, hquote]
  | quote =>
    by_cases hquote : c = '\x27'
    · subst hquote
      rfl
    · have h := pieces_opening (opening rfl hend) ('\x27' :: acc) rest
      simpa [Mark.next, Mark.kept, hquote] using h
  | name =>
    by_cases hname : c = '"'
    · subst hname
      rfl
    · simp [Mark.next, Mark.kept, hname]
  | comment =>
    by_cases hline : c = '\n'
    · subst hline
      rfl
    · simp [Mark.next, Mark.kept, hline]

theorem pieces_terminator (hout : p.isOutside = true) (acc rest : List Char) :
  pieces p.place acc (p.pending ++ ';' :: rest)
    = (acc.reverse ++ p.pending) :: pieces .plain [] rest
  := by
  cases p with
  | plain => simp
  | dash => simp
  | slash => simp
  | quote => simp
  | literal => cases hout
  | name => cases hout
  | comment => cases hout

theorem pieces_end (p : Mark) (acc : List Char) :
  pieces p.place acc p.pending = [acc.reverse ++ p.pending]
  := by
  cases p <;> simp

/-- What a statement keeps and what is left to be read are all characters read, unless a comment
begins. -/
theorem Mark.kept_append_pending (hp : p ≠ .comment) (hcomment : p.next c ≠ .comment) :
  p.kept c ++ (p.next c).pending = p.pending ++ [c]
  := by
  have opening : Mark.keptOpening c ++ (Mark.opening c).pending = [c] := by
    unfold Mark.keptOpening Mark.opening
    by_cases hdash : c = '-'
    · simp [hdash]
    by_cases hslash : c = '/'
    · simp [hslash]
    by_cases hquote : c = '\x27'
    · simp [hquote]
    by_cases hname : c = '"'
    · simp [hname]
    simp [hdash, hslash, hquote, hname]
  cases p with
  | plain => simpa [Mark.kept, Mark.next] using opening
  | dash =>
    by_cases hdash : c = '-'
    · simp [Mark.next, hdash] at hcomment
    · simpa [Mark.kept, Mark.next, hdash] using opening
  | slash =>
    by_cases hslash : c = '/'
    · simp [Mark.next, hslash] at hcomment
    · simpa [Mark.kept, Mark.next, hslash] using opening
  | literal =>
    by_cases hquote : c = '\x27'
    · simp [Mark.kept, Mark.next, hquote]
    · simp [Mark.kept, Mark.next, hquote]
  | quote =>
    by_cases hquote : c = '\x27'
    · simp [Mark.kept, Mark.next, hquote]
    · simpa [Mark.kept, Mark.next, hquote] using opening
  | name =>
    by_cases hname : c = '"'
    · simp [Mark.kept, Mark.next, hname]
    · simp [Mark.kept, Mark.next, hname]
  | comment => cases hp rfl

/-! ### Walks -/

@[simp]
theorem walk_nil (comments : Bool) (p : Mark) :
  walk comments p [] = some p
  := rfl

theorem walk_cons (comments : Bool) (p : Mark) (c : Char) (cs : List Char) :
  walk comments p (c :: cs) = (p.next? comments c).bind fun q => walk comments q cs
  := by
  rw [walk, List.foldlM_cons]
  rfl

theorem walk_append (comments : Bool) (p : Mark) (cs ds : List Char) :
  walk comments p (cs ++ ds) = (walk comments p cs).bind fun q => walk comments q ds
  := by
  rw [walk, List.foldlM_append]
  rfl

variable {q : Mark}

theorem Mark.next?_eq_some :
  p.next? comments c = some q
    ↔ p.ends c = false ∧ (comments = false → p.next c ≠ .comment) ∧ p.next c = q
  := by
  unfold Mark.next?
  cases p.ends c <;> cases comments <;> simp

theorem walk_mono (h : walk false p cs = some q) :
  walk true p cs = some q
  := by
  induction cs generalizing p with
  | nil => apply h
  | cons c cs ih =>
    rw [walk_cons] at h ⊢
    obtain ⟨r, hr, hq⟩ := Option.bind_eq_some_iff.mp h
    obtain ⟨hend, -, hnext⟩ := Mark.next?_eq_some.mp hr
    rw [Mark.next?_eq_some.mpr ⟨hend, by simp, hnext⟩]
    apply ih hq

/-- Splitting follows a walk: the statement keeps some of the characters, and all of them up to the
one left to be read if there are no comments. -/
theorem pieces_walk (h : walk comments p cs = some q) :
  ∃ kept : List Char,
    (∀ acc rest, pieces p.place acc (p.pending ++ (cs ++ rest))
      = pieces q.place (kept.reverse ++ acc) (q.pending ++ rest))
    ∧ (comments = false → p ≠ .comment → kept ++ q.pending = p.pending ++ cs)
  := by
  induction cs generalizing p with
  | nil =>
    obtain rfl : p = q := by simpa using h
    exact ⟨[], by simp⟩
  | cons c cs ih =>
    rw [walk_cons] at h
    obtain ⟨r, hr, hq⟩ := Option.bind_eq_some_iff.mp h
    obtain ⟨hend, hcomment, rfl⟩ := Mark.next?_eq_some.mp hr
    obtain ⟨kept, hpieces, hkept⟩ := ih hq
    refine ⟨p.kept c ++ kept, ?_, ?_⟩
    · intro acc rest
      rw [List.cons_append, pieces_next hend, hpieces]
      simp
    · intro hc hp
      rw [List.append_assoc, hkept hc (hcomment hc), ← List.append_assoc,
        Mark.kept_append_pending hp (hcomment hc)]
      simp

/-! ### Closed texts -/

/-- A closed text is one piece, up to the terminator that follows it or to the end. Without
comments the piece is the text itself. -/
theorem Closed.pieces (h : Closed comments cs) :
  ∃ kept : List Char,
    (∀ acc rest, pieces .plain acc (cs ++ ';' :: rest)
      = (acc.reverse ++ kept) :: pieces .plain [] rest)
    ∧ (∀ acc, pieces .plain acc cs = [acc.reverse ++ kept])
    ∧ (comments = false → kept = cs)
  := by
  obtain ⟨q, hq, hout⟩ := h
  obtain ⟨kept, hpieces, hkept⟩ := pieces_walk hq
  refine ⟨kept ++ q.pending, ?_, ?_, ?_⟩
  · intro acc rest
    apply Eq.trans (hpieces acc (';' :: rest))
    rw [pieces_terminator hout]
    simp
  · intro acc
    have h := hpieces acc []
    simp only [List.append_nil] at h
    apply Eq.trans h
    rw [pieces_end]
    simp
  · intro hc
    simpa using hkept hc (by decide)

/-- A terminator that ends no statement is inside of something, and so is what follows. -/
theorem Mark.isOutside_of_next?_terminator (h : Mark.next? comments p ';' = some q) :
  q.isOutside = false
  := by
  cases comments <;> cases p <;> revert q <;> decide

theorem Closed.getLast?_ne_terminator (h : Closed comments cs) :
  cs.getLast? ≠ some ';'
  := by
  intro hlast
  obtain ⟨ds, rfl⟩ := List.getLast?_eq_some_iff.mp hlast
  obtain ⟨q, hwalk, hout⟩ := h
  rw [walk_append] at hwalk
  obtain ⟨p, -, hp⟩ := Option.bind_eq_some_iff.mp hwalk
  rw [walk_cons] at hp
  obtain ⟨q', hnext, hq⟩ := Option.bind_eq_some_iff.mp hp
  cases hq
  rw [Mark.isOutside_of_next?_terminator hnext] at hout
  cases hout

theorem closed_nil (comments : Bool) :
  Closed comments []
  := ⟨.plain, rfl, rfl⟩

/-- Whether a text begins with a character that cannot go together with the one before it. -/
def startsApart (cs : List Char) : Bool :=
  cs.head?.all fun c => c ≠ '-' && c ≠ '/' && c ≠ '\x27'

/-- Behind a closed text, a text that stands apart is read as from the start. -/
theorem walk_of_startsApart (hout : p.isOutside = true) (hcs : startsApart cs = true)
    (hne : cs ≠ []) :
  walk comments p cs = walk comments .plain cs
  := by
  cases cs with
  | nil => cases hne rfl
  | cons c cs =>
    simp only [startsApart, List.head?_cons, Option.all_some, Bool.and_eq_true,
      decide_eq_true_eq] at hcs
    obtain ⟨⟨hdash, hslash⟩, hquote⟩ := hcs
    have hnext : p.next c = Mark.plain.next c := by
      cases p <;> simp_all [Mark.next, Mark.isOutside]
    have hends : p.ends c = Mark.plain.ends c := by
      rw [Mark.ends, Mark.ends, hout]
      rfl
    rw [walk_cons, walk_cons, Mark.next?, Mark.next?, hnext, hends]

theorem Closed.append (hcs : Closed comments cs) (hds : Closed comments ds)
    (hapart : startsApart ds = true) :
  Closed comments (cs ++ ds)
  := by
  obtain ⟨p, hp, hpout⟩ := hcs
  by_cases hne : ds = []
  · subst hne
    rw [List.append_nil]
    exact ⟨p, hp, hpout⟩
  obtain ⟨q, hq, hqout⟩ := hds
  refine ⟨q, ?_, hqout⟩
  rw [walk_append, hp, Option.bind_some, walk_of_startsApart hpout hapart hne]
  apply hq

/-- A text that leads from the outside to the outside without anything left to be read. -/
def leadsOut (cs : List Char) : Bool :=
  walk false .plain cs = some .plain

theorem walk_of_leadsOut (hcs : leadsOut cs = true) :
  walk comments .plain cs = some .plain
  := by
  have h : walk false .plain cs = some .plain := by simpa [leadsOut] using hcs
  cases comments with
  | false => apply h
  | true => apply walk_mono h

theorem leadsOut_append (hcs : leadsOut cs = true) (hds : leadsOut ds = true) :
  leadsOut (cs ++ ds) = true
  := by
  have h : walk false .plain (cs ++ ds) = some .plain := by
    rw [walk_append, walk_of_leadsOut hcs, Option.bind_some, walk_of_leadsOut hds]
  simpa [leadsOut] using h

/-- Splitting reads a text that leads out and goes on as from the start. -/
theorem pieces_of_leadsOut (hcs : leadsOut cs = true) (acc rest : List Char) :
  pieces .plain acc (cs ++ rest) = pieces .plain (cs.reverse ++ acc) rest
  := by
  obtain ⟨kept, hpieces, hkept⟩ := pieces_walk (walk_of_leadsOut hcs : walk false .plain cs = _)
  obtain rfl : kept = cs := by simpa using hkept rfl (by decide)
  apply hpieces

/-- A text before which something is written that leads out is as closed as before. -/
theorem closed_append_iff (hcs : leadsOut cs = true) :
  Closed comments (cs ++ ds) ↔ Closed comments ds
  := by
  unfold Closed
  rw [walk_append, walk_of_leadsOut hcs, Option.bind_some]

theorem closed_of_leadsOut (hcs : leadsOut cs = true) :
  Closed comments cs
  := by
  have h : Closed comments (cs ++ []) := (closed_append_iff hcs).mpr (closed_nil comments)
  simpa using h

theorem Closed.join {sep : List Char} (hcs : Closed comments cs) (hds : Closed comments ds)
    (hsep : leadsOut sep = true) (hapart : startsApart sep = true) (hne : sep ≠ []) :
  Closed comments (cs ++ sep ++ ds)
  := by
  rw [List.append_assoc]
  apply hcs.append
  · apply (closed_append_iff hsep).mpr hds
  · cases sep with
    | nil => cases hne rfl
    | cons c sep => simpa [startsApart] using hapart

/-- A comment leaves the line break at its end. -/
theorem pieces_comment (hcs : '\n' ∉ cs) (acc rest : List Char) :
  pieces .comment acc (cs ++ '\n' :: rest) = pieces .plain ('\n' :: acc) rest
  := by
  induction cs with
  | nil => rw [List.nil_append, pieces]
  | cons c cs ih =>
    rw [List.mem_cons, not_or] at hcs
    rw [List.cons_append, pieces, ih hcs.2]
    intro hc
    exact hcs.1 hc.symm

end CqlGateway.Execution

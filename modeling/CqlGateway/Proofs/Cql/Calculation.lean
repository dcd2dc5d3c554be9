import CqlGateway.Cql.Identifier
import CqlGateway.Json.Token
import CqlGateway.Number.Digits
import Mathlib.Algebra.Field.Rat
import Mathlib.Tactic.FieldSimp
import Mathlib.Tactic.Ring

/-!
# Reading a calculation

A calculation is read from its text with the usual precedence: a sign binds most, then products
and quotients, then sums and differences, and operations that bind the same are performed from left
to right. Main statement: the reader accepts exactly the texts of the grammar that says so, and
what it reads is what the grammar gives.

A text is divided into names, numbers and marks. Two signs or slashes in a row would open a comment.
-/

namespace CqlGateway.Cql

/-- An operation on two numbers. -/
inductive ArithmeticOp where
  | add
  | subtract
  | multiply
  | divide
  | remainder
  deriving DecidableEq, Repr

namespace ArithmeticOp

/-- The mark of an operation. -/
def mark : ArithmeticOp → Char
  | .add => '+'
  | .subtract => '-'
  | .multiply => '*'
  | .divide => '/'
  | .remainder => '%'

/-- All operations. -/
def all : List ArithmeticOp :=
  [.add, .subtract, .multiply, .divide, .remainder]

/-- The operation of a mark. -/
def ofMark? (c : Char) : Option ArithmeticOp :=
  all.find? (·.mark = c)

/-- Whether an operation is performed before sums and differences. -/
def isTight : ArithmeticOp → Bool
  | .add | .subtract => false
  | .multiply | .divide | .remainder => true

/-- The result of an operation, where it has one. What the remainder is, is left open. -/
def result? (rem : ℚ → ℚ → Option ℚ) : ArithmeticOp → ℚ → ℚ → Option ℚ
  | .add, x, y => some (x + y)
  | .subtract, x, y => some (x - y)
  | .multiply, x, y => some (x * y)
  | .divide, x, y => if y = 0 then none else some (x / y)
  | .remainder, x, y => rem x y

@[simp]
theorem ofMark?_mark (op : ArithmeticOp) :
  ofMark? op.mark = some op
  := by
  cases op <;> rfl

theorem mark_of_ofMark? {op : ArithmeticOp} {c : Char} (h : ofMark? c = some op) :
  op.mark = c
  := by
  have hfound := List.find?_some h
  apply of_decide_eq_true hfound

end ArithmeticOp

/-- The power of ten that an exponent gives. -/
def exponentValue : List Char → ℤ
  | '-' :: digits => -Digits.value digits
  | '+' :: digits => Digits.value digits
  | digits => Digits.value digits

/-- The exact value of a number without a sign: digits, a fraction and a power of ten. -/
def numeralValue (cs : List Char) : ℚ :=
  let isExponent (c : Char) : Bool := c = 'e' || c = 'E'
  let decimal := cs.takeWhile (!isExponent ·)
  let power := exponentValue ((cs.dropWhile (!isExponent ·)).drop 1)
  let fraction := (decimal.dropWhile (· ≠ '.')).drop 1
  Digits.value (decimal.takeWhile (· ≠ '.') ++ fraction) * 10 ^ (power - fraction.length)

/-- A calculation with columns and numbers. -/
inductive Calculation where
  | column (name : String)
  /-- A number without a sign. -/
  | number (digits : String)
  | minus (operand : Calculation)
  | binary (op : ArithmeticOp) (left right : Calculation)
  deriving DecidableEq, Repr

/-- The value of a calculation for the given values of the columns, unless a divisor is zero. -/
def Calculation.value? (columns : String → ℚ) (rem : ℚ → ℚ → Option ℚ) : Calculation → Option ℚ
  | .column name => some (columns name)
  | .number digits => some (numeralValue digits.toList)
  | .minus operand => do return -(← operand.value? columns rem)
  | .binary op left right => do
    op.result? rem (← left.value? columns rem) (← right.value? columns rem)

variable {columns : String → ℚ} {rem : ℚ → ℚ → Option ℚ}

theorem Calculation.value?_minus (a : Calculation) :
  (minus a).value? columns rem = (a.value? columns rem).bind fun x => some (-x)
  := rfl

theorem Calculation.value?_binary (op : ArithmeticOp) (a b : Calculation) :
  (binary op a b).value? columns rem
    = (a.value? columns rem).bind fun x => (b.value? columns rem).bind (op.result? rem x)
  := rfl

/-! ### Tokens -/

namespace Calculation

/-- The units that a calculation is read by. -/
inductive Token where
  /-- A name as the store has it. -/
  | name (text : String)
  | number (digits : String)
  | mark (c : Char)
  /-- A reserved word, the start of a comment, or a number or quoted name that does not end. -/
  | broken
  deriving DecidableEq, Repr

/-- What was read of a word or number so far, reversed. -/
inductive Pending where
  | nothing
  | word (letters : List Char)
  | number (state : Json.NumberState) (digits : List Char)

namespace Pending

/-- One more character of the same word or number. -/
def push? : Pending → Char → Option Pending
  | .nothing, c =>
    if isNameStart c then some (.word [c])
    else if c.isDigit then (Json.NumberState.start.next? c).map (.number · [c])
    else none
  | .word letters, c => if isNameChar c then some (.word (c :: letters)) else none
  | .number state digits, c => (state.next? c).map (.number · (c :: digits))

/-- The token that ends here, if there is one. -/
def tokens : Pending → List Token
  | .nothing => []
  | .word letters =>
    let word := String.ofList letters.reverse
    if isReserved word then [.broken] else [.name (Text.lower word)]
  | .number state digits =>
    if state.isFinal then [.number (String.ofList digits.reverse)] else [.broken]

end Pending

/-- Where a text is being taken apart: outside or inside of a quoted name. -/
inductive Scanning where
  | outside (pending : Pending)
  | inside (letters : List Char)

namespace Token

/-- Whether two characters open a comment. -/
def opensComment (c : Char) (next : Option Char) : Bool :=
  c = '-' && next = some '-' || c = '/' && (next = some '/' || next = some '*')

/-- The tokens of the rest of a text. -/
def scan : Scanning → List Char → List Token
  | .outside pending, [] => pending.tokens
  | .outside pending, c :: cs =>
    match pending.push? c with
    | some pending => scan (.outside pending) cs
    | none =>
      pending.tokens ++
        (if Text.isBlank c then scan (.outside .nothing) cs
        else if c = '"' then scan (.inside []) cs
        else if opensComment c cs.head? then [.broken]
        else .mark c :: scan (.outside .nothing) cs)
  | .inside _, [] => [.broken]
  | .inside letters, '"' :: '"' :: cs => scan (.inside ('"' :: letters)) cs
  | .inside letters, '"' :: cs =>
    .name (String.ofList letters.reverse) :: scan (.outside .nothing) cs
  | .inside letters, c :: cs => scan (.inside (c :: letters)) cs

/-- The tokens of a text. -/
def all (cs : List Char) : List Token :=
  scan (.outside .nothing) cs

end Token

/-! ### The grammar -/

/-- The levels of precedence. -/
inductive Level where
  | factor
  | product
  | sum

/-- The tokens of a calculation with the usual precedence. -/
inductive Reads : Level → List Token → Calculation → Prop
  | column (name : String) : Reads .factor [.name name] (.column name)
  | number (digits : String) : Reads .factor [.number digits] (.number digits)
  | minus {ts : List Token} {a : Calculation} :
      Reads .factor ts a → Reads .factor (.mark '-' :: ts) (.minus a)
  | group {ts : List Token} {a : Calculation} :
      Reads .sum ts a → Reads .factor (.mark '(' :: (ts ++ [.mark ')'])) a
  | factor {ts : List Token} {a : Calculation} : Reads .factor ts a → Reads .product ts a
  | product {ts : List Token} {a : Calculation} : Reads .product ts a → Reads .sum ts a
  | tight {op : ArithmeticOp} {ts us : List Token} {a b : Calculation} :
      op.isTight = true → Reads .product ts a → Reads .factor us b →
      Reads .product (ts ++ .mark op.mark :: us) (.binary op a b)
  | loose {op : ArithmeticOp} {ts us : List Token} {a b : Calculation} :
      op.isTight = false → Reads .sum ts a → Reads .product us b →
      Reads .sum (ts ++ .mark op.mark :: us) (.binary op a b)

/-- A text is read as a calculation with the usual precedence. -/
def IsReadFrom (a : Calculation) (text : String) : Prop :=
  Reads .sum (Token.all text.toList) a

/-! ### The reader -/

/-- A calculation behind one that waits for it, if there is one. -/
def joined : Option (Calculation × ArithmeticOp) → Calculation → Calculation
  | none, a => a
  | some (left, op), a => .binary op left a

/-- A calculation behind signs. -/
def signed : Nat → Calculation → Calculation
  | 0, a => a
  | n + 1, a => signed n (.minus a)

/-- What was read up to the end of an operand: the sum before it, and the product it ends. -/
structure Reading where
  sum : Option (Calculation × ArithmeticOp)
  last : Calculation

/-- What waits for an operand: a sum for its last part, a product for its last factor, and signs. -/
structure Frame where
  sum : Option (Calculation × ArithmeticOp) := none
  product : Option (Calculation × ArithmeticOp) := none
  signs : Nat := 0

/-- All that was read up to the end of an operand. -/
def Reading.whole (r : Reading) : Calculation :=
  joined r.sum r.last

/-- What waits for an operand behind an operation. -/
def Reading.frame (r : Reading) (op : ArithmeticOp) : Frame :=
  if op.isTight then { sum := r.sum, product := some (r.last, op) }
  else { sum := some (r.whole, op) }

namespace Frame

/-- An operand is put where one is waited for. -/
def fill (f : Frame) (a : Calculation) : Reading where
  sum := f.sum
  last := joined f.product (signed f.signs a)

/-- One more sign. -/
def sign (f : Frame) : Frame :=
  { f with signs := f.signs + 1 }

end Frame

/-- Where the reader stands: before or behind an operand, with what waits outside of the
parentheses. -/
inductive Place where
  | before (frame : Frame) (outer : List Frame)
  | behind (reading : Reading) (outer : List Frame)

/-- Close the innermost parentheses. -/
def Reading.close? (r : Reading) : List Frame → Option Place
  | [] => none
  | f :: outer => some (.behind (f.fill r.whole) outer)

/-- Read one token. -/
def Place.next? : Place → Token → Option Place
  | .before f outer, .name name => some (.behind (f.fill (.column name)) outer)
  | .before f outer, .number digits => some (.behind (f.fill (.number digits)) outer)
  | .before f outer, .mark c =>
    if c = '-' then some (.before f.sign outer)
    else if c = '(' then some (.before {} (f :: outer))
    else none
  | .behind r outer, .mark c =>
    if c = ')' then r.close? outer
    else (ArithmeticOp.ofMark? c).map fun op => .before (r.frame op) outer
  | _, _ => none

/-- Read tokens one after another. -/
def Place.run? (p : Place) (ts : List Token) : Option Place :=
  ts.foldlM next? p

/-- The calculation that tokens give. -/
def read? (ts : List Token) : Option Calculation :=
  match Place.run? (.before {} []) ts with
  | some (.behind r []) => some r.whole
  | _ => none

/-- The calculation that a text gives. -/
def ofText? (text : String) : Option Calculation :=
  read? (Token.all text.toList)

namespace Place

@[simp]
theorem run?_cons (p : Place) (t : Token) (ts : List Token) :
  p.run? (t :: ts) = (p.next? t).bind (·.run? ts)
  := rfl

theorem run?_append (p : Place) (ts us : List Token) :
  p.run? (ts ++ us) = (p.run? ts).bind (·.run? us)
  := List.foldlM_append

@[simp]
theorem next?_operation (r : Reading) (outer : List Frame) (op : ArithmeticOp) :
  (behind r outer).next? (.mark op.mark) = some (before (r.frame op) outer)
  := by
  have hne : op.mark ≠ ')' := by cases op <;> decide
  rw [next?, if_neg hne, ArithmeticOp.ofMark?_mark, Option.map_some]

end Place

/-! ### What the grammar gives is read -/

/-- What the reader does with tokens of a level. -/
def Level.IsRead (ts : List Token) (a : Calculation) : Level → Prop
  | .factor => ∀ f outer, Place.run? (.before f outer) ts = some (.behind (f.fill a) outer)
  | .product => ∀ sum outer, Place.run? (.before { sum } outer) ts = some (.behind ⟨sum, a⟩ outer)
  | .sum => ∀ outer, ∃ r, r.whole = a ∧ Place.run? (.before {} outer) ts = some (.behind r outer)

theorem Reads.isRead {level : Level} {ts : List Token} {a : Calculation} (h : Reads level ts a) :
  level.IsRead ts a
  := by
  induction h with
  | column name =>
    intro f outer
    rfl
  | number digits =>
    intro f outer
    rfl
  | minus _ ih =>
    intro f outer
    apply ih f.sign outer
  | group _ ih =>
    intro f outer
    obtain ⟨r, rfl, hr⟩ := ih (f :: outer)
    change Place.run? (.before {} (f :: outer)) (_ ++ [_]) = _
    rw [Place.run?_append, hr]
    rfl
  | factor _ ih =>
    intro sum outer
    apply ih
  | @product ts a _ ih =>
    intro outer
    use ⟨none, a⟩, rfl
    apply ih
  | tight hop _ _ ihleft ihright =>
    intro sum outer
    rw [Place.run?_append, ihleft, Option.bind_some, Place.run?_cons, Place.next?_operation,
      Option.bind_some, ihright, Reading.frame, if_pos hop]
    rfl
  | @loose op ts us a b hop _ _ ihleft ihright =>
    intro outer
    obtain ⟨r, rfl, hr⟩ := ihleft outer
    use ⟨some (r.whole, op), b⟩, rfl
    rw [Place.run?_append, hr, Option.bind_some, Place.run?_cons, Place.next?_operation,
      Option.bind_some, Reading.frame, if_neg (Bool.eq_false_iff.mp hop), ihright]

/-! ### What is read is what the grammar gives -/

/-- The tokens of a calculation of a level that waits for its last part. -/
def Waits (level : Level) (tight : Bool) : Option (Calculation × ArithmeticOp) → List Token → Prop
  | none, ts => ts = []
  | some (a, op), ts => op.isTight = tight ∧ ∃ us, Reads level us a ∧ ts = us ++ [.mark op.mark]

/-- The tokens of what waits for an operand. -/
def Frame.Covers (f : Frame) (ts : List Token) : Prop :=
  ∃ us vs, Waits .sum false f.sum us ∧ Waits .product true f.product vs
    ∧ ts = us ++ (vs ++ List.replicate f.signs (.mark '-'))

/-- The tokens of what was read up to the end of an operand. -/
def Reading.Covers (r : Reading) (ts : List Token) : Prop :=
  ∃ us vs, Waits .sum false r.sum us ∧ Reads .product vs r.last ∧ ts = us ++ vs

/-- The tokens of what waits outside of parentheses. -/
def CoversOuter : List Frame → List Token → Prop
  | [], ts => ts = []
  | f :: outer, ts => ∃ us vs, CoversOuter outer us ∧ f.Covers vs ∧ ts = us ++ (vs ++ [.mark '('])

/-- The tokens up to a place. -/
def Place.Covers : Place → List Token → Prop
  | .before f outer, ts => ∃ us vs, CoversOuter outer us ∧ f.Covers vs ∧ ts = us ++ vs
  | .behind r outer, ts => ∃ us vs, CoversOuter outer us ∧ r.Covers vs ∧ ts = us ++ vs

variable {ts us : List Token} {a : Calculation}

theorem reads_signed (h : Reads .factor ts a) (n : Nat) :
  Reads .factor (List.replicate n (.mark '-') ++ ts) (signed n a)
  := by
  induction n generalizing ts a with
  | zero => apply h
  | succ n ih =>
    rw [List.replicate_succ', List.append_assoc]
    apply ih h.minus

theorem Waits.reads_product {p : Option (Calculation × ArithmeticOp)}
    (hp : Waits .product true p ts) (h : Reads .factor us a) :
  Reads .product (ts ++ us) (joined p a)
  := by
  cases p with
  | none =>
    rw [hp]
    apply h.factor
  | some p =>
    obtain ⟨htight, vs, hleft, rfl⟩ := hp
    rw [List.append_assoc]
    apply Reads.tight htight hleft h

theorem Waits.reads_sum {p : Option (Calculation × ArithmeticOp)} (hp : Waits .sum false p ts)
    (h : Reads .product us a) :
  Reads .sum (ts ++ us) (joined p a)
  := by
  cases p with
  | none =>
    rw [hp]
    apply h.product
  | some p =>
    obtain ⟨hloose, vs, hleft, rfl⟩ := hp
    rw [List.append_assoc]
    apply Reads.loose hloose hleft h

theorem Frame.Covers.fill {f : Frame} (hf : f.Covers ts) (h : Reads .factor us a) :
  (f.fill a).Covers (ts ++ us)
  := by
  obtain ⟨ss, ps, hsum, hproduct, rfl⟩ := hf
  refine ⟨ss, _, hsum, hproduct.reads_product (reads_signed h f.signs), ?_⟩
  simp

theorem Frame.Covers.sign {f : Frame} (hf : f.Covers ts) :
  f.sign.Covers (ts ++ [.mark '-'])
  := by
  obtain ⟨ss, ps, hsum, hproduct, rfl⟩ := hf
  use ss, ps, hsum, hproduct
  simp [Frame.sign, List.replicate_succ']

theorem Reading.Covers.whole {r : Reading} (hr : r.Covers ts) :
  Reads .sum ts r.whole
  := by
  obtain ⟨ss, ps, hsum, hlast, rfl⟩ := hr
  apply hsum.reads_sum hlast

theorem Reading.Covers.frame {r : Reading} (hr : r.Covers ts) (op : ArithmeticOp) :
  (r.frame op).Covers (ts ++ [.mark op.mark])
  := by
  cases htight : op.isTight with
  | true =>
    obtain ⟨ss, ps, hsum, hlast, rfl⟩ := hr
    rw [Reading.frame, if_pos htight]
    refine ⟨ss, _, hsum, ⟨htight, ps, hlast, rfl⟩, ?_⟩
    simp
  | false =>
    rw [Reading.frame, if_neg (Bool.eq_false_iff.mp htight)]
    refine ⟨_, [], ⟨htight, ts, hr.whole, rfl⟩, rfl, ?_⟩
    simp

theorem Place.covers_next? {p q : Place} {t : Token} (hp : p.Covers ts) (h : p.next? t = some q) :
  q.Covers (ts ++ [t])
  := by
  cases p with
  | before f outer =>
    obtain ⟨os, fs, houter, hf, rfl⟩ := hp
    rw [List.append_assoc]
    cases t with
    | name name =>
      cases h
      exact ⟨os, _, houter, hf.fill (.column name), rfl⟩
    | number digits =>
      cases h
      exact ⟨os, _, houter, hf.fill (.number digits), rfl⟩
    | mark c =>
      rw [next?] at h
      split_ifs at h with hminus hopen
      · cases h
        subst hminus
        exact ⟨os, _, houter, hf.sign, rfl⟩
      · cases h
        subst hopen
        refine ⟨_, [], ⟨os, fs, houter, hf, rfl⟩, ⟨[], [], rfl, rfl, rfl⟩, ?_⟩
        rw [List.append_nil]
    | broken => cases h
  | behind r outer =>
    obtain ⟨os, rs, houter, hr, rfl⟩ := hp
    rw [List.append_assoc]
    cases t with
    | mark c =>
      rw [next?] at h
      split_ifs at h with hclose
      -- What was read inside the parentheses is an operand of the innermost frame outside.
      · cases outer with
        | nil => cases h
        | cons f outer =>
          cases h
          subst hclose
          obtain ⟨os, fs, houter, hf, rfl⟩ := houter
          refine ⟨os, _, houter, hf.fill hr.whole.group, ?_⟩
          simp
      · obtain ⟨op, hop, rfl⟩ := Option.map_eq_some_iff.mp h
        rw [← ArithmeticOp.mark_of_ofMark? hop]
        exact ⟨os, _, houter, hr.frame op, rfl⟩
    | _ => cases h

theorem Place.covers_run? {p q : Place} (hp : p.Covers us) (h : p.run? ts = some q) :
  q.Covers (us ++ ts)
  := by
  induction ts generalizing p us with
  | nil =>
    cases h
    rwa [List.append_nil]
  | cons t ts ih =>
    obtain ⟨p', hp', h⟩ := Option.bind_eq_some_iff.mp h
    rw [List.append_cons]
    apply ih (covers_next? hp hp') h

/-- The reader accepts the sums of the grammar, and reads what the grammar gives. -/
theorem read?_eq_some_iff :
  read? ts = some a ↔ Reads .sum ts a
  := by
  constructor
  · intro h
    unfold read? at h
    split at h
    next r hrun =>
      cases h
      have hstart : (Place.before {} []).Covers [] := ⟨[], [], rfl, ⟨[], [], rfl, rfl, rfl⟩, rfl⟩
      obtain ⟨-, rs, rfl, hr, hts⟩ := Place.covers_run? hstart hrun
      rw [List.nil_append, List.nil_append] at hts
      rw [hts]
      apply hr.whole
    next => cases h
  · intro h
    obtain ⟨r, rfl, hr⟩ := h.isRead []
    rw [read?, hr]

theorem isReadFrom_iff {text : String} :
  a.IsReadFrom text ↔ ofText? text = some a
  := read?_eq_some_iff.symm

end Calculation

end CqlGateway.Cql

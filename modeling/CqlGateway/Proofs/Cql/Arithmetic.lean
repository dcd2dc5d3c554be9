import CqlGateway.Proofs.Catalog.Definition
import CqlGateway.Proofs.Cql.Grouping
import CqlGateway.Proofs.Cql.Precedence

/-!
# Arithmetic in rendered expressions

Expressions of columns, numbers, arithmetic operators and signs are calculations. Main statement:
each of them is rendered, and its text is read in one way with the usual precedence. The value is
kept if each operand can do without parentheses; a sum as a factor is not such an operand.
-/

namespace CqlGateway

variable {cs : List Char} {text : String}

/-! ### Characters of numbers -/

namespace Json

theorem isNumber_iff :
  isNumber cs = true
    ↔ ∃ final, cs.foldlM NumberState.next? .start = some final ∧ final.isFinal = true
  := by
  rw [isNumber]
  cases cs.foldlM NumberState.next? .start <;> simp

theorem isDigit_of_start {c : Char} {state : NumberState}
    (h : NumberState.start.next? c = some state) (hsign : some c ≠ some '-') :
  c.isDigit = true
  := by
  rw [NumberState.next?] at h
  split_ifs at h with hminus hzero hdigit
  · cases hsign (congrArg some hminus)
  · rw [hzero]
    rfl
  · apply hdigit

theorem isNumber_of_cons_minus {digits : List Char} (h : isNumber ('-' :: digits) = true) :
  isNumber digits = true ∧ digits.head? ≠ some '-'
  := by
  obtain ⟨final, hfold, hfinal⟩ := isNumber_iff.mp h
  change digits.foldlM NumberState.next? .minus = some final at hfold
  cases digits with
  | nil => cases h
  | cons c cs =>
    rw [List.foldlM_cons, Option.bind_eq_bind, Option.bind_eq_some_iff] at hfold
    obtain ⟨next, hnext, hfold⟩ := hfold
    have hc : c ≠ '-' := by
      rintro rfl
      cases hnext
    have hstart : NumberState.start.next? c = some next := by
      rw [← hnext, NumberState.next?, if_neg hc]
      rfl
    constructor
    · rw [isNumber_iff, List.foldlM_cons, hstart]
      use final, hfold, hfinal
    · rw [List.head?_cons]
      rintro ⟨⟩
      cases hc rfl

end Json

theorem Cql.isNameStart_of_isDigit {c : Char} (h : c.isDigit = true) :
  isNameStart c = false
  := by
  have hle : c.toNat ≤ 57 := by
    simp only [Char.isDigit, Bool.and_eq_true, decide_eq_true_eq] at h
    apply UInt32.le_iff_toNat_le.mp h.2
  rw [← Bool.not_eq_true]
  intro hname
  change (decide ('A'.val ≤ c.val ∧ c.val ≤ 'Z'.val)
    || (decide ('a'.val ≤ c.val) && decide (c.val ≤ 'z'.val)) || decide (c = '_')) = true at hname
  simp only [Bool.or_eq_true, Bool.and_eq_true, decide_eq_true_eq, UInt32.le_iff_toNat_le] at hname
  rcases hname with (hcapital | hsmall) | rfl
  · have hge : 65 ≤ c.toNat := hcapital.1
    omega
  · have hge : 97 ≤ c.toNat := hsmall.1
    omega
  · cases h

namespace Cql.Calculation

namespace Token

variable {ts : List Token}

/-! ### Tokens of a part -/

attribute [local simp] scan all

/-- Whether a text cannot extend a name or number that stands before it. -/
def breaks (cs : List Char) : Bool :=
  cs.head?.all fun c => c = ' ' || c = ')'

/-- Whether a text falls into the given tokens in front of any rest that breaks off. -/
def LexesTo (cs : List Char) (ts : List Token) : Prop :=
  ∀ rest, breaks rest = true → all (cs ++ rest) = ts ++ all rest

theorem LexesTo.all_eq (h : LexesTo cs ts) :
  all cs = ts
  := by
  have hall := h [] rfl
  rwa [List.append_nil, show all [] = [] from rfl, List.append_nil] at hall

/-- A name or number ends where the text breaks off. -/
theorem scan_outside_of_breaks (pending : Pending) {rest : List Char} (hrest : breaks rest = true) :
  scan (.outside pending) rest = pending.tokens ++ all rest
  := by
  cases rest with
  | nil => rw [scan, show all [] = [] from rfl, List.append_nil]
  | cons c cs =>
    have hc : c = ' ' ∨ c = ')' := by simpa [breaks] using hrest
    have hpush : pending.push? c = none ∧ Pending.nothing.push? c = none := by
      rcases hc with rfl | rfl
      · cases pending with
        | number state digits => cases state <;> exact ⟨rfl, rfl⟩
        | _ => exact ⟨rfl, rfl⟩
      · cases pending with
        | number state digits => cases state <;> exact ⟨rfl, rfl⟩
        | _ => exact ⟨rfl, rfl⟩
    rw [all, scan, scan, hpush.1, hpush.2]
    rfl

theorem scan_word (hcs : cs.all isNameChar = true) (letters rest : List Char) :
  scan (.outside (.word letters)) (cs ++ rest)
    = scan (.outside (.word (cs.reverse ++ letters))) rest
  := by
  induction cs generalizing letters with
  | nil => rfl
  | cons c cs ih =>
    rw [List.all_cons, Bool.and_eq_true] at hcs
    rw [List.cons_append, scan, Pending.push?, if_pos hcs.1]
    simp only [ih hcs.2, List.reverse_cons, List.append_assoc, List.cons_append, List.nil_append]

theorem scan_number {state final : Json.NumberState}
    (hcs : cs.foldlM Json.NumberState.next? state = some final) (digits rest : List Char) :
  scan (.outside (.number state digits)) (cs ++ rest)
    = scan (.outside (.number final (cs.reverse ++ digits))) rest
  := by
  induction cs generalizing state digits with
  | nil =>
    cases hcs
    rfl
  | cons c cs ih =>
    obtain ⟨next, hnext, hcs⟩ := Option.bind_eq_some_iff.mp hcs
    rw [List.cons_append, scan, Pending.push?, hnext, Option.map_some]
    simp only [ih hcs, List.reverse_cons, List.append_assoc, List.cons_append, List.nil_append]

theorem scan_doubled (cs letters rest : List Char) :
  scan (.inside letters) (doubled '"' cs ++ rest) = scan (.inside (cs.reverse ++ letters)) rest
  := by
  induction cs generalizing letters with
  | nil => rfl
  | cons c cs ih =>
    rw [doubled, List.flatMap_cons, ← doubled, List.append_assoc, List.reverse_cons,
      List.append_assoc, List.cons_append, List.nil_append, ← ih]
    by_cases hc : c = '"'
    · subst hc
      rfl
    · simp [hc]

theorem scan_inside_of_breaks {rest : List Char} (letters : List Char)
    (hrest : breaks rest = true) :
  scan (.inside letters) ('"' :: rest) = .name (String.ofList letters.reverse) :: all rest
  := by
  cases rest with
  | nil => rfl
  | cons c cs =>
    have hc : c ≠ '"' := by
      rintro rfl
      cases hrest
    simp [hc]

theorem lexesTo_quoteIdentifier (name : String) :
  LexesTo (quoteIdentifier name).toList [.name (storedName name)]
  := by
  intro rest hrest
  unfold quoteIdentifier quoteBare storedName
  split
  next hbare =>
    rw [isBare, Bool.and_eq_true, Bool.not_eq_true'] at hbare
    obtain ⟨hplain, hreserved⟩ := hbare
    cases hname : (unquote name).toList with
    | nil =>
      rw [hname] at hplain
      cases hplain
    | cons c cs =>
      rw [hname, isPlain, Bool.and_eq_true] at hplain
      rw [List.cons_append, all, scan, Pending.push?, if_pos hplain.1]
      change scan (.outside (.word [c])) (cs ++ rest) = _
      rw [scan_word hplain.2, scan_outside_of_breaks _ hrest, Pending.tokens,
        List.reverse_append, List.reverse_reverse, List.reverse_singleton,
        List.singleton_append, ← hname, String.ofList_toList, hreserved]
      rfl
  next =>
    rw [String.toList_ofList, List.cons_append, List.cons_append, List.append_assoc, all,
      show ∀ ds, scan (.outside .nothing) ('"' :: ds) = scan (.inside []) ds from fun _ => rfl,
      scan_doubled, List.append_nil, List.cons_append, List.nil_append,
      scan_inside_of_breaks _ hrest, List.reverse_reverse, String.ofList_toList]
    rfl

theorem lexesTo_number (hcs : Json.isNumber cs = true) (hsign : cs.head? ≠ some '-') :
  LexesTo cs [.number (String.ofList cs)]
  := by
  intro rest hrest
  obtain ⟨final, hfold, hfinal⟩ := Json.isNumber_iff.mp hcs
  cases cs with
  | nil =>
    cases hfold
    cases hfinal
  | cons c cs =>
    obtain ⟨state, hstate, hfold⟩ := Option.bind_eq_some_iff.mp hfold
    have hdigit : c.isDigit = true := Json.isDigit_of_start hstate hsign
    rw [List.cons_append, all, scan, Pending.push?, isNameStart_of_isDigit hdigit, hdigit, hstate]
    change scan (.outside (.number state [c])) (cs ++ rest) = _
    rw [scan_number hfold, scan_outside_of_breaks _ hrest, Pending.tokens, if_pos hfinal,
      List.reverse_append, List.reverse_reverse]
    rfl

theorem LexesTo.minus (h : LexesTo cs ts) (hsign : cs.head? ≠ some '-') :
  LexesTo ('-' :: cs) (.mark '-' :: ts)
  := by
  intro rest hrest
  have hnext : (cs ++ rest).head? ≠ some '-' := by
    cases cs with
    | nil =>
      intro hhead
      rw [List.nil_append] at hhead
      rw [breaks, hhead] at hrest
      cases hrest
    | cons c cs => apply hsign
  -- Two signs in a row would open a comment.
  have hcomment : opensComment '-' (cs ++ rest).head? = false := by
    rw [opensComment, decide_eq_false hnext]
    rfl
  rw [List.cons_append, List.cons_append, ← h rest hrest]
  change (if opensComment '-' (cs ++ rest).head? then [Token.broken] else _) = _
  rw [hcomment]
  rfl

theorem LexesTo.group (h : LexesTo cs ts) :
  LexesTo ('(' :: (cs ++ [')'])) (.mark '(' :: (ts ++ [.mark ')']))
  := by
  intro rest _
  simp only [List.cons_append, List.append_assoc, List.nil_append]
  change Token.mark '(' :: all (cs ++ ')' :: rest) = _
  rw [h (')' :: rest) rfl]
  rfl

theorem LexesTo.binary {ds : List Char} {us : List Token} (h : LexesTo cs ts) (op : ArithmeticOp)
    (h' : LexesTo ds us) :
  LexesTo (cs ++ ' ' :: op.mark :: ' ' :: ds) (ts ++ .mark op.mark :: us)
  := by
  intro rest hrest
  rw [List.append_assoc, h _ rfl, List.append_assoc, List.cons_append, List.cons_append,
    List.cons_append, List.cons_append, ← h' rest hrest]
  cases op <;> rfl

end Token

/-! ### Texts of calculations -/

/-- A text has the tokens of a calculation, and starts with a minus if the calculation does. -/
structure Renders (a : Calculation) (text : String) : Prop where
  tokens : Token.LexesTo text.toList a.spelling
  head : ∃ c cs, text.toList = c :: cs ∧ c ≠ '+' ∧ (c = '-' ↔ a.isSigned = true)

theorem Renders.startsWithSign {a : Calculation} (h : a.Renders text) :
  Expr.startsWithSign text = a.isSigned
  := by
  obtain ⟨c, cs, htext, hplus, hminus⟩ := h.head
  rw [Expr.startsWithSign, htext, Bool.eq_iff_iff, ← hminus]
  simp [hplus]

theorem Renders.head?_ne {a : Calculation} (h : a.Renders text) (hsigned : a.isSigned = false) :
  text.toList.head? ≠ some '-'
  := by
  obtain ⟨c, cs, htext, -, hminus⟩ := h.head
  rw [hsigned] at hminus
  rw [htext, List.head?_cons]
  rintro ⟨⟩
  cases hminus.mp rfl

theorem renders_column (name : String) :
  (column (storedName name)).Renders (quoteIdentifier name)
  := by
  use Token.lexesTo_quoteIdentifier name
  rw [quoteIdentifier, quoteBare]
  split
  next hbare =>
    rw [isBare, Bool.and_eq_true] at hbare
    cases hname : (unquote name).toList with
    | nil =>
      rw [hname] at hbare
      cases hbare.1
    | cons c cs =>
      rw [hname, isPlain, Bool.and_eq_true] at hbare
      use c, cs, rfl
      constructor
      · rintro rfl
        cases hbare.1.1
      · apply iff_of_false
        · rintro rfl
          cases hbare.1.1
        · apply Bool.false_ne_true
  next =>
    use '"', doubled '"' (unquote name).toList ++ ['"']
    simp [isSigned]

/-- The calculation that a number stands for. -/
def ofNumber? (text : String) : Option Calculation :=
  if Json.isNumber text.toList then
    match text.toList with
    | '-' :: digits => some (.minus (.number (String.ofList digits)))
    | digits => some (.number (String.ofList digits))
  else
    none

theorem renders_number {digits : String} (h : Json.isNumber digits.toList = true)
    (hsign : digits.toList.head? ≠ some '-') :
  (number digits).Renders digits
  := by
  constructor
  · have hlexes := Token.lexesTo_number h hsign
    rwa [String.ofList_toList] at hlexes
  · obtain ⟨final, hfold, hfinal⟩ := Json.isNumber_iff.mp h
    cases hdigits : digits.toList with
    | nil =>
      rw [hdigits] at hfold
      cases hfold
      cases hfinal
    | cons c cs =>
      rw [hdigits, List.foldlM_cons, Option.bind_eq_bind, Option.bind_eq_some_iff] at hfold
      obtain ⟨state, hstate, -⟩ := hfold
      rw [hdigits, List.head?_cons] at hsign
      use c, cs, rfl
      constructor
      · rintro rfl
        cases hstate
      · apply iff_of_false
        · rintro rfl
          cases hsign rfl
        · apply Bool.false_ne_true

theorem renders_of_ofNumber? {a : Calculation} (h : ofNumber? text = some a) :
  a.Renders text
  := by
  unfold ofNumber? at h
  split_ifs at h with hnumber
  split at h
  next digits htext =>
    cases h
    rw [htext] at hnumber
    obtain ⟨hdigits, hsign⟩ := Json.isNumber_of_cons_minus hnumber
    constructor
    · rw [htext]
      apply (Token.lexesTo_number hdigits hsign).minus hsign
    · use '-', digits, htext
      simp [isSigned]
  next hsign =>
    cases h
    rw [String.ofList_toList]
    apply renders_number hnumber
    intro hhead
    obtain ⟨digits, hdigits⟩ := List.head?_eq_some_iff.mp hhead
    apply hsign digits hdigits

theorem Renders.minus {a : Calculation} (h : a.Renders text) :
  Renders (.minus a) (Expr.signCql "-" text)
  := by
  rw [Expr.signCql, h.startsWithSign]
  constructor
  · cases hsigned : a.isSigned with
    | true =>
      rw [spelling, if_pos hsigned, if_pos rfl]
      simp only [String.toList_append, List.append_assoc]
      apply h.tokens.group.minus
      simp
    | false =>
      rw [spelling, if_neg (Bool.eq_false_iff.mp hsigned), if_neg Bool.false_ne_true,
        String.toList_append]
      apply h.tokens.minus (h.head?_ne hsigned)
  · use '-', (if a.isSigned then "(" ++ text ++ ")" else text).toList
    constructor
    · cases a.isSigned <;> simp
    · simp [isSigned]

theorem Renders.binary {a b : Calculation} {l r : String} (hl : a.Renders l) (op : ArithmeticOp)
    (hr : b.Renders r) :
  Renders (.binary op a b) (l ++ " " ++ String.singleton op.mark ++ " " ++ r)
  := by
  constructor
  · simp only [String.toList_append, List.append_assoc, String.toList_singleton]
    apply hl.tokens.binary op hr.tokens
  · obtain ⟨c, cs, htext, hhead⟩ := hl.head
    simp only [String.toList_append, List.append_assoc, htext, List.cons_append]
    use c, cs ++ (" ".toList ++ ((String.singleton op.mark).toList ++ (" ".toList ++ r.toList)))
    use rfl
    apply hhead

end Cql.Calculation

/-! ### Expressions -/

/-- The operation of an operator. -/
def Cql.ArithmeticOp.ofText? (operator : String) : Option ArithmeticOp :=
  match Operator.normalize operator with
  | "+" => some .add
  | "-" => some .subtract
  | "*" => some .multiply
  | "/" => some .divide
  | "%" => some .remainder
  | _ => none

namespace Expr

open Cql (Calculation ArithmeticOp)

/-- The calculation that an expression of columns, numbers, arithmetic operators and signs is. -/
def calculation? : Expr → Option Calculation
  | .missing => none
  | .of ⟨kind, operator, left, right, operand, _, column, value, _, _, _, _, _⟩ =>
    match kind with
    | .column =>
      if column = "" || column = "*" then none else some (.column (Cql.storedName column))
    | .number => Calculation.ofNumber? value.display
    | .binary => do
      return .binary (← ArithmeticOp.ofText? operator) (← left.calculation?) (← right.calculation?)
    | .unary =>
      if Cql.Operator.normalize operator = "-" then do return .minus (← operand.calculation?)
      else none
    | _ => none

theorem calculation?_of (t : Term) :
  (Expr.of t).calculation?
    = match t.kind with
      | .column =>
        if t.column = "" || t.column = "*" then none else some (.column (Cql.storedName t.column))
      | .number => Calculation.ofNumber? t.value.display
      | .binary => do
        return .binary (← ArithmeticOp.ofText? t.operator) (← t.left.calculation?)
          (← t.right.calculation?)
      | .unary =>
        if Cql.Operator.normalize t.operator = "-" then do
          return .minus (← t.operand.calculation?)
        else none
      | _ => none
  := by
  cases t
  rw [calculation?.eq_def]

end Expr

namespace Cql.ArithmeticOp

/-- The operator of an operation. -/
def operator (op : ArithmeticOp) : String :=
  String.singleton op.mark

theorem normalize_of_ofText? {op : ArithmeticOp} (h : ofText? text = some op) :
  Operator.normalize text = op.operator
  := by
  unfold ofText? at h
  split at h <;> cases h <;> assumption

theorem ofText_operator (op : ArithmeticOp) :
  Operator.ofText op.operator = .ok ⟨op.operator, none⟩
  := by
  cases op <;> decide

theorem operator_ne (htext : text ∈ ["BETWEEN", "IN", "AND", "OR"]) (op : ArithmeticOp) :
  op.operator ≠ text
  := by
  revert text
  cases op <;> decide

end Cql.ArithmeticOp

namespace Expr

open Cql (Calculation ArithmeticOp)

variable {e : Expr} {a : Calculation}

theorem isPresent_of_calculation? (h : e.calculation? = some a) :
  e.isPresent = true
  := by
  cases e with
  | missing => cases h
  | of t => rfl

theorem operandCql_of_calculation? (h : e.calculation? = some a) (parent text : String) :
  operandCql e parent text = text
  := by
  have hlogical : e.isLogical = false := by
    cases e with
    | missing => cases h
    | of t =>
      by_cases hkind : t.kind = .binary
      · rw [calculation?_of, hkind] at h
        obtain ⟨op, hop, -⟩ := Option.bind_eq_some_iff.mp h
        have hne (keyword : String) (hkeyword : keyword ∈ Cql.logicalWords) :
            Text.upper t.operator ≠ keyword := by
          intro hupper
          have hnormal := normalize_of_logical hkeyword hupper
          rw [ArithmeticOp.normalize_of_ofText? hop] at hnormal
          apply ArithmeticOp.operator_ne _ op hnormal
          apply List.mem_cons_of_mem _ (List.mem_cons_of_mem _ hkeyword)
        simp [isLogical, hne "AND" (by decide), hne "OR" (by decide)]
      · simp [isLogical, hkind]
  rw [operandCql, hlogical]
  rfl

theorem yields_binaryCql_of_operation {operator l r : String} {op : ArithmeticOp}
    {left right : Expr} {b : Calculation} {leftDraft rightDraft : Draft String}
    {bounds : Option (Draft (String × String))}
    (hop : ArithmeticOp.ofText? operator = some op) (hleft : left.calculation? = some a)
    (hright : right.calculation? = some b) (hl : leftDraft.Yields l) (hr : rightDraft.Yields r) :
  (binaryCql operator left right leftDraft rightDraft bounds).Yields
    (l ++ " " ++ op.operator ++ " " ++ r)
  := by
  rw [yields_binaryCql (ArithmeticOp.normalize_of_ofText? hop),
    if_neg (ArithmeticOp.operator_ne (by simp) op)]
  use isPresent_of_calculation? hleft, isPresent_of_calculation? hright
  use ⟨op.operator, none⟩, l, r, op.ofText_operator, hl, hr
  rw [operandCql_of_calculation? hleft, operandCql_of_calculation? hright]
  simp [ArithmeticOp.operator_ne]

theorem exists_renders (h : e.calculation? = some a) :
  ∃ text, e.cql.Yields text ∧ a.Renders text
  := by
  induction e using Expr.induction_on generalizing a with
  | missing => cases h
  | of t hleft hright _ hoperand _ _ =>
    rw [calculation?_of] at h
    rw [cql_of]
    -- Of the kinds of terms only four are calculations.
    cases hkind : t.kind with
    | column =>
      simp only [hkind] at h
      split_ifs at h with hnone
      cases h
      use Cql.quoteIdentifier t.column
      constructor
      · simp only [Bool.or_eq_true, decide_eq_true_eq, not_or] at hnone
        simp [columnCql, hnone]
      · apply Calculation.renders_column
    | number =>
      simp only [hkind] at h
      use t.value.display
      constructor
      · simp
      · apply Calculation.renders_of_ofNumber? h
    | binary =>
      simp only [hkind] at h
      obtain ⟨op, hop, h⟩ := Option.bind_eq_some_iff.mp h
      obtain ⟨b, hb, h⟩ := Option.bind_eq_some_iff.mp h
      obtain ⟨c, hc, h⟩ := Option.bind_eq_some_iff.mp h
      cases h
      obtain ⟨l, hl, hleft⟩ := hleft hb
      obtain ⟨r, hr, hright⟩ := hright hc
      use l ++ " " ++ op.operator ++ " " ++ r
      constructor
      · apply yields_binaryCql_of_operation hop hb hc hl hr
      · apply hleft.binary op hright
    | unary =>
      simp only [hkind] at h
      split_ifs at h with hminus
      obtain ⟨b, hb, h⟩ := Option.bind_eq_some_iff.mp h
      cases h
      obtain ⟨text, htext, hrenders⟩ := hoperand hb
      use signCql "-" text
      constructor
      · simp only [unaryCql, hminus, Draft.yields_bind, Draft.yields_pure]
        use text, htext
      · apply hrenders.minus
    | _ =>
      simp only [hkind] at h
      cases h

/-- An arithmetic expression is rendered, and its text is read as one calculation. It has the value
of the expression for all values of the columns if each operand can do without parentheses. -/
theorem value_of_cql (h : e.calculation? = some a) :
  ∃ text b, e.cql.Yields text ∧ (∀ c : Calculation, c.IsReadFrom text ↔ c = b)
    ∧ (a.keepsGrouping = true → ∀ columns rem, b.value? columns rem = a.value? columns rem)
  := by
  obtain ⟨text, hyields, hrenders⟩ := exists_renders h
  have hread : Calculation.ofText? text = some a.regrouped := by
    rw [Calculation.ofText?, hrenders.tokens.all_eq, Calculation.read?_spelling]
  use text, a.regrouped, hyields
  constructor
  · intro c
    rw [Calculation.isReadFrom_iff, hread, Option.some.injEq, eq_comm]
  · apply Calculation.agrees_regrouped

/-- A sign before a product that is divided: `price - (-(rate * -2.5e1)) / "a day"`. -/
def dailyPrice : Expr :=
  .binary "-" (.column "price")
    (.binary "/" (.unary "-" (.binary "*" (.column "rate") (.number "-2.5e1"))) (.column "a day"))

theorem value_of_dailyPrice :
  ∃ a, dailyPrice.calculation? = some a ∧ a.keepsGrouping = true
    ∧ ∃ text b, dailyPrice.cql.Yields text ∧ (∀ c : Calculation, c.IsReadFrom text ↔ c = b)
      ∧ ∀ columns rem, b.value? columns rem = a.value? columns rem
  := by
  have hkeeps : (dailyPrice.calculation?.any Calculation.keepsGrouping) = true := by
    decide
  cases h : dailyPrice.calculation? with
  | none =>
    rw [h] at hkeeps
    cases hkeeps
  | some a =>
    rw [h] at hkeeps
    obtain ⟨text, b, hyields, hread, hvalue⟩ := value_of_cql h
    exact ⟨a, rfl, hkeeps, text, b, hyields, hread, hvalue hkeeps⟩

/-- A sum as a factor: `(a + b) * c`. -/
def scaledSum : Expr :=
  .binary "*" (.binary "+" (.column "a") (.column "b")) (.column "c")

/-- The product is read before the sum: for 1, 1 and 2 it is 3, and not 4. -/
theorem value_of_scaledSum :
  scaledSum.cql = .ok ("a + b * c", [])
    ∧ ∃ a b : Calculation, scaledSum.calculation? = some a ∧ b.IsReadFrom "a + b * c"
      ∧ a.value? (fun name => if name = "c" then 2 else 1) (fun _ _ => none) = some 4
      ∧ b.value? (fun name => if name = "c" then 2 else 1) (fun _ _ => none) = some 3
  := by
  constructor
  · rfl
  · use .binary .multiply (.binary .add (.column "a") (.column "b")) (.column "c")
    use .binary .add (.column "a") (.binary .multiply (.column "b") (.column "c"))
    rw [Calculation.isReadFrom_iff]
    decide +kernel

end Expr

end CqlGateway

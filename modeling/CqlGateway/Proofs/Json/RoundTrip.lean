import CqlGateway.Json.Reader
import CqlGateway.Json.Writer
import Mathlib.Data.List.Basic

/-!
# Reading what was written

A document whose numbers are numbers is written as a text that reads back as the document, unless
it is nested too deep. The text is read in two steps: the scanner finds the tokens of the document,
and the reader puts the document together from them.
-/

namespace CqlGateway.Json

open Scan (finish? step?)

variable {c : Char} {frames : List Frame} {cs rest : List Char} {t : Token} {b : Build}
  {mode : List Char → Mode} {j : Json}

/-- A document whose numbers are spelled as numbers. -/
inductive IsSpelled : Json → Prop
  | null : IsSpelled .null
  | bool (b : Bool) : IsSpelled (.bool b)
  | number {literal : String} (h : isNumber literal.toList = true) : IsSpelled (.number literal)
  | text (s : String) : IsSpelled (.text s)
  | array {items : List Json} (h : ∀ v ∈ items, IsSpelled v) : IsSpelled (.array items)
  | object {members : List (String × Json)} (h : ∀ m ∈ members, IsSpelled m.2) :
      IsSpelled (.object members)

/-! ### Tokens of a document -/

mutual

/-- The tokens that a document is written with. -/
def tokens : Json → List Token
  | .null => [.null]
  | .bool b => [.bool b]
  | .number literal => [.number literal]
  | .text s => [.text s]
  | .array [] => [.openBracket, .closeBracket]
  | .array (v :: vs) => .openBracket :: (v.tokens ++ (itemTokens vs ++ [.closeBracket]))
  | .object [] => [.openBrace, .closeBrace]
  | .object ((name, v) :: ms) =>
    .openBrace :: .text name :: .colon :: (v.tokens ++ (memberTokens ms ++ [.closeBrace]))

/-- The tokens of further items. -/
def itemTokens : List Json → List Token
  | [] => []
  | v :: vs => .comma :: (v.tokens ++ itemTokens vs)

/-- The tokens of further members. -/
def memberTokens : List (String × Json) → List Token
  | [] => []
  | (name, v) :: ms => .comma :: .text name :: .colon :: (v.tokens ++ memberTokens ms)

end

/-! ### Scanning -/

/-- The tokens of a text, behind the given ones. -/
def scanned (before : List Token) (cs : List Char) : Option (List Token) :=
  (cs.foldlM step? ⟨.between, before⟩).bind finish?

/-- Characters that end the token before them. -/
def endsToken : List Char → Bool
  | [] => true
  | c :: _ => c = ',' || c = ']' || c = '\x7d'

/-- A text spells tokens wherever the token behind it is ended. -/
def Spells (cs : List Char) (ts : List Token) : Prop :=
  ∀ before rest, endsToken rest = true →
    scanned before (cs ++ rest) = scanned (ts.reverse ++ before) rest

theorem scanned_cons {before after : List Token} (h : begin? before c = some ⟨.between, after⟩)
    (cs : List Char) :
  scanned before (c :: cs) = scanned after cs
  := by
  rw [scanned, List.foldlM_cons, step?, h]
  rfl

/-! ### Texts -/

/-- What a character of a text is scanned as. -/
def pieceOf (c : Char) : Piece :=
  if c = '"' || c = '\\' then .char c
  else match escapeLetter? c with
    | some _ => .char c
    | none => if writtenByCode c then .unit c.toNat else .char c

/-- Characters that are written by their code are no surrogates. -/
theorem toNat_lt_of_writtenByCode (h : writtenByCode c = true) :
  c.toNat < 0xD800
  := by
  simp only [writtenByCode, Bool.or_eq_true, decide_eq_true_eq] at h
  rcases h with ((((h | rfl) | rfl) | rfl) | h) | h
  · omega
  · decide
  · decide
  · decide
  · omega
  · omega

theorem charsFrom_code (h : writtenByCode c = true) (ps : List Piece) :
  charsFrom (some c.toNat) ps = c :: charsFrom none ps
  := by
  have hlow := toNat_lt_of_writtenByCode h
  have hunit : unitChar c.toNat = c := by
    rw [unitChar, if_neg (by omega), Char.ofNat_toNat]
  have hpair (v : Nat) : pairChar? c.toNat v = none := by
    rw [pairChar?, if_neg (by omega)]
  match ps with
  | [] => rw [charsFrom, charsFrom, hunit]
  | .char d :: ps => rw [charsFrom, charsFrom, hunit]
  | .unit v :: ps =>
    rw [charsFrom]
    simp only [charsFrom, hpair, hunit]

theorem pieceOf_of_ne (h : pieceOf c ≠ .char c) :
  writtenByCode c = true ∧ pieceOf c = .unit c.toNat
  := by
  unfold pieceOf at h ⊢
  grind

theorem charsFrom_pieceOf (cs : List Char) :
  charsFrom none (cs.map pieceOf) = cs
  := by
  have hchar (c : Char) (cs : List Char) (ih : charsFrom none (cs.map pieceOf) = cs) :
      charsFrom none (.char c :: cs.map pieceOf) = c :: cs := by
    rw [charsFrom, ih]
  induction cs with
  | nil => rfl
  | cons c cs ih =>
    rw [List.map_cons]
    by_cases hcode : pieceOf c = .char c
    · rw [hcode]
      apply hchar c cs ih
    · obtain ⟨hwritten, hpiece⟩ := pieceOf_of_ne hcode
      rw [hpiece, charsFrom, charsFrom_code hwritten, ih]

theorem hexValue?_hexDigit {d : Nat} (h : d < 16) :
  hexValue? (Text.hexDigit d) = some d
  := by
  have hall : ∀ d < 16, hexValue? (Text.hexDigit d) = some d := by decide
  apply hall d h

/-- Four digits are read as the code that they spell. -/
theorem foldlM_hex {n : Nat} (h : n < 0x10000) (ps : List Piece) (before : List Token) :
  (Text.hex 4 n).foldlM step? ⟨.inCode ps 0 0, before⟩
    = some ⟨.inText (.unit n :: ps), before⟩
  := by
  have hdigit (m : Nat) : hexValue? (Text.hexDigit (m % 16)) = some (m % 16) :=
    hexValue?_hexDigit (Nat.mod_lt m (by decide))
  have hvalue : (((0 * 16 + n / Nat.pow 16 3 % 16) * 16 + n / Nat.pow 16 2 % 16) * 16
      + n / Nat.pow 16 1 % 16) * 16 + n / Nat.pow 16 0 % 16 = n := by
    simp only [Nat.pow_eq]
    omega
  simp [Text.hex, step?, hdigit] at hvalue ⊢
  exact hvalue

/-- An escape letter stands for the character that it is written for. -/
theorem escaped?_of_escapeLetter? {letter : Char} (h : escapeLetter? c = some letter) :
  letter ≠ 'u' ∧ escaped? letter = some c
  := by
  have hchar {n : Nat} (hn : c.toNat = n) : c = Char.ofNat n := by
    rw [← hn, Char.ofNat_toNat]
  unfold escapeLetter? at h
  split at h
  next hn => cases h; rw [hchar hn]; decide
  next hn => cases h; rw [hchar hn]; decide
  next hn => cases h; rw [hchar hn]; decide
  next hn => cases h; rw [hchar hn]; decide
  next hn => cases h; rw [hchar hn]; decide
  next => cases h

theorem foldlM_escapeChar (c : Char) (ps : List Piece) (before : List Token) :
  (escapeChar c).foldlM step? ⟨.inText ps, before⟩ = some ⟨.inText (pieceOf c :: ps), before⟩
  := by
  have hopen : step? ⟨.inText ps, before⟩ '\\' = some ⟨.inEscape ps, before⟩ := rfl
  unfold escapeChar pieceOf
  by_cases hquote : (c = '"' || c = '\\') = true
  · rw [if_pos hquote, if_pos hquote]
    simp only [Bool.or_eq_true, decide_eq_true_eq] at hquote
    rcases hquote with rfl | rfl <;> rfl
  · rw [if_neg hquote, if_neg hquote]
    cases hletter : escapeLetter? c with
    | some letter =>
      obtain ⟨hmark, hescaped⟩ := escaped?_of_escapeLetter? hletter
      have hletter : step? ⟨.inEscape ps, before⟩ letter
          = some ⟨.inText (.char c :: ps), before⟩ := by
        simp [step?, hmark, hescaped]
      simp [hopen, hletter]
    | none =>
      by_cases hcode : writtenByCode c = true
      · have hlow := toNat_lt_of_writtenByCode hcode
        have hmark : step? ⟨.inEscape ps, before⟩ 'u' = some ⟨.inCode ps 0 0, before⟩ := rfl
        simp only [hcode, if_true]
        rw [List.foldlM_cons, hopen, Option.bind_eq_bind, Option.bind_some, List.foldlM_cons,
          hmark, Option.bind_eq_bind, Option.bind_some, foldlM_hex (by omega)]
      · simp only [hcode]
        simp only [writtenByCode, Bool.or_eq_true, decide_eq_true_eq, not_or] at hcode hquote
        simp [step?, hquote, hcode]

theorem foldlM_escaped (cs : List Char) (ps : List Piece) (before : List Token) :
  (cs.flatMap escapeChar).foldlM step? ⟨.inText ps, before⟩
    = some ⟨.inText ((cs.map pieceOf).reverse ++ ps), before⟩
  := by
  induction cs generalizing ps with
  | nil => rfl
  | cons c cs ih =>
    rw [List.flatMap_cons, List.foldlM_append, foldlM_escapeChar]
    change List.foldlM step? ⟨.inText (pieceOf c :: ps), before⟩ (cs.flatMap escapeChar) = _
    rw [ih]
    simp

theorem scanned_writeText (s : String) (before : List Token) (rest : List Char) :
  scanned before ((writeText s).toList ++ rest) = scanned (.text s :: before) rest
  := by
  have hquote : step? ⟨.inText ((s.toList.map pieceOf).reverse ++ []), before⟩ '"'
      = some ⟨.between, .text s :: before⟩ := by
    simp [step?, textOf, charsFrom_pieceOf]
  have hopen : step? ⟨.between, before⟩ '"' = some ⟨.inText [], before⟩ := rfl
  rw [writeText, String.toList_ofList, List.append_assoc, List.cons_append, scanned,
    List.foldlM_cons, hopen, Option.bind_eq_bind, Option.bind_some, List.foldlM_append,
    foldlM_escaped, Option.bind_eq_bind, Option.bind_some, List.singleton_append, List.foldlM_cons,
    hquote]
  rfl

/-! ### Numbers and words -/

/-- How numbers and words are collected. -/
def IsCollecting (mode : List Char → Mode) : Prop :=
  mode = .inNumber ∨ mode = .inWord

/-- A token that is collected is complete once a character comes that it cannot hold. -/
theorem IsCollecting.complete (hmode : IsCollecting mode)
    (hcollected : collected? (mode cs) = some t) (hrest : endsToken rest = true)
    (before : List Token) :
  (rest.foldlM step? ⟨mode cs, before⟩).bind finish? = scanned (t :: before) rest
  := by
  cases rest with
  | nil =>
    rcases hmode with rfl | rfl
    · simp [scanned, finish?, hcollected]
    · simp [scanned, finish?, hcollected]
  | cons c rest =>
    have hchar : inNumbers c = false ∧ c.isLower = false := by
      simp only [endsToken, Bool.or_eq_true, decide_eq_true_eq] at hrest
      rcases hrest with (rfl | rfl) | rfl <;> decide
    have hstep : step? ⟨mode cs, before⟩ c = step? ⟨.between, t :: before⟩ c := by
      rcases hmode with rfl | rfl
      · simp [step?, hchar, hcollected]
      · simp [step?, hchar, hcollected]
    rw [scanned, List.foldlM_cons, List.foldlM_cons, hstep]

theorem IsCollecting.foldlM
    (hmore : ∀ c ∈ cs, ∀ ds before, step? ⟨mode ds, before⟩ c = some ⟨mode (c :: ds), before⟩)
    (ds : List Char) (before : List Token) :
  cs.foldlM step? ⟨mode ds, before⟩ = some ⟨mode (cs.reverse ++ ds), before⟩
  := by
  induction cs generalizing ds with
  | nil => rfl
  | cons c cs ih =>
    rw [List.forall_mem_cons] at hmore
    rw [List.foldlM_cons, hmore.1, Option.bind_eq_bind, Option.bind_some, ih hmore.2]
    simp

/-- Characters that are collected spell one token. -/
theorem IsCollecting.spells (hmode : IsCollecting mode)
    (hbegin : ∀ before, begin? before c = some ⟨mode [c], before⟩)
    (hmore : ∀ c ∈ cs, ∀ ds before, step? ⟨mode ds, before⟩ c = some ⟨mode (c :: ds), before⟩)
    (hcollected : collected? (mode (c :: cs).reverse) = some t) :
  Spells (c :: cs) [t]
  := by
  intro before rest hrest
  have hstep : step? ⟨.between, before⟩ c = some ⟨mode [c], before⟩ := hbegin before
  rw [scanned, List.cons_append, List.foldlM_cons, hstep, Option.bind_eq_bind, Option.bind_some,
    List.foldlM_append, IsCollecting.foldlM hmore, Option.bind_eq_bind, Option.bind_some]
  rw [List.reverse_cons] at hcollected
  apply hmode.complete hcollected hrest

theorem inNumbers_of_next? {s t : NumberState} (h : s.next? c = some t) :
  inNumbers c = true
  := by
  have hzero : inNumbers '0' = true := rfl
  cases s <;> simp only [NumberState.next?] at h <;> (repeat' split at h) <;> cases h
    <;> grind [inNumbers]

theorem inNumbers_of_foldlM {s t : NumberState} (h : cs.foldlM NumberState.next? s = some t) :
  ∀ c ∈ cs, inNumbers c = true
  := by
  induction cs generalizing s with
  | nil =>
    intro c hc
    cases hc
  | cons c cs ih =>
    rw [List.foldlM_cons] at h
    obtain ⟨u, hu, ht⟩ := Option.bind_eq_some_iff.mp h
    rw [List.forall_mem_cons]
    exact ⟨inNumbers_of_next? hu, ih ht⟩

theorem begin?_of_next? {t : NumberState} (h : NumberState.start.next? c = some t)
    (before : List Token) :
  begin? before c = some ⟨.inNumber [c], before⟩
  := by
  have hc : (c.isDigit || c = '-') = true := by
    simp only [NumberState.next?] at h
    split at h
    next hminus => rw [hminus]; rfl
    next =>
      split at h
      next hzero => rw [hzero]; rfl
      next =>
        split at h
        next hdigit => rw [hdigit]; rfl
        next => cases h
  unfold begin?
  split <;> simp_all

theorem spells_number {literal : String} (h : isNumber literal.toList = true) :
  Spells literal.toList [.number literal]
  := by
  have hnumber := h
  unfold isNumber at h
  split at h
  next t hread =>
    have hchars := inNumbers_of_foldlM hread
    cases hcs : literal.toList with
    | nil =>
      rw [hcs] at hread
      cases hread
      cases h
    | cons c cs =>
      rw [hcs] at hread hchars
      rw [List.foldlM_cons] at hread
      obtain ⟨u, hu, -⟩ := Option.bind_eq_some_iff.mp hread
      apply IsCollecting.spells (.inl rfl) (begin?_of_next? hu)
      · intro d hd ds before
        simp [step?, hchars d (List.mem_cons_of_mem c hd)]
      · simp [collected?, hnumber, ← hcs]
  next => cases h

theorem spells_word (hbegin : ∀ before, begin? before c = some ⟨.inWord [c], before⟩)
    (hlower : cs.all Char.isLower = true)
    (hword : collected? (.inWord (c :: cs).reverse) = some t) :
  Spells (c :: cs) [t]
  := by
  apply IsCollecting.spells (.inr rfl) hbegin _ hword
  intro d hd ds before
  simp [step?, List.all_eq_true.mp hlower d hd]


/-! ### Documents -/

theorem writeItems_eq (items : List Json) :
  writeItems items = items.map write
  := by
  induction items with
  | nil => rfl
  | cons v vs ih => rw [writeItems, ih, List.map_cons]

theorem writeMembers_eq (members : List (String × Json)) :
  writeMembers members = members.map fun m => writeText m.1 ++ ":" ++ write m.2
  := by
  induction members with
  | nil => rfl
  | cons m ms ih => rw [writeMembers, ih, List.map_cons]

theorem toList_intercalate_comma (w : String) (ws : List String) :
  (String.intercalate "," (w :: ws)).toList = w.toList ++ ws.flatMap fun s => ',' :: s.toList
  := by
  induction ws generalizing w with
  | nil => simp
  | cons v ws ih =>
    rw [String.intercalate_cons_cons, String.toList_append, String.toList_append, ih]
    simp

/-- The characters of further items. -/
def furtherItems (vs : List Json) : List Char :=
  (vs.map write).flatMap fun s => ',' :: s.toList

/-- The characters of further members. -/
def furtherMembers (ms : List (String × Json)) : List Char :=
  (ms.map fun m => writeText m.1 ++ ":" ++ write m.2).flatMap fun s => ',' :: s.toList

theorem toList_write_array (v : Json) (vs : List Json) :
  (write (.array (v :: vs))).toList = '[' :: ((write v).toList ++ (furtherItems vs ++ [']']))
  := by
  rw [write, writeItems_eq, String.toList_append, String.toList_append, List.map_cons,
    toList_intercalate_comma, ← furtherItems]
  simp

theorem toList_write_object (name : String) (v : Json) (ms : List (String × Json)) :
  (write (.object ((name, v) :: ms))).toList
    = '\x7b' :: ((writeText name).toList
      ++ ':' :: ((write v).toList ++ (furtherMembers ms ++ ['\x7d'])))
  := by
  rw [write, writeMembers_eq, String.toList_append, String.toList_append, List.map_cons,
    toList_intercalate_comma, ← furtherMembers]
  simp

theorem endsToken_furtherItems (vs : List Json) (hrest : endsToken rest = true) :
  endsToken (furtherItems vs ++ rest) = true
  := by
  cases vs with
  | nil => apply hrest
  | cons v vs => rfl

theorem endsToken_furtherMembers (ms : List (String × Json)) (hrest : endsToken rest = true) :
  endsToken (furtherMembers ms ++ rest) = true
  := by
  cases ms with
  | nil => apply hrest
  | cons m ms => rfl

theorem spells_furtherItems {vs : List Json} (h : ∀ v ∈ vs, Spells (write v).toList v.tokens) :
  Spells (furtherItems vs) (itemTokens vs)
  := by
  intro before rest hrest
  induction vs generalizing before with
  | nil => rfl
  | cons v vs ih =>
    rw [List.forall_mem_cons] at h
    rw [furtherItems, List.map_cons, List.flatMap_cons, ← furtherItems, List.append_assoc,
      List.cons_append, scanned_cons rfl, h.1 _ _ (endsToken_furtherItems vs hrest), ih h.2]
    simp [itemTokens]

theorem spells_furtherMembers {ms : List (String × Json)}
    (h : ∀ m ∈ ms, Spells (write m.2).toList m.2.tokens) :
  Spells (furtherMembers ms) (memberTokens ms)
  := by
  intro before rest hrest
  induction ms generalizing before with
  | nil => rfl
  | cons m ms ih =>
    rw [List.forall_mem_cons] at h
    have hcolon : ":".toList = [':'] := rfl
    rw [furtherMembers, List.map_cons, List.flatMap_cons, ← furtherMembers, List.append_assoc,
      List.cons_append, scanned_cons rfl, String.toList_append, String.toList_append,
      List.append_assoc, List.append_assoc, hcolon, scanned_writeText, List.singleton_append,
      scanned_cons rfl, h.1 _ _ (endsToken_furtherMembers ms hrest), ih h.2]
    simp [memberTokens]

/-- A document is written as a text that spells its tokens. -/
theorem IsSpelled.spells (h : IsSpelled j) :
  Spells (write j).toList j.tokens
  := by
  induction h with
  | null => exact spells_word (fun _ => rfl) (by decide) (by decide)
  | bool b =>
    cases b with
    | true => exact spells_word (fun _ => rfl) (by decide) (by decide)
    | false => exact spells_word (fun _ => rfl) (by decide) (by decide)
  | number h => apply spells_number h
  | text s =>
    intro before rest _
    apply scanned_writeText
  | @array items h ih =>
    intro before rest _
    cases items with
    | nil => rfl
    | cons v vs =>
      rw [List.forall_mem_cons] at ih
      rw [toList_write_array, List.cons_append, List.append_assoc, List.append_assoc,
        List.singleton_append, scanned_cons rfl, ih.1 _ _ (endsToken_furtherItems vs rfl),
        spells_furtherItems ih.2 _ _ rfl, scanned_cons rfl]
      simp [tokens]
  | @object members h ih =>
    intro before rest _
    cases members with
    | nil => rfl
    | cons m ms =>
      obtain ⟨name, v⟩ := m
      rw [List.forall_mem_cons] at ih
      rw [toList_write_object, List.cons_append, List.append_assoc, List.cons_append,
        List.append_assoc, List.append_assoc, List.singleton_append, scanned_cons rfl,
        scanned_writeText, scanned_cons rfl, ih.1 _ _ (endsToken_furtherMembers ms rfl),
        spells_furtherMembers ih.2 _ _ rfl, scanned_cons rfl]
      simp [tokens]

theorem IsSpelled.tokens? (h : IsSpelled j) :
  tokens? (write j).toList = some j.tokens
  := by
  have hscan := h.spells [] [] rfl
  rw [List.append_nil, List.append_nil] at hscan
  apply hscan.trans
  simp [scanned, finish?]

/-! ### Putting documents together -/

/-- The state of the reader behind tokens. -/
def built (b : Build) (ts : List Token) : Option Build :=
  ts.foldlM Build.step? b

theorem built_cons {c : Build} (h : b.step? t = some c) (ts : List Token) :
  built b (t :: ts) = built c ts
  := by
  rw [built, List.foldlM_cons, h]
  rfl

/-- The tokens of a document put it in its place. -/
def Builds (j : Json) : Prop :=
  ∀ frames rest, frames.length + j.depth ≤ depthLimit →
    built ⟨frames, .value⟩ (j.tokens ++ rest) = built (place frames j) rest

/-- Where an array may end at once, a value is read as anywhere else. -/
theorem built_firstItem (j : Json) (frames : List Frame) (rest : List Token) :
  built ⟨frames, .firstItem⟩ (j.tokens ++ rest) = built ⟨frames, .value⟩ (j.tokens ++ rest)
  := by
  match j with
  | .null | .bool _ | .number _ | .text _ | .array [] | .array (_ :: _) | .object []
  | .object ((_, _) :: _) => rfl

theorem built_itemTokens {vs : List Json} (h : ∀ v ∈ vs, Builds v)
    (hdepth : frames.length + 1 + itemsDepth vs ≤ depthLimit) (items : List Json)
    (rest : List Token) :
  built ⟨.array items :: frames, .next⟩ (itemTokens vs ++ rest)
    = built ⟨.array (vs.reverse ++ items) :: frames, .next⟩ rest
  := by
  induction vs generalizing items with
  | nil => rfl
  | cons v vs ih =>
    rw [List.forall_mem_cons] at h
    rw [itemsDepth] at hdepth
    have hv : (Frame.array items :: frames).length + v.depth ≤ depthLimit := by
      rw [List.length_cons]
      omega
    rw [itemTokens, List.cons_append, List.append_assoc, built_cons rfl, h.1 _ _ hv, place,
      ih h.2 (by omega)]
    simp

theorem built_memberTokens {ms : List (String × Json)} (h : ∀ m ∈ ms, Builds m.2)
    (hdepth : frames.length + 1 + membersDepth ms ≤ depthLimit) (members : List (String × Json))
    (name : String) (rest : List Token) :
  ∃ last, built ⟨.object members name :: frames, .next⟩ (memberTokens ms ++ rest)
    = built ⟨.object (ms.reverse ++ members) last :: frames, .next⟩ rest
  := by
  induction ms generalizing members name with
  | nil => exact ⟨name, rfl⟩
  | cons m ms ih =>
    obtain ⟨key, v⟩ := m
    rw [List.forall_mem_cons] at h
    rw [membersDepth] at hdepth
    obtain ⟨last, hlast⟩ := ih h.2 (by omega) ((key, v) :: members) key
    refine ⟨last, ?_⟩
    have hv : (Frame.object members key :: frames).length + v.depth ≤ depthLimit := by
      rw [List.length_cons]
      omega
    rw [memberTokens, List.cons_append, List.cons_append, List.cons_append, List.append_assoc,
      built_cons rfl, built_cons rfl, built_cons rfl, h.1 _ _ hv, place, hlast]
    simp

/-- The tokens of a document put it in its place if the place is not too deep. -/
theorem IsSpelled.builds (h : IsSpelled j) :
  Builds j
  := by
  induction h with
  | null | bool _ | number _ | text _ =>
    intro frames rest _
    rfl
  | @array items h ih =>
    intro frames rest hdepth
    rw [depth] at hdepth
    have hopen : Build.step? ⟨frames, .value⟩ .openBracket
        = some ⟨.array [] :: frames, .firstItem⟩ := by
      simp only [Build.step?, beginValue?, nest?]
      rw [if_pos (by omega)]
    cases items with
    | nil =>
      rw [tokens, List.cons_append, built_cons hopen]
      rfl
    | cons v vs =>
      rw [List.forall_mem_cons] at ih
      rw [itemsDepth] at hdepth
      have hv : (Frame.array [] :: frames).length + v.depth ≤ depthLimit := by
        rw [List.length_cons]
        omega
      rw [tokens, List.cons_append, List.append_assoc, List.append_assoc, built_cons hopen,
        built_firstItem, ih.1 _ _ hv, place, built_itemTokens ih.2 (by omega),
        List.singleton_append]
      have hclose : Build.step? ⟨.array (vs.reverse ++ [v]) :: frames, .next⟩ .closeBracket
          = some (place frames (.array (v :: vs))) := by
        simp [Build.step?, close?]
      rw [built_cons hclose]
  | @object members h ih =>
    intro frames rest hdepth
    rw [depth] at hdepth
    have hopen : Build.step? ⟨frames, .value⟩ .openBrace
        = some ⟨.object [] "" :: frames, .firstName⟩ := by
      simp only [Build.step?, beginValue?, nest?]
      rw [if_pos (by omega)]
    cases members with
    | nil =>
      rw [tokens, List.cons_append, built_cons hopen]
      rfl
    | cons m ms =>
      obtain ⟨name, v⟩ := m
      rw [List.forall_mem_cons] at ih
      rw [membersDepth] at hdepth
      have hv : (Frame.object [] name :: frames).length + v.depth ≤ depthLimit := by
        rw [List.length_cons]
        omega
      have hms : frames.length + 1 + membersDepth ms ≤ depthLimit := by omega
      obtain ⟨last, hlast⟩ := built_memberTokens ih.2 hms [(name, v)] name
        ([Token.closeBrace] ++ rest)
      rw [tokens, List.cons_append, List.cons_append, List.cons_append, List.append_assoc,
        List.append_assoc, built_cons hopen, built_cons rfl, built_cons rfl, ih.1 _ _ hv, place,
        hlast, List.singleton_append]
      have hclose : Build.step? ⟨.object (ms.reverse ++ [(name, v)]) last :: frames, .next⟩
          .closeBrace = some (place frames (.object ((name, v) :: ms))) := by
        simp [Build.step?, close?]
      rw [built_cons hclose]

theorem IsSpelled.read?_write (h : IsSpelled j) (hdepth : j.depth ≤ depthLimit) :
  read? (write j) = some j
  := by
  have hbuilt := h.builds [] [] (by simpa using hdepth)
  rw [List.append_nil] at hbuilt
  have hfold : j.tokens.foldlM Build.step? ⟨[], .value⟩ = some ⟨[], .finished j⟩ := hbuilt
  simp [read?, h.tokens?, ofTokens?, hfold]

/-! ### Documents that are read -/

/-- Whether the text of a number token is a number. -/
def Token.isSpelled : Token → Bool
  | .number literal => isNumber literal.toList
  | _ => true

theorem isSpelled_of_begin? {before : List Token} {s : Scan}
    (hbefore : ∀ t ∈ before, t.isSpelled = true) (h : begin? before c = some s) :
  ∀ t ∈ s.tokens, t.isSpelled = true
  := by
  unfold begin? at h
  grind [Token.isSpelled]

theorem isSpelled_of_collected? {mode : Mode} (h : collected? mode = some t) :
  t.isSpelled = true
  := by
  cases mode with
  | inNumber cs =>
    obtain ⟨hnumber, ⟨⟩⟩ := Option.ite_none_right_eq_some.mp h
    rwa [Token.isSpelled, String.toList_ofList]
  | inWord cs =>
    rw [collected?] at h
    split_ifs at h
    all_goals
      cases h
      rfl
  | _ => cases h

/-- Each character that is scanned keeps the numbers among the tokens spelled. -/
theorem isSpelled_of_step? {s s' : Scan} (hs : ∀ t ∈ s.tokens, t.isSpelled = true)
    (h : s.step? c = some s') :
  ∀ t ∈ s'.tokens, t.isSpelled = true
  := by
  have hcollected {t : Token} (ht : collected? s.mode = some t)
      (hbegin : begin? (t :: s.tokens) c = some s') : ∀ t ∈ s'.tokens, t.isSpelled = true := by
    apply isSpelled_of_begin? _ hbegin
    rw [List.forall_mem_cons]
    exact ⟨isSpelled_of_collected? ht, hs⟩
  unfold step? at h
  split at h
  · apply isSpelled_of_begin? hs h
  · grind [Token.isSpelled]
  · split at h
    · cases h
      apply hs
    · obtain ⟨e, -, rfl⟩ := Option.map_eq_some_iff.mp h
      apply hs
  · obtain ⟨d, -, rfl⟩ := Option.map_eq_some_iff.mp h
    split <;> apply hs
  · split at h
    · grind
    · obtain ⟨t, ht, hbegin⟩ := Option.bind_eq_some_iff.mp h
      apply hcollected ht hbegin
  · split at h
    · grind
    · obtain ⟨t, ht, hbegin⟩ := Option.bind_eq_some_iff.mp h
      apply hcollected ht hbegin

theorem isSpelled_of_foldlM {s s' : Scan} (hs : ∀ t ∈ s.tokens, t.isSpelled = true)
    (h : cs.foldlM step? s = some s') :
  ∀ t ∈ s'.tokens, t.isSpelled = true
  := by
  induction cs generalizing s with
  | nil =>
    cases h
    apply hs
  | cons c cs ih =>
    rw [List.foldlM_cons] at h
    obtain ⟨u, hu, h⟩ := Option.bind_eq_some_iff.mp h
    apply ih (isSpelled_of_step? hs hu) h

theorem isSpelled_of_tokens? {ts : List Token} (h : tokens? cs = some ts) :
  ∀ t ∈ ts, t.isSpelled = true
  := by
  obtain ⟨s, hs, hfinish⟩ := Option.bind_eq_some_iff.mp h
  have htokens := isSpelled_of_foldlM (List.forall_mem_nil _) hs
  have hcollected (h : (collected? s.mode).map (fun t => (t :: s.tokens).reverse) = some ts) :
      ∀ t ∈ ts, t.isSpelled = true := by
    obtain ⟨t, ht, rfl⟩ := Option.map_eq_some_iff.mp h
    intro u hu
    rcases List.mem_cons.mp (List.mem_reverse.mp hu) with rfl | hu
    · apply isSpelled_of_collected? ht
    · apply htokens u hu
  unfold finish? at hfinish
  split at hfinish
  · cases hfinish
    simpa using htokens
  · apply hcollected hfinish
  · apply hcollected hfinish
  · cases hfinish

/-- Whether what has been read of an array or object is spelled. -/
def Frame.IsSpelled : Frame → Prop
  | .array items => ∀ v ∈ items, v.IsSpelled
  | .object members _ => ∀ m ∈ members, m.2.IsSpelled

/-- Whether all that has been read is spelled. -/
def Build.IsSpelled (b : Build) : Prop :=
  (∀ f ∈ b.frames, f.IsSpelled) ∧ ∀ v, b.phase = .finished v → v.IsSpelled

theorem isSpelled_place {v : Json} (hframes : ∀ f ∈ frames, f.IsSpelled) (hv : v.IsSpelled) :
  (place frames v).IsSpelled
  := by
  unfold place
  split
  · exact ⟨List.forall_mem_nil _, by simpa using hv⟩
  · rw [List.forall_mem_cons] at hframes
    refine ⟨?_, by simp⟩
    rw [List.forall_mem_cons]
    exact ⟨List.forall_mem_cons.mpr ⟨hv, hframes.1⟩, hframes.2⟩
  · rw [List.forall_mem_cons] at hframes
    refine ⟨?_, by simp⟩
    rw [List.forall_mem_cons]
    exact ⟨List.forall_mem_cons.mpr ⟨hv, hframes.1⟩, hframes.2⟩

theorem isSpelled_close? (hframes : ∀ f ∈ frames, f.IsSpelled) (h : close? frames t = some b) :
  b.IsSpelled
  := by
  unfold close? at h
  split at h
  · cases h
    rw [List.forall_mem_cons] at hframes
    apply isSpelled_place hframes.2
    apply Json.IsSpelled.array
    intro v hv
    apply hframes.1 v (List.mem_reverse.mp hv)
  · cases h
    rw [List.forall_mem_cons] at hframes
    apply isSpelled_place hframes.2
    apply Json.IsSpelled.object
    intro m hm
    apply hframes.1 m (List.mem_reverse.mp hm)
  · cases h

theorem isSpelled_beginValue? (hframes : ∀ f ∈ frames, f.IsSpelled) (ht : t.isSpelled = true)
    (h : beginValue? frames t = some b) :
  b.IsSpelled
  := by
  have hnest {f : Frame} {phase : Phase} (hf : f.IsSpelled) (hphase : ∀ v, phase ≠ .finished v)
      (h : nest? frames f phase = some b) : b.IsSpelled := by
    unfold nest? at h
    split at h
    · cases h
      refine ⟨?_, fun v hv => absurd hv (hphase v)⟩
      rw [List.forall_mem_cons]
      exact ⟨hf, hframes⟩
    · cases h
  unfold beginValue? at h
  split at h
  · cases h
    apply isSpelled_place hframes .null
  · cases h
    apply isSpelled_place hframes (.bool _)
  · cases h
    apply isSpelled_place hframes (.number ht)
  · cases h
    apply isSpelled_place hframes (.text _)
  · refine hnest ?_ (by simp) h
    simp [Frame.IsSpelled]
  · refine hnest ?_ (by simp) h
    simp [Frame.IsSpelled]
  · cases h


theorem isSpelled_beginMember? (hframes : ∀ f ∈ frames, f.IsSpelled)
    (h : beginMember? frames t = some b) :
  b.IsSpelled
  := by
  unfold beginMember? at h
  split at h
  · split at h
    · cases h
      rw [List.forall_mem_cons] at hframes
      refine ⟨?_, by simp⟩
      rw [List.forall_mem_cons]
      apply hframes
    · cases h
  · cases h

/-- Each token that is read keeps what has been read spelled. -/
theorem isSpelled_build {c : Build} (hb : b.IsSpelled) (ht : t.isSpelled = true)
    (h : b.step? t = some c) :
  c.IsSpelled
  := by
  unfold Build.step? at h
  split at h
  · apply isSpelled_beginValue? hb.1 ht h
  · split at h
    · apply isSpelled_close? hb.1 h
    · apply isSpelled_beginValue? hb.1 ht h
  · split at h
    · apply isSpelled_close? hb.1 h
    · apply isSpelled_beginMember? hb.1 h
  · apply isSpelled_beginMember? hb.1 h
  · split at h
    · cases h
      exact ⟨hb.1, by simp⟩
    · cases h
  · split at h
    · cases h
      exact ⟨hb.1, by simp⟩
    · cases h
      exact ⟨hb.1, by simp⟩
    · apply isSpelled_close? hb.1 h
  · cases h

theorem isSpelled_built {c : Build} {ts : List Token} (hb : b.IsSpelled)
    (hts : ∀ t ∈ ts, t.isSpelled = true) (h : ts.foldlM Build.step? b = some c) :
  c.IsSpelled
  := by
  induction ts generalizing b with
  | nil =>
    cases h
    apply hb
  | cons t ts ih =>
    rw [List.forall_mem_cons] at hts
    rw [List.foldlM_cons] at h
    obtain ⟨u, hu, h⟩ := Option.bind_eq_some_iff.mp h
    apply ih (isSpelled_build hb hts.1 hu) hts.2 h

theorem isSpelled_of_read? {s : String} (h : read? s = some j) :
  j.IsSpelled
  := by
  obtain ⟨ts, hts, h⟩ := Option.bind_eq_some_iff.mp h
  obtain ⟨b, hb, h⟩ := Option.bind_eq_some_iff.mp h
  have hstart : Build.IsSpelled ⟨[], .value⟩ := ⟨List.forall_mem_nil _, by simp⟩
  have hbuilt := isSpelled_built hstart (isSpelled_of_tokens? hts) hb
  split at h
  next hphase =>
    cases h
    apply hbuilt.2 _ hphase
  next => cases h

end CqlGateway.Json

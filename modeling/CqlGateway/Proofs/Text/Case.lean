import CqlGateway.Proofs.Text.Blank
import CqlGateway.Text.Case
import Mathlib.Logic.Basic

/-!
# Small and capital letters

Turning a text into small letters, or into capital ones, twice is the same as once. Neither makes
or removes blanks, so that it does not matter whether a text is trimmed before or after. Beyond
ASCII, this is a property of the tables of letters that is checked for every code point that they
move.
-/

namespace CqlGateway.Text

/-! ### Tables of letters -/

/-- The code points of blanks. -/
def blankCodes : List Nat :=
  [0x09, 0x0A, 0x0B, 0x0C, 0x0D, 0x20, 0x85, 0xA0, 0x1680, 0x2000, 0x2001, 0x2002, 0x2003, 0x2004,
   0x2005, 0x2006, 0x2007, 0x2008, 0x2009, 0x200A, 0x2028, 0x2029, 0x202F, 0x205F, 0x3000]

theorem mem_blankCodes_of_isBlank {c : Char} (h : isBlank c = true) :
  c.toNat ∈ blankCodes
  := by
  simp only [isBlank, Bool.or_eq_true, Bool.and_eq_true, decide_eq_true_eq] at h
  simp only [blankCodes, List.mem_cons, List.not_mem_nil, or_false]
  omega

/-- The numbers of a list as the bits of a single one. -/
def bits (ns : List Nat) : Nat :=
  ns.foldr (fun n b => 1 <<< n ||| b) 0

theorem testBit_bits (ns : List Nat) (n : Nat) :
  (bits ns).testBit n = decide (n ∈ ns)
  := by
  induction ns with
  | nil => simp [bits]
  | cons m ns ih =>
    rw [bits, List.foldr_cons, Nat.testBit_or, ← bits, ih, Nat.one_shiftLeft,
      Nat.testBit_two_pow]
    simp [eq_comm]

theorem not_mem_of_testBit {ns : List Nat} {n b : Nat} (hb : bits ns = b)
    (h : b.testBit n = false) :
  n ∉ ns
  := by
  rwa [← hb, testBit_bits, decide_eq_false_iff_not] at h

namespace CaseRun

/-- The code points that a run holds. -/
def codes (r : CaseRun) : List Nat :=
  List.range' r.first ((r.last - r.first) / r.step + 1) r.step

theorem mem_codes_of_target? {r : CaseRun} {n m : Nat} (h : r.target? n = some m) :
  n ∈ r.codes ∧ m = (n + r.distance).toNat
  := by
  unfold target? at h
  split at h
  next hn =>
    refine ⟨?_, (Option.some.inj h).symm⟩
    obtain ⟨hfirst, hlast, hstep⟩ := hn
    apply List.mem_range'.mpr
    refine ⟨(n - r.first) / r.step, ?_, ?_⟩
    · apply Nat.lt_succ_of_le
      apply Nat.div_le_div_right
      omega
    · have hdiv := Nat.div_add_mod (n - r.first) r.step
      omega
  next => cases h

end CaseRun

/-- A code point that is sent to a character: neither is blank, and the latter is no letter of
ASCII from `letter` on and not among the code points that are moved. -/
structure IsSettled (moved : List Nat) (letter n m : Nat) : Prop where
  valid : m.isValidChar
  ascii : m < letter ∨ letter + 25 < m
  solid : n ∉ blankCodes ∧ m ∉ blankCodes
  rests : m ∉ moved

/-- Whether a table only sends code points to settled ones. The bits are matched, so that they are
computed once. -/
def settles (runs : List CaseRun) (letter : Nat) : Bool :=
  match bits (runs.flatMap (·.codes)), bits blankCodes with
  | moved + 1, blank + 1 => runs.all fun r => r.codes.all fun n =>
    let m := (n + r.distance).toNat
    (m < 0xD800 || 0xDFFF < m && m < 0x110000) && (m < letter || letter + 25 < m)
      && !(blank + 1).testBit n && !(blank + 1).testBit m && !(moved + 1).testBit m
  | _, _ => false

theorem isSettled_of_settles {runs : List CaseRun} {letter : Nat} (h : settles runs letter = true)
    {r : CaseRun} (hr : r ∈ runs) {n m : Nat} (hm : r.target? n = some m) :
  IsSettled (runs.flatMap (·.codes)) letter n m
  := by
  obtain ⟨hn, rfl⟩ := CaseRun.mem_codes_of_target? hm
  unfold settles at h
  split at h
  next moved blank hmoved hblank =>
    have hall := List.all_eq_true.mp (List.all_eq_true.mp h r hr) n hn
    simp only [Bool.and_eq_true, Bool.or_eq_true, Bool.not_eq_true', decide_eq_true_eq] at hall
    obtain ⟨⟨⟨⟨hvalid, hascii⟩, hfrom⟩, hto⟩, hrests⟩ := hall
    refine ⟨?_, hascii, ⟨not_mem_of_testBit hblank hfrom, not_mem_of_testBit hblank hto⟩,
      not_mem_of_testBit hmoved hrests⟩
    unfold Nat.isValidChar
    omega
  next => cases h

/-! ### Characters -/

theorem toNat_ofNat {n : Nat} (h : n.isValidChar) :
  (Char.ofNat n).toNat = n
  := by
  have hn : Char.ofNat n = Char.ofNatAux n h := dif_pos h
  rw [hn]
  rfl

/-- A map of letters: in ASCII it only moves the letters from `letter` on, and it is given by a
table beyond. -/
structure IsCaseMap (runs : List CaseRun) (letter : Nat) (f : Char → Char) : Prop where
  settled : ∀ n < 128, f (f (Char.ofNat n)) = f (Char.ofNat n)
  kept : ∀ n < 128, n < letter ∨ letter + 25 < n → f (Char.ofNat n) = Char.ofNat n
  blank : ∀ n < 128, isBlank (f (Char.ofNat n)) = isBlank (Char.ofNat n)
  beyond : ∀ c, ¬ c.toNat < 128 → f c = moveBy runs c
  settles : settles runs letter = true

namespace IsCaseMap

variable {runs : List CaseRun} {letter : Nat} {f : Char → Char} (hf : IsCaseMap runs letter f)

include hf

/-- Beyond ASCII, a character stays as it is or the table sends it to a settled one. -/
theorem cases_of_beyond {c : Char} (hc : ¬ c.toNat < 128) :
  f c = c ∨ ∃ m, IsSettled (runs.flatMap (·.codes)) letter c.toNat m ∧ f c = Char.ofNat m
  := by
  rw [hf.beyond c hc, moveBy]
  cases h : runs.findSome? (·.target? c.toNat) with
  | none => exact .inl rfl
  | some m =>
    obtain ⟨r, hr, hm⟩ := List.exists_of_findSome?_eq_some h
    exact .inr ⟨m, isSettled_of_settles hf.settles hr hm, rfl⟩

theorem apply_of_isSettled {n m : Nat} (h : IsSettled (runs.flatMap (·.codes)) letter n m) :
  f (Char.ofNat m) = Char.ofNat m
  := by
  by_cases hascii : m < 128
  · exact hf.kept m hascii h.ascii
  · have hm := toNat_ofNat h.valid
    have hnone : runs.findSome? (·.target? m) = none := by
      rw [List.findSome?_eq_none_iff]
      intro r hr
      apply Option.eq_none_iff_forall_ne_some.mpr
      intro k hk
      apply h.rests
      exact List.mem_flatMap.mpr ⟨r, hr, (CaseRun.mem_codes_of_target? hk).1⟩
    rw [hf.beyond _ (by rwa [hm]), moveBy, hm, hnone]

theorem idempotent (c : Char) :
  f (f c) = f c
  := by
  by_cases hc : c.toNat < 128
  · have h := hf.settled c.toNat hc
    rwa [Char.ofNat_toNat] at h
  · rcases hf.cases_of_beyond hc with heq | ⟨m, hm, heq⟩
    · rw [heq, heq]
    · rw [heq]
      apply hf.apply_of_isSettled hm

theorem isBlank_apply (c : Char) :
  isBlank (f c) = isBlank c
  := by
  by_cases hc : c.toNat < 128
  · have h := hf.blank c.toNat hc
    rwa [Char.ofNat_toNat] at h
  · rcases hf.cases_of_beyond hc with heq | ⟨m, hm, heq⟩
    · rw [heq]
    · obtain ⟨hfrom, hto⟩ := hm.solid
      rw [← toNat_ofNat hm.valid, ← heq] at hto
      rw [Bool.eq_false_iff.mpr (mt mem_blankCodes_of_isBlank hfrom),
        Bool.eq_false_iff.mpr (mt mem_blankCodes_of_isBlank hto)]

end IsCaseMap

theorem isCaseMap_lowerChar :
  IsCaseMap lowerRuns 65 lowerChar
  where
  settled := by decide
  kept := by decide
  blank := by decide
  beyond c hc := by rw [lowerChar, if_neg hc]
  settles := by decide +kernel

theorem isCaseMap_upperChar :
  IsCaseMap upperRuns 97 upperChar
  where
  settled := by decide
  kept := by decide
  blank := by decide
  beyond c hc := by rw [upperChar, if_neg hc]
  settles := by decide +kernel

@[simp]
theorem lowerChar_lowerChar (c : Char) :
  lowerChar (lowerChar c) = lowerChar c
  := IsCaseMap.idempotent isCaseMap_lowerChar c

@[simp]
theorem isBlank_lowerChar (c : Char) :
  isBlank (lowerChar c) = isBlank c
  := IsCaseMap.isBlank_apply isCaseMap_lowerChar c

@[simp]
theorem upperChar_upperChar (c : Char) :
  upperChar (upperChar c) = upperChar c
  := IsCaseMap.idempotent isCaseMap_upperChar c

@[simp]
theorem isBlank_upperChar (c : Char) :
  isBlank (upperChar c) = isBlank c
  := IsCaseMap.isBlank_apply isCaseMap_upperChar c

/-- A plain letter in either case has the same capital letter. -/
theorem upperChar_toLower (c : Char) :
  upperChar c.toLower = upperChar c
  := by
  by_cases hc : c.toNat < 128
  · have hascii : ∀ n < 128, upperChar (Char.ofNat n).toLower = upperChar (Char.ofNat n) := by
      decide
    have h := hascii c.toNat hc
    rwa [Char.ofNat_toNat] at h
  · have hlower : c.toLower = c := by
      apply dif_neg
      rintro ⟨-, hle⟩
      have hcode : c.toNat ≤ 90 := hle
      omega
    rw [hlower]

/-! ### Texts -/

@[simp]
theorem lower_lower (s : String) :
  lower (lower s) = lower s
  := by
  rw [lower, lower, String.toList_ofList, List.map_map]
  congr 1
  apply List.map_congr_left
  intro c _
  apply lowerChar_lowerChar

/-- It does not matter whether a text is trimmed before or after it is turned into small letters. -/
theorem trim_lower (s : String) :
  trim (lower s) = lower (trim s)
  := by
  rw [trim, lower, lower, trim, String.toList_ofList, String.toList_ofList,
    trimChars_map isBlank_lowerChar]

end CqlGateway.Text

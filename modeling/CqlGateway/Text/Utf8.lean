/-!
# UTF-8 lengths and cuts

Text is measured in UTF-8 bytes where a limit is given in bytes. A text is cut only between
characters, so what is kept is the longest prefix within the limit.

Such a cut is found from the front, character by character, or from the limit back to the last byte
that begins a character. All other bytes continue one, so that a place in a text is a boundary
between characters as soon as the byte there begins a character.
-/

namespace CqlGateway.Text

def byteLength : List Char → Nat
  | [] => 0
  | c :: cs => c.utf8Size + byteLength cs

/-- The longest prefix of at most `limit` bytes. -/
def takeBytes : Nat → List Char → List Char
  | _, [] => []
  | limit, c :: cs =>
    if c.utf8Size ≤ limit then c :: takeBytes (limit - c.utf8Size) cs else []

def bytes (s : String) : List UInt8 :=
  s.toList.flatMap String.utf8EncodeChar

/-! ### Boundaries between characters -/

/-- Whether a byte begins a character. -/
def beginsChar (b : UInt8) : Bool :=
  b < 0x80 || 0xC0 ≤ b

theorem beginsChar_ofNat {n : Nat} (h : n < 256) :
  beginsChar (UInt8.ofNat n) = true ↔ n < 128 ∨ 192 ≤ n
  := by
  have hbyte : (UInt8.ofNat n).toNat = n := by
    rw [UInt8.toNat_ofNat']
    omega
  have hlow : (0x80 : UInt8).toNat = 128 := rfl
  have hhigh : (0xC0 : UInt8).toNat = 192 := rfl
  rw [beginsChar, Bool.or_eq_true, decide_eq_true_iff, decide_eq_true_iff, UInt8.lt_iff_toNat_lt,
    UInt8.le_iff_toNat_le, hbyte, hlow, hhigh]

/-- A byte that continues a character, with the last six bits of a number. -/
def continuation (n : Nat) : UInt8 :=
  UInt8.ofNat (n % 64 + 128)

theorem beginsChar_continuation (n : Nat) :
  ¬ beginsChar (continuation n) = true
  := by
  rw [continuation, beginsChar_ofNat (by omega)]
  omega

/-- A character has a byte that begins it, and behind it only bytes that continue it. -/
theorem utf8EncodeChar_eq_cons (c : Char) :
  ∃ (first : UInt8) (ns : List Nat), beginsChar first = true
    ∧ String.utf8EncodeChar c = first :: ns.map continuation
  := by
  let v := c.val.toNat
  have hencode : String.utf8EncodeChar c
      = if v ≤ 0x7F then [.ofNat v]
        else if v ≤ 0x7FF then .ofNat (v / 64 % 0x20 + 0xC0) :: [v].map continuation
        else if v ≤ 0xFFFF then
          .ofNat (v / 4096 % 0x10 + 0xE0) :: [v / 64, v].map continuation
        else
          .ofNat (v / 262144 % 0x08 + 0xF0) :: [v / 4096, v / 64, v].map continuation := rfl
  rw [hencode]
  split
  · refine ⟨_, [], ?_, rfl⟩
    rw [beginsChar_ofNat (by omega)]
    omega
  split
  · refine ⟨_, _, ?_, rfl⟩
    rw [beginsChar_ofNat (by omega)]
    omega
  split
  · refine ⟨_, _, ?_, rfl⟩
    rw [beginsChar_ofNat (by omega)]
    omega
  · refine ⟨_, _, ?_, rfl⟩
    rw [beginsChar_ofNat (by omega)]
    omega

theorem beginsChar_iff_isUTF8FirstByte {c : Char} {b : UInt8} (hb : b ∈ String.utf8EncodeChar c) :
  beginsChar b = true ↔ b.IsUTF8FirstByte
  := by
  obtain ⟨i, hi, rfl⟩ := List.mem_iff_getElem.mp hb
  rw [UInt8.isUTF8FirstByte_getElem_utf8EncodeChar]
  obtain ⟨first, ns, hfirst, heq⟩ := utf8EncodeChar_eq_cons c
  simp only [heq]
  cases i with
  | zero => exact iff_of_true hfirst rfl
  | succ i =>
      rw [List.getElem_cons_succ, List.getElem_map]
      exact iff_of_false (beginsChar_continuation _) (Nat.succ_ne_zero i)

theorem exists_mem_utf8EncodeChar (s : String) {p : String.Pos.Raw} (hp : p < s.rawEndPos) :
  ∃ c, s.getUTF8Byte p hp ∈ String.utf8EncodeChar c
  := by
  have hmem : s.getUTF8Byte p hp ∈ s.toByteArray.data.toList := List.getElem_mem _
  rw [← String.utf8Encode_toList, List.utf8Encode, List.data_toByteArray] at hmem
  obtain ⟨c, -, hc⟩ := List.mem_flatMap.mp hmem
  exact ⟨c, hc⟩

/-- A place within a text is a boundary if the byte there begins a character. -/
theorem isValid_iff_beginsChar {s : String} {p : String.Pos.Raw} (hp : p < s.rawEndPos) :
  p.IsValid s ↔ beginsChar (s.getUTF8Byte p hp) = true
  := by
  obtain ⟨c, hc⟩ := exists_mem_utf8EncodeChar s hp
  rw [beginsChar_iff_isUTF8FirstByte hc, String.Pos.Raw.isValid_iff_isUTF8FirstByte]
  constructor
  · rintro (rfl | ⟨_, h⟩)
    · exact absurd hp (Nat.lt_irrefl _)
    · exact h
  · intro h
    exact .inr ⟨hp, h⟩

/-- The last boundary at or before a place, found by going back from byte to byte. -/
def boundaryBefore (s : String) : (place : Nat) → place < s.utf8ByteSize → s.Pos
  | 0, _ => s.startPos
  | place + 1, h =>
    if hbegins : beginsChar (s.getUTF8Byte ⟨place + 1⟩ h) then
      ⟨⟨place + 1⟩, (isValid_iff_beginsChar h).mpr hbegins⟩
    else
      boundaryBefore s place (Nat.lt_of_succ_lt h)

end CqlGateway.Text

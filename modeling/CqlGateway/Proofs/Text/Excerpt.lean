import CqlGateway.Failure

/-!
# Excerpts

A text that could not be parsed is shown as a whole if it has at most 80 bytes. Otherwise the longest
start of it within that limit is shown, which ends between two characters: going back from a place
leads to the last boundary before it, and no character has more than four bytes.

Main statement: `Failure.parse_excerpt`.
-/

namespace CqlGateway

namespace Text

/-- The longest text within a number of bytes that another text begins with. -/
def IsLongestStart (s : String) (limit : Nat) (front : String) : Prop :=
  (∃ rest, s = front ++ rest) ∧ front.utf8ByteSize ≤ limit
    ∧ ∀ other rest, s = other ++ rest → other.utf8ByteSize ≤ limit →
      other.utf8ByteSize ≤ front.utf8ByteSize

variable {s front : String} {place limit : Nat}

theorem boundaryBefore_le (h : place < s.utf8ByteSize) :
  (boundaryBefore s place h).offset.byteIdx ≤ place
  := by
  induction place with
  | zero => apply Nat.le_refl
  | succ place ih =>
    rw [boundaryBefore]
    split
    · apply Nat.le_refl
    · apply Nat.le_succ_of_le
      apply ih

/-- Going back from a place passes over no boundary. -/
theorem le_boundaryBefore (h : place < s.utf8ByteSize) {p : String.Pos.Raw} (hvalid : p.IsValid s)
    (hp : p.byteIdx ≤ place) :
  p.byteIdx ≤ (boundaryBefore s place h).offset.byteIdx
  := by
  induction place with
  | zero => apply hp
  | succ place ih =>
    rw [boundaryBefore]
    split
    · apply hp
    next hbegins =>
      apply ih
      apply Nat.le_of_lt_succ
      apply Nat.lt_of_le_of_ne hp
      intro heq
      obtain rfl : p = ⟨place + 1⟩ := String.Pos.Raw.ext heq
      apply hbegins
      apply (isValid_iff_beginsChar h).mp hvalid

theorem isLongestStart_boundaryBefore (h : limit < s.utf8ByteSize) :
  IsLongestStart s limit (s.sliceTo (boundaryBefore s limit h)).copy
  := by
  have hsplits := (boundaryBefore s limit h).splits
  have hsize : (boundaryBefore s limit h).offset.byteIdx
      = (s.sliceTo (boundaryBefore s limit h)).copy.utf8ByteSize :=
    congrArg String.Pos.Raw.byteIdx hsplits.offset_eq_rawEndPos
  rw [IsLongestStart, ← hsize]
  and_intros
  · exact ⟨_, hsplits.eq_append⟩
  · apply boundaryBefore_le
  · intro other rest hother hle
    apply le_boundaryBefore h _ hle
    apply String.Pos.Raw.isValid_iff_exists_append.mpr ⟨other, rest, hother, rfl⟩

/-- The longest start of a longer text falls short of the limit by less than a character. -/
theorem IsLongestStart.lt_add_four (h : IsLongestStart s limit front)
    (hlimit : limit < s.utf8ByteSize) :
  limit < front.utf8ByteSize + 4
  := by
  obtain ⟨⟨rest, rfl⟩, hle, hlongest⟩ := h
  cases hrest : rest.toList with
  | nil =>
    rw [String.toList_eq_nil_iff.mp hrest, String.append_empty] at hlimit
    omega
  | cons c cs =>
    have hsplit : rest = String.singleton c ++ String.ofList cs := by
      rw [← String.ofList_cons, ← hrest, String.ofList_toList]
    have hnext := hlongest (front ++ String.singleton c) (String.ofList cs)
      (by rw [hsplit, String.append_assoc])
    rw [String.utf8ByteSize_append, String.utf8ByteSize_singleton] at hnext
    have hpos := c.utf8Size_pos
    have hfour := c.utf8Size_le_four
    omega

end Text

namespace Failure

/-- A text of at most 80 bytes that could not be parsed is quoted as a whole. Of a longer one the
longest start of at most 80 bytes is quoted, followed by dots; it has at least 77 bytes, and ends
within the text. -/
theorem parse_excerpt (cause : Failure) (input : String) :
  ∃ shown, (parse cause input).message
      = withoutMarks ("failed to parse " ++ Text.quote shown) ++ ": " ++ cause.message
    ∧ (input.utf8ByteSize ≤ 80 ∧ shown = input
      ∨ ∃ front, shown = front ++ "..." ∧ Text.IsLongestStart input 80 front
        ∧ 77 ≤ front.utf8ByteSize ∧ front.utf8ByteSize ≤ 80
        ∧ front.utf8ByteSize < input.utf8ByteSize)
  := by
  refine ⟨excerpt input, ?_, ?_⟩
  · have hcontext : "failed to parse " ++ Text.quote (excerpt input) ≠ "" := by simp
    rw [parse, message, message, if_neg hcontext]
  by_cases hlimit : input.utf8ByteSize ≤ excerptLimit
  · rw [excerpt, dif_pos hlimit]
    apply Or.inl ⟨hlimit, rfl⟩
  · rw [excerpt, dif_neg hlimit]
    have hlong := Nat.lt_of_not_le hlimit
    have hlongest := Text.isLongestStart_boundaryBefore hlong
    have hshort := hlongest.lt_add_four hlong
    have hle := hlongest.2.1
    have hlimit : excerptLimit = 80 := rfl
    refine .inr ⟨_, rfl, hlongest, ?_⟩
    omega

end Failure

end CqlGateway

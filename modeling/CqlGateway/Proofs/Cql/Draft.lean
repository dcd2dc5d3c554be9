import CqlGateway.Cql.Warning
import Mathlib.Data.List.Forall2

/-!
# What a draft yields

A draft yields a value when it is not turned down; the warnings are left aside. What a draft
yields that is put together from others is said by what those yield, so that a rendering that has
come about can be taken apart step by step. Two drafts match if both are turned down, or if they
raise the same warnings and come to values that are related.
-/

namespace CqlGateway.Draft

variable {α β : Type} {f : α → Draft β} {ws : List Warning}

/-- Whether a draft has come to the given value, with whatever warnings. -/
def Yields (d : Draft α) (a : α) : Prop :=
  ∃ ws, d = .ok (a, ws)

theorem Yields.unique {d : Draft α} {a b : α} (ha : d.Yields a) (hb : d.Yields b) :
  a = b
  := by
  obtain ⟨ws, rfl⟩ := ha
  obtain ⟨vs, h⟩ := hb
  cases h
  rfl

@[simp]
theorem yields_pure (a b : α) :
  (pure a : Draft α).Yields b ↔ b = a
  := by
  constructor
  · rintro ⟨ws, h⟩
    cases h
    rfl
  · rintro rfl
    exact ⟨[], rfl⟩

@[simp]
theorem yields_pure' (a b : α) :
  (Draft.pure a).Yields b ↔ b = a
  := yields_pure a b

/-- A draft that is continued comes to what its continuation comes to, with the warnings of both. -/
theorem bind_eq_ok {d : Draft α} {b : β} :
  d >>= f = .ok (b, ws) ↔ ∃ a us vs, d = .ok (a, us) ∧ f a = .ok (b, vs) ∧ ws = us ++ vs
  := by
  change Draft.bind d f = _ ↔ _
  constructor
  · intro h
    unfold Draft.bind at h
    split at h
    next => cases h
    next a us =>
      split at h
      next => cases h
      next c vs hf =>
        cases h
        exact ⟨a, us, vs, rfl, hf, rfl⟩
  · rintro ⟨a, us, vs, rfl, hf, rfl⟩
    simp only [Draft.bind, hf]
    rfl

/-- A draft that is continued is turned down where it stands, or where it is continued. -/
theorem bind_eq_error {d : Draft α} {r : Rejection} :
  d >>= f = .error r ↔ d = .error r ∨ ∃ a, d.Yields a ∧ f a = .error r
  := by
  change Draft.bind d f = _ ↔ _
  constructor
  · intro h
    unfold Draft.bind at h
    split at h
    next =>
      cases h
      exact .inl rfl
    next a us =>
      split at h
      next e hf =>
        cases h
        exact .inr ⟨a, ⟨us, rfl⟩, hf⟩
      next => cases h
  · rintro (rfl | ⟨a, ⟨us, rfl⟩, hf⟩)
    · rfl
    · simp only [Draft.bind, hf]
      rfl

@[simp]
theorem yields_bind (d : Draft α) (f : α → Draft β) (b : β) :
  (d >>= f).Yields b ↔ ∃ a, d.Yields a ∧ (f a).Yields b
  := by
  constructor
  · rintro ⟨ws, h⟩
    obtain ⟨a, us, vs, hd, hf, -⟩ := bind_eq_ok.mp h
    exact ⟨a, ⟨us, hd⟩, vs, hf⟩
  · rintro ⟨a, ⟨us, hd⟩, vs, hf⟩
    exact ⟨us ++ vs, bind_eq_ok.mpr ⟨a, us, vs, hd, hf, rfl⟩⟩

@[simp]
theorem yields_map (f : α → β) (d : Draft α) (b : β) :
  (f <$> d).Yields b ↔ ∃ a, d.Yields a ∧ b = f a
  := by
  simp only [Functor.map, Function.comp_def]
  rw [show Draft.bind d (fun a => Draft.pure (f a)) = (d >>= fun a => pure (f a)) from rfl]
  simp

@[simp]
theorem yields_warn (w : Warning) (u : Unit) :
  (warn w).Yields u
  := ⟨[w], rfl⟩

@[simp]
theorem yields_warnIf (condition : Bool) (w : Warning) (u : Unit) :
  (warnIf condition w).Yields u
  := by
  cases condition
  · exact ⟨[], rfl⟩
  · exact ⟨[w], rfl⟩

@[simp]
theorem yields_reject (r : Rejection) (a : α) :
  ¬ (reject r : Draft α).Yields a
  := by
  rintro ⟨ws, h⟩
  cases h

@[simp]
theorem yields_rejectIf (condition : Bool) (r : Rejection) (u : Unit) :
  (rejectIf condition r).Yields u ↔ condition = false
  := by
  cases condition <;> simp [rejectIf]

@[simp]
theorem yields_ofExcept (r : Except Rejection α) (a : α) :
  (ofExcept r).Yields a ↔ r = .ok a
  := by
  cases r with
  | error e =>
    constructor
    · rintro ⟨ws, h⟩
      cases h
    · intro h
      cases h
  | ok b =>
    apply Iff.trans (yields_pure b a)
    rw [Except.ok.injEq]
    apply eq_comm

@[simp]
theorem yields_each (f : α → Draft β) (as : List α) (bs : List β) :
  (each f as).Yields bs ↔ List.Forall₂ (fun a b => (f a).Yields b) as bs
  := by
  induction as generalizing bs with
  | nil => simp [each]
  | cons a as ih =>
    simp only [each, yields_bind, yields_pure, List.forall₂_cons_left_iff, ih]
    constructor
    · rintro ⟨b, hb, cs, hcs, rfl⟩
      exact ⟨b, cs, hb, hcs, rfl⟩
    · rintro ⟨b, cs, hb, hcs, rfl⟩
      exact ⟨b, hb, cs, hcs, rfl⟩

/-- What holds of every value that one of the drafts yields holds of all of them. -/
theorem forall_of_each {P : β → Prop} {as : List α} {bs : List β}
    (has : ∀ a ∈ as, ∀ b, (f a).Yields b → P b) (h : (each f as).Yields bs) :
  ∀ b ∈ bs, P b
  := by
  rw [yields_each] at h
  induction h with
  | nil =>
    intro b hb
    cases hb
  | cons hhead _ ih =>
    rw [List.forall_mem_cons] at has ⊢
    exact ⟨has.1 _ hhead, ih has.2⟩

theorem ne_nil_of_each {as : List α} {bs : List β} (h : (each f as).Yields bs) (has : as ≠ []) :
  bs ≠ []
  := by
  rw [yields_each] at h
  cases h with
  | nil => cases has rfl
  | cons => apply List.cons_ne_nil

theorem rendering_eq_ok {d : Draft String} {r : Rendering} (h : d.rendering = .ok r) :
  d.Yields r.text
  := by
  unfold rendering at h
  split at h
  · cases h
    exact ⟨_, rfl⟩
  · cases h

theorem Yields.rendering {d : Draft String} {text : String} (h : d.Yields text) :
  ∃ r, d.rendering = .ok r ∧ r.text = text
  := by
  obtain ⟨ws, rfl⟩ := h
  exact ⟨_, rfl, rfl⟩

/-! ### Drafts side by side -/

/-- Two drafts are both turned down, or they raise the same warnings and come to related values. -/
inductive Matches (R : α → β → Prop) : Draft α → Draft β → Prop
  | rejected (r r' : Rejection) : Matches R (reject r) (reject r')
  | accepted {a : α} {b : β} (ws : List Warning) (h : R a b) : Matches R (.ok (a, ws)) (.ok (b, ws))

namespace Matches

variable {α' β' : Type} {R : α → α' → Prop} {S : β → β' → Prop} {d : Draft α} {d' : Draft α'}

theorem pure {a : α} {b : α'} (h : R a b) :
  Matches R (Pure.pure a) (Pure.pure b)
  := .accepted [] h

theorem refl {R : α → α → Prop} (hR : ∀ a, R a a) (d : Draft α) :
  Matches R d d
  := by
  cases d with
  | error r => apply rejected
  | ok p => apply accepted p.2 (hR p.1)

theorem same (d : Draft α) :
  Matches Eq d d
  := refl (fun _ => rfl) d

theorem bind {g : α' → Draft β'} (h : Matches R d d') (hf : ∀ a b, R a b → Matches S (f a) (g b)) :
  Matches S (d >>= f) (d' >>= g)
  := by
  cases h with
  | rejected r r' => apply rejected
  | @accepted a b ws h =>
    have hnext := hf a b h
    change Matches S (Draft.bind _ f) (Draft.bind _ g)
    dsimp only [Draft.bind]
    generalize f a = next at hnext ⊢
    generalize g b = next' at hnext ⊢
    cases hnext with
    | rejected r r' => apply rejected
    | accepted vs h => apply accepted (ws ++ vs) h

/-- The same draft stands in front of both, or of neither. -/
theorem ite_bind {γ : Type} {p : Prop} [Decidable p] (front : Draft γ) (h : Matches R d d') :
  Matches R (if p then front >>= fun _ => d else d) (if p then front >>= fun _ => d' else d')
  := by
  split
  · apply (same front).bind
    exact fun _ _ _ => h
  · apply h

theorem exists_right (h : Matches R d d') {a : α} (hd : d = .ok (a, ws)) :
  ∃ b, d' = .ok (b, ws) ∧ R a b
  := by
  cases h with
  | rejected => cases hd
  | accepted vs h =>
    cases hd
    exact ⟨_, rfl, h⟩

theorem exists_left (h : Matches R d d') {b : α'} (hd : d' = .ok (b, ws)) :
  ∃ a, d = .ok (a, ws) ∧ R a b
  := by
  cases h with
  | rejected => cases hd
  | accepted vs h =>
    cases hd
    exact ⟨_, rfl, h⟩

end Matches

theorem matches_ofExcept (r : Except Rejection α) :
  Matches (fun a b => a = b ∧ r = .ok a) (ofExcept r) (ofExcept r)
  := by
  cases r with
  | error e => apply Matches.rejected
  | ok a => apply Matches.pure ⟨rfl, rfl⟩

/-! ### Properties that are closed under drafting -/

/-- A property of drafts that holds of a value, and of two drafts one after the other if it holds of
both. -/
structure Closed (P : ∀ α : Type, Draft α → Prop) : Prop where
  pure {α : Type} (a : α) : P α (Pure.pure a)
  bind {α β : Type} {d : Draft α} {f : α → Draft β} (hd : P α d)
    (hf : ∀ a, d.Yields a → P β (f a)) : P β (d >>= f)

namespace Closed

variable {P : ∀ α : Type, Draft α → Prop} (hP : Closed P)

include hP

theorem bind_pure {d : Draft α} (f : α → β) (hd : P α d) :
  P β (d >>= fun a => Pure.pure (f a))
  := hP.bind hd fun a _ => hP.pure (f a)

theorem each {as : List α} (h : ∀ a ∈ as, P β (f a)) :
  P (List β) (each f as)
  := by
  induction as with
  | nil => apply hP.pure
  | cons a as ih =>
    rw [List.forall_mem_cons] at h
    apply hP.bind h.1
    intro b _
    apply hP.bind_pure _ (ih h.2)

theorem warnIf {w : Warning} (condition : Bool) (h : P Unit (warn w)) :
  P Unit (warnIf condition w)
  := by
  cases condition with
  | false => apply hP.pure
  | true => apply h

end Closed

end CqlGateway.Draft

import CqlGateway.Proofs.Execution.Agreement

/-!
# Confinement to an operation

A statement has an operation, and the store runs the statements that the text of its rendering is
split into. Each of them begins with the verb of the operation if every text that the rendering
copies is closed.
-/

namespace CqlGateway

open Execution

variable {history : List StoreCall} {store : Store} {call : StoreCall}

/-- Every statement of a call begins with a verb. -/
def Execution.StoreCall.BeginsWith (verb : String) : StoreCall → Prop
  | .exec s => verb.toList <+: s.toList
  | .batch ss => ∀ s ∈ ss, verb.toList <+: s.toList

/-! ### Calls of an execution -/

theorem calls_runAll {total number : Nat} {o : Outcome} {ss : List String}
    (h : call ∈ (runAll store history total number o ss).calls) :
  call ∈ o.calls ∨ ∃ s ∈ ss, call = .exec s
  := by
  induction ss generalizing number o with
  | nil => exact .inl h
  | cons s ss ih =>
    have hcalled (h : call ∈ o.calls ++ [StoreCall.exec s]) :
        call ∈ o.calls ∨ ∃ t ∈ s :: ss, call = .exec t := by
      rw [List.mem_append, List.mem_singleton] at h
      rcases h with h | rfl
      · exact .inl h
      · exact .inr ⟨s, List.mem_cons_self, rfl⟩
    simp only [runAll] at h
    split at h
    · apply hcalled h
    · apply hcalled h
    · rcases ih h with h | ⟨t, ht, rfl⟩
      · apply hcalled h
      · exact .inr ⟨t, List.mem_cons_of_mem s ht, rfl⟩

theorem calls_runStatements {ss : List String} (h : call ∈ (runStatements store history ss).calls) :
  ∃ s ∈ ss, call = .exec s
  := by
  unfold runStatements at h
  split at h
  · cases h
  · rcases calls_runAll h with h | h
    · cases h
    · apply h
  · rcases calls_runAll h with h | h
    · cases h
    · apply h

theorem calls_runBatch (store : Store) (history : List StoreCall) (ss : List String) :
  (runBatch store history ss).calls = [.batch ss]
  := by
  unfold runBatch
  split <;> rfl

/-- An execution hands over the statements of its text, or the statements of the batch that the
text is. -/
theorem calls_execute {text : String} (h : call ∈ (execute store history text).calls) :
  (batchOf? (statementChars text.toList) = none
      ∧ ∃ cs ∈ statementChars text.toList, call = .exec (String.ofList cs))
    ∨ ∃ css, batchOf? (statementChars text.toList) = some (.ok css)
      ∧ call = .batch (css.map String.ofList)
  := by
  unfold execute batch? at h
  cases hbatch : batchOf? (statementChars text.toList) with
  | none =>
    rw [hbatch] at h
    obtain ⟨s, hs, rfl⟩ := calls_runStatements h
    obtain ⟨cs, hcs, rfl⟩ := List.mem_map.mp hs
    exact .inl ⟨rfl, cs, hcs, rfl⟩
  | some found =>
    rw [hbatch] at h
    cases found with
    | error fault => cases h
    | ok css =>
      simp only [Option.map_some, Except.map, calls_runBatch, List.mem_singleton] at h
      exact .inr ⟨css, rfl, h⟩

/-- If the texts that a rendering copies are closed, every statement that is handed over on its
execution begins with the verb of the operation. -/
theorem beginsWith_of_closed {options : RenderingOptions} {s : Statement} {text : String}
    (hclosed : ∀ t ∈ s.copiedTexts options, Closed true t.toList) (h : s.RendersAs options text) :
  ∀ call ∈ (execute store history text).calls, call.BeginsWith s.operation.verb
  := by
  obtain ⟨parts, -, hne, hclauses, rfl⟩ := Statement.exists_parts hclosed h
  have hreads : ∃ statements, List.Forall₂ Reads (parts.map String.toList) statements
      ∧ ∀ cs ∈ statements, s.operation.verb.toList <+: cs := by
    clear hne h
    induction parts with
    | nil => exact ⟨[], .nil, by simp⟩
    | cons part parts ih =>
      rw [List.forall_mem_cons] at hclauses
      obtain ⟨statement, hreads, hverb⟩ := hclauses.1.reads_verb fun _ h => h
      obtain ⟨statements, hrest, hverbs⟩ := ih hclauses.2
      exact ⟨statement :: statements, .cons hreads hrest, by simpa using ⟨hverb, hverbs⟩⟩
  obtain ⟨statements, hreads, hverbs⟩ := hreads
  intro call hcall
  rcases s.textOf_cases hne with ⟨htext, -⟩ | ⟨hop, htext, -⟩
  · have hsplit := statementChars_sequenceCql hreads hne
    have hbatch : batchOf? statements = none := by
      cases statements with
      | nil => rfl
      | cons first rest => apply batchOf?_eq_none (hverbs first List.mem_cons_self)
    rw [htext] at hcall
    rcases calls_execute hcall with ⟨-, cs, hcs, rfl⟩ | ⟨css, hcss, -⟩
    · rw [hsplit] at hcs
      simpa [StoreCall.BeginsWith] using hverbs cs hcs
    · rw [hsplit, hbatch] at hcss
      cases hcss
  · have hbatch := batchOf?_batchCql hreads hne fun cs hcs => by
      rw [hop] at hverbs
      apply isApply_insert (hverbs cs hcs)
    rw [htext] at hcall
    rcases calls_execute hcall with ⟨hnone, -⟩ | ⟨css, hcss, rfl⟩
    · rw [hbatch] at hnone
      cases hnone
    · rw [hbatch] at hcss
      cases hcss
      simpa [StoreCall.BeginsWith] using hverbs

end CqlGateway

import CqlGateway.Proofs.Catalog.Alteration

/-!
# Migrations lead from one catalog to the other

The statements of a migration, replayed on the schema that the script of the old catalog builds,
lead to the schema that the script of the new catalog builds, and each of them can be carried out
where it stands. The script of a catalog is treated as the migration from the empty catalog.

Main statement: `Script.run?_migration_agrees`.
-/

namespace CqlGateway

open Catalog (Tables)

namespace Catalog.Tables

variable {old new : Tables} {space : String}
  {view : String → Option TableSchema} {name : String}

/-- Two catalogs between which a migration leads: both are sound, a table that is in both keeps its
key, a column that is in both versions of a table keeps its type in the store, and no two tables of
the catalogs have an index of the same name. -/
structure Migratable (old new : Tables) : Prop where
  old_sound : old.IsSound
  new_sound : new.IsSound
  key_kept : ∀ p ∈ old, ∀ q ∈ new, p.1 = q.1 → p.2.primaryKey = q.2.primaryKey
  type_kept : ∀ p ∈ old, ∀ q ∈ new, p.1 = q.1 →
    ∀ a ∈ p.2.columns, ∀ b ∈ q.2.columns, a.name = b.name → a.storedType = b.storedType
  index_owner : ∀ p ∈ old ++ new, ∀ q ∈ old ++ new,
    ∀ i ∈ p.2.secondaryIndexes, ∀ j ∈ q.2.secondaryIndexes, i.name = j.name → p.1 = q.1

instance (old new : Tables) : Decidable (old.Migratable new) :=
  decidable_of_iff
    (old.IsSound ∧ new.IsSound
      ∧ (∀ p ∈ old, ∀ q ∈ new, p.1 = q.1 → p.2.primaryKey = q.2.primaryKey)
      ∧ (∀ p ∈ old, ∀ q ∈ new, p.1 = q.1 →
        ∀ a ∈ p.2.columns, ∀ b ∈ q.2.columns, a.name = b.name → a.storedType = b.storedType)
      ∧ ∀ p ∈ old ++ new, ∀ q ∈ old ++ new,
        ∀ i ∈ p.2.secondaryIndexes, ∀ j ∈ q.2.secondaryIndexes, i.name = j.name → p.1 = q.1)
    ⟨fun ⟨a, b, c, d, e⟩ => ⟨a, b, c, d, e⟩, fun ⟨a, b, c, d, e⟩ => ⟨a, b, c, d, e⟩⟩

/-- What the difference at a name calls for. -/
def definitionsBetween (old new : Tables) (space name : String) : List Definition :=
  match TableDifference.at? old new name with
  | some d => d.definitions space
  | none => []

theorem flatMap_compare (old new : Tables) (space : String) :
  (old.compare new).flatMap (·.definitions space)
    = (Text.sortOnce (old.names ++ new.names)).flatMap (old.definitionsBetween new space)
  := by
  rw [compare]
  induction Text.sortOnce (old.names ++ new.names) with
  | nil => rfl
  | cons name names ih =>
    rw [List.filterMap_cons, List.flatMap_cons, definitionsBetween]
    cases TableDifference.at? old new name with
    | none => rw [ih, List.nil_append]
    | some d => rw [List.flatMap_cons, ih]

theorem isSound_of_mem_compare (ho : old.IsSound) (hn : new.IsSound) :
  ∀ d ∈ old.compare new, d.IsSound
  := by
  intro d hd
  obtain ⟨name, -, hat⟩ := List.mem_filterMap.mp hd
  unfold TableDifference.at? at hat
  split at hat
  next => cases hat
  next n _ hget =>
    cases hat
    exact hn.sound _ (mem_of_get? hget)
  next o hget _ =>
    cases hat
    have hname : Cql.isLowerName o.name = true := (ho.sound _ (mem_of_get? hget)).name_lower
    rwa [ho.keyed _ (mem_of_get? hget)] at hname
  next o n hold hnew =>
    dsimp only at hat
    split at hat
    next => cases hat
    next =>
      cases hat
      exact ⟨ho.sound _ (mem_of_get? hold), hn.sound _ (mem_of_get? hnew), rfl⟩

theorem definitions_of_isEmpty {a : TableAlteration} (h : a.isEmpty = true) :
  a.definitions space = []
  := by
  simp only [TableAlteration.isEmpty, Bool.and_eq_true, List.isEmpty_iff] at h
  rw [TableAlteration.definitions, h.1.1.2, h.1.2]
  rfl

/-! ### One table -/

/-- A family of tables each of which is as in one of two catalogs. -/
def Mixes (old new : Tables) (view : String → Option TableSchema) : Prop :=
  ∀ name, view name = old.get? name ∨ view name = new.get? name

theorem Mixes.mem (h : Mixes old new view) {t : TableSchema} (ht : view name = some t) :
  (name, t) ∈ old ++ new
  := by
  rw [List.mem_append]
  rcases h name with hview | hview
  · exact .inl (mem_of_get? (hview.symm.trans ht))
  · exact .inr (mem_of_get? (hview.symm.trans ht))

theorem Mixes.update (h : Mixes old new view) (name : String) :
  Mixes old new (Function.update view name (new.get? name))
  := by
  intro other
  by_cases hother : other = name
  · subst hother
    exact .inr (Function.update_self _ _ _)
  · rw [Function.update_of_ne hother]
    exact h other

theorem Migratable.indexesApart (hm : old.Migratable new) (hview : Mixes old new view)
    {t : TableSchema} (ht : (name, t) ∈ old ++ new) :
  Schema.IndexesApart view t
  := by
  have hname : t.name = name := by
    rcases List.mem_append.mp ht with ht | ht
    · exact hm.old_sound.keyed _ ht
    · exact hm.new_sound.keyed _ ht
  intro other u hu hne i hi j hj hij
  apply hne
  rw [hname]
  exact (hm.index_owner _ ht _ (hview.mem hu) i hi j hj hij).symm

/-- What is called for at one name is carried out and brings that table in line. -/
theorem Migratable.step (hm : old.Migratable new) (hview : Mixes old new view)
    (hname : view name = old.get? name) {s : Schema} (h : s.Describes space view) :
  ∃ s', s.replay? (old.definitionsBetween new space name) = some s'
    ∧ s'.Describes space (Function.update view name (new.get? name))
  := by
  unfold definitionsBetween TableDifference.at?
  cases hold : old.get? name with
  | none =>
    cases hnew : new.get? name with
    | none =>
      refine ⟨s, rfl, ?_⟩
      rwa [← hold, ← hname, Function.update_eq_self]
    | some n =>
      have hmem := mem_of_get? hnew
      have hkeyed : n.name = name := hm.new_sound.keyed _ hmem
      have hcreate := h.create (hm.new_sound.sound _ hmem) (by rw [hkeyed, hname, hold])
        (hm.indexesApart hview (List.mem_append_right _ hmem))
      rwa [hkeyed] at hcreate
  | some o =>
    have hmem := mem_of_get? hold
    have hkeyed : o.name = name := hm.old_sound.keyed _ hmem
    cases hnew : new.get? name with
    | none => exact h.drop name
    | some n =>
      have hmem' := mem_of_get? hnew
      have hkeyed' : n.name = name := hm.new_sound.keyed _ hmem'
      have ha : Schema.Alterable view o n := {
        old_sound := hm.old_sound.sound _ hmem
        new_sound := hm.new_sound.sound _ hmem'
        name_eq := hkeyed.trans hkeyed'.symm
        view_eq := by rw [hkeyed', hname, hold]
        key_eq := hm.key_kept _ hmem _ hmem' rfl
        types_eq := hm.type_kept _ hmem _ hmem' rfl
        old_apart := hm.indexesApart hview (List.mem_append_left _ hmem)
        new_apart := hm.indexesApart hview (List.mem_append_right _ hmem') }
      have hreplay := Schema.replay?_alteration h ha
      have hdescribes := h.alter ha
      rw [hkeyed'] at hdescribes
      refine ⟨_, ?_, hdescribes⟩
      cases hempty : (TableAlteration.between o n).isEmpty with
      | true =>
        rw [definitions_of_isEmpty hempty] at hreplay
        simpa [hempty] using hreplay
      | false => simpa [hempty, TableDifference.definitions] using hreplay

/-! ### All tables -/

/-- What is called for at some names is carried out in order and brings these tables in line. -/
theorem Migratable.steps (hm : old.Migratable new) {names : List String} (hnodup : names.Nodup)
    (hview : Mixes old new view) (hnames : ∀ name ∈ names, view name = old.get? name) {s : Schema}
    (h : s.Describes space view) :
  ∃ s' view', s.replay? (names.flatMap (old.definitionsBetween new space)) = some s'
    ∧ s'.Describes space view' ∧ (∀ name ∈ names, view' name = new.get? name)
    ∧ ∀ name ∉ names, view' name = view name
  := by
  induction names generalizing s view with
  | nil => exact ⟨s, view, rfl, h, by simp, by simp⟩
  | cons name names ih =>
    rw [List.nodup_cons] at hnodup
    rw [List.forall_mem_cons] at hnames
    obtain ⟨s₁, hstep, h₁⟩ := hm.step hview hnames.1 h
    have hrest : ∀ other ∈ names,
        Function.update view name (new.get? name) other = old.get? other := by
      intro other hother
      rw [Function.update_of_ne (ne_of_mem_of_not_mem hother hnodup.1)]
      exact hnames.2 other hother
    obtain ⟨s₂, view', hsteps, h₂, hin, hout⟩ := ih hnodup.2 (hview.update name) hrest h₁
    refine ⟨s₂, view', ?_, h₂, ?_, ?_⟩
    · rw [List.flatMap_cons, Schema.replay?_append, hstep, Option.bind_some, hsteps]
    · rw [List.forall_mem_cons]
      refine ⟨?_, hin⟩
      rw [hout name hnodup.1, Function.update_self]
    · intro other hother
      rw [List.mem_cons, not_or] at hother
      rw [hout other hother.2, Function.update_of_ne hother.1]

/-- What is called for at all names of two catalogs leads from the one to the other. -/
theorem Migratable.replay? (hm : old.Migratable new) {names : List String} (hnodup : names.Nodup)
    (hcover : ∀ name, name ∈ old.names ∨ name ∈ new.names → name ∈ names) {s : Schema}
    (h : s.Describes space old.get?) :
  ∃ s', s.replay? (names.flatMap (old.definitionsBetween new space)) = some s'
    ∧ s'.Describes space new.get?
  := by
  obtain ⟨s', view', hreplay, hdescribes, hin, hout⟩ :=
    hm.steps hnodup (fun _ => .inl rfl) (fun _ _ => rfl) h
  refine ⟨s', hreplay, ?_⟩
  have hview : view' = new.get? := by
    funext name
    by_cases hname : name ∈ names
    · exact hin name hname
    · have hold : old.get? name = none := by
        rw [← Option.not_isSome_iff_eq_none, get?_isSome_iff]
        exact fun hmem => hname (hcover name (.inl hmem))
      have hnew : new.get? name = none := by
        rw [← Option.not_isSome_iff_eq_none, get?_isSome_iff]
        exact fun hmem => hname (hcover name (.inr hmem))
      rw [hout name hname, hold, hnew]
  rwa [hview] at hdescribes

/-! ### The script of a catalog as a migration from nothing -/

/-- There is a migration from the empty catalog to a sound one in which no two tables have an index
of the same name. -/
theorem migratable_nil {c : Tables} (hc : c.IsSound)
    (howner : ∀ p ∈ c, ∀ q ∈ c, ∀ i ∈ p.2.secondaryIndexes, ∀ j ∈ q.2.secondaryIndexes,
      i.name = j.name → p.1 = q.1) :
  Migratable [] c
  where
  old_sound := ⟨List.nodup_nil, by simp, by simp⟩
  new_sound := hc
  key_kept := by simp
  type_kept := by simp
  index_owner := howner

theorem Migratable.nil_old (hm : old.Migratable new) :
  Migratable [] old
  := by
  apply migratable_nil hm.old_sound
  intro p hp q hq
  exact hm.index_owner p (List.mem_append_left _ hp) q (List.mem_append_left _ hq)

theorem Migratable.nil_new (hm : old.Migratable new) :
  Migratable [] new
  := by
  apply migratable_nil hm.new_sound
  intro p hp q hq
  exact hm.index_owner p (List.mem_append_right _ hp) q (List.mem_append_right _ hq)

theorem definitionsAt_eq (c : Tables) (space : String) :
  c.definitionsAt space = definitionsBetween [] c space
  := by
  funext name
  unfold definitionsAt definitionsBetween TableDifference.at?
  cases c.get? name <;> rfl

theorem replay?_spaceDefinitions (s : Schema) (keyspace : String) :
  s.replay? (Script.spaceDefinitions keyspace) = some s
  := by
  unfold Script.spaceDefinitions
  split <;> rfl

/-- The script of a catalog builds a schema that describes the catalog. -/
theorem Migratable.run?_ofCatalog {c : Tables} (hc : Migratable [] c)
    {source : TableSource} (hsource : source.Gives c) (options : RenderingOptions)
    (keyspace : String) :
  ∃ script s, Script.ofCatalog options keyspace source [] = .ok script
    ∧ Schema.run? {} script.statements = some s
    ∧ s.Describes (Cql.storedSpace keyspace) c.get?
  := by
  obtain ⟨script, names, hscript, hperm, hdefines⟩ :=
    Script.ofCatalog_defines options hc.new_sound hsource keyspace
  have hcover : ∀ name, name ∈ Tables.names [] ∨ name ∈ c.names → name ∈ names := by
    rintro name (hname | hname)
    · cases hname
    · exact hperm.mem_iff.mpr hname
  obtain ⟨s, hreplay, hdescribes⟩ := hc.replay? (hperm.nodup_iff.mpr hc.new_sound.names_nodup)
    hcover (Schema.describes_empty (Cql.storedSpace keyspace))
  refine ⟨script, s, hscript, ?_, hdescribes⟩
  rw [Script.Defines, definitionsAt_eq] at hdefines
  rw [Schema.run?, hdefines, Option.bind_some, Schema.replay?_append, replay?_spaceDefinitions,
    Option.bind_some, hreplay]

end Catalog.Tables

/-! ### The migration -/

/-- The statements of a migration can be carried out in order on the schema that the script of the
old catalog builds, and lead to the schema that the script of the new catalog builds. -/
theorem Script.run?_migration_agrees
    {old new : Tables} (hm : old.Migratable new) {oldSource newSource : TableSource}
    (hold : oldSource.Gives old) (hnew : newSource.Gives new) (options : RenderingOptions)
    (keyspace : String) :
  ∃ oldScript newScript oldSchema newSchema migrated,
    Script.ofCatalog options keyspace oldSource [] = .ok oldScript
    ∧ Schema.run? {} oldScript.statements = some oldSchema
    ∧ Script.ofCatalog options keyspace newSource [] = .ok newScript
    ∧ Schema.run? {} newScript.statements = some newSchema
    ∧ oldSchema.run? (Script.migration options keyspace (old.compare new)).statements
      = some migrated
    ∧ migrated.Agrees newSchema
  := by
  obtain ⟨oldScript, oldSchema, hoscript, horun, hodescribes⟩ :=
    hm.nil_old.run?_ofCatalog hold options keyspace
  obtain ⟨newScript, newSchema, hnscript, hnrun, hndescribes⟩ :=
    hm.nil_new.run?_ofCatalog hnew options keyspace
  obtain ⟨migrated, hreplay, hdescribes⟩ := hm.replay?
    (Text.nodup_sortOnce (old.names ++ new.names))
    (fun name hname => Text.mem_sortOnce.mpr (List.mem_append.mpr hname)) hodescribes
  refine ⟨oldScript, newScript, oldSchema, newSchema, migrated, hoscript, horun, hnscript, hnrun,
    ?_, hdescribes.agrees hndescribes⟩
  have hdefines := Script.migration_defines options keyspace
    (Tables.isSound_of_mem_compare hm.old_sound hm.new_sound)
  rw [Script.Defines, Tables.flatMap_compare] at hdefines
  rw [Schema.run?, hdefines, Option.bind_some, hreplay]

/-- A catalog as it is read from memory. -/
def Catalog.Tables.source (c : Tables) : TableSource where
  names := .ok c.names
  table := fun name =>
    match c.get? name with
    | some t => .ok t
    | none => .error (.plain ("no table " ++ name))

theorem Catalog.Tables.gives_source (c : Tables) :
  c.source.Gives c
  where
  names := ⟨c.names, rfl, .refl _⟩
  table := by
    intro name t ht
    simp only [source, ht]

/-- A shop with orders that are found by customer. -/
def shopCatalog : Tables :=
  [("orders",
    { name := "orders"
      columns := [{ name := "id", sourceType := "INT" }, { name := "customer", sourceType := "TEXT" },
        { name := "state", sourceType := "VARCHAR(8)" }]
      indexes := [{ name := "primary", columns := ["id"], primary := true },
        { name := "orders_customer", columns := ["customer"] },
        { name := "orders_state", columns := ["state"] }] }),
   ("drafts",
    { name := "drafts"
      columns := [{ name := "id", sourceType := "INT", primaryKey := true }] })]

/-- The same shop without drafts, with returns, and with orders that are found by date, a column
whose name is a reserved word among them. -/
def laterShopCatalog : Tables :=
  [("orders",
    { name := "orders"
      columns := [{ name := "id", sourceType := "INT" }, { name := "customer", sourceType := "VARCHAR(40)" },
        { name := "order", sourceType := "DATE" }, { name := "tags", sourceType := "TEXT[]" }]
      indexes := [{ name := "primary", columns := ["id"], primary := true },
        { name := "orders_customer", columns := ["customer"], unique := true },
        { name := "orders_date", columns := ["order", "id"] }] }),
   ("returns",
    { name := "returns"
      columns := [{ name := "id", sourceType := "INT", primaryKey := true },
        { name := "reason", sourceType := "TEXT" }]
      indexes := [{ name := "returns_reason", columns := ["reason"] }] })]

theorem Script.run?_migration_shop :
  shopCatalog.Migratable laterShopCatalog
    ∧ ∃ oldScript newScript oldSchema newSchema migrated,
      Script.ofCatalog {} "shop" shopCatalog.source [] = .ok oldScript
      ∧ Schema.run? {} oldScript.statements = some oldSchema
      ∧ Script.ofCatalog {} "shop" laterShopCatalog.source [] = .ok newScript
      ∧ Schema.run? {} newScript.statements = some newSchema
      ∧ oldSchema.run? (Script.migration {} "shop" (shopCatalog.compare laterShopCatalog)).statements
        = some migrated
      ∧ migrated.Agrees newSchema
  := by
  have hm : shopCatalog.Migratable laterShopCatalog := by decide
  exact ⟨hm, Script.run?_migration_agrees hm shopCatalog.gives_source laterShopCatalog.gives_source
    {} "shop"⟩

end CqlGateway

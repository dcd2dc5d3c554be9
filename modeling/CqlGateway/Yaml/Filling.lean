import CqlGateway.Time.Duration
import CqlGateway.Yaml.Basic

/-!
# Filling slots from YAML

A document fills the slots of a record. A slot keeps what it holds where nothing is written; a value
of the wrong kind is a fault.

A mapping fills a record by the names of its entries. The entry called `<<` stands for the entries
of another mapping, or of several ones of which the first counts; they fill the slots that the
mapping itself does not name. A key that is written twice in one mapping is a fault.
-/

namespace CqlGateway.Yaml

/-! ### Scalars -/

/-- What a scalar of a document stands for. -/
def value? : Yaml → Option Value
  | .scalar tag quoted text => scalarValue? tag quoted text
  | .reference _ (some target) => target.value?
  | _ => none

/-- The text of a scalar of a document, which is absent if the scalar stands for nothing. -/
def text? : Yaml → Option (Option String)
  | .scalar tag quoted text =>
    (scalarValue? tag quoted text).map fun v =>
      match v with
      | .null => none
      | _ => some text
  | .reference _ (some target) => target.text?
  | _ => none

def fillText (old : String) (v : Yaml) : Option String :=
  v.text?.map (·.getD old)

/-- The whole number that a floating-point number is cut down to. What does not fit a word becomes
the smallest one, unless it is above all words. -/
def truncated? (x : Binary64) : Option Int :=
  let (num, den) := x.fraction
  if !x.negative && Integer64.bound * den < num then none
  else if Integer64.bound ≤ num / den then some (-(Integer64.bound : Int))
  else some (if x.negative then -(num / den : Nat) else (num / den : Nat))

def fillInteger (old : Int) (v : Yaml) : Option Int :=
  v.value?.bind fun
    | .null => some old
    | .integer n => if n < Integer64.bound then some n else none
    | .double x => truncated? x
    | .infinite true => some (-(Integer64.bound : Int))
    | _ => none

/-- The texts that stand for a set flag beside the scalars for it. -/
def yesTexts : List String := ["y", "Y", "yes", "Yes", "YES", "on", "On", "ON"]

/-- The texts that stand for a flag that is not set beside the scalars for it. -/
def noTexts : List String := ["n", "N", "no", "No", "NO", "off", "Off", "OFF"]

def flagOfText? (s : String) : Option Bool :=
  if yesTexts.contains s then some true
  else if noTexts.contains s then some false
  else none

def fillFlag (old : Bool) (v : Yaml) : Option Bool :=
  v.value?.bind fun
    | .null => some old
    | .bool b => some b
    | .text t => flagOfText? t
    | _ => none

def fillDuration (old : Int) (v : Yaml) : Option Int :=
  v.value?.bind fun
    | .null => some old
    | .text t => (Duration.read t).toOption
    | _ => none

/-- Fill a list of texts. Items without a value are left out; a list without a value is empty. -/
def fillTexts : Yaml → Option (List String)
  | .scalar tag quoted text =>
    (scalarValue? tag quoted text).bind fun
      | .null => some []
      | _ => none
  | .sequence items => (items.mapM text?).map (·.filterMap id)
  | .reference _ (some target) => fillTexts target
  | _ => none

/-! ### Records -/

/-- Whether a key stands for the entries of other mappings. -/
def isMerge : Yaml → Bool
  | .scalar none quoted text => !quoted && text = "<<"
  | .scalar (some tag) _ text => tag = "!!merge" && text = "<<"
  | _ => false

/-- What tells a key from the other keys of a mapping: its shape, and its text or name. -/
def keyShape : Yaml → Nat × String
  | .scalar _ _ text => (0, text)
  | .sequence _ => (1, "")
  | .mapping _ => (2, "")
  | .reference name _ => (3, name)

/-- Whether no key is written twice. -/
def distinctKeys (entries : List (Yaml × Yaml)) : Bool :=
  decide (entries.map (·.1.keyShape)).Nodup

/-- A record that is being filled, and the names under which it has been. -/
abbrev Filled (α : Type) := α × List String

/-- Fill a record from the entries of a mapping, those of other mappings aside. A name that has
been taken is passed over in a mapping that is merged, and a fault in any other. -/
def fillOwn {α : Type} (fill : α → String → Yaml → Option α) (merged : Bool) :
    List (Yaml × Yaml) → Filled α → Option (Filled α)
  | [], s => some s
  | (k, v) :: rest, (a, taken) =>
    if k.isMerge then fillOwn fill merged rest (a, taken)
    else
      match k.text? with
      | none => none
      | some none => fillOwn fill merged rest (a, taken)
      | some (some name) =>
        if !taken.contains name then
          (fill a name v).bind fun a => fillOwn fill merged rest (a, name :: taken)
        else if merged then fillOwn fill merged rest (a, taken)
        else none

mutual

/-- Fill a record from a mapping and the mappings that it stands for. -/
def fillMapping {α : Type} (fill : α → String → Yaml → Option α) (merged : Bool) :
    Yaml → Filled α → Option (Filled α)
  | .mapping entries, s =>
    if distinctKeys entries then
      (fillOwn fill merged entries s).bind (fillMerges fill entries)
    else none
  | .reference _ (some target), s => fillMapping fill merged target s
  | _, _ => none

/-- Fill a record from the mappings that the entries of a mapping stand for. -/
def fillMerges {α : Type} (fill : α → String → Yaml → Option α) :
    List (Yaml × Yaml) → Filled α → Option (Filled α)
  | [], s => some s
  | (k, v) :: rest, s =>
    if k.isMerge then (fillMerge fill v s).bind (fillMerges fill rest)
    else fillMerges fill rest s

/-- Fill a record from a mapping that is merged, or from several ones. -/
def fillMerge {α : Type} (fill : α → String → Yaml → Option α) :
    Yaml → Filled α → Option (Filled α)
  | .mapping entries, s =>
    if distinctKeys entries then
      (fillOwn fill true entries s).bind (fillMerges fill entries)
    else none
  | .reference _ (some target), s => fillMapping fill true target s
  | .sequence items, s => fillMergeItems fill items s
  | _, _ => none

/-- Fill a record from mappings one after the other. -/
def fillMergeItems {α : Type} (fill : α → String → Yaml → Option α) :
    List Yaml → Filled α → Option (Filled α)
  | [], s => some s
  | v :: rest, s => (fillMapping fill true v s).bind (fillMergeItems fill rest)

end

def fillRecord {α : Type} (fill : α → String → Yaml → Option α) (old : α) : Yaml → Option α
  | .scalar tag quoted text =>
    (scalarValue? tag quoted text).bind fun
      | .null => some old
      | _ => none
  | .mapping entries => (fillMapping fill false (.mapping entries) (old, [])).map (·.1)
  | .reference _ (some target) => fillRecord fill old target
  | _ => none

end CqlGateway.Yaml

import AliyunIot.Dm.ShadowKey
import AliyunIot.Dm.Tsl

/-!
# What a description says

`Mirrors` compares the text of a data type with a value of the shadow, `Described` says that the
text is one the parser can load, and how many blocks that takes. The rules that follow are about
results with a code (`Parses`) and blocks of entries (`fill`).
-/

namespace AliyunIot.Dm.Tsl

open Cjson Lib Lib.Alloc Libc State
open Format (text isDigit)
open Shadow (BasicType DataType DataValue Data IsIndex)
open List (Forall₂)

section

variable (strtod : Strtod)

def typeOf (lite : LiteCjson) : Option DataType :=
  if (memberOf strtod lite (text "type")).type = .string then
    getType (memberOf strtod lite (text "type")).value
  else none

abbrev dataTypeOf (lite : LiteCjson) : LiteCjson := memberOf strtod lite (text "dataType")

abbrev specsOf (lite : LiteCjson) : LiteCjson := memberOf strtod lite (text "specs")

abbrev sizeText (specs : LiteCjson) : List UInt8 := (memberOf strtod specs (text "size")).value

abbrev itemOf (specs : LiteCjson) : LiteCjson := memberOf strtod specs (text "item")

def itemType (specs : LiteCjson) : Option DataType :=
  getType (memberOf strtod (itemOf strtod specs) (text "type")).value

def elementsFrom (lite : LiteCjson) (index todo : Nat) : List LiteCjson :=
  (List.range' index todo).map (elementOf strtod lite)

abbrev elements (lite : LiteCjson) : List LiteCjson := elementsFrom strtod lite 0 lite.size

/-- The identifier in the text is a string that can be read from its copy. -/
structure Named (lite : LiteCjson) : Prop where
  string : (memberOf strtod lite (text "identifier")).type = .string
  nul : 0 ∉ (memberOf strtod lite (text "identifier")).value

structure Identifies (lite : LiteCjson) (identifier : CStr) : Prop where
  string : (memberOf strtod lite (text "identifier")).type = .string
  eq : identifier.val = (memberOf strtod lite (text "identifier")).value

mutual

/-- The value has the type that the text gives it, at every level. -/
inductive Mirrors : LiteCjson → DataValue → Prop
  | basic {lite : LiteCjson} {t : BasicType} {v : t.Cell} :
    typeOf strtod lite = some (.basic t) → Mirrors lite (.basic t v)
  | array {lite : LiteCjson} {v : DataValue} :
    typeOf strtod lite = some .array → ArrayMirrors (specsOf strtod lite) v → Mirrors lite v
  | struct {lite : LiteCjson} {v : DataValue} :
    typeOf strtod lite = some .struct → StructMirrors (specsOf strtod lite) v → Mirrors lite v

/-- There is storage for as many elements as the size says, a decimal number. -/
inductive ArrayMirrors : LiteCjson → DataValue → Prop
  | basic {specs : LiteCjson} {t : BasicType} {n : Nat} {items : List t.Cell} :
    IsIndex (sizeText strtod specs) n → itemType strtod specs = some (.basic t) →
    items.length = n → ArrayMirrors specs (.basicArray t n items)
  | struct {specs : LiteCjson} {n : Nat} {items : List (Option (List Data))} :
    IsIndex (sizeText strtod specs) n → itemType strtod specs = some .struct →
    items.length = n →
    (∀ item ∈ items, StructMirrors (specsOf strtod (itemOf strtod specs)) (.struct item)) →
    ArrayMirrors specs (.structArray n items)

/-- There is a member for each of the specs. -/
inductive StructMirrors : LiteCjson → DataValue → Prop
  | mk {specs : LiteCjson} {members : List Data} :
    Forall₂ EntryMirrors (elements strtod specs) members →
    StructMirrors specs (.struct (some members))

inductive EntryMirrors : LiteCjson → Data → Prop
  | mk {lite : LiteCjson} {identifier : CStr} {v : DataValue} :
    Identifies strtod lite identifier → Mirrors (dataTypeOf strtod lite) v →
    EntryMirrors lite (some identifier, v)

end

end

/-- `sizeof` of what a value of the type is kept in. -/
def width : BasicType → Nat
  | .double => 8
  | _ => 4

/-- A block for the entries has a size that is a `size_t`. -/
def Fits (count size : Nat) : Prop := count * size < 4294967296

/-- The size of an array is a decimal number that leaves a zero in `size_str`. -/
structure Sized (txt : List UInt8) (n size : Nat) : Prop where
  isIndex : IsIndex txt n
  short : txt.length < dmUtilsUint32Strlen
  fits : Fits n size

section

variable (strtod : Strtod)

mutual

/-- The text describes a value that takes the number of blocks. -/
inductive Described : LiteCjson → Nat → Prop
  | basic {lite : LiteCjson} {t : BasicType} :
    typeOf strtod lite = some (.basic t) → Described lite 0
  | array {lite : LiteCjson} {n : Nat} :
    typeOf strtod lite = some .array → ArrayDescribed (specsOf strtod lite) n → Described lite n
  | struct {lite : LiteCjson} {n : Nat} :
    typeOf strtod lite = some .struct → StructDescribed (specsOf strtod lite) n →
    Described lite n

inductive ArrayDescribed : LiteCjson → Nat → Prop
  | basic {specs : LiteCjson} {t : BasicType} {n : Nat} :
    Sized (sizeText strtod specs) n (width t) → itemType strtod specs = some (.basic t) →
    ArrayDescribed specs 2
  | struct {specs : LiteCjson} {n m : Nat} :
    Sized (sizeText strtod specs) n dataSize → itemType strtod specs = some .struct →
    (specsOf strtod (itemOf strtod specs)).type = .array →
    (specsOf strtod (itemOf strtod specs)).size ≠ 0 →
    Costs StructDescribed (List.replicate n (specsOf strtod (itemOf strtod specs))) m →
    ArrayDescribed specs (m + 2)

inductive StructDescribed : LiteCjson → Nat → Prop
  | mk {specs : LiteCjson} {n : Nat} :
    specs.type = .array → specs.size ≠ 0 → Fits specs.size dataSize →
    Costs EntryDescribed (elements strtod specs) n → StructDescribed specs (n + 2)

inductive EntryDescribed : LiteCjson → Nat → Prop
  | mk {lite : LiteCjson} {n : Nat} :
    Named strtod lite → Described (dataTypeOf strtod lite) n → EntryDescribed lite (n + 1)

end

end

/-! ## Reports -/

section

variable {α β : Type} {alloc : Nat → Bool} {x : Alloc (Int × α)} {cost cost' : Nat → Prop}
  {good : α → Prop}

def Succeeds (good : α → Prop) (r : Int × α) : Prop := r.1 = success ∧ good r.2

/-- A result with a good value, whatever it reports. -/
def Leaves (good : α → Prop) (r : Int × α) : Prop := good r.2

abbrev Parses (alloc : Nat → Bool) (x : Alloc (Int × α)) (cost : Nat → Prop) (good : α → Prop) :
    Prop :=
  Loads alloc x cost (Succeeds good) (Leaves good)

theorem Parses.cost_congr (h : Parses alloc x cost good) (hcost : ∀ n, cost' n ↔ cost n) :
    Parses alloc x cost' good :=
  h.congr hcost (fun _ => id) fun _ => id

theorem Parses.never (h : Parses alloc x (fun _ => False) good) (hcost : ∀ n, ¬ cost n) :
    Parses alloc x cost good :=
  h.cost_congr fun n => iff_false_intro (hcost n)

theorem parses_of_loads {y : Alloc β} {good' : β → Prop} {f : β → α}
    (h : Loads alloc y cost good' good') (hf : ∀ b, good (f b) ↔ good' b) :
    Parses alloc (y >>= fun b => pure (success, f b)) cost good := by
  apply loads_map h
  · intro b hb
    exact ⟨rfl, (hf b).mpr hb⟩
  · intro b hb
    exact (hf b).mp hb

theorem parses_map {f : α → β} {good' : β → Prop} (h : Parses alloc x cost good)
    (hf : ∀ a, good' (f a) ↔ good a) :
    Parses alloc (x >>= fun r => pure (r.1, f r.2)) cost good' := by
  apply loads_map h
  · rintro ⟨res, a⟩ ⟨hres, ha⟩
    exact ⟨hres, (hf a).mpr ha⟩
  · rintro ⟨res, a⟩ ha
    exact (hf a).mp ha

theorem orFail_eq_success {res : Int} : orFail res = success ↔ res = success := by
  unfold orFail
  split
  next h => exact ⟨fun _ => h, fun _ => rfl⟩
  next h => exact ⟨fun hfail => absurd hfail (by decide), fun hsuccess => absurd hsuccess h⟩

theorem parses_orFail {f : α → β} {good' : β → Prop} (h : Parses alloc x cost good)
    (hf : ∀ a, good' (f a) ↔ good a) :
    Parses alloc (x >>= fun r => pure (orFail r.1, f r.2)) cost good' := by
  apply loads_map h
  · rintro ⟨res, a⟩ ⟨rfl, ha⟩
    exact ⟨rfl, (hf a).mpr ha⟩
  · rintro ⟨res, a⟩ ha
    exact (hf a).mp ha

end

/-! ## Room -/

section

variable {α β : Type} {n size room index todo : Nat}

theorem capacity_natCast (n size : Nat) : capacity n size = n * size % 4294967296 / size := rfl

theorem capacity_le (n : Nat) {size : Nat} (h : 0 < size) : capacity n size ≤ n := by
  rw [capacity_natCast]
  calc n * size % 4294967296 / size ≤ n * size / size :=
        Nat.div_le_div_right (Nat.mod_le _ _)
    _ = n := Nat.mul_div_cancel n h

theorem le_capacity_iff (h : 0 < size) : n ≤ capacity n size ↔ Fits n size := by
  rw [capacity_natCast, Nat.le_div_iff_mul_le h, Fits]
  constructor
  · intro hle
    exact Nat.lt_of_le_of_lt hle (Nat.mod_lt _ (by omega))
  · intro hlt
    rw [Nat.mod_eq_of_lt hlt]

theorem fill_of_le {zero : α} {xs : List α} (h : room ≤ xs.length) : fill room zero xs = xs := by
  rw [fill, Nat.sub_eq_zero_of_le h, List.replicate_zero, List.append_nil]

theorem forall₂_fill {R : α → β → Prop} {zero : β} (hzero : ∀ a, ¬ R a zero) {as : List α}
    {bs : List β} (hroom : room ≤ as.length) :
    Forall₂ R as (fill room zero bs) ↔ Forall₂ R as bs := by
  constructor
  · intro h
    by_cases hle : room ≤ bs.length
    · rwa [fill_of_le hle] at h
    · exfalso
      have hmem : zero ∈ fill room zero bs := by
        rw [fill]
        exact List.mem_append_right _ (List.mem_replicate.mpr ⟨by omega, rfl⟩)
      obtain ⟨i, hi, heq⟩ := List.getElem_of_mem hmem
      have := h.get (by rw [h.length_eq]; exact hi) hi
      simp only [List.get_eq_getElem, heq] at this
      exact hzero _ this
  · intro h
    rwa [fill_of_le (h.length_eq ▸ hroom)]

theorem room_step {cost : α → Nat → Prop} {a : α} {as : List α} (h : ¬ room ≤ index) :
    (todo + 1 ≤ room - index ∧ Costs cost (a :: as) n) ↔
      ∃ n₁ n₂, cost a n₁ ∧ (todo ≤ room - (index + 1) ∧ Costs cost as n₂) ∧ n = n₁ + n₂ := by
  rw [costs_cons_iff]
  constructor
  · rintro ⟨hle, n₁, n₂, ha, has, rfl⟩
    exact ⟨n₁, n₂, ha, ⟨by omega, has⟩, rfl⟩
  · rintro ⟨n₁, n₂, ha, ⟨hle, has⟩, rfl⟩
    exact ⟨by omega, n₁, n₂, ha, has, rfl⟩

end

end AliyunIot.Dm.Tsl

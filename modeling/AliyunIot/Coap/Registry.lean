import AliyunIot.Coap.Resource

/-!
# What the resource table is for

A `Registry` has one entry for a path and one for a filter `p/#`, and a lookup
that prefers the path.
-/

namespace AliyunIot.Coap

/-- The registered paths, and the registered filters `p/#` by `p`. -/
structure Registry where
  exact : List UInt8 → Option ResourceEntry
  filter : List UInt8 → Option ResourceEntry

def filterOf (p : List UInt8) : List UInt8 := p ++ [chSlash, chHash]

/-- `p` for the text `p/#`. -/
def filterBase (text : List UInt8) : Option (List UInt8) :=
  if [chSlash, chHash] <:+ text then some (text.take (text.length - 2)) else none

/-- `p` for the text `p/x` with `x` free of `/`. -/
def parent : List UInt8 → Option (List UInt8)
  | [] => none
  | b :: text =>
    match parent text with
    | some p => some (b :: p)
    | none => if b = chSlash then some [] else none

namespace Registry

def empty : Registry := ⟨fun _ => none, fun _ => none⟩

def register (r : Registry) (text : List UInt8) (entry : ResourceEntry) : Registry :=
  match filterBase text with
  | some p => { r with filter := Function.update r.filter p (some entry) }
  | none => { r with exact := Function.update r.exact text (some entry) }

/-- The registration of the path, else that of its filter. -/
def lookup (r : Registry) (text : List UInt8) : Option ResourceEntry :=
  (r.exact text).or ((parent text).bind r.filter)

end Registry

theorem filterBase_eq_some_iff {text p : List UInt8} :
    filterBase text = some p ↔ text = filterOf p := by
  unfold filterBase filterOf
  constructor
  · intro h
    split at h
    · next hs =>
      obtain ⟨q, rfl⟩ := hs
      cases h
      simp
    · cases h
  · rintro rfl
    rw [if_pos (List.suffix_append _ _)]
    simp

theorem parent_eq_none_iff {text : List UInt8} : parent text = none ↔ chSlash ∉ text := by
  induction text with
  | nil => exact iff_of_true rfl List.not_mem_nil
  | cons b text ih =>
    rw [parent, List.mem_cons, not_or, ← ih]
    cases parent text with
    | some p => exact iff_of_false (fun h => by cases h) fun h => by cases h.2
    | none =>
      by_cases hb : b = chSlash
      · simp [hb]
      · simp [hb, Ne.symm hb]

theorem parent_eq_some_iff {text p : List UInt8} :
    parent text = some p ↔ ∃ x, chSlash ∉ x ∧ text = p ++ chSlash :: x := by
  induction text generalizing p with
  | nil => exact iff_of_false (fun h => by cases h) fun ⟨x, _, h⟩ => by simp at h
  | cons b text ih =>
    rw [parent]
    constructor
    · intro h
      cases hp : parent text with
      | some q =>
        rw [hp] at h
        cases h
        obtain ⟨x, hx, rfl⟩ := ih.mp hp
        exact ⟨x, hx, rfl⟩
      | none =>
        rw [hp] at h
        by_cases hb : b = chSlash
        · simp only [if_pos hb] at h
          cases h
          exact ⟨text, parent_eq_none_iff.mp hp, by rw [hb]; rfl⟩
        · simp only [if_neg hb] at h
          cases h
    · rintro ⟨x, hx, heq⟩
      cases p with
      | nil =>
        obtain ⟨rfl, rfl⟩ := List.cons.inj heq
        rw [parent_eq_none_iff.mpr hx]
        rfl
      | cons c p =>
        obtain ⟨rfl, rfl⟩ := List.cons.inj heq
        rw [ih.mpr ⟨x, hx, rfl⟩]

end AliyunIot.Coap

import AliyunIot.Dynreg.Register

/-!
# Searching a response

What `_parse_dynreg_result` makes of a text, said from the text alone: `Row` follows the quoted
texts that have a colon directly behind them, and the loop goes along the row
(`parseDynregResult_row`), wherever they stand.
-/

namespace AliyunIot.Dynreg

open Format

/-- Behind a quote stands the key `k`, with a quote and a colon directly behind it, and `v`. -/
def KeyAt (s k v : List UInt8) : Prop := 34 ∉ k ∧ s = k ++ 34 :: 58 :: v

/-- Whether what stands behind a colon is taken for a value in a search for `key`. -/
def hasValue (key v : List UInt8) : Bool :=
  if text "code" <+: key then true
  else if text "data" <+: key then v.head? = some 123
  else v.head? = some 34

/-- How many bytes such a value has. -/
def passed (key v : List UInt8) : Nat :=
  if text "code" <+: key then (v.takeWhile isDigit).length
  else if text "data" <+: key then bracketLoop 0 v + 1
  else v.tail.idxOf 34 + 2

/-- A search for `key` in a text with `slack` bytes of the buffer behind it goes from quote to
quote as long as they belong to keys. It ends at `r`, the text from the last value on that was
taken, or at `place` if there was none; `found` if the key in front begins with `key`. -/
inductive Row (key : List UInt8) (slack : Nat) :
    List UInt8 → List UInt8 → Bool → List UInt8 → Prop where
  | ended {place : List UInt8} : Row key slack place [] false place
  | byte {place s r : List UInt8} {b : UInt8} {found : Bool} (hb : b ≠ 34)
      (h : Row key slack place s found r) : Row key slack place (b :: s) found r
  | stuck {place s : List UInt8} (h : ∀ k v, ¬ KeyAt s k v) :
      Row key slack place (34 :: s) false place
  | found {place s k v : List UInt8} (hkey : KeyAt s k v) (hv : hasValue key v = true)
      (hroom : key.length ≤ s.length + slack) (hmatch : key <+: s) :
      Row key slack place (34 :: s) true v
  | other {place s k v r : List UInt8} {found : Bool} (hkey : KeyAt s k v)
      (hv : hasValue key v = true) (hroom : key.length ≤ s.length + slack) (hmatch : ¬ key <+: s)
      (h : Row key slack v (v.drop (passed key v)) found r) : Row key slack place (34 :: s) found r
  | skipped {place s k v r : List UInt8} {found : Bool} (hkey : KeyAt s k v)
      (hv : hasValue key v = false) (h : Row key slack place (v.drop 1) found r) :
      Row key slack place (34 :: s) found r

section Row

variable {key place s k v r payload : List UInt8} {slack idx rounds : Nat} {found : Bool}

theorem KeyAt.eq (h : KeyAt s k v) :
    s.idxOf 34 = k.length ∧ k = s.take (s.idxOf 34) ∧ v = s.drop (s.idxOf 34 + 2) := by
  obtain ⟨hk, rfl⟩ := h
  have hidx : (k ++ 34 :: 58 :: v).idxOf 34 = k.length := by
    rw [List.idxOf_append_of_notMem hk, List.idxOf_cons_self, Nat.add_zero]
  refine ⟨hidx, ?_, ?_⟩
  · rw [hidx, List.take_left]
  · rw [hidx, ← List.drop_drop, List.drop_left]
    rfl

theorem KeyAt.unique {k' v' : List UInt8} (h : KeyAt s k v) (h' : KeyAt s k' v') :
    k = k' ∧ v = v' :=
  ⟨h.eq.2.1.trans h'.eq.2.1.symm, h.eq.2.2.trans h'.eq.2.2.symm⟩

theorem Row.at_key (hkey : KeyAt s k v) (h : Row key slack place (34 :: s) found r) :
    hasValue key v = true ∧ key.length ≤ s.length + slack ∧
        (key <+: s ∧ found = true ∧ r = v ∨
          ¬ key <+: s ∧ Row key slack v (v.drop (passed key v)) found r) ∨
      hasValue key v = false ∧ Row key slack place (v.drop 1) found r := by
  cases h with
  | byte hb _ => exact absurd rfl hb
  | stuck h => exact absurd hkey (h _ _)
  | found hkey' hv hroom hmatch =>
    obtain ⟨rfl, rfl⟩ := hkey.unique hkey'
    exact .inl ⟨hv, hroom, .inl ⟨hmatch, rfl, rfl⟩⟩
  | other hkey' hv hroom hmatch h =>
    obtain ⟨rfl, rfl⟩ := hkey.unique hkey'
    exact .inl ⟨hv, hroom, .inr ⟨hmatch, h⟩⟩
  | skipped hkey' hv h =>
    obtain ⟨rfl, rfl⟩ := hkey.unique hkey'
    exact .inr ⟨hv, h⟩

theorem Row.unique {found' : Bool} {r' : List UInt8} (h : Row key slack place s found r)
    (h' : Row key slack place s found' r') : found = found' ∧ r = r' := by
  induction h with
  | ended =>
    cases h'
    exact ⟨rfl, rfl⟩
  | byte hb h ih =>
    cases h' with
    | byte _ h' => exact ih h'
    | _ => exact absurd rfl hb
  | stuck h =>
    cases h' with
    | stuck _ => exact ⟨rfl, rfl⟩
    | byte hb _ => exact absurd rfl hb
    | found hkey => exact absurd hkey (h _ _)
    | other hkey => exact absurd hkey (h _ _)
    | skipped hkey => exact absurd hkey (h _ _)
  | found hkey hv _ hmatch =>
    rcases h'.at_key hkey with ⟨-, -, ⟨-, rfl, rfl⟩ | ⟨hmatch', -⟩⟩ | ⟨hv', -⟩
    · exact ⟨rfl, rfl⟩
    · exact absurd hmatch hmatch'
    · exact absurd (hv.symm.trans hv') (by decide)
  | other hkey hv _ hmatch _ ih =>
    rcases h'.at_key hkey with ⟨-, -, ⟨hmatch', -, -⟩ | ⟨-, h'⟩⟩ | ⟨hv', -⟩
    · exact absurd hmatch' hmatch
    · exact ih h'
    · exact absurd (hv.symm.trans hv') (by decide)
  | skipped hkey hv _ ih =>
    rcases h'.at_key hkey with ⟨hv', -⟩ | ⟨-, h'⟩
    · exact absurd (hv.symm.trans hv') (by decide)
    · exact ih h'

theorem keyAt_or (s : List UInt8) :
    ((s.idxOf 34 = s.length ∨ s.getD (s.idxOf 34 + 1) 0 ≠ 58) ∧ ∀ k v, ¬ KeyAt s k v) ∨
      ∃ k v, KeyAt s k v ∧ s.getD (k.length + 1) 0 = 58 := by
  by_cases hmem : (34 : UInt8) ∈ s
  · obtain ⟨k, t, rfl, hk⟩ := List.eq_append_cons_of_mem hmem
    have hidx : (k ++ 34 :: t).idxOf 34 = k.length := by
      rw [List.idxOf_append_of_notMem hk, List.idxOf_cons_self, Nat.add_zero]
    by_cases hcolon : t.head? = some 58
    · obtain ⟨v, rfl⟩ := List.head?_eq_some_iff.mp hcolon
      refine .inr ⟨k, v, ⟨hk, rfl⟩, ?_⟩
      simp [List.getD]
    · refine .inl ⟨.inr ?_, fun k' v hkey => hcolon ?_⟩
      · rw [hidx]
        cases t with
        | nil => simp [List.getD]
        | cons b t => simpa [List.getD] using hcolon
      · have hlen : k.length = k'.length := hidx.symm.trans hkey.eq.1
        cases (List.append_inj hkey.2 hlen).2
        rfl
  · refine .inl ⟨.inl (List.idxOf_eq_length hmem), fun k v hkey => hmem ?_⟩
    rw [hkey.2]
    simp

/-- What the loop makes of the text from `s` on: where the row ends, the slice of the value there,
and none where there is no row, for the room of a key. -/
def Follows (payload key : List UInt8) (slack : Nat) (place : List UInt8) (slice : Slice)
    (s : List UInt8) : Option (Int × Slice) → Prop
  | none => ∀ found r, ¬ Row key slack place s found r
  | some (_, slice') => ∃ found r, Row key slack place s found r ∧
      (found = false ∧ r = place ∧ slice' = slice ∨
        ∃ p ≤ payload.length, payload.drop p = r ∧ hasValue key r = true ∧
          (parseDynregValue payload key p).1 = some slice')

variable {slice : Slice} {result : Option (Int × Slice)} {p : Nat}

theorem Follows.byte {b : UInt8} (hb : b ≠ 34)
    (h : Follows payload key slack place slice s result) :
    Follows payload key slack place slice (b :: s) result := by
  cases result with
  | none =>
    intro found r hrow
    cases hrow with
    | byte _ hrow => exact h found r hrow
    | _ => exact hb rfl
  | some result =>
    obtain ⟨found, r, hrow, hslice⟩ := h
    exact ⟨found, r, .byte hb hrow, hslice⟩

theorem Follows.skipped (hkey : KeyAt s k v) (hv : hasValue key v = false)
    (h : Follows payload key slack place slice (v.drop 1) result) :
    Follows payload key slack place slice (34 :: s) result := by
  cases result with
  | none =>
    intro found r hrow
    rcases hrow.at_key hkey with ⟨hv', -⟩ | ⟨-, hrow⟩
    · exact absurd (hv.symm.trans hv') (by decide)
    · exact h found r hrow
  | some result =>
    obtain ⟨found, r, hrow, hslice⟩ := h
    exact ⟨found, r, .skipped hkey hv hrow, hslice⟩

variable {slice' : Slice}

theorem Follows.other (hkey : KeyAt s k v) (hv : hasValue key v = true)
    (hroom : key.length ≤ s.length + slack) (hmatch : ¬ key <+: s)
    (hle : p ≤ payload.length) (hp : payload.drop p = v)
    (hslice : (parseDynregValue payload key p).1 = some slice')
    (h : Follows payload key slack v slice' (v.drop (passed key v)) result) :
    Follows payload key slack place slice (34 :: s) result := by
  cases result with
  | none =>
    intro found r hrow
    rcases hrow.at_key hkey with ⟨-, -, ⟨hmatch', -⟩ | ⟨-, hrow⟩⟩ | ⟨hv', -⟩
    · exact hmatch hmatch'
    · exact h found r hrow
    · exact absurd (hv.symm.trans hv') (by decide)
  | some result =>
    obtain ⟨found, r, hrow, ⟨hfound, rfl, hlast⟩ | hlast⟩ := h
    · exact ⟨found, r, .other hkey hv hroom hmatch hrow,
        .inr ⟨p, hle, hp, hv, hlast ▸ hslice⟩⟩
    · exact ⟨found, r, .other hkey hv hroom hmatch hrow, .inr hlast⟩

theorem parseDynregValue_eq (key : List UInt8) (hv : payload.drop p = v) :
    if hasValue key v then
      ∃ slice', parseDynregValue payload key p = (some slice', p + passed key v - 1)
    else parseDynregValue payload key p = (none, p) := by
  have hhead : payload.getD p 0 = v.head?.getD 0 := by
    rw [← hv, List.head?_drop]
    rfl
  unfold parseDynregValue hasValue passed parseStringValue
  by_cases hcode : text "code" <+: key
  · simp only [if_pos hcode, if_true, hv]
    exact ⟨_, rfl⟩
  simp only [if_neg hcode]
  by_cases hdata : text "data" <+: key
  · simp only [if_pos hdata, hhead]
    cases v with
    | nil => simp
    | cons b v =>
      by_cases hb : b = 123
      · simp [hb, hv]
      · simp [hb]
  · simp only [if_neg hdata, hhead]
    cases v with
    | nil => simp
    | cons b v =>
      have htail : payload.drop (p + 1) = v := by rw [← List.drop_drop, hv]; rfl
      by_cases hb : b = 34
      · simp [hb, htail, Nat.add_assoc, Nat.add_comm 1]
      · simp [hb]

theorem parseDynregLoop_row (hrounds : payload.length ≤ idx + rounds) (place : List UInt8)
    (slice : Slice) :
    Follows payload key slack place slice (payload.drop idx)
      (parseDynregLoop payload key (payload.length + slack) rounds idx slice) := by
  induction rounds generalizing idx place slice with
  | zero =>
    rw [List.drop_eq_nil_of_le (show payload.length ≤ idx by omega)]
    exact ⟨false, place, .ended, .inl ⟨rfl, rfl, rfl⟩⟩
  | succ rounds ih =>
    rw [parseDynregLoop]
    by_cases hidx : payload.length ≤ idx
    · rw [if_pos hidx, List.drop_eq_nil_of_le hidx]
      exact ⟨false, place, .ended, .inl ⟨rfl, rfl, rfl⟩⟩
    rw [if_neg hidx]
    have hlt := Nat.lt_of_not_le hidx
    have hcons : payload.drop idx = payload.getD idx 0 :: payload.drop (idx + 1) := by
      rw [List.drop_eq_getElem_cons hlt]
      simp [List.getD, hlt]
    rw [hcons]
    by_cases hquote : payload.getD idx 0 = 34
    · rw [if_pos hquote, hquote]
      generalize hs : payload.drop (idx + 1) = s
      have hlen : s.length = payload.length - (idx + 1) := by rw [← hs, List.length_drop]
      have hget : payload.getD (idx + 1 + s.idxOf 34 + 1) 0 = s.getD (s.idxOf 34 + 1) 0 := by
        rw [← hs]
        simp [List.getD, Nat.add_assoc]
      rcases keyAt_or s with ⟨hstuck, hno⟩ | ⟨k, v, hkey, hcolon⟩
      · rw [if_pos (by rw [hget]; exact hstuck.imp_left fun h => by omega)]
        exact ⟨false, place, .stuck hno, .inl ⟨rfl, rfl, rfl⟩⟩
      have hidxOf := hkey.eq.1
      have hsum := congrArg List.length hkey.2
      rw [List.length_append, List.length_cons, List.length_cons] at hsum
      have hgo : ¬ (idx + 1 + s.idxOf 34 = payload.length ∨
          payload.getD (idx + 1 + s.idxOf 34 + 1) 0 ≠ 58) := by
        rw [hget, hidxOf, hcolon]
        exact not_or.mpr ⟨by omega, fun h => h rfl⟩
      rw [if_neg hgo, hidxOf]
      have hv : payload.drop (idx + 1 + k.length + 2) = v := by
        rw [hkey.eq.2.2, hidxOf, ← hs, List.drop_drop]
        rfl
      have hle : idx + 1 + k.length + 2 ≤ payload.length := by omega
      have hvalue := parseDynregValue_eq key hv
      split at hvalue
      next hhas =>
        obtain ⟨slice', heq⟩ := hvalue
        rw [heq]
        dsimp only
        have hslice := congrArg Prod.fst heq
        by_cases hroom : payload.length + slack < idx + 1 + key.length
        · rw [if_pos hroom]
          intro found r hrow
          rcases hrow.at_key hkey with ⟨-, hroom', -⟩ | ⟨hv', -⟩
          · omega
          · exact absurd (hhas.symm.trans hv') (by decide)
        rw [if_neg hroom]
        have hroom' : key.length ≤ s.length + slack := by omega
        by_cases hmatch : key <+: s
        · rw [if_pos hmatch]
          exact ⟨true, v, .found hkey hhas hroom' hmatch, .inr ⟨_, hle, hv, hhas, hslice⟩⟩
        · rw [if_neg hmatch]
          have hnext := ih (show payload.length ≤
            idx + 1 + k.length + 2 + passed key v - 1 + 1 + rounds by omega) v slice'
          have hgo : payload.drop (idx + 1 + k.length + 2 + passed key v - 1 + 1) =
              v.drop (passed key v) := by
            rw [← hv, List.drop_drop]
            congr 1
            omega
          rw [hgo] at hnext
          exact hnext.other hkey hhas hroom' hmatch hle hv hslice
      next hhas =>
        rw [hvalue]
        have hnext := ih (show payload.length ≤ idx + 1 + k.length + 2 + 1 + rounds by omega)
          place slice
        rw [← List.drop_drop, hv] at hnext
        exact hnext.skipped hkey (Bool.eq_false_iff.mpr hhas)
    · rw [if_neg hquote]
      exact (ih (by omega) place slice).byte hquote

theorem parseDynregResult_row (payload key : List UInt8) (slack : Nat) (place : List UInt8)
    (slice : Slice) :
    Follows payload key slack place slice payload
      (parseDynregResult payload key (payload.length + slack) slice) :=
  parseDynregLoop_row (Nat.le_of_eq (Nat.zero_add _).symm) place slice

theorem Row.place_or (h : Row key slack place s found r) :
    found = false ∧ r = place ∨ hasValue key r = true := by
  induction h with
  | ended => exact .inl ⟨rfl, rfl⟩
  | byte _ _ ih => exact ih
  | stuck _ => exact .inl ⟨rfl, rfl⟩
  | found _ hv => exact .inr hv
  | other _ hv _ _ _ ih =>
    rcases ih with ⟨-, rfl⟩ | hvalue
    · exact .inr hv
    · exact .inr hvalue
  | skipped _ _ _ ih => exact ih

theorem start_of_value (hkey : text "code" <+: key ∨ text "data" <+: key)
    (h : (parseDynregValue payload key p).1 = some slice') : slice'.start = p := by
  unfold parseDynregValue at h
  by_cases hcode : text "code" <+: key
  · rw [if_pos hcode] at h
    cases h
    rfl
  · rw [if_neg hcode, if_pos (hkey.resolve_left hcode)] at h
    split at h
    · cases h
    · cases h
      rfl

theorem row_of_search {res : Int} (hkey : text "code" <+: key ∨ text "data" <+: key)
    (h : parseDynregResult payload key (payload.length + slack) ⟨0, 0⟩ = some (res, slice')) :
    ∃ found r, Row key slack payload payload found r ∧ payload.drop slice'.start = r ∧
      slice'.start + r.length = payload.length := by
  have hrow := parseDynregResult_row payload key slack payload ⟨0, 0⟩
  rw [h] at hrow
  obtain ⟨found, r, hrow, ⟨-, rfl, rfl⟩ | ⟨p, hle, rfl, -, hslice⟩⟩ := hrow
  · exact ⟨found, _, hrow, rfl, Nat.zero_add _⟩
  · refine ⟨found, _, hrow, ?_, ?_⟩
    · rw [start_of_value hkey hslice]
    · rw [start_of_value hkey hslice, List.length_drop]
      omega

theorem search_of_row (hkey : text "code" <+: key ∨ text "data" <+: key)
    (h : Row key slack payload payload found r) :
    ∃ res slice', parseDynregResult payload key (payload.length + slack) ⟨0, 0⟩ =
        some (res, slice') ∧
      payload.drop slice'.start = r ∧ slice'.start + r.length = payload.length := by
  cases hsearch : parseDynregResult payload key (payload.length + slack) ⟨0, 0⟩ with
  | none =>
    have hrow := parseDynregResult_row payload key slack payload ⟨0, 0⟩
    rw [hsearch] at hrow
    exact absurd h (hrow found r)
  | some result =>
    obtain ⟨res, slice'⟩ := result
    obtain ⟨found', r', hrow, hplace⟩ := row_of_search hkey hsearch
    obtain ⟨-, rfl⟩ := h.unique hrow
    exact ⟨res, slice', rfl, hplace⟩

/-- The string that the search for the secret has found. -/
def inner (v : List UInt8) : List UInt8 := v.takeWhile (· ≠ 34)

theorem length_inner (v : List UInt8) : (inner v).length = v.idxOf 34 := by
  unfold inner
  induction v with
  | nil => rfl
  | cons b v ih =>
    by_cases hb : b = 34
    · simp [hb]
    · simpa [hb, List.idxOf_cons] using ih

theorem take_inner (v : List UInt8) : v.take (inner v).length = inner v :=
  List.prefix_iff_eq_take.mp (List.takeWhile_prefix _) |>.symm

theorem hasValue_secret : hasValue (text "deviceSecret") r = true ↔ ∃ v, r = 34 :: v := by
  have hcode : ¬ text "code" <+: text "deviceSecret" := by decide
  have hdata : ¬ text "data" <+: text "deviceSecret" := by decide
  rw [hasValue, if_neg hcode, if_neg hdata, decide_eq_true_eq, List.head?_eq_some_iff]

theorem slice_of_secret (hp : payload.drop p = 34 :: v)
    (h : (parseDynregValue payload (text "deviceSecret") p).1 = some slice) :
    slice.start = p + 1 ∧ slice.len = (inner v).length := by
  have hcode : ¬ text "code" <+: text "deviceSecret" := by decide
  have hdata : ¬ text "data" <+: text "deviceSecret" := by decide
  have hget : payload.getD p 0 = 34 := by
    have hhead := congrArg List.head? hp
    rw [List.head?_drop] at hhead
    simp [List.getD, hhead]
  have hdrop : payload.drop (p + 1) = v := by
    rw [← List.drop_drop, hp]
    rfl
  unfold parseDynregValue parseStringValue at h
  rw [if_neg hcode, if_neg hdata, hget, if_neg (by simp), hdrop] at h
  cases h
  rw [Slice.len, length_inner]
  dsimp only
  omega

theorem secret_of_search {res : Int} {code : Slice}
    (h : parseDynregResult payload (text "deviceSecret") (payload.length + slack) code =
      some (res, slice')) :
    ∃ found r, Row (text "deviceSecret") slack [] payload found r ∧
      (found = true → ∃ v, r = 34 :: v ∧ payload.drop slice'.start = v ∧
        slice'.start + v.length = payload.length ∧ slice'.len = (inner v).length) := by
  have hrow := parseDynregResult_row payload (text "deviceSecret") slack [] code
  rw [h] at hrow
  obtain ⟨found, r, hrow, ⟨hfound, -⟩ | ⟨p, hle, hp, hvalue, hslice⟩⟩ := hrow
  · exact ⟨found, r, hrow, fun htrue => absurd (hfound.symm.trans htrue) (by decide)⟩
  · refine ⟨found, r, hrow, fun _ => ?_⟩
    obtain ⟨v, rfl⟩ := hasValue_secret.mp hvalue
    obtain ⟨hstart, hlen⟩ := slice_of_secret hp hslice
    have hsum := congrArg List.length hp
    rw [List.length_drop, List.length_cons] at hsum
    refine ⟨v, rfl, ?_, by omega, hlen⟩
    rw [hstart, ← List.drop_drop, hp]
    rfl

theorem search_of_secret {v : List UInt8} (code : Slice)
    (h : Row (text "deviceSecret") slack [] payload true (34 :: v)) :
    ∃ res slice', parseDynregResult payload (text "deviceSecret") (payload.length + slack) code =
        some (res, slice') ∧ payload.drop slice'.start = v ∧
      slice'.start + v.length = payload.length ∧ slice'.len = (inner v).length := by
  cases hsearch : parseDynregResult payload (text "deviceSecret") (payload.length + slack) code with
  | none =>
    have hrow := parseDynregResult_row payload (text "deviceSecret") slack [] code
    rw [hsearch] at hrow
    exact absurd h (hrow _ _)
  | some result =>
    obtain ⟨res, slice'⟩ := result
    obtain ⟨found, r, hrow, hslice⟩ := secret_of_search hsearch
    obtain ⟨rfl, rfl⟩ := h.unique hrow
    obtain ⟨v', hv, hplace⟩ := hslice rfl
    cases hv
    exact ⟨res, slice', rfl, hplace⟩

end Row

end AliyunIot.Dynreg

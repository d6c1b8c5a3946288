import AliyunIot.Infra.CjsonItem

/-!
# Items are shorter than what they are in

An array or an object that `lite_cjson` finds in another one is shorter than that one, whatever
its bytes are, so a recursion over the items of items ends.
-/

namespace AliyunIot.Cjson

open Lib Lib.Json

variable {strtod : Strtod} {content : List UInt8} {lite it : LiteCjson} {n o e : Nat}

theorem skip_pos (hlen : 2 ≤ content.length) (ho : 1 ≤ o) : 1 ≤ bufferSkipWhitespace content o := by
  simp only [bufferSkipWhitespace]
  split <;> omega

theorem container_length (h : parseValue strtod content n o = some (it, e)) (hc : IsContainer it) :
    it.value.length + o ≤ content.length ∧ 2 ≤ content.length := by
  obtain ⟨hlt, -⟩ := advances_parseValue strtod content n o it e h
  have hle := end_le_length h
  have hvalue := congrArg List.length (slice_of_parseValue hc h)
  rw [List.length_take, List.length_drop] at hvalue
  obtain ⟨array, object, hdispatch⟩ := dispatch_of_parseValue h
  have hopen : content[o]? = some 91 ∨ content[o]? = some 123 := by
    obtain ⟨k, t, -, hflat, -⟩ | ⟨hfirst, -⟩ | ⟨hfirst, -⟩ := dispatch_cases hdispatch
    · exact absurd hc hflat
    · exact .inl hfirst
    · exact .inr hfirst
  obtain ⟨hflat, -⟩ | ⟨last, size, rfl, hclose, -, -⟩ := parseValue_cases h
  · exact absurd hc hflat
  -- the byte that opens it does not close it
  have hne : last ≠ o := by
    rintro rfl
    rw [closing] at hclose
    split at hclose <;> rcases hopen with hopen | hopen <;> rw [hopen] at hclose <;>
      exact absurd (Option.some.inj hclose) (by decide)
  omega

theorem container_lt (ho : 1 ≤ o)
    (h : parseValue strtod content n (bufferSkipWhitespace content o) = some (it, e))
    (hc : IsContainer it) : it.value.length < content.length := by
  obtain ⟨hle, hlen⟩ := container_length h hc
  have := skip_pos hlen ho
  omega

theorem parsed_of_arrayItemLoop {index : Int} {rounds iter : Nat}
    (h : arrayItemLoop content (parseValue strtod content n) index rounds o iter = some it) :
    ∃ o' e, parseValue strtod content n (bufferSkipWhitespace content o') = some (it, e) ∧
      (1 ≤ o → 1 ≤ o') := by
  induction rounds generalizing o iter with
  | zero => cases h
  | succ rounds ih =>
    simp only [arrayItemLoop] at h
    obtain ⟨⟨first, e⟩, hparse, h⟩ := Option.bind_eq_some_iff.mp h
    split at h
    · cases h
      exact ⟨o, e, hparse, id⟩
    · split at h
      · obtain ⟨o', e', hparse', hpos⟩ := ih h
        exact ⟨o', e', hparse', fun _ => hpos (Nat.le_add_left 1 _)⟩
      · cases h

theorem walkMembers_lt {wanted : Nat → LiteCjson → Bool} {rounds index : Nat} {key : LiteCjson}
    (h : walkMembers content (parseValue strtod content n) wanted rounds o index =
      some (.found key it)) (hc : IsContainer it) : it.value.length < content.length := by
  induction rounds generalizing o index with
  | zero => cases h
  | succ rounds ih =>
    simp only [walkMembers] at h
    obtain ⟨⟨key', first, e⟩, hmember, h⟩ := Option.bind_eq_some_iff.mp h
    split at h
    · cases h
      simp only [parseMember] at hmember
      obtain ⟨⟨name, e'⟩, -, hmember⟩ := Option.bind_eq_some_iff.mp hmember
      split at hmember
      · obtain ⟨⟨value, e''⟩, hparse, heq⟩ := Option.map_eq_some_iff.mp hmember
        cases heq
        exact container_lt (Nat.le_add_left 1 _) hparse hc
      · cases hmember
    · split at h
      · exact ih h
      · cases h

theorem liteCjsonArrayItem_lt {index : Int} (h : liteCjsonArrayItem strtod lite index = some it)
    (hc : IsContainer it) : it.value.length < lite.value.length := by
  unfold liteCjsonArrayItem at h
  split at h
  · cases h
  · simp only at h
    split at h
    · cases h
    · obtain ⟨o, e, hparse, hpos⟩ := parsed_of_arrayItemLoop h
      have hlen := (container_length hparse hc).2
      exact container_lt (hpos (skip_pos hlen (Nat.le_refl 1))) hparse hc

theorem liteCjsonObjectItem_lt {key : List UInt8}
    (h : liteCjsonObjectItem strtod lite key = some it) (hc : IsContainer it) :
    it.value.length < lite.value.length := by
  unfold liteCjsonObjectItem at h
  split at h
  · cases h
  · simp only at h
    split at h
    · cases h
    · split at h
      next key value hwalk =>
        cases h
        exact walkMembers_lt hwalk hc
      next => cases h

end AliyunIot.Cjson

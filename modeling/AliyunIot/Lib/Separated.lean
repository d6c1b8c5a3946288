import AliyunIot.Lib.Json

/-!
# Parts with commas in between

A reader goes over a text from part to part: `step o` is the item of the part at the offset `o`
and the offset of the byte that ends it. `Reads` is the run of such a reader. What the bytes of
a single part are decides what a run reads (`parts_of_reads`), and the other way round
(`reads_of_parts`). The last part may be cut: it ends with the closing byte of the whole.
-/

namespace AliyunIot.Lib.Separated

open Lib.Json

variable {α β : Type}

/-- The items read from an offset, and the offset of the byte that ends the last one. -/
inductive Reads (content : List UInt8) (step : Nat → Option (β × Nat)) :
    Nat → List β → Nat → Prop where
  | last {o e : Nat} {x : β} : step o = some (x, e) → content[e]? ≠ some 44 →
      Reads content step o [x] e
  | more {o e last : Nat} {x : β} {xs : List β} : step o = some (x, e) →
      content[e]? = some 44 → Reads content step (e + 1) xs last →
      Reads content step o (x :: xs) last

/-- What the closing byte follows: whole parts, or parts of which the last one is cut and ends
with the closing byte itself. -/
def Closed (whole cut : α → Prop) (bytes : α → List UInt8) (closing : UInt8) (parts : List α)
    (s : List UInt8) : Prop :=
  ((∀ a ∈ parts, whole a) ∧ s = joined (parts.map bytes) ++ [closing]) ∨
    ∃ init a, parts = init ++ [a] ∧ (∀ a ∈ init, whole a) ∧ cut a ∧
      s = joined (parts.map bytes)

variable {content : List UInt8} {step : Nat → Option (β × Nat)} {o last : Nat} {xs : List β}

theorem Reads.ne_nil (h : Reads content step o xs last) : xs ≠ [] := by
  cases h with
  | last => exact List.cons_ne_nil _ _
  | more => exact List.cons_ne_nil _ _

section Parts

variable {whole cut : α → Prop} {bytes : α → List UInt8} {tell : α → β} {closing : UInt8}

theorem closed_cons {a : α} {parts : List α} {s : List UInt8} (ha : whole a) (hne : parts ≠ [])
    (h : Closed whole cut bytes closing parts s) :
    Closed whole cut bytes closing (a :: parts) (bytes a ++ 44 :: s) := by
  have hmap : parts.map bytes ≠ [] := by simpa using hne
  rcases h with ⟨hparts, rfl⟩ | ⟨init, b, rfl, hinit, hcut, rfl⟩
  · refine .inl ⟨List.forall_mem_cons.mpr ⟨ha, hparts⟩, ?_⟩
    rw [List.map_cons, joined_cons hmap]
    simp only [List.append_assoc, List.cons_append]
  · refine .inr ⟨a :: init, b, rfl, List.forall_mem_cons.mpr ⟨ha, hinit⟩, hcut, ?_⟩
    rw [List.map_cons, joined_cons hmap]

theorem parts_of_reads (hclosing : closing ≠ 44)
    (hstep : ∀ o x e c, o < content.length → step o = some (x, e) → content[e]? = some c →
      (c = 44 ∨ c = closing) → e + 1 < content.length →
      ∃ a, whole a ∧ tell a = x ∧ content.drop o = bytes a ++ content.drop e)
    (hlast : ∀ o x e, o < content.length → step o = some (x, e) → content[e]? = some closing →
      e + 1 = content.length →
      (∃ a, whole a ∧ tell a = x ∧ content.drop o = bytes a ++ [closing]) ∨
        ∃ a, cut a ∧ tell a = x ∧ content.drop o = bytes a)
    (h : Reads content step o xs last) (ho : o < content.length)
    (hb : content[last]? = some closing) (hend : last + 1 = content.length) :
    ∃ parts, parts.map tell = xs ∧ Closed whole cut bytes closing parts (content.drop o) := by
  induction h with
  | last hx _ =>
    rcases hlast _ _ _ ho hx hb hend with ⟨a, ha, htell, hdrop⟩ | ⟨a, ha, htell, hdrop⟩
    · exact ⟨[a], by rw [List.map_singleton, htell],
        .inl ⟨List.forall_mem_singleton.mpr ha, hdrop⟩⟩
    · exact ⟨[a], by rw [List.map_singleton, htell],
        .inr ⟨[], a, rfl, fun _ h => absurd h List.not_mem_nil, ha, hdrop⟩⟩
  | @more o e last x xs hx hcomma hrest ih =>
    obtain ⟨hlt, hget⟩ := List.getElem?_eq_some_iff.mp hcomma
    -- the closing byte is the last one, so the comma is not
    have hne : e ≠ last := by
      rintro rfl
      rw [hb] at hcomma
      exact hclosing (Option.some.inj hcomma)
    obtain ⟨a, ha, htell, hdrop⟩ := hstep _ _ _ _ ho hx hcomma (.inl rfl) (by omega)
    obtain ⟨parts, hparts, hclosed⟩ := ih (by omega) hb hend
    have hnil : parts ≠ [] := by
      rintro rfl
      exact hrest.ne_nil hparts.symm
    refine ⟨a :: parts, by rw [List.map_cons, htell, hparts], ?_⟩
    rw [hdrop, List.drop_eq_getElem_cons hlt, hget]
    exact closed_cons ha hnil hclosed

theorem reads_of_parts (hclosing : closing ≠ 44)
    (hstep : ∀ a o c rest, whole a → (c = 44 ∨ c = closing) →
      content.drop o = bytes a ++ c :: rest →
      step o = some (tell a, o + (bytes a).length))
    (hlast : ∀ a o, cut a → content.drop o = bytes a → step o = some (tell a, content.length - 1))
    (hend : content[content.length - 1]? = some closing) {parts : List α} (hne : parts ≠ [])
    (h : Closed whole cut bytes closing parts (content.drop o)) :
    Reads content step o (parts.map tell) (content.length - 1) := by
  have hstop : content[content.length - 1]? ≠ some 44 := by
    rw [hend]
    simpa using hclosing
  induction parts generalizing o with
  | nil => exact absurd rfl hne
  | cons a parts ih =>
    cases parts with
    | nil =>
      refine .last ?_ hstop
      rcases h with ⟨hparts, hdrop⟩ | ⟨init, b, heq, -, hcut, hdrop⟩
      · have hlen := congrArg List.length hdrop
        simp only [List.map_cons, List.map_nil, joined, List.length_drop, List.length_append,
          List.length_singleton] at hlen
        rw [hstep a o closing [] (hparts a List.mem_cons_self) (.inr rfl) hdrop]
        congr 2
        omega
      · obtain ⟨rfl, rfl⟩ : init = [] ∧ a = b := by
          have hone := congrArg List.length heq
          simp only [List.length_append, List.length_cons, List.length_nil] at hone
          obtain rfl := List.length_eq_zero_iff.mp (show init.length = 0 by omega)
          exact ⟨rfl, (List.cons.inj heq).1⟩
        exact hlast a o hcut hdrop
    | cons b parts =>
      have hjoined : ∀ s, joined ((a :: b :: parts).map bytes) ++ s =
          bytes a ++ 44 :: (joined ((b :: parts).map bytes) ++ s) := fun s => by
        rw [List.map_cons, joined_cons (by simp), List.append_assoc, List.cons_append]
      obtain ⟨ha, s, hdrop, hrest⟩ : whole a ∧ ∃ s, content.drop o = bytes a ++ 44 :: s ∧
          Closed whole cut bytes closing (b :: parts) s := by
        rcases h with ⟨hparts, hdrop⟩ | ⟨init, c, heq, hinit, hcut, hdrop⟩
        · obtain ⟨ha, hparts⟩ := List.forall_mem_cons.mp hparts
          exact ⟨ha, _, by rw [hdrop, hjoined], .inl ⟨hparts, rfl⟩⟩
        · cases init with
          | nil => simp at heq
          | cons d init =>
            obtain ⟨rfl, htail⟩ := List.cons.inj heq
            obtain ⟨ha, hinit⟩ := List.forall_mem_cons.mp hinit
            refine ⟨ha, joined ((b :: parts).map bytes), ?_,
              .inr ⟨init, c, htail, hinit, hcut, rfl⟩⟩
            have h0 := hjoined []
            simp only [List.append_nil] at h0
            rw [hdrop, h0]
      have hnext : content.drop (o + (bytes a).length + 1) = s := by
        rw [Nat.add_assoc, ← List.drop_drop, hdrop, List.drop_length_add_append]
        rfl
      have hcomma : content[o + (bytes a).length]? = some 44 := by
        rw [← List.getElem?_drop, hdrop, List.getElem?_append_right (Nat.le_refl _), Nat.sub_self]
        rfl
      exact .more (hstep a o 44 s ha (.inl rfl) hdrop) hcomma
        (ih (List.cons_ne_nil _ _) (by rw [hnext]; exact hrest))

end Parts

end AliyunIot.Lib.Separated

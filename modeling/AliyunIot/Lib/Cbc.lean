import Mathlib.Data.List.Basic

/-!
# Cipher block chaining

A block cipher of blocks `β` in CBC mode: `mix` adds a block to another, `enc` and
`dec` are the cipher under one key. A block is mixed with the cipher block before it,
the first with `iv`; `chain iv cs` is what the block behind `cs` is mixed with.
-/

namespace AliyunIot.Lib.Cbc

variable {β : Type} (mix : β → β → β)

def encrypt (enc : β → β) : β → List β → List β
  | _, [] => []
  | iv, p :: ps => enc (mix p iv) :: encrypt enc (enc (mix p iv)) ps

def decrypt (dec : β → β) : β → List β → List β
  | _, [] => []
  | iv, c :: cs => mix (dec c) iv :: decrypt dec c cs

/-- The cipher block before the next one. -/
def chain (iv : β) (cs : List β) : β := cs.getLast?.getD iv

@[simp] theorem chain_cons (iv c : β) (cs : List β) : chain iv (c :: cs) = chain c cs := by
  unfold chain
  cases cs with
  | nil => rfl
  | cons d cs =>
    rw [List.getLast?_cons_cons, List.getLast?_eq_some_getLast (List.cons_ne_nil d cs)]
    rfl

variable {mix} {enc dec : β → β}

variable (iv : β)

@[simp] theorem length_encrypt (ps : List β) : (encrypt mix enc iv ps).length = ps.length := by
  induction ps generalizing iv with
  | nil => rfl
  | cons p ps ih => rw [encrypt, List.length_cons, List.length_cons, ih]

@[simp] theorem length_decrypt (cs : List β) : (decrypt mix dec iv cs).length = cs.length := by
  induction cs generalizing iv with
  | nil => rfl
  | cons c cs ih => rw [decrypt, List.length_cons, List.length_cons, ih]

theorem encrypt_append (ps qs : List β) :
    encrypt mix enc iv (ps ++ qs) =
      encrypt mix enc iv ps ++ encrypt mix enc (chain iv (encrypt mix enc iv ps)) qs := by
  induction ps generalizing iv with
  | nil => rfl
  | cons p ps ih => rw [List.cons_append, encrypt, encrypt, chain_cons, List.cons_append, ih]

theorem decrypt_append (cs ds : List β) :
    decrypt mix dec iv (cs ++ ds) = decrypt mix dec iv cs ++ decrypt mix dec (chain iv cs) ds := by
  induction cs generalizing iv with
  | nil => rfl
  | cons c cs ih => rw [List.cons_append, decrypt, decrypt, chain_cons, List.cons_append, ih]

theorem decrypt_encrypt (hcipher : ∀ b, dec (enc b) = b) (hmix : ∀ p b, mix (mix p b) b = p)
    (iv : β) (ps : List β) : decrypt mix dec iv (encrypt mix enc iv ps) = ps := by
  induction ps generalizing iv with
  | nil => rfl
  | cons p ps ih => rw [encrypt, decrypt, hcipher, hmix, ih]

end AliyunIot.Lib.Cbc

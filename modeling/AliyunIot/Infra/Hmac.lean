import AliyunIot.Infra.Md5

/-!
# Keyed digests

`utils_hmac_sha256`, `utils_hmac_sha1`, `utils_hmac_sha1_hex` and `utils_hmac_md5`. A key of
more than a block is refused without a word: the caller's buffer is left as it was. For any
other key the digest is the keyed-hash code over the digest of the standard.
-/

namespace AliyunIot.Infra

open Lib

/-- `k_ipad` and `k_opad`: the key in 64 bytes of zeros, each byte mixed with `pad`. -/
def keyPad (key : List UInt8) (pad : UInt8) : List UInt8 :=
  (key ++ List.replicate (64 - key.length) 0).map (· ^^^ pad)

/-- The two passes of the `hmac` functions; `starts`, `update` and `finish` are those of the
digest. -/
def hmacPasses {γ : Type} (starts : γ) (update : γ → List UInt8 → γ) (finish : γ → List UInt8)
    (key msg : List UInt8) : List UInt8 :=
  let out := finish (update (update starts (keyPad key 0x36)) msg)
  finish (update (update starts (keyPad key 0x5c)) out)

def utilsHb2hex (hb : UInt8) : UInt8 :=
  let hb := hb &&& 0xF
  if hb < 10 then 0x30 + hb else hb - 10 + 0x61

def digestHex (out : List UInt8) : List UInt8 :=
  out.flatMap fun (b : UInt8) => [utilsHb2hex (b >>> 4), utilsHb2hex b]

/-- The guards of the `hmac` functions, over the buffer that is written at its start. -/
def hmacGuarded (msg : Option (List UInt8)) (digest : Option (List UInt8))
    (key : Option (List UInt8)) (text : List UInt8 → List UInt8 → List UInt8) :
    Option (List UInt8) :=
  match msg, digest, key with
  | some msg, some digest, some key =>
    if 64 < key.length then some digest
    else some (text key msg ++ digest.drop (text key msg).length)
  | _, digest, _ => digest

/-- `utils_hmac_sha256`: what it leaves in `output`. `context` is what is on the stack. -/
def utilsHmacSha256 (context : Sha256Context) (msg key output : Option (List UInt8)) :
    Option (List UInt8) :=
  hmacGuarded msg output key fun key msg =>
    hmacPasses (utilsSha256Starts (utilsSha256Init context)) utilsSha256Update
      (fun ctx => (utilsSha256Finish ctx (output.getD [])).2) key msg

def utilsHmacSha1 (context : Sha1Context) (msg digest key : Option (List UInt8)) :
    Option (List UInt8) :=
  hmacGuarded msg digest key fun key msg =>
    digestHex (hmacPasses (utilsSha1Starts (utilsSha1Init context)) utilsSha1Update
      (fun ctx => (utilsSha1Finish ctx).2) key msg)

/-- `utils_hmac_sha1_hex`, which in spite of its name writes the bytes. -/
def utilsHmacSha1Hex (context : Sha1Context) (msg digest key : Option (List UInt8)) :
    Option (List UInt8) :=
  hmacGuarded msg digest key fun key msg =>
    hmacPasses (utilsSha1Starts (utilsSha1Init context)) utilsSha1Update
      (fun ctx => (utilsSha1Finish ctx).2) key msg

def utilsHmacMd5 (context : Md5Context) (msg digest key : Option (List UInt8)) :
    Option (List UInt8) :=
  hmacGuarded msg digest key fun key msg =>
    digestHex (hmacPasses (utilsMd5Starts (utilsMd5Init context)) utilsMd5Update
      (fun ctx => (utilsMd5Finish ctx).2) key msg)

/-! ## The passes -/

variable {key : List UInt8}

theorem length_keyPad (h : key.length ≤ 64) (pad : UInt8) : (keyPad key pad).length = 64 := by
  rw [keyPad, List.length_map, List.length_append, List.length_replicate]
  omega

theorem keyPad_eq (h : key.length ≤ 64) (hash : List UInt8 → List UInt8)
    (pad : UInt8) : keyPad key pad = (BlockHash.macKey hash key).map (· ^^^ pad) := by
  rw [keyPad, BlockHash.macKey_short h]

variable {msg : List UInt8}

theorem hmacPasses_eq {γ : Type} {starts : γ} {update : γ → List UInt8 → γ}
    {finish : γ → List UInt8} {hash : List UInt8 → List UInt8} {size : Nat}
    (hpieces : ∀ pieces : List (List UInt8), (∀ p ∈ pieces, p.length < 4294967296) →
      finish (pieces.foldl update starts) = hash pieces.flatten)
    (hsize : ∀ msg, (hash msg).length = size) (hlt : size < 4294967296)
    (hkey : key.length ≤ 64) (hmsg : msg.length < 4294967296) :
    hmacPasses starts update finish key msg = BlockHash.hmac hash key msg := by
  have hpass (pad : UInt8) (text : List UInt8) (htext : text.length < 4294967296) :
      finish (update (update starts (keyPad key pad)) text) = hash (keyPad key pad ++ text) := by
    have h := hpieces [keyPad key pad, text] (by
      intro p hp
      rcases List.mem_cons.mp hp with rfl | hp
      · rw [length_keyPad hkey]
        decide
      · rw [List.mem_singleton.mp hp]
        exact htext)
    rw [List.flatten_cons, List.flatten_cons, List.flatten_nil, List.append_nil] at h
    exact h
  unfold hmacPasses
  rw [hpass _ _ hmsg, hpass _ _ (by rw [hsize]; exact hlt), BlockHash.hmac,
    keyPad_eq hkey hash, keyPad_eq hkey hash]

/-! ## The functions -/

/-- Two digits of base 16 for each byte, the higher one first. -/
def baseSixteen (bytes : List UInt8) : List UInt8 :=
  bytes.flatMap fun b =>
    [UInt8.ofNat (Nat.digitChar (b.toNat / 16)).toNat,
      UInt8.ofNat (Nat.digitChar (b.toNat % 16)).toNat]

theorem utilsHb2hex_eq (hb : UInt8) :
    utilsHb2hex hb = UInt8.ofNat (Nat.digitChar (hb.toNat % 16)).toNat := by
  have hall : ∀ n < 16, (if UInt8.ofNat n < 10 then 0x30 + UInt8.ofNat n
      else UInt8.ofNat n - 10 + 0x61) = UInt8.ofNat (Nat.digitChar n).toNat := by decide
  have hlow : UInt8.ofNat (hb.toNat % 16) = hb &&& 0xF := by
    have hmask : (hb &&& 0xF).toNat = hb.toNat % 16 := Nat.and_two_pow_sub_one_eq_mod hb.toNat 4
    rw [← hmask, UInt8.ofNat_toNat]
  rw [← hall _ (Nat.mod_lt _ (by decide)), hlow]
  rfl

theorem digestHex_eq (out : List UInt8) : digestHex out = baseSixteen out := by
  unfold digestHex baseSixteen
  congr 1
  funext b
  have hlt := b.toNat_lt
  have hhigh : (b >>> 4).toNat = b.toNat / 16 := by
    simp [UInt8.toNat_shiftRight, Nat.shiftRight_eq_div_pow]
  rw [utilsHb2hex_eq, utilsHb2hex_eq, hhigh, Nat.mod_eq_of_lt (by omega)]

/-- What stands in a buffer that a text may have been written to. -/
def writtenFor (key : List UInt8) (text digest : List UInt8) : List UInt8 :=
  if key.length ≤ 64 then text ++ digest.drop text.length else digest

variable {digest : List UInt8}

theorem hmacGuarded_eq {text : List UInt8} {f : List UInt8 → List UInt8 → List UInt8}
    (h : key.length ≤ 64 → f key msg = text) :
    hmacGuarded (some msg) (some digest) (some key) f = some (writtenFor key text digest) := by
  unfold hmacGuarded writtenFor
  dsimp only
  by_cases hkey : key.length ≤ 64
  · rw [if_neg (Nat.not_lt.mpr hkey), if_pos hkey, h hkey]
  · rw [if_pos (Nat.lt_of_not_le hkey), if_neg hkey]

theorem utilsHmacSha256_eq (context : Sha256Context) {output : List UInt8}
    (hmsg : msg.length < 4294967296) :
    utilsHmacSha256 context (some msg) (some key) (some output) =
      some (writtenFor key (BlockHash.hmac Fips180.sha256 key msg) output) :=
  hmacGuarded_eq fun hkey => hmacPasses_eq
    (fun pieces h => (((Sha256Context.carries_starts _).updates pieces h).finish output).2)
    Fips180.length_sha256 (by decide) hkey hmsg

theorem utilsHmacSha1_eq (context : Sha1Context) (hmsg : msg.length < 4294967296) :
    utilsHmacSha1 context (some msg) (some digest) (some key) =
      some (writtenFor key (baseSixteen (BlockHash.hmac Fips180.sha1 key msg)) digest) :=
  hmacGuarded_eq fun hkey => (digestHex_eq _).trans <| congrArg baseSixteen
    (hmacPasses_eq (fun pieces h => ((Carries.starts sha1State _).updates pieces h).sha1Finish)
      Fips180.length_sha1 (by decide) hkey hmsg)

theorem utilsHmacSha1Hex_eq (context : Sha1Context) (hmsg : msg.length < 4294967296) :
    utilsHmacSha1Hex context (some msg) (some digest) (some key) =
      some (writtenFor key (BlockHash.hmac Fips180.sha1 key msg) digest) :=
  hmacGuarded_eq fun hkey =>
    hmacPasses_eq (fun pieces h => ((Carries.starts sha1State _).updates pieces h).sha1Finish)
      Fips180.length_sha1 (by decide) hkey hmsg

theorem utilsHmacMd5_eq (context : Md5Context) (hmsg : msg.length < 4294967296) :
    utilsHmacMd5 context (some msg) (some digest) (some key) =
      some (writtenFor key (baseSixteen (BlockHash.hmac Rfc1321.md5 key msg)) digest) :=
  hmacGuarded_eq fun hkey => (digestHex_eq _).trans <| congrArg baseSixteen
    (hmacPasses_eq (fun pieces h => ((Carries.starts md5State _).updates pieces h).md5Finish)
      Rfc1321.length_md5 (by decide) hkey hmsg)

/-- With a key of at most a block the codes are those of the standard, and with a longer one
nothing is written. -/
theorem hmac_standard (sha256 : Sha256Context) (sha1 : Sha1Context) (md5 : Md5Context)
    (msg key buffer : List UInt8) (hmsg : msg.length < 4294967296) :
    utilsHmacSha256 sha256 (some msg) (some key) (some buffer) =
        some (writtenFor key (BlockHash.hmac Fips180.sha256 key msg) buffer) ∧
      utilsHmacSha1 sha1 (some msg) (some buffer) (some key) =
        some (writtenFor key (baseSixteen (BlockHash.hmac Fips180.sha1 key msg)) buffer) ∧
      utilsHmacSha1Hex sha1 (some msg) (some buffer) (some key) =
        some (writtenFor key (BlockHash.hmac Fips180.sha1 key msg) buffer) ∧
      utilsHmacMd5 md5 (some msg) (some buffer) (some key) =
        some (writtenFor key (baseSixteen (BlockHash.hmac Rfc1321.md5 key msg)) buffer) :=
  ⟨utilsHmacSha256_eq sha256 hmsg, utilsHmacSha1_eq sha1 hmsg, utilsHmacSha1Hex_eq sha1 hmsg,
    utilsHmacMd5_eq md5 hmsg⟩

theorem hmac_standard_keys :
    utilsHmacSha256 sha256Zero (some [1]) (some [7, 8]) (some []) =
        some (BlockHash.hmac Fips180.sha256 [7, 8] [1]) ∧
      utilsHmacSha1 sha1Zero (some [1]) (some []) (some [7, 8]) =
        some (baseSixteen (BlockHash.hmac Fips180.sha1 [7, 8] [1])) ∧
      utilsHmacSha1Hex sha1Zero (some [1]) (some []) (some [7, 8]) =
        some (BlockHash.hmac Fips180.sha1 [7, 8] [1]) ∧
      utilsHmacMd5 md5Zero (some [1]) (some []) (some [7, 8]) =
        some (baseSixteen (BlockHash.hmac Rfc1321.md5 [7, 8] [1])) ∧
      utilsHmacMd5 md5Zero (some [1]) (some [9]) (some (List.replicate 65 0)) = some [9] := by
  obtain ⟨h₁, h₂, h₃, h₄⟩ := hmac_standard sha256Zero sha1Zero md5Zero [1] [7, 8] [] (by decide)
  have hlong := (hmac_standard sha256Zero sha1Zero md5Zero [1] (List.replicate 65 0) [9]
    (by decide)).2.2.2
  have hshort : ∀ text, writtenFor [7, 8] text [] = text := fun text => by simp [writtenFor]
  rw [hshort] at h₁ h₂ h₃ h₄
  exact ⟨h₁, h₂, h₃, h₄, hlong⟩

end AliyunIot.Infra

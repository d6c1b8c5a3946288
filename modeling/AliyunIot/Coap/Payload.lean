import Mathlib.Algebra.Ring.Int.Defs
import Mathlib.Algebra.Ring.Nat
import AliyunIot.Coap.Message
import AliyunIot.Infra.Aes

/-!
# Encrypted payloads

`iotx_aes_cbc_encrypt`, `iotx_aes_cbc_decrypt` and `IOT_CoAP_GetMessagePayload` of
`iotx_coap_api.c`. The buffer a payload is decrypted into is a list of bytes; a result
`none` is an access outside of it.
-/

namespace AliyunIot.Coap

open Infra Lib

abbrev iotxSuccess : Int := 0
abbrev iotxErrInvalidParam : Int := -1
abbrev iotxErrNoMem : Int := -2

/-- `"543yhjy97ae7fyfg"`. -/
def aesIv : AesBlock :=
  #v[0x35, 0x34, 0x33, 0x79, 0x68, 0x6A, 0x79, 0x39, 0x37, 0x61, 0x65, 0x37, 0x66, 0x79, 0x66, 0x67]

def memOf (bytes : List UInt8) : Mem := fun i => bytes.getD i 0

/-- `iotx_aes_cbc_encrypt`: the result and the bytes stored in `out`. -/
def iotxAesCbcEncrypt (cipher : AesCipher) (src : List UInt8) (key : AesBlock) (calloc : Bool) :
    Int × List UInt8 :=
  let len := src.length
  let len1 := 16 * (len / 16)
  let len2 := len1 + 16
  let pad := len2 - len
  let aes := infraAes128Init key aesIv calloc
  let (ret, aes, head) :=
    if len1 ≠ 0 then infraAes128CbcEncrypt cipher aes (some (blocksAt (memOf src) 0 (len1 / 16)))
    else (0, aes, [])
  let (ret, last) :=
    if ret = 0 ∧ pad ≠ 0 then
      let buf := src.drop len1 ++ List.replicate pad (UInt8.ofNat pad)
      let (ret, _, last) := infraAes128CbcEncrypt cipher aes (some (blocksAt (memOf buf) 0 1))
      (ret, last)
    else (ret, [])
  (if ret = 0 then len2 else 0, blockBytes (head ++ last))

/-- A `char`, on a platform where it is signed or not. -/
def charVal (signed : Bool) (b : UInt8) : Int :=
  if signed ∧ 128 ≤ b.toNat then (b.toNat : Int) - 256 else b.toNat

def loadAt (out : List UInt8) (i : Int) : Option UInt8 := if 0 ≤ i then out[i.toNat]? else none

def putAt (out : List UInt8) (i : Int) (b : UInt8) : Option (List UInt8) :=
  if 0 ≤ i ∧ i < out.length then some (out.set i.toNat b) else none

def putBlocks (out : List UInt8) (off : Nat) (bs : List AesBlock) : Option (List UInt8) :=
  if off + 16 * bs.length ≤ out.length then some (storeAt out off (blockBytes bs)) else none

def iotxAesCbcDecrypt (cipher : AesCipher) (signed : Bool) (src : Option Mem) (len : Nat)
    (key : AesBlock) (out : List UInt8) (calloc : Bool) : Option (Int × List UInt8) :=
  match infraAes128Init key aesIv calloc with
  | none => some (0, out)
  | some aes => do
    let n := len / 16
    let (ret, aes, head) :=
      if n > 1 then infraAes128CbcDecrypt cipher (some aes) (src.map fun m => blocksAt m 0 (n - 1))
      else (0, some aes, [])
    let out ← putBlocks out 0 head
    if ret = 0 then
      let offset := if n > 0 then 16 * (n - 1) else 0
      let out ← putAt out offset 0
      let (ret, _, last) := infraAes128CbcDecrypt cipher aes (src.map fun m => blocksAt m offset 1)
      let out ← putBlocks out offset last
      if ret = 0 then
        let pad := charVal signed (← loadAt out (len - 1))
        let out ← putAt out (len - pad) 0
        return (len - pad, out)
      else return (0, out)
    else return (0, out)

/-- The fields of `Cloud_CoAPMessage` that hold the payload: the memory it points to,
or `none` for `NULL`. -/
structure PayloadMessage where
  payload : Option Mem
  payloadlen : UInt16

/-- `memcpy` of `len` bytes of `out`, an `int`, to the payload. -/
def copyPayload (message : PayloadMessage) (out : List UInt8) (len : Int) :
    Option PayloadMessage :=
  if 0 ≤ len ∧ len ≤ out.length then
    some
      { payload := message.payload.map fun m i => if i < len.toNat then out.getD i 0 else m i
        payloadlen := UInt16.ofInt len }
  else none

/-- `IOT_CoAP_GetMessagePayload`; `psk` is whether the endpoint is of `COAP_ENDPOINT_PSK`.
The length reported is the `payloadlen` of the message behind it. -/
def iotCoapGetMessagePayload (cipher : AesCipher) (signed psk : Bool) (key : AesBlock)
    (message : PayloadMessage) (malloc calloc : Bool) : Option (Int × PayloadMessage) :=
  if coapMsgMaxPduLen ≤ message.payloadlen.toNat then some (iotxErrInvalidParam, message)
  else if psk then
    if malloc = false then some (iotxErrNoMem, message)
    else do
      let (len, payload) ← iotxAesCbcDecrypt cipher signed message.payload message.payloadlen.toNat
        key (List.replicate coapMsgMaxPduLen 0) calloc
      if len ≠ 0 then return (iotxSuccess, ← copyPayload message payload len)
      else return (iotxSuccess, message)
  else some (iotxSuccess, message)

/-! ## Stores into the buffer -/

theorem storeAt_eq {buf bs : List UInt8} {off : Nat} (h : off + bs.length ≤ buf.length) :
    storeAt buf off bs = buf.take off ++ bs ++ buf.drop (off + bs.length) := by
  refine List.take_of_length_le (Nat.le_of_eq ?_)
  rw [List.length_append, List.length_append, List.length_take, List.length_drop]
  omega

theorem storeAt_set_storeAt {buf as bs : List UInt8} (hbs : bs ≠ [])
    (h : as.length + bs.length ≤ buf.length) (b : UInt8) :
    storeAt ((storeAt buf 0 as).set as.length b) as.length bs = storeAt buf 0 (as ++ bs) := by
  have hpos := List.length_pos_iff.mpr hbs
  have hset : (storeAt buf 0 as).set as.length b = as ++ (buf.drop as.length).set 0 b := by
    rw [storeAt_eq (by omega), List.take_zero, List.nil_append, Nat.zero_add,
      List.set_append_right _ _ (Nat.le_refl _), Nat.sub_self]
  have hall : storeAt buf 0 (as ++ bs) = as ++ bs ++ buf.drop (as.length + bs.length) := by
    rw [storeAt_eq (by rw [List.length_append]; omega), List.take_zero, List.nil_append,
      Nat.zero_add, List.length_append]
  have hlen : as.length + bs.length ≤ ((storeAt buf 0 as).set as.length b).length := by
    rw [List.length_set, length_storeAt]
    exact h
  have hrest : (as ++ (buf.drop as.length).set 0 b).drop (as.length + bs.length) =
      buf.drop (as.length + bs.length) := by
    rw [List.drop_append, List.drop_eq_nil_of_le (by omega), List.nil_append,
      Nat.add_sub_cancel_left, List.drop_set_of_lt hpos, List.drop_drop]
  rw [storeAt_eq hlen, hset, List.take_left, hrest, hall]

theorem putBlocks_of_le {out : List UInt8} {off : Nat} {bs : List AesBlock}
    (h : off + 16 * bs.length ≤ out.length) :
    putBlocks out off bs = some (storeAt out off (blockBytes bs)) := if_pos h

theorem putAt_of_lt {out : List UInt8} {i : Nat} (h : i < out.length) (b : UInt8) :
    putAt out i b = some (out.set i b) := by
  unfold putAt
  rw [if_pos ⟨Int.natCast_nonneg i, Int.ofNat_lt.mpr h⟩, Int.toNat_natCast]

theorem loadAt_eq {out : List UInt8} (i : Nat) : loadAt out i = out[i]? := by
  unfold loadAt
  rw [if_pos (Int.natCast_nonneg i), Int.toNat_natCast]

/-! ## Decryption -/

section
variable {cipher : AesCipher} {signed : Bool} {src : Mem} {len : Nat} {key : AesBlock}
  {out : List UInt8}

/-- The plaintext of the blocks that are deciphered: of a single one even if fewer than
sixteen bytes were received. -/
def plainBlocks (cipher : AesCipher) (key : AesBlock) (src : Mem) (len : Nat) : List AesBlock :=
  Cbc.decrypt xorBlock (cipher.decrypt key) aesIv (blocksAt src 0 (len / 16 - 1 + 1))

@[simp] theorem length_plainBlocks :
    (plainBlocks cipher key src len).length = len / 16 - 1 + 1 := by
  rw [plainBlocks, Cbc.length_decrypt, length_blocksAt]

theorem decrypt_eq (h : 16 * (len / 16 - 1 + 1) ≤ out.length) :
    iotxAesCbcDecrypt cipher signed (some src) len key out true =
      (loadAt (storeAt out 0 (blockBytes (plainBlocks cipher key src len))) (len - 1)).bind fun b =>
        (putAt (storeAt out 0 (blockBytes (plainBlocks cipher key src len)))
          (len - charVal signed b) 0).map fun out => (len - charVal signed b, out) := by
  have hhead : (if len / 16 > 1 then
      infraAes128CbcDecrypt cipher (some ⟨key, aesIv⟩) (some (blocksAt src 0 (len / 16 - 1)))
      else (0, some ⟨key, aesIv⟩, [])) =
      (0, some ⟨key, Cbc.chain aesIv (blocksAt src 0 (len / 16 - 1))⟩,
        Cbc.decrypt xorBlock (cipher.decrypt key) aesIv (blocksAt src 0 (len / 16 - 1))) := by
    split
    · exact cbcDecrypt_eq cipher key aesIv _
    · next hn =>
      rw [show len / 16 - 1 = 0 by omega]
      rfl
  have hoffset : (if len / 16 > 0 then 16 * (len / 16 - 1) else 0) = 16 * (len / 16 - 1) := by
    split <;> omega
  have hplain : plainBlocks cipher key src len =
      Cbc.decrypt xorBlock (cipher.decrypt key) aesIv (blocksAt src 0 (len / 16 - 1)) ++
        Cbc.decrypt xorBlock (cipher.decrypt key)
          (Cbc.chain aesIv (blocksAt src 0 (len / 16 - 1)))
          (blocksAt src (16 * (len / 16 - 1)) 1) := by
    rw [plainBlocks, blocksAt_add, Cbc.decrypt_append, Nat.zero_add]
  have hlast (iv : AesBlock) : (Cbc.decrypt xorBlock (cipher.decrypt key) iv
      (blocksAt src (16 * (len / 16 - 1)) 1)).length = 1 := by
    rw [Cbc.length_decrypt, length_blocksAt]
  rw [hplain]
  generalize hhd : Cbc.decrypt xorBlock (cipher.decrypt key) aesIv
    (blocksAt src 0 (len / 16 - 1)) = head at *
  have hlen : head.length = len / 16 - 1 := by
    rw [← hhd, Cbc.length_decrypt, length_blocksAt]
  have hlen16 : 16 * (len / 16 - 1) = (blockBytes head).length := by
    rw [length_blockBytes, hlen]
  unfold iotxAesCbcDecrypt infraAes128Init
  simp only [if_true, Option.map_some, hhead, hoffset]
  rw [putBlocks_of_le (by rw [hlen]; omega)]
  simp only [Option.bind_eq_bind, Option.bind_some, cbcDecrypt_eq]
  have htail := hlast (Cbc.chain aesIv (blocksAt src 0 (len / 16 - 1)))
  generalize Cbc.decrypt xorBlock (cipher.decrypt key)
    (Cbc.chain aesIv (blocksAt src 0 (len / 16 - 1)))
    (blocksAt src (16 * (len / 16 - 1)) 1) = last at htail ⊢
  rw [putAt_of_lt (by rw [length_storeAt]; omega), Option.bind_some,
    putBlocks_of_le (by rw [List.length_set, length_storeAt, htail]; omega), Option.bind_some,
    if_pos trivial, blockBytes_append]
  have hstore : storeAt ((storeAt out 0 (blockBytes head)).set (16 * (len / 16 - 1)) 0)
      (16 * (len / 16 - 1)) (blockBytes last) =
      storeAt out 0 (blockBytes head ++ blockBytes last) := by
    rw [hlen16]
    refine storeAt_set_storeAt (fun hnil => ?_) ?_ 0
    · have hlength := length_blockBytes last
      rw [hnil, htail] at hlength
      cases hlength
    · rw [length_blockBytes, length_blockBytes, hlen, htail]
      omega
  rw [hstore]
  congr 1
  funext b
  rw [Option.map_eq_bind]
  rfl

end

/-! ## The round trip -/

section
variable {cipher : AesCipher} {src : List UInt8} {key : AesBlock}

theorem holds_memOf (bytes : List UInt8) : Holds (memOf bytes) 0 bytes := by
  intro i b hb
  rw [Nat.zero_add, memOf, List.getD_eq_getElem?_getD, hb]
  rfl

theorem slice_memOf {bytes : List UInt8} {n : Nat} (h : n ≤ bytes.length) :
    slice (memOf bytes) 0 n = bytes.take n := by
  have hholds := holds_memOf bytes
  rw [← List.take_append_drop n bytes] at hholds
  have hslice := slice_of_holds (holds_append.mp hholds).1
  rw [List.take_append_drop, List.length_take, Nat.min_eq_left h] at hslice
  exact hslice

theorem slice_add (m : Mem) (off n k : Nat) :
    slice m off (n + k) = slice m off n ++ slice m (off + n) k := by
  induction n generalizing off with
  | zero =>
    rw [Nat.zero_add]
    rfl
  | succ n ih =>
    rw [Nat.succ_add, slice_succ, slice_succ, ih, List.cons_append, Nat.add_assoc, Nat.add_comm 1]

theorem blockBytes_blocksAt (m : Mem) (off n : Nat) :
    blockBytes (blocksAt m off n) = slice m off (16 * n) := by
  induction n generalizing off with
  | zero => rfl
  | succ n ih =>
    rw [blocksAt, blockBytes_cons, ih, toList_blockAt, Nat.mul_succ, Nat.add_comm (16 * n),
      slice_add]

/-- How many bytes are added: a whole block to one that is full. -/
def padding (src : List UInt8) : Nat := 16 * (src.length / 16) + 16 - src.length

def paddedBlocks (src : List UInt8) : List AesBlock :=
  blocksAt (memOf src) 0 (src.length / 16) ++
    blocksAt (memOf (src.drop (16 * (src.length / 16)) ++
      List.replicate (padding src) (UInt8.ofNat (padding src)))) 0 1

theorem padding_bounds (src : List UInt8) : 0 < padding src ∧ padding src ≤ 16 := by
  unfold padding
  omega

theorem length_paddedBlocks (src : List UInt8) :
    (paddedBlocks src).length = src.length / 16 + 1 := by
  rw [paddedBlocks, List.length_append, length_blocksAt, length_blocksAt]

theorem blockBytes_paddedBlocks (src : List UInt8) :
    blockBytes (paddedBlocks src) =
      src ++ List.replicate (padding src) (UInt8.ofNat (padding src)) := by
  have hlast : (src.drop (16 * (src.length / 16)) ++
      List.replicate (padding src) (UInt8.ofNat (padding src))).length = 16 := by
    rw [List.length_append, List.length_drop, List.length_replicate]
    unfold padding
    omega
  rw [paddedBlocks, blockBytes_append, blockBytes_blocksAt, blockBytes_blocksAt,
    slice_memOf (by omega), slice_memOf (Nat.le_of_eq hlast.symm), List.take_of_length_le
      (Nat.le_of_eq hlast), ← List.append_assoc, List.take_append_drop]

theorem encrypt_eq (cipher : AesCipher) (src : List UInt8) (key : AesBlock) :
    iotxAesCbcEncrypt cipher src key true =
      (((16 * (src.length / 16 + 1) : Nat) : Int),
        blockBytes (Cbc.encrypt xorBlock (cipher.encrypt key) aesIv (paddedBlocks src))) := by
  have hpad := padding_bounds src
  have hhead : (if 16 * (src.length / 16) ≠ 0 then
      infraAes128CbcEncrypt cipher (some ⟨key, aesIv⟩)
        (some (blocksAt (memOf src) 0 (16 * (src.length / 16) / 16)))
      else (0, some ⟨key, aesIv⟩, [])) =
      (0, some ⟨key, Cbc.chain aesIv (Cbc.encrypt xorBlock (cipher.encrypt key) aesIv
        (blocksAt (memOf src) 0 (src.length / 16)))⟩,
        Cbc.encrypt xorBlock (cipher.encrypt key) aesIv
          (blocksAt (memOf src) 0 (src.length / 16))) := by
    rw [Nat.mul_div_cancel_left _ (by decide)]
    split
    · exact cbcEncrypt_eq cipher key aesIv _
    · next hn =>
      rw [show src.length / 16 = 0 by omega]
      rfl
  unfold iotxAesCbcEncrypt infraAes128Init
  simp only [if_true, hhead]
  have hpadding : 16 * (src.length / 16) + 16 - src.length = padding src := rfl
  rw [hpadding, cbcEncrypt_eq, if_pos (show True ∧ padding src ≠ 0 from ⟨trivial, by omega⟩)]
  rw [if_pos rfl, paddedBlocks, Cbc.encrypt_append, Nat.mul_succ]

theorem accepted_of_ne_zero {calloc : Bool} (h : (iotxAesCbcEncrypt cipher src key calloc).1 ≠ 0) :
    calloc = true := by
  cases calloc with
  | true => rfl
  | false =>
    have hpad := padding_bounds src
    have hpadding : 16 * (src.length / 16) + 16 - src.length = padding src := rfl
    refine absurd ?_ h
    unfold iotxAesCbcEncrypt infraAes128Init
    dsimp only
    rw [hpadding]
    by_cases hlen : 16 * (src.length / 16) ≠ 0
    · simp only [if_pos hlen, Bool.false_eq_true, if_false, infraAes128CbcEncrypt]
      rfl
    · simp only [if_neg hlen, Bool.false_eq_true, if_false, infraAes128CbcEncrypt]
      rw [if_pos (show True ∧ padding src ≠ 0 from ⟨trivial, by omega⟩)]
      rfl

theorem decrypt_encrypted (hcipher : ∀ b, cipher.decrypt key (cipher.encrypt key b) = b)
    (signed : Bool) {m : Mem} (hm : Holds m 0 (iotxAesCbcEncrypt cipher src key true).2)
    {out : List UInt8} (hout : 16 * (src.length / 16 + 1) ≤ out.length) :
    ∃ out', iotxAesCbcDecrypt cipher signed (some m) (16 * (src.length / 16 + 1)) key out true =
        some ((src.length : Int), out') ∧ out'.take src.length = src := by
  have hpad := padding_bounds src
  have hlen : 16 * (src.length / 16 + 1) = src.length + padding src := by
    unfold padding
    omega
  have hcount : 16 * (src.length / 16 + 1) / 16 - 1 + 1 = src.length / 16 + 1 := by omega
  rw [encrypt_eq] at hm
  have hplain : plainBlocks cipher key m (16 * (src.length / 16 + 1)) = paddedBlocks src := by
    have hblocks := blocksAt_of_holds hm
    rw [Cbc.length_encrypt, length_paddedBlocks] at hblocks
    rw [plainBlocks, hcount, hblocks, Cbc.decrypt_encrypt hcipher xorBlock_cancel]
  have hstored : storeAt out 0 (blockBytes (paddedBlocks src)) =
      src ++ (List.replicate (padding src) (UInt8.ofNat (padding src)) ++
        out.drop (src.length + padding src)) := by
    rw [storeAt_eq, blockBytes_paddedBlocks, List.take_zero, List.nil_append, Nat.zero_add,
      List.length_append, List.length_replicate, List.append_assoc]
    rw [length_blockBytes, length_paddedBlocks]
    omega
  have hval : charVal signed (UInt8.ofNat (padding src)) = padding src := by
    have hnat : (UInt8.ofNat (padding src)).toNat = padding src :=
      UInt8.toNat_ofNat_of_lt' (by rw [UInt8.size]; omega)
    unfold charVal
    rw [hnat, if_neg (by omega)]
  have hlast : loadAt (storeAt out 0 (blockBytes (paddedBlocks src)))
      (((16 * (src.length / 16 + 1) : Nat) : Int) - 1) = some (UInt8.ofNat (padding src)) := by
    rw [hlen, show ((src.length + padding src : Nat) : Int) - 1 =
      ((src.length + (padding src - 1) : Nat) : Int) by omega, loadAt_eq, hstored,
      List.getElem?_append_right (by omega), List.getElem?_append_left (by
        rw [List.length_replicate]; omega), List.getElem?_replicate, if_pos (by omega)]
  rw [decrypt_eq (by rw [hcount]; exact hout), hplain, hlast, Option.bind_some, hval, hlen,
    show ((src.length + padding src : Nat) : Int) - padding src = (src.length : Nat) by omega,
    putAt_of_lt (by rw [length_storeAt]; omega), Option.map_some]
  refine ⟨_, rfl, ?_⟩
  rw [hstored, List.set_append_right _ _ (Nat.le_refl _), List.take_left]

end

/-! ## What is received -/

def plainBlock (cipher : AesCipher) (key : AesBlock) (src : Mem) (off : Nat) : AesBlock :=
  xorBlock (cipher.decrypt key (blockAt src off))
    (if off = 0 then aesIv else blockAt src (off - 16))

/-- The byte before `len`: of a whole number of blocks, or of less than one, a byte of
plaintext, else one of the cleared buffer. -/
def lastByte (cipher : AesCipher) (key : AesBlock) (src : Mem) (len : Nat) : UInt8 :=
  if len % 16 = 0 ∨ len < 16 then
    (plainBlock cipher key src (16 * ((len - 1) / 16))).toList.getD ((len - 1) % 16) 0
  else 0

/-- There is a byte before `len`, and it says how many of `len` bytes are padding. -/
def LastByteFits (cipher : AesCipher) (signed : Bool) (key : AesBlock) (src : Mem) (len : Nat) :
    Prop :=
  len ≠ 0 ∧ 0 ≤ charVal signed (lastByte cipher key src len) ∧
    charVal signed (lastByte cipher key src len) ≤ len

instance (cipher : AesCipher) (signed : Bool) (key : AesBlock) (src : Mem) (len : Nat) :
    Decidable (LastByteFits cipher signed key src len) :=
  inferInstanceAs (Decidable (_ ∧ _ ∧ _))

/-- `iotx_aes_cbc_decrypt` stays in its buffer and fails or returns a length of at most `len`. -/
def DecryptBounded (len : Nat) (decrypted : Option (Int × List UInt8)) : Prop :=
  ∃ ret out, decrypted = some (ret, out) ∧ 0 ≤ ret ∧ ret ≤ len

/-- `IOT_CoAP_GetMessagePayload` stays in its buffers and fails or reports no longer payload. -/
def PayloadBounded (message : PayloadMessage) (got : Option (Int × PayloadMessage)) : Prop :=
  ∃ ret message', got = some (ret, message') ∧
    (ret ≠ iotxSuccess ∨ message'.payloadlen.toNat ≤ message.payloadlen.toNat)

section
variable {cipher : AesCipher} {signed : Bool} {src : Mem} {len : Nat} {key : AesBlock}

theorem chain_blocksAt (iv : AesBlock) (n : Nat) :
    Cbc.chain iv (blocksAt src 0 n) = if 16 * n = 0 then iv else blockAt src (16 * n - 16) := by
  cases n with
  | zero => rfl
  | succ n =>
    rw [blocksAt_add, if_neg (by omega), Cbc.chain, List.getLast?_append]
    show ([blockAt src (0 + 16 * n)].getLast?.or _).getD iv = _
    rw [List.getLast?_singleton, Option.some_or, Option.getD_some]
    congr 1
    omega

theorem plainBlocks_eq : plainBlocks cipher key src len =
    Cbc.decrypt xorBlock (cipher.decrypt key) aesIv (blocksAt src 0 (len / 16 - 1)) ++
      [plainBlock cipher key src (16 * (len / 16 - 1))] := by
  rw [plainBlocks, blocksAt_add, Cbc.decrypt_append, chain_blocksAt, Nat.zero_add]
  rfl

theorem loadAt_plain (h0 : len ≠ 0) (hlen : len < coapMsgMaxPduLen) :
    loadAt (storeAt (List.replicate coapMsgMaxPduLen 0) 0
      (blockBytes (plainBlocks cipher key src len))) ((len : Int) - 1) =
    some (lastByte cipher key src len) := by
  have hmax : coapMsgMaxPduLen = 1280 := rfl
  have hhead : (blockBytes (Cbc.decrypt xorBlock (cipher.decrypt key) aesIv
      (blocksAt src 0 (len / 16 - 1)))).length = 16 * (len / 16 - 1) := by
    rw [length_blockBytes, Cbc.length_decrypt, length_blocksAt]
  have hstored : (blockBytes (plainBlocks cipher key src len)).length =
    16 * (len / 16 - 1 + 1) := by
    rw [length_blockBytes, length_plainBlocks]
  rw [show (len : Int) - 1 = ((len - 1 : Nat) : Int) by omega, loadAt_eq,
    storeAt_eq (by rw [hstored, List.length_replicate]; omega), List.take_zero, List.nil_append]
  unfold lastByte
  split
  · next hblock =>
    have hindex : len - 1 - 16 * (len / 16 - 1) = (len - 1) % 16 := by omega
    have hblockno : len / 16 - 1 = (len - 1) / 16 := by omega
    rw [List.getElem?_append_left (by rw [hstored]; omega), plainBlocks_eq, blockBytes_append,
      List.getElem?_append_right (by rw [hhead]; omega), hhead, hindex, blockBytes_cons,
      show blockBytes [] = [] from rfl, List.append_nil, hblockno]
    have hlt : (len - 1) % 16 <
        (plainBlock cipher key src (16 * ((len - 1) / 16))).toList.length := by
      rw [Vector.length_toList]
      exact Nat.mod_lt _ (by decide)
    rw [List.getD_eq_getElem?_getD, List.getElem?_eq_getElem hlt, Option.getD_some]
  · next hblock =>
    rw [List.getElem?_append_right (by rw [hstored]; omega), List.getElem?_drop,
      List.getElem?_replicate, if_pos (by rw [hstored]; omega)]

theorem decrypt_cleared (cipher : AesCipher) (signed : Bool) (src : Mem) (key : AesBlock)
    (h0 : len ≠ 0) (hlen : len < coapMsgMaxPduLen) :
    let left := (len : Int) - charVal signed (lastByte cipher key src len)
    (0 ≤ left ∧ left < coapMsgMaxPduLen ∧
      ∃ out, out.length = coapMsgMaxPduLen ∧
        iotxAesCbcDecrypt cipher signed (some src) len key
          (List.replicate coapMsgMaxPduLen 0) true = some (left, out)) ∨
    (¬ (0 ≤ left ∧ left < coapMsgMaxPduLen) ∧
      iotxAesCbcDecrypt cipher signed (some src) len key
        (List.replicate coapMsgMaxPduLen 0) true = none) := by
  intro left
  have hmax : coapMsgMaxPduLen = 1280 := rfl
  have hroom : 16 * (len / 16 - 1 + 1) ≤ (List.replicate coapMsgMaxPduLen (0 : UInt8)).length := by
    rw [List.length_replicate]
    omega
  rw [decrypt_eq hroom, loadAt_plain h0 hlen, Option.bind_some]
  unfold putAt
  rw [length_storeAt, List.length_replicate]
  by_cases hin : 0 ≤ left ∧ left < coapMsgMaxPduLen
  · refine .inl ⟨hin.1, hin.2, _, ?_, by rw [if_pos hin]; rfl⟩
    rw [List.length_set, length_storeAt, List.length_replicate]
  · exact .inr ⟨hin, by rw [if_neg hin]; rfl⟩

theorem decrypt_empty : iotxAesCbcDecrypt cipher signed (some src) 0 key
    (List.replicate coapMsgMaxPduLen 0) true = none := by
  rw [decrypt_eq (by rw [List.length_replicate]; decide)]
  rfl

theorem decryptBounded_iff (hlen : len < coapMsgMaxPduLen) :
    DecryptBounded len (iotxAesCbcDecrypt cipher signed (some src) len key
      (List.replicate coapMsgMaxPduLen 0) true) ↔ LastByteFits cipher signed key src len := by
  by_cases h0 : len = 0
  · rw [h0, decrypt_empty]
    exact iff_of_false (fun ⟨_, _, h, _⟩ => by cases h) fun h => h.1 rfl
  · rcases decrypt_cleared cipher signed src key h0 hlen with ⟨h1, h2, out, -, heq⟩ | ⟨hnot, heq⟩
    · rw [heq]
      constructor
      · rintro ⟨ret, out', h, hret⟩
        cases h
        exact ⟨h0, by omega, by omega⟩
      · rintro ⟨-, hpad⟩
        exact ⟨_, _, rfl, by omega, by omega⟩
    · rw [heq]
      refine iff_of_false (fun ⟨_, _, h, _⟩ => by cases h) ?_
      rintro ⟨-, hpad⟩
      exact hnot ⟨by omega, by omega⟩

def Deciphers (psk malloc calloc : Bool) (message : PayloadMessage) : Prop :=
  message.payloadlen.toNat < coapMsgMaxPduLen ∧ psk = true ∧ malloc = true ∧ calloc = true

theorem decrypt_null (cipher : AesCipher) (signed : Bool) (key : AesBlock) (len : Nat)
    {out : List UInt8} (hout : 0 < out.length) :
    ∃ out', iotxAesCbcDecrypt cipher signed none len key out true = some (0, out') := by
  unfold iotxAesCbcDecrypt infraAes128Init
  simp only [if_true, Option.map_none, infraAes128CbcDecrypt]
  rw [putBlocks_of_le (by split <;> exact Nat.zero_le _)]
  simp only [Option.bind_eq_bind, Option.bind_some]
  by_cases hn : len / 16 > 1
  · simp only [if_pos hn]
    exact ⟨_, rfl⟩
  · have hoffset : (if len / 16 > 0 then 16 * (len / 16 - 1) else 0) = 0 := by
      split <;> omega
    simp only [if_neg hn, hoffset, if_true]
    rw [putAt_of_lt (by rw [length_storeAt]; exact hout), Option.bind_some,
      putBlocks_of_le (Nat.zero_le _), Option.bind_some]
    exact ⟨_, rfl⟩

theorem toNat_ofInt {n : Nat} (h : n < 65536) : (UInt16.ofInt n).toNat = n := by
  have hmod : ((n : Int) % 2 ^ 16).toNat = n := by omega
  unfold UInt16.ofInt
  rw [hmod, UInt16.toNat_ofNat_of_lt' h]

theorem payload_deciphered {payload : Mem} {payloadlen : UInt16}
    (hlen : payloadlen.toNat < coapMsgMaxPduLen) :
    PayloadBounded ⟨some payload, payloadlen⟩ (iotCoapGetMessagePayload cipher signed true key
      ⟨some payload, payloadlen⟩ true true) ↔
      LastByteFits cipher signed key payload payloadlen.toNat := by
  have hmax : coapMsgMaxPduLen = 1280 := rfl
  unfold iotCoapGetMessagePayload
  rw [if_neg (Nat.not_le.mpr hlen), if_pos rfl, if_neg (by decide)]
  unfold PayloadBounded LastByteFits
  by_cases h0 : payloadlen.toNat = 0
  · rw [h0, decrypt_empty]
    exact iff_of_false (fun ⟨_, _, h, _⟩ => by cases h) fun h => h.1 rfl
  · rcases decrypt_cleared cipher signed payload key h0 hlen with
      ⟨h1, h2, out, hout, heq⟩ | ⟨hnot, heq⟩
    · rw [heq]
      simp only [Option.bind_eq_bind, Option.bind_some]
      generalize charVal signed (lastByte cipher key payload payloadlen.toNat) = pad at h1 h2 ⊢
      obtain ⟨left, hleft⟩ := Int.eq_ofNat_of_zero_le h1
      rw [hleft] at h2 ⊢
      by_cases hz : left = 0
      · rw [if_neg (fun h => h (congrArg Nat.cast hz))]
        exact iff_of_true ⟨_, _, rfl, .inr (Nat.le_refl _)⟩ ⟨h0, by omega, by omega⟩
      · obtain ⟨copied, hcopy, hcopied⟩ : ∃ copied : PayloadMessage,
            copyPayload ⟨some payload, payloadlen⟩ out left = some copied ∧
              copied.payloadlen.toNat = left := by
          refine ⟨_, if_pos ⟨Int.natCast_nonneg _, by omega⟩, ?_⟩
          exact toNat_ofInt (by omega)
        rw [if_pos (by omega), hcopy]
        constructor
        · rintro ⟨ret, message', h, hret⟩
          cases h
          rcases hret with hret | hret
          · exact absurd rfl hret
          · rw [hcopied] at hret
            exact ⟨h0, by omega, by omega⟩
        · rintro ⟨-, hpad⟩
          refine ⟨_, _, rfl, .inr ?_⟩
          rw [hcopied]
          omega
    · rw [heq]
      refine iff_of_false (fun ⟨_, _, h, _⟩ => by cases h) ?_
      rintro ⟨-, hpad⟩
      exact hnot ⟨by omega, by omega⟩

theorem payloadBounded_iff (psk malloc calloc : Bool) (message : PayloadMessage) :
    PayloadBounded message
      (iotCoapGetMessagePayload cipher signed psk key message malloc calloc) ↔
    (Deciphers psk malloc calloc message → ∀ payload ∈ message.payload,
      LastByteFits cipher signed key payload message.payloadlen.toNat) := by
  obtain ⟨payload, payloadlen⟩ := message
  have hkept {ret : Int} : PayloadBounded ⟨payload, payloadlen⟩
      (some (ret, ⟨payload, payloadlen⟩)) := ⟨ret, _, rfl, .inr (Nat.le_refl _)⟩
  by_cases hdeciphers : Deciphers psk malloc calloc ⟨payload, payloadlen⟩
  · obtain ⟨hlen, rfl, rfl, rfl⟩ := hdeciphers
    cases payload with
    | some payload =>
      refine (payload_deciphered hlen).trans ⟨fun h _ m hm => ?_, fun h => ?_⟩
      · cases hm
        exact h
      · exact h ⟨hlen, rfl, rfl, rfl⟩ payload rfl
    | none =>
      refine iff_of_true ?_ fun _ m hm => by cases hm
      have hcleared : 0 < (List.replicate coapMsgMaxPduLen (0 : UInt8)).length := by
        rw [List.length_replicate]
        exact Nat.lt_of_le_of_lt (Nat.zero_le _) hlen
      obtain ⟨out, hnull⟩ := decrypt_null cipher signed key payloadlen.toNat hcleared
      unfold iotCoapGetMessagePayload
      rw [if_neg (Nat.not_le.mpr hlen), if_pos rfl, if_neg (by decide), hnull]
      exact hkept
  · refine iff_of_true ?_ fun h => absurd h hdeciphers
    unfold iotCoapGetMessagePayload
    by_cases hlen : coapMsgMaxPduLen ≤ payloadlen.toNat
    · rw [if_pos hlen]
      exact hkept
    · rw [if_neg hlen]
      cases psk with
      | false => exact hkept
      | true =>
        rw [if_pos rfl]
        cases malloc with
        | false => exact hkept
        | true =>
          cases calloc with
          | false => exact hkept
          | true => exact absurd ⟨Nat.lt_of_not_le hlen, rfl, rfl, rfl⟩ hdeciphers

end

/-- Bytes whose number is an `int`, also with the padding. -/
abbrev IntSized := { bs : List UInt8 // bs.length + 16 < 2 ^ 31 }

theorem encryptedPayload_iff (cipher : AesCipher)
    (hcipher : ∀ key b, cipher.decrypt key (cipher.encrypt key b) = b) :
    (∀ (signed calloc : Bool) (key : AesBlock) (src : IntSized) (m : Mem) (out : List UInt8),
      let encrypted := iotxAesCbcEncrypt cipher src.1 key calloc
      encrypted.1 ≠ 0 → Holds m 0 encrypted.2 → encrypted.2.length ≤ out.length →
      ∃ out', iotxAesCbcDecrypt cipher signed (some m) encrypted.1.toNat key out true =
        some ((src.1.length : Int), out') ∧ out'.take src.1.length = src.1) ∧
    (∀ (signed : Bool) (key : AesBlock) (src : Mem) (len : Nat), len < coapMsgMaxPduLen →
      (DecryptBounded len (iotxAesCbcDecrypt cipher signed (some src) len key
        (List.replicate coapMsgMaxPduLen 0) true) ↔ LastByteFits cipher signed key src len)) ∧
    ∀ (signed psk malloc calloc : Bool) (key : AesBlock) (message : PayloadMessage),
      PayloadBounded message
        (iotCoapGetMessagePayload cipher signed psk key message malloc calloc) ↔
      (Deciphers psk malloc calloc message → ∀ payload ∈ message.payload,
        LastByteFits cipher signed key payload message.payloadlen.toNat) := by
  refine ⟨?_, fun signed key src len hlen => decryptBounded_iff hlen,
    fun signed psk malloc calloc key message => payloadBounded_iff psk malloc calloc message⟩
  intro signed calloc key src m out encrypted haccepted hm hout
  obtain rfl : calloc = true := accepted_of_ne_zero haccepted
  have hret : encrypted.1.toNat = 16 * (src.1.length / 16 + 1) := by
    show (iotxAesCbcEncrypt cipher src.1 key true).1.toNat = _
    rw [encrypt_eq, Int.toNat_natCast]
  have hlen : encrypted.2.length = 16 * (src.1.length / 16 + 1) := by
    show (iotxAesCbcEncrypt cipher src.1 key true).2.length = _
    rw [encrypt_eq, length_blockBytes, Cbc.length_encrypt, length_paddedBlocks]
  rw [hret]
  exact decrypt_encrypted (hcipher key) signed hm (by rw [← hlen]; exact hout)

/-- A cipher in which two blocks stand for each other, and every other for itself. -/
def pairCipher (a b : AesBlock) : AesCipher :=
  let swap (x : AesBlock) : AesBlock := if x = a then b else if x = b then a else x
  ⟨fun _ => swap, fun _ => swap⟩

theorem pairCipher_inverse (a b key x : AesBlock) :
    (pairCipher a b).decrypt key ((pairCipher a b).encrypt key x) = x := by
  show (if (if x = a then b else if x = b then a else x) = a then b
    else if (if x = a then b else if x = b then a else x) = b then a
    else if x = a then b else if x = b then a else x) = x
  by_cases ha : x = a
  · subst ha
    rw [if_pos rfl, if_pos rfl]
    split
    · next h => exact h
    · rfl
  · rw [if_neg ha]
    by_cases hb : x = b
    · subst hb
      rw [if_pos rfl, if_pos rfl]
    · rw [if_neg hb, if_neg ha, if_neg hb]

/-- The bytes `0 … 15`. -/
def countingKey : AesBlock := Vector.ofFn fun i => UInt8.ofNat i.1

/-- The padded text `hi`, mixed with the first vector, and its cipher block under
`countingKey`. -/
def hiBlock : AesBlock :=
  #v[0x5D, 0x5D, 0x3D, 0x77, 0x66, 0x64, 0x77, 0x37, 0x39, 0x6F, 0x6B, 0x39, 0x68, 0x77, 0x68, 0x69]

def hiCipherBlock : AesBlock :=
  #v[0x96, 0xEA, 0x12, 0x22, 0x25, 0x52, 0x69, 0xAA, 0xBC, 0xD1, 0x87, 0x47, 0xBE, 0x58, 0x9B, 0x29]

theorem encryptedPayload_iff_hi :
    (∃ out, iotxAesCbcDecrypt (pairCipher hiBlock hiCipherBlock) true
      (some (memOf hiCipherBlock.toList)) 16 countingKey (List.replicate 16 0) true =
        some (2, out) ∧ out.take 2 = [0x68, 0x69]) ∧
    DecryptBounded 16 (iotxAesCbcDecrypt (pairCipher hiBlock hiCipherBlock) true
      (some (memOf hiCipherBlock.toList)) 16 countingKey
      (List.replicate coapMsgMaxPduLen 0) true) := by
  have hencrypted : iotxAesCbcEncrypt (pairCipher hiBlock hiCipherBlock) [0x68, 0x69] countingKey
      true = (16, hiCipherBlock.toList) := by decide +kernel
  have h := encryptedPayload_iff (pairCipher hiBlock hiCipherBlock) (pairCipher_inverse _ _)
  refine ⟨?_, ?_⟩
  · have hround := h.1 true true countingKey ⟨[0x68, 0x69], by decide⟩
      (memOf hiCipherBlock.toList) (List.replicate 16 0)
    rw [hencrypted] at hround
    exact hround (by decide) (holds_memOf _) (by decide)
  · exact (h.2.1 true countingKey (memOf hiCipherBlock.toList) 16 (by decide)).mpr
      (by decide +kernel)

/-- A text of fifteen bytes and a sixteenth that says `32`, mixed with the first vector,
and its cipher block under `countingKey`. -/
def wideBlock : AesBlock :=
  #v[0x05, 0x05, 0x01, 0x4A, 0x5C, 0x5F, 0x4F, 0x0E, 0x0F, 0x58, 0x04, 0x55, 0x05, 0x1D, 0x03, 0x47]

def wideCipherBlock : AesBlock :=
  #v[0x6D, 0x13, 0xA2, 0xF7, 0x42, 0xCC, 0xFB, 0xF7, 0x7E, 0x15, 0xA1, 0xCC, 0x81, 0x05, 0xA5, 0x77]

/-- An empty payload, and a block that says it has more padding than it is long. -/
theorem wide_not_payloadBounded :
    ¬ PayloadBounded ⟨some (memOf []), 0⟩
      (iotCoapGetMessagePayload (pairCipher wideBlock wideCipherBlock) false true countingKey
        ⟨some (memOf []), 0⟩ true true) ∧
    ¬ PayloadBounded ⟨some (memOf wideCipherBlock.toList), 16⟩
      (iotCoapGetMessagePayload (pairCipher wideBlock wideCipherBlock) false true countingKey
        ⟨some (memOf wideCipherBlock.toList), 16⟩ true true) :=
  ⟨fun h => ((payload_deciphered (by decide)).mp h).1 rfl,
    fun h => absurd ((payload_deciphered (by decide)).mp h) (by decide +kernel)⟩

end AliyunIot.Coap

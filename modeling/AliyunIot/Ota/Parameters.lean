import AliyunIot.Infra.Atoi
import AliyunIot.Infra.JsonLookup
import AliyunIot.Ota.Announced

/-!
# What upgrade parameters depend on

The parsers of `ota_lib.c` copy texts of bounded length without a terminator: the digest over the
one of the announcement before, the size of a configuration into a buffer that is not cleared.
`parameters_from_message_iff` says for which messages what is told still depends on the message
alone, and is the number that is written in it.
-/

namespace AliyunIot.Ota

/-! ## The library behind the parsers -/

/-- With `atoi` of the C library. -/
def OtaLib.withAtoi (lib : OtaLib) : OtaLib :=
  { lib with atoi := fun s => UInt32.ofInt (Libc.atoi s.val) }

def otalibJsonValueOf (json : List UInt8) (key : String) : Option (List UInt8) :=
  let name := cstrOf (key.toList.map fun c => UInt8.ofNat c.toNat)
  match JsonParser.jsonGetValueByName (cstrOf json) json.length name with
  | .value val valLen _ => some ((json.drop val).take valLen)
  | _ => none

/-! ## What is asked -/

/-- The parameters of a firmware as texts and numbers, if the message was read. -/
def firmwareTold : Parsed → Option (Option CStr × Option CStr × CStr × UInt32)
  | .ok h => some (h.version, h.purl, cstrOf h.md5sum, h.sizeFile)
  | .error _ => none

def configTold :
    Parsed → Option (Option CStr × UInt32 × Option CStr × Option CStr × Option CStr × Option CStr)
  | .ok h => some (h.configId, h.configSize, h.sign, h.signMethod, h.cotaUrl, h.getType)
  | .error _ => none

structure IsNumeral (text : List UInt8) : Prop where
  ne_nil : text ≠ []
  digits : ∀ b ∈ text, Format.isDigit b = true

instance (text : List UInt8) : Decidable (IsNumeral text) :=
  decidable_of_iff (text ≠ [] ∧ ∀ b ∈ text, Format.isDigit b = true)
    ⟨fun ⟨hne, hdigits⟩ => ⟨hne, hdigits⟩, fun h => ⟨h.ne_nil, h.digits⟩⟩

def numeralValue (text : List UInt8) : Nat := (Cjson.leadingNat text).2

/-- `md5sum` before the byte that is never written. -/
def OtaHandle.HasDigest (h : OtaHandle) : Prop := h.md5sum.length = 32

section
variable (lib : OtaLib) (env : CallbackEnv) (doc : List UInt8)

/-- What `otalib_GetParams` tells depends on the message only, and a numeral in it is told as its
number. -/
structure FirmwareFromMessage : Prop where
  same : ∀ (h₁ h₂ : OtaHandle) (stack₁ stack₂ : List UInt8), h₁.HasDigest → h₂.HasDigest →
    firmwareTold (otalibGetParams lib { env with stack := stack₁ } doc h₁) =
      firmwareTold (otalibGetParams lib { env with stack := stack₂ } doc h₂)
  number : ∀ {h after : OtaHandle} {size : List UInt8}, otalibGetParams lib env doc h = .ok after →
    lib.jsonValueOf doc "size" = some size → IsNumeral size →
    after.sizeFile.toNat = numeralValue size

/-- The same for `otalib_GetConfigParams`, whose stack buffer is not cleared. -/
structure ConfigFromMessage : Prop where
  same : ∀ (h₁ h₂ : OtaHandle) (stack₁ stack₂ : List UInt8), stack₁.length = otaFilesizeStrLen →
    stack₂.length = otaFilesizeStrLen →
    configTold (otalibGetConfigParams lib { env with stack := stack₁ } doc h₁) =
      configTold (otalibGetConfigParams lib { env with stack := stack₂ } doc h₂)
  number : ∀ {h after : OtaHandle} {stack size : List UInt8}, stack.length = otaFilesizeStrLen →
    otalibGetConfigParams lib { env with stack := stack } doc h = .ok after →
    lib.jsonValueOf doc "configSize" = some size → IsNumeral size →
    after.configSize.toNat = numeralValue size

/-- The digest is as long as its buffer or ends with a NUL, and the size is in the range of an
`int`. -/
def FirmwareClear : Prop :=
  ∀ version url md5 size, Reads lib env doc "version" version → Reads lib env doc "url" url →
    Fits lib doc "md5" 32 md5 → Fits lib doc "size" otaFilesizeStrLen size →
    (md5.length = 32 ∨ 0 ∈ md5) ∧ (IsNumeral size → numeralValue size ≤ 2147483647)

/-- The size is as long as its buffer or settled by itself, and in the range of an `int`. -/
def ConfigClear : Prop :=
  ∀ configId size sign method url getType, Reads lib env doc "configId" configId →
    Fits lib doc "configSize" otaFilesizeStrLen size → Reads lib env doc "sign" sign →
    Reads lib env doc "signMethod" method → Reads lib env doc "url" url →
    Reads lib env doc "getType" getType →
    (size.length = otaFilesizeStrLen ∨ Libc.Settled size) ∧
      (IsNumeral size → numeralValue size ≤ 2147483647)

/-! ## What is read -/

variable {lib env doc}

theorem getParams_of_reads {version url md5 size : List UInt8} (h : OtaHandle)
    (hv : Reads lib env doc "version" version) (hu : Reads lib env doc "url" url)
    (hs : Fits lib doc "md5" 32 md5) (hz : Fits lib doc "size" otaFilesizeStrLen size) :
    otalibGetParams lib env doc h =
      .ok { h with
        version := some (cstrOf version), purl := some (cstrOf url)
        md5sum := overwrite h.md5sum md5, sizeFile := lib.atoi (cstrOf size) } := by
  unfold otalibGetParams otalibGetFirmwareVarlenPara otalibGetFirmwareFixlenPara
  rw [hv.found, hu.found, hs.found, hz.found, hv.malloc, hu.malloc]
  have hmd5 : ¬ md5.length > 32 := Nat.not_lt.mpr hs.short
  have hsize : ¬ size.length > otaFilesizeStrLen := Nat.not_lt.mpr hz.short
  simp only [if_true, bind_ok, if_neg hmd5, if_neg hsize]

theorem getConfigParams_of_reads {configId size sign method url getType : List UInt8}
    (h : OtaHandle) (hi : Reads lib env doc "configId" configId)
    (hz : Fits lib doc "configSize" otaFilesizeStrLen size) (hs : Reads lib env doc "sign" sign)
    (hm : Reads lib env doc "signMethod" method) (hu : Reads lib env doc "url" url)
    (hg : Reads lib env doc "getType" getType) :
    otalibGetConfigParams lib env doc h =
      .ok { h with
        configId := some (cstrOf configId), configSize := configSizeOf lib env size
        sign := some (cstrOf sign), signMethod := some (cstrOf method)
        cotaUrl := some (cstrOf url), getType := some (cstrOf getType) } := by
  unfold otalibGetConfigParams otalibGetFirmwareVarlenPara otalibGetFirmwareFixlenPara
  rw [hi.found, hz.found, hs.found, hm.found, hu.found, hg.found, hi.malloc, hs.malloc, hm.malloc,
    hu.malloc, hg.malloc]
  have hsize : ¬ size.length > otaFilesizeStrLen := Nat.not_lt.mpr hz.short
  simp only [if_true, bind_ok, if_neg hsize]

/-! ## Texts behind which something is left -/

theorem cstrOf_append (s t : List UInt8) :
    (cstrOf (s ++ t)).val =
      if 0 ∈ s then (cstrOf s).val else s ++ (cstrOf t).val := by
  have hnul : (s.takeWhile fun b => decide (b ≠ 0)).length = s.length ↔ 0 ∉ s := by
    constructor
    · intro hlen hzero
      have hself := (List.takeWhile_sublist _).eq_of_length hlen
      exact absurd (List.takeWhile_eq_self_iff.mp hself 0 hzero) (by decide)
    · intro hzero
      rw [List.takeWhile_eq_self_iff.mpr]
      exact fun b hb => decide_eq_true fun h => hzero (h ▸ hb)
  show (s ++ t).takeWhile _ = if 0 ∈ s then s.takeWhile _ else s ++ t.takeWhile _
  rw [List.takeWhile_append]
  by_cases hzero : 0 ∈ s
  · rw [if_neg fun h => hnul.mp h hzero, if_pos hzero]
  · rw [if_pos (hnul.mpr hzero), if_neg hzero]

theorem cstrOf_overwrite_iff {len : Nat} {text : List UInt8} (hshort : text.length ≤ len) :
    (∀ b₁ b₂ : List UInt8, b₁.length = len → b₂.length = len →
      cstrOf (overwrite b₁ text) = cstrOf (overwrite b₂ text)) ↔ text.length = len ∨ 0 ∈ text := by
  constructor
  · intro hsame
    by_contra hno
    obtain ⟨hlen, hzero⟩ := not_or.mp hno
    obtain ⟨rest, hrest⟩ : ∃ rest, len - text.length = rest + 1 :=
      Nat.exists_eq_succ_of_ne_zero (by omega)
    have heq := hsame (List.replicate len 0) (List.replicate len 1) List.length_replicate
      List.length_replicate
    rw [Subtype.ext_iff] at heq
    simp only [overwrite, List.drop_replicate, hrest, cstrOf_append, if_neg hzero] at heq
    exact absurd (List.append_cancel_left heq) (by rw [List.replicate_succ]; exact nofun)
  · intro h b₁ b₂ h₁ h₂
    apply Subtype.ext
    rw [overwrite, overwrite, cstrOf_append, cstrOf_append]
    rcases h with hlen | hzero
    · rw [List.drop_eq_nil_of_le (by omega), List.drop_eq_nil_of_le (by omega)]
    · rw [if_pos hzero, if_pos hzero]

/-! ## Numbers -/

theorem ofInt_inj {i j : Int} (hi : Cjson.IsInt i) (hj : Cjson.IsInt j)
    (h : UInt32.ofInt i = UInt32.ofInt j) : i = j := by
  have hnat := congrArg UInt32.toNat h
  simp only [UInt32.ofInt, UInt32.toNat_ofNat'] at hnat
  unfold Cjson.IsInt Cjson.intMin Cjson.intMax at hi hj
  omega

theorem isInt_atoi (s : List UInt8) : Cjson.IsInt (Libc.atoi s) := by
  rw [Libc.atoi_eq]
  exact Cjson.isInt_saturate _

theorem numeral_iff {text : List UInt8} (h : IsNumeral text) :
    (UInt32.ofInt (Libc.atoi text)).toNat = numeralValue text ↔
      numeralValue text ≤ 2147483647 := by
  rw [Libc.atoi_digits h.digits, numeralValue]
  generalize (Cjson.leadingNat text).2 = n
  unfold Cjson.saturate Cjson.intMax Cjson.intMin
  simp only [UInt32.ofInt, UInt32.toNat_ofNat']
  split
  · omega
  · split <;> omega

theorem cstrOf_numeral {text : List UInt8} (h : IsNumeral text) : (cstrOf text).val = text := by
  refine List.takeWhile_eq_self_iff.mpr fun b hb => decide_eq_true ?_
  rintro rfl
  exact absurd (h.digits 0 hb) (by decide)

theorem settled_of_nul {s : List UInt8} (h : 0 ∈ s) : Libc.Settled s := by
  refine .inl ⟨0, ?_, by decide⟩
  have hspace : 0 ∈ s.dropWhile Libc.isspace := by
    rw [← List.takeWhile_append_dropWhile (p := Libc.isspace) (l := s)] at h
    rcases List.mem_append.mp h with htake | hdrop
    · exact absurd (List.mem_takeWhile_imp htake) (by decide)
    · exact hdrop
  unfold Libc.numberPart
  rcases hs : s.dropWhile Libc.isspace with _ | ⟨b, ds⟩ <;> rw [hs] at hspace
  · exact hspace
  · rw [Libc.behindSign]
    split
    · next hsign =>
      rcases List.mem_cons.mp hspace with hb | hds
      · rw [← hb] at hsign
        exact absurd hsign (by decide)
      · exact hds
    · exact hspace

theorem configSize_text {stack size : List UInt8} (hstack : stack.length = otaFilesizeStrLen)
    (hshort : size.length ≤ otaFilesizeStrLen) :
    (overwrite stack size).take otaFilesizeStrLen = overwrite stack size := by
  refine List.take_of_length_le ?_
  rw [overwrite, List.length_append, List.length_drop]
  omega

theorem configSizeOf_iff (lib : OtaLib) (env : CallbackEnv) {size : List UInt8}
    (hshort : size.length ≤ otaFilesizeStrLen) :
    (∀ stack₁ stack₂ : List UInt8, stack₁.length = otaFilesizeStrLen →
      stack₂.length = otaFilesizeStrLen →
      configSizeOf lib.withAtoi { env with stack := stack₁ } size =
        configSizeOf lib.withAtoi { env with stack := stack₂ } size) ↔
      size.length = otaFilesizeStrLen ∨ Libc.Settled size := by
  constructor
  · intro hsame
    by_contra hno
    obtain ⟨hlen, hsettled⟩ := not_or.mp hno
    have hzero : 0 ∉ size := fun h => hsettled (settled_of_nul h)
    obtain ⟨rest, hrest⟩ : ∃ rest, otaFilesizeStrLen - size.length = rest + 1 :=
      Nat.exists_eq_succ_of_ne_zero (by omega)
    have hone : (List.replicate size.length 0 ++ 49 :: List.replicate rest (0 : UInt8)).length =
        otaFilesizeStrLen := by
      simp only [List.length_append, List.length_replicate, List.length_cons]
      omega
    have heq := hsame (List.replicate otaFilesizeStrLen 0)
      (List.replicate size.length 0 ++ 49 :: List.replicate rest 0) List.length_replicate hone
    have hleft : (cstrOf (overwrite (List.replicate otaFilesizeStrLen 0) size)).val = size := by
      rw [overwrite, cstrOf_append, if_neg hzero, List.drop_replicate, hrest, List.replicate_succ]
      exact List.append_nil size
    have hright : (cstrOf (overwrite (List.replicate size.length 0 ++
        49 :: List.replicate rest 0) size)).val = size ++ [49] := by
      rw [overwrite, cstrOf_append, if_neg hzero, List.drop_left' List.length_replicate]
      cases rest <;> rfl
    unfold configSizeOf at heq
    rw [configSize_text List.length_replicate hshort, configSize_text hone hshort] at heq
    have hint := ofInt_inj (isInt_atoi _) (isInt_atoi _) heq
    rw [hleft, hright] at hint
    exact Libc.atoi_append_one hsettled hint.symm
  · intro h stack₁ stack₂ h₁ h₂
    unfold configSizeOf
    rw [configSize_text h₁ hshort, configSize_text h₂ hshort]
    by_cases hzero : size.length = otaFilesizeStrLen ∨ 0 ∈ size
    · rw [(cstrOf_overwrite_iff hshort).mpr hzero stack₁ stack₂ h₁ h₂]
    · obtain ⟨hlen, hzero⟩ := not_or.mp hzero
      have hread (stack : List UInt8) : lib.withAtoi.atoi (cstrOf (overwrite stack size)) =
          UInt32.ofInt (Libc.atoi size) := by
        show UInt32.ofInt (Libc.atoi (cstrOf (overwrite stack size)).val) = _
        rw [overwrite, cstrOf_append, if_neg hzero,
          Libc.atoi_append_of_settled (h.resolve_left hlen)]
      rw [hread, hread]

/-! ## The parsers -/

theorem reads_of_getParams {h after : OtaHandle} (hok : otalibGetParams lib env doc h = .ok after) :
    ∃ version url md5 size, Reads lib env doc "version" version ∧ Reads lib env doc "url" url ∧
      Fits lib doc "md5" 32 md5 ∧ Fits lib doc "size" otaFilesizeStrLen size := by
  have hread := getParams_read lib env doc h
  rw [hok] at hread
  cases hread with
  | all hv hu hs hz => exact ⟨_, _, _, _, hv, hu, hs, hz⟩

theorem reads_of_getConfigParams {h after : OtaHandle}
    (hok : otalibGetConfigParams lib env doc h = .ok after) :
    ∃ configId size sign method url getType, Reads lib env doc "configId" configId ∧
      Fits lib doc "configSize" otaFilesizeStrLen size ∧ Reads lib env doc "sign" sign ∧
      Reads lib env doc "signMethod" method ∧ Reads lib env doc "url" url ∧
      Reads lib env doc "getType" getType := by
  have hread := getConfigParams_read lib env doc h
  rw [hok] at hread
  cases hread with
  | all hi hz hs hm hu hg => exact ⟨_, _, _, _, _, _, hi, hz, hs, hm, hu, hg⟩

theorem Reads.stack {key : String} {value : List UInt8} (h : Reads lib env doc key value)
    (stack : List UInt8) : Reads lib { env with stack := stack } doc key value :=
  ⟨h.found, h.malloc⟩

theorem Reads.of_stack {key : String} {value stack : List UInt8}
    (h : Reads lib { env with stack := stack } doc key value) : Reads lib env doc key value :=
  ⟨h.found, h.malloc⟩

theorem firmwareTold_none {stack : List UInt8} (h : OtaHandle)
    (hno : ¬ ∃ version url md5 size, Reads lib env doc "version" version ∧
      Reads lib env doc "url" url ∧ Fits lib doc "md5" 32 md5 ∧
      Fits lib doc "size" otaFilesizeStrLen size) :
    firmwareTold (otalibGetParams lib { env with stack := stack } doc h) = none := by
  cases hok : otalibGetParams lib { env with stack := stack } doc h with
  | error after => rfl
  | ok after =>
    obtain ⟨_, _, _, _, hv, hu, hs, hz⟩ := reads_of_getParams hok
    exact absurd ⟨_, _, _, _, hv.of_stack, hu.of_stack, hs, hz⟩ hno

theorem configTold_none {stack : List UInt8} (h : OtaHandle)
    (hno : ¬ ∃ configId size sign method url getType, Reads lib env doc "configId" configId ∧
      Fits lib doc "configSize" otaFilesizeStrLen size ∧ Reads lib env doc "sign" sign ∧
      Reads lib env doc "signMethod" method ∧ Reads lib env doc "url" url ∧
      Reads lib env doc "getType" getType) :
    configTold (otalibGetConfigParams lib { env with stack := stack } doc h) = none := by
  cases hok : otalibGetConfigParams lib { env with stack := stack } doc h with
  | error after => rfl
  | ok after =>
    obtain ⟨_, _, _, _, _, _, hi, hz, hs, hm, hu, hg⟩ := reads_of_getConfigParams hok
    exact absurd ⟨_, _, _, _, _, _, hi.of_stack, hz, hs.of_stack, hm.of_stack, hu.of_stack,
      hg.of_stack⟩ hno

theorem firmwareFromMessage_iff :
    FirmwareFromMessage lib.withAtoi env doc ↔ FirmwareClear lib.withAtoi env doc := by
  constructor
  · intro hfrom version url md5 size hv hu hs hz
    refine ⟨(cstrOf_overwrite_iff hs.short).mp fun b₁ b₂ h₁ h₂ => ?_, fun hnumeral => ?_⟩
    · have hsame := hfrom.same { otaInit with md5sum := b₁ } { otaInit with md5sum := b₂ } [] []
        h₁ h₂
      rw [getParams_of_reads _ (hv.stack []) (hu.stack []) hs hz,
        getParams_of_reads _ (hv.stack []) (hu.stack []) hs hz] at hsame
      simp only [firmwareTold, Option.some_inj, Prod.mk.injEq] at hsame
      exact hsame.2.2.1
    · have hnumber := hfrom.number (getParams_of_reads otaInit hv hu hs hz) hz.found hnumeral
      refine (numeral_iff hnumeral).mp ?_
      rw [← hnumber]
      show _ = (UInt32.ofInt (Libc.atoi (cstrOf size).val)).toNat
      rw [cstrOf_numeral hnumeral]
  · intro hclear
    refine ⟨fun h₁ h₂ stack₁ stack₂ hroom₁ hroom₂ => ?_, fun {h after size} hok hsize hn => ?_⟩
    · by_cases hall : ∃ version url md5 size, Reads lib.withAtoi env doc "version" version ∧
          Reads lib.withAtoi env doc "url" url ∧ Fits lib.withAtoi doc "md5" 32 md5 ∧
          Fits lib.withAtoi doc "size" otaFilesizeStrLen size
      · obtain ⟨version, url, md5, size, hv, hu, hs, hz⟩ := hall
        have hdigest := (cstrOf_overwrite_iff hs.short).mpr
          (hclear version url md5 size hv hu hs hz).1 _ _ hroom₁ hroom₂
        rw [getParams_of_reads _ (hv.stack _) (hu.stack _) hs hz,
          getParams_of_reads _ (hv.stack _) (hu.stack _) hs hz]
        simp only [firmwareTold, hdigest]
      · rw [firmwareTold_none _ hall, firmwareTold_none _ hall]
    · obtain ⟨version, url, md5, size', hv, hu, hs, hz⟩ := reads_of_getParams hok
      obtain rfl := Option.some.inj (hsize.symm.trans hz.found)
      rw [getParams_of_reads _ hv hu hs hz] at hok
      cases hok
      show (UInt32.ofInt (Libc.atoi (cstrOf size).val)).toNat = _
      rw [cstrOf_numeral hn]
      exact (numeral_iff hn).mpr ((hclear version url md5 size hv hu hs hz).2 hn)

theorem configSizeOf_cleared {size : List UInt8} (hshort : size.length ≤ otaFilesizeStrLen)
    (hn : IsNumeral size) :
    configSizeOf lib.withAtoi { env with stack := List.replicate otaFilesizeStrLen 0 } size =
      UInt32.ofInt (Libc.atoi size) := by
  have hzero : 0 ∉ size := fun h => absurd (hn.digits 0 h) (by decide)
  have hcleared (n : Nat) : (cstrOf (List.replicate n 0)).val = [] := by cases n <;> rfl
  unfold configSizeOf
  rw [configSize_text List.length_replicate hshort]
  show UInt32.ofInt (Libc.atoi (cstrOf (overwrite _ size)).val) = _
  rw [overwrite, cstrOf_append, if_neg hzero, List.drop_replicate, hcleared, List.append_nil]

theorem configFromMessage_iff :
    ConfigFromMessage lib.withAtoi env doc ↔ ConfigClear lib.withAtoi env doc := by
  have hcleared := List.length_replicate (n := otaFilesizeStrLen) (a := (0 : UInt8))
  constructor
  · intro hfrom configId size sign method url getType hi hz hs hm hu hg
    have hread (stack : List UInt8) := getConfigParams_of_reads otaInit (hi.stack stack) hz
      (hs.stack stack) (hm.stack stack) (hu.stack stack) (hg.stack stack)
    refine ⟨(configSizeOf_iff lib env hz.short).mp fun stack₁ stack₂ h₁ h₂ => ?_, fun hn => ?_⟩
    · have hsame := hfrom.same otaInit otaInit stack₁ stack₂ h₁ h₂
      rw [hread, hread] at hsame
      simp only [configTold, Option.some_inj, Prod.mk.injEq] at hsame
      exact hsame.2.1
    · have hnumber := hfrom.number hcleared (hread _) hz.found hn
      refine (numeral_iff hn).mp ?_
      rw [← hnumber, ← configSizeOf_cleared hz.short hn]
  · intro hclear
    refine ⟨fun h₁ h₂ stack₁ stack₂ hstack₁ hstack₂ => ?_,
      fun {h after stack size} hstack hok hsize hn => ?_⟩
    · by_cases hall : ∃ configId size sign method url getType,
          Reads lib.withAtoi env doc "configId" configId ∧
          Fits lib.withAtoi doc "configSize" otaFilesizeStrLen size ∧
          Reads lib.withAtoi env doc "sign" sign ∧ Reads lib.withAtoi env doc "signMethod" method ∧
          Reads lib.withAtoi env doc "url" url ∧ Reads lib.withAtoi env doc "getType" getType
      · obtain ⟨configId, size, sign, method, url, getType, hi, hz, hs, hm, hu, hg⟩ := hall
        have hsize := (configSizeOf_iff lib env hz.short).mpr
          (hclear configId size sign method url getType hi hz hs hm hu hg).1 _ _ hstack₁ hstack₂
        have hread (h : OtaHandle) (stack : List UInt8) := getConfigParams_of_reads h
          (hi.stack stack) hz (hs.stack stack) (hm.stack stack) (hu.stack stack) (hg.stack stack)
        rw [hread, hread]
        simp only [configTold, hsize]
      · rw [configTold_none _ hall, configTold_none _ hall]
    · obtain ⟨configId, size', sign, method, url, getType, hi, hz, hs, hm, hu, hg⟩ :=
        reads_of_getConfigParams hok
      obtain rfl := Option.some.inj (hsize.symm.trans hz.found)
      obtain ⟨hsame, hrange⟩ := hclear configId size sign method url getType hi.of_stack hz
        hs.of_stack hm.of_stack hu.of_stack hg.of_stack
      rw [getConfigParams_of_reads h hi hz hs hm hu hg] at hok
      cases hok
      rw [(configSizeOf_iff lib env hz.short).mpr hsame _ _ hstack hcleared,
        configSizeOf_cleared hz.short hn]
      exact (numeral_iff hn).mpr (hrange hn)

end

/-- What is told of a firmware depends on its message alone, and its size is the number in the
message, exactly when the digest fills its buffer or has a NUL and the number is an `int`; the same
holds of a configuration when the text of its size fills the buffer or is settled by itself. -/
theorem parameters_from_message_iff (lib : OtaLib) (env : CallbackEnv) (doc : List UInt8) :
    (FirmwareFromMessage lib.withAtoi env doc ↔ FirmwareClear lib.withAtoi env doc) ∧
      (ConfigFromMessage lib.withAtoi env doc ↔ ConfigClear lib.withAtoi env doc) :=
  ⟨firmwareFromMessage_iff, configFromMessage_iff⟩

def parsingLib : OtaLib := { oneByteLib with jsonValueOf := otalibJsonValueOf }

def configDoc : CStr :=
  .ofString ("\x7b\"configId\":\"1\",\"configSize\":\"5\",\"sign\":\"s\"," ++
    "\"signMethod\":\"m\",\"url\":\"u\",\"getType\":\"f\"\x7d") (by decide)

/-- A firmware with a digest of one byte. -/
def shortMd5Doc : CStr :=
  .ofString "\x7b\"size\":\"1\",\"version\":\"2\",\"md5\":\"0\",\"url\":\"u\"\x7d" (by decide)

def configSizeTold (stack : List UInt8) : Option UInt32 :=
  (configTold (otalibGetConfigParams parsingLib.withAtoi { plentyEnv with stack := stack }
    configDoc.val otaInit)).map (·.2.1)

/-- What is told of that digest over another one. -/
def md5Told (old : List UInt8) : Option (List UInt8) :=
  (firmwareTold (otalibGetParams parsingLib.withAtoi { plentyEnv with stack := [] } shortMd5Doc.val
    { otaInit with md5sum := old })).map (·.2.2.1.val)

/-- The size of the configuration is 5 over a cleared stack and 57 over one that holds a `7`; the
digest of the firmware ends as the one before did. -/
theorem parameters_not_from_message :
    configSizeTold (List.replicate 16 0) = some 5 ∧
    configSizeTold (0 :: 0x37 :: List.replicate 14 0) = some 57 ∧
    ¬ ConfigFromMessage parsingLib.withAtoi plentyEnv configDoc.val ∧
    md5Told (List.replicate 32 0) = some [0x30] ∧
    md5Told (0x61 :: 0x61 :: List.replicate 30 0) = some [0x30, 0x61] ∧
    ¬ FirmwareFromMessage parsingLib.withAtoi plentyEnv shortMd5Doc.val := by
  have hfive : configSizeTold (List.replicate 16 0) = some 5 := by decide
  have hlonger : configSizeTold (0 :: 0x37 :: List.replicate 14 0) = some 57 := by decide
  have hshort : md5Told (List.replicate 32 0) = some [0x30] := by decide
  have htail : md5Told (0x61 :: 0x61 :: List.replicate 30 0) = some [0x30, 0x61] := by
    decide
  refine ⟨hfive, hlonger, fun h => ?_, hshort, htail, fun h => ?_⟩
  · have hsame := congrArg (Option.map (·.2.1)) (h.same otaInit otaInit (List.replicate 16 0)
      (0 :: 0x37 :: List.replicate 14 0) (by decide) (by decide))
    exact absurd (hfive.symm.trans (hsame.trans hlonger)) (by decide)
  · have hsame := congrArg (Option.map (·.2.2.1.val))
      (h.same { otaInit with md5sum := List.replicate 32 0 }
        { otaInit with md5sum := 0x61 :: 0x61 :: List.replicate 30 0 } [] [] rfl rfl)
    exact absurd (hshort.symm.trans (hsame.trans htail)) (by decide)

end AliyunIot.Ota

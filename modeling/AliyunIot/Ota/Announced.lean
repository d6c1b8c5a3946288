import AliyunIot.Ota.Download

/-!
# What is announced

How far a message is read, as a test of its text, and the file that an accepted message
announces. `yielded_fetches` says what a fetch of that file does where the channel and
the contexts are at the same place in it.
-/

namespace AliyunIot.Ota

section
variable (lib : OtaLib) (env : CallbackEnv) (doc : List UInt8)

/-! ## How far a message is read -/

def valueOf (key : String) : List UInt8 := (lib.jsonValueOf doc key).getD []

def found (key : String) : Bool := (lib.jsonValueOf doc key).isSome

def fits (key : String) (destLen : Nat) : Bool :=
  (lib.jsonValueOf doc key).any fun value => value.length ≤ destLen

/-- The text of a key is there and there is memory for it. -/
def reads (key : String) : Bool := found lib doc key && env.malloc key

/-- A configuration message is read as far as its sign. -/
def readsSize : Bool := reads lib env doc "configId" && fits lib doc "configSize" otaFilesizeStrLen

def readsConfig : Bool :=
  readsSize lib env doc && reads lib env doc "sign" && reads lib env doc "signMethod" &&
    reads lib env doc "url" && reads lib env doc "getType"

/-- A firmware message is read as far as its url. -/
def readsUrl : Bool := reads lib env doc "version" && reads lib env doc "url"

/-- A firmware message is read as far as its digest. -/
def readsMd5 : Bool := readsUrl lib env doc && fits lib doc "md5" 32

def readsFirmware : Bool := readsMd5 lib env doc && fits lib doc "size" otaFilesizeStrLen

/-- A configuration message is read as far as its url. -/
def readsCotaUrl : Bool :=
  readsSize lib env doc && reads lib env doc "sign" && reads lib env doc "signMethod" &&
    reads lib env doc "url"

/-- A channel can be made for the url of a message. -/
def opens (offset : UInt32) : Bool :=
  (ofcInit env.ofcInit (cstrOf (valueOf lib doc "url")) offset).isSome

end

/-! ## The announced file -/

structure Announced where
  kind : OtaType
  url : CStr
  size : UInt32
  md5 : CStr
  deriving DecidableEq

def announcedBy (lib : OtaLib) (env : CallbackEnv) (doc : List UInt8) (kind : OtaType) :
    Announced where
  kind := kind
  url := cstrOf (valueOf lib doc "url")
  size :=
    if kind = .fota then lib.atoi (cstrOf (valueOf lib doc "size"))
    else configSizeOf lib env (valueOf lib doc "configSize")
  md5 := cstrOf (valueOf lib doc "md5")

/-- What is fetched of a file when so many bytes are. -/
def Announced.part (lib : OtaLib) (a : Announced) (size : UInt32) : List UInt8 :=
  (lib.file a.url).take size.toNat

/-- A digest that is not followed by what is left of a longer one. -/
def OtaHandle.Terminated (h : OtaHandle) (md5 : List UInt8) : Prop :=
  ∀ b ∈ (h.md5sum.drop md5.length).head?, b = 0

section
variable {lib : OtaLib} {env : CallbackEnv} {doc text : List UInt8} {key : String}
variable {destLen : Nat} {old s : Option CStr} {h after : OtaHandle} {p : Parsed}

theorem reads_of (h : Reads lib env doc key text) : reads lib env doc key = true := by
  unfold reads found
  rw [h.found, h.malloc]
  rfl

theorem not_reads_of (h : Missed lib env doc key old s) : reads lib env doc key = false := by
  unfold reads found
  cases h with
  | missing hv => rw [hv]; rfl
  | noMemory hv hm => rw [hv, hm]; rfl

theorem fits_of (h : Fits lib doc key destLen text) : fits lib doc key destLen = true := by
  unfold fits
  rw [h.found]
  exact decide_eq_true h.short

theorem not_fits_of (h : Unfit lib doc key destLen) : fits lib doc key destLen = false := by
  unfold fits
  cases hv : lib.jsonValueOf doc key with
  | none => rfl
  | some value => exact decide_eq_false (Nat.not_le.mpr (h value hv))

theorem ConfigRead.readsConfig_iff (hr : ConfigRead lib env doc h p) :
    readsConfig lib env doc = true ↔ ∃ after, p = .ok after := by
  unfold readsConfig readsSize
  cases hr with
  | configId hi => simp [not_reads_of hi]
  | configSize _ hz => simp [not_fits_of hz]
  | sign _ _ hs => simp [not_reads_of hs]
  | signMethod _ _ _ hm => simp [not_reads_of hm]
  | url _ _ _ _ hu => simp [not_reads_of hu]
  | getType _ _ _ _ _ hg => simp [not_reads_of hg]
  | all hi hz hs hm hu hg =>
    simp [reads_of hi, fits_of hz, reads_of hs, reads_of hm, reads_of hu, reads_of hg]

theorem Reads.value (hr : Reads lib env doc key text) : valueOf lib doc key = text := by
  unfold valueOf
  rw [hr.found]
  rfl

theorem Fits.value (hf : Fits lib doc key destLen text) : valueOf lib doc key = text := by
  unfold valueOf
  rw [hf.found]
  rfl

theorem FirmwareRead.stored (hr : FirmwareRead lib env doc h (.ok after)) :
    readsFirmware lib env doc = true ∧
    after = { h with
      version := some (cstrOf (valueOf lib doc "version"))
      purl := some (cstrOf (valueOf lib doc "url"))
      md5sum := overwrite h.md5sum (valueOf lib doc "md5")
      sizeFile := lib.atoi (cstrOf (valueOf lib doc "size")) } := by
  unfold readsFirmware readsMd5 readsUrl
  cases hr with
  | all hv hu hs hz =>
    rw [reads_of hv, reads_of hu, fits_of hs, fits_of hz, hv.value, hu.value, hs.value, hz.value]
    exact ⟨rfl, rfl⟩

theorem ConfigRead.stored (hr : ConfigRead lib env doc h (.ok after)) :
    after = { h with
      configId := some (cstrOf (valueOf lib doc "configId"))
      configSize := configSizeOf lib env (valueOf lib doc "configSize")
      sign := some (cstrOf (valueOf lib doc "sign"))
      signMethod := some (cstrOf (valueOf lib doc "signMethod"))
      cotaUrl := some (cstrOf (valueOf lib doc "url"))
      getType := some (cstrOf (valueOf lib doc "getType")) } := by
  cases hr with
  | all hi hz hs hm hu hg =>
    rw [hi.value, hz.value, hs.value, hm.value, hu.value, hg.value]

theorem not_readsFirmware (hr : FirmwareRead lib env doc h (.error after)) :
    readsFirmware lib env doc = false := by
  unfold readsFirmware readsMd5 readsUrl
  cases hr with
  | version hv => simp [not_reads_of hv]
  | url _ hu => simp [not_reads_of hu]
  | md5 _ _ hs => simp [not_fits_of hs]
  | size _ _ _ hz => simp [not_fits_of hz]

theorem opens_firmware (hr : FirmwareRead lib env doc h (.ok after)) :
    opens lib env doc h.sizeFetched =
      (after.purl.bind fun url => ofcInit env.ofcInit url after.sizeFetched).isSome := by
  obtain ⟨-, rfl⟩ := hr.stored
  rfl

theorem opens_config (hr : ConfigRead lib env doc h (.ok after)) :
    opens lib env doc 0 = (after.cotaUrl.bind fun url => ofcInit env.ofcInit url 0).isSome := by
  obtain rfl := hr.stored
  rfl

theorem missed_cases (hm : Missed lib env doc key old s) : s = old ∨ s = none := by
  cases hm with
  | missing => exact .inl rfl
  | noMemory => exact .inr rfl

theorem FirmwareRead.purl_unread (hr : FirmwareRead lib env doc h (.error after))
    (hno : readsUrl lib env doc = false) : after.purl = h.purl ∨ after.purl = none := by
  unfold readsUrl at hno
  cases hr with
  | version => exact .inl rfl
  | url _ hu => exact missed_cases hu
  | md5 hv hu | size hv hu =>
    rw [reads_of hv, reads_of hu] at hno
    cases hno

theorem FirmwareRead.md5sum_unread (hr : FirmwareRead lib env doc h (.error after))
    (hno : readsMd5 lib env doc = false) : after.md5sum = h.md5sum := by
  unfold readsMd5 readsUrl at hno
  cases hr with
  | version | url | md5 => rfl
  | size hv hu hs =>
    rw [reads_of hv, reads_of hu, fits_of hs] at hno
    cases hno

theorem FirmwareRead.sizeFile_unread (hr : FirmwareRead lib env doc h (.error after)) :
    after.sizeFile = h.sizeFile := by
  cases hr <;> rfl

theorem ConfigRead.cotaUrl_unread (hr : ConfigRead lib env doc h (.error after))
    (hno : readsCotaUrl lib env doc = false) :
    after.cotaUrl = h.cotaUrl ∨ after.cotaUrl = none := by
  unfold readsCotaUrl readsSize at hno
  cases hr with
  | configId | configSize | sign | signMethod => exact .inl rfl
  | url _ _ _ _ hu => exact missed_cases hu
  | getType hi hz hs hm hu =>
    rw [reads_of hi, fits_of hz, reads_of hs, reads_of hm, reads_of hu] at hno
    cases hno

theorem cstrOf_overwrite {value : List UInt8} (hzero : h.Terminated value) :
    cstrOf (overwrite h.md5sum value) = cstrOf value := by
  unfold OtaHandle.Terminated at hzero
  apply Subtype.ext
  show (value ++ h.md5sum.drop value.length).takeWhile _ = value.takeWhile _
  rw [List.takeWhile_append]
  split
  · next hall =>
    have hrest : ((h.md5sum.drop value.length).takeWhile fun b => decide (b ≠ 0)) = [] := by
      rcases hd : h.md5sum.drop value.length with _ | ⟨b, rest⟩
      · rfl
      · rw [hd] at hzero
        rw [List.takeWhile_cons_of_neg (by simp [hzero b rfl])]
    rw [hrest, List.append_nil]
    exact ((List.takeWhile_prefix _).eq_of_length hall).symm
  · rfl

end

/-! ## A fetch of the announced file -/

/-- The fetch comes as far as the bytes of the server. -/
def OtaHandle.Delivers (h : OtaHandle) (env : FetchEnv) : Prop :=
  (h.md5 = none → env.md5Init = true) ∧ (h.sha256 = none → env.sha256Init = true) ∧
  (h.chFetch = none → ∃ url ∈ h.url, ofcInit env.ofcInit url h.sizeFetched ≠ none) ∧
  ∀ code, env.http ≠ .error code

/-- There are at most as many bytes as are left to fetch. -/
def OtaHandle.Fitting (h : OtaHandle) (lib : OtaLib) (a : Announced) (env : FetchEnv)
    (bufLen : Nat) : Prop :=
  (lib.file a.url).length ≤ h.sizeFile.toNat ∨
    ∀ count, env.http = .ok count →
      h.sizeFetched.toNat + min count bufLen ≤ h.sizeFile.toNat

section
variable {lib : OtaLib} {h : OtaHandle} {a : Announced}

theorem part_zero (a : Announced) : a.part lib 0 = [] := List.take_zero

theorem toNat_zero {n : UInt32} (hz : n = 0) : n.toNat = 0 := by
  rw [hz]
  rfl

theorem ofcInit_some {malloc : Bool} {url : CStr} {offset : UInt32} {ch : FetchChannel}
    (hch : ofcInit malloc url offset = some ch) (hlt : offset.toNat < 2 ^ 31) :
    ch = ⟨url, offset.toNat⟩ := by
  unfold ofcInit at hch
  split at hch
  · cases hch
    have hmod : ((offset.toNat : Int).bmod (2 ^ 32)) = offset.toNat := by
      rw [Int.bmod_eq_of_le] <;> omega
    rw [hmod]
    rfl
  · cases hch

variable {bufLen : Nat} {bytes : List UInt8}

theorem ofcFetch_ok {ch after : FetchChannel}
    {http : Except {code : Int // code < State.success} Nat}
    (hf : ofcFetch lib ch bufLen http = .ok (bytes, after)) :
    ∃ count, http = .ok count ∧
      bytes = ((lib.file ch.url).drop ch.pos).take (min count bufLen) ∧
      after = ⟨ch.url, ch.pos + bytes.length⟩ := by
  unfold ofcFetch at hf
  split at hf
  · cases hf
  · next count =>
    cases hf
    exact ⟨count, rfl, rfl, rfl⟩

variable {count : Nat}

theorem part_append (a : Announced) {size size' : UInt32}
    (hfile : size.toNat ≤ (lib.file a.url).length) (hsize : size'.toNat = size.toNat +
      (((lib.file a.url).drop size.toNat).take count).length) :
    a.part lib size ++ ((lib.file a.url).drop size.toNat).take count = a.part lib size' := by
  have hlen : ((lib.file a.url).take (size.toNat + count)).length = size'.toNat := by
    rw [hsize, List.take_add, List.length_append, List.length_take_of_le hfile]
  unfold Announced.part
  rw [← List.take_add, ← hlen]
  exact List.prefix_iff_eq_take.mp (List.take_prefix _ _)

/-- A context has absorbed just the bytes. One that is missing has nothing to absorb. -/
def Absorbed (ctx : Option Digest) (bytes : List UInt8) : Prop :=
  ctx = some ⟨bytes, false⟩ ∨ ctx = none ∧ bytes = []

theorem Absorbed.made {malloc : Bool} {old : Option Digest} {d : Digest}
    (habs : Absorbed old bytes) (hm : Made malloc old d) : Absorbed (some d) bytes := by
  rcases hm with hold | ⟨hnone, _, hnew⟩
  · exact hold ▸ habs
  · rcases habs with hsome | ⟨_, hnil⟩
    · cases hnone.symm.trans hsome
    · rw [hnew, hnil]
      exact .inl rfl

structure Fetches (lib : OtaLib) (a : Announced) (h after : OtaHandle) (bytes : List UInt8) :
    Prop where
  size : after.sizeFetched.toNat = h.sizeFetched.toNat + bytes.length
  part : a.part lib h.sizeFetched ++ bytes = a.part lib after.sizeFetched
  le : after.sizeFetched.toNat ≤ h.sizeFile.toNat
  file : after.sizeFetched.toNat ≤ (lib.file a.url).length
  md5 : after.md5 = some ⟨a.part lib after.sizeFetched, false⟩
  sha256 : after.sha256 = some ⟨a.part lib after.sizeFetched, false⟩
  channel : after.chFetch = some ⟨a.url, after.sizeFetched.toNat⟩
  state : after.state = .fetched ∧ after.sizeFetched = h.sizeFile ∨
    after.state = .fetching ∧ after.type = h.type
  frame : after = { h with
    state := after.state, type := after.type, sizeFetched := after.sizeFetched
    md5 := after.md5, sha256 := after.sha256, chFetch := after.chFetch }

theorem absorb_fetches (hfile : h.sizeFetched.toNat ≤ (lib.file a.url).length)
    (hbytes : bytes = ((lib.file a.url).drop h.sizeFetched.toNat).take count)
    (hfit : h.sizeFetched.toNat + bytes.length ≤ h.sizeFile.toNat) :
    Fetches lib a h
      (OtaHandle.absorb { h with
        state := .fetching, md5 := some ⟨a.part lib h.sizeFetched, false⟩
        sha256 := some ⟨a.part lib h.sizeFetched, false⟩
        chFetch := some ⟨a.url, h.sizeFetched.toNat + bytes.length⟩ } bytes) bytes := by
  have hlt : h.sizeFetched.toNat + bytes.length < 2 ^ 32 :=
    Nat.lt_of_le_of_lt hfit h.sizeFile.toNat_lt
  have hsize : (h.sizeFetched + UInt32.ofNat bytes.length).toNat =
      h.sizeFetched.toNat + bytes.length := by
    rw [UInt32.toNat_add, UInt32.toNat_ofNat', Nat.add_mod_mod, Nat.mod_eq_of_lt hlt]
  have hnext : h.sizeFetched.toNat + bytes.length ≤ (lib.file a.url).length := by
    rw [hbytes, List.length_take, List.length_drop]
    omega
  have hpart : a.part lib h.sizeFetched ++ bytes =
      a.part lib (h.sizeFetched + UInt32.ofNat bytes.length) := by
    subst hbytes
    exact part_append a hfile hsize
  unfold OtaHandle.absorb
  dsimp only
  split
  · next hdone =>
    refine ⟨hsize, hpart, hsize ▸ hfit, hsize ▸ hnext, ?_, ?_, ?_, .inl ⟨rfl, ?_⟩, rfl⟩
    · exact congrArg (fun bytes => some (Digest.mk bytes false)) hpart
    · exact congrArg (fun bytes => some (Digest.mk bytes false)) hpart
    · exact congrArg (fun pos => some (FetchChannel.mk a.url pos)) hsize.symm
    · apply UInt32.toNat_inj.mp
      apply Nat.le_antisymm
      · rw [hsize]
        exact hfit
      · exact UInt32.le_iff_toNat_le.mp hdone
  · refine ⟨hsize, hpart, hsize ▸ hfit, hsize ▸ hnext, ?_, ?_, ?_, .inr ⟨rfl, rfl⟩, rfl⟩
    · exact congrArg (fun bytes => some (Digest.mk bytes false)) hpart
    · exact congrArg (fun bytes => some (Digest.mk bytes false)) hpart
    · exact congrArg (fun pos => some (FetchChannel.mk a.url pos)) hsize.symm

theorem OtaHandle.Fitting.le {env : FetchEnv} (hfit : h.Fitting lib a env bufLen)
    (hfile : h.sizeFetched.toNat ≤ (lib.file a.url).length) (hhttp : env.http = .ok count) :
    h.sizeFetched.toNat +
      (((lib.file a.url).drop h.sizeFetched.toNat).take (min count bufLen)).length ≤
        h.sizeFile.toNat := by
  rw [List.length_take, List.length_drop]
  rcases hfit with hshort | hcount
  · omega
  · have hmin := hcount count hhttp
    omega

theorem yielded_fetches {env : FetchEnv} {d e : Digest} {after : FetchChannel}
    (hfile : h.sizeFetched.toNat ≤ (lib.file a.url).length) (hfit : h.Fitting lib a env bufLen)
    (hctx : h.sizeFetched ≠ 0 → Absorbed h.md5 (a.part lib h.sizeFetched) ∧
      Absorbed h.sha256 (a.part lib h.sizeFetched))
    (hfirst : h.sizeFetched = 0 → env.md5First = true ∧ env.sha256First = true)
    (hm : Made env.md5Init h.md5 d) (hn : Made env.sha256Init h.sha256 e)
    (hf : ofcFetch lib ⟨a.url, h.sizeFetched.toNat⟩ bufLen env.http = .ok (bytes, after)) :
    ∃ after', fetchedBytes env
        { h with state := .fetching, md5 := some d, sha256 := some e, chFetch := some after }
        bytes = ⟨bytes.length, bytes, after'⟩ ∧ Fetches lib a h after' bytes := by
  obtain ⟨count, hhttp, hbytes, hafter⟩ := ofcFetch_ok hf
  subst hafter
  have hbound := hfit.le hfile hhttp
  dsimp only at hbytes ⊢
  rw [← hbytes] at hbound
  have hfetches := absorb_fetches hfile hbytes hbound
  refine ⟨_, ?_, hfetches⟩
  unfold fetchedBytes
  split
  · next hz =>
    obtain ⟨hmd5, hsha256⟩ := hfirst hz
    rw [if_neg (by rw [hmd5]; nofun), if_neg (by rw [hsha256]; nofun)]
    have hnil : a.part lib h.sizeFetched = [] := by rw [hz, part_zero]
    rw [hnil]
    rfl
  · next hz =>
    obtain ⟨hd, he⟩ := hctx hz
    have hsome {ctx : Option Digest} {d : Digest} {malloc : Bool}
        (habs : Absorbed ctx (a.part lib h.sizeFetched)) (hmade : Made malloc ctx d) :
        d = ⟨a.part lib h.sizeFetched, false⟩ := by
      rcases habs.made hmade with heq | ⟨hnone, _⟩
      · exact Option.some.inj heq
      · cases hnone
    rw [hsome hd hm, hsome he hn]

theorem delivers_of_fetched {env : FetchEnv} {d e : Digest}
    {ch after : FetchChannel} (hm : Made env.md5Init h.md5 d)
    (hn : Made env.sha256Init h.sha256 e) (hopen : Opened env.ofcInit h ch)
    (hf : ofcFetch lib ch bufLen env.http = .ok (bytes, after)) : h.Delivers env := by
  obtain ⟨count, hhttp, -, -⟩ := ofcFetch_ok hf
  refine ⟨fun hnone => ?_, fun hnone => ?_, fun hnone => ?_, fun code hcode => ?_⟩
  · rcases hm with hsome | ⟨_, hinit, _⟩
    · cases hnone.symm.trans hsome
    · exact hinit
  · rcases hn with hsome | ⟨_, hinit, _⟩
    · cases hnone.symm.trans hsome
    · exact hinit
  · rcases hopen with hold | ⟨_, url, hu, hinit⟩
    · cases hnone.symm.trans hold
    · exact ⟨url, hu, fun hno => absurd (hno.symm.trans hinit) nofun⟩
  · cases hhttp.symm.trans hcode

end

/-! ## A message -/

/-- A firmware of the one byte `a` is announced. -/
def firmwareText : CStr :=
  .ofString ("\x7b\"message\":\"success\",\"data\":\x7b\"size\":\"1\",\"version\":\"2\"," ++
    "\"md5\":\"0cc175b9c0f1b6a831c399e269772661\",\"url\":\"u\"\x7d\x7d") (by decide)

def firmwareData : CStr :=
  .ofString ("\x7b\"size\":\"1\",\"version\":\"2\"," ++
    "\"md5\":\"0cc175b9c0f1b6a831c399e269772661\",\"url\":\"u\"\x7d") (by decide)

def md5Text : CStr := .ofString "0cc175b9c0f1b6a831c399e269772661" (by decide)

/-- What the parser finds in that message, the digest of `a`, and the server. -/
def oneByteLib : OtaLib where
  jsonValueOf json key :=
    if json = firmwareText.val then
      if key = "message" then some textSuccess.val
      else if key = "data" then some firmwareData.val
      else none
    else if json = firmwareData.val then
      if key = "version" then some [0x32]
      else if key = "url" then some [0x75]
      else if key = "md5" then some md5Text.val
      else if key = "size" then some [0x31]
      else none
    else none
  atoi s := if s.val = [0x31] then 1 else 0
  md5 text :=
    if text = [0x61] then
      [0x0c, 0xc1, 0x75, 0xb9, 0xc0, 0xf1, 0xb6, 0xa8,
        0x31, 0xc3, 0x99, 0xe2, 0x69, 0x77, 0x26, 0x61]
    else []
  sha256 _ := []
  file _ := [0x61]

def plentyEnv : CallbackEnv := ⟨fun _ => true, [], true, true, true⟩

end AliyunIot.Ota

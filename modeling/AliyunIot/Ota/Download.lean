import AliyunIot.Ota.Callback

/-!
# Fetching and checking

`IOT_OTA_FetchYield` and `IOT_OTA_Ioctl`. A call that would read through a null pointer is
an `OtaFault`. `Yielded` says once what a call that fetches does to the handle.
-/

namespace AliyunIot.Ota

abbrev otaeInvalidParam : Int := -2
abbrev otaeInvalidState : Int := -3

/-- The null pointers that a call of the module may use. -/
inductive OtaFault where
  | nullChannel | nullUrl | nullVersion | nullSign | nullSignMethod | nullDigest

def otaIsFetchFinish (h : OtaHandle) : Bool := h.state = .fetched

/-! ## `IOT_OTA_FetchYield` -/

/-- What the calls give that a fetch makes: for contexts that are missing, for a channel
that is missing, from the server, and for the contexts of the first bytes. -/
structure FetchEnv where
  md5Init : Bool
  sha256Init : Bool
  ofcInit : Bool
  http : Except {code : Int // code < State.success} Nat
  md5First : Bool
  sha256First : Bool

/-- What a call returns, what it wrote to the buffer, and the handle. -/
structure Fetched where
  ret : Int
  bytes : List UInt8
  h : OtaHandle

section
variable (lib : OtaLib) (env : FetchEnv)

/-- The channel of the handle, opened again where the last fetch failed. -/
def openChannel (h : OtaHandle) : Except OtaFault (Option FetchChannel) :=
  match h.chFetch, h.type with
  | some ch, _ => .ok (some ch)
  | none, .none => .ok none
  | none, .fota =>
    match h.purl with
    | none => .error .nullUrl
    | some url => .ok (ofcInit env.ofcInit url h.sizeFetched)
  | none, .cota =>
    match h.cotaUrl with
    | none => .error .nullUrl
    | some url => .ok (ofcInit env.ofcInit url h.sizeFetched)

/-- The contexts absorb the bytes, and the sizes are brought up to date. -/
def OtaHandle.absorb (h : OtaHandle) (bytes : List UInt8) : OtaHandle :=
  let h := { h with
    md5 := h.md5.map fun d => d.update bytes
    sha256 := h.sha256.map fun d => d.update bytes
    sizeFetched := h.sizeFetched + UInt32.ofNat bytes.length }
  if h.sizeFetched ≥ h.sizeFile then { h with type := .none, state := .fetched } else h

/-- The end of a fetch that succeeded; new contexts absorb the first bytes. -/
def fetchedBytes (h : OtaHandle) (bytes : List UInt8) : Fetched :=
  if h.sizeFetched = 0 then
    if env.md5First = false then ⟨-1, bytes, { h with md5 := none }⟩
    else if env.sha256First = false then
      ⟨-1, bytes, { h with md5 := digestInit true, sha256 := none }⟩
    else
      ⟨bytes.length, bytes,
        { h with md5 := digestInit true, sha256 := digestInit true }.absorb bytes⟩
  else ⟨bytes.length, bytes, h.absorb bytes⟩

/-- The contexts that are missing are made, as far as there is memory. -/
def withContexts (h : OtaHandle) : Except OtaHandle OtaHandle :=
  match h.md5.or (digestInit env.md5Init) with
  | none => .error { h with state := .fetching, md5 := none }
  | some d =>
    match h.sha256.or (digestInit env.sha256Init) with
    | none => .error { h with state := .fetching, md5 := some d, sha256 := none }
    | some e => .ok { h with state := .fetching, md5 := some d, sha256 := some e }

/-- `IOT_OTA_FetchYield`; `buf` is false for a null pointer. -/
def otaFetchYield (h : OtaHandle) (buf : Bool) (bufLen : Nat) : Except OtaFault Fetched :=
  if buf = false ∨ bufLen = 0 then .ok ⟨otaeInvalidParam, [], h⟩
  else if h.state ≠ .pushed ∧ h.state ≠ .fetching then .ok ⟨otaeInvalidState, [], h⟩
  else
    match withContexts env h with
    | .error h => .ok ⟨State.failReturn, [], h⟩
    | .ok h =>
      match openChannel env h with
      | .error fault => .error fault
      | .ok chFetch =>
        let h := { h with chFetch := chFetch }
        if h.chFetch = none then .ok ⟨State.failReturn, [], h⟩
        else
          match h.chFetch with
          | none => .error .nullChannel
          | some ch =>
            match ofcFetch lib ch bufLen env.http with
            | .error code => .ok ⟨code, [], { h with chFetch := none }⟩
            | .ok (bytes, ch) => .ok (fetchedBytes env { h with chFetch := some ch } bytes)

end

/-! ### What a fetch does -/

/-- The url that a channel is opened for. -/
def OtaHandle.url (h : OtaHandle) : Option CStr :=
  match h.type with
  | .fota => h.purl
  | .cota => h.cotaUrl
  | .none => none

abbrev freshDigest : Digest := ⟨[], false⟩

/-- The context there was, or a new one. -/
def Made (malloc : Bool) (old : Option Digest) (d : Digest) : Prop :=
  old = some d ∨ old = none ∧ malloc = true ∧ d = freshDigest

/-- The channel there was, or a new one from where the fetch had come to. -/
def Opened (malloc : Bool) (h : OtaHandle) (ch : FetchChannel) : Prop :=
  h.chFetch = some ch ∨
    h.chFetch = none ∧ ∃ url, h.url = some url ∧ ofcInit malloc url h.sizeFetched = some ch

/-- A download has been announced and is not complete. -/
def OtaHandle.Active (h : OtaHandle) : Prop := h.state = .pushed ∨ h.state = .fetching

instance (h : OtaHandle) : Decidable h.Active := inferInstanceAs (Decidable (_ ∨ _))

section
variable (lib : OtaLib) (env : FetchEnv)

/-- What `IOT_OTA_FetchYield` returns. -/
inductive Yielded (buf : Bool) (bufLen : Nat) (h : OtaHandle) : Except OtaFault Fetched → Prop
  | refused {ret : Int} (hret : ret < 0) (hr : buf = true → bufLen ≠ 0 → ¬ h.Active) :
    Yielded buf bufLen h (.ok ⟨ret, [], h⟩)
  | noMd5 (hs : h.Active) (hm : h.md5 = none) (hinit : env.md5Init = false) :
    Yielded buf bufLen h (.ok ⟨State.failReturn, [], { h with state := .fetching }⟩)
  | noSha256 {d : Digest} (hs : h.Active) (hm : Made env.md5Init h.md5 d) (hn : h.sha256 = none)
    (hinit : env.sha256Init = false) :
    Yielded buf bufLen h
      (.ok ⟨State.failReturn, [], { h with state := .fetching, md5 := some d }⟩)
  | nullUrl (hs : h.Active) (ht : h.type ≠ .none) (hu : h.url = none) :
    Yielded buf bufLen h (.error .nullUrl)
  | noChannel {d e : Digest} (hs : h.Active) (hm : Made env.md5Init h.md5 d)
    (hn : Made env.sha256Init h.sha256 e) (hc : h.chFetch = none)
    (hno : ∀ url, h.url = some url → ofcInit env.ofcInit url h.sizeFetched = none) :
    Yielded buf bufLen h
      (.ok ⟨State.failReturn, [],
        { h with state := .fetching, md5 := some d, sha256 := some e }⟩)
  | failed {d e : Digest} {code : {code : Int // code < State.success}} (hs : h.Active)
    (hm : Made env.md5Init h.md5 d) (hn : Made env.sha256Init h.sha256 e)
    (hhttp : env.http = .error code) :
    Yielded buf bufLen h
      (.ok ⟨code, [],
        { h with state := .fetching, md5 := some d, sha256 := some e, chFetch := none }⟩)
  | fetched {d e : Digest} {ch after : FetchChannel} {bytes : List UInt8} (hs : h.Active)
    (hm : Made env.md5Init h.md5 d) (hn : Made env.sha256Init h.sha256 e)
    (hc : Opened env.ofcInit h ch)
    (hf : ofcFetch lib ch bufLen env.http = .ok (bytes, after)) :
    Yielded buf bufLen h
      (.ok (fetchedBytes env
        { h with
          state := .fetching, md5 := some d, sha256 := some e, chFetch := some after } bytes))

theorem digestInit_none {malloc : Bool} (h : digestInit malloc = none) : malloc = false := by
  cases malloc with
  | false => rfl
  | true => cases h

theorem made_of_or {old : Option Digest} {malloc : Bool} {d : Digest}
    (h : old.or (digestInit malloc) = some d) : Made malloc old d := by
  rcases Option.or_eq_some_iff.mp h with hold | ⟨hnone, hnew⟩
  · exact .inl hold
  · unfold digestInit at hnew
    split at hnew
    · next hmalloc => exact .inr ⟨hnone, hmalloc, (Option.some.inj hnew).symm⟩
    · cases hnew

theorem withContexts_cases (h : OtaHandle) :
    (h.md5 = none ∧ env.md5Init = false ∧
      withContexts env h = .error { h with state := .fetching }) ∨
    (∃ d, Made env.md5Init h.md5 d ∧ h.sha256 = none ∧ env.sha256Init = false ∧
      withContexts env h = .error { h with state := .fetching, md5 := some d }) ∨
    ∃ d e, Made env.md5Init h.md5 d ∧ Made env.sha256Init h.sha256 e ∧
      withContexts env h =
        .ok { h with state := .fetching, md5 := some d, sha256 := some e } := by
  unfold withContexts
  split
  · next hm =>
    obtain ⟨hnone, hinit⟩ := Option.or_eq_none_iff.mp hm
    exact .inl ⟨hnone, digestInit_none hinit, by rw [← hnone]⟩
  · next d hm =>
    split
    · next hn =>
      obtain ⟨hnone, hinit⟩ := Option.or_eq_none_iff.mp hn
      exact .inr (.inl ⟨d, made_of_or hm, hnone, digestInit_none hinit, by rw [← hnone]⟩)
    · next e hn => exact .inr (.inr ⟨d, e, made_of_or hm, made_of_or hn, rfl⟩)

theorem openChannel_cases (h : OtaHandle) :
    (h.type ≠ .none ∧ h.url = none ∧ openChannel env h = .error .nullUrl) ∨
    (h.chFetch = none ∧
      (∀ url, h.url = some url → ofcInit env.ofcInit url h.sizeFetched = none) ∧
      openChannel env h = .ok none) ∨
    ∃ ch, Opened env.ofcInit h ch ∧ openChannel env h = .ok (some ch) := by
  have hopen {url : CStr} (hnone : h.chFetch = none) (hurl : h.url = some url) :
      (h.chFetch = none ∧
        (∀ url, h.url = some url → ofcInit env.ofcInit url h.sizeFetched = none) ∧
        Except.ok (ofcInit env.ofcInit url h.sizeFetched) = (.ok none : Except OtaFault _)) ∨
      ∃ ch, Opened env.ofcInit h ch ∧
        Except.ok (ofcInit env.ofcInit url h.sizeFetched) =
          (.ok (some ch) : Except OtaFault _) := by
    rcases hch : ofcInit env.ofcInit url h.sizeFetched with _ | ch
    · refine .inl ⟨hnone, fun other hother => ?_, rfl⟩
      cases hurl.symm.trans hother
      exact hch
    · exact .inr ⟨ch, .inr ⟨hnone, url, hurl, hch⟩, rfl⟩
  unfold openChannel
  split
  · next ch hch => exact .inr (.inr ⟨ch, .inl hch, rfl⟩)
  · next hnone htype =>
    refine .inr (.inl ⟨hnone, fun url hurl => ?_, rfl⟩)
    rw [OtaHandle.url, htype] at hurl
    cases hurl
  · next hnone htype =>
    have hurl : h.url = h.purl := by rw [OtaHandle.url, htype]
    split
    · next hnull => exact .inl ⟨by rw [htype]; nofun, hurl.trans hnull, rfl⟩
    · next url hsome => exact .inr (hopen hnone (hurl.trans hsome))
  · next hnone htype =>
    have hurl : h.url = h.cotaUrl := by rw [OtaHandle.url, htype]
    split
    · next hnull => exact .inl ⟨by rw [htype]; nofun, hurl.trans hnull, rfl⟩
    · next url hsome => exact .inr (hopen hnone (hurl.trans hsome))

theorem fetchYield_yielded (h : OtaHandle) (buf : Bool) (bufLen : Nat) :
    Yielded lib env buf bufLen h (otaFetchYield lib env h buf bufLen) := by
  unfold otaFetchYield
  split
  · next hbuf =>
    refine .refused (by decide) fun hgiven hlen => ?_
    rcases hbuf with hnull | hzero
    · exact absurd (hnull.symm.trans hgiven) nofun
    · exact absurd hzero hlen
  split
  · next hstate => exact .refused (by decide) fun _ _ => not_or.mpr hstate
  next hstate =>
  have hs : h.Active := by
    rw [not_and_or, not_not, not_not] at hstate
    exact hstate
  rcases withContexts_cases env h with
    ⟨hm, hinit, heq⟩ | ⟨d, hm, hn, hinit, heq⟩ | ⟨d, e, hm, hn, heq⟩
  · rw [heq]
    exact .noMd5 hs hm hinit
  · rw [heq]
    exact .noSha256 hs hm hn hinit
  rw [heq]
  dsimp only
  rcases openChannel_cases env
    { h with state := .fetching, md5 := some d, sha256 := some e } with
    ⟨ht, hu, hopen⟩ | ⟨hc, hno, hopen⟩ | ⟨ch, hc, hopen⟩
  · rw [hopen]
    exact .nullUrl hs ht hu
  · rw [hopen]
    dsimp only at hc ⊢
    rw [if_pos rfl, ← hc]
    exact .noChannel hs hm hn hc hno
  · rw [hopen]
    dsimp only
    rw [if_neg nofun]
    rcases hhttp : env.http with code | count
    · exact .failed hs hm hn hhttp
    · exact .fetched hs hm hn hc (congrArg (ofcFetch lib ch bufLen) hhttp)

end

/-! ## `IOT_OTA_Ioctl` -/

/-- `IOT_OTA_CmdType_t`. -/
inductive OtaCmd where
  | cotaConfigId | cotaConfigSize | cotaSign | cotaSignMethod | cotaUrl | cotaGettype
  | otaType | fetchedSize | fileSize | md5sum | version | checkFirmware | checkConfig
  | resetFetchedSize | resetState
  deriving DecidableEq

/-- The buffer of a call: whether it is null, its length, whether it is aligned for a
number, and whether the pointer in it is null. -/
structure IoctlBuf where
  null : Bool
  len : Nat
  aligned : Bool
  empty : Bool

def numberBuf : IoctlBuf := ⟨false, 4, true, true⟩

inductive IoctlValue where
  | text (s : List UInt8)
  | number (n : UInt32)

/-- What a call returns, what it wrote to the buffer, the contexts it finalised and the
handle. -/
structure Ioctled where
  ret : Int
  out : Option IoctlValue
  finished : List Digest
  h : OtaHandle

def Ioctled.of (h : OtaHandle) (ret : Int) (out : Option IoctlValue) : Ioctled := ⟨ret, out, [], h⟩

def ioctlText (h : OtaHandle) (buf : IoctlBuf) (malloc : Bool) (field : Option CStr) : Ioctled :=
  match field with
  | none => .of h (-1) none
  | some s =>
    if buf.empty = false then .of h (-1) none
    else if malloc = false then .of h (-1) none
    else .of h 0 (some (.text s.val))

def ioctlNumber (h : OtaHandle) (buf : IoctlBuf) (n : UInt32) : Ioctled :=
  if buf.len ≠ 4 ∨ buf.aligned = false then .of h (-1) none else .of h 0 (some (.number n))

/-- `strncpy` with a terminator in the last byte. -/
def ioctlCopy (h : OtaHandle) (buf : IoctlBuf) (s : CStr) : Ioctled :=
  .of h 0 (some (.text (s.val.take (buf.len - 1))))

/-- The values of `IOT_OTA_Type_t`. -/
def OtaType.toNumber : OtaType → UInt32
  | .none => 0
  | .cota => 1
  | .fota => 2

section
variable (lib : OtaLib)

/-- `strcmp` against what a finalisation wrote. -/
def verdict (announced digest : List UInt8) : UInt32 := if announced = hexStr digest then 1 else 0

/-- `IOT_OTAG_CHECK_FIRMWARE` in the right state; the context is released. -/
def checkFirmware (h : OtaHandle) : Except OtaFault Ioctled :=
  match h.md5 with
  | none => .error .nullDigest
  | some d =>
    .ok ⟨0, some (.number (verdict (cstrOf h.md5sum).val (d.finish lib.md5 bitsLe).1)), [d],
      { h with md5 := none }⟩

def methodMd5 : CStr := .ofString "Md5" (by decide)
def methodSha256 : CStr := .ofString "Sha256" (by decide)

/-- Finalise a context and compare with the sign. -/
def checkSign (ctx : Option Digest) (hash : List UInt8 → List UInt8) (bits : Nat → List UInt8)
    (sign : Option CStr) : Except OtaFault (UInt32 × Digest × Digest) :=
  match ctx, sign with
  | none, _ => .error .nullDigest
  | some _, none => .error .nullSign
  | some d, some sign =>
    let (digest, after) := d.finish hash bits
    .ok (verdict sign.val digest, d, after)

/-- `strncmp` with the length of the sign method compares with a prefix. -/
def checkConfigMd5 (method : CStr) (r : Ioctled) : Except OtaFault Ioctled :=
  if method.val <+: methodMd5.val then
    match checkSign r.h.md5 lib.md5 bitsLe r.h.sign with
    | .error fault => .error fault
    | .ok (v, d, after) =>
      .ok ⟨r.ret, some (.number v), r.finished ++ [d], { r.h with md5 := some after }⟩
  else .ok r

def checkConfigSha256 (method : CStr) (r : Ioctled) : Except OtaFault Ioctled :=
  if method.val <+: methodSha256.val then
    match checkSign r.h.sha256 lib.sha256 (fun n => (bitsLe n).reverse) r.h.sign with
    | .error fault => .error fault
    | .ok (v, d, after) =>
      .ok ⟨r.ret, some (.number v), r.finished ++ [d], { r.h with sha256 := some after }⟩
  else .ok r

/-- `IOT_OTAG_CHECK_CONFIG` in the right state; the contexts stay. -/
def checkConfig (h : OtaHandle) : Except OtaFault Ioctled :=
  match h.signMethod with
  | none => .error .nullSignMethod
  | some method =>
    match checkConfigMd5 lib method (.of h 0 none) with
    | .error fault => .error fault
    | .ok r => checkConfigSha256 lib method r

def otaIoctl (h : OtaHandle) (type : OtaCmd) (buf : IoctlBuf) (malloc : Bool) :
    Except OtaFault Ioctled :=
  if buf.null = true ∨ buf.len = 0 then .ok (.of h otaeInvalidParam none)
  else if h.state = .uninited ∨ h.state = .inited then .ok (.of h otaeInvalidState none)
  else
    match type with
    | .cotaConfigId => .ok (ioctlText h buf malloc h.configId)
    | .cotaConfigSize => .ok (ioctlNumber h buf h.configSize)
    | .cotaSign => .ok (ioctlText h buf malloc h.sign)
    | .cotaSignMethod => .ok (ioctlText h buf malloc h.signMethod)
    | .cotaUrl => .ok (ioctlText h buf malloc h.cotaUrl)
    | .cotaGettype => .ok (ioctlText h buf malloc h.getType)
    | .otaType => .ok (ioctlNumber h buf h.type.toNumber)
    | .fetchedSize => .ok (ioctlNumber h buf h.sizeFetched)
    | .fileSize => .ok (ioctlNumber h buf h.sizeFile)
    | .md5sum => .ok (ioctlCopy h buf (cstrOf h.md5sum))
    | .version =>
      match h.version with
      | none => .error .nullVersion
      | some version => .ok (ioctlCopy h buf version)
    | .checkFirmware =>
      if buf.len ≠ 4 ∨ buf.aligned = false then .ok (.of h (-1) none)
      else if h.state ≠ .fetched then .ok (.of h (-1) none)
      else checkFirmware lib h
    | .checkConfig =>
      if buf.len ≠ 4 ∨ buf.aligned = false then .ok (.of h (-1) none)
      else if h.state ≠ .fetched then .ok (.of h (-1) none)
      else checkConfig lib h
    | .resetFetchedSize => .ok (.of { h with sizeFetched := 0 } 0 none)
    | .resetState =>
      .ok (.of { h with type := .none, state := .inited, sizeFetched := 0 } 0 none)

/-! ### What an ioctl does -/

/-- The call gets as far as its command. -/
structure Reached (h : OtaHandle) (type : OtaCmd) (buf : IoctlBuf) : Prop where
  given : ¬ (buf.null = true ∨ buf.len = 0)
  announced : ¬ (h.state = .uninited ∨ h.state = .inited)
  check : type = .checkFirmware ∨ type = .checkConfig →
    ¬ (buf.len ≠ 4 ∨ buf.aligned = false) ∧ h.state = .fetched

instance (h : OtaHandle) (type : OtaCmd) (buf : IoctlBuf) : Decidable (Reached h type buf) :=
  decidable_of_iff (_ ∧ _ ∧ _) ⟨fun h => ⟨h.1, h.2.1, h.2.2⟩, fun h => ⟨h.1, h.2, h.3⟩⟩

/-- What `IOT_OTA_Ioctl` returns. -/
inductive Ioctling (h : OtaHandle) (type : OtaCmd) (buf : IoctlBuf) :
    Except OtaFault Ioctled → Prop
  | kept {ret : Int} {out : Option IoctlValue}
    (hret : type = .checkFirmware ∨ type = .checkConfig → ret < 0) :
    Ioctling h type buf (.ok (.of h ret out))
  | nullVersion (hr : Reached h type buf) (ht : type = .version) (hv : h.version = none) :
    Ioctling h type buf (.error .nullVersion)
  | checkFirmware (hr : Reached h type buf) (ht : type = .checkFirmware) :
    Ioctling h type buf (checkFirmware lib h)
  | checkConfig (hr : Reached h type buf) (ht : type = .checkConfig) :
    Ioctling h type buf (checkConfig lib h)
  | resetFetchedSize (hr : Reached h type buf) (ht : type = .resetFetchedSize) :
    Ioctling h type buf (.ok (.of { h with sizeFetched := 0 } 0 none))
  | resetState (hr : Reached h type buf) (ht : type = .resetState) :
    Ioctling h type buf
      (.ok (.of { h with type := .none, state := .inited, sizeFetched := 0 } 0 none))

variable {lib}

theorem ioctlText_kept {h : OtaHandle} {type : OtaCmd} (buf : IoctlBuf) (malloc : Bool)
    (field : Option CStr) (ht : type ≠ .checkFirmware ∧ type ≠ .checkConfig) :
    Ioctling lib h type buf (.ok (ioctlText h buf malloc field)) := by
  have hret {ret : Int} : type = .checkFirmware ∨ type = .checkConfig → ret < 0 :=
    fun h => (h.elim ht.1 ht.2).elim
  unfold ioctlText
  split
  · exact .kept hret
  · split
    · exact .kept hret
    · split <;> exact .kept hret

theorem ioctlNumber_kept {h : OtaHandle} {type : OtaCmd} (buf : IoctlBuf) (n : UInt32)
    (ht : type ≠ .checkFirmware ∧ type ≠ .checkConfig) :
    Ioctling lib h type buf (.ok (ioctlNumber h buf n)) := by
  have hret {ret : Int} : type = .checkFirmware ∨ type = .checkConfig → ret < 0 :=
    fun h => (h.elim ht.1 ht.2).elim
  unfold ioctlNumber
  split <;> exact .kept hret

theorem ioctl_ioctling (lib : OtaLib) (h : OtaHandle) (type : OtaCmd) (buf : IoctlBuf)
    (malloc : Bool) : Ioctling lib h type buf (otaIoctl lib h type buf malloc) := by
  unfold otaIoctl
  split
  · exact .kept fun _ => by decide
  next hbuf =>
  split
  · exact .kept fun _ => by decide
  next hstate =>
  cases type with
  | cotaConfigId => exact ioctlText_kept buf malloc h.configId ⟨nofun, nofun⟩
  | cotaConfigSize => exact ioctlNumber_kept buf h.configSize ⟨nofun, nofun⟩
  | cotaSign => exact ioctlText_kept buf malloc h.sign ⟨nofun, nofun⟩
  | cotaSignMethod => exact ioctlText_kept buf malloc h.signMethod ⟨nofun, nofun⟩
  | cotaUrl => exact ioctlText_kept buf malloc h.cotaUrl ⟨nofun, nofun⟩
  | cotaGettype => exact ioctlText_kept buf malloc h.getType ⟨nofun, nofun⟩
  | otaType => exact ioctlNumber_kept buf h.type.toNumber ⟨nofun, nofun⟩
  | fetchedSize => exact ioctlNumber_kept buf h.sizeFetched ⟨nofun, nofun⟩
  | fileSize => exact ioctlNumber_kept buf h.sizeFile ⟨nofun, nofun⟩
  | md5sum => exact .kept fun h => h.elim nofun nofun
  | version =>
    dsimp only
    split
    · next hv => exact .nullVersion ⟨hbuf, hstate, fun h => h.elim nofun nofun⟩ rfl hv
    · exact .kept fun h => h.elim nofun nofun
  | checkFirmware =>
    dsimp only
    split
    · exact .kept fun _ => by decide
    next hnumber =>
    split
    · exact .kept fun _ => by decide
    next hs => exact .checkFirmware ⟨hbuf, hstate, fun _ => ⟨hnumber, not_not.mp hs⟩⟩ rfl
  | checkConfig =>
    dsimp only
    split
    · exact .kept fun _ => by decide
    next hnumber =>
    split
    · exact .kept fun _ => by decide
    next hs => exact .checkConfig ⟨hbuf, hstate, fun _ => ⟨hnumber, not_not.mp hs⟩⟩ rfl
  | resetFetchedSize =>
    exact .resetFetchedSize ⟨hbuf, hstate, fun h => h.elim nofun nofun⟩ rfl
  | resetState => exact .resetState ⟨hbuf, hstate, fun h => h.elim nofun nofun⟩ rfl

def OtaHandle.asks (h : OtaHandle) (method : CStr) : Bool :=
  h.signMethod.any fun m => m.val <+: method.val

/-- A context of the handle that the sign method asks for. -/
def OtaHandle.Asked (h : OtaHandle) (d : Digest) : Prop :=
  h.asks methodMd5 = true ∧ h.md5 = some d ∨ h.asks methodSha256 = true ∧ h.sha256 = some d

inductive ConfigChecked (h : OtaHandle) : Except OtaFault Ioctled → Prop
  | nullSignMethod (hm : h.signMethod = none) : ConfigChecked h (.error .nullSignMethod)
  | nullDigest (hd : h.asks methodMd5 = true ∧ h.md5 = none ∨
      h.asks methodSha256 = true ∧ h.sha256 = none) : ConfigChecked h (.error .nullDigest)
  | nullSign (ha : h.asks methodMd5 = true ∨ h.asks methodSha256 = true) (hs : h.sign = none) :
    ConfigChecked h (.error .nullSign)
  | reported {out : Option IoctlValue} {md5 sha256 : Option Digest} {ds : List Digest}
    (hmd5 : h.asks methodMd5 = false → md5 = h.md5)
    (hsha256 : h.asks methodSha256 = false → sha256 = h.sha256)
    (hds : ∀ d ∈ ds, h.Asked d)
    (hout : h.asks methodMd5 = false → h.asks methodSha256 = false → out = none) :
    ConfigChecked h (.ok ⟨0, out, ds, { h with md5 := md5, sha256 := sha256 }⟩)

/-- What the comparison for one method does. -/
inductive SignChecked (asked : Prop) (ctx : Option Digest) (sign : Option CStr)
    (put : Digest → OtaHandle) (r : Ioctled) : Except OtaFault Ioctled → Prop
  | skipped (hn : ¬ asked) : SignChecked asked ctx sign put r (.ok r)
  | nullDigest (ha : asked) (hc : ctx = none) :
    SignChecked asked ctx sign put r (.error .nullDigest)
  | nullSign (ha : asked) (hs : sign = none) : SignChecked asked ctx sign put r (.error .nullSign)
  | checked {v : UInt32} {d after : Digest} (ha : asked) (hc : ctx = some d) :
    SignChecked asked ctx sign put r
      (.ok ⟨r.ret, some (.number v), r.finished ++ [d], put after⟩)

theorem checkConfigMd5_checked (lib : OtaLib) (method : CStr) (r : Ioctled) :
    SignChecked (method.val <+: methodMd5.val) r.h.md5 r.h.sign
      (fun after => { r.h with md5 := some after }) r (checkConfigMd5 lib method r) := by
  unfold checkConfigMd5 checkSign
  split
  · next ha =>
    rcases hc : r.h.md5 with _ | d
    · exact .nullDigest ha rfl
    · rcases hs : r.h.sign with _ | sign
      · exact .nullSign ha rfl
      · exact .checked ha rfl
  · next hn => exact .skipped hn

theorem checkConfigSha256_checked (lib : OtaLib) (method : CStr) (r : Ioctled) :
    SignChecked (method.val <+: methodSha256.val) r.h.sha256 r.h.sign
      (fun after => { r.h with sha256 := some after }) r (checkConfigSha256 lib method r) := by
  unfold checkConfigSha256 checkSign
  split
  · next ha =>
    rcases hc : r.h.sha256 with _ | d
    · exact .nullDigest ha rfl
    · rcases hs : r.h.sign with _ | sign
      · exact .nullSign ha rfl
      · exact .checked ha rfl
  · next hn => exact .skipped hn

theorem checkConfigSha256_of_md5 {h : OtaHandle} {method : CStr} {out : Option IoctlValue}
    {ds : List Digest} {md5 : Option Digest} (hm : h.signMethod = some method)
    (hmd5 : h.asks methodMd5 = false → md5 = h.md5 ∧ out = none)
    (hds : ∀ d ∈ ds, h.asks methodMd5 = true ∧ h.md5 = some d) :
    ConfigChecked h
      (checkConfigSha256 lib method ⟨0, out, ds, { h with md5 := md5 }⟩) := by
  have hasks : h.asks methodSha256 = decide (method.val <+: methodSha256.val) := by
    unfold OtaHandle.asks
    rw [hm]
    rfl
  have hchecked := checkConfigSha256_checked lib method
    ⟨0, out, ds, { h with md5 := md5 }⟩
  generalize checkConfigSha256 lib method _ = r at hchecked ⊢
  cases hchecked with
  | skipped hn =>
    exact .reported (fun ha => (hmd5 ha).1) (fun _ => rfl) (fun d hd => .inl (hds d hd))
      fun ha _ => (hmd5 ha).2
  | nullDigest ha hc => exact .nullDigest (.inr ⟨hasks.trans (decide_eq_true ha), hc⟩)
  | nullSign ha hs => exact .nullSign (.inr (hasks.trans (decide_eq_true ha))) hs
  | @checked v d after ha hc =>
    have hasked : h.asks methodSha256 = true := hasks.trans (decide_eq_true ha)
    refine .reported (fun ha => (hmd5 ha).1) (fun hn => ?_) (fun e he => ?_) fun _ hn => ?_
    · exact absurd (hasked.symm.trans hn) nofun
    · rcases List.mem_append.mp he with he | he
      · exact .inl (hds e he)
      · rw [List.mem_singleton.mp he]
        exact .inr ⟨hasked, hc⟩
    · exact absurd (hasked.symm.trans hn) nofun

theorem checkConfig_checked (lib : OtaLib) (h : OtaHandle) :
    ConfigChecked h (checkConfig lib h) := by
  unfold checkConfig
  split
  · next hm => exact .nullSignMethod hm
  next method hm =>
  have hasks : h.asks methodMd5 = decide (method.val <+: methodMd5.val) := by
    unfold OtaHandle.asks
    rw [hm]
    rfl
  have hchecked := checkConfigMd5_checked lib method (.of h 0 none)
  generalize checkConfigMd5 lib method (.of h 0 none) = r at hchecked ⊢
  cases hchecked with
  | skipped hn =>
    exact checkConfigSha256_of_md5 hm (fun _ => ⟨rfl, rfl⟩) fun d hd => absurd hd List.not_mem_nil
  | nullDigest ha hc => exact .nullDigest (.inl ⟨hasks.trans (decide_eq_true ha), hc⟩)
  | nullSign ha hs => exact .nullSign (.inl (hasks.trans (decide_eq_true ha))) hs
  | @checked v d after ha hc =>
    have hasked : h.asks methodMd5 = true := hasks.trans (decide_eq_true ha)
    refine checkConfigSha256_of_md5 hm (fun hn => ?_) fun e he => ?_
    · exact absurd (hasked.symm.trans hn) nofun
    · rw [List.mem_singleton.mp he]
      exact ⟨hasked, hc⟩

end

end AliyunIot.Ota

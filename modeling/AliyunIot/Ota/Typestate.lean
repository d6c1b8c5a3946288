import AliyunIot.Lib.Run
import AliyunIot.Ota.Announced

/-!
# The objects of the handle over a run

The digest contexts and the texts of the handle come and go with messages, fetches and
checks. `uses_run`: in a run whose checks are each made once for what was downloaded,
and whose texts are asked for after a message told them, no call uses a null pointer or
finalises a context twice.
-/

namespace AliyunIot.Ota

open Lib

/-- The calls between `IOT_OTA_Init` and `IOT_OTA_Deinit`, and the messages. -/
inductive OtaOp where
  | message (env : CallbackEnv) (msg : List UInt8) (type : OtaTopic)
  | fetchYield (env : FetchEnv) (buf : Bool) (bufLen : Nat)
  | isFetching
  | isFetchFinish
  | ioctl (type : OtaCmd) (buf : IoctlBuf) (malloc : Bool)

section
variable (lib : OtaLib)

/-- The handle after a call; one that would read through a null pointer does not return. -/
def OtaHandle.next (h : OtaHandle) : OtaOp → OtaHandle
  | .message env msg type => (otaCallback lib env h msg type).2
  | .fetchYield env buf bufLen =>
    match otaFetchYield lib env h buf bufLen with
    | .ok r => r.h
    | .error _ => h
  | .isFetching | .isFetchFinish => h
  | .ioctl type buf malloc =>
    match otaIoctl lib h type buf malloc with
    | .ok r => r.h
    | .error _ => h

/-! ## What was told and used -/

/-- Whether the last message to have the text of a key found memory for it. -/
def told (env : CallbackEnv) (doc : List UInt8) (key : String) (was : Bool) : Bool :=
  if found lib doc key then env.malloc key else was

/-- The handle; the texts that the last message to have them found memory for; whether a
check has used a context since it was made, or one could not be made for a configuration;
and what the checks have reported since a message was accepted. -/
structure OtaUse where
  h : OtaHandle
  version : Bool
  sign : Bool
  signMethod : Bool
  md5Spent : Bool
  sha256Spent : Bool
  firmwareVerdict : Option (Option IoctlValue)
  configVerdict : Option (Option IoctlValue)

namespace OtaUse

def init : OtaUse := ⟨otaInit, false, false, false, false, false, none, none⟩

/-- A message told its fields. -/
def heard (s : OtaUse) (env : CallbackEnv) (doc : List UInt8) (kind : OtaType) : OtaUse :=
  if kind = .fota then { s with version := told lib env doc "version" s.version }
  else
    { s with
      sign := if readsSize lib env doc then told lib env doc "sign" s.sign else s.sign
      signMethod :=
        if readsSize lib env doc && reads lib env doc "sign" then
          told lib env doc "signMethod" s.signMethod
        else s.signMethod
      md5Spent := if readsConfig lib env doc then ! env.md5Init else s.md5Spent
      sha256Spent := if readsConfig lib env doc then ! env.sha256Init else s.sha256Spent }

/-- A message came. -/
def received (s : OtaUse) (env : CallbackEnv) (msg : List UInt8) (type : OtaTopic) : OtaUse :=
  if s.h.state = .fetching then s
  else
    match payloadOf lib msg type with
    | none => s
    | some doc => s.heard lib env doc type.kind

/-- A fetch makes a context that is missing, and both for the first bytes. -/
def makes (s : OtaUse) (ret : Int) (ctx : Option Digest) : Bool :=
  decide s.h.Active && (ctx.isNone || (decide (s.h.sizeFetched = 0) && decide (0 ≤ ret)))

/-- A fetch returned. -/
def yielded (s : OtaUse) (ret : Int) : OtaUse :=
  { s with
    md5Spent := s.md5Spent && ! s.makes ret s.h.md5
    sha256Spent := s.sha256Spent && ! s.makes ret s.h.sha256 }

def checked (s : OtaUse) (type : OtaCmd) (out : Option IoctlValue) : OtaUse :=
  match type with
  | .checkFirmware => { s with md5Spent := true, firmwareVerdict := some out }
  | .checkConfig =>
    { s with
      md5Spent := s.md5Spent || s.h.asks methodMd5
      sha256Spent := s.sha256Spent || s.h.asks methodSha256
      configVerdict := some out }
  | _ => s

/-- What is known after a call. -/
def track (s : OtaUse) : OtaOp → OtaUse
  | .message env msg type =>
    let t := s.received lib env msg type
    if (otaCallback lib env s.h msg type).1 = 0 then
      { t with firmwareVerdict := none, configVerdict := none }
    else t
  | .fetchYield env buf bufLen =>
    match otaFetchYield lib env s.h buf bufLen with
    | .ok r => s.yielded r.ret
    | .error _ => s
  | .isFetching | .isFetchFinish => s
  | .ioctl type buf malloc =>
    match otaIoctl lib s.h type buf malloc with
    | .ok r => if r.ret = 0 then s.checked type r.out else s
    | .error _ => s

def next (s : OtaUse) (op : OtaOp) : OtaUse := { s.track lib op with h := s.h.next lib op }

/-- A check of the firmware is the first for the accepted message and is made of a context
that no check has used. So is one of the configuration, if the sign method asks for a
context at all. -/
def ChecksOnce (s : OtaUse) : OtaCmd → Prop
  | .version => s.version = true
  | .checkFirmware => s.firmwareVerdict = none ∧ s.md5Spent = false
  | .checkConfig =>
    s.signMethod = true ∧
    (s.h.asks methodMd5 = true → s.sign = true ∧ s.configVerdict = none ∧ s.md5Spent = false) ∧
    (s.h.asks methodSha256 = true →
      s.sign = true ∧ s.configVerdict = none ∧ s.sha256Spent = false) ∧
    ∀ v ∈ s.configVerdict, v = none
  | _ => True

/-- A message of the kind that is being fetched finds memory for its url. A text is asked
for after it was told, and a check is made once. -/
def Disciplined (s : OtaUse) : OtaOp → Prop
  | .message env msg type => s.h.state ≠ .fetching → s.h.type = type.kind →
      ∀ doc, payloadOf lib msg type = some doc → found lib doc "url" = true →
        env.malloc "url" = true
  | .fetchYield .. | .isFetching | .isFetchFinish => True
  | .ioctl type buf _ => Reached s.h type buf → s.ChecksOnce type

/-- The call uses no null pointer and finalises no context again; and a check that is
repeated reports what it did before, or an error. -/
def Safe (s : OtaUse) : OtaOp → Prop
  | .message .. | .isFetching | .isFetchFinish => True
  | .fetchYield env buf bufLen => ∃ r, otaFetchYield lib env s.h buf bufLen = .ok r
  | .ioctl type buf malloc => ∃ r, otaIoctl lib s.h type buf malloc = .ok r ∧
      (∀ d ∈ r.finished, d.finished = false) ∧
      (r.ret = 0 → type = .checkFirmware → ∀ v ∈ s.firmwareVerdict, r.out = v) ∧
      (r.ret = 0 → type = .checkConfig → ∀ v ∈ s.configVerdict, r.out = v)

end OtaUse

end

/-! ## What a read tells -/

section
variable {lib : OtaLib} {env : CallbackEnv} {doc value : List UInt8} {key : String}
variable {destLen : Nat} {old s : Option CStr}

variable {was : Bool}

theorem told_missed (h : Missed lib env doc key old s)
    (hold : was = true → old ≠ none) (htold : told lib env doc key was = true) : s ≠ none := by
  unfold told found at htold
  cases h with
  | missing hv =>
    rw [hv] at htold
    exact hold htold
  | noMemory hv hm =>
    rw [hv, hm] at htold
    cases htold

theorem kept_missed (h : Missed lib env doc key old s) (hold : old ≠ none)
    (hm : found lib doc key = true → env.malloc key = true) : s ≠ none := by
  unfold found at hm
  cases h with
  | missing => exact hold
  | noMemory hv hno =>
    rw [hv, hno] at hm
    exact absurd (hm rfl) nofun

variable {h : OtaHandle} {p : Parsed}

theorem FirmwareRead.version_told (hr : FirmwareRead lib env doc h p)
    (hold : was = true → h.version ≠ none) (htold : told lib env doc "version" was = true) :
    p.handle.version ≠ none := by
  cases hr with
  | version hv => exact told_missed hv hold htold
  | url | md5 | size | all => nofun

theorem FirmwareRead.purl_kept (hr : FirmwareRead lib env doc h p) (hold : h.purl ≠ none)
    (hm : found lib doc "url" = true → env.malloc "url" = true) : p.handle.purl ≠ none := by
  cases hr with
  | version => exact hold
  | url _ hu => exact kept_missed hu hold hm
  | md5 | size | all => nofun

theorem ConfigRead.cotaUrl_kept (hr : ConfigRead lib env doc h p) (hold : h.cotaUrl ≠ none)
    (hm : found lib doc "url" = true → env.malloc "url" = true) : p.handle.cotaUrl ≠ none := by
  cases hr with
  | configId | configSize | sign | signMethod => exact hold
  | url _ _ _ _ hu => exact kept_missed hu hold hm
  | getType | all => nofun

theorem ConfigRead.sign_told (hr : ConfigRead lib env doc h p) (hold : was = true → h.sign ≠ none)
    (htold : (if readsSize lib env doc then told lib env doc "sign" was else was) = true) :
    p.handle.sign ≠ none := by
  unfold readsSize at htold
  cases hr with
  | configId hi =>
    rw [not_reads_of hi] at htold
    exact hold htold
  | configSize hi hz =>
    rw [not_fits_of hz, Bool.and_false] at htold
    exact hold htold
  | sign hi hz hs =>
    rw [reads_of hi, fits_of hz] at htold
    exact told_missed hs hold htold
  | signMethod | url | getType | all => nofun

theorem ConfigRead.signMethod_told (hr : ConfigRead lib env doc h p)
    (hold : was = true → h.signMethod ≠ none)
    (htold : (if readsSize lib env doc && reads lib env doc "sign" then
      told lib env doc "signMethod" was else was) = true) : p.handle.signMethod ≠ none := by
  unfold readsSize at htold
  cases hr with
  | configId hi =>
    rw [not_reads_of hi] at htold
    exact hold htold
  | configSize hi hz =>
    rw [not_fits_of hz, Bool.and_false] at htold
    exact hold htold
  | sign hi hz hs =>
    rw [not_reads_of hs, Bool.and_false] at htold
    exact hold htold
  | signMethod hi hz hs hm =>
    rw [reads_of hi, fits_of hz, reads_of hs] at htold
    exact told_missed hm hold htold
  | url | getType | all => nofun

end

/-! ## What every call keeps -/

/-- No check has finalised the context, and after a download it is there. -/
structure Unspent (state : OtaState) (ctx : Option Digest) : Prop where
  unfinished : ∀ d ∈ ctx, d.finished = false
  there : state = .fetched → ctx ≠ none

theorem Unspent.update {state : OtaState} {ctx : Option Digest} (h : Unspent state ctx)
    (hthere : ctx ≠ none) (after : OtaState) (bytes : List UInt8) :
    Unspent after (ctx.map fun d => d.update bytes) := by
  constructor
  · intro d hd
    obtain ⟨e, he, rfl⟩ := Option.map_eq_some_iff.mp hd
    exact h.unfinished e he
  · exact fun _ hnone => hthere (Option.map_eq_none_iff.mp hnone)

theorem unspent_fresh (state : OtaState) : Unspent state (digestInit true) :=
  ⟨by rintro d ⟨⟩; rfl, nofun⟩

namespace OtaUse

/-- What has been told is there, and so is the url of what is fetched. A context that no
check has used is not finalised. -/
structure Sound (s : OtaUse) : Prop where
  version : s.version = true → s.h.version ≠ none
  sign : s.sign = true → s.h.sign ≠ none
  signMethod : s.signMethod = true → s.h.signMethod ≠ none
  url : s.h.type ≠ .none → s.h.url ≠ none
  md5 : s.md5Spent = false → Unspent s.h.state s.h.md5
  sha256 : s.sha256Spent = false → Unspent s.h.state s.h.sha256

theorem init_sound : init.Sound where
  version := nofun
  sign := nofun
  signMethod := nofun
  url := fun h => absurd rfl h
  md5 := fun _ => ⟨by rintro d ⟨⟩; rfl, nofun⟩
  sha256 := fun _ => ⟨by rintro d ⟨⟩; rfl, nofun⟩

section
variable {lib : OtaLib} {s : OtaUse}

section
variable {env : CallbackEnv} {doc : List UInt8} {p : Parsed}

theorem Sound.firmwareRead (hs : s.Sound) (hr : FirmwareRead lib env doc s.h p)
    (hm : s.h.type = .fota → found lib doc "url" = true → env.malloc "url" = true) :
    Sound { s.heard lib env doc .fota with h := p.handle } := by
  have hversion := hr.version_told hs.version
  have hpurl (ht : s.h.type = .fota) (hold : s.h.purl ≠ none) := hr.purl_kept hold (hm ht)
  rw [hr.frame]
  refine ⟨hversion, hs.sign, hs.signMethod, ?_, hs.md5, hs.sha256⟩
  have hurl := hs.url
  unfold OtaHandle.url at hurl ⊢
  cases ht : s.h.type with
  | none => exact fun h => absurd rfl h
  | cota =>
    rw [ht] at hurl
    exact hurl
  | fota =>
    rw [ht] at hurl
    exact fun h => hpurl ht (hurl h)

theorem Sound.configRead (hs : s.Sound) (hr : ConfigRead lib env doc s.h p)
    (hm : s.h.type = .cota → found lib doc "url" = true → env.malloc "url" = true) :
    Sound { s.heard lib env doc .cota with
      h := p.handle, md5Spent := s.md5Spent, sha256Spent := s.sha256Spent } := by
  have hsign := hr.sign_told hs.sign
  have hmethod := hr.signMethod_told hs.signMethod
  have hcota (ht : s.h.type = .cota) (hold : s.h.cotaUrl ≠ none) := hr.cotaUrl_kept hold (hm ht)
  rw [hr.frame]
  refine ⟨hs.version, hsign, hmethod, ?_, hs.md5, hs.sha256⟩
  have hurl := hs.url
  unfold OtaHandle.url at hurl ⊢
  cases ht : s.h.type with
  | none => exact fun h => absurd rfl h
  | cota =>
    rw [ht] at hurl
    exact fun h => hcota ht (hurl h)
  | fota =>
    rw [ht] at hurl
    exact hurl

end

theorem received_of {env : CallbackEnv} {msg doc : List UInt8} {type : OtaTopic}
    (hstate : s.h.state ≠ .fetching) (hd : payloadOf lib msg type = some doc) :
    s.received lib env msg type = s.heard lib env doc type.kind := by
  unfold received
  rw [if_neg hstate, hd]

theorem heard_config_spent {env : CallbackEnv} {doc : List UInt8} {p : Parsed}
    (hr : ConfigRead lib env doc s.h p) :
    s.heard lib env doc .cota =
      match p with
      | .error _ =>
        { s.heard lib env doc .cota with md5Spent := s.md5Spent, sha256Spent := s.sha256Spent }
      | .ok _ =>
        { s.heard lib env doc .cota with
          md5Spent := ! env.md5Init, sha256Spent := ! env.sha256Init } := by
  have hiff := hr.readsConfig_iff
  unfold heard
  rw [if_neg nofun]
  cases p with
  | error after =>
    have hno : readsConfig lib env doc = false := by
      rw [Bool.eq_false_iff]
      intro hyes
      obtain ⟨_, hok⟩ := hiff.mp hyes
      cases hok
    rw [hno]
    rfl
  | ok after =>
    rw [hiff.mpr ⟨after, rfl⟩]
    rfl

variable {malloc : Bool}

theorem unspent_init {state : OtaState} (h : (! malloc) = false) :
    Unspent state (digestInit malloc) := by
  rw [Bool.not_eq_false'] at h
  rw [h]
  exact ⟨by rintro d ⟨⟩; rfl, nofun⟩

theorem Sound.configReset {env : CallbackEnv} {doc : List UInt8} {after : OtaHandle}
    (hs : s.Sound) (hr : ConfigRead lib env doc s.h (.ok after))
    (hm : s.h.type = .cota → found lib doc "url" = true → env.malloc "url" = true) :
    Sound { s.heard lib env doc .cota with h := configReset env after } := by
  have hread := hs.configRead hr hm
  rw [heard_config_spent hr]
  exact ⟨hread.version, hread.sign, hread.signMethod, hread.url, unspent_init, unspent_init⟩

theorem Sound.message (hs : s.Sound) (env : CallbackEnv) (msg : List UInt8) (type : OtaTopic)
    (hd : s.Disciplined lib (.message env msg type)) :
    Sound { s.received lib env msg type with h := (otaCallback lib env s.h msg type).2 } := by
  have hreceived := callback_received lib env s.h msg type
  generalize otaCallback lib env s.h msg type = r at hreceived ⊢
  cases hreceived with
  | ignored hig =>
    have heq : s.received lib env msg type = s := by
      unfold received
      rcases hig with hfetching | hnone
      · exact if_pos hfetching
      · rw [hnone, ite_self]
    rw [heq]
    exact hs
  | firmwareUnread hstate hk hdoc hr =>
    rw [received_of hstate hdoc, hk]
    exact hs.firmwareRead hr fun ht => hd hstate (ht.trans hk.symm) _ hdoc
  | firmwareClosed hstate hk hdoc hr _ =>
    rw [received_of hstate hdoc, hk]
    have hread := hs.firmwareRead hr fun ht => hd hstate (ht.trans hk.symm) _ hdoc
    exact ⟨hread.version, hread.sign, hread.signMethod, hread.url, hread.md5, hread.sha256⟩
  | firmware hstate hk hdoc hr hurl hch =>
    rw [received_of hstate hdoc, hk]
    have hread := hs.firmwareRead hr fun ht => hd hstate (ht.trans hk.symm) _ hdoc
    refine ⟨hread.version, hread.sign, hread.signMethod, fun _ => ?_, fun h => ?_, fun h => ?_⟩
    · exact fun h => absurd (hurl.symm.trans h) nofun
    · exact ⟨(hread.md5 h).unfinished, nofun⟩
    · exact ⟨(hread.sha256 h).unfinished, nofun⟩
  | configUnread hstate hk hdoc hr =>
    rw [received_of hstate hdoc, hk, heard_config_spent hr]
    exact hs.configRead hr fun ht => hd hstate (ht.trans hk.symm) _ hdoc
  | configClosed hstate hk hdoc hr _ =>
    rw [received_of hstate hdoc, hk]
    have hread := hs.configReset hr fun ht => hd hstate (ht.trans hk.symm) _ hdoc
    exact ⟨hread.version, hread.sign, hread.signMethod, hread.url, hread.md5, hread.sha256⟩
  | config hstate hk hdoc hr hurl hch =>
    rw [received_of hstate hdoc, hk]
    have hread := hs.configReset hr fun ht => hd hstate (ht.trans hk.symm) _ hdoc
    refine ⟨hread.version, hread.sign, hread.signMethod, fun _ => ?_, fun h => ?_, fun h => ?_⟩
    · exact fun h => absurd (hurl.symm.trans h) nofun
    · exact ⟨(hread.md5 h).unfinished, nofun⟩
    · exact ⟨(hread.sha256 h).unfinished, nofun⟩

variable {spent : Bool} {ret : Int}

theorem unspent_cases {ctx : Option Digest} (h : (spent && ! s.makes ret ctx) = false) :
    spent = false ∨ s.h.Active ∧ (ctx = none ∨ s.h.sizeFetched = 0 ∧ 0 ≤ ret) := by
  unfold makes at h
  simpa only [Bool.and_eq_false_iff, Bool.not_eq_false', Bool.and_eq_true, Bool.or_eq_true,
    decide_eq_true_eq, Option.isNone_iff_eq_none] using h

theorem active_ne_fetched {h : OtaHandle} (ha : h.Active) : h.state ≠ .fetched := by
  intro hf
  rcases ha with hp | hp <;> exact absurd (hp.symm.trans hf) nofun

theorem unspent_refused {ctx : Option Digest} {state : OtaState}
    (hret : ret < 0) (hctx : spent = false → Unspent s.h.state ctx)
    (hstate : state = .fetching ∨ state = s.h.state)
    (h : (spent && ! s.makes ret ctx) = false) : Unspent state ctx := by
  rcases unspent_cases h with hspent | ⟨hactive, hnone | ⟨_, hpos⟩⟩
  · refine ⟨(hctx hspent).unfinished, fun hf => ?_⟩
    rcases hstate with rfl | rfl
    · cases hf
    · exact (hctx hspent).there hf
  · subst hnone
    refine ⟨nofun, fun hf => ?_⟩
    rcases hstate with rfl | rfl
    · cases hf
    · exact absurd hf (active_ne_fetched hactive)
  · exact absurd hret (Int.not_lt.mpr hpos)

theorem unfinished_made {old : Option Digest} {d : Digest}
    (hmore : ¬ (s.h.sizeFetched = 0 ∧ 0 ≤ ret)) (hctx : spent = false → Unspent s.h.state old)
    (hm : Made malloc old d) (h : (spent && ! s.makes ret old) = false) : d.finished = false := by
  rcases hm with hold | ⟨_, _, hnew⟩
  · rcases unspent_cases h with hspent | ⟨_, hnone | hfirst⟩
    · exact (hctx hspent).unfinished d hold
    · cases hnone.symm.trans hold
    · exact absurd hfirst hmore
  · rw [hnew]

theorem unspent_made {old : Option Digest} {d : Digest}
    (hmore : ¬ (s.h.sizeFetched = 0 ∧ 0 ≤ ret)) (hctx : spent = false → Unspent s.h.state old)
    (hm : Made malloc old d) (h : (spent && ! s.makes ret old) = false) :
    Unspent .fetching (some d) :=
  ⟨by rintro e ⟨⟩; exact unfinished_made hmore hctx hm h, nofun⟩

theorem Sound.absorb (hs : s.Sound) (hm : s.h.md5 ≠ none) (hn : s.h.sha256 ≠ none)
    (bytes : List UInt8) : Sound { s with h := s.h.absorb bytes } := by
  unfold OtaHandle.absorb
  dsimp only
  split
  · exact ⟨hs.version, hs.sign, hs.signMethod, fun h => absurd rfl h,
      fun h => (hs.md5 h).update hm _ bytes, fun h => (hs.sha256 h).update hn _ bytes⟩
  · exact ⟨hs.version, hs.sign, hs.signMethod, hs.url,
      fun h => (hs.md5 h).update hm _ bytes, fun h => (hs.sha256 h).update hn _ bytes⟩

theorem Sound.fetchedBytes (hs : s.Sound) (env : FetchEnv) {d e : Digest} (ch : FetchChannel)
    (bytes : List UInt8) (hm : Made env.md5Init s.h.md5 d)
    (hn : Made env.sha256Init s.h.sha256 e) {r : Fetched} (hr : fetchedBytes env
      { s.h with state := .fetching, md5 := some d, sha256 := some e, chFetch := some ch }
      bytes = r) :
    Sound { s.yielded r.ret with h := r.h } := by
  subst hr
  unfold Ota.fetchedBytes
  split
  · split
    · exact ⟨hs.version, hs.sign, hs.signMethod, hs.url, fun _ => ⟨nofun, nofun⟩,
        unspent_made (fun h => absurd h.2 (by decide : ¬ (0 : Int) ≤ -1)) hs.sha256 hn⟩
    split
    · exact ⟨hs.version, hs.sign, hs.signMethod, hs.url, fun _ => unspent_fresh _,
        fun _ => ⟨nofun, nofun⟩⟩
    · refine Sound.absorb (s := { s.yielded _ with
        h := { s.h with
          state := .fetching, md5 := digestInit true, sha256 := digestInit true
          chFetch := some ch } }) ?_ nofun nofun bytes
      exact ⟨hs.version, hs.sign, hs.signMethod, hs.url, fun _ => unspent_fresh _,
        fun _ => unspent_fresh _⟩
  · next hmore =>
    refine Sound.absorb (s := { s.yielded _ with
      h := { s.h with
        state := .fetching, md5 := some d, sha256 := some e, chFetch := some ch } })
      ?_ nofun nofun bytes
    exact ⟨hs.version, hs.sign, hs.signMethod, hs.url,
      unspent_made (fun h => hmore h.1) hs.md5 hm,
      unspent_made (fun h => hmore h.1) hs.sha256 hn⟩

theorem Sound.fetchYield (hs : s.Sound) (env : FetchEnv) (buf : Bool) (bufLen : Nat) :
    Sound { s.track lib (.fetchYield env buf bufLen) with
      h := s.h.next lib (.fetchYield env buf bufLen) } := by
  unfold track OtaHandle.next
  dsimp only
  have hfail : State.failReturn < 0 := by decide
  have hy := fetchYield_yielded lib env s.h buf bufLen
  generalize otaFetchYield lib env s.h buf bufLen = r at hy ⊢
  cases hy with
  | refused hret _ =>
    exact ⟨hs.version, hs.sign, hs.signMethod, hs.url,
      unspent_refused hret hs.md5 (.inr rfl), unspent_refused hret hs.sha256 (.inr rfl)⟩
  | noMd5 hactive hm _ =>
    exact ⟨hs.version, hs.sign, hs.signMethod, hs.url,
      unspent_refused hfail hs.md5 (.inl rfl), unspent_refused hfail hs.sha256 (.inl rfl)⟩
  | noSha256 hactive hm hn _ =>
    exact ⟨hs.version, hs.sign, hs.signMethod, hs.url,
      unspent_made (fun h => absurd hfail (Int.not_lt.mpr h.2)) hs.md5 hm,
      unspent_refused hfail hs.sha256 (.inl rfl)⟩
  | nullUrl hactive ht hu => exact absurd hu (hs.url ht)
  | noChannel hactive hm hn _ _ =>
    have hmore {ret : Int} (hret : ret < 0) : ¬ (s.h.sizeFetched = 0 ∧ 0 ≤ ret) :=
      fun h => absurd hret (Int.not_lt.mpr h.2)
    exact ⟨hs.version, hs.sign, hs.signMethod, hs.url,
      unspent_made (hmore hfail) hs.md5 hm, unspent_made (hmore hfail) hs.sha256 hn⟩
  | @failed _ _ code hactive hm hn _ =>
    have hmore {ret : Int} (hret : ret < 0) : ¬ (s.h.sizeFetched = 0 ∧ 0 ≤ ret) :=
      fun h => absurd hret (Int.not_lt.mpr h.2)
    exact ⟨hs.version, hs.sign, hs.signMethod, hs.url,
      unspent_made (hmore code.property) hs.md5 hm, unspent_made (hmore code.property) hs.sha256 hn⟩
  | fetched hactive hm hn hc hf => exact hs.fetchedBytes env _ _ hm hn rfl

theorem checked_other {type : OtaCmd} (ht : ¬ (type = .checkFirmware ∨ type = .checkConfig))
    (out : Option IoctlValue) : s.checked type out = s := by
  cases type with
  | checkFirmware => exact absurd (.inl rfl) ht
  | checkConfig => exact absurd (.inr rfl) ht
  | _ => rfl

theorem checked_kept {type : OtaCmd} {out : Option IoctlValue}
    (hret : type = .checkFirmware ∨ type = .checkConfig → ret < 0) :
    (if ret = 0 then s.checked type out else s) = s := by
  by_cases ht : type = .checkFirmware ∨ type = .checkConfig
  · exact if_neg (Int.ne_of_lt (hret ht))
  · rw [checked_other ht, ite_self]

theorem Sound.configChecked (hs : s.Sound) {r : Ioctled} (hr : ConfigChecked s.h (.ok r)) :
    Sound { s.checked .checkConfig r.out with h := r.h } := by
  cases hr with
  | reported hmd5 hsha256 hds hout =>
    refine ⟨hs.version, hs.sign, hs.signMethod, hs.url, fun h => ?_, fun h => ?_⟩
    · obtain ⟨hspent, hasks⟩ := Bool.or_eq_false_iff.mp h
      exact hmd5 hasks ▸ hs.md5 hspent
    · obtain ⟨hspent, hasks⟩ := Bool.or_eq_false_iff.mp h
      exact hsha256 hasks ▸ hs.sha256 hspent

theorem Sound.ioctl (hs : s.Sound) (type : OtaCmd) (buf : IoctlBuf) (malloc : Bool) :
    Sound { s.track lib (.ioctl type buf malloc) with
      h := s.h.next lib (.ioctl type buf malloc) } := by
  unfold track OtaHandle.next
  dsimp only
  have hi := ioctl_ioctling lib s.h type buf malloc
  generalize otaIoctl lib s.h type buf malloc = r at hi ⊢
  cases hi with
  | kept hret =>
    unfold Ioctled.of
    dsimp only
    rw [checked_kept hret]
    exact hs
  | nullVersion => exact hs
  | checkFirmware hr ht =>
    subst ht
    unfold checkFirmware
    cases s.h.md5 with
    | none => exact hs
    | some d => exact ⟨hs.version, hs.sign, hs.signMethod, hs.url, nofun, hs.sha256⟩
  | checkConfig hr ht =>
    subst ht
    have hc := checkConfig_checked lib s.h
    generalize checkConfig lib s.h = r at hc ⊢
    cases r with
    | error fault => exact hs
    | ok r =>
      have hret : r.ret = 0 := by cases hc; rfl
      dsimp only
      rw [if_pos hret]
      exact hs.configChecked hc
  | resetFetchedSize hr ht =>
    subst ht
    exact ⟨hs.version, hs.sign, hs.signMethod, hs.url, hs.md5, hs.sha256⟩
  | resetState hr ht =>
    subst ht
    exact ⟨hs.version, hs.sign, hs.signMethod, fun h => absurd rfl h,
      fun h => ⟨(hs.md5 h).unfinished, nofun⟩, fun h => ⟨(hs.sha256 h).unfinished, nofun⟩⟩

theorem next_sound (op : OtaOp) (hd : s.Disciplined lib op) (hs : s.Sound) :
    (s.next lib op).Sound := by
  cases op with
  | message env msg type =>
    have hm := hs.message env msg type hd
    unfold next track
    dsimp only
    split
    · exact ⟨hm.version, hm.sign, hm.signMethod, hm.url, hm.md5, hm.sha256⟩
    · exact hm
  | fetchYield env buf bufLen => exact hs.fetchYield env buf bufLen
  | isFetching | isFetchFinish => exact hs
  | ioctl type buf malloc => exact hs.ioctl type buf malloc

theorem Sound.asked_unfinished (hs : s.Sound) (hd : s.ChecksOnce .checkConfig) {d : Digest}
    (ha : s.h.Asked d) : d.finished = false := by
  obtain ⟨_, hmd5, hsha256, _⟩ := hd
  rcases ha with ⟨hasks, hctx⟩ | ⟨hasks, hctx⟩
  · exact (hs.md5 (hmd5 hasks).2.2).unfinished d hctx
  · exact (hs.sha256 (hsha256 hasks).2.2).unfinished d hctx

theorem Sound.checkConfig_safe (lib : OtaLib) (hs : s.Sound) (hf : s.h.state = .fetched)
    (hd : s.ChecksOnce .checkConfig) :
    ∃ r, checkConfig lib s.h = .ok r ∧ (∀ d ∈ r.finished, d.finished = false) ∧
      ∀ v ∈ s.configVerdict, r.out = v := by
  have hc := checkConfig_checked lib s.h
  generalize checkConfig lib s.h = r at hc ⊢
  obtain ⟨hmethod, hmd5, hsha256, hverdict⟩ := id hd
  cases hc with
  | nullSignMethod hm => exact absurd hm (hs.signMethod hmethod)
  | nullDigest hnull =>
    rcases hnull with ⟨hasks, hnone⟩ | ⟨hasks, hnone⟩
    · exact absurd hnone ((hs.md5 (hmd5 hasks).2.2).there hf)
    · exact absurd hnone ((hs.sha256 (hsha256 hasks).2.2).there hf)
  | nullSign hasks hsign =>
    rcases hasks with hasks | hasks
    · exact absurd hsign (hs.sign (hmd5 hasks).1)
    · exact absurd hsign (hs.sign (hsha256 hasks).1)
  | reported _ _ hds hout =>
    refine ⟨_, rfl, fun d hmem => hs.asked_unfinished hd (hds d hmem), fun v hv => ?_⟩
    -- A check that was made before this one asked for no context, nor does this one.
    have hnone : ∀ {b : Bool}, (b = true → s.configVerdict = none) → b = false := by
      intro b hb
      rw [Bool.eq_false_iff]
      exact fun hasks => absurd ((hb hasks).symm.trans hv) nofun
    rw [hverdict v hv]
    exact hout (hnone fun h => (hmd5 h).2.1) (hnone fun h => (hsha256 h).2.1)

theorem Sound.safe (hs : s.Sound) (op : OtaOp) (hd : s.Disciplined lib op) : s.Safe lib op := by
  cases op with
  | message | isFetching | isFetchFinish => exact trivial
  | fetchYield env buf bufLen =>
    have hy := fetchYield_yielded lib env s.h buf bufLen
    unfold Safe
    dsimp only
    generalize otaFetchYield lib env s.h buf bufLen = r at hy ⊢
    cases hy with
    | nullUrl hactive ht hu => exact absurd hu (hs.url ht)
    | _ => exact ⟨_, rfl⟩
  | ioctl type buf malloc =>
    have hi := ioctl_ioctling lib s.h type buf malloc
    unfold Safe
    dsimp only
    generalize otaIoctl lib s.h type buf malloc = r at hi ⊢
    cases hi with
    | kept hret =>
      refine ⟨_, rfl, nofun, fun h ht => ?_, fun h ht => ?_⟩
      · exact absurd h (Int.ne_of_lt (hret (.inl ht)))
      · exact absurd h (Int.ne_of_lt (hret (.inr ht)))
    | nullVersion hr ht hv =>
      subst ht
      exact absurd hv (hs.version (hd hr))
    | checkFirmware hr ht =>
      subst ht
      obtain ⟨hverdict, hspent⟩ := hd hr
      have hu := hs.md5 hspent
      unfold checkFirmware
      rcases hm : s.h.md5 with _ | d
      · exact absurd hm (hu.there (hr.check (.inl rfl)).2)
      · refine ⟨_, rfl, fun e he => ?_, fun _ _ v hv => ?_, nofun⟩
        · rw [List.mem_singleton.mp he]
          exact hu.unfinished d hm
        · exact absurd (hverdict.symm.trans hv) nofun
    | checkConfig hr ht =>
      subst ht
      obtain ⟨r, hr, hfinished, hverdict⟩ :=
        hs.checkConfig_safe lib (hr.check (.inr rfl)).2 (hd hr)
      exact ⟨r, hr, hfinished, nofun, fun _ _ => hverdict⟩
    | resetFetchedSize hr ht =>
      subst ht
      exact ⟨_, rfl, nofun, nofun, nofun⟩
    | resetState hr ht =>
      subst ht
      exact ⟨_, rfl, nofun, nofun, nofun⟩

end

theorem uses_run (lib : OtaLib) (ops : List OtaOp)
    (hd : Meets (OtaUse.next lib) (OtaUse.Disciplined lib) .init ops) :
    Meets (OtaUse.next lib) (OtaUse.Safe lib) .init ops :=
  meets_of_invariant (I := Sound) (fun _ op hd hs => next_sound op hd hs)
    (fun _ op hd hs => hs.safe op hd) hd init_sound

end OtaUse

def announceOp : OtaOp := .message plentyEnv firmwareText.val .deviceUpgrate

def fetchOp : OtaOp := .fetchYield ⟨true, true, true, .ok 1, true, true⟩ true 1

def checkOp : OtaOp := .ioctl .checkFirmware numberBuf true

/-- A firmware is announced, fetched and checked. -/
def upgradeOps : List OtaOp := [announceOp, fetchOp, checkOp]

theorem upgradeOps_disciplined :
    Meets (OtaUse.next oneByteLib) (OtaUse.Disciplined oneByteLib) .init upgradeOps := by
  refine ⟨fun _ _ _ _ _ => rfl, trivial, fun _ => ?_, trivial⟩
  exact ⟨by decide +kernel, by decide +kernel⟩

theorem uses_run_upgrade :
    Meets (OtaUse.next oneByteLib) (OtaUse.Safe oneByteLib) .init upgradeOps :=
  OtaUse.uses_run oneByteLib upgradeOps upgradeOps_disciplined

/-- The firmware is checked again, with the context that the first check released. -/
theorem checkedTwice_not_safe :
    ¬ Meets (OtaUse.next oneByteLib) (OtaUse.Safe oneByteLib) .init (upgradeOps ++ [checkOp]) := by
  intro h
  obtain ⟨r, hr, _⟩ := (meets_append.mp h).2.1
  have hfault : (otaIoctl oneByteLib (run (OtaUse.next oneByteLib) .init upgradeOps).h
      .checkFirmware numberBuf true).isOk = false := by decide +kernel
  rw [hr] at hfault
  cases hfault

end AliyunIot.Ota

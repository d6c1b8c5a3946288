import AliyunIot.Ota.Typestate

/-!
# What the digests cover

The contexts absorb what is fetched, and messages, fetches and calls set back the size,
the contexts and the channel each on its own. `covered_run`: where a download is always
gone on with from where its contexts are, they cover what is fetched of the announced
file, and a firmware passes its check only with the announced digest.
-/

namespace AliyunIot.Ota

open Lib

section
variable (lib : OtaLib)

/-- The handle with what checks have used, and what the accepted message announced. -/
structure OtaCover where
  use : OtaUse
  accepted : Option Announced

namespace OtaCover

def init : OtaCover := ⟨.init, none⟩

abbrev h (s : OtaCover) : OtaHandle := s.use.h

def announce (s : OtaCover) : OtaOp → Option Announced
  | .message env msg type =>
    if (otaCallback lib env s.h msg type).1 = 0 then
      (payloadOf lib msg type).map fun doc => announcedBy lib env doc type.kind
    else s.accepted
  | _ => s.accepted

def next (s : OtaCover) (op : OtaOp) : OtaCover := ⟨s.use.next lib op, s.announce lib op⟩

end OtaCover

/-- A context has absorbed just the bytes, or a check has used it after the download. -/
def Digested (state : OtaState) (spent : Bool) (ctx : Option Digest) (bytes : List UInt8) : Prop :=
  state = .fetched ∧ spent = true ∨ Absorbed ctx bytes

/-- While a file is fetched, and once it is, the contexts cover what is fetched of what was
announced. -/
def OtaCover.Covers (s : OtaCover) : Prop :=
  s.h.state = .fetching ∨ s.h.state = .fetched →
    ∃ a ∈ s.accepted, s.h.sizeFetched ≤ s.h.sizeFile ∧
      Digested s.h.state s.use.md5Spent s.h.md5 (a.part lib s.h.sizeFetched) ∧
      Digested s.h.state s.use.sha256Spent s.h.sha256 (a.part lib s.h.sizeFetched)

namespace OtaCover

section
variable (s : OtaCover)

/-- A firmware is accepted before anything is fetched, or for the file that the contexts
have absorbed so far. -/
def Resumes (doc : List UInt8) : Prop :=
  s.h.sizeFetched = 0 ∨
    (∃ a ∈ s.accepted, a.url = cstrOf (valueOf lib doc "url")) ∧
      s.h.sizeFetched ≤ lib.atoi (cstrOf (valueOf lib doc "size")) ∧
      s.h.sizeFetched.toNat < 2 ^ 31 ∧ s.use.md5Spent = false ∧ s.use.sha256Spent = false

/-- A firmware message that is not accepted stores nothing that is still in use. -/
def FirmwareCareful (env : CallbackEnv) (doc : List UInt8) : Prop :=
  if readsFirmware lib env doc && opens lib env doc s.h.sizeFetched then
    s.Resumes lib doc ∧ s.h.Terminated (valueOf lib doc "md5")
  else
    s.h.state = .pushed ∨ s.h.state = .fetched →
      readsFirmware lib env doc = false ∧
      (s.h.state = .pushed → s.h.type = .fota → readsUrl lib env doc = false) ∧
      ∀ a ∈ s.accepted, a.kind = .fota → readsMd5 lib env doc = false

/-- A configuration message that is not accepted stores nothing that is still in use. -/
def ConfigCareful (env : CallbackEnv) (doc : List UInt8) : Prop :=
  (readsConfig lib env doc && opens lib env doc 0) = false →
    s.h.state = .pushed ∨ s.h.state = .fetched →
      readsConfig lib env doc = false ∧
      (s.h.state = .pushed → s.h.type = .cota → readsCotaUrl lib env doc = false)

/-- A fetch brings no more than was announced, and opens its channel again where an `int`
holds the offset. The first bytes find memory for their contexts, and until they come the
contexts are new. -/
def FetchCareful (env : FetchEnv) (bufLen : Nat) : Prop :=
  s.h.Active → (∀ a ∈ s.accepted, s.h.Fitting lib a env bufLen) ∧
    (s.h.chFetch = none → s.h.sizeFetched.toNat < 2 ^ 31) ∧
    (s.h.sizeFetched = 0 →
      (s.h.Delivers env → env.md5First = true ∧ env.sha256First = true) ∧
      (¬ s.h.Delivers env → (∀ d ∈ s.h.md5, d = freshDigest) ∧ ∀ d ∈ s.h.sha256, d = freshDigest))

/-- The size is set back before anything is fetched only; a firmware is checked once, when
one was announced. -/
def IoctlCareful : OtaCmd → Prop
  | .resetFetchedSize => s.h.sizeFetched = 0
  | .checkFirmware => (∀ a ∈ s.accepted, a.kind = .fota) ∧ s.use.md5Spent = false
  | _ => True

def Careful : OtaOp → Prop
  | .message env msg type => s.h.state ≠ .fetching → ∀ doc, payloadOf lib msg type = some doc →
      if type.kind = .fota then s.FirmwareCareful lib env doc else s.ConfigCareful lib env doc
  | .fetchYield env buf bufLen => buf = true → bufLen ≠ 0 → s.FetchCareful lib env bufLen
  | .isFetching | .isFetchFinish => True
  | .ioctl type buf _ => Reached s.h type buf → s.IoctlCareful type

end

end OtaCover

end

/-! ## What every call keeps -/

section
variable (lib : OtaLib)

/-- Bytes have been asked for, or some are there. -/
def OtaHandle.Started (h : OtaHandle) : Prop := h.state = .pushed → h.sizeFetched ≠ 0

structure Live (h : OtaHandle) (md5Spent sha256Spent : Bool) (a : Announced) : Prop where
  state : h.Active ∨ h.state = .fetched
  size : h.sizeFile = a.size
  le : h.sizeFetched.toNat ≤ a.size.toNat
  file : h.sizeFetched.toNat ≤ (lib.file a.url).length
  md5sum : a.kind = .fota → cstrOf h.md5sum = a.md5
  url : h.Active → ∀ url ∈ h.url, url = a.url
  channel : h.Active → ∀ ch ∈ h.chFetch, ch = ⟨a.url, h.sizeFetched.toNat⟩
  done : h.state = .fetched → h.sizeFetched = a.size
  md5 : h.Started → Digested h.state md5Spent h.md5 (a.part lib h.sizeFetched)
  sha256 : h.Started → Digested h.state sha256Spent h.sha256 (a.part lib h.sizeFetched)

/-- Nothing is announced and nothing fetched, or what was announced is. -/
inductive Going (h : OtaHandle) (md5Spent sha256Spent : Bool) (accepted : Option Announced) : Prop
  | idle (hs : h.state = .uninited ∨ h.state = .inited) (hz : h.sizeFetched = 0)
  | live {a : Announced} (ha : accepted = some a) (hl : Live lib h md5Spent sha256Spent a)

def OtaCover.Inv (s : OtaCover) : Prop :=
  Going lib s.h s.use.md5Spent s.use.sha256Spent s.accepted

end

section
variable {lib : OtaLib} {env : CallbackEnv} {doc : List UInt8} {h after : OtaHandle}
variable {m n : Bool} {acc : Option Announced} {a : Announced}

theorem Live.pushed_or_fetched (hl : Live lib h m n a) (hs : h.state ≠ .fetching) :
    h.state = .pushed ∨ h.state = .fetched := by
  rcases hl.state with (hp | hf) | hd
  · exact .inl hp
  · exact absurd hf hs
  · exact .inr hd

theorem Live.unread (hl : Live lib h m n a) (hsame : after = { after with
      state := h.state, sizeFetched := h.sizeFetched, sizeFile := h.sizeFile
      chFetch := h.chFetch, md5 := h.md5, sha256 := h.sha256 })
    (hsum : a.kind = .fota → after.md5sum = h.md5sum)
    (hurl : h.Active → ∀ url ∈ after.url, url ∈ h.url) : Live lib after m n a := by
  have hmd5sum (hk : a.kind = .fota) : cstrOf after.md5sum = a.md5 :=
    (congrArg cstrOf (hsum hk)).trans (hl.md5sum hk)
  rw [hsame]
  exact ⟨hl.state, hl.size, hl.le, hl.file, hmd5sum,
    fun hact url hmem => hl.url hact url (hurl hact url hmem), hl.channel, hl.done, hl.md5,
    hl.sha256⟩

theorem Going.firmwareUnread (hg : Going lib h m n acc) (hs : h.state ≠ .fetching)
    (hr : FirmwareRead lib env doc h (.error after)) (hc : h.state = .pushed ∨ h.state = .fetched →
      (h.state = .pushed → h.type = .fota → readsUrl lib env doc = false) ∧
      ∀ a ∈ acc, a.kind = .fota → readsMd5 lib env doc = false) : Going lib after m n acc := by
  have hsame : after = { after with
      state := h.state, sizeFetched := h.sizeFetched, sizeFile := h.sizeFile
      chFetch := h.chFetch, md5 := h.md5, sha256 := h.sha256, type := h.type
      cotaUrl := h.cotaUrl } := by
    cases hr <;> rfl
  cases hg with
  | idle hidle hz => exact hsame ▸ .idle hidle hz
  | @live a ha hl =>
    obtain ⟨hurl, hsum⟩ := hc (hl.pushed_or_fetched hs)
    refine .live ha (hl.unread (by cases hr <;> rfl) (fun hk => hr.md5sum_unread (hsum a ha hk))
      fun hact url hmem => ?_)
    have hpurl := fun ht => hr.purl_unread (hurl (hact.resolve_right hs) ht)
    rw [hsame] at hmem
    unfold OtaHandle.url at hmem ⊢
    cases ht : h.type with
    | none | cota =>
      rw [ht] at hmem
      exact hmem
    | fota =>
      rw [ht] at hmem
      rcases hpurl ht with hkept | hlost
      · exact hkept ▸ hmem
      · cases hlost.symm.trans hmem

theorem Going.configUnread (hg : Going lib h m n acc) (hs : h.state ≠ .fetching)
    (hr : ConfigRead lib env doc h (.error after)) (hc : h.state = .pushed ∨ h.state = .fetched →
      (h.state = .pushed → h.type = .cota → readsCotaUrl lib env doc = false)) :
    Going lib after m n acc := by
  have hsame : after = { after with
      state := h.state, sizeFetched := h.sizeFetched, sizeFile := h.sizeFile
      chFetch := h.chFetch, md5 := h.md5, sha256 := h.sha256, type := h.type
      purl := h.purl } := by
    cases hr <;> rfl
  cases hg with
  | idle hidle hz => exact hsame ▸ .idle hidle hz
  | @live a ha hl =>
    have hurl := hc (hl.pushed_or_fetched hs)
    refine .live ha (hl.unread (by cases hr <;> rfl) (fun _ => by cases hr <;> rfl)
      fun hact url hmem => ?_)
    have hcota := fun ht => hr.cotaUrl_unread (hurl (hact.resolve_right hs) ht)
    rw [hsame] at hmem
    unfold OtaHandle.url at hmem ⊢
    cases ht : h.type with
    | none | fota =>
      rw [ht] at hmem
      exact hmem
    | cota =>
      rw [ht] at hmem
      rcases hcota ht with hkept | hlost
      · exact hkept ▸ hmem
      · cases hlost.symm.trans hmem

theorem Going.firmware {s : OtaCover} (hg : s.Inv lib)
    (hr : FirmwareRead lib env doc s.h (.ok after)) (hres : s.Resumes lib doc)
    (hterm : s.h.Terminated (valueOf lib doc "md5")) {url : CStr} {ch : FetchChannel}
    (hu : after.purl = some url) (hc : ofcInit env.ofcInit url after.sizeFetched = some ch) :
    Live lib { after with chFetch := some ch, type := .fota, state := .pushed }
      s.use.md5Spent s.use.sha256Spent (announcedBy lib env doc .fota) := by
  obtain ⟨-, hafter⟩ := hr.stored
  subst hafter
  cases hu
  by_cases hz : s.h.sizeFetched = 0
  · have hnat : s.h.sizeFetched.toNat = 0 := toNat_zero hz
    have hch := ofcInit_some hc (by dsimp only; omega)
    refine ⟨.inl (.inl rfl), rfl, ?_, ?_, fun _ => cstrOf_overwrite hterm, fun _ url hurl => ?_,
      fun _ c hmem => ?_, nofun, fun hst => absurd hz (hst rfl), fun hst => absurd hz (hst rfl)⟩
    · dsimp only
      omega
    · dsimp only
      omega
    · cases hurl
      rfl
    · cases hmem
      exact hch
  · obtain ⟨⟨a, ha, hurl⟩, hle, hlt, hm, hn⟩ := hres.resolve_left hz
    cases hg with
    | idle hidle hzero => exact absurd hzero hz
    | live ha' hl =>
      cases ha.symm.trans ha'
      have hstarted : s.h.Started := fun _ => hz
      have hfile : s.h.sizeFetched.toNat ≤ (lib.file (cstrOf (valueOf lib doc "url"))).length :=
        hurl ▸ hl.file
      have hch := ofcInit_some hc hlt
      have hpart (size : UInt32) :
          (announcedBy lib env doc .fota).part lib size = a.part lib size := by
        unfold Announced.part announcedBy
        rw [hurl]
      have hctx {state : OtaState} {spent : Bool} {ctx : Option Digest} (hspent : spent = false)
          (hd : Digested s.h.state spent ctx (a.part lib s.h.sizeFetched)) :
          Digested state spent ctx ((announcedBy lib env doc .fota).part lib s.h.sizeFetched) := by
        rw [hpart]
        rcases hd with ⟨_, hyes⟩ | habs
        · exact absurd (hspent.symm.trans hyes) nofun
        · exact .inr habs
      refine ⟨.inl (.inl rfl), rfl, UInt32.le_iff_toNat_le.mp hle, hfile,
        fun _ => cstrOf_overwrite hterm, fun _ url hmem => ?_, fun _ c hmem => ?_, nofun,
        fun _ => hctx hm (hl.md5 hstarted), fun _ => hctx hn (hl.sha256 hstarted)⟩
      · cases hmem
        rfl
      · cases hmem
        exact hch

theorem live_config (m n : Bool) (hr : ConfigRead lib env doc h (.ok after)) {url : CStr}
    {ch : FetchChannel} (hu : after.cotaUrl = some url) (hc : ofcInit env.ofcInit url 0 = some ch) :
    Live lib { configReset env after with chFetch := some ch, type := .cota, state := .pushed } m n
      (announcedBy lib env doc .cota) := by
  have hafter := hr.stored
  subst hafter
  cases hu
  have hch := ofcInit_some hc (by decide)
  refine ⟨.inl (.inl rfl), rfl, Nat.zero_le _, Nat.zero_le _, nofun, fun _ url hurl => ?_,
    fun _ c hmem => ?_, nofun, fun hst => absurd rfl (hst rfl), fun hst => absurd rfl (hst rfl)⟩
  · cases hurl
    rfl
  · cases hmem
    exact hch

namespace OtaCover
variable {s : OtaCover}

theorem next_message_spent (s : OtaUse) (env : CallbackEnv) (msg : List UInt8) (type : OtaTopic) :
    (s.track lib (.message env msg type)).md5Spent = (s.received lib env msg type).md5Spent ∧
    (s.track lib (.message env msg type)).sha256Spent =
      (s.received lib env msg type).sha256Spent := by
  unfold OtaUse.track
  dsimp only
  split <;> exact ⟨rfl, rfl⟩

theorem Inv.not_live (hi : s.Inv lib) (hs : s.h.state ≠ .fetching)
    (hno : ¬ (s.h.state = .pushed ∨ s.h.state = .fetched)) :
    (s.h.state = .uninited ∨ s.h.state = .inited) ∧ s.h.sizeFetched = 0 := by
  cases hi with
  | idle hidle hz => exact ⟨hidle, hz⟩
  | live ha hl => exact absurd (hl.pushed_or_fetched hs) hno

theorem Inv.message (hi : s.Inv lib) (env : CallbackEnv) (msg : List UInt8) (type : OtaTopic)
    (hc : s.Careful lib (.message env msg type)) :
    (s.next lib (.message env msg type)).Inv lib := by
  unfold Inv next OtaUse.next announce
  dsimp only [h, OtaHandle.next]
  rw [(next_message_spent s.use env msg type).1, (next_message_spent s.use env msg type).2]
  have hreceived := callback_received lib env s.h msg type
  generalize otaCallback lib env s.h msg type = r at hreceived ⊢
  cases hreceived with
  | ignored hig =>
    have heq : s.use.received lib env msg type = s.use := by
      unfold OtaUse.received
      rcases hig with hfetching | hnone
      · exact if_pos hfetching
      · rw [hnone, ite_self]
    rw [heq]
    exact hi
  | firmwareUnread hs hk hdoc hr =>
    have hcare := hc hs _ hdoc
    rw [if_pos hk] at hcare
    unfold FirmwareCareful at hcare
    rw [not_readsFirmware hr, Bool.false_and, if_neg nofun] at hcare
    rw [OtaUse.received_of hs hdoc, hk]
    exact Going.firmwareUnread hi hs hr fun hp => (hcare hp).2
  | firmwareClosed hs hk hdoc hr hno =>
    have hcare := hc hs _ hdoc
    rw [if_pos hk] at hcare
    unfold FirmwareCareful at hcare
    rw [opens_firmware hr, hno, Option.isSome_none, Bool.and_false, if_neg nofun,
      hr.stored.1] at hcare
    obtain ⟨hidle, hz⟩ := hi.not_live hs fun hp => absurd (hcare hp).1 nofun
    obtain ⟨-, rfl⟩ := hr.stored
    exact .idle hidle hz
  | @firmware doc _ _ _ hs hk hdoc hr hu hch =>
    have hcare := hc hs _ hdoc
    rw [if_pos hk] at hcare
    unfold FirmwareCareful at hcare
    have hopens : opens lib env doc s.h.sizeFetched = true := by
      rw [opens_firmware hr, hu]
      exact (congrArg Option.isSome hch).trans rfl
    rw [hr.stored.1, hopens, Bool.and_self, if_pos rfl] at hcare
    rw [OtaUse.received_of hs hdoc, hk, if_pos rfl, hdoc]
    exact .live rfl (Going.firmware hi hr hcare.1 hcare.2 hu hch)
  | @configUnread doc _ hs hk hdoc hr =>
    have hcare := hc hs _ hdoc
    have hno : readsConfig lib env doc = false := by
      rw [Bool.eq_false_iff]
      intro hyes
      obtain ⟨_, hok⟩ := hr.readsConfig_iff.mp hyes
      cases hok
    rw [if_neg (by rw [hk]; nofun)] at hcare
    unfold ConfigCareful at hcare
    rw [hno, Bool.false_and] at hcare
    rw [OtaUse.received_of hs hdoc, hk, OtaUse.heard_config_spent hr]
    exact Going.configUnread hi hs hr fun hp => (hcare rfl hp).2
  | configClosed hs hk hdoc hr hno =>
    have hcare := hc hs _ hdoc
    rw [if_neg (by rw [hk]; nofun)] at hcare
    unfold ConfigCareful at hcare
    rw [opens_config hr, hno, hr.readsConfig_iff.mpr ⟨_, rfl⟩] at hcare
    obtain ⟨hidle, hz⟩ := hi.not_live hs fun hp => absurd (hcare rfl hp).1 nofun
    obtain rfl := hr.stored
    exact .idle hidle rfl
  | config hs hk hdoc hr hu hch =>
    rw [hk, if_pos rfl, hdoc]
    exact .live rfl (live_config _ _ hr hu hch)

end OtaCover

/-! ### A fetch -/

theorem Live.absorbed (hl : Live lib h m n a) (hs : h.Active) (hst : h.Started) :
    Absorbed h.md5 (a.part lib h.sizeFetched) ∧ Absorbed h.sha256 (a.part lib h.sizeFetched) := by
  have hstate : h.state ≠ .fetched := OtaUse.active_ne_fetched hs
  exact ⟨(hl.md5 hst).resolve_left fun hd => hstate hd.1,
    (hl.sha256 hst).resolve_left fun hd => hstate hd.1⟩

theorem Live.stalled_absorbed (hl : Live lib h m n a) (hs : h.Active) (hfresh : h.sizeFetched = 0 →
      (∀ d ∈ h.md5, d = freshDigest) ∧ ∀ d ∈ h.sha256, d = freshDigest) :
    Absorbed h.md5 (a.part lib h.sizeFetched) ∧ Absorbed h.sha256 (a.part lib h.sizeFetched) := by
  have hnew {ctx : Option Digest} (hf : ∀ d ∈ ctx, d = freshDigest) : Absorbed ctx [] := by
    cases ctx with
    | none => exact .inr ⟨rfl, rfl⟩
    | some d => exact .inl (congrArg some (hf d rfl))
  by_cases hz : h.sizeFetched = 0
  · rw [hz, part_zero]
    exact ⟨hnew (hfresh hz).1, hnew (hfresh hz).2⟩
  · exact hl.absorbed hs fun _ => hz

theorem Live.stalled (hl : Live lib h m n a) (hs : h.Active) {md5 sha256 : Option Digest}
    {chFetch : Option FetchChannel} (hm : Absorbed md5 (a.part lib h.sizeFetched))
    (hn : Absorbed sha256 (a.part lib h.sizeFetched)) (hch : ∀ ch ∈ chFetch, ch ∈ h.chFetch)
    (m' n' : Bool) :
    Live lib { h with state := .fetching, md5 := md5, sha256 := sha256, chFetch := chFetch } m' n'
      a :=
  ⟨.inl (.inr rfl), hl.size, hl.le, hl.file, hl.md5sum, fun _ => hl.url hs,
    fun _ ch hmem => hl.channel hs ch (hch ch hmem), nofun, fun _ => .inr hm, fun _ => .inr hn⟩

theorem Live.fetches (hl : Live lib h m n a) (hs : h.Active) {bytes : List UInt8}
    (hf : Fetches lib a h after bytes) (m' n' : Bool) : Live lib after m' n' a := by
  have hsize : after.sizeFile = h.sizeFile := (congrArg OtaHandle.sizeFile hf.frame :)
  have hsum : after.md5sum = h.md5sum := (congrArg OtaHandle.md5sum hf.frame :)
  have hfetching (hact : after.Active) : after.type = h.type := by
    rcases hf.state with ⟨hd, -⟩ | ⟨-, htype⟩
    · exact absurd hd (OtaUse.active_ne_fetched hact)
    · exact htype
  refine ⟨?_, hsize.trans hl.size, hl.size ▸ hf.le, hf.file, fun hk => hsum ▸ hl.md5sum hk,
    fun hact url hurl => ?_, fun _ ch hch => ?_, fun hd => ?_, fun _ => .inr (.inl hf.md5),
    fun _ => .inr (.inl hf.sha256)⟩
  · rcases hf.state with ⟨hd, -⟩ | ⟨hd, -⟩
    · exact .inr hd
    · exact .inl (.inr hd)
  · have hsame : after.url = h.url := by
      unfold OtaHandle.url
      rw [hfetching hact]
      rw [hf.frame]
    exact hl.url hs url (hsame ▸ hurl)
  · exact Option.some.inj (hch.symm.trans hf.channel)
  · rcases hf.state with ⟨_, hdone⟩ | ⟨hd', -⟩
    · exact hdone.trans hl.size
    · exact absurd (hd.symm.trans hd') nofun

namespace OtaCover
variable {s : OtaCover}

theorem live_fetched {env : FetchEnv} {bufLen : Nat} {d e : Digest} {ch after : FetchChannel}
    {bytes : List UInt8} (ha : s.accepted = some a) (hl : Live lib s.h m n a) (hs : s.h.Active)
    (hc : s.FetchCareful lib env bufLen) (hm : Made env.md5Init s.h.md5 d)
    (hn : Made env.sha256Init s.h.sha256 e) (hopen : Opened env.ofcInit s.h ch)
    (hf : ofcFetch lib ch bufLen env.http = .ok (bytes, after)) (m' n' : Bool) :
    Live lib
      (fetchedBytes env
        { s.h with
          state := .fetching, md5 := some d, sha256 := some e, chFetch := some after }
        bytes).h m' n' a := by
  obtain ⟨hfit, hlt, hfirst⟩ := hc hs
  have hdelivers := delivers_of_fetched hm hn hopen hf
  have hch : ch = ⟨a.url, s.h.sizeFetched.toNat⟩ := by
    rcases hopen with hold | ⟨hnone, url, hu, hinit⟩
    · exact hl.channel hs ch hold
    · rw [hl.url hs url hu] at hinit
      exact ofcInit_some hinit (hlt hnone)
  subst hch
  obtain ⟨after', heq, hfetches⟩ := yielded_fetches hl.file (hfit a ha)
    (fun hz => hl.absorbed hs fun _ => hz) (fun hz => (hfirst hz).1 hdelivers) hm hn hf
  rw [heq]
  exact hl.fetches hs hfetches m' n'

theorem Inv.refused (hi : s.Inv lib) (ret : Int) :
    Going lib s.h (s.use.yielded ret).md5Spent (s.use.yielded ret).sha256Spent s.accepted := by
  cases hi with
  | idle hidle hz => exact .idle hidle hz
  | live ha hl =>
    have hkeep {spent : Bool} {ctx : Option Digest} {bytes : List UInt8}
        (hd : Digested s.h.state spent ctx bytes) :
        Digested s.h.state (spent && ! s.use.makes ret ctx) ctx bytes := by
      refine hd.imp_left fun ⟨hstate, hspent⟩ => ⟨hstate, ?_⟩
      have hno : ¬ s.use.h.Active := fun hact => OtaUse.active_ne_fetched hact hstate
      unfold OtaUse.makes
      rw [hspent, decide_eq_false hno]
      rfl
    exact .live ha ⟨hl.state, hl.size, hl.le, hl.file, hl.md5sum, hl.url, hl.channel, hl.done,
      fun hst => hkeep (hl.md5 hst), fun hst => hkeep (hl.sha256 hst)⟩

theorem Inv.live_of_active (hi : s.Inv lib) (hs : s.h.Active) :
    ∃ a, s.accepted = some a ∧ Live lib s.h s.use.md5Spent s.use.sha256Spent a := by
  cases hi with
  | idle hidle hz =>
    rcases hs with hp | hp <;> rcases hidle with hi | hi <;> exact absurd (hp.symm.trans hi) nofun
  | live ha hl => exact ⟨_, ha, hl⟩

theorem Inv.fetchYield (hi : s.Inv lib) (env : FetchEnv) (buf : Bool) (bufLen : Nat)
    (hc : s.Careful lib (.fetchYield env buf bufLen)) :
    (s.next lib (.fetchYield env buf bufLen)).Inv lib := by
  unfold Inv next OtaUse.next announce OtaUse.track
  dsimp only [h, OtaHandle.next]
  by_cases hbuf : buf = false ∨ bufLen = 0
  · have hrefused : otaFetchYield lib env s.use.h buf bufLen =
        .ok ⟨otaeInvalidParam, [], s.use.h⟩ := if_pos hbuf
    rw [hrefused]
    exact hi.refused _
  rw [not_or, Bool.not_eq_false] at hbuf
  have hcare := hc hbuf.1 hbuf.2
  have hy := fetchYield_yielded lib env s.use.h buf bufLen
  generalize otaFetchYield lib env s.use.h buf bufLen = r at hy ⊢
  have hlive := fun hs : s.h.Active => hi.live_of_active hs
  have hstalled {a : Announced} (hs : s.h.Active)
      (hl : Live lib s.h s.use.md5Spent s.use.sha256Spent a) (hno : ¬ s.h.Delivers env) :=
    hl.stalled_absorbed hs fun hz => ((hcare hs).2.2 hz).2 hno
  cases hy with
  | refused => exact hi.refused _
  | noMd5 hs hm hinit =>
    obtain ⟨a, ha, hl⟩ := hlive hs
    obtain ⟨habs, habs'⟩ := hstalled hs hl fun hd => absurd (hinit.symm.trans (hd.1 hm)) nofun
    exact .live ha (hl.stalled hs habs habs' (fun _ h => h) _ _)
  | noSha256 hs hm hn hinit =>
    obtain ⟨a, ha, hl⟩ := hlive hs
    obtain ⟨habs, habs'⟩ := hstalled hs hl fun hd => absurd (hinit.symm.trans (hd.2.1 hn)) nofun
    exact .live ha (hl.stalled hs (habs.made hm) habs' (fun _ h => h) _ _)
  | nullUrl => exact hi
  | noChannel hs hm hn hch hno =>
    obtain ⟨a, ha, hl⟩ := hlive hs
    obtain ⟨habs, habs'⟩ := hstalled hs hl fun hd => by
      obtain ⟨url, hu, hinit⟩ := hd.2.2.1 hch
      exact hinit (hno url hu)
    exact .live ha (hl.stalled hs (habs.made hm) (habs'.made hn) (fun _ h => h) _ _)
  | failed hs hm hn hhttp =>
    obtain ⟨a, ha, hl⟩ := hlive hs
    obtain ⟨habs, habs'⟩ := hstalled hs hl fun hd => hd.2.2.2 _ hhttp
    exact .live ha (hl.stalled hs (habs.made hm) (habs'.made hn) (fun _ h => by cases h) _ _)
  | fetched hs hm hn hopen hf =>
    obtain ⟨a, ha, hl⟩ := hlive hs
    exact .live ha (live_fetched ha hl hs hcare hm hn hopen hf _ _)

/-! ### A call -/

theorem Inv.configChecked (hi : s.Inv lib) (hf : s.h.state = .fetched) {r : Ioctled}
    (hr : ConfigChecked s.h (.ok r)) :
    Going lib r.h (s.use.checked .checkConfig r.out).md5Spent
      (s.use.checked .checkConfig r.out).sha256Spent s.accepted := by
  cases hi with
  | idle hidle hz => rcases hidle with hidle | hidle <;> exact absurd (hf.symm.trans hidle) nofun
  | live ha hl =>
    cases hr with
    | reported hmd5 hsha256 hds hout =>
      have hkeep {spent asks : Bool} {old new : Option Digest} {bytes : List UInt8}
          (hsame : asks = false → new = old) (hd : Digested s.h.state spent old bytes) :
          Digested s.h.state (spent || asks) new bytes := by
        cases asks with
        | true => exact .inl ⟨hf, Bool.or_true _⟩
        | false =>
          rw [hsame rfl, Bool.or_false]
          exact hd
      exact .live ha ⟨hl.state, hl.size, hl.le, hl.file, hl.md5sum, hl.url, hl.channel, hl.done,
        fun hst => hkeep hmd5 (hl.md5 hst), fun hst => hkeep hsha256 (hl.sha256 hst)⟩

theorem Inv.ioctl (hi : s.Inv lib) (type : OtaCmd) (buf : IoctlBuf) (malloc : Bool)
    (hc : s.Careful lib (.ioctl type buf malloc)) :
    (s.next lib (.ioctl type buf malloc)).Inv lib := by
  unfold Inv next OtaUse.next announce OtaUse.track
  dsimp only [h, OtaHandle.next]
  have hioctl := ioctl_ioctling lib s.h type buf malloc
  generalize otaIoctl lib s.use.h type buf malloc = r at hioctl ⊢
  cases hioctl with
  | kept hret =>
    unfold Ioctled.of
    dsimp only
    rw [OtaUse.checked_kept hret]
    exact hi
  | nullVersion => exact hi
  | checkFirmware hr ht =>
    subst ht
    have hf : s.h.state = .fetched := (hr.check (.inl rfl)).2
    unfold checkFirmware
    cases s.h.md5 with
    | none => exact hi
    | some d =>
      cases hi with
      | idle hidle hz =>
        rcases hidle with hidle | hidle <;> exact absurd (hf.symm.trans hidle) nofun
      | live ha hl =>
        exact .live ha ⟨hl.state, hl.size, hl.le, hl.file, hl.md5sum, hl.url, hl.channel, hl.done,
          fun _ => .inl ⟨hf, rfl⟩, hl.sha256⟩
  | checkConfig hr ht =>
    subst ht
    have hchecked := checkConfig_checked lib s.h
    generalize checkConfig lib s.h = r at hchecked ⊢
    cases r with
    | error fault => exact hi
    | ok r =>
      have hret : r.ret = 0 := by cases hchecked; rfl
      dsimp only
      rw [if_pos hret]
      exact hi.configChecked (hr.check (.inr rfl)).2 hchecked
  | resetFetchedSize hr ht =>
    subst ht
    have hz : s.h.sizeFetched = 0 := hc hr
    have hsame : { s.h with sizeFetched := 0 } = s.h := by rw [← hz]
    dsimp only [Ioctled.of]
    rw [hsame]
    exact hi
  | resetState hr ht =>
    subst ht
    exact .idle (.inr rfl) rfl

theorem Inv.next (hi : s.Inv lib) (op : OtaOp) (hc : s.Careful lib op) :
    (s.next lib op).Inv lib := by
  cases op with
  | message env msg type => exact hi.message env msg type hc
  | fetchYield env buf bufLen => exact hi.fetchYield env buf bufLen hc
  | isFetching | isFetchFinish => exact hi
  | ioctl type buf malloc => exact hi.ioctl type buf malloc hc

theorem Inv.passed (hi : s.Inv lib) {buf : IoctlBuf} {malloc : Bool}
    (hc : s.Careful lib (.ioctl .checkFirmware buf malloc)) {r : Ioctled}
    (hr : otaIoctl lib s.h .checkFirmware buf malloc = .ok r) (hret : r.ret = 0)
    (hout : r.out = some (.number 1)) :
    ∃ a ∈ s.accepted, a.kind = .fota ∧ a.md5.val = hexStr (lib.md5 (a.part lib a.size)) := by
  have hioctl := ioctl_ioctling lib s.h .checkFirmware buf malloc
  rw [hr] at hioctl
  generalize hres : (Except.ok r : Except OtaFault Ioctled) = res at hioctl
  cases hioctl with
  | kept hneg =>
    cases hres
    exact absurd hret (Int.ne_of_lt (hneg (.inl rfl)))
  | nullVersion _ ht | checkConfig _ ht | resetFetchedSize _ ht | resetState _ ht => cases ht
  | checkFirmware hreached _ =>
    obtain ⟨hkind, hspent⟩ := hc hreached
    have hf : s.h.state = .fetched := (hreached.check (.inl rfl)).2
    cases hi with
    | idle hidle hz => rcases hidle with hidle | hidle <;> exact absurd (hf.symm.trans hidle) nofun
    | @live a ha hl =>
      have hdigested := hl.md5 fun hp => absurd (hf.symm.trans hp) nofun
      rw [hl.done hf] at hdigested
      unfold checkFirmware at hres
      rcases hdigested with ⟨_, hyes⟩ | hsome | ⟨hnone, _⟩
      · exact absurd (hspent.symm.trans hyes) nofun
      · rw [hsome] at hres
        cases hres
        refine ⟨a, ha, hkind a ha, ?_⟩
        have hverdict := Option.some.inj hout
        rw [← hl.md5sum (hkind a ha)]
        unfold verdict at hverdict
        split at hverdict
        · next heq => exact heq
        · cases hverdict
      · rw [hnone] at hres
        cases hres

end OtaCover

end

end AliyunIot.Ota

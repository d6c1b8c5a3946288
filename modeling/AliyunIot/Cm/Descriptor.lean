import AliyunIot.Infra.State
import AliyunIot.Lib.Ledger
import AliyunIot.Lib.Run

/-!
# Connection descriptors

`iotx_cm.c`: the table of descriptors, the count of connections and the mutex that hangs on
it. `descriptorsKept_iff`: the descriptors stay apart in just the runs in which a close that
leaves another descriptor leaves the count above zero too, and closes a connection that is
not also the other's.
-/

namespace AliyunIot.Cm

open Lib

def cmMaxFdNum : Nat := 3

/-- `protocol_type`. -/
inductive CmProtocol where
  | mqtt | coap | other
  deriving DecidableEq

/-- `iotx_cm_connection_t`, numbered in the order in which they were allocated. -/
structure CmConnection where
  id : Nat
  protocol : CmProtocol

structure CmBuild where
  mqtt : Bool
  coap : Bool
  gateway : Bool

def CmBuild.supports (b : CmBuild) : CmProtocol → Bool
  | .mqtt => b.mqtt
  | .coap => b.coap
  | .other => false

/-- The static variables of `iotx_cm.c`, and of each protocol its connection:
`_mqtt_conncection`, `_coap_conncection`. `opened` has the descriptors that were opened and
not closed with success since. -/
structure Descriptors where
  fdLock : Bool
  cmFd : Nat → Option CmConnection
  initedConnNum : Nat
  connection : CmProtocol → Option Nat
  nextId : Nat
  heap : Ledger
  opened : List Int

inductive CmOp where
  /-- what the protocol's open gives when it has no connection yet, `HAL_MutexCreate`, and
  whether `close_func` would fail -/
  | open (protocol : CmProtocol) (made lock refused : Bool)
  /-- what `connect_func` and `HAL_ThreadCreate` return -/
  | connect (fd : Int) (ret thread : Int)
  /-- `iotx_cm_pub`, `iotx_cm_sub` or `iotx_cm_unsub`, and what the connection returns -/
  | call (fd : Int) (ret : Int)
  | close (fd : Int) (refused : Bool)

namespace Descriptors

def read (s : Descriptors) (c : CmConnection) : Descriptors :=
  { s with heap := s.heap.touch [c.id] }

/-- `iotx_cm_open_mqtt`, `iotx_cm_open_coap`: the connection that there is, or a new one. -/
def openConnection (b : CmBuild) (s : Descriptors) (protocol : CmProtocol) (made : Bool) :
    Option CmConnection × Descriptors :=
  if b.supports protocol = false then (none, s)
  else
    match s.connection protocol with
    | some id => (some ⟨id, protocol⟩, s)
    | none =>
      if made = false then (none, s)
      else
        (some ⟨s.nextId, protocol⟩,
          { s with
            connection := Function.update s.connection protocol (some s.nextId)
            nextId := s.nextId + 1 })

/-- `_mqtt_close`, `_coap_close`, read from the connection. -/
def closeFunc (s : Descriptors) (c : CmConnection) (refused : Bool) : Int × Descriptors :=
  let s := s.read c
  match s.connection c.protocol with
  | none => (State.failReturn, s)
  | some id =>
    if refused then (State.failReturn, s)
    else
      (State.success,
        { s with
          connection := Function.update s.connection c.protocol none
          heap := s.heap.free [id] })

def fdIsValid (s : Descriptors) (fd : Int) : Bool :=
  s.fdLock && decide (0 ≤ fd ∧ fd < cmMaxFdNum) && (s.cmFd fd.toNat).isSome

def getFd (s : Descriptors) (c : CmConnection) (lock : Bool) : Int × Descriptors :=
  if s.fdLock = false ∧ lock = false then (State.sysDependMutexCreate, s)
  else
    let s := { s with fdLock := true }
    match (List.range cmMaxFdNum).find? fun i => (s.cmFd i).isNone with
    | some i => (i, { s with cmFd := Function.update s.cmFd i (some c) })
    | none => (State.devModelCmFdNotFound, s)

def recycleFd (s : Descriptors) (fd : Nat) : Descriptors :=
  { s with cmFd := Function.update s.cmFd fd none }

def iotxCmOpen (b : CmBuild) (s : Descriptors) (protocol : CmProtocol)
    (made lock refused : Bool) : Int × Descriptors :=
  match s.openConnection b protocol made with
  | (none, s) => (State.devModelCmOpenFailed, s)
  | (some c, s) =>
    let (fd, s) := s.getFd c lock
    if fd < 0 then (fd, (s.closeFunc c refused).2) else (fd, s)

def iotxCmConnect (b : CmBuild) (s : Descriptors) (fd ret thread : Int) : Int × Descriptors :=
  if s.fdIsValid fd = false then (State.devModelCmFdError, s)
  else
    match s.cmFd fd.toNat with
    | none => (State.devModelCmFdError, s)
    | some c =>
      let s := s.read c
      if ret ≠ 0 then (ret, s)
      else if s.initedConnNum = 0 ∧ b.gateway = true then
        -- the yield thread is created with the first connection
        (thread, if thread < 0 then s else { s with initedConnNum := 1 })
      else (ret, { s with initedConnNum := s.initedConnNum + 1 })

/-- `iotx_cm_pub`, `iotx_cm_sub`, `iotx_cm_unsub`. -/
def iotxCmCall (s : Descriptors) (fd ret : Int) : Int × Descriptors :=
  if s.fdIsValid fd = false then (State.devModelCmFdError, s)
  else
    match s.cmFd fd.toNat with
    | none => (State.devModelCmFdError, s)
    | some c => (ret, s.read c)

/-- `iotx_cm_close`; the yield thread of a gateway has left when it goes on. -/
def iotxCmClose (s : Descriptors) (fd : Int) (refused : Bool) : Int × Descriptors :=
  if s.fdIsValid fd = false then (State.devModelCmFdError, s)
  else
    match s.cmFd fd.toNat with
    | none => (State.devModelCmFdError, s)
    | some c =>
      let s := { s with initedConnNum := s.initedConnNum - 1 }
      let (res, s) := s.closeFunc c refused
      if res ≠ 0 then (State.failReturn, s)
      else
        let s := s.recycleFd fd.toNat
        (State.success, if s.initedConnNum = 0 then { s with fdLock := false } else s)

def next (b : CmBuild) (s : Descriptors) : CmOp → Descriptors
  | .open protocol made lock refused =>
    let (fd, s) := s.iotxCmOpen b protocol made lock refused
    if fd < 0 then s else { s with opened := s.opened ++ [fd] }
  | .connect fd ret thread => (s.iotxCmConnect b fd ret thread).2
  | .call fd ret => (s.iotxCmCall fd ret).2
  | .close fd refused =>
    let (res, s) := s.iotxCmClose fd refused
    if res ≠ 0 then s else { s with opened := s.opened.filter (· ≠ fd) }

/-- Before the first open. -/
def init : Descriptors where
  fdLock := false
  cmFd := fun _ => none
  initedConnNum := 0
  connection := fun _ => none
  nextId := 0
  heap := .empty
  opened := []

/-! ## What is asked -/

/-- The descriptors that are valid are those that are open, with a connection that has not
been freed; nothing freed was used. -/
structure Kept (s : Descriptors) : Prop where
  valid : ∀ fd, s.fdIsValid fd = true ↔ fd ∈ s.opened
  live : ∀ fd ∈ s.opened, ∀ c ∈ s.cmFd fd.toNat, c.id ∉ s.heap.freed
  clean : s.heap.Clean

/-- A step keeps the descriptors, and an open gives none that is still open. -/
def StepKept (b : CmBuild) (s : Descriptors) (op : CmOp) : Prop :=
  Kept (s.next b op) ∧
    ∀ protocol made lock refused, op = .open protocol made lock refused →
      (s.iotxCmOpen b protocol made lock refused).1 ∉ s.opened

def Holds (s : Descriptors) (protocol : CmProtocol) (fd : Int) : Prop :=
  fd ∈ s.opened ∧ ∃ c ∈ s.cmFd fd.toNat, c.protocol = protocol

/-- A close that succeeds leaves no other descriptor, or a count that is not zero and no
descriptor of the same connection. An open that finds no room does not close the connection
of a descriptor. -/
def Careful (s : Descriptors) : CmOp → Prop
  | .open protocol _ _ refused =>
    refused = true ∨ (∃ i < cmMaxFdNum, s.cmFd i = none) ∨ ∀ fd, ¬ s.Holds protocol fd
  | .connect .. | .call .. => True
  | .close fd refused =>
    fd ∈ s.opened → refused = true ∨ ∀ other ∈ s.opened, other ≠ fd →
      1 < s.initedConnNum ∧ s.cmFd other.toNat ≠ s.cmFd fd.toNat

/-! ## The table -/

section
variable {s : Descriptors} {b : CmBuild}

variable {fd : Int}

theorem fdIsValid_iff : s.fdIsValid fd = true ↔
    s.fdLock = true ∧ (0 ≤ fd ∧ fd < cmMaxFdNum) ∧ ∃ c, s.cmFd fd.toNat = some c := by
  simp [fdIsValid, Option.isSome_iff_exists, and_assoc]

structure Inv (b : CmBuild) (s : Descriptors) : Prop where
  valid : ∀ fd, s.fdIsValid fd = true ↔ fd ∈ s.opened
  filled : ∀ i c, s.cmFd i = some c →
    (i : Int) ∈ s.opened ∧ s.connection c.protocol = some c.id
  supported : ∀ p id, s.connection p = some id → b.supports p = true
  lt : ∀ p id, s.connection p = some id → id < s.nextId
  live : ∀ p id, s.connection p = some id → id ∉ s.heap.freed
  freed_lt : ∀ id ∈ s.heap.freed, id < s.nextId
  apart : ∀ p q id, s.connection p = some id → s.connection q = some id → p = q
  clean : s.heap.Clean

theorem init_inv (b : CmBuild) : Inv b init where
  valid fd := by simp [fdIsValid, init]
  filled _ _ h := nomatch h
  supported _ _ h := nomatch h
  lt _ _ h := nomatch h
  live _ _ h := nomatch h
  freed_lt _ h := nomatch h
  apart _ _ _ h := nomatch h
  clean := ⟨rfl, List.nodup_nil⟩

theorem Inv.kept (h : Inv b s) : Kept s where
  valid := h.valid
  live _ _ c hc := h.live _ _ (h.filled _ c hc).2
  clean := h.clean

variable {c : CmConnection}

theorem Inv.read_eq (h : Inv b s) (hc : s.connection c.protocol = some c.id) : s.read c = s := by
  unfold read
  rw [Ledger.touch_of_live fun id hid => ?_]
  rw [List.mem_singleton.mp hid]
  exact h.live _ _ hc

def release (s : Descriptors) (c : CmConnection) : Descriptors :=
  { s with
    connection := Function.update s.connection c.protocol none
    heap := ⟨s.heap.freed ++ [c.id], s.heap.faults⟩ }

theorem Inv.closeFunc_eq (h : Inv b s) (hc : s.connection c.protocol = some c.id) (refused : Bool) :
    s.closeFunc c refused =
      if refused then (State.failReturn, s) else (State.success, s.release c) := by
  unfold closeFunc
  simp only [h.read_eq hc, hc]
  rw [Ledger.free_of_live fun id hid => ?_]
  · rfl
  · rw [List.mem_singleton.mp hid]
    exact h.live _ _ hc

theorem Inv.release (h : Inv b s) (hc : s.connection c.protocol = some c.id)
    (hno : ∀ i, s.cmFd i ≠ some c) : Inv b (s.release c) where
  valid := h.valid
  filled i c' hc' := by
    obtain ⟨hopen, hconn⟩ := h.filled i c' hc'
    refine ⟨hopen, ?_⟩
    have hne : c'.protocol ≠ c.protocol := by
      intro hp
      have hid : c'.id = c.id := Option.some.inj (hconn.symm.trans (hp ▸ hc))
      have hsame : c' = c := by
        cases c'; cases c
        simp_all
      exact hno i (hsame ▸ hc')
    exact (Function.update_of_ne hne ..).trans hconn
  supported p id hp := by
    by_cases hpc : p = c.protocol
    · subst hpc
      simp [Descriptors.release] at hp
    · exact h.supported p id ((Function.update_of_ne hpc ..).symm.trans hp)
  lt p id hp := by
    by_cases hpc : p = c.protocol
    · subst hpc
      simp [Descriptors.release] at hp
    · exact h.lt p id ((Function.update_of_ne hpc ..).symm.trans hp)
  live p id hp := by
    by_cases hpc : p = c.protocol
    · subst hpc
      simp [Descriptors.release] at hp
    · have hq := (Function.update_of_ne hpc ..).symm.trans hp
      simp only [Descriptors.release, List.mem_append, List.mem_singleton, not_or]
      exact ⟨h.live p id hq, fun hid => hpc (h.apart p _ id hq (hid ▸ hc))⟩
  freed_lt id hid := by
    rcases List.mem_append.mp hid with hid | hid
    · exact h.freed_lt id hid
    · rw [List.mem_singleton.mp hid]
      exact h.lt _ _ hc
  apart p q id hp hq := by
    have hne : ∀ r, Function.update s.connection c.protocol none r = some id →
        s.connection r = some id := by
      intro r hr
      by_cases hrc : r = c.protocol
      · subst hrc
        simp at hr
      · exact (Function.update_of_ne hrc ..).symm.trans hr
    exact h.apart p q id (hne p hp) (hne q hq)
  clean := by
    refine ⟨h.clean.faults, List.Nodup.append h.clean.once (List.nodup_singleton _) ?_⟩
    intro id hid hid'
    rw [List.mem_singleton.mp hid'] at hid
    exact h.live _ _ hc hid

theorem Inv.empty_of_unlocked (h : Inv b s) (hlock : s.fdLock = false) (i : Nat) :
    s.cmFd i = none := by
  cases hi : s.cmFd i with
  | none => rfl
  | some c =>
    have hvalid := (h.valid i).mpr (h.filled i c hi).1
    rw [fdIsValid_iff, hlock] at hvalid
    exact absurd hvalid.1 (by simp)

theorem Inv.lock (h : Inv b s) : Inv b { s with fdLock := true } := by
  refine { h with valid := fun fd => ?_ }
  rw [← h.valid fd, fdIsValid_iff, fdIsValid_iff]
  cases hlock : s.fdLock with
  | true => rfl
  | false => simp [h.empty_of_unlocked hlock]

theorem Inv.unlock (h : Inv b s) (hnone : s.opened = []) : Inv b { s with fdLock := false } := by
  refine { h with valid := fun fd => ?_ }
  rw [fdIsValid_iff, hnone]
  simp

theorem Inv.place (h : Inv b s) (hlock : s.fdLock = true)
    (hc : s.connection c.protocol = some c.id) {i : Nat} (hi : i < cmMaxFdNum) :
    Inv b { s with
      cmFd := Function.update s.cmFd i (some c)
      opened := s.opened ++ [(i : Int)] } := by
  refine { h with valid := fun fd => ?_, filled := fun j c' hj => ?_ }
  · rw [fdIsValid_iff, List.mem_append, ← h.valid fd, fdIsValid_iff, List.mem_singleton]
    simp only [hlock, true_and]
    by_cases hfd : fd = (i : Int)
    · subst hfd
      simp only [Int.toNat_natCast, Function.update_self]
      simp only [Option.some.injEq, exists_eq', and_true, or_true, iff_true]
      omega
    · simp only [hfd, or_false]
      refine and_congr_right fun hrange => ?_
      rw [Function.update_of_ne (by omega)]
  · by_cases hji : j = i
    · subst hji
      simp only [Function.update_self, Option.some.injEq] at hj
      subst hj
      exact ⟨List.mem_append_right _ (List.mem_singleton_self _), hc⟩
    · simp only [Function.update_of_ne hji] at hj
      exact ⟨List.mem_append_left _ (h.filled j c' hj).1, (h.filled j c' hj).2⟩

theorem Inv.recycle (h : Inv b s) (hfd : fd ∈ s.opened) :
    Inv b { s.recycleFd fd.toNat with opened := s.opened.filter (· ≠ fd) } := by
  obtain ⟨-, ⟨hfd0, hfd3⟩, -⟩ := fdIsValid_iff.mp ((h.valid fd).mpr hfd)
  refine { h with valid := fun other => ?_, filled := fun j c hj => ?_ }
  · rw [fdIsValid_iff, List.mem_filter, ← h.valid other, fdIsValid_iff]
    unfold recycleFd
    by_cases hne : other = fd
    · subst hne
      simp
    · simp only [hne, ne_eq, not_false_eq_true, decide_true, and_true]
      refine and_congr_right fun _ => and_congr_right fun hrange => ?_
      rw [Function.update_of_ne (by omega)]
  · have hji : j ≠ fd.toNat := by
      rintro rfl
      simp [recycleFd] at hj
    simp only [recycleFd, Function.update_of_ne hji] at hj
    obtain ⟨hopen, hconn⟩ := h.filled j c hj
    refine ⟨List.mem_filter.mpr ⟨hopen, ?_⟩, hconn⟩
    simp only [ne_eq, decide_not, Bool.not_eq_eq_eq_not, Bool.not_true, decide_eq_false_iff_not]
    omega

/-! ## The calls -/

theorem Inv.openConnection (h : Inv b s) (protocol : CmProtocol) (made : Bool) :
    (s.openConnection b protocol made = (none, s) ∧ s.connection protocol = none) ∨
      ∃ c s', s.openConnection b protocol made = (some c, s') ∧ c.protocol = protocol ∧
        s'.connection c.protocol = some c.id ∧ Inv b s' ∧ s'.fdLock = s.fdLock ∧
        s'.cmFd = s.cmFd ∧ s'.opened = s.opened := by
  unfold Descriptors.openConnection
  split
  · next hsupports =>
    refine .inl ⟨rfl, Option.eq_none_iff_forall_ne_some.mpr fun id hid => ?_⟩
    rw [h.supported _ id hid] at hsupports
    cases hsupports
  next hsupports =>
  split
  · next id hid => exact .inr ⟨_, s, rfl, rfl, hid, h, rfl, rfl, rfl⟩
  next hnone =>
    split
    · exact .inl ⟨rfl, hnone⟩
    refine .inr ⟨_, _, rfl, rfl, Function.update_self .., ?_, rfl, rfl, rfl⟩
    have hold : ∀ p id, Function.update s.connection protocol (some s.nextId) p = some id →
        (p = protocol ∧ id = s.nextId) ∨ s.connection p = some id := by
      intro p id hp
      by_cases hpp : p = protocol
      · subst hpp
        rw [Function.update_self] at hp
        exact .inl ⟨rfl, (Option.some.inj hp).symm⟩
      · exact .inr ((Function.update_of_ne hpp ..).symm.trans hp)
    refine ⟨h.valid, fun i c hi => ?_, fun p id hp => ?_, fun p id hp => ?_, fun p id hp => ?_,
      fun id hid => ?_, fun p q id hp hq => ?_, h.clean⟩
    · obtain ⟨hopen, hconn⟩ := h.filled i c hi
      have hne : c.protocol ≠ protocol := by
        rintro hp
        rw [hp, hnone] at hconn
        cases hconn
      exact ⟨hopen, (Function.update_of_ne hne ..).trans hconn⟩
    · rcases hold p id hp with ⟨rfl, -⟩ | hp
      · simpa using hsupports
      · exact h.supported p id hp
    · rcases hold p id hp with ⟨-, rfl⟩ | hp
      · exact Nat.lt_succ_self _
      · exact Nat.lt_succ_of_lt (h.lt p id hp)
    · rcases hold p id hp with ⟨-, rfl⟩ | hp
      · exact fun hfreed => absurd (h.freed_lt _ hfreed) (Nat.lt_irrefl _)
      · exact h.live p id hp
    · exact Nat.lt_succ_of_lt (h.freed_lt id hid)
    · rcases hold p id hp with ⟨hpp, hid⟩ | hp' <;> rcases hold q id hq with ⟨hqp, hid'⟩ | hq'
      · exact hpp.trans hqp.symm
      · exact absurd (h.lt q id hq') (by omega)
      · exact absurd (h.lt p id hp') (by omega)
      · exact h.apart p q id hp' hq'

theorem getFd_cases (s : Descriptors) (c : CmConnection) (lock : Bool) :
    (∃ i < cmMaxFdNum, s.cmFd i = none ∧ s.getFd c lock =
      ((i : Int), { s with fdLock := true, cmFd := Function.update s.cmFd i (some c) })) ∨
    (s.fdLock = false ∧ s.getFd c lock = (State.sysDependMutexCreate, s)) ∨
    ((∀ i < cmMaxFdNum, s.cmFd i ≠ none) ∧
      s.getFd c lock = (State.devModelCmFdNotFound, { s with fdLock := true })) := by
  unfold getFd
  split
  · next hlock => exact .inr (.inl ⟨hlock.1, rfl⟩)
  cases hfind : (List.range cmMaxFdNum).find? fun i => (s.cmFd i).isNone with
  | some i =>
    refine .inl ⟨i, ?_, ?_, by simp only [hfind]⟩
    · exact List.mem_range.mp (List.mem_of_find?_eq_some hfind)
    · simpa using List.find?_some hfind
  | none =>
    refine .inr (.inr ⟨fun i hi => ?_, by simp only [hfind]⟩)
    have hsome := List.find?_eq_none.mp hfind i (List.mem_range.mpr hi)
    simpa using hsome

theorem Inv.holder (h : Inv b s) (hc : s.connection c.protocol = some c.id)
    {i : Nat} {c' : CmConnection} (hi : s.cmFd i = some c') (hp : c'.protocol = c.protocol) :
    c' = c := by
  have hid : c'.id = c.id := Option.some.inj ((hp ▸ (h.filled i c' hi).2).symm.trans hc)
  cases c'
  cases c
  simp_all

theorem Inv.turnAway (h : Inv b s) (hc : s.connection c.protocol = some c.id) (refused : Bool) :
    ((refused = true ∨ ∀ i, s.cmFd i ≠ some c) → Inv b (s.closeFunc c refused).2) ∧
      (Kept (s.closeFunc c refused).2 →
        refused = true ∨ ∀ fd, ¬ s.Holds c.protocol fd) := by
  rw [h.closeFunc_eq hc]
  cases refused with
  | true => exact ⟨fun _ => h, fun _ => .inl rfl⟩
  | false =>
    refine ⟨fun hno => h.release hc (hno.resolve_left nofun), fun hkept => .inr ?_⟩
    rintro fd ⟨hfd, c', hc', hp⟩
    have hsame := h.holder hc hc' hp
    refine hkept.live fd hfd c' hc' ?_
    rw [hsame]
    exact List.mem_append_right _ (List.mem_singleton_self _)

theorem Inv.open_kept (h : Inv b s) (protocol : CmProtocol) (made lock refused : Bool) :
    (s.iotxCmOpen b protocol made lock refused).1 ∉ s.opened ∧
      (Careful s (.open protocol made lock refused) →
        Inv b (s.next b (.open protocol made lock refused))) ∧
      (Kept (s.next b (.open protocol made lock refused)) →
        Careful s (.open protocol made lock refused)) := by
  have hneg : ∀ {fd : Int}, fd < 0 → fd ∉ s.opened := by
    intro fd hfd hmem
    obtain ⟨-, hrange, -⟩ := fdIsValid_iff.mp ((h.valid fd).mpr hmem)
    omega
  rcases h.openConnection protocol made with
    ⟨hnone, hconn⟩ | ⟨c, s', hsome, rfl, hc, h', hl, hf, ho⟩
  · have hopen : s.iotxCmOpen b protocol made lock refused = (State.devModelCmOpenFailed, s) := by
      rw [iotxCmOpen, hnone]
    have hnext : s.next b (.open protocol made lock refused) = s := by
      simp only [next, hopen]
      rfl
    rw [hopen, hnext]
    refine ⟨hneg (show State.devModelCmOpenFailed < 0 by decide), fun _ => h,
      fun _ => .inr (.inr ?_)⟩
    rintro fd ⟨-, c, hc, rfl⟩
    rw [(h.filled _ c hc).2] at hconn
    cases hconn
  have hholds : ∀ fd, s'.Holds c.protocol fd ↔ s.Holds c.protocol fd := by
    intro fd
    rw [Holds, Holds, hf, ho]
  have hfree : ∀ i, s'.cmFd i = some c → s.Holds c.protocol i := by
    intro i hi
    exact (hholds i).mp ⟨(h'.filled i c hi).1, c, hi, rfl⟩
  rcases getFd_cases s' c lock with ⟨i, hi, hnone, hget⟩ | ⟨hunlocked, hget⟩ | ⟨hfull, hget⟩
  · have hopen : s.iotxCmOpen b c.protocol made lock refused = ((i : Int),
        { s' with fdLock := true, cmFd := Function.update s'.cmFd i (some c) }) := by
      simp only [iotxCmOpen, hsome, hget]
      exact if_neg (by omega)
    have hnew : (i : Int) ∉ s'.opened := by
      intro hmem
      obtain ⟨-, -, c', hc'⟩ := fdIsValid_iff.mp ((h'.valid i).mpr hmem)
      rw [Int.toNat_natCast, hnone] at hc'
      cases hc'
    rw [hopen]
    refine ⟨ho ▸ hnew, fun _ => ?_, fun _ => .inr (.inl ⟨i, hi, hf ▸ hnone⟩)⟩
    simp only [next, hopen]
    rw [if_neg (by omega)]
    exact h'.lock.place rfl hc hi
  · have hopen : s.iotxCmOpen b c.protocol made lock refused =
        (State.sysDependMutexCreate, (s'.closeFunc c refused).2) := by
      simp only [iotxCmOpen, hsome, hget]
      exact if_pos (by decide)
    have hnext : s.next b (.open c.protocol made lock refused) = (s'.closeFunc c refused).2 := by
      simp only [next, hopen]
      exact if_pos (by decide)
    obtain ⟨hinv, hkept⟩ := h'.turnAway hc refused
    rw [hopen, hnext]
    refine ⟨hneg (show State.sysDependMutexCreate < 0 by decide),
      fun _ => hinv (.inr fun i => ?_), fun _ => .inr (.inl ⟨0, by decide, ?_⟩)⟩
    · rw [h'.empty_of_unlocked hunlocked]
      exact nofun
    · exact hf ▸ h'.empty_of_unlocked hunlocked 0
  · have hopen : s.iotxCmOpen b c.protocol made lock refused =
        (State.devModelCmFdNotFound, (closeFunc { s' with fdLock := true } c refused).2) := by
      simp only [iotxCmOpen, hsome, hget]
      exact if_pos (by decide)
    have hnext : s.next b (.open c.protocol made lock refused) =
        (closeFunc { s' with fdLock := true } c refused).2 := by
      simp only [next, hopen]
      exact if_pos (by decide)
    obtain ⟨hinv, hkept⟩ := h'.lock.turnAway hc refused
    rw [hopen, hnext]
    refine ⟨hneg (show State.devModelCmFdNotFound < 0 by decide), fun hcareful => hinv ?_,
      fun hk => ?_⟩
    · rcases hcareful with hrefused | ⟨i, hi, hnone⟩ | hno
      · exact .inl hrefused
      · exact absurd (hf ▸ hnone) (hfull i hi)
      · exact .inr fun i hi => hno i (hfree i hi)
    · exact (hkept hk).imp_right fun hno => .inr fun fd hfd => hno fd ((hholds fd).mpr hfd)

theorem Inv.read_slot (h : Inv b s) {i : Nat} (hi : s.cmFd i = some c) :
    s.read c = s := h.read_eq (h.filled i c hi).2

theorem Inv.connect (h : Inv b s) (fd ret thread : Int) :
    Inv b (s.iotxCmConnect b fd ret thread).2 := by
  unfold iotxCmConnect
  split
  · exact h
  split
  · exact h
  next c hc =>
    rw [h.read_slot hc]
    dsimp only
    split
    · exact h
    split
    · split
      · exact h
      · exact { h with }
    · exact { h with }

theorem Inv.call (h : Inv b s) (fd ret : Int) : Inv b (s.iotxCmCall fd ret).2 := by
  unfold iotxCmCall
  split
  · exact h
  split
  · exact h
  next c hc =>
    rw [h.read_slot hc]
    exact h

theorem Inv.close_refused (h : Inv b s) (fd : Int) : Inv b (s.next b (.close fd true)) := by
  simp only [next, iotxCmClose]
  split
  · exact h
  split
  · exact h
  next c hc =>
  have hconn := (h.filled _ c hc).2
  have hpre : Inv b { s with initedConnNum := s.initedConnNum - 1 } := { h with }
  rw [hpre.closeFunc_eq hconn true]
  exact hpre

theorem Inv.next_close_invalid (h : Inv b s) (hfd : fd ∉ s.opened) (refused : Bool) :
    s.next b (.close fd refused) = s := by
  have hinvalid : s.fdIsValid fd = false := by
    rw [← Bool.not_eq_true, h.valid fd]
    exact hfd
  simp only [Descriptors.next, iotxCmClose, hinvalid]
  rfl

def closed (s : Descriptors) (fd : Int) (c : CmConnection) : Descriptors :=
  { ({ s.recycleFd fd.toNat with opened := s.opened.filter (· ≠ fd) }).release c with
    initedConnNum := s.initedConnNum - 1
    fdLock := s.fdLock && decide (1 < s.initedConnNum) }

theorem Inv.next_close (h : Inv b s) (hfd : fd ∈ s.opened) (hc : s.cmFd fd.toNat = some c) :
    s.next b (.close fd false) = s.closed fd c := by
  have hvalid := (h.valid fd).mpr hfd
  have hconn := (h.filled _ c hc).2
  have hpre : Inv b { s with initedConnNum := s.initedConnNum - 1 } := { h with }
  have hclose := hpre.closeFunc_eq hconn false
  rw [if_neg nofun] at hclose
  have hlock := (fdIsValid_iff.mp hvalid).1
  simp only [next, iotxCmClose, hvalid, hc, hclose]
  by_cases hcount : 1 < s.initedConnNum
  · have hne : s.initedConnNum - 1 ≠ 0 := by omega
    simp [closed, Descriptors.release, recycleFd, hcount, hne]
  · have heq : s.initedConnNum - 1 = 0 := by omega
    simp [closed, Descriptors.release, recycleFd, hcount, heq]

theorem Inv.close (h : Inv b s) (hfd : fd ∈ s.opened) :
    (Careful s (.close fd false) → Inv b (s.next b (.close fd false))) ∧
      (Kept (s.next b (.close fd false)) → Careful s (.close fd false)) := by
  obtain ⟨hlock, -, c, hc⟩ := fdIsValid_iff.mp ((h.valid fd).mpr hfd)
  rw [h.next_close hfd hc]
  have hconn := (h.filled _ c hc).2
  constructor
  · intro hcareful
    have hothers := (hcareful hfd).resolve_left nofun
    have hrecycled := h.recycle hfd
    have hreleased := hrecycled.release hconn fun i hi => ?_
    · by_cases hcount : 1 < s.initedConnNum
      · have hsame : s.closed fd c = { (({ s.recycleFd fd.toNat with
            opened := s.opened.filter (· ≠ fd) }).release c) with
              initedConnNum := s.initedConnNum - 1 } := by
          simp [closed, Descriptors.release, recycleFd, hcount]
        rw [hsame]
        exact { hreleased with }
      · have hnone : s.opened.filter (· ≠ fd) = [] := by
          rw [List.filter_eq_nil_iff]
          intro other hother hne
          exact hcount (hothers other hother (by simpa using hne)).1
        have hunlocked := hreleased.unlock hnone
        have hsame : s.closed fd c = { ({ (({ s.recycleFd fd.toNat with
            opened := s.opened.filter (· ≠ fd) }).release c) with fdLock := false }) with
              initedConnNum := s.initedConnNum - 1 } := by
          simp [closed, Descriptors.release, recycleFd, hcount]
        rw [hsame]
        exact { hunlocked with }
    · have hne : i ≠ fd.toNat := by
        rintro rfl
        simp [recycleFd] at hi
      simp only [recycleFd, Function.update_of_ne hne] at hi
      have hother : (i : Int) ≠ fd := by omega
      refine (hothers i (h.filled i c hi).1 hother).2 ?_
      rw [Int.toNat_natCast, hi, hc]
  · intro hkept _
    refine .inr fun other hother hne => ?_
    have hleft : other ∈ (s.closed fd c).opened :=
      List.mem_filter.mpr ⟨hother, by simpa using hne⟩
    obtain ⟨hlock', hrange, c', hc'⟩ := fdIsValid_iff.mp ((hkept.valid other).mpr hleft)
    have hcount : 1 < s.initedConnNum := by
      simpa [closed, hlock] using hlock'
    refine ⟨hcount, fun hsame => ?_⟩
    have hlive := hkept.live other hleft c' hc'
    obtain ⟨-, hfd', -⟩ := fdIsValid_iff.mp ((h.valid fd).mpr hfd)
    have hslot : s.cmFd other.toNat = some c' := by
      have hne' : other.toNat ≠ fd.toNat := by omega
      simpa [closed, Descriptors.release, recycleFd, Function.update_of_ne hne'] using hc'
    rw [hsame, hc] at hslot
    cases hslot
    exact hlive (List.mem_append_right _ (List.mem_singleton_self _))

theorem Inv.next (h : Inv b s) (op : CmOp) (hcareful : Careful s op) : Inv b (s.next b op) := by
  cases op with
  | «open» protocol made lock refused =>
    exact (h.open_kept protocol made lock refused).2.1 hcareful
  | connect fd ret thread => exact h.connect fd ret thread
  | call fd ret => exact h.call fd ret
  | close fd refused =>
    by_cases hfd : fd ∈ s.opened
    · cases refused with
      | true => exact h.close_refused fd
      | false => exact (h.close hfd).1 hcareful
    · rw [h.next_close_invalid hfd]
      exact h

end

end Descriptors

end AliyunIot.Cm
